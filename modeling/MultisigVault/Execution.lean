import MultisigVault.TableSource

/-!
# Working against live lookup tables

Compiling takes the tables that the caller names, in that order.  Executing takes
the tables that the stored message refers to, each of them once, and derives the
ephemeral signers beforehand.
-/

namespace MultisigVault

/-- What execution has to know besides the message. -/
structure ExecutionContext where
  program : Address
  /-- The account that stores the message. -/
  transaction : Address
  vault : Address
  ephemeralSigners : Byte
deriving DecidableEq, Repr

namespace Message

/-- Compiles instructions against the current state of the named tables. -/
def compileWith (source : TableSource) (vault : Address) (instructions : List Instruction)
    (tableKeys : List Address) : Fetching Message := do
  let tables ← source.fetch tableKeys
  liftM ((compile vault instructions tables).mapError Failure.compile)

/-- Lists the accounts needed to execute a message. -/
def resolveWith (message : Message) (source : TableSource) (context : ExecutionContext) :
    Fetching ResolvedAccounts := do
  let ephemeralSigners ← liftM
    ((DerivationScheme.standard.ephemeralSigners context.transaction context.ephemeralSigners
      context.program).mapError Failure.derivation)
  let tables ← source.fetch message.tableKeys
  liftM ((message.resolve context.vault ephemeralSigners tables).mapError Failure.resolve)

/-- Lists the accounts needed to execute a stored message. -/
def resolveStored (bytes : Bytes) (source : TableSource) (context : ExecutionContext) :
    Fetching ResolvedAccounts := do
  let message ← liftM ((load bytes).mapError Failure.load)
  message.resolveWith source context

end Message

namespace Fetching

variable {Value : Type}

/-- What a computation results in, and the keys it asked for. -/
def record (computation : Fetching Value) : Except Failure Value × List Address :=
  computation.run.run []

def value (computation : Fetching Value) : Except Failure Value :=
  computation.record.1

/-- The keys a computation asked for, in order and with repetitions. -/
def asked (computation : Fetching Value) : List Address :=
  computation.record.2

/-- The value together with the keys asked for. -/
def outcome (computation : Fetching Value) : Except Failure (Value × List Address) :=
  computation.value.map fun value => (value, computation.asked)

end Fetching

end MultisigVault
