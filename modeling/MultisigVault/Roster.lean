import MultisigVault.Instruction
import MultisigVault.Message.Basic

/-!
# Rosters

A roster lists every account that some instructions refer to, once and in the
order of first reference, with all privileges that any of the references asks
for.  The payer comes first and is a writable signer.

Accounts that do not sign can be moved out of the roster into lookups.  What
remains becomes the static keys of a message.  Only an account marked as called
would have to stay, but nothing ever sets that mark: programs may be moved into
lookups like other accounts.  So the roster keeps no such mark, and does not ask
for one when accounts are moved.
-/

namespace MultisigVault

/-- Instructions that do not fit a message. -/
inductive CompileError where
  | tooManyKeys
  | noWritableSigner
  | payerNotFirst (payer found : Address)
  | lookupIndexOverflow
  | unknownKey (key : Address)
deriving DecidableEq, Repr

def CompileError.message : CompileError → String
  | .tooManyKeys =>
      "message references more than " ++ toString Message.capacity ++ " account keys"
  | .noWritableSigner => "message has no writable signer"
  | .payerNotFirst payer found =>
      "first writable signer `" ++ found.text ++ "` is not the payer `" ++ payer.text ++ "`"
  | .lookupIndexOverflow => "address lookup table index overflowed during compilation"
  | .unknownKey key =>
      "encountered unknown account key `" ++ key.text ++ "` during instruction compilation"

/-- Sizes of the blocks of static keys: all signers, and the readonly keys among
the signers and among the others. -/
structure Header where
  signers : Byte
  readonlySigners : Byte
  readonlyNonSigners : Byte
deriving DecidableEq, Repr

structure Roster where
  payer : Address
  accounts : List AccountMeta
deriving DecidableEq, Repr

/-- The accounts an instruction refers to.  Being called is no privilege, so the
program counts as a readonly account that does not sign. -/
def Instruction.references (instruction : Instruction) : List AccountMeta :=
  .readonly instruction.program false :: instruction.accounts

namespace Roster

/-- Adds the privileges of a reference to its account, or the account at the end
if it is new. -/
def note : List AccountMeta → AccountMeta → List AccountMeta
  | [], reference => [reference]
  | account :: rest, reference =>
      if account.address = reference.address then
        { account with
          isSigner := account.isSigner || reference.isSigner
          isWritable := account.isWritable || reference.isWritable } :: rest
      else
        account :: note rest reference

/-- The roster of the accounts that the payer and the instructions bring in. -/
def ofInstructions (payer : Address) (instructions : List Instruction) : Roster :=
  ⟨payer, (instructions.flatMap Instruction.references).foldl note [.writable payer true]⟩

def length (roster : Roster) : Nat :=
  roster.accounts.length

def isEmpty (roster : Roster) : Bool :=
  roster.accounts.isEmpty

def find? (roster : Roster) (address : Address) : Option AccountMeta :=
  roster.accounts.find? fun account => account.address = address

/-- Addresses with exactly the given privileges, in roster order. -/
def block (roster : Roster) (isSigner isWritable : Bool) : List Address :=
  (roster.accounts.filter fun account =>
    account.isSigner == isSigner && account.isWritable == isWritable).map AccountMeta.address

/-- The given addresses that a table holds, each with its index. -/
def locate (table : LookupTable) (addresses : List Address) :
    Except CompileError (List (Byte × Address)) :=
  (addresses.filterMap fun address =>
    (table.position? address).map fun index => (index, address)).mapM fun (index, address) =>
      if index < 256 then .ok (UInt8.ofNat index, address) else .error .lookupIndexOverflow

/-- Moves every account that does not sign and that the table holds into a
lookup.  A table that holds none makes no lookup. -/
def extract (roster : Roster) (table : LookupTable) :
    Except CompileError (Option (TableLookup × LoadedAddresses) × Roster) := do
  let writable ← locate table (roster.block false true)
  let readonly ← locate table (roster.block false false)
  if writable.isEmpty && readonly.isEmpty then
    return (none, roster)
  let lookup : TableLookup := ⟨table.key, writable.map Prod.fst, readonly.map Prod.fst⟩
  let loaded : LoadedAddresses := ⟨writable.map Prod.snd, readonly.map Prod.snd⟩
  let remaining := roster.accounts.filter fun account =>
    !loaded.toList.contains account.address
  return (some (lookup, loaded), { roster with accounts := remaining })

/-- A computation that changes a roster in place.  A failure leaves the roster as the
steps before it made it. -/
abbrev Updating := ExceptT CompileError (StateM Roster)

/-- Moves into a lookup, in place, what the table holds.  Nothing leaves the roster
before both groups are known to have one-byte indexes. -/
def extractInPlace (table : LookupTable) : Updating (Option (TableLookup × LoadedAddresses)) := do
  let writable ← locate table ((← get).block false true)
  let readonly ← locate table ((← get).block false false)
  let loaded : LoadedAddresses := ⟨writable.map Prod.snd, readonly.map Prod.snd⟩
  modify fun roster => { roster with
    accounts := roster.accounts.filter fun account => !loaded.toList.contains account.address }
  if writable.isEmpty && readonly.isEmpty then
    return none
  return some (⟨table.key, writable.map Prod.fst, readonly.map Prod.fst⟩, loaded)

/-- What offering a roster to a table returns, and the roster afterwards. -/
def offer (roster : Roster) (table : LookupTable) :
    Except CompileError (Option (TableLookup × LoadedAddresses)) × Roster :=
  (extractInPlace table).run.run roster

/-- The accounts in four blocks: writable signers, readonly signers, writable
non-signers, readonly non-signers. -/
def staticKeys (roster : Roster) : List Address :=
  roster.block true true ++ roster.block true false ++
    roster.block false true ++ roster.block false false

/-- A size that must fit one byte. -/
def byteSize (size : Nat) : Except CompileError Byte :=
  if size < 256 then .ok (UInt8.ofNat size) else .error .tooManyKeys

/-- The static keys and the sizes of their blocks.  The payer must come first. -/
def layout (roster : Roster) : Except CompileError (Header × List Address) := do
  if Message.capacity < roster.length then
    throw .tooManyKeys
  match (roster.block true true).head? with
  | none => throw .noWritableSigner
  | some first =>
      if first ≠ roster.payer then
        throw (.payerNotFirst roster.payer first)
  let readonlySigners := (roster.block true false).length
  let header : Header :=
    { signers := ← byteSize ((roster.block true true).length + readonlySigners)
      readonlySigners := ← byteSize readonlySigners
      readonlyNonSigners := ← byteSize (roster.block false false).length }
  return (header, roster.staticKeys)

end Roster

end MultisigVault
