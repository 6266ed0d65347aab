import MultisigVault.LookupTable

/-!
# Vault messages

A message is the compact form in which a multisig stores the instructions its
vault will execute.  Programs and accounts are named by one-byte indexes into a
combined list of addresses: the static keys of the message, then the addresses
its lookups load as writable, then those they load as readonly.

The static keys stand in four consecutive blocks: writable signers, readonly
signers, writable non-signers and readonly non-signers.  Three of the sizes are
stored or follow from stored counts, and the fourth is what remains.
-/

namespace MultisigVault

/-- An instruction whose program and accounts are named by index. -/
structure CompiledInstruction where
  programIndex : Byte
  accountIndexes : List Byte
  data : Bytes
deriving DecidableEq, Repr

/-- The addresses a message loads from one lookup table. -/
structure TableLookup where
  table : Address
  writableIndexes : List Byte
  readonlyIndexes : List Byte
deriving DecidableEq, Repr

structure Message where
  signers : Byte
  writableSigners : Byte
  writableNonSigners : Byte
  staticKeys : List Address
  instructions : List CompiledInstruction
  lookups : List TableLookup
deriving DecidableEq, Repr

/-- All indexes of a lookup, those loaded as writable first. -/
def TableLookup.indexes (lookup : TableLookup) : List Byte :=
  lookup.writableIndexes ++ lookup.readonlyIndexes

namespace Message

/-- The number of addresses that one-byte indexes can name. -/
def capacity : Nat := 256

def readonlySigners (message : Message) : Nat :=
  message.signers.toNat - message.writableSigners.toNat

def readonlyNonSigners (message : Message) : Nat :=
  message.staticKeys.length - message.signers.toNat - message.writableNonSigners.toNat

/-- Number of addresses in the combined list. -/
def keyCount (message : Message) : Nat :=
  message.staticKeys.length + (message.lookups.flatMap TableLookup.indexes).length

/-- Whether a static key has to authorize the execution. -/
def isSignerIndex (message : Message) (index : Nat) : Bool :=
  index < message.signers.toNat

/-- Whether a static key is writable.  No index past the static keys is. -/
def isWritableIndex (message : Message) (index : Nat) : Bool :=
  index < message.staticKeys.length &&
    (index < message.writableSigners.toNat ||
      (message.signers.toNat ≤ index &&
        index - message.signers.toNat < message.writableNonSigners.toNat))

/-- Tables the message refers to, each once and in the order of first reference. -/
def tableKeys (message : Message) : List Address :=
  (message.lookups.map TableLookup.table).eraseDups

end Message

end MultisigVault
