import MultisigVault.Instruction
import MultisigVault.Message.Basic

/-!
# Resolving a message into accounts

To execute a stored message its addresses have to be listed in full.  The list
starts with the lookup tables, which are read; then come the static keys; then,
lookup by lookup, the addresses loaded as writable and those loaded as readonly.

The vault and the ephemeral signers are derived addresses.  They keep their
place, but nobody can sign for them, so they are never listed as signers: the
multisig program authorizes them.
-/

namespace MultisigVault

/-- A mismatch between a message and the current lookup tables. -/
inductive ResolveError where
  | tableNotFound (table : Address)
  | indexOutOfRange (table : Address) (index : Byte)
deriving DecidableEq, Repr

def ResolveError.message : ResolveError → String
  | .tableNotFound table => "address lookup table `" ++ table.text ++ "` not found"
  | .indexOutOfRange table index =>
      "index " ++ toString index.toNat ++ " is out of range for address lookup table `" ++
        table.text ++ "`"

/-- The accounts to pass when a message is executed, and the tables they were
loaded from. -/
structure ResolvedAccounts where
  accounts : List AccountMeta
  tables : List LookupTable
deriving DecidableEq, Repr

/-- The first table with the given key. -/
def LookupTable.find (tables : List LookupTable) (key : Address) :
    Except ResolveError LookupTable :=
  match tables.find? fun table => table.key = key with
  | some table => .ok table
  | none => .error (.tableNotFound key)

/-- The address at an index of the table. -/
def LookupTable.load (table : LookupTable) (index : Byte) : Except ResolveError Address :=
  match table.get? index with
  | some address => .ok address
  | none => .error (.indexOutOfRange table.key index)

/-- The accounts of one lookup, the writable ones first. -/
def TableLookup.resolve (lookup : TableLookup) (tables : List LookupTable) :
    Except ResolveError (List AccountMeta) := do
  let table ← LookupTable.find tables lookup.table
  let writable ← lookup.writableIndexes.mapM table.load
  let readonly ← lookup.readonlyIndexes.mapM table.load
  return writable.map (.writable · false) ++ readonly.map (.readonly · false)

namespace Message

/-- The static keys with their privileges.  The addresses in `derived` are not
listed as signers. -/
def staticAccounts (message : Message) (derived : List Address) : List AccountMeta :=
  message.staticKeys.mapIdx fun index key =>
    { address := key
      isSigner := message.isSignerIndex index && !derived.contains key
      isWritable := message.isWritableIndex index }

/-- Lists the accounts needed to execute a message.  A missing table is reported
before an index that is out of range. -/
def resolve (message : Message) (vault : Address) (ephemeralSigners : List Address)
    (tables : List LookupTable) : Except ResolveError ResolvedAccounts := do
  let used ← message.tableKeys.mapM (LookupTable.find tables)
  let loaded ← message.lookups.mapM fun lookup => lookup.resolve used
  return {
    accounts :=
      used.map (fun table => .readonly table.key false) ++
        message.staticAccounts (vault :: ephemeralSigners) ++ loaded.flatten
    tables := used }

end Message

end MultisigVault
