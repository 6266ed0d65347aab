import MultisigVault.Failure

/-!
# Sources of lookup tables

A source answers for every key whether a table exists, and which addresses it
holds now.  Two kinds are provided: tables held in memory, and the raw data of
accounts, from which a table is read on demand.
-/

namespace MultisigVault

structure TableSource where
  answer : Address → Except Failure (Option LookupTable)

/-- Tables held in memory, at most one per key. -/
structure TableStore where
  tables : List LookupTable
deriving Repr

namespace TableStore

def empty : TableStore :=
  ⟨[]⟩

/-- Puts a table in place of an earlier one with the same key. -/
def insert (store : TableStore) (table : LookupTable) : TableStore :=
  ⟨table :: store.tables.filter fun other => other.key ≠ table.key⟩

/-- Inserts tables in order, so that the last one with a key stays. -/
def ofList (tables : List LookupTable) : TableStore :=
  tables.foldl insert empty

def get? (store : TableStore) (key : Address) : Option LookupTable :=
  store.tables.find? fun table => table.key = key

def source (store : TableStore) : TableSource :=
  ⟨fun key => .ok (store.get? key)⟩

end TableStore

/-- What the network knows of an account. -/
inductive AccountState where
  | missing
  | data (bytes : Bytes)
  | unavailable (reason : String)
deriving DecidableEq, Repr

/-- The state of every account. -/
abbrev Accounts := Address → AccountState

/-- Reads the tables out of account data. -/
def Accounts.source (accounts : Accounts) : TableSource :=
  ⟨fun key =>
    match accounts key with
    | .missing => .ok none
    | .data bytes => ((LookupTable.ofAccountData key bytes).map some).mapError .lookupTable
    | .unavailable reason => .error (.fetch reason)⟩

/-- A computation that asks a source for tables and records the keys asked for, also
when it fails. -/
abbrev Fetching := ExceptT Failure (StateM (List Address))

namespace TableSource

/-- Asks for one table. -/
def ask (source : TableSource) (key : Address) : Fetching (Option LookupTable) := do
  modify (· ++ [key])
  source.answer key

/-- Asks for tables in the order of their keys.  All of them must exist. -/
def fetch (source : TableSource) (keys : List Address) : Fetching (List LookupTable) :=
  keys.mapM fun key => do
    match ← source.ask key with
    | some table => return table
    | none => throw (.resolve (.tableNotFound key))

end TableSource

end MultisigVault
