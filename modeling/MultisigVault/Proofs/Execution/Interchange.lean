import MultisigVault.Proofs.Execution.Fetching
import MultisigVault.Proofs.LookupTable.AccountData
import MultisigVault.Proofs.Resolution.Reading

/-!
# Interchangeable sources

The same tables can be held in memory or stand in the data of their accounts.  Whatever
metadata the accounts hold, the two sources give the same answer for every key, so that
no computation tells one from the other.
-/

namespace MultisigVault

open Outcome

/-- A table together with the metadata that its account stores in front of it. -/
structure TableAccount where
  table : LookupTable
  metadata : Bytes
  length_metadata : metadata.length = LookupTable.metadataSize

namespace TableAccount

/-- The data of the account. -/
def data (account : TableAccount) : Bytes :=
  account.metadata ++ account.table.addresses.flatMap Address.bytes

/-- The account with a key. -/
def find? (stored : List TableAccount) (key : Address) : Option TableAccount :=
  stored.find? fun account => account.table.key = key

/-- The state of all accounts if only the given ones exist. -/
def accounts (stored : List TableAccount) : Accounts := fun key =>
  match find? stored key with
  | some account => .data account.data
  | none => .missing

/-- The tables of the given accounts, held in memory. -/
def store (stored : List TableAccount) : TableStore :=
  TableStore.ofList (stored.map table)

/-! ## The answers of the two sources -/

/-- The data of an account is read as its table. -/
theorem ofAccountData_data (account : TableAccount) :
    LookupTable.ofAccountData account.table.key account.data = .ok account.table :=
  LookupTable.ofAccountData_append account.length_metadata account.table.key
    account.table.addresses

theorem answer_accounts (stored : List TableAccount) (key : Address) :
    (accounts stored).source.answer key = .ok ((find? stored key).map table) := by
  simp only [Accounts.source, accounts]
  cases hfound : find? stored key with
  | none => rfl
  | some account =>
      have hkey : account.table.key = key := by simpa using List.find?_some hfound
      dsimp only
      rw [← hkey, ofAccountData_data]
      rfl

theorem answer_store {stored : List TableAccount}
    (hkeys : (stored.map fun account => account.table.key).Nodup) (key : Address) :
    (store stored).source.answer key = .ok ((find? stored key).map table) := by
  have htables : ((stored.map table).map LookupTable.key).Nodup := by
    rwa [List.map_map]
  calc
    (store stored).source.answer key
    _ = .ok ((stored.map table).reverse.find? fun table => table.key = key) := by
        rw [store, TableStore.source, ← TableStore.get?_ofList]
    _ = .ok ((stored.map table).find? fun table => table.key = key) := by
        rw [LookupTable.find?_perm htables (List.reverse_perm _).symm]
    _ = .ok ((find? stored key).map table) := by
        rw [List.find?_map, find?]
        rfl

/-- Tables in memory and tables in account data are one and the same source. -/
theorem source_accounts {stored : List TableAccount}
    (hkeys : (stored.map fun account => account.table.key).Nodup) :
    (accounts stored).source = (store stored).source := by
  have hanswer : (accounts stored).source.answer = (store stored).source.answer := by
    funext key
    rw [answer_accounts, answer_store hkeys]
  exact congrArg TableSource.mk hanswer

/-- The table with a key is the only one that has it. -/
theorem table_store_eq_ok_iff {stored : List TableAccount}
    (hkeys : (stored.map fun account => account.table.key).Nodup) {key : Address}
    {table : LookupTable} :
    (store stored).source.table key = .ok table ↔
      table ∈ stored.map TableAccount.table ∧ table.key = key := by
  have htables : ((stored.map TableAccount.table).reverse.map LookupTable.key).Nodup := by
    rw [List.map_reverse, List.nodup_reverse, List.map_map]
    exact hkeys
  rw [store, TableSource.table_ofList, mapError_eq_ok_iff, LookupTable.find_eq_ok_iff,
    LookupTable.find?_eq_some_iff htables, List.mem_reverse]

end TableAccount

namespace TableSource

/-- Whether two sources have the same value and are asked for the same keys in whatever
they are used for. -/
structure Interchangeable (left right : TableSource) : Prop where
  fetch : ∀ keys, (left.fetch keys).record = (right.fetch keys).record
  compileWith : ∀ vault instructions tableKeys,
    (Message.compileWith left vault instructions tableKeys).record =
      (Message.compileWith right vault instructions tableKeys).record
  resolveWith : ∀ (message : Message) context,
    (message.resolveWith left context).record = (message.resolveWith right context).record
  resolveStored : ∀ bytes context,
    (Message.resolveStored bytes left context).record =
      (Message.resolveStored bytes right context).record

/-- Tables with different keys serve equally well from memory and from the data of
their accounts, whatever the metadata is.  Compiling against them succeeds exactly if
every key has a table and compiling with these tables does, in the order of the keys and
as often as a key occurs. -/
theorem accounts_interchangeable_with_store (stored : List TableAccount)
    (hkeys : (stored.map fun account => account.table.key).Nodup) :
    Interchangeable (TableAccount.accounts stored).source (TableAccount.store stored).source ∧
    ∀ vault instructions tableKeys message,
      (Message.compileWith (TableAccount.store stored).source vault instructions
        tableKeys).value = .ok message ↔
      ∃ tables, List.Forall₂ (fun key table =>
          table ∈ stored.map TableAccount.table ∧ table.key = key) tableKeys tables ∧
        Message.compile vault instructions tables = .ok message := by
  constructor
  · rw [TableAccount.source_accounts hkeys]
    exact ⟨fun _ => rfl, fun _ _ _ => rfl, fun _ _ => rfl, fun _ _ => rfl⟩
  · intro vault instructions tableKeys message
    rw [Message.value_compileWith_eq_ok_iff]
    simp only [mapM_eq_ok_iff, TableAccount.table_store_eq_ok_iff hkeys]

/-- Two accounts with different metadata.  The tables are compiled against in an order
and number of their own, and a key without a table stops the fetching. -/
theorem accounts_interchangeable_with_store_repeated_key :
    let stored : List TableAccount :=
      [⟨⟨.uniform 8, [.uniform 3, .uniform 4]⟩, List.replicate 56 0, by decide⟩,
        ⟨⟨.uniform 9, [.uniform 3]⟩, List.replicate 56 7, by decide⟩]
    let instruction : Instruction := ⟨.uniform 2, [.writable (.uniform 3) false], [7]⟩
    let live := (TableAccount.accounts stored).source
    let held := (TableAccount.store stored).source
    let keys : List Address := [.uniform 9, .uniform 8, .uniform 9]
    let message : Message :=
      ⟨1, 1, 0, [.uniform 1, .uniform 2], [⟨1, [2], [7]⟩], [⟨.uniform 9, [0], []⟩]⟩
    (Message.compileWith live (.uniform 1) [instruction] keys).value = .ok message ∧
    (live.fetch [.uniform 8, .uniform 6, .uniform 9]).record =
      (held.fetch [.uniform 8, .uniform 6, .uniform 9]).record ∧
    (held.fetch [.uniform 8, .uniform 6, .uniform 9]).value =
      .error (.resolve (.tableNotFound (.uniform 6))) := by
  intro stored instruction live held keys message
  have hkeys : (stored.map fun account => account.table.key).Nodup := by decide
  obtain ⟨hsame, hcompile⟩ := accounts_interchangeable_with_store stored hkeys
  have hheld : (Message.compileWith held (.uniform 1) [instruction] keys).value =
      .ok message := by
    apply (hcompile _ _ _ _).mpr
    refine ⟨[⟨.uniform 9, [.uniform 3]⟩, ⟨.uniform 8, [.uniform 3, .uniform 4]⟩,
      ⟨.uniform 9, [.uniform 3]⟩], ?_, by decide⟩
    exact .cons (by decide) (.cons (by decide) (.cons (by decide) .nil))
  refine ⟨?_, hsame.fetch _, by decide⟩
  rw [Fetching.value, hsame.compileWith]
  exact hheld

end TableSource

end MultisigVault
