import MultisigVault.Execution
import MultisigVault.Proofs.Outcome

/-!
# What sources are asked and answer

Fetching tables asks for one key after the other, up to the first that has no table.
Its value is that of looking up every key, so it can be told apart from the record of
the keys.  Tables held in memory answer as the last inserted one with the key.
-/

namespace MultisigVault

open Outcome

/-! ## Tables held in memory -/

namespace TableStore

/-- A table is held in place of any other with its key. -/
theorem get?_insert (store : TableStore) (table : LookupTable) (key : Address) :
    (store.insert table).get? key = if table.key = key then some table else store.get? key := by
  rw [get?, insert]
  by_cases hkey : table.key = key
  · rw [if_pos hkey, List.find?_cons_of_pos (by simpa using hkey)]
  · rw [if_neg hkey, List.find?_cons_of_neg (by simpa using hkey), List.find?_filter, get?]
    congr 1
    funext other
    have hother : other.key = key → other.key ≠ table.key := fun heq h => hkey (h.symm.trans heq)
    simpa using hother

/-- What is inserted later goes in front of what is held already. -/
theorem get?_foldl_insert (store : TableStore) (tables : List LookupTable) (key : Address) :
    (tables.foldl insert store).get? key =
      (tables.reverse.find? fun table => table.key = key).or (store.get? key) := by
  induction tables generalizing store with
  | nil => rfl
  | cons table rest ih =>
      rw [List.foldl_cons, ih, get?_insert, List.reverse_cons, List.find?_append, Option.or_assoc]
      congr 1
      by_cases hkey : table.key = key
      · simp [hkey]
      · simp [hkey]

/-- The last table with a key answers for it. -/
theorem get?_ofList (tables : List LookupTable) (key : Address) :
    (ofList tables).get? key = tables.reverse.find? fun table => table.key = key := by
  rw [ofList, get?_foldl_insert]
  exact Option.or_none

end TableStore

/-! ## Fetching tables -/

namespace TableSource

/-- The table with a key, which has to exist. -/
def table (source : TableSource) (key : Address) : Except Failure LookupTable := do
  match ← source.answer key with
  | some table => return table
  | none => throw (.resolve (.tableNotFound key))

/-- The keys that are asked for: all of them up to the first that has no table. -/
def asks (source : TableSource) : List Address → List Address
  | [] => []
  | key :: rest =>
      key ::
        match source.table key with
        | .ok _ => source.asks rest
        | .error _ => []

/-- Fetching looks every key up and records what it asks for. -/
theorem run_fetch (source : TableSource) (keys record : List Address) :
    (source.fetch keys).run.run record = (keys.mapM source.table, record ++ source.asks keys) := by
  induction keys generalizing record with
  | nil =>
      rw [asks, List.append_nil]
      rfl
  | cons key rest ih =>
      rw [fetch, List.mapM_cons, ← fetch, List.mapM_cons, asks]
      simp only [ask, run_bind, run_modify, run_liftM]
      rw [table]
      cases source.answer key with
      | error cause => rfl
      | ok found =>
          cases found with
          | none => rfl
          | some table =>
              simp only [ok_bind, pure_eq_ok, run_pure, ih, List.append_assoc, List.singleton_append]
              cases rest.mapM source.table <;> rfl

/-- If every key has a table, all of them are asked for. -/
theorem asks_of_mapM_eq_ok {source : TableSource} {keys : List Address}
    {tables : List LookupTable} (htables : keys.mapM source.table = .ok tables) :
    source.asks keys = keys := by
  induction keys generalizing tables with
  | nil => rfl
  | cons key rest ih =>
      rw [List.mapM_cons] at htables
      obtain ⟨table, htable, hrest⟩ := bind_eq_ok_iff.mp htables
      obtain ⟨others, hothers, -⟩ := bind_eq_ok_iff.mp hrest
      rw [asks, htable, ih hothers]

/-- A table held in memory is found as the first one with its key in the list of the
tables from the last to the first. -/
theorem table_ofList (tables : List LookupTable) (key : Address) :
    (TableStore.ofList tables).source.table key =
      (LookupTable.find tables.reverse key).mapError .resolve := by
  rw [table, TableStore.source, LookupTable.find]
  dsimp only
  rw [TableStore.get?_ofList, ok_bind]
  cases tables.reverse.find? fun table => table.key = key <;> rfl

end TableSource

/-! ## Compiling against a source -/

namespace Message

variable (source : TableSource) (vault : Address) (instructions : List Instruction)
  (tableKeys : List Address)

/-- Compiling against a source is fetching the tables and compiling with them. -/
theorem record_compileWith :
    (compileWith source vault instructions tableKeys).record =
      (do
        let tables ← tableKeys.mapM source.table
        (compile vault instructions tables).mapError .compile,
      source.asks tableKeys) := by
  rw [compileWith, Fetching.record]
  simp only [run_bind, TableSource.run_fetch, List.nil_append]
  cases tableKeys.mapM source.table <;> rfl

theorem value_compileWith_eq_ok_iff {message : Message} :
    (compileWith source vault instructions tableKeys).value = .ok message ↔
      ∃ tables, tableKeys.mapM source.table = .ok tables ∧
        compile vault instructions tables = .ok message := by
  rw [Fetching.value, record_compileWith, bind_eq_ok_iff]
  simp only [mapError_eq_ok_iff]

end Message

end MultisigVault
