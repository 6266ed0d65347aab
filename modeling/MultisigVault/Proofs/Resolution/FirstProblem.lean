import MultisigVault.Proofs.Resolution.Reading

/-!
# Which problem resolving reports

The tables of a message may be missing, and they may be shorter than its lookups
expect.  Resolving reports a missing table before any index, and of several problems
of one kind the first: among the tables in the order of first reference, among the
indexes lookup by lookup.  A table that was found once is found again.
-/

namespace MultisigVault

open Outcome

/-! ## Missing tables and indexes out of range -/

namespace LookupTable

/-- Whether no table has a key. -/
def Missing (tables : List LookupTable) (key : Address) : Prop :=
  ∀ table ∈ tables, table.key ≠ key

instance (tables : List LookupTable) (key : Address) : Decidable (Missing tables key) :=
  inferInstanceAs (Decidable (∀ table ∈ tables, _))

/-- Whether the first table with a key is long enough for an index. -/
def InRange (tables : List LookupTable) (place : Address × Byte) : Prop :=
  ∃ table ∈ tables.find? fun table => table.key = place.1,
    place.2.toNat < table.addresses.length

instance (tables : List LookupTable) (place : Address × Byte) :
    Decidable (InRange tables place) :=
  inferInstanceAs (Decidable (∃ table ∈ tables.find? _, _))

variable {tables : List LookupTable} {key : Address} {table : LookupTable}

theorem missing_iff :
    Missing tables key ↔ (tables.find? fun table => table.key = key) = none := by
  simp [Missing, List.find?_eq_none]

theorem cause?_find (tables : List LookupTable) (key : Address) :
    cause? (find tables key) =
      (Option.guard (fun key => Missing tables key) key).map .tableNotFound := by
  rw [find]
  split
  · next table hfound => simp [Option.guard, missing_iff, hfound]
  · next hnone => simp [Option.guard, missing_iff, hnone]

theorem inRange_iff (hfind : find tables key = .ok table) {index : Byte} :
    InRange tables (key, index) ↔ index.toNat < table.addresses.length := by
  simp [InRange, find_eq_ok_iff.mp hfind]

theorem cause?_load (hfind : find tables key = .ok table) (index : Byte) :
    cause? (table.load index) =
      (Option.guard (fun index => ¬InRange tables (key, index)) index).map
        (.indexOutOfRange key) := by
  have hkey : table.key = key := key_of_find hfind
  by_cases hlt : index.toNat < table.addresses.length
  · have hrange := (inRange_iff hfind).mpr hlt
    have hget : table.get? index = some table.addresses[index.toNat] :=
      List.getElem?_eq_getElem hlt
    simp [load, hget, Option.guard, hrange]
  · have hrange : ¬InRange tables (key, index) := fun hin => hlt ((inRange_iff hfind).mp hin)
    have hget : table.get? index = none := List.getElem?_eq_none (Nat.not_lt.mp hlt)
    simp [load, hget, Option.guard, hrange, hkey]

end LookupTable

/-! ## The order of the walk -/

/-- The indexes of a lookup, the writable ones first, each with the key of its table. -/
def TableLookup.places (lookup : TableLookup) : List (Address × Byte) :=
  lookup.indexes.map (lookup.table, ·)

/-- Every index that a message names, lookup by lookup. -/
def Message.walk (message : Message) : List (Address × Byte) :=
  message.lookups.flatMap TableLookup.places

/-- The error that reports an index out of range. -/
def ResolveError.outOfRange (place : Address × Byte) : ResolveError :=
  .indexOutOfRange place.1 place.2

/-- Reading a lookup from a table that is there fails on its first index out of range. -/
theorem TableLookup.cause?_read {lookup : TableLookup} {tables : List LookupTable}
    {table : LookupTable} (hfind : LookupTable.find tables lookup.table = .ok table) :
    cause? (lookup.read tables) =
      (lookup.places.find? fun place => ¬LookupTable.InRange tables place).map
        ResolveError.outOfRange := by
  have hload (indexes : List Byte) : cause? (indexes.mapM table.load) =
      ((indexes.map (lookup.table, ·)).find? fun place =>
        ¬LookupTable.InRange tables place).map ResolveError.outOfRange := by
    rw [cause?_mapM fun index _ => LookupTable.cause?_load hfind index, List.find?_map,
      Option.map_map, ← List.findSome?_guard, List.map_findSome?]
    rfl
  have hchain : cause? (lookup.read tables) =
      (cause? (lookup.writableIndexes.mapM table.load)).or
        (cause? (lookup.readonlyIndexes.mapM table.load)) := by
    rw [read, hfind, ok_bind]
    cases lookup.writableIndexes.mapM table.load with
    | error cause => rfl
    | ok writable => cases lookup.readonlyIndexes.mapM table.load <;> rfl
  rw [hchain, hload, hload, places, indexes, List.map_append, List.find?_append, Option.map_or]

namespace Message

/-- The first pass fails on the first table that is missing. -/
theorem cause?_mapM_find (message : Message) (tables : List LookupTable) :
    cause? (message.tableKeys.mapM (LookupTable.find tables)) =
      ((message.lookups.map TableLookup.table).find? fun key =>
        LookupTable.Missing tables key).map .tableNotFound := by
  rw [cause?_mapM fun key _ => LookupTable.cause?_find tables key, tableKeys,
    ← FirstOccurrence.find?_eraseDups, ← List.findSome?_guard, List.map_findSome?]
  rfl

/-- The walk fails on the first index out of range, if all tables are there. -/
theorem cause?_mapM_read {message : Message} {tables : List LookupTable}
    (hpresent : ∀ lookup ∈ message.lookups,
      ∃ table, LookupTable.find tables lookup.table = .ok table) :
    cause? (message.lookups.mapM fun lookup => lookup.read tables) =
      (message.walk.find? fun place => ¬LookupTable.InRange tables place).map
        ResolveError.outOfRange := by
  have hread : ∀ lookup ∈ message.lookups, cause? (lookup.read tables) =
      (lookup.places.find? fun place => ¬LookupTable.InRange tables place).map
        ResolveError.outOfRange := by
    intro lookup hlookup
    obtain ⟨table, hfind⟩ := hpresent lookup hlookup
    exact TableLookup.cause?_read hfind
  rw [cause?_mapM hread, walk, List.find?_flatMap, List.map_findSome?]
  rfl

/-- Every table that the first pass found is found again during the walk. -/
theorem exists_find_used {message : Message} {tables used : List LookupTable}
    (hused : message.tableKeys.mapM (LookupTable.find tables) = .ok used) {lookup : TableLookup}
    (hlookup : lookup ∈ message.lookups) :
    ∃ table, LookupTable.find used lookup.table = .ok table ∧
      LookupTable.find tables lookup.table = .ok table := by
  have hkey : lookup.table ∈ message.tableKeys := mem_tableKeys_iff.mpr ⟨lookup, hlookup, rfl⟩
  obtain ⟨table, -, hfind⟩ := exists_mem_of_mapM_eq_ok hused hkey
  exact ⟨table, (find_used hused hlookup).trans hfind, hfind⟩

/-- Resolving fails on the first missing table, and otherwise on the first index out of
range. -/
theorem cause?_resolve (message : Message) (vault : Address) (ephemeralSigners : List Address)
    (tables : List LookupTable) :
    cause? (message.resolve vault ephemeralSigners tables) =
      (((message.lookups.map TableLookup.table).find? fun key =>
          LookupTable.Missing tables key).map .tableNotFound).or
        ((message.walk.find? fun place => ¬LookupTable.InRange tables place).map
          ResolveError.outOfRange) := by
  rw [← cause?_mapM_find]
  cases hused : message.tableKeys.mapM (LookupTable.find tables) with
  | error cause => rw [resolve, hused, error_bind, cause?_error, cause?_error, Option.some_or]
  | ok used =>
      have hpresent : ∀ lookup ∈ message.lookups,
          ∃ table, LookupTable.find tables lookup.table = .ok table := by
        intro lookup hlookup
        obtain ⟨table, -, hfind⟩ := exists_find_used hused hlookup
        exact ⟨table, hfind⟩
      rw [cause?_ok, Option.none_or, ← cause?_mapM_read hpresent,
        ← cause?_map _ (List.map LoadedAddresses.accounts), ← mapM_map, ← mapM_resolve_used hused,
        resolve, hused, ok_bind]
      cases message.lookups.mapM fun lookup => lookup.resolve used <;> rfl

section

variable {message : Message} {vault : Address} {ephemeralSigners : List Address}
  {tables : List LookupTable}

theorem find?_missing_eq_none_iff {keys : List Address} :
    (keys.find? fun key => LookupTable.Missing tables key) = none ↔
      ∀ key ∈ keys, ¬LookupTable.Missing tables key := by
  simp [List.find?_eq_none]

theorem resolve_eq_tableNotFound_iff {key : Address} :
    message.resolve vault ephemeralSigners tables = .error (.tableNotFound key) ↔
      (message.lookups.map TableLookup.table).find?
        (fun key => LookupTable.Missing tables key) = some key := by
  rw [← cause?_eq_some_iff, cause?_resolve]
  simp [Option.or_eq_some_iff, ResolveError.outOfRange]

theorem resolve_eq_indexOutOfRange_iff {table : Address} {index : Byte} :
    message.resolve vault ephemeralSigners tables = .error (.indexOutOfRange table index) ↔
      (∀ key ∈ message.lookups.map TableLookup.table, ¬LookupTable.Missing tables key) ∧
        message.walk.find? (fun place => ¬LookupTable.InRange tables place) =
          some (table, index) := by
  rw [← cause?_eq_some_iff, cause?_resolve, ← find?_missing_eq_none_iff]
  simp [Option.or_eq_some_iff, ResolveError.outOfRange]

theorem resolve_succeeds_iff :
    (∃ resolved, message.resolve vault ephemeralSigners tables = .ok resolved) ↔
      (∀ key ∈ message.lookups.map TableLookup.table, ¬LookupTable.Missing tables key) ∧
        ∀ place ∈ message.walk, LookupTable.InRange tables place := by
  rw [← cause?_eq_none_iff, cause?_resolve, Option.or_eq_none_iff, Option.map_eq_none_iff,
    Option.map_eq_none_iff, find?_missing_eq_none_iff]
  simp [List.find?_eq_none]

end

/-- Resolving reports the first problem it meets.  That is the first missing table in
the order of reference, whatever the indexes are; if none is missing, it is the first
index out of range when the lookups are walked one after the other, the writable
indexes of each before the readonly ones; and if there is none either, it succeeds.
No table is missing during the walk that was found before it. -/
theorem resolve_reports_first_problem (message : Message) (vault : Address)
    (ephemeralSigners : List Address) (tables : List LookupTable) :
    let outcome := message.resolve vault ephemeralSigners tables
    let keys := message.lookups.map TableLookup.table
    (∀ key, outcome = .error (.tableNotFound key) ↔
      keys.find? (fun key => LookupTable.Missing tables key) = some key) ∧
    ((∃ key, outcome = .error (.tableNotFound key)) ↔
      ∃ key ∈ keys, LookupTable.Missing tables key) ∧
    (∀ table index, outcome = .error (.indexOutOfRange table index) ↔
      (∀ key ∈ keys, ¬LookupTable.Missing tables key) ∧
        message.walk.find? (fun place => ¬LookupTable.InRange tables place) =
          some (table, index)) ∧
    ((∃ table index, outcome = .error (.indexOutOfRange table index)) ↔
      (∀ key ∈ keys, ¬LookupTable.Missing tables key) ∧
        ∃ place ∈ message.walk, ¬LookupTable.InRange tables place) ∧
    ((∃ resolved, outcome = .ok resolved) ↔
      (∀ key ∈ keys, ¬LookupTable.Missing tables key) ∧
        ∀ place ∈ message.walk, LookupTable.InRange tables place) ∧
    ∀ used, message.tableKeys.mapM (LookupTable.find tables) = .ok used →
      ∀ lookup ∈ message.lookups, ∃ table, LookupTable.find used lookup.table = .ok table ∧
        LookupTable.find tables lookup.table = .ok table := by
  intro outcome keys
  refine ⟨fun _ => resolve_eq_tableNotFound_iff, ?_, fun _ _ => resolve_eq_indexOutOfRange_iff, ?_,
    resolve_succeeds_iff, fun used hused lookup => exists_find_used hused⟩
  · simp only [outcome, resolve_eq_tableNotFound_iff, ← Option.isSome_iff_exists,
      List.find?_isSome, decide_eq_true_eq, keys]
  · have hsome : (message.walk.find? fun place => ¬LookupTable.InRange tables place).isSome = true ↔
        ∃ place ∈ message.walk, ¬LookupTable.InRange tables place := by
      simp only [List.find?_isSome, decide_eq_true_eq]
    rw [Option.isSome_iff_exists, Prod.exists] at hsome
    simp only [outcome, resolve_eq_indexOutOfRange_iff, exists_and_left, hsome, keys]

/-- Three lookups, of which the second one names an index that its table lacks.  This is
reported only when the table of the third one is there, and not any more when an empty
table comes to stand in front of that of the first one. -/
theorem resolve_reports_first_problem_stale_tables :
    let message : Message :=
      ⟨1, 1, 0, [.uniform 1], [],
        [⟨.uniform 8, [0], []⟩, ⟨.uniform 9, [4, 0], [7]⟩, ⟨.uniform 7, [], []⟩]⟩
    let incomplete : List LookupTable :=
      [⟨.uniform 9, [.uniform 3]⟩, ⟨.uniform 8, [.uniform 4]⟩]
    let complete : List LookupTable := ⟨.uniform 7, []⟩ :: incomplete
    let shadowed : List LookupTable := ⟨.uniform 8, []⟩ :: complete
    let outcome := message.resolve (.uniform 1) []
    outcome incomplete = .error (.tableNotFound (.uniform 7)) ∧
    outcome complete = .error (.indexOutOfRange (.uniform 9) 4) ∧
    outcome shadowed = .error (.indexOutOfRange (.uniform 8) 0) ∧
    ∃ used, message.tableKeys.mapM (LookupTable.find shadowed) = .ok used ∧
      ∀ lookup ∈ message.lookups, ∃ table, LookupTable.find used lookup.table = .ok table := by
  intro message incomplete complete shadowed outcome
  obtain ⟨hmissing, -⟩ := resolve_reports_first_problem message (.uniform 1) [] incomplete
  obtain ⟨-, -, hcomplete, -⟩ := resolve_reports_first_problem message (.uniform 1) [] complete
  obtain ⟨-, -, hshadowed, -, -, hfound⟩ :=
    resolve_reports_first_problem message (.uniform 1) [] shadowed
  have hused : message.tableKeys.mapM (LookupTable.find shadowed) =
      .ok [⟨.uniform 8, []⟩, ⟨.uniform 9, [.uniform 3]⟩, ⟨.uniform 7, []⟩] := by decide
  refine ⟨(hmissing _).mpr (by decide), (hcomplete _ _).mpr (by decide),
    (hshadowed _ _).mpr (by decide), _, hused, ?_⟩
  intro lookup hlookup
  obtain ⟨table, hfind, -⟩ := hfound _ hused lookup hlookup
  exact ⟨table, hfind⟩

end Message

end MultisigVault
