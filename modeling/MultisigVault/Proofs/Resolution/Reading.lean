import Mathlib.Data.List.Nodup
import MultisigVault.Proofs.FirstOccurrence
import MultisigVault.Proofs.Outcome
import MultisigVault.Resolution

/-!
# Reading lookups from tables

A lookup is read from the first table with its key.  Reading depends on nothing
but the addresses at the indexes the lookup names, so it is not disturbed when
addresses are appended to the table.  Resolving a message reads each of its
lookups once.
-/

namespace MultisigVault

open Outcome
open scoped List

/-! ## Finding a table -/

namespace LookupTable

theorem find_eq_ok_iff {tables : List LookupTable} {key : Address} {table : LookupTable} :
    find tables key = .ok table ↔ tables.find? (fun table => table.key = key) = some table := by
  rw [find]
  split
  · next found hfound => simp [hfound]
  · next hnone => simp [hnone]

theorem key_of_find {tables : List LookupTable} {key : Address} {table : LookupTable}
    (hfind : find tables key = .ok table) : table.key = key := by
  simpa using List.find?_some (find_eq_ok_iff.mp hfind)

/-- Among tables with different keys each one is found under its key. -/
theorem find_of_mem {tables : List LookupTable} (hkeys : (tables.map key).Nodup)
    {table : LookupTable} (hmem : table ∈ tables) : find tables table.key = .ok table := by
  cases hfound : tables.find? fun other => other.key = table.key with
  | none =>
      have hnone := List.find?_eq_none.mp hfound table hmem
      simp at hnone
  | some other =>
      have hkey : other.key = table.key := by simpa using List.find?_some hfound
      have heq := List.inj_on_of_nodup_map hkeys (List.mem_of_find?_eq_some hfound) hmem hkey
      rw [find, hfound, heq]

/-- Among tables with different keys each one, and no other, is found under its key. -/
theorem find?_eq_some_iff {tables : List LookupTable} (hkeys : (tables.map key).Nodup)
    {key : Address} {table : LookupTable} :
    tables.find? (fun table => table.key = key) = some table ↔
      table ∈ tables ∧ table.key = key := by
  constructor
  · intro hfound
    exact ⟨List.mem_of_find?_eq_some hfound, by simpa using List.find?_some hfound⟩
  · rintro ⟨hmem, rfl⟩
    exact find_eq_ok_iff.mp (find_of_mem hkeys hmem)

/-- Among tables with different keys the order does not matter. -/
theorem find?_perm {tables others : List LookupTable} (hkeys : (tables.map key).Nodup)
    (hperm : tables ~ others) (key : Address) :
    others.find? (fun table => table.key = key) = tables.find? fun table => table.key = key := by
  have hother : (others.map LookupTable.key).Nodup := (hperm.map _).nodup_iff.mp hkeys
  ext table
  rw [find?_eq_some_iff hkeys, find?_eq_some_iff hother, hperm.mem_iff]

/-- Whether the first table with a key, if there is one, has only been appended to. -/
def GrownAt (old new : List LookupTable) (key : Address) : Prop :=
  ∀ table, find old key = .ok table →
    ∃ grown, find new key = .ok grown ∧ table.addresses <+: grown.addresses

theorem grownAt_self (tables : List LookupTable) (key : Address) : GrownAt tables tables key :=
  fun table hfind => ⟨table, hfind, List.prefix_rfl⟩

theorem load_eq_ok_iff {table : LookupTable} {index : Byte} {address : Address} :
    table.load index = .ok address ↔ table.get? index = some address := by
  rw [load]
  split
  · next found hfound => simp [hfound]
  · next hnone => simp [hnone]

theorem load_of_prefix {table grown : LookupTable}
    (hgrown : table.addresses <+: grown.addresses) {index : Byte} {address : Address}
    (hload : table.load index = .ok address) : grown.load index = .ok address := by
  rw [load_eq_ok_iff, get?] at hload ⊢
  obtain ⟨appended, happended⟩ := hgrown
  rw [← happended, List.getElem?_append_left (List.getElem?_eq_some_iff.mp hload).1, hload]

end LookupTable

/-! ## Reading a lookup -/

/-- The accounts of loaded addresses, the writable ones first. -/
def LoadedAddresses.accounts (loaded : LoadedAddresses) : List AccountMeta :=
  loaded.writable.map (.writable · false) ++ loaded.readonly.map (.readonly · false)

namespace TableLookup

/-- The addresses a lookup names in the first table with its key. -/
def read (lookup : TableLookup) (tables : List LookupTable) :
    Except ResolveError LoadedAddresses := do
  let table ← LookupTable.find tables lookup.table
  let writable ← lookup.writableIndexes.mapM table.load
  let readonly ← lookup.readonlyIndexes.mapM table.load
  return ⟨writable, readonly⟩

theorem read_eq_ok_iff {lookup : TableLookup} {tables : List LookupTable}
    {loaded : LoadedAddresses} :
    lookup.read tables = .ok loaded ↔
      ∃ table, LookupTable.find tables lookup.table = .ok table ∧
        lookup.writableIndexes.mapM table.load = .ok loaded.writable ∧
        lookup.readonlyIndexes.mapM table.load = .ok loaded.readonly := by
  simp only [read, bind_eq_ok_iff, pure_eq_ok, Except.ok.injEq]
  constructor
  · rintro ⟨table, hfind, writable, hwritable, readonly, hreadonly, rfl⟩
    exact ⟨table, hfind, hwritable, hreadonly⟩
  · rintro ⟨table, hfind, hwritable, hreadonly⟩
    exact ⟨table, hfind, _, hwritable, _, hreadonly, rfl⟩

theorem resolve_eq (lookup : TableLookup) (tables : List LookupTable) :
    lookup.resolve tables = (lookup.read tables).map LoadedAddresses.accounts := by
  rw [resolve, read]
  cases LookupTable.find tables lookup.table with
  | error cause => rfl
  | ok table =>
      rw [ok_bind, ok_bind]
      cases lookup.writableIndexes.mapM table.load with
      | error cause => rfl
      | ok writable =>
          rw [ok_bind, ok_bind]
          cases lookup.readonlyIndexes.mapM table.load <;> rfl

/-- Appending addresses to the table of a lookup does not change what it names. -/
theorem read_of_grownAt {lookup : TableLookup} {old new : List LookupTable}
    (hgrown : LookupTable.GrownAt old new lookup.table) {loaded : LoadedAddresses}
    (hread : lookup.read old = .ok loaded) : lookup.read new = .ok loaded := by
  obtain ⟨table, hfind, hwritable, hreadonly⟩ := read_eq_ok_iff.mp hread
  obtain ⟨grown, hgrownFind, hstarts⟩ := hgrown table hfind
  rw [mapM_eq_ok_iff] at hwritable hreadonly
  refine read_eq_ok_iff.mpr ⟨grown, hgrownFind, ?_, ?_⟩
  · exact mapM_eq_ok_iff.mpr (hwritable.imp fun _ _ => LookupTable.load_of_prefix hstarts)
  · exact mapM_eq_ok_iff.mpr (hreadonly.imp fun _ _ => LookupTable.load_of_prefix hstarts)

end TableLookup

/-! ## Reading a message -/

namespace Message

/-- The combined list in index order, read from the tables: the static keys, then
what the lookups name as writable, then what they name as readonly. -/
def combinedKeys (message : Message) (tables : List LookupTable) :
    Except ResolveError (List Address) := do
  let groups ← message.lookups.mapM fun lookup => lookup.read tables
  return message.staticKeys ++ (LoadedAddresses.concat groups).toList

theorem mem_tableKeys_iff {message : Message} {key : Address} :
    key ∈ message.tableKeys ↔ ∃ lookup ∈ message.lookups, lookup.table = key := by
  simp [tableKeys, List.mem_eraseDups]

theorem map_key_of_mapM_find {tables used : List LookupTable} {keys : List Address}
    (hused : keys.mapM (LookupTable.find tables) = .ok used) :
    used.map LookupTable.key = keys := by
  rw [mapM_eq_ok_iff] at hused
  induction hused with
  | nil => rfl
  | cons hfind _ ih => rw [List.map_cons, ih, LookupTable.key_of_find hfind]

/-- The tables used by a message answer its lookups as all tables do. -/
theorem find_used {message : Message} {tables used : List LookupTable}
    (hused : message.tableKeys.mapM (LookupTable.find tables) = .ok used) {lookup : TableLookup}
    (hlookup : lookup ∈ message.lookups) :
    LookupTable.find used lookup.table = LookupTable.find tables lookup.table := by
  have hkeys : (used.map LookupTable.key).Nodup := by
    rw [map_key_of_mapM_find hused]
    exact FirstOccurrence.nodup_eraseDups _
  obtain ⟨table, htable, hfind⟩ := exists_mem_of_mapM_eq_ok hused
    (mem_tableKeys_iff.mpr ⟨lookup, hlookup, rfl⟩)
  rw [hfind, ← LookupTable.key_of_find hfind]
  exact LookupTable.find_of_mem hkeys htable

/-- The lookups name among the tables in use what they name among all tables. -/
theorem mapM_resolve_used {message : Message} {tables used : List LookupTable}
    (hused : message.tableKeys.mapM (LookupTable.find tables) = .ok used) :
    message.lookups.mapM (fun lookup => lookup.resolve used) =
      message.lookups.mapM fun lookup => (lookup.read tables).map LoadedAddresses.accounts := by
  apply mapM_congr
  intro lookup hlookup
  rw [TableLookup.resolve_eq, TableLookup.read, find_used hused hlookup, TableLookup.read]

/-- The static keys are listed in their order. -/
theorem map_address_staticAccounts (message : Message) (derived : List Address) :
    (message.staticAccounts derived).map AccountMeta.address = message.staticKeys := by
  apply List.ext_getElem?
  intro index
  rw [List.getElem?_map, staticAccounts, List.getElem?_mapIdx, Option.map_map]
  exact Option.map_id_apply

/-- Resolving lists the tables in use, the static keys and what each lookup names,
lookup by lookup. -/
theorem resolve_eq_ok_iff {message : Message} {vault : Address} {ephemeralSigners : List Address}
    {tables : List LookupTable} {resolved : ResolvedAccounts} :
    message.resolve vault ephemeralSigners tables = .ok resolved ↔
      ∃ groups, message.tableKeys.mapM (LookupTable.find tables) = .ok resolved.tables ∧
        message.lookups.mapM (fun lookup => lookup.read tables) = .ok groups ∧
        resolved.accounts = resolved.tables.map (fun table => .readonly table.key false) ++
          message.staticAccounts (vault :: ephemeralSigners) ++
            groups.flatMap LoadedAddresses.accounts := by
  simp only [resolve, bind_eq_ok_iff, pure_eq_ok, Except.ok.injEq]
  constructor
  · rintro ⟨used, hused, accounts, haccounts, rfl⟩
    rw [mapM_resolve_used hused, mapM_map, map_eq_ok_iff] at haccounts
    obtain ⟨groups, hgroups, rfl⟩ := haccounts
    exact ⟨groups, hused, hgroups, by rw [List.flatMap]⟩
  · rintro ⟨groups, hused, hgroups, haccounts⟩
    refine ⟨resolved.tables, hused, groups.map LoadedAddresses.accounts, ?_, ?_⟩
    · rw [mapM_resolve_used hused, mapM_map, map_eq_ok_iff]
      exact ⟨groups, hgroups, rfl⟩
    · rw [← List.flatMap, ← haccounts]

/-- If the tables are found and the lookups can be read from them, the accounts are listed
in order. -/
theorem resolve_of_read {message : Message} {tables used : List LookupTable}
    {groups : List LoadedAddresses}
    (hused : message.tableKeys.mapM (LookupTable.find tables) = .ok used)
    (hread : message.lookups.mapM (fun lookup => lookup.read tables) = .ok groups)
    (vault : Address) (ephemeralSigners : List Address) :
    message.resolve vault ephemeralSigners tables =
      .ok {
        accounts := used.map (fun table => .readonly table.key false) ++
          message.staticAccounts (vault :: ephemeralSigners) ++
            groups.flatMap LoadedAddresses.accounts
        tables := used } :=
  resolve_eq_ok_iff.mpr ⟨groups, hused, hread, rfl⟩

end Message

end MultisigVault
