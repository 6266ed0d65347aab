import MultisigVault.Proofs.Compilation.Canonical
import MultisigVault.Proofs.Resolution.Reading

/-!
# The lookups of a compiled message

Reading a lookup of a compiled message from the table it was made for gives back
the addresses the table drained, in the same order.  The combined list of the
message is therefore the one its instructions were numbered by.
-/

namespace MultisigVault

open Outcome

namespace Drain

/-- What is drained is held by the table within the reach of a one-byte index. -/
def Sound (drain : Drain) : Prop :=
  ∀ isWritable, ∀ key ∈ drain.group isWritable,
    key ∈ drain.table.addresses ∧ drain.table.addresses.idxOf key < 256

theorem mapM_load {drain : Drain} (hsound : drain.Sound) (isWritable : Bool) :
    ((drain.group isWritable).map drain.table.index).mapM drain.table.load =
      .ok (drain.group isWritable) := by
  have hload : ∀ key ∈ drain.group isWritable,
      (drain.table.load ∘ drain.table.index) key = .ok (id key) := by
    intro key hkey
    obtain ⟨hheld, hreach⟩ := hsound isWritable key hkey
    exact LookupTable.load_eq_ok_iff.mpr (LookupTable.get?_index hheld hreach)
  rw [List.mapM_map, mapM_eq_ok_map hload, List.map_id]

/-- Reading a lookup from its own table gives back what was drained. -/
theorem read_lookup {drain : Drain} (hsound : drain.Sound) {tables : List LookupTable}
    (hfind : LookupTable.find tables drain.table.key = .ok drain.table) :
    drain.lookup.read tables = .ok drain.loaded :=
  TableLookup.read_eq_ok_iff.mpr
    ⟨drain.table, hfind, mapM_load hsound true, mapM_load hsound false⟩

theorem length_indexes (drains : List Drain) :
    ((drains.map lookup).flatMap TableLookup.indexes).length =
      (LoadedAddresses.concat (drains.map loaded)).length := by
  induction drains with
  | nil => rfl
  | cons drain rest ih =>
      simp only [List.map_cons, List.flatMap_cons, LoadedAddresses.concat,
        LoadedAddresses.length, List.length_append, TableLookup.indexes, lookup, loaded,
        List.length_map] at ih ⊢
      omega

end Drain

namespace Roster

theorem table_mem_of_mem_drains {roster : Roster} {tables : List LookupTable} {drain : Drain}
    (hmem : drain ∈ roster.drains tables) : drain.table ∈ tables := by
  obtain ⟨place, hdrain⟩ := List.mem_iff_getElem?.mp hmem
  rw [getElem?_drains, Option.map_eq_some_iff] at hdrain
  obtain ⟨table, htable, rfl⟩ := hdrain
  exact List.mem_of_getElem? htable

theorem sound_of_mem_drains {roster : Roster} {tables : List LookupTable}
    (hreached : roster.ReachedBy tables) {drain : Drain} (hmem : drain ∈ roster.drains tables) :
    drain.Sound := by
  intro isWritable key hkey
  obtain ⟨place, hdrain⟩ := List.mem_iff_getElem?.mp hmem
  obtain ⟨hblock, hfirst⟩ := (mem_group_iff hdrain).mp hkey
  have hnonSigner := mem_nonSigners_of_mem_block hblock
  exact ⟨hfirst.holds, reachedBy_iff.mp hreached place drain.table key hfirst hnonSigner⟩

theorem mem_drains_of_mem_active {roster : Roster} {tables : List LookupTable} {drain : Drain}
    (hmem : drain ∈ Drain.active (roster.drains tables)) : drain ∈ roster.drains tables :=
  List.mem_of_mem_filter hmem

/-- What each lookup of a compiled message loads. -/
def groups (roster : Roster) (tables : List LookupTable) : List LoadedAddresses :=
  (Drain.active (roster.drains tables)).map Drain.loaded

theorem concat_groups (roster : Roster) (tables : List LookupTable) :
    LoadedAddresses.concat (roster.groups tables) = roster.loaded tables :=
  Drain.concat_active _

/-- The lookups of a compiled message name what the tables drained, also when
addresses have been appended to the tables since. -/
theorem mapM_read_lookups {roster : Roster} {instructions : List Instruction}
    {tables live : List LookupTable} (hkeys : (tables.map LookupTable.key).Nodup)
    (hreached : roster.ReachedBy tables)
    (hgrown : ∀ lookup ∈ (roster.message instructions tables).lookups,
      LookupTable.GrownAt tables live lookup.table) :
    (roster.message instructions tables).lookups.mapM (fun lookup => lookup.read live) =
      .ok (roster.groups tables) := by
  rw [message, List.mapM_map]
  apply mapM_eq_ok_map
  intro drain hactive
  have hdrain := mem_drains_of_mem_active hactive
  have hread := Drain.read_lookup (sound_of_mem_drains hreached hdrain)
    (LookupTable.find_of_mem hkeys (table_mem_of_mem_drains hdrain))
  exact TableLookup.read_of_grownAt (hgrown _ (List.mem_map_of_mem hactive)) hread

theorem combinedKeys_message {roster : Roster} {instructions : List Instruction}
    {tables : List LookupTable} (hkeys : (tables.map LookupTable.key).Nodup)
    (hreached : roster.ReachedBy tables) :
    (roster.message instructions tables).combinedKeys tables = .ok (roster.combined tables) := by
  rw [Message.combinedKeys, mapM_read_lookups hkeys hreached fun lookup _ =>
    LookupTable.grownAt_self tables lookup.table, ok_bind, concat_groups, pure_eq_ok]
  rfl

/-- The message counts every account of the roster once. -/
theorem keyCount_message (roster : Roster) (instructions : List Instruction)
    (tables : List LookupTable) :
    (roster.message instructions tables).keyCount = roster.length := by
  rw [Message.keyCount, message, Drain.length_indexes, Drain.concat_active, ← loaded,
    length_staticKeys_add_loaded]

end Roster

end MultisigVault
