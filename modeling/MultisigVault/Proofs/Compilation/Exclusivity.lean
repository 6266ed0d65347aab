import MultisigVault.Proofs.Compilation.Lookups

/-!
# Each address is either static or drained once

The addresses that the vault and the instructions refer to are divided between the
static keys and the lookups.  The vault, the signers and the addresses that no
table holds stay static.  Any other address is drained by its first holder, at the
index of its first occurrence there, and the lookups name nothing else.
-/

namespace MultisigVault

open LookupTable (NoneHolds FirstHolder)

/-! ## What a lookup names -/

/-- Whether an address has to stay among the static keys. -/
def StaysStatic (vault : Address) (instructions : List Instruction) (tables : List LookupTable)
    (key : Address) : Prop :=
  key = vault ∨ Asked AccountMeta.isSigner instructions key ∨ NoneHolds tables key

instance (vault : Address) (instructions : List Instruction) (tables : List LookupTable)
    (key : Address) : Decidable (StaysStatic vault instructions tables key) :=
  inferInstanceAs (Decidable (_ ∨ _ ∨ _))

/-- Whether a lookup of the table at a place in the order names an address. -/
def Names (tables : List LookupTable) (source : Nat × TableLookup) (key : Address) : Prop :=
  ∃ table, tables[source.1]? = some table ∧
    ∃ index ∈ source.2.indexes, table.get? index = some key

/-- How the addresses that the vault and the instructions refer to are divided
between the static keys of a message and its lookups.  The sources are the lookups
of the message, each with the place of the table it was made from. -/
structure DividesAddresses (vault : Address) (instructions : List Instruction)
    (tables : List LookupTable) (message : Message) (sources : List (Nat × TableLookup)) :
    Prop where
  lookups : sources.map Prod.snd = message.lookups
  in_table_order : (sources.map Prod.fst).Pairwise (· < ·)
  made_from : ∀ source ∈ sources, ∃ table, tables[source.1]? = some table ∧
    source.2.table = table.key
  nonempty : ∀ source ∈ sources, source.2.indexes ≠ []
  static : ∀ key, key = vault ∨ Mentioned instructions key →
    StaysStatic vault instructions tables key →
      message.staticKeys.count key = 1 ∧ ∀ source ∈ sources, ¬Names tables source key
  drained : ∀ key, key = vault ∨ Mentioned instructions key →
    ¬StaysStatic vault instructions tables key →
      key ∉ message.staticKeys ∧
        ∃ source ∈ sources, ∃ table, FirstHolder tables source.1 table key ∧
          (∀ other ∈ sources, Names tables other key ↔ other = source) ∧
          ∃ index : Byte, index.toNat = table.addresses.idxOf key ∧
            (index ∈ source.2.writableIndexes ↔
              Asked AccountMeta.isWritable instructions key) ∧
            (index ∈ source.2.readonlyIndexes ↔
              ¬Asked AccountMeta.isWritable instructions key)
  nothing_else : ∀ source ∈ sources, source.2.indexes.Nodup ∧
    ∀ index ∈ source.2.indexes, ∃ key table, Mentioned instructions key ∧
      ¬StaysStatic vault instructions tables key ∧ FirstHolder tables source.1 table key ∧
        index.toNat = table.addresses.idxOf key

namespace Drain

theorem mem_toList_iff {drain : Drain} {key : Address} :
    key ∈ drain.loaded.toList ↔ ∃ isWritable, key ∈ drain.group isWritable := by
  rw [LoadedAddresses.toList, List.mem_append, Bool.exists_bool, or_comm]
  rfl

theorem indexes_lookup (drain : Drain) :
    drain.lookup.indexes = drain.loaded.toList.map drain.table.index :=
  (List.map_append ..).symm

namespace Sound

variable {drain : Drain} (hsound : drain.Sound) {key : Address}

include hsound

theorem get?_index (hkey : key ∈ drain.loaded.toList) :
    drain.table.get? (drain.table.index key) = some key := by
  obtain ⟨isWritable, hgroup⟩ := mem_toList_iff.mp hkey
  obtain ⟨hheld, hreach⟩ := hsound isWritable key hgroup
  exact LookupTable.get?_index hheld hreach

theorem toNat_index (hkey : key ∈ drain.loaded.toList) :
    (drain.table.index key).toNat = drain.table.addresses.idxOf key := by
  obtain ⟨isWritable, hgroup⟩ := mem_toList_iff.mp hkey
  exact UInt8.toNat_ofNat_of_lt' (hsound isWritable key hgroup).2

/-- A drained address is the only one with its index. -/
theorem index_inj {other : Address} (hkey : key ∈ drain.loaded.toList)
    (hother : other ∈ drain.loaded.toList)
    (heq : drain.table.index key = drain.table.index other) : key = other := by
  have hget := hsound.get?_index hkey
  rw [heq, hsound.get?_index hother] at hget
  exact (Option.some.inj hget).symm

theorem index_mem_group_iff (hkey : key ∈ drain.loaded.toList) {isWritable : Bool} :
    drain.table.index key ∈ (drain.group isWritable).map drain.table.index ↔
      key ∈ drain.group isWritable := by
  constructor
  · intro hindex
    obtain ⟨other, hgroup, heq⟩ := List.mem_map.mp hindex
    have hother : other ∈ drain.loaded.toList := mem_toList_iff.mpr ⟨isWritable, hgroup⟩
    rw [hsound.index_inj hkey hother heq.symm]
    exact hgroup
  · exact List.mem_map_of_mem

end Sound

end Drain

/-! ## The lookups and their tables -/

namespace Roster

variable {roster : Roster} {tables : List LookupTable} {place : Nat} {drain : Drain}
  {source : Nat × TableLookup} {key : Address}

/-- One table drains no address twice. -/
theorem WellFormed.nodup_loaded (hroster : roster.WellFormed)
    (hmem : drain ∈ roster.drains tables) : drain.loaded.toList.Nodup := by
  induction tables generalizing roster with
  | nil => cases hmem
  | cons table rest ih =>
      rcases List.mem_cons.mp hmem with heq | hrest
      · have hblocks : (roster.block false true ++ roster.block false false).Nodup := by
          have hstatic := hroster.nodup_staticKeys
          rw [staticKeys, List.append_assoc] at hstatic
          exact (List.nodup_append.mp hstatic).2.1
        rw [heq]
        exact hblocks.sublist (List.filter_sublist.append List.filter_sublist)
      · exact ih (hroster.without table) hrest

/-- The first holder of an address that does not sign is the table that drains it. -/
theorem mem_loaded_iff (hdrain : (roster.drains tables)[place]? = some drain) :
    key ∈ drain.loaded.toList ↔
      key ∈ roster.nonSigners ∧ FirstHolder tables place drain.table key := by
  rw [Drain.mem_toList_iff, Bool.exists_bool, mem_group_iff hdrain, mem_group_iff hdrain,
    mem_nonSigners_iff, ← or_and_right, or_comm]

theorem getElem?_table (hdrain : (roster.drains tables)[place]? = some drain) :
    tables[place]? = some drain.table := by
  rw [getElem?_drains, Option.map_eq_some_iff] at hdrain
  obtain ⟨table, htable, rfl⟩ := hdrain
  exact htable

/-- The lookups that the tables make, each with the place of its table. -/
def sources (roster : Roster) (tables : List LookupTable) : List (Nat × TableLookup) :=
  ((roster.drains tables).zipIdx.filter fun placed => !placed.1.loaded.isEmpty).map
    fun placed => (placed.2, placed.1.lookup)

theorem map_snd_sources (roster : Roster) (tables : List LookupTable) :
    (roster.sources tables).map Prod.snd =
      (Drain.active (roster.drains tables)).map Drain.lookup := by
  have hdrains := List.zipIdx_map_fst 0 (roster.drains tables)
  conv_rhs => rw [← hdrains]
  rw [sources, Drain.active, List.filter_map, List.map_map, List.map_map]
  rfl

theorem pairwise_fst_sources (roster : Roster) (tables : List LookupTable) :
    ((roster.sources tables).map Prod.fst).Pairwise (· < ·) := by
  have hplaces : ((roster.drains tables).zipIdx.map Prod.snd).Pairwise (· < ·) := by
    rw [List.zipIdx_map_snd]
    exact List.pairwise_lt_range'
  rw [sources, List.map_map]
  exact hplaces.sublist (List.filter_sublist.map Prod.snd)

theorem mem_sources_iff :
    source ∈ roster.sources tables ↔
      ∃ drain, (roster.drains tables)[source.1]? = some drain ∧ drain.loaded.isEmpty = false ∧
        source.2 = drain.lookup := by
  obtain ⟨place, lookup⟩ := source
  simp only [sources, List.mem_map, List.mem_filter, Prod.exists, List.mem_zipIdx_iff_getElem?,
    Bool.not_eq_true', Prod.mk.injEq]
  constructor
  · intro hsource
    obtain ⟨drain, index, ⟨hdrain, hactive⟩, rfl, rfl⟩ := hsource
    exact ⟨drain, hdrain, hactive, rfl⟩
  · intro hsource
    obtain ⟨drain, hdrain, hactive, rfl⟩ := hsource
    exact ⟨drain, place, ⟨hdrain, hactive⟩, rfl, rfl⟩

theorem exists_table_of_mem_sources (hsource : source ∈ roster.sources tables) :
    ∃ table, tables[source.1]? = some table ∧ source.2.table = table.key := by
  obtain ⟨drain, hdrain, -, hlookup⟩ := mem_sources_iff.mp hsource
  exact ⟨drain.table, getElem?_table hdrain, congrArg TableLookup.table hlookup⟩

theorem indexes_ne_nil (hsource : source ∈ roster.sources tables) : source.2.indexes ≠ [] := by
  obtain ⟨drain, -, hactive, hlookup⟩ := mem_sources_iff.mp hsource
  rw [hlookup, Drain.indexes_lookup, ne_eq, List.map_eq_nil_iff,
    LoadedAddresses.toList_eq_nil_iff, hactive]
  exact Bool.false_ne_true

/-- A lookup names no index twice. -/
theorem WellFormed.nodup_indexes (hroster : roster.WellFormed) (hreached : roster.ReachedBy tables)
    (hsource : source ∈ roster.sources tables) : source.2.indexes.Nodup := by
  obtain ⟨drain, hdrain, -, hlookup⟩ := mem_sources_iff.mp hsource
  have hmem := List.mem_of_getElem? hdrain
  rw [hlookup, Drain.indexes_lookup]
  apply List.Nodup.map_on _ (hroster.nodup_loaded hmem)
  intro key hkey other hother
  exact (sound_of_mem_drains hreached hmem).index_inj hkey hother

/-- A lookup names exactly what its table drained. -/
theorem names_iff (hreached : roster.ReachedBy tables)
    (hdrain : (roster.drains tables)[place]? = some drain) :
    Names tables (place, drain.lookup) key ↔ key ∈ drain.loaded.toList := by
  have hsound := sound_of_mem_drains hreached (List.mem_of_getElem? hdrain)
  have htable := getElem?_table hdrain
  constructor
  · intro hnames
    obtain ⟨table, hplace, index, hindex, hget⟩ := hnames
    obtain rfl : drain.table = table := Option.some.inj (htable.symm.trans hplace)
    rw [Drain.indexes_lookup] at hindex
    obtain ⟨other, hother, rfl⟩ := List.mem_map.mp hindex
    rw [hsound.get?_index hother] at hget
    rw [← Option.some.inj hget]
    exact hother
  · intro hkey
    refine ⟨drain.table, htable, drain.table.index key, ?_, hsound.get?_index hkey⟩
    rw [Drain.indexes_lookup]
    exact List.mem_map_of_mem hkey

/-- A source names the addresses that do not sign and whose first holder is its table. -/
theorem names_iff_firstHolder (hreached : roster.ReachedBy tables)
    (hsource : source ∈ roster.sources tables) :
    Names tables source key ↔
      key ∈ roster.nonSigners ∧ ∃ table, FirstHolder tables source.1 table key := by
  obtain ⟨drain, hdrain, -, hlookup⟩ := mem_sources_iff.mp hsource
  obtain ⟨place, lookup⟩ := source
  obtain rfl : lookup = drain.lookup := hlookup
  rw [names_iff hreached hdrain, mem_loaded_iff hdrain]
  apply and_congr_right
  intro _
  constructor
  · intro hfirst
    exact ⟨drain.table, hfirst⟩
  · intro hfirst
    obtain ⟨table, hfirst⟩ := hfirst
    have htable := Option.some.inj ((getElem?_table hdrain).symm.trans hfirst.at_place)
    rw [htable]
    exact hfirst

/-- The first holder of an address that does not sign makes a lookup. -/
theorem exists_source (hkey : key ∈ roster.nonSigners) {table : LookupTable}
    (hfirst : FirstHolder tables place table key) :
    ∃ drain, (roster.drains tables)[place]? = some drain ∧ drain.table = table ∧
      key ∈ drain.loaded.toList ∧ (place, drain.lookup) ∈ roster.sources tables := by
  have hdrain : (roster.drains tables)[place]? =
      some ((roster.withoutAll (tables.take place)).drain table) := by
    rw [getElem?_drains, hfirst.at_place, Option.map_some]
  have hloaded := (mem_loaded_iff hdrain).mpr ⟨hkey, hfirst⟩
  refine ⟨_, hdrain, rfl, hloaded, mem_sources_iff.mpr ⟨_, hdrain, ?_, rfl⟩⟩
  rw [← Bool.not_eq_true, ← LoadedAddresses.toList_eq_nil_iff]
  exact List.ne_nil_of_mem hloaded

end Roster

/-! ## The division -/

namespace Message

section

variable {vault : Address} {instructions : List Instruction} {tables : List LookupTable}
  {key : Address}

theorem mem_staticKeys_iff (hlisted : key = vault ∨ Mentioned instructions key) :
    key ∈ ((Roster.ofInstructions vault instructions).withoutAll tables).staticKeys ↔
      StaysStatic vault instructions tables key := by
  rw [Roster.mem_staticKeys_withoutAll, Roster.mem_signers_ofInstructions,
    Roster.mem_nonSigners_ofInstructions, StaysStatic]
  tauto

/-- What does not stay static is an account that does not sign and that some table holds. -/
theorem drained_iff :
    Mentioned instructions key ∧ ¬StaysStatic vault instructions tables key ↔
      key ∈ (Roster.ofInstructions vault instructions).nonSigners ∧ ¬NoneHolds tables key := by
  rw [Roster.mem_nonSigners_ofInstructions, StaysStatic]
  tauto

/-- No lookup names an address that stays static. -/
theorem not_names_of_staysStatic {source : Nat × TableLookup}
    (hreached : (Roster.ofInstructions vault instructions).ReachedBy tables)
    (hsource : source ∈ (Roster.ofInstructions vault instructions).sources tables)
    (hstatic : StaysStatic vault instructions tables key) : ¬Names tables source key := by
  intro hnames
  obtain ⟨hkey, table, hfirst⟩ := (Roster.names_iff_firstHolder hreached hsource).mp hnames
  exact (drained_iff.mpr ⟨hkey, hfirst.not_noneHolds⟩).2 hstatic

/-- An address that does not stay static is drained by its first holder alone. -/
theorem exists_source_of_not_staysStatic
    (hreached : (Roster.ofInstructions vault instructions).ReachedBy tables)
    (hmentioned : Mentioned instructions key)
    (hdrained : ¬StaysStatic vault instructions tables key) :
    let sources := (Roster.ofInstructions vault instructions).sources tables
    ∃ source ∈ sources, ∃ table, FirstHolder tables source.1 table key ∧
      (∀ other ∈ sources, Names tables other key ↔ other = source) ∧
      ∃ index : Byte, index.toNat = table.addresses.idxOf key ∧
        (index ∈ source.2.writableIndexes ↔ Asked AccountMeta.isWritable instructions key) ∧
        (index ∈ source.2.readonlyIndexes ↔ ¬Asked AccountMeta.isWritable instructions key) := by
  intro sources
  obtain ⟨hkey, hheld⟩ := drained_iff.mp ⟨hmentioned, hdrained⟩
  obtain ⟨place, table, hfirst⟩ := LookupTable.exists_firstHolder hheld
  obtain ⟨drain, hdrain, rfl, hloaded, hsource⟩ := Roster.exists_source hkey hfirst
  have hsound := Roster.sound_of_mem_drains hreached (List.mem_of_getElem? hdrain)
  have hgroup (isWritable : Bool) : key ∈ drain.group isWritable ↔
      (isWritable = true ↔ Asked AccountMeta.isWritable instructions key) := by
    rw [Roster.mem_group_iff hdrain, Roster.mem_block_ofInstructions]
    rw [StaysStatic] at hdrained
    tauto
  refine ⟨_, hsource, drain.table, hfirst, ?_, drain.table.index key, hsound.toNat_index hloaded,
    ?_, ?_⟩
  · intro other hother
    rw [Roster.names_iff_firstHolder hreached hother]
    constructor
    · intro hnames
      obtain ⟨-, holder, hholder⟩ := hnames
      obtain ⟨otherDrain, hotherDrain, -, hlookup⟩ := Roster.mem_sources_iff.mp hother
      -- There is only one first holder, so a source that names the address has its place.
      have hplace : other.1 = place := hholder.unique hfirst
      rw [hplace, hdrain] at hotherDrain
      rw [← Option.some.inj hotherDrain] at hlookup
      exact Prod.ext hplace hlookup
    · intro heq
      rw [heq]
      exact ⟨hkey, drain.table, hfirst⟩
  · exact (hsound.index_mem_group_iff hloaded).trans ((hgroup true).trans (by simp))
  · exact (hsound.index_mem_group_iff hloaded).trans ((hgroup false).trans (by simp))

/-- Every index of a lookup is that of the first occurrence of a drained address. -/
theorem exists_drained_of_mem_indexes {source : Nat × TableLookup} {index : Byte}
    (hreached : (Roster.ofInstructions vault instructions).ReachedBy tables)
    (hsource : source ∈ (Roster.ofInstructions vault instructions).sources tables)
    (hindex : index ∈ source.2.indexes) :
    ∃ key table, Mentioned instructions key ∧ ¬StaysStatic vault instructions tables key ∧
      FirstHolder tables source.1 table key ∧ index.toNat = table.addresses.idxOf key := by
  obtain ⟨drain, hdrain, -, hlookup⟩ := Roster.mem_sources_iff.mp hsource
  have hsound := Roster.sound_of_mem_drains hreached (List.mem_of_getElem? hdrain)
  rw [hlookup, Drain.indexes_lookup] at hindex
  obtain ⟨key, hloaded, rfl⟩ := List.mem_map.mp hindex
  obtain ⟨hkey, hfirst⟩ := (Roster.mem_loaded_iff hdrain).mp hloaded
  obtain ⟨hmentioned, hdrained⟩ := drained_iff.mpr ⟨hkey, hfirst.not_noneHolds⟩
  exact ⟨key, drain.table, hmentioned, hdrained, hfirst, hsound.toNat_index hloaded⟩

end

/-- Compiling divides the addresses it is given between the static keys and the
lookups. -/
theorem compile_divides_addresses {vault : Address} {instructions : List Instruction}
    {tables : List LookupTable} {message : Message}
    (hcompile : compile vault instructions tables = .ok message) :
    ∃ sources, DividesAddresses vault instructions tables message sources := by
  obtain ⟨hreached, -, rfl⟩ := compile_eq_ok_iff.mp hcompile
  have hroster := Roster.wellFormed_ofInstructions vault instructions
  have hstatic := (hroster.withoutAll tables).nodup_staticKeys
  refine ⟨(Roster.ofInstructions vault instructions).sources tables, ?_⟩
  exact
    { lookups := Roster.map_snd_sources _ tables
      in_table_order := Roster.pairwise_fst_sources _ tables
      made_from := fun _ => Roster.exists_table_of_mem_sources
      nonempty := fun _ => Roster.indexes_ne_nil
      static := by
        intro key hlisted hstays
        have hmem := (mem_staticKeys_iff hlisted).mpr hstays
        refine ⟨List.count_eq_one_of_mem hstatic hmem, ?_⟩
        intro source hsource
        exact not_names_of_staysStatic hreached hsource hstays
      drained := by
        intro key hlisted hdrained
        have hmentioned : Mentioned instructions key :=
          hlisted.resolve_left fun hvault => hdrained (.inl hvault)
        refine ⟨fun hmem => hdrained ((mem_staticKeys_iff hlisted).mp hmem), ?_⟩
        exact exists_source_of_not_staysStatic hreached hmentioned hdrained
      nothing_else := by
        intro source hsource
        refine ⟨hroster.nodup_indexes hreached hsource, ?_⟩
        intro index hindex
        exact exists_drained_of_mem_indexes hreached hsource hindex }

/-- Two tables that share an address, which the second one also repeats. -/
theorem compile_divides_addresses_shared_address :
    let instruction : Instruction :=
      ⟨.uniform 2, [.writable (.uniform 3) false, .readonly (.uniform 4) true], []⟩
    let tables : List LookupTable :=
      [⟨.uniform 8, [.uniform 5, .uniform 3]⟩, ⟨.uniform 9, [.uniform 3, .uniform 2, .uniform 2]⟩]
    ∃ message sources, compile (.uniform 1) [instruction] tables = .ok message ∧
      DividesAddresses (.uniform 1) [instruction] tables message sources := by
  intro instruction tables
  have hcompile : compile (.uniform 1) [instruction] tables =
      .ok ⟨2, 1, 0, [.uniform 1, .uniform 4], [⟨3, [2, 1], []⟩],
        [⟨.uniform 8, [1], []⟩, ⟨.uniform 9, [], [1]⟩]⟩ := by decide
  obtain ⟨sources, hdivides⟩ := compile_divides_addresses hcompile
  exact ⟨_, sources, hcompile, hdivides⟩

end Message

end MultisigVault
