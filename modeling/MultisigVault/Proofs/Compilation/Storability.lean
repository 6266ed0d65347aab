import Mathlib.Algebra.Order.BigOperators.Group.List
import MultisigVault.Proofs.Compilation.Exclusivity
import MultisigVault.Proofs.Compilation.Form
import MultisigVault.Proofs.Message.StoredForm

/-!
# Which compiled messages can be stored

A message can name 256 addresses, but the count in front of a stored list goes only
up to 255.  A compiled message is therefore storable unless all 256 addresses are
static or an instruction was too large to begin with.  The lookups never stand in the
way: the vault is static, so they share at most 255 addresses among them, and each
of them has at least one.
-/

namespace MultisigVault

/-! ## The size of lookups -/

namespace TableLookup

/-- Lookups that are not empty are at most as many as their indexes. -/
theorem length_le_length_indexes {lookups : List TableLookup}
    (hnonempty : ∀ lookup ∈ lookups, lookup.indexes ≠ []) :
    lookups.length ≤ (lookups.flatMap indexes).length := by
  rw [List.length_flatMap, ← List.length_map fun lookup : TableLookup => lookup.indexes.length]
  apply List.length_le_sum_of_one_le
  intro size hsize
  obtain ⟨lookup, hlookup, rfl⟩ := List.mem_map.mp hsize
  exact List.length_pos_iff.mpr (hnonempty lookup hlookup)

theorem length_indexes_le {lookups : List TableLookup} {lookup : TableLookup}
    (hlookup : lookup ∈ lookups) :
    lookup.writableIndexes.length + lookup.readonlyIndexes.length ≤
      (lookups.flatMap indexes).length := by
  rw [← List.length_append, ← indexes, List.flatMap_def]
  apply List.Sublist.length_le
  exact List.sublist_flatten_of_mem (List.mem_map_of_mem hlookup)

end TableLookup

namespace Message

section

variable {vault : Address} {instructions : List Instruction} {tables : List LookupTable}
  {message : Message}

theorem indexes_ne_nil_of_compile (hcompile : compile vault instructions tables = .ok message) :
    ∀ lookup ∈ message.lookups, lookup.indexes ≠ [] := by
  obtain ⟨-, -, rfl⟩ := compile_eq_ok_iff.mp hcompile
  intro lookup hlookup
  rw [Roster.message, ← Roster.map_snd_sources] at hlookup
  obtain ⟨source, hsource, rfl⟩ := List.mem_map.mp hlookup
  exact Roster.indexes_ne_nil hsource

/-- The vault takes one of the 256 addresses, so the lookups have at most the others. -/
theorem length_indexes_of_compile (hcompile : compile vault instructions tables = .ok message) :
    (message.lookups.flatMap TableLookup.indexes).length ≤ 255 := by
  have hkeys : message.keyCount ≤ 256 := (wellFormed_of_compile hcompile).keyCount_le
  have hvault : 0 < message.staticKeys.length :=
    List.length_pos_of_mem (List.mem_of_head? (head?_staticKeys_of_compile hcompile))
  rw [keyCount] at hkeys
  omega

/-- No list of the lookups is too long for its count. -/
theorem length_lookups_of_compile (hcompile : compile vault instructions tables = .ok message) :
    message.lookups.length ≤ 255 ∧
      ∀ lookup ∈ message.lookups,
        lookup.writableIndexes.length ≤ 255 ∧ lookup.readonlyIndexes.length ≤ 255 := by
  have htotal := length_indexes_of_compile hcompile
  constructor
  · have hcount := TableLookup.length_le_length_indexes (indexes_ne_nil_of_compile hcompile)
    exact hcount.trans htotal
  · intro lookup hlookup
    have hsize := TableLookup.length_indexes_le hlookup
    omega

/-- A list that is too long belongs to the message itself or to an instruction. -/
theorem not_lookups_of_compile (hcompile : compile vault instructions tables = .ok message)
    {field : ListField} {length : Nat} (hlisted : (field, length) ∈ message.listLengths)
    (hlong : field.limit < length) :
    field ∉ [ListField.lookups, .writableIndexes, .readonlyIndexes] := by
  obtain ⟨hcount, hindexes⟩ := length_lookups_of_compile hcompile
  intro hfield
  simp only [List.mem_cons, List.not_mem_nil, or_false] at hfield
  rcases hfield with rfl | rfl | rfl
  · have hlength : length = message.lookups.length := by
      simpa [listLengths] using hlisted
    exact absurd hlong (Nat.not_lt.mpr (hlength.trans_le hcount))
  · have hlength : ∃ lookup ∈ message.lookups, lookup.writableIndexes.length = length := by
      simpa [listLengths, eq_comm] using hlisted
    obtain ⟨lookup, hlookup, rfl⟩ := hlength
    exact absurd hlong (Nat.not_lt.mpr (hindexes lookup hlookup).1)
  · have hlength : ∃ lookup ∈ message.lookups, lookup.readonlyIndexes.length = length := by
      simpa [listLengths, eq_comm] using hlisted
    obtain ⟨lookup, hlookup, rfl⟩ := hlength
    exact absurd hlong (Nat.not_lt.mpr (hindexes lookup hlookup).2)

/-- What can be too long is fixed before any table is looked at, except that the
tables may take static keys over. -/
theorem fitsCounts_of_compile (hcompile : compile vault instructions tables = .ok message) :
    message.FitsCounts ↔
      message.staticKeys.length ≠ 256 ∧ instructions.length ≤ 255 ∧
        ∀ instruction ∈ instructions,
          instruction.accounts.length ≤ 255 ∧ instruction.data.length ≤ 65535 := by
  have hkeys : message.keyCount ≤ 256 := (wellFormed_of_compile hcompile).keyCount_le
  have hstatic : message.staticKeys.length ≤ 255 ↔ message.staticKeys.length ≠ 256 := by
    rw [keyCount] at hkeys
    omega
  have hlookups := length_lookups_of_compile hcompile
  have hinstructions : message.instructions = instructions.map (CompiledInstruction.renumber
      ((Roster.ofInstructions vault instructions).combined tables)) := by
    obtain ⟨-, -, rfl⟩ := compile_eq_ok_iff.mp hcompile
    rfl
  have hbyte : Wire.countLimit 1 = 255 := rfl
  have hword : Wire.countLimit 2 = 65535 := rfl
  simp only [fitsCounts_iff, ListField.limit, ListField.countWidth, hbyte, hword, hstatic,
    hlookups.1, true_and, hinstructions, List.length_map, List.forall_mem_map,
    CompiledInstruction.renumber]
  constructor
  · intro hfits
    obtain ⟨hkept, hcount, hsizes, -⟩ := hfits
    exact ⟨hkept, hcount, hsizes⟩
  · intro hfits
    obtain ⟨hkept, hcount, hsizes⟩ := hfits
    exact ⟨hkept, hcount, hsizes, hlookups.2⟩

end

/-- Every compiled message is well formed.  It can be stored unless all its addresses
are static or an instruction was too large, and is then loaded again unchanged. -/
theorem compile_storable {vault : Address} {instructions : List Instruction}
    {tables : List LookupTable} {message : Message}
    (hcompile : compile vault instructions tables = .ok message) :
    message.checkForm = .ok () ∧
    ((∃ error, message.store = .error error) ↔
      message.staticKeys.length = 256 ∨ 255 < instructions.length ∨
        ∃ instruction ∈ instructions,
          255 < instruction.accounts.length ∨ 65535 < instruction.data.length) ∧
    (∀ error, message.store = .error error →
      ∃ field length, error = .lengthOverflow field length ∧
        field ∉ [ListField.lookups, .writableIndexes, .readonlyIndexes]) ∧
    ∀ bytes, message.store = .ok bytes → load bytes = .ok message := by
  have hform := checkForm_of_compile hcompile
  refine ⟨hform, ?_, ?_, ?_⟩
  · rw [store_fails_iff, fitsCounts_of_compile hcompile]
    simp only [not_and_or, not_not, not_forall, Nat.not_le, exists_prop]
  · intro error hfails
    obtain ⟨field, length, hlisted, hlong, rfl⟩ := tooLong_of_store hfails
    exact ⟨field, length, rfl, not_lookups_of_compile hcompile hlisted hlong⟩
  · intro bytes hstore
    exact load_eq_ok_iff_store.mpr ⟨hstore, hform⟩

/-- Two tables with the same key take over what one instruction refers to.  Naming the
same account 256 times adds no address, but such an instruction cannot be stored. -/
theorem compile_storable_repeated_account :
    let tables : List LookupTable := [⟨.uniform 8, [.uniform 3]⟩, ⟨.uniform 8, [.uniform 2]⟩]
    let instruction (count : Nat) : Instruction :=
      ⟨.uniform 2, List.replicate count (.writable (.uniform 3) false), []⟩
    (∃ message bytes, compile (.uniform 1) [instruction 2] tables = .ok message ∧
      message.store = .ok bytes ∧ load bytes = .ok message) ∧
    ∃ message error, compile (.uniform 1) [instruction 256] tables = .ok message ∧
      message.checkForm = .ok () ∧ message.store = .error error := by
  intro tables instruction
  let compiled (count : Nat) : Message :=
    ⟨1, 1, 0, [.uniform 1], [⟨2, List.replicate count 1, []⟩],
      [⟨.uniform 8, [0], []⟩, ⟨.uniform 8, [], [0]⟩]⟩
  let bytes : Bytes :=
    [1, 1, 0, 1] ++ List.replicate 32 1 ++ [1, 2, 2, 1, 1, 0, 0] ++ [2] ++
      List.replicate 32 8 ++ [1, 0, 0] ++ List.replicate 32 8 ++ [0, 1, 0]
  have hshort : compile (.uniform 1) [instruction 2] tables = .ok (compiled 2) := by decide
  have hstore : (compiled 2).store = .ok bytes := by decide
  have hlong : compile (.uniform 1) [instruction 256] tables = .ok (compiled 256) := by
    decide +kernel
  constructor
  · exact ⟨compiled 2, bytes, hshort, hstore, (compile_storable hshort).2.2.2 bytes hstore⟩
  · obtain ⟨hform, hfails, -⟩ := compile_storable hlong
    have hlarge : 255 < (instruction 256).accounts.length :=
      List.length_replicate.ge
    obtain ⟨error, herror⟩ :=
      hfails.mpr (.inr (.inr ⟨instruction 256, List.mem_singleton_self _, .inl hlarge⟩))
    exact ⟨compiled 256, error, hlong, hform, herror⟩

end Message

end MultisigVault
