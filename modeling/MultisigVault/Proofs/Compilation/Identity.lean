import MultisigVault.Proofs.Compilation.Lookups

/-!
# References survive compilation

Compiling replaces addresses by one-byte positions in the combined list.  That
list repeats no address and has at most 256 of them, so a position fits one byte
and names the address it was made for.
-/

namespace MultisigVault

/-! ## One instruction -/

/-- Whether a compiled instruction names by position in the combined list what an
instruction names by address. -/
structure CompiledInstruction.Denotes (combined : List Address) (compiled : CompiledInstruction)
    (instruction : Instruction) : Prop where
  program : combined[compiled.programIndex.toNat]? = some instruction.program
  accounts : compiled.accountIndexes.map (fun index => combined[index.toNat]?) =
    instruction.accounts.map fun account => some account.address
  data : compiled.data = instruction.data

namespace CompiledInstruction

/-- The cast of a position to one byte loses nothing in a list of at most 256 addresses. -/
theorem toNat_position {keys : List Address} (hcapacity : keys.length ≤ 256) {key : Address}
    (hmem : key ∈ keys) : (position keys key).toNat = keys.idxOf key := by
  have hlt := List.idxOf_lt_length_of_mem hmem
  apply UInt8.toNat_ofNat_of_lt'
  exact Nat.lt_of_lt_of_le hlt hcapacity

/-- A position names the address it was made for. -/
theorem getElem?_position {keys : List Address} (hcapacity : keys.length ≤ 256) {key : Address}
    (hmem : key ∈ keys) : keys[(position keys key).toNat]? = some key := by
  have hlt := List.idxOf_lt_length_of_mem hmem
  rw [toNat_position hcapacity hmem, List.getElem?_eq_getElem hlt, List.getElem_idxOf]

/-- Every address of the list is found under its own position. -/
theorem indexIn_getElem? {keys : List Address} (hnodup : keys.Nodup)
    (hcapacity : keys.length ≤ 256) {place : Nat} {key : Address}
    (hplace : keys[place]? = some key) :
    ∃ index, indexIn keys key = .ok index ∧ index.toNat = place := by
  obtain ⟨hlt, hkey⟩ := List.getElem?_eq_some_iff.mp hplace
  have hmem : key ∈ keys := List.mem_of_getElem? hplace
  refine ⟨position keys key, indexIn_eq hnodup hmem, ?_⟩
  rw [toNat_position hcapacity hmem, ← hkey]
  exact hnodup.idxOf_getElem place hlt

theorem denotes_renumber {keys : List Address} (hcapacity : keys.length ≤ 256)
    {instruction : Instruction} (hprogram : instruction.program ∈ keys)
    (haccounts : ∀ account ∈ instruction.accounts, account.address ∈ keys) :
    (renumber keys instruction).Denotes keys instruction where
  program := getElem?_position hcapacity hprogram
  accounts := by
    rw [renumber, List.map_map]
    apply List.map_congr_left
    intro account haccount
    exact getElem?_position hcapacity (haccounts account haccount)
  data := rfl

end CompiledInstruction

/-! ## The whole message -/

namespace Message

/-- Every instruction of a compiled message names the program and the accounts of
the instruction it was made from, with the same data. -/
theorem denotes_renumber_all {vault : Address} {instructions : List Instruction}
    {tables : List LookupTable}
    (hcapacity : ((Roster.ofInstructions vault instructions).combined tables).length ≤ 256) :
    let combined := (Roster.ofInstructions vault instructions).combined tables
    List.Forall₂ (CompiledInstruction.Denotes combined)
      (instructions.map (CompiledInstruction.renumber combined)) instructions := by
  intro combined
  rw [List.forall₂_map_left_iff, List.forall₂_same]
  intro instruction hinstruction
  exact CompiledInstruction.denotes_renumber hcapacity (program_mem_combined hinstruction)
    (account_mem_combined hinstruction)

/-- Compilation preserves what every reference names.  The combined list that the
lookups of the message make up can be read from the tables, repeats no address,
and has the size the message counts; every instruction refers into it for exactly
the addresses it was given; and each address is indexed by its own position. -/
theorem compile_preserves_references {vault : Address} {instructions : List Instruction}
    {tables : List LookupTable} {message : Message}
    (hkeys : (tables.map LookupTable.key).Nodup)
    (hcompile : compile vault instructions tables = .ok message) :
    ∃ combined, message.combinedKeys tables = .ok combined ∧ combined.Nodup ∧
      combined.length = message.keyCount ∧ message.keyCount ≤ 256 ∧
      List.Forall₂ (CompiledInstruction.Denotes combined) message.instructions instructions ∧
      ∀ position key, combined[position]? = some key →
        ∃ index, CompiledInstruction.indexIn combined key = .ok index ∧
          index.toNat = position := by
  have hcapacity := length_combined_of_compile hcompile
  obtain ⟨hreached, -, rfl⟩ := compile_eq_ok_iff.mp hcompile
  have hroster := Roster.wellFormed_ofInstructions vault instructions
  have hnodup := Roster.nodup_combined hroster tables
  have hcount : ((Roster.ofInstructions vault instructions).combined tables).length =
      ((Roster.ofInstructions vault instructions).message instructions tables).keyCount := by
    rw [Roster.length_combined, Roster.keyCount_message]
  refine ⟨_, Roster.combinedKeys_message hkeys hreached, hnodup, hcount, ?_, ?_, ?_⟩
  · rw [← hcount]
    exact hcapacity
  · exact denotes_renumber_all hcapacity
  · intro position key hposition
    exact CompiledInstruction.indexIn_getElem? hnodup hcapacity hposition

/-- A program and an account that two tables take over. -/
theorem compile_preserves_references_two_tables :
    let instruction : Instruction :=
      ⟨.uniform 2, [.writable (.uniform 3) false, .readonly (.uniform 4) true], [7]⟩
    let tables : List LookupTable :=
      [⟨.uniform 8, [.uniform 5, .uniform 2]⟩, ⟨.uniform 9, [.uniform 4, .uniform 3]⟩]
    ∃ message combined, compile (.uniform 1) [instruction] tables = .ok message ∧
      message.combinedKeys tables = .ok combined ∧
      List.Forall₂ (CompiledInstruction.Denotes combined) message.instructions [instruction] := by
  intro instruction tables
  have hkeys : (tables.map LookupTable.key).Nodup := by decide
  have hcompile : compile (.uniform 1) [instruction] tables =
      .ok ⟨2, 1, 0, [.uniform 1, .uniform 4], [⟨3, [2, 1], [7]⟩],
        [⟨.uniform 8, [], [1]⟩, ⟨.uniform 9, [1], []⟩]⟩ := by decide
  obtain ⟨combined, hcombined, -, -, -, hdenotes, -⟩ :=
    compile_preserves_references hkeys hcompile
  exact ⟨_, combined, hcompile, hcombined, hdenotes⟩

end Message

end MultisigVault
