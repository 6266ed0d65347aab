import Mathlib.Data.List.Induction
import MultisigVault.Proofs.Roster.Layout

/-!
# What compiling returns

Compiling has a closed form.  It fails on a table index that does not fit one
byte, then on too many keys or signers, and otherwise returns a message that is
determined by the roster of the instructions and by what the tables drain from it.
-/

namespace MultisigVault

open Outcome
open scoped List

/-! ## Positions in the combined list -/

namespace CompiledInstruction

/-- The one-byte position of an address in the combined list. -/
def position (keys : List Address) (key : Address) : Byte :=
  UInt8.ofNat (keys.idxOf key)

/-- An instruction with every address replaced by its position. -/
def renumber (keys : List Address) (instruction : Instruction) : CompiledInstruction where
  programIndex := position keys instruction.program
  accountIndexes := instruction.accounts.map fun account => position keys account.address
  data := instruction.data

theorem positions_concat (keys : List Address) (last : Address) :
    positions (keys ++ [last]) = (last, keys.length) :: positions keys := by
  simp [positions, List.zipIdx_append]

/-- In a list without repetitions no position hides another one. -/
theorem lookup_positions {keys : List Address} (hnodup : keys.Nodup) {key : Address}
    (hmem : key ∈ keys) : (positions keys).lookup key = some (keys.idxOf key) := by
  induction keys using List.reverseRecOn with
  | nil => cases hmem
  | append_singleton keys last ih =>
      have hlast : last ∉ keys := fun h => (List.nodup_append.mp hnodup).2.2 _ h _ (by simp) rfl
      rw [positions_concat, List.lookup_cons]
      by_cases heq : key = last
      · subst heq
        simp [List.idxOf_append_of_notMem hlast]
      · have hkey : key ∈ keys := by simpa [heq] using hmem
        rw [beq_false_of_ne heq, List.idxOf_append_of_mem hkey]
        exact ih (List.nodup_append.mp hnodup).1 hkey

theorem indexIn_eq {keys : List Address} (hnodup : keys.Nodup) {key : Address}
    (hmem : key ∈ keys) : indexIn keys key = .ok (position keys key) := by
  rw [indexIn, lookup_positions hnodup hmem, position]

/-- An instruction whose addresses are all listed can be renumbered. -/
theorem ofInstruction_eq {keys : List Address} (hnodup : keys.Nodup) {instruction : Instruction}
    (hprogram : instruction.program ∈ keys)
    (haccounts : ∀ account ∈ instruction.accounts, account.address ∈ keys) :
    ofInstruction keys instruction = .ok (renumber keys instruction) := by
  rw [ofInstruction, mapM_eq_ok_map fun account haccount => indexIn_eq hnodup
    (haccounts account haccount), ok_bind, indexIn_eq hnodup hprogram, ok_bind, pure_eq_ok,
    renumber]

end CompiledInstruction

/-! ## The combined list -/

/-- The drains that make a lookup. -/
def Drain.active (drains : List Drain) : List Drain :=
  drains.filter fun drain => !drain.loaded.isEmpty

theorem Drain.filterMap_extracted (drains : List Drain) :
    drains.filterMap Drain.extracted? =
      (active drains).map fun drain => (drain.lookup, drain.loaded) := by
  induction drains with
  | nil => rfl
  | cons drain rest ih =>
      rw [List.filterMap_cons, active, List.filter_cons, extracted?]
      by_cases hempty : drain.loaded.isEmpty
      · simpa [hempty, active] using ih
      · simpa [hempty, active] using ih

/-- Drains that make no lookup add nothing to what is loaded. -/
theorem Drain.flatMap_active {select : Drain → List Address}
    (hselect : ∀ drain, drain.loaded.isEmpty = true → select drain = []) (drains : List Drain) :
    (active drains).flatMap select = drains.flatMap select := by
  induction drains with
  | nil => rfl
  | cons drain rest ih =>
      rw [active, List.filter_cons, List.flatMap_cons, ← ih]
      by_cases hempty : drain.loaded.isEmpty
      · simp [hempty, hselect drain hempty, active]
      · simp [hempty, active]

theorem Drain.concat_active (drains : List Drain) :
    LoadedAddresses.concat ((active drains).map Drain.loaded) =
      ⟨drains.flatMap (Drain.group · true), drains.flatMap (Drain.group · false)⟩ := by
  have hgroup : ∀ drain : Drain, drain.loaded.isEmpty = true →
      drain.group true = [] ∧ drain.group false = [] := by
    intro drain hempty
    simpa [LoadedAddresses.isEmpty, Drain.loaded, group] using hempty
  rw [LoadedAddresses.concat, List.flatMap_map, List.flatMap_map,
    ← flatMap_active fun drain hempty => (hgroup drain hempty).1,
    ← flatMap_active fun drain hempty => (hgroup drain hempty).2]
  rfl

namespace Roster

/-- Everything that the tables take over. -/
def loaded (roster : Roster) (tables : List LookupTable) : LoadedAddresses :=
  ⟨(roster.drains tables).flatMap (Drain.group · true),
    (roster.drains tables).flatMap (Drain.group · false)⟩

/-- The list that the indexes of a compiled message refer to. -/
def combined (roster : Roster) (tables : List LookupTable) : List Address :=
  (roster.withoutAll tables).staticKeys ++ (roster.loaded tables).toList

/-- The combined list holds every address of the roster once. -/
theorem combined_perm (roster : Roster) (tables : List LookupTable) :
    roster.combined tables ~ roster.addresses := by
  apply List.Perm.trans _ roster.staticKeys_perm
  have hwritable := roster.block_perm_drains tables true
  have hreadonly := roster.block_perm_drains tables false
  simp only [combined, loaded, LoadedAddresses.toList, staticKeys, block_withoutAll_signer,
    List.append_assoc]
  apply List.Perm.append_left
  apply List.Perm.append_left
  calc
    (roster.withoutAll tables).block false true ++ ((roster.withoutAll tables).block false false ++
        ((roster.drains tables).flatMap (Drain.group · true) ++
          (roster.drains tables).flatMap (Drain.group · false)))
      ~ (roster.withoutAll tables).block false true ++
          ((roster.drains tables).flatMap (Drain.group · true) ++
            ((roster.withoutAll tables).block false false ++
              (roster.drains tables).flatMap (Drain.group · false))) :=
        (List.perm_append_comm_assoc ..).append_left _
    _ = ((roster.withoutAll tables).block false true ++
          (roster.drains tables).flatMap (Drain.group · true)) ++
            ((roster.withoutAll tables).block false false ++
              (roster.drains tables).flatMap (Drain.group · false)) := by
        rw [List.append_assoc]
    _ ~ roster.block false true ++ roster.block false false :=
        (hwritable.append hreadonly).symm

theorem nodup_combined {roster : Roster} (hroster : roster.WellFormed)
    (tables : List LookupTable) : (roster.combined tables).Nodup :=
  (roster.combined_perm tables).nodup_iff.mpr hroster.nodup

theorem length_combined (roster : Roster) (tables : List LookupTable) :
    (roster.combined tables).length = roster.length := by
  rw [(roster.combined_perm tables).length_eq, addresses, List.length_map, length]

theorem length_staticKeys_add_loaded (roster : Roster) (tables : List LookupTable) :
    (roster.withoutAll tables).staticKeys.length + (roster.loaded tables).length =
      roster.length := by
  rw [← roster.length_combined tables, combined, List.length_append, LoadedAddresses.toList,
    List.length_append, LoadedAddresses.length]

theorem signers_withoutAll (roster : Roster) (tables : List LookupTable) :
    (roster.withoutAll tables).signers.length = roster.signers.length := by
  rw [length_signers, length_signers, block_withoutAll_signer, block_withoutAll_signer]

/-- Only the tables that take over something make a lookup. -/
theorem extractAll_of_reachedBy {roster : Roster} (hnodup : roster.addresses.Nodup)
    {tables : List LookupTable} (hreached : roster.ReachedBy tables) :
    roster.extractAll tables =
      .ok ((Drain.active (roster.drains tables)).map fun drain => (drain.lookup, drain.loaded),
        roster.withoutAll tables) := by
  rw [extractAll_eq hnodup, if_pos hreached, Drain.filterMap_extracted]

theorem concat_map_snd (roster : Roster) (tables : List LookupTable) :
    LoadedAddresses.concat (((Drain.active (roster.drains tables)).map fun drain =>
      (drain.lookup, drain.loaded)).map Prod.snd) = roster.loaded tables := by
  rw [List.map_map]
  exact Drain.concat_active _

/-- The message of the instructions of a roster. -/
def message (roster : Roster) (instructions : List Instruction) (tables : List LookupTable) :
    Message where
  signers := UInt8.ofNat roster.signers.length
  writableSigners := UInt8.ofNat (roster.block true true).length
  writableNonSigners := UInt8.ofNat ((roster.withoutAll tables).block false true).length
  staticKeys := (roster.withoutAll tables).staticKeys
  instructions := instructions.map (CompiledInstruction.renumber (roster.combined tables))
  lookups := (Drain.active (roster.drains tables)).map Drain.lookup

end Roster

namespace Message

theorem mem_combined_iff {vault : Address} {instructions : List Instruction}
    {tables : List LookupTable} {key : Address} :
    key ∈ (Roster.ofInstructions vault instructions).combined tables ↔
      key = vault ∨ Mentioned instructions key := by
  rw [(Roster.combined_perm ..).mem_iff, Roster.addresses_ofInstructions,
    Roster.mem_keys_references]

theorem program_mem_combined {vault : Address} {instructions : List Instruction}
    {tables : List LookupTable} {instruction : Instruction}
    (hinstruction : instruction ∈ instructions) :
    instruction.program ∈ (Roster.ofInstructions vault instructions).combined tables :=
  mem_combined_iff.mpr (.inr ⟨instruction, hinstruction, .inl rfl⟩)

theorem account_mem_combined {vault : Address} {instructions : List Instruction}
    {tables : List LookupTable} {instruction : Instruction}
    (hinstruction : instruction ∈ instructions) :
    ∀ account ∈ instruction.accounts,
      account.address ∈ (Roster.ofInstructions vault instructions).combined tables := by
  intro account haccount
  exact mem_combined_iff.mpr (.inr ⟨instruction, hinstruction, .inr ⟨account, haccount, rfl⟩⟩)

/-- Every address of the instructions is in the combined list, so none is unknown. -/
theorem mapM_ofInstruction (vault : Address) (instructions : List Instruction)
    (tables : List LookupTable) :
    let combined := (Roster.ofInstructions vault instructions).combined tables
    instructions.mapM (CompiledInstruction.ofInstruction combined) =
      .ok (instructions.map (CompiledInstruction.renumber combined)) := by
  have hnodup := Roster.nodup_combined (Roster.wellFormed_ofInstructions vault instructions) tables
  apply mapM_eq_ok_map
  intro instruction hinstruction
  exact CompiledInstruction.ofInstruction_eq hnodup (program_mem_combined hinstruction)
    (account_mem_combined hinstruction)

section

variable {vault : Address} {instructions : List Instruction} {tables : List LookupTable}

/-- Within the limits of a message compiling succeeds. -/
theorem compile_of_fits (hreached : (Roster.ofInstructions vault instructions).ReachedBy tables)
    (hcapacity : (Roster.ofInstructions vault instructions).length ≤ 256)
    (hcount : (Roster.ofInstructions vault instructions).signers.length < 256) :
    compile vault instructions tables =
      .ok ((Roster.ofInstructions vault instructions).message instructions tables) := by
  have hroster := Roster.wellFormed_ofInstructions vault instructions
  have hrest := hroster.withoutAll tables
  have hsigners := (Roster.ofInstructions vault instructions).signers_withoutAll tables
  have hkeys := (Roster.ofInstructions vault instructions).length_staticKeys_add_loaded tables
  have hsmall : ((Roster.ofInstructions vault instructions).withoutAll tables).length ≤ 256 := by
    rw [Roster.length_staticKeys] at hkeys
    omega
  have hfits : ¬capacity < (Roster.ofInstructions vault instructions).length :=
    Nat.not_lt.mpr hcapacity
  obtain ⟨hfirst, hthird⟩ := Roster.header_sizes hrest hsmall (hsigners ▸ hcount)
  have hwritable := Roster.length_nonSigners_lt hrest hsmall true
  rw [compile, Roster.extractAll_of_reachedBy hroster.nodup hreached, ok_bind]
  dsimp only
  rw [Roster.layout_eq hrest, if_pos ⟨hsmall, hsigners ▸ hcount⟩, ok_bind]
  dsimp only
  rw [Roster.concat_map_snd, hkeys, if_neg hfits, ← Roster.combined.eq_def, mapM_ofInstruction,
    ok_bind, hfirst, hthird, Roster.byteSize, if_pos hwritable, ok_bind, pure_eq_ok]
  simp only [Roster.message, Roster.header, hsigners, Roster.block_withoutAll_signer,
    List.map_map, Function.comp_def]

/-- Beyond the limits of a message compiling reports too many keys. -/
theorem compile_of_not_fits
    (hreached : (Roster.ofInstructions vault instructions).ReachedBy tables)
    (hsize : ¬((Roster.ofInstructions vault instructions).length ≤ 256 ∧
      (Roster.ofInstructions vault instructions).signers.length < 256)) :
    compile vault instructions tables = .error .tooManyKeys := by
  have hroster := Roster.wellFormed_ofInstructions vault instructions
  have hsigners := (Roster.ofInstructions vault instructions).signers_withoutAll tables
  have hkeys := (Roster.ofInstructions vault instructions).length_staticKeys_add_loaded tables
  rw [compile, Roster.extractAll_of_reachedBy hroster.nodup hreached, ok_bind]
  dsimp only
  rw [Roster.layout_eq (hroster.withoutAll tables), hsigners, Roster.concat_map_snd]
  split
  · next hrest =>
      -- The tables may leave few enough keys although the roster has too many.
      have hlarge : capacity < (Roster.ofInstructions vault instructions).length :=
        Nat.not_le.mp fun hcapacity => hsize ⟨hcapacity, hrest.2⟩
      rw [ok_bind]
      dsimp only
      rw [hkeys, if_pos hlarge]
      rfl
  · rfl

end

/-- The closed form of compiling. -/
theorem compile_eq (vault : Address) (instructions : List Instruction)
    (tables : List LookupTable) :
    let roster := Roster.ofInstructions vault instructions
    compile vault instructions tables =
      if roster.ReachedBy tables then
        if roster.length ≤ 256 ∧ roster.signers.length < 256 then
          .ok (roster.message instructions tables)
        else .error .tooManyKeys
      else .error .lookupIndexOverflow := by
  intro roster
  by_cases hreached : roster.ReachedBy tables
  · rw [if_pos hreached]
    by_cases hsize : roster.length ≤ 256 ∧ roster.signers.length < 256
    · rw [if_pos hsize]
      exact compile_of_fits hreached hsize.1 hsize.2
    · rw [if_neg hsize]
      exact compile_of_not_fits hreached hsize
  · have hroster : roster.WellFormed := Roster.wellFormed_ofInstructions vault instructions
    rw [if_neg hreached, compile, Roster.extractAll_eq hroster.nodup, if_neg hreached, error_bind]

theorem compile_eq_ok_iff {vault : Address} {instructions : List Instruction}
    {tables : List LookupTable} {message : Message} :
    let roster := Roster.ofInstructions vault instructions
    compile vault instructions tables = .ok message ↔
      roster.ReachedBy tables ∧ (roster.length ≤ 256 ∧ roster.signers.length < 256) ∧
        message = roster.message instructions tables := by
  intro roster
  rw [compile_eq]
  split
  · next hreached =>
      split
      · next hsize => simp [roster, hreached, hsize, eq_comm]
      · next hsize => simp [roster, hsize]
  · next hreached => simp [roster, hreached]

/-- One byte can name every address of a compiled message. -/
theorem length_combined_of_compile {vault : Address} {instructions : List Instruction}
    {tables : List LookupTable} {message : Message}
    (hcompile : compile vault instructions tables = .ok message) :
    ((Roster.ofInstructions vault instructions).combined tables).length ≤ 256 := by
  rw [Roster.length_combined]
  exact (compile_eq_ok_iff.mp hcompile).2.1.1

end Message

end MultisigVault
