import Mathlib.Data.List.Basic
import Mathlib.Logic.Equiv.Basic
import MultisigVault.Compilation
import MultisigVault.Proofs.Outcome

/-!
# Compiling under a renaming of addresses

Compiling compares addresses for equality and does nothing else with them.  When
different addresses get different names everywhere, the outcome is the same with those
names in it.  So the order of the bytes of an address has no influence on a message.
-/

namespace MultisigVault

open Outcome

/-! ## Renaming -/

def AccountMeta.rename (naming : Address → Address) (account : AccountMeta) : AccountMeta :=
  { account with address := naming account.address }

@[simp]
theorem AccountMeta.address_rename (naming : Address → Address) (account : AccountMeta) :
    (account.rename naming).address = naming account.address := rfl

def Instruction.rename (naming : Address → Address) (instruction : Instruction) :
    Instruction where
  program := naming instruction.program
  accounts := instruction.accounts.map (AccountMeta.rename naming)
  data := instruction.data

def LookupTable.rename (naming : Address → Address) (table : LookupTable) : LookupTable :=
  ⟨naming table.key, table.addresses.map naming⟩

def TableLookup.rename (naming : Address → Address) (lookup : TableLookup) : TableLookup :=
  { lookup with table := naming lookup.table }

namespace LoadedAddresses

def rename (naming : Address → Address) (loaded : LoadedAddresses) : LoadedAddresses :=
  ⟨loaded.writable.map naming, loaded.readonly.map naming⟩

theorem toList_rename (naming : Address → Address) (loaded : LoadedAddresses) :
    (loaded.rename naming).toList = loaded.toList.map naming :=
  (List.map_append ..).symm

theorem length_rename (naming : Address → Address) (loaded : LoadedAddresses) :
    (loaded.rename naming).length = loaded.length := by
  rw [length, length, rename, List.length_map, List.length_map]

theorem concat_rename (naming : Address → Address) (groups : List LoadedAddresses) :
    concat (groups.map (rename naming)) = (concat groups).rename naming := by
  rw [concat, concat, rename, List.flatMap_map, List.flatMap_map, List.map_flatMap,
    List.map_flatMap]
  rfl

end LoadedAddresses

/-- A message with other names for its addresses.  Counts, indexes and data stay. -/
def Message.rename (naming : Address → Address) (message : Message) : Message :=
  { message with
    staticKeys := message.staticKeys.map naming
    lookups := message.lookups.map (TableLookup.rename naming) }

def CompileError.rename (naming : Address → Address) : CompileError → CompileError
  | .payerNotFirst payer found => .payerNotFirst (naming payer) (naming found)
  | .unknownKey key => .unknownKey (naming key)
  | .tooManyKeys => .tooManyKeys
  | .noWritableSigner => .noWritableSigner
  | .lookupIndexOverflow => .lookupIndexOverflow

namespace Roster

def rename (naming : Address → Address) (roster : Roster) : Roster :=
  ⟨naming roster.payer, roster.accounts.map (AccountMeta.rename naming)⟩

/-- The outcome of offering a roster to a table, with other names. -/
def renameExtracted (naming : Address → Address) :
    Option (TableLookup × LoadedAddresses) × Roster →
      Option (TableLookup × LoadedAddresses) × Roster :=
  Prod.map (Option.map (Prod.map (TableLookup.rename naming) (LoadedAddresses.rename naming)))
    (rename naming)

end Roster

variable {naming : Address → Address} (hinjective : Function.Injective naming)

/-! ## The roster -/

namespace Roster

theorem block_rename (naming : Address → Address) (roster : Roster)
    (isSigner isWritable : Bool) :
    (roster.rename naming).block isSigner isWritable =
      (roster.block isSigner isWritable).map naming := by
  rw [block, block, rename, List.filter_map, List.map_map, List.map_map]
  rfl

include hinjective

theorem note_rename (accounts : List AccountMeta) (reference : AccountMeta) :
    note (accounts.map (AccountMeta.rename naming)) (reference.rename naming) =
      (note accounts reference).map (AccountMeta.rename naming) := by
  induction accounts with
  | nil => rfl
  | cons account rest ih =>
      rw [List.map_cons, note, note, AccountMeta.address_rename, AccountMeta.address_rename]
      by_cases hsame : account.address = reference.address
      · rw [if_pos hsame, if_pos (congrArg naming hsame)]
        rfl
      · have hother : naming account.address ≠ naming reference.address :=
          fun heq => hsame (hinjective heq)
        rw [if_neg hsame, if_neg hother, ih, List.map_cons]

theorem foldl_note_rename (accounts references : List AccountMeta) :
    (references.map (AccountMeta.rename naming)).foldl note
        (accounts.map (AccountMeta.rename naming)) =
      (references.foldl note accounts).map (AccountMeta.rename naming) := by
  induction references generalizing accounts with
  | nil => rfl
  | cons reference rest ih =>
      rw [List.map_cons, List.foldl_cons, note_rename hinjective, ih, List.foldl_cons]

theorem ofInstructions_rename (payer : Address) (instructions : List Instruction) :
    ofInstructions (naming payer) (instructions.map (Instruction.rename naming)) =
      (ofInstructions payer instructions).rename naming := by
  have hreferences : (instructions.map (Instruction.rename naming)).flatMap
      Instruction.references =
        (instructions.flatMap Instruction.references).map (AccountMeta.rename naming) := by
    rw [List.flatMap_map, List.map_flatMap]
    rfl
  rw [ofInstructions, ofInstructions, rename, hreferences]
  exact congrArg (Roster.mk _) (foldl_note_rename hinjective [.writable payer true] _)

/-! ## Offering the roster to tables -/

theorem position?_rename (table : LookupTable) (key : Address) :
    (table.rename naming).position? (naming key) = table.position? key := by
  rw [LookupTable.position?, LookupTable.position?, LookupTable.rename, List.idxOf?, List.idxOf?,
    List.findIdx?_map]
  congr 1
  funext other
  exact Bool.eq_iff_iff.mpr (by simp [hinjective.eq_iff])

theorem locate_rename (table : LookupTable) (keys : List Address) :
    locate (table.rename naming) (keys.map naming) =
      rephrase (CompileError.rename naming) (List.map (Prod.map id naming))
        (locate table keys) := by
  have hpositions : ((keys.map naming).filterMap fun key =>
      ((table.rename naming).position? key).map fun index => (index, key)) =
        (keys.filterMap fun key => (table.position? key).map fun index => (index, key)).map
          (Prod.map id naming) := by
    rw [List.filterMap_map, List.map_filterMap]
    congr 1
    funext key
    rw [Function.comp_apply, position?_rename hinjective, Option.map_map]
    rfl
  rw [locate, locate, hpositions]
  apply mapM_rephrase
  rintro ⟨index, key⟩
  by_cases hindex : index < 256
  · simp only [Prod.map_apply, id_eq, if_pos hindex]
    rfl
  · simp only [Prod.map_apply, id_eq, if_neg hindex]
    rfl

theorem contains_map_naming (keys : List Address) (key : Address) :
    (keys.map naming).contains (naming key) = keys.contains key := by
  rw [Bool.eq_iff_iff, List.contains_iff_mem, List.contains_iff_mem,
    List.mem_map_of_injective hinjective]

/-- Leaving addresses out commutes with renaming. -/
theorem filter_contains_rename (drained : List Address) (accounts : List AccountMeta) :
    ((accounts.map (AccountMeta.rename naming)).filter fun account =>
        !(drained.map naming).contains account.address) =
      (accounts.filter fun account => !drained.contains account.address).map
        (AccountMeta.rename naming) := by
  rw [List.filter_map]
  congr 1
  apply List.filter_congr
  intro account _
  rw [Function.comp_apply, AccountMeta.address_rename, contains_map_naming hinjective]

theorem extract_rename (roster : Roster) (table : LookupTable) :
    (roster.rename naming).extract (table.rename naming) =
      rephrase (CompileError.rename naming) (renameExtracted naming) (roster.extract table) := by
  rw [extract, extract, block_rename, block_rename, locate_rename hinjective,
    locate_rename hinjective]
  apply rephrase_bind
  intro writable
  apply rephrase_bind
  intro readonly
  simp only [List.isEmpty_map]
  by_cases hempty : (writable.isEmpty && readonly.isEmpty) = true
  · rw [if_pos hempty, if_pos hempty]
    rfl
  · have hdrained : (writable.map (Prod.map id naming)).map Prod.snd ++
        (readonly.map (Prod.map id naming)).map Prod.snd =
          (writable.map Prod.snd ++ readonly.map Prod.snd).map naming := by
      simp [Function.comp_def]
    rw [if_neg hempty, if_neg hempty]
    simp only [LoadedAddresses.toList, rename, hdrained, filter_contains_rename hinjective]
    simp [rephrase, renameExtracted, rename, TableLookup.rename, LoadedAddresses.rename,
      LookupTable.rename, Function.comp_def]

theorem extractAll_rename (roster : Roster) (tables : List LookupTable) :
    (roster.rename naming).extractAll (tables.map (LookupTable.rename naming)) =
      rephrase (CompileError.rename naming)
        (Prod.map
          (List.map (Prod.map (TableLookup.rename naming) (LoadedAddresses.rename naming)))
          (rename naming))
        (roster.extractAll tables) := by
  induction tables generalizing roster with
  | nil => rfl
  | cons table rest ih =>
      rw [List.map_cons, extractAll, extractAll, extract_rename hinjective]
      apply rephrase_bind
      rintro ⟨extracted, remaining⟩
      dsimp only [renameExtracted, Prod.map]
      rw [ih]
      apply rephrase_bind
      rintro ⟨lookups, last⟩
      cases extracted <;> rfl

/-! ## The layout -/

omit hinjective in
/-- A size does not depend on names, nor does the failure of one that is too large. -/
theorem byteSize_bind_rename {Value Other : Type} {onValue : Value → Other} (size : Nat)
    {next : Byte → Except CompileError Value} {otherNext : Byte → Except CompileError Other}
    (hnext : ∀ byte, otherNext byte = rephrase (CompileError.rename naming) onValue (next byte)) :
    (byteSize size >>= otherNext) =
      rephrase (CompileError.rename naming) onValue (byteSize size >>= next) := by
  rw [byteSize]
  split
  · exact hnext _
  · rfl

omit hinjective in
theorem staticKeys_rename (roster : Roster) :
    (roster.rename naming).staticKeys = roster.staticKeys.map naming := by
  simp only [staticKeys, block_rename, List.map_append]

theorem layout_rename (roster : Roster) :
    (roster.rename naming).layout =
      rephrase (CompileError.rename naming) (Prod.map id (List.map naming)) roster.layout := by
  have hlength : (roster.rename naming).length = roster.length := List.length_map _
  have hpayer : (roster.rename naming).payer = naming roster.payer := rfl
  simp only [layout, hlength, hpayer, block_rename, List.length_map, List.head?_map,
    staticKeys_rename]
  by_cases hcapacity : Message.capacity < roster.length
  · rw [if_pos hcapacity, if_pos hcapacity]
    rfl
  · rw [if_neg hcapacity, if_neg hcapacity]
    cases (roster.block true true).head? with
    | none => rfl
    | some first =>
        dsimp only [Option.map_some]
        by_cases hfirst : first = roster.payer
        · rw [if_neg (not_not.mpr hfirst), if_neg (not_not.mpr (congrArg naming hfirst))]
          apply byteSize_bind_rename
          intro signers
          apply byteSize_bind_rename
          intro readonlySigners
          apply byteSize_bind_rename
          intro readonlyNonSigners
          rfl
        · rw [if_pos hfirst, if_pos (hinjective.ne hfirst)]
          rfl

end Roster

/-! ## Positions -/

namespace CompiledInstruction

include hinjective

theorem lookup_positions_rename (keys : List Address) (key : Address) :
    (positions (keys.map naming)).lookup (naming key) = (positions keys).lookup key := by
  have hlookup (entries : List (Address × Nat)) :
      (entries.map (Prod.map naming id)).lookup (naming key) = entries.lookup key := by
    induction entries with
    | nil => rfl
    | cons entry rest ih =>
        have hsame : (naming key == naming entry.1) = (key == entry.1) := by
          rw [Bool.eq_iff_iff, beq_iff_eq, beq_iff_eq, hinjective.eq_iff]
        rw [List.map_cons, List.lookup_cons, List.lookup_cons, ih, Prod.map_fst, hsame]
        rfl
  rw [positions, positions, List.zipIdx_map, ← List.map_reverse]
  exact hlookup _

theorem indexIn_rename (keys : List Address) (key : Address) :
    indexIn (keys.map naming) (naming key) =
      rephrase (CompileError.rename naming) id (indexIn keys key) := by
  rw [indexIn, indexIn, lookup_positions_rename hinjective]
  cases (positions keys).lookup key <;> rfl

theorem ofInstruction_rename (keys : List Address) (instruction : Instruction) :
    ofInstruction (keys.map naming) (instruction.rename naming) =
      rephrase (CompileError.rename naming) id (ofInstruction keys instruction) := by
  have haccounts : (instruction.accounts.map (AccountMeta.rename naming)).mapM
      (fun account => indexIn (keys.map naming) account.address) =
        rephrase (CompileError.rename naming) (List.map id)
          (instruction.accounts.mapM fun account => indexIn keys account.address) := by
    apply mapM_rephrase
    intro account
    exact indexIn_rename hinjective keys account.address
  rw [ofInstruction, ofInstruction, Instruction.rename, haccounts, List.map_id_fun]
  apply rephrase_bind
  intro accountIndexes
  rw [indexIn_rename hinjective]
  apply rephrase_bind
  intro programIndex
  rfl

end CompiledInstruction

/-- Compiling renamed instructions against renamed tables gives the renamed message, with
the same counts, indexes and data, or the same failure with the renamed addresses in it. -/
theorem Message.compile_rename (naming : Equiv.Perm Address) (vault : Address)
    (instructions : List Instruction) (tables : List LookupTable) :
    compile (naming vault) (instructions.map (Instruction.rename naming))
        (tables.map (LookupTable.rename naming)) =
      rephrase (CompileError.rename naming) (rename naming)
        (compile vault instructions tables) := by
  have hinjective := naming.injective
  rw [compile, compile, Roster.ofInstructions_rename hinjective,
    Roster.extractAll_rename hinjective]
  apply rephrase_bind
  rintro ⟨extracted, remaining⟩
  dsimp only [Prod.map]
  rw [Roster.layout_rename hinjective]
  apply rephrase_bind
  rintro ⟨header, staticKeys⟩
  have hloaded : LoadedAddresses.concat ((extracted.map
      (Prod.map (TableLookup.rename naming) (LoadedAddresses.rename naming))).map Prod.snd) =
        (LoadedAddresses.concat (extracted.map Prod.snd)).rename naming := by
    rw [← LoadedAddresses.concat_rename, List.map_map, List.map_map]
    rfl
  have hkeys (loaded : LoadedAddresses) : staticKeys.map naming ++ (loaded.rename naming).toList =
      (staticKeys ++ loaded.toList).map naming := by
    rw [LoadedAddresses.toList_rename, List.map_append]
  simp only [Prod.map_apply, id_eq, hloaded, hkeys, LoadedAddresses.length_rename, List.length_map]
  generalize LoadedAddresses.concat (extracted.map Prod.snd) = loaded
  by_cases hcapacity : capacity < staticKeys.length + loaded.length
  · rw [if_pos hcapacity, if_pos hcapacity]
    rfl
  · rw [if_neg hcapacity, if_neg hcapacity,
      mapM_rephrase (CompiledInstruction.ofInstruction_rename hinjective _)]
    apply rephrase_bind
    intro compiled
    apply Roster.byteSize_bind_rename
    intro writableNonSigners
    simp [rephrase, rename, Function.comp_def]

end MultisigVault
