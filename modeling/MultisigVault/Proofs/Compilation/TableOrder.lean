import Mathlib.Data.List.Perm.Basic
import MultisigVault.Proofs.Compilation.Identity

/-!
# Compiling with tables in another order

The order of the tables decides which of them takes over an address that several hold.
It does not decide whether an address is taken over, nor in which group.  So two
orders that both compile give messages that differ in their lookups and in the indexes
of what is looked up, and in nothing else.
-/

namespace MultisigVault

open Outcome
open scoped List

/-! ## What two messages have in common -/

/-- Whether two positions are the same below a bound, or both are at or above it. -/
def SameBelow (bound : Nat) (index other : Byte) : Prop :=
  (index.toNat < bound ↔ other.toNat < bound) ∧ (index.toNat < bound → index = other)

/-- Whether two instructions have the same data, and the same positions as far as those
are below a bound. -/
structure CompiledInstruction.AgreesBelow (bound : Nat)
    (compiled other : CompiledInstruction) : Prop where
  program : SameBelow bound compiled.programIndex other.programIndex
  accounts : List.Forall₂ (SameBelow bound) compiled.accountIndexes other.accountIndexes
  data : compiled.data = other.data

/-- Whether two messages agree in all but the lookups and the indexes of what is looked
up, and look up as many addresses of either group. -/
structure Message.AgreesUpToLookups (message other : Message) : Prop where
  staticKeys : message.staticKeys = other.staticKeys
  signers : message.signers = other.signers
  writableSigners : message.writableSigners = other.writableSigners
  writableNonSigners : message.writableNonSigners = other.writableNonSigners
  keyCount : message.keyCount = other.keyCount
  writableIndexes : (message.lookups.flatMap TableLookup.writableIndexes).length =
    (other.lookups.flatMap TableLookup.writableIndexes).length
  readonlyIndexes : (message.lookups.flatMap TableLookup.readonlyIndexes).length =
    (other.lookups.flatMap TableLookup.readonlyIndexes).length
  instructions : List.Forall₂ (CompiledInstruction.AgreesBelow message.staticKeys.length)
    message.instructions other.instructions

/-- Whether the lookups of a message are those that the tables make, each with the
addresses that leave the roster for it.  It names them by index in one of the tables. -/
structure Extracted (vault : Address) (instructions : List Instruction)
    (tables : List LookupTable) (message : Message)
    (moved : List (TableLookup × LoadedAddresses)) : Prop where
  extraction : ∃ rest,
    (Roster.ofInstructions vault instructions).extractAll tables = .ok (moved, rest)
  lookups : message.lookups = moved.map Prod.fst
  named : ∀ entry ∈ moved, ∃ table ∈ tables, entry.1.read [table] = .ok entry.2

/-- The addresses that leave the roster, by group. -/
def movedKeys (moved : List (TableLookup × LoadedAddresses)) : LoadedAddresses :=
  LoadedAddresses.concat (moved.map Prod.snd)

/-- A lookup has an index for each address that it names. -/
theorem TableLookup.length_of_read {lookup : TableLookup} {tables : List LookupTable}
    {loaded : LoadedAddresses} (hread : lookup.read tables = .ok loaded) :
    lookup.writableIndexes.length = loaded.writable.length ∧
      lookup.readonlyIndexes.length = loaded.readonly.length := by
  obtain ⟨table, -, hwritable, hreadonly⟩ := read_eq_ok_iff.mp hread
  exact ⟨(mapM_eq_ok_iff.mp hwritable).length_eq, (mapM_eq_ok_iff.mp hreadonly).length_eq⟩

section

variable {vault : Address} {instructions : List Instruction} {tables : List LookupTable}
  {message : Message} {moved : List (TableLookup × LoadedAddresses)}

theorem Extracted.length_eq (hextracted : Extracted vault instructions tables message moved) :
    (message.lookups.flatMap TableLookup.writableIndexes).length =
        (movedKeys moved).writable.length ∧
      (message.lookups.flatMap TableLookup.readonlyIndexes).length =
        (movedKeys moved).readonly.length := by
  have hlengths : ∀ entry ∈ moved,
      entry.1.writableIndexes.length = entry.2.writable.length ∧
        entry.1.readonlyIndexes.length = entry.2.readonly.length := by
    intro entry hentry
    obtain ⟨table, -, hread⟩ := hextracted.named entry hentry
    exact TableLookup.length_of_read hread
  rw [hextracted.lookups, movedKeys, LoadedAddresses.concat, List.flatMap_map, List.flatMap_map,
    List.flatMap_map, List.flatMap_map, List.length_flatMap, List.length_flatMap,
    List.length_flatMap, List.length_flatMap]
  constructor
  · congr 1
    exact List.map_congr_left fun entry hentry => (hlengths entry hentry).1
  · congr 1
    exact List.map_congr_left fun entry hentry => (hlengths entry hentry).2

end

/-! ## Two orders of extraction -/

namespace Roster

/-- Two tables leave the same accounts in either order. -/
instance rightCommutative_without : RightCommutative without where
  right_comm roster table other := by
    simp only [without, List.filter_filter, Bool.and_comm]

variable {tables others : List LookupTable} (hperm : tables ~ others)

include hperm

theorem withoutAll_perm (roster : Roster) : roster.withoutAll tables = roster.withoutAll others :=
  hperm.foldl_eq roster

/-- The addresses of a group that do not remain are the same in either order. -/
theorem flatMap_drains_perm (roster : Roster) (isWritable : Bool) :
    (roster.drains tables).flatMap (Drain.group · isWritable) ~
      (roster.drains others).flatMap (Drain.group · isWritable) := by
  let rest := (roster.withoutAll others).block false isWritable
  apply (List.perm_append_left_iff rest).mp
  calc
    rest ++ (roster.drains tables).flatMap (Drain.group · isWritable)
      = (roster.withoutAll tables).block false isWritable ++
          (roster.drains tables).flatMap (Drain.group · isWritable) := by
        rw [withoutAll_perm hperm]
    _ ~ roster.block false isWritable := (roster.block_perm_drains tables isWritable).symm
    _ ~ rest ++ (roster.drains others).flatMap (Drain.group · isWritable) :=
        roster.block_perm_drains others isWritable

theorem loaded_perm (roster : Roster) :
    (roster.loaded tables).writable ~ (roster.loaded others).writable ∧
      (roster.loaded tables).readonly ~ (roster.loaded others).readonly :=
  ⟨flatMap_drains_perm hperm roster true, flatMap_drains_perm hperm roster false⟩

end Roster

/-! ## Positions before and after -/

namespace CompiledInstruction

variable {static first second : List Address} (hfirst : (static ++ first).length ≤ 256)
  (hsecond : (static ++ second).length ≤ 256)

include hfirst hsecond

/-- What follows in the combined list does not change the positions of the static keys. -/
theorem sameBelow_position {key : Address} (hkey : key ∈ static ++ first)
    (hother : key ∈ static ++ second) :
    SameBelow static.length (position (static ++ first) key) (position (static ++ second) key) := by
  rw [SameBelow, toNat_position hfirst hkey, toNat_position hsecond hother]
  by_cases hstatic : key ∈ static
  · rw [position, position, List.idxOf_append_of_mem hstatic, List.idxOf_append_of_mem hstatic]
    exact ⟨Iff.rfl, fun _ => rfl⟩
  · have habove (loaded : List Address) : ¬(static ++ loaded).idxOf key < static.length := by
      rw [List.idxOf_append_of_notMem hstatic]
      omega
    exact ⟨iff_of_false (habove first) (habove second), fun hlt => absurd hlt (habove first)⟩

theorem agreesBelow_renumber {instruction : Instruction}
    (hlisted : ∀ key, key = instruction.program ∨
      key ∈ instruction.accounts.map AccountMeta.address →
        key ∈ static ++ first ∧ key ∈ static ++ second) :
    AgreesBelow static.length (renumber (static ++ first) instruction)
      (renumber (static ++ second) instruction) where
  program := by
    obtain ⟨hkey, hother⟩ := hlisted instruction.program (.inl rfl)
    exact sameBelow_position hfirst hsecond hkey hother
  accounts := by
    rw [renumber, renumber, List.forall₂_map_left_iff, List.forall₂_map_right_iff,
      List.forall₂_same]
    intro account haccount
    obtain ⟨hkey, hother⟩ := hlisted account.address (.inr (List.mem_map_of_mem haccount))
    exact sameBelow_position hfirst hsecond hkey hother
  data := rfl

end CompiledInstruction

/-! ## Compiling -/

namespace Message

variable {vault : Address} {instructions : List Instruction} {tables others : List LookupTable}
  {message other : Message}

/-- What is moved for the lookups of a compiled message is what the tables drain. -/
theorem exists_extracted_of_compile
    (hcompile : compile vault instructions tables = .ok message) :
    ∃ moved, Extracted vault instructions tables message moved ∧
      movedKeys moved = (Roster.ofInstructions vault instructions).loaded tables := by
  obtain ⟨hreached, -, rfl⟩ := compile_eq_ok_iff.mp hcompile
  have hroster := Roster.wellFormed_ofInstructions vault instructions
  refine ⟨_, ⟨⟨_, Roster.extractAll_of_reachedBy hroster.nodup hreached⟩, ?_, ?_⟩,
    Roster.concat_map_snd _ tables⟩
  · rw [List.map_map]
    rfl
  · intro entry hentry
    obtain ⟨drain, hactive, rfl⟩ := List.mem_map.mp hentry
    have hdrain := Roster.mem_drains_of_mem_active hactive
    have hkeys : ([drain.table].map LookupTable.key).Nodup := List.nodup_singleton _
    exact ⟨drain.table, Roster.table_mem_of_mem_drains hdrain,
      Drain.read_lookup (Roster.sound_of_mem_drains hreached hdrain)
        (LookupTable.find_of_mem hkeys (List.mem_singleton.mpr rfl))⟩

/-- An instruction keeps the positions of static keys when the tables change places. -/
theorem agreesBelow_of_perm (hperm : tables ~ others) {instruction : Instruction}
    (hinstruction : instruction ∈ instructions)
    (hlength : ((Roster.ofInstructions vault instructions).combined tables).length ≤ 256)
    (hotherLength : ((Roster.ofInstructions vault instructions).combined others).length ≤ 256) :
    CompiledInstruction.AgreesBelow
      ((Roster.ofInstructions vault instructions).withoutAll tables).staticKeys.length
      (.renumber ((Roster.ofInstructions vault instructions).combined tables) instruction)
      (.renumber ((Roster.ofInstructions vault instructions).combined others) instruction) := by
  have hlisted (list : List LookupTable) (key : Address)
      (hkey : key = instruction.program ∨ key ∈ instruction.accounts.map AccountMeta.address) :
      key ∈ (Roster.ofInstructions vault instructions).combined list := by
    rcases hkey with rfl | hkey
    · exact program_mem_combined hinstruction
    · obtain ⟨account, haccount, rfl⟩ := List.mem_map.mp hkey
      exact account_mem_combined hinstruction account haccount
  have hcombined : (Roster.ofInstructions vault instructions).combined others =
      ((Roster.ofInstructions vault instructions).withoutAll tables).staticKeys ++
        ((Roster.ofInstructions vault instructions).loaded others).toList := by
    rw [Roster.combined, Roster.withoutAll_perm hperm]
  have hothers := hlisted others
  rw [hcombined] at hotherLength hothers ⊢
  apply CompiledInstruction.agreesBelow_renumber hlength hotherLength
  intro key hkey
  exact ⟨hlisted tables key hkey, hothers key hkey⟩

/-- The order of the tables decides about nothing but the lookups.  Two orders that both
compile look up the same writable and the same readonly addresses.  All else is equal,
also the indexes of static keys; the indexes of what is looked up may differ. -/
theorem compile_perm_tables (hperm : tables ~ others)
    (hcompile : compile vault instructions tables = .ok message)
    (hother : compile vault instructions others = .ok other) :
    message.AgreesUpToLookups other ∧
      ∃ moved otherMoved, Extracted vault instructions tables message moved ∧
        Extracted vault instructions others other otherMoved ∧
        (movedKeys moved).writable ~ (movedKeys otherMoved).writable ∧
        (movedKeys moved).readonly ~ (movedKeys otherMoved).readonly := by
  obtain ⟨moved, hmoved, hkeys⟩ := exists_extracted_of_compile hcompile
  obtain ⟨otherMoved, hotherMoved, hotherKeys⟩ := exists_extracted_of_compile hother
  have hlength := length_combined_of_compile hcompile
  have hotherLength := length_combined_of_compile hother
  have hrest := Roster.withoutAll_perm hperm (Roster.ofInstructions vault instructions)
  have hloaded := Roster.loaded_perm hperm (Roster.ofInstructions vault instructions)
  rw [← hkeys, ← hotherKeys] at hloaded
  obtain ⟨hwritable, hreadonly⟩ := hloaded
  refine ⟨?_, moved, otherMoved, hmoved, hotherMoved, hwritable, hreadonly⟩
  obtain ⟨-, -, rfl⟩ := compile_eq_ok_iff.mp hcompile
  obtain ⟨-, -, rfl⟩ := compile_eq_ok_iff.mp hother
  exact
    { staticKeys := congrArg Roster.staticKeys hrest
      signers := rfl
      writableSigners := rfl
      writableNonSigners := by rw [Roster.message, Roster.message, hrest]
      keyCount := by rw [Roster.keyCount_message, Roster.keyCount_message]
      writableIndexes := by
        rw [hmoved.length_eq.1, hotherMoved.length_eq.1]
        exact hwritable.length_eq
      readonlyIndexes := by
        rw [hmoved.length_eq.2, hotherMoved.length_eq.2]
        exact hreadonly.length_eq
      instructions := by
        rw [Roster.message, Roster.message, List.forall₂_map_left_iff,
          List.forall₂_map_right_iff, List.forall₂_same]
        intro instruction hinstruction
        exact agreesBelow_of_perm hperm hinstruction hlength hotherLength }

/-- The first of two tables takes over the address that both hold, and the addresses
that are looked up change places. -/
theorem compile_perm_tables_shared_address :
    let instruction : Instruction :=
      ⟨.uniform 2, [.writable (.uniform 3) false, .writable (.uniform 5) false,
        .readonly (.uniform 4) true], [7]⟩
    let left : LookupTable := ⟨.uniform 8, [.uniform 6, .uniform 5, .uniform 2]⟩
    let right : LookupTable := ⟨.uniform 9, [.uniform 3, .uniform 2]⟩
    let message : Message :=
      ⟨2, 1, 0, [.uniform 1, .uniform 4], [⟨4, [3, 2, 1], [7]⟩],
        [⟨.uniform 8, [1], [2]⟩, ⟨.uniform 9, [0], []⟩]⟩
    let other : Message :=
      ⟨2, 1, 0, [.uniform 1, .uniform 4], [⟨4, [2, 3, 1], [7]⟩],
        [⟨.uniform 9, [0], [1]⟩, ⟨.uniform 8, [1], []⟩]⟩
    compile (.uniform 1) [instruction] [left, right] = .ok message ∧
      compile (.uniform 1) [instruction] [right, left] = .ok other ∧
      message.AgreesUpToLookups other := by
  intro instruction left right message other
  have hcompile : compile (.uniform 1) [instruction] [left, right] = .ok message := by decide
  have hother : compile (.uniform 1) [instruction] [right, left] = .ok other := by decide
  have hperm : [left, right] ~ [right, left] := .swap right left []
  exact ⟨hcompile, hother, (compile_perm_tables hperm hcompile hother).1⟩

end Message

end MultisigVault
