import MultisigVault.Proofs.Roster.Layout

/-!
# Tables that change nothing

A table is redundant if the tables before it hold all that it could take over.  What
those tables leave has nothing for it, so offering it makes no lookup, cannot overflow
an index and leaves the roster as it is.  Compiling with it or without it is the same.
-/

namespace MultisigVault

open Outcome
open LookupTable (NoneHolds)

/-- Whether a table may take over an address: the instructions refer to it, and it is
neither the vault nor asked to sign. -/
def Eligible (vault : Address) (instructions : List Instruction) (key : Address) : Prop :=
  Mentioned instructions key ∧ ¬Entitled AccountMeta.isSigner vault instructions key

/-- Whether some earlier table holds each eligible address of a table. -/
def Redundant (vault : Address) (instructions : List Instruction) (before : List LookupTable)
    (table : LookupTable) : Prop :=
  ∀ key ∈ table.addresses, Eligible vault instructions key → ¬NoneHolds before key

namespace Roster

/-! ## A table with nothing to take over -/

/-- Whether a table holds no account of a roster that it could take over. -/
def Idle (roster : Roster) (table : LookupTable) : Prop :=
  ∀ key ∈ roster.nonSigners, key ∉ table.addresses

variable {roster : Roster} {table : LookupTable}

theorem Idle.reaches (hidle : roster.Idle table) : table.Reaches roster.nonSigners := by
  intro key hkey hheld
  exact absurd hheld (hidle key hkey)

theorem Idle.held_block (hidle : roster.Idle table) (isWritable : Bool) :
    table.held (roster.block false isWritable) = [] := by
  apply List.filter_eq_nil_iff.mpr
  intro key hkey hheld
  exact hidle key (mem_nonSigners_of_mem_block hkey) (of_decide_eq_true hheld)

theorem Idle.extracted? (hidle : roster.Idle table) : (roster.drain table).extracted? = none := by
  rw [drain, hidle.held_block, hidle.held_block]
  rfl

theorem Idle.without (hnodup : roster.addresses.Nodup) (hidle : roster.Idle table) :
    roster.without table = roster := by
  rw [without_eq hnodup, drain, hidle.held_block, hidle.held_block]
  simp [Drain.loaded, LoadedAddresses.toList]

/-- The step: an idle table makes no lookup and leaves the roster as it is. -/
theorem Idle.extract (hnodup : roster.addresses.Nodup) (hidle : roster.Idle table) :
    roster.extract table = .ok (none, roster) := by
  rw [extract_eq hnodup, if_pos hidle.reaches, hidle.extracted?, hidle.without hnodup]

theorem Idle.extractAll_cons (hnodup : roster.addresses.Nodup) (hidle : roster.Idle table)
    (rest : List LookupTable) : roster.extractAll (table :: rest) = roster.extractAll rest := by
  rw [extractAll, hidle.extract hnodup, ok_bind]
  exact bind_pure _

/-! ## Behind other tables -/

/-- Offering more tables goes on with the roster that the first ones leave. -/
theorem extractAll_append (roster : Roster) (tables others : List LookupTable) :
    roster.extractAll (tables ++ others) = do
      let (first, rest) ← roster.extractAll tables
      let (second, rest) ← rest.extractAll others
      return (first ++ second, rest) := by
  induction tables generalizing roster with
  | nil =>
      rw [List.nil_append, extractAll, ok_bind]
      exact (bind_pure _).symm
  | cons table tables ih =>
      simp only [List.cons_append, extractAll, ih, bind_assoc, pure_bind, List.append_assoc]

/-- The run: a table that is idle behind others can be left out. -/
theorem WellFormed.extractAll_of_idle (hroster : roster.WellFormed) {before : List LookupTable}
    (hidle : (roster.withoutAll before).Idle table) (after : List LookupTable) :
    roster.extractAll (before ++ table :: after) = roster.extractAll (before ++ after) := by
  rw [extractAll_append, extractAll_append]
  by_cases hreached : roster.ReachedBy before
  · have hrest := (hroster.withoutAll before).nodup
    rw [extractAll_eq hroster.nodup, if_pos hreached, ok_bind, ok_bind]
    dsimp only
    rw [hidle.extractAll_cons hrest]
  · rw [extractAll_eq hroster.nodup, if_neg hreached, error_bind, error_bind]

theorem idle_withoutAll_iff {vault : Address} {instructions : List Instruction}
    {before : List LookupTable} :
    ((ofInstructions vault instructions).withoutAll before).Idle table ↔
      Redundant vault instructions before table := by
  simp only [Idle, mem_nonSigners_withoutAll, mem_nonSigners_ofInstructions]
  constructor
  · intro hidle key hheld heligible hnone
    exact hidle key ⟨heligible, hnone⟩ hheld
  · intro hredundant key hleft hheld
    exact hredundant key hheld hleft.1 hleft.2

end Roster

namespace Message

variable {vault : Address} {instructions : List Instruction} {before : List LookupTable}
  {table : LookupTable}

theorem redundant_of_mem (hmem : table ∈ before) : Redundant vault instructions before table := by
  intro key hheld _ hnone
  exact hnone table hmem hheld

theorem redundant_of_not_eligible
    (hnone : ∀ key ∈ table.addresses, ¬Eligible vault instructions key) :
    Redundant vault instructions before table := by
  intro key hheld heligible
  exact absurd heligible (hnone key hheld)

theorem compile_of_redundant (hredundant : Redundant vault instructions before table)
    (after : List LookupTable) :
    compile vault instructions (before ++ table :: after) =
      compile vault instructions (before ++ after) := by
  have hroster := Roster.wellFormed_ofInstructions vault instructions
  have hidle := Roster.idle_withoutAll_iff.mpr hredundant
  rw [compile, hroster.extractAll_of_idle hidle, ← compile]

/-- Leaving a redundant table out changes neither the message nor the error.  A table
that is supplied a second time is redundant, and so is one that holds no eligible
address. -/
theorem compile_ignores_redundant_tables (vault : Address) (instructions : List Instruction)
    (before : List LookupTable) (table : LookupTable) (after : List LookupTable)
    (hredundant : Redundant vault instructions before table ∨ table ∈ before ∨
      ∀ key ∈ table.addresses, ¬Eligible vault instructions key) :
    compile vault instructions (before ++ table :: after) =
      compile vault instructions (before ++ after) := by
  rcases hredundant with hredundant | hmem | hnone
  · exact compile_of_redundant hredundant after
  · exact compile_of_redundant (redundant_of_mem hmem) after
  · exact compile_of_redundant (redundant_of_not_eligible hnone) after

/-- The second table holds the vault and a signer, and an address that only the first
one holds within the reach of an index. -/
theorem compile_ignores_redundant_tables_beyond_reach :
    let instruction : Instruction :=
      ⟨.uniform 2, [.writable (.uniform 3) false, .readonly (.uniform 4) true], []⟩
    let first : LookupTable := ⟨.uniform 8, [.uniform 5, .uniform 3]⟩
    let second : LookupTable :=
      ⟨.uniform 9, List.replicate 256 (.uniform 1) ++ [.uniform 3, .uniform 4]⟩
    Redundant (.uniform 1) [instruction] [first] second ∧
      compile (.uniform 1) [instruction] [first, second] =
        .ok ⟨2, 1, 0, [.uniform 1, .uniform 4, .uniform 2], [⟨2, [3, 1], []⟩],
          [⟨.uniform 8, [1], []⟩]⟩ ∧
      compile (.uniform 1) [instruction] [second] = .error .lookupIndexOverflow := by
  intro instruction first second
  have hredundant : Redundant (.uniform 1) [instruction] [first] second := by
    intro key hheld heligible
    rcases List.mem_append.mp hheld with hvault | hlast
    · exact absurd (.inl (List.eq_of_mem_replicate hvault)) heligible.2
    · rcases List.mem_pair.mp hlast with rfl | rfl
      · decide
      · exact absurd (by decide) heligible.2
  refine ⟨hredundant, ?_, by decide +kernel⟩
  have hdrop := compile_ignores_redundant_tables (.uniform 1) [instruction] [first] second []
    (.inl hredundant)
  exact hdrop.trans (by decide)

end Message

end MultisigVault
