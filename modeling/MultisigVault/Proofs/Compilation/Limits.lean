import MultisigVault.Proofs.Compilation.Canonical

/-!
# When compiling fails

Compiling fails for two reasons only.  An address that a table should take over may
lie beyond the reach of a one-byte index, or there may be more addresses or signers
than a message can count.  The limits concern the addresses that are referred to,
wherever they end up, so no choice of tables helps against them.
-/

namespace MultisigVault

open LookupTable (FirstHolder)

/-- Whether the first occurrence of some address in its first holder is beyond the
reach of a one-byte index.  The vault and the signers are never looked up. -/
def IndexOverflows (vault : Address) (instructions : List Instruction)
    (tables : List LookupTable) : Prop :=
  ∃ place table key, FirstHolder tables place table key ∧ Mentioned instructions key ∧
    ¬Entitled AccountMeta.isSigner vault instructions key ∧
      256 ≤ table.addresses.idxOf key

/-- Whether there are more addresses than one-byte indexes, or more signers than one
byte counts. -/
def ExceedsLimits (vault : Address) (instructions : List Instruction) : Prop :=
  256 < (distinctMentions vault instructions).length ∨
    255 < ((distinctMentions vault instructions).filter fun key =>
      Entitled AccountMeta.isSigner vault instructions key).length

namespace Roster

theorem reachedBy_ofInstructions_iff {vault : Address} {instructions : List Instruction}
    {tables : List LookupTable} :
    (ofInstructions vault instructions).ReachedBy tables ↔
      ¬IndexOverflows vault instructions tables := by
  rw [reachedBy_iff]
  constructor
  · intro hreach hoverflow
    obtain ⟨place, table, key, hfirst, hmentioned, hsigner, hfar⟩ := hoverflow
    have hnear := hreach place table key hfirst
      (mem_nonSigners_ofInstructions.mpr ⟨hmentioned, hsigner⟩)
    exact Nat.not_lt.mpr hfar hnear
  · intro hnone place table key hfirst hkey
    apply Nat.lt_of_not_le
    intro hfar
    have hnonSigner := mem_nonSigners_ofInstructions.mp hkey
    exact hnone ⟨place, table, key, hfirst, hnonSigner.1, hnonSigner.2, hfar⟩

theorem fits_ofInstructions_iff {vault : Address} {instructions : List Instruction} :
    (ofInstructions vault instructions).length ≤ 256 ∧
        (ofInstructions vault instructions).signers.length < 256 ↔
      ¬ExceedsLimits vault instructions := by
  rw [length_ofInstructions, signers_ofInstructions, ExceedsLimits, not_or, Nat.not_lt,
    Nat.not_lt, Nat.lt_succ_iff]

end Roster

namespace Message

section

variable {vault : Address} {instructions : List Instruction} {tables : List LookupTable}

theorem compile_of_indexOverflows (hoverflow : IndexOverflows vault instructions tables) :
    compile vault instructions tables = .error .lookupIndexOverflow := by
  rw [compile_eq, if_neg]
  intro hreached
  exact Roster.reachedBy_ofInstructions_iff.mp hreached hoverflow

theorem compile_of_exceedsLimits (hreach : ¬IndexOverflows vault instructions tables)
    (hexceeds : ExceedsLimits vault instructions) :
    compile vault instructions tables = .error .tooManyKeys := by
  rw [compile_eq, if_pos (Roster.reachedBy_ofInstructions_iff.mpr hreach), if_neg]
  intro hfits
  exact Roster.fits_ofInstructions_iff.mp hfits hexceeds

theorem compile_of_withinLimits (hreach : ¬IndexOverflows vault instructions tables)
    (hwithin : ¬ExceedsLimits vault instructions) :
    ∃ message, compile vault instructions tables = .ok message := by
  rw [compile_eq, if_pos (Roster.reachedBy_ofInstructions_iff.mpr hreach),
    if_pos (Roster.fits_ofInstructions_iff.mpr hwithin)]
  exact ⟨_, rfl⟩

/-- There are three outcomes, and the inputs decide among them. -/
theorem compile_cases (vault : Address) (instructions : List Instruction)
    (tables : List LookupTable) :
    (IndexOverflows vault instructions tables ∧
      compile vault instructions tables = .error .lookupIndexOverflow) ∨
    ((¬IndexOverflows vault instructions tables ∧ ExceedsLimits vault instructions) ∧
      compile vault instructions tables = .error .tooManyKeys) ∨
    ((¬IndexOverflows vault instructions tables ∧ ¬ExceedsLimits vault instructions) ∧
      ∃ message, compile vault instructions tables = .ok message) := by
  by_cases hoverflow : IndexOverflows vault instructions tables
  · exact .inl ⟨hoverflow, compile_of_indexOverflows hoverflow⟩
  · by_cases hexceeds : ExceedsLimits vault instructions
    · exact .inr (.inl ⟨⟨hoverflow, hexceeds⟩, compile_of_exceedsLimits hoverflow hexceeds⟩)
    · exact .inr (.inr ⟨⟨hoverflow, hexceeds⟩, compile_of_withinLimits hoverflow hexceeds⟩)

theorem compile_eq_lookupIndexOverflow_iff :
    compile vault instructions tables = .error .lookupIndexOverflow ↔
      IndexOverflows vault instructions tables := by
  rcases compile_cases vault instructions tables with
    ⟨hoverflow, heq⟩ | ⟨hexceeds, heq⟩ | ⟨hwithin, message, heq⟩
  · exact iff_of_true heq hoverflow
  · exact iff_of_false (by simp [heq]) hexceeds.1
  · exact iff_of_false (by simp [heq]) hwithin.1

theorem compile_eq_tooManyKeys_iff :
    compile vault instructions tables = .error .tooManyKeys ↔
      ¬IndexOverflows vault instructions tables ∧ ExceedsLimits vault instructions := by
  rcases compile_cases vault instructions tables with
    ⟨hoverflow, heq⟩ | ⟨hexceeds, heq⟩ | ⟨hwithin, message, heq⟩
  · exact iff_of_false (by simp [heq]) fun hboth => hboth.1 hoverflow
  · exact iff_of_true heq hexceeds
  · exact iff_of_false (by simp [heq]) fun hboth => hwithin.2 hboth.2

theorem compile_succeeds_iff :
    (∃ message, compile vault instructions tables = .ok message) ↔
      ¬IndexOverflows vault instructions tables ∧ ¬ExceedsLimits vault instructions := by
  rcases compile_cases vault instructions tables with
    ⟨hoverflow, heq⟩ | ⟨hexceeds, heq⟩ | ⟨hwithin, hok⟩
  · exact iff_of_false (by simp [heq]) fun hboth => hboth.1 hoverflow
  · exact iff_of_false (by simp [heq]) fun hboth => hboth.2 hexceeds.2
  · exact iff_of_true hok hwithin

/-- No failure has any other cause. -/
theorem cause_of_compile {cause : CompileError}
    (hfails : compile vault instructions tables = .error cause) :
    cause = .lookupIndexOverflow ∨ cause = .tooManyKeys := by
  rcases compile_cases vault instructions tables with
    ⟨-, heq⟩ | ⟨-, heq⟩ | ⟨-, message, heq⟩
  · exact .inl (Except.error.inj (hfails.symm.trans heq))
  · exact .inr (Except.error.inj (hfails.symm.trans heq))
  · cases hfails.symm.trans heq

end

/-- Compiling fails exactly when it must: on an index that does not fit one byte, and
otherwise on too many addresses or signers.  It never fails in any other way, and of
two table lists it is never one that exceeds the limits while the other compiles. -/
theorem compile_outcome (vault : Address) (instructions : List Instruction)
    (tables : List LookupTable) :
    (compile vault instructions tables = .error .lookupIndexOverflow ↔
      IndexOverflows vault instructions tables) ∧
    (compile vault instructions tables = .error .tooManyKeys ↔
      ¬IndexOverflows vault instructions tables ∧ ExceedsLimits vault instructions) ∧
    ((∃ message, compile vault instructions tables = .ok message) ↔
      ¬IndexOverflows vault instructions tables ∧ ¬ExceedsLimits vault instructions) ∧
    compile vault instructions tables ≠ .error .noWritableSigner ∧
    (∀ payer found, compile vault instructions tables ≠ .error (.payerNotFirst payer found)) ∧
    (∀ key, compile vault instructions tables ≠ .error (.unknownKey key)) ∧
    ∀ others, ¬(compile vault instructions tables = .error .tooManyKeys ∧
      ∃ message, compile vault instructions others = .ok message) := by
  refine ⟨compile_eq_lookupIndexOverflow_iff, compile_eq_tooManyKeys_iff, compile_succeeds_iff,
    ?_, ?_, ?_, ?_⟩
  · intro hfails
    simpa using cause_of_compile hfails
  · intro payer found hfails
    simpa using cause_of_compile hfails
  · intro key hfails
    simpa using cause_of_compile hfails
  · rintro others ⟨hfails, hsucceeds⟩
    exact (compile_succeeds_iff.mp hsucceeds).2 (compile_eq_tooManyKeys_iff.mp hfails).2

/-- The 257th address of a table is out of reach, also for a message of two addresses. -/
example : compile (.uniform 1) [⟨.uniform 2, [], []⟩]
    [⟨.uniform 8, List.replicate 256 .zero ++ [.uniform 2]⟩] = .error .lookupIndexOverflow := by
  decide +kernel

end Message

end MultisigVault
