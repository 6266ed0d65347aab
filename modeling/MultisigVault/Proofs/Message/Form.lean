import MultisigVault.Message.WellFormed
import MultisigVault.Proofs.Outcome

/-!
# What the form check accepts

The check runs through its rules in order and reports the first one that fails.  It
accepts a message exactly when all of them hold.
-/

namespace MultisigVault

open Outcome

/-- An instruction is within a count when all its indexes are below it. -/
theorem CompiledInstruction.isWithin_iff {instruction : CompiledInstruction} {count : Nat} :
    instruction.isWithin count = true ↔
      instruction.programIndex.toNat < count ∧
        ∀ index ∈ instruction.accountIndexes, index.toNat < count := by
  simp only [isWithin, Bool.and_eq_true, decide_eq_true_eq, List.all_eq_true]

namespace Message

/-- The rules of the form check. -/
structure WellFormed (message : Message) : Prop where
  writableSigners_le : message.writableSigners.toNat ≤ message.signers.toNat
  counts_le : message.signers.toNat + message.writableNonSigners.toNat ≤
    message.staticKeys.length
  nodup : message.staticKeys.Nodup
  keyCount_le : message.keyCount ≤ 256
  within : ∀ instruction ∈ message.instructions, instruction.isWithin message.keyCount = true

theorem checkForm_eq_ok_iff {message : Message} :
    message.checkForm = .ok () ↔ message.WellFormed := by
  simp only [checkForm, guard_eq_ok_iff, UInt8.lt_iff_toNat_lt, Nat.not_lt, not_not,
    Bool.not_eq_true', Bool.not_eq_false, List.all_eq_true, and_true]
  constructor
  · intro hform
    obtain ⟨hsigners, hcounts, hnodup, hkeys, hwithin⟩ := hform
    exact ⟨hsigners, hcounts, hnodup, hkeys, hwithin⟩
  · intro hform
    exact ⟨hform.writableSigners_le, hform.counts_le, hform.nodup, hform.keyCount_le,
      hform.within⟩

end Message

end MultisigVault
