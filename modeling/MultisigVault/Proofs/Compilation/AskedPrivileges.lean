import MultisigVault.Proofs.Compilation.Canonical

/-!
# Where a privilege is asked for does not matter

Every account of an instruction comes with the privileges that the call needs on it.
Compiling joins what all instructions ask for on an address.  Which of the references
asked, the first or the last, for the signature and the right to write together or one
each, leaves no trace: neither in the message nor in the error, whatever the tables hold.
-/

namespace MultisigVault

/-- Whether two instructions are the same apart from the privileges of their accounts. -/
structure Instruction.SameCall (left right : Instruction) : Prop where
  program : left.program = right.program
  addresses : left.accounts.map AccountMeta.address = right.accounts.map AccountMeta.address
  data : left.data = right.data

/-- Whether two lists of instructions ask for the same privileges on every address but the
vault, which has them all. -/
def AskAlike (vault : Address) (left right : List Instruction) : Prop :=
  ∀ key, key ≠ vault →
    (Asked AccountMeta.isSigner left key ↔ Asked AccountMeta.isSigner right key) ∧
      (Asked AccountMeta.isWritable left key ↔ Asked AccountMeta.isWritable right key)

section

variable {vault : Address} {left right : List Instruction}

/-- The vault is entitled to everything, so what is asked for on it makes no difference. -/
theorem AskAlike.entitled_iff (halike : AskAlike vault left right) (key : Address) :
    (Entitled AccountMeta.isSigner vault left key ↔
        Entitled AccountMeta.isSigner vault right key) ∧
      (Entitled AccountMeta.isWritable vault left key ↔
        Entitled AccountMeta.isWritable vault right key) := by
  by_cases hvault : key = vault
  · exact ⟨iff_of_true (.inl hvault) (.inl hvault), iff_of_true (.inl hvault) (.inl hvault)⟩
  · obtain ⟨hsigner, hwritable⟩ := halike key hvault
    exact ⟨or_congr_right hsigner, or_congr_right hwritable⟩

variable (hcalls : List.Forall₂ Instruction.SameCall left right)

include hcalls

theorem mentions_congr : mentions vault left = mentions vault right := by
  rw [mentions, mentions]
  congr 1
  induction hcalls with
  | nil => rfl
  | cons hcall _ ih =>
      rw [List.flatMap_cons, List.flatMap_cons, ih, hcall.program, hcall.addresses]

/-- The roster lists the same addresses in the same order, with the same privileges. -/
theorem Roster.ofInstructions_congr (halike : AskAlike vault left right) :
    ofInstructions vault left = ofInstructions vault right := by
  have haccounts : (ofInstructions vault left).accounts =
      (ofInstructions vault right).accounts := by
    rw [accounts_ofInstructions, accounts_ofInstructions, merged, merged, keys_references,
      keys_references, distinctMentions, distinctMentions, mentions_congr hcalls]
    apply List.map_congr_left
    intro key _
    obtain ⟨hsigner, hwritable⟩ := halike.entitled_iff key
    simp only [entry_references, hsigner, hwritable]
  exact congrArg (Roster.mk vault) haccounts

namespace CompiledInstruction

omit hcalls in
/-- Positions are given to addresses, whatever their privileges. -/
theorem renumber_congr {instruction other : Instruction} (hcall : instruction.SameCall other)
    (keys : List Address) : renumber keys instruction = renumber keys other := by
  have haccounts := congrArg (List.map (position keys)) hcall.addresses
  rw [List.map_map, List.map_map] at haccounts
  rw [renumber, renumber, hcall.program, hcall.data]
  exact congrArg (CompiledInstruction.mk _ · _) haccounts

theorem map_renumber_congr (keys : List Address) :
    left.map (renumber keys) = right.map (renumber keys) := by
  induction hcalls with
  | nil => rfl
  | cons hcall _ ih => rw [List.map_cons, List.map_cons, renumber_congr hcall, ih]

end CompiledInstruction

end

namespace Message

/-- Compiling depends on the privileges of accounts only through what is asked for on each
address by all instructions together.  Two lists of the same calls that ask alike give the
same message, or fail for the same reason. -/
theorem compile_eq_of_askAlike {vault : Address} {left right : List Instruction}
    (tables : List LookupTable) (hcalls : List.Forall₂ Instruction.SameCall left right)
    (halike : AskAlike vault left right) :
    compile vault left tables = compile vault right tables := by
  -- The closed form reads the instructions in two places: for the roster, and to number them.
  have hroster := Roster.ofInstructions_congr hcalls halike
  have hmessage : (Roster.ofInstructions vault right).message left tables =
      (Roster.ofInstructions vault right).message right tables := by
    rw [Roster.message, Roster.message, CompiledInstruction.map_renumber_congr hcalls]
  rw [compile_eq, compile_eq, hroster, hmessage]

/-- Every privilege is asked for in the other instruction, and none any more on the vault.
Of the addresses that the table holds, only the one that does not sign is looked up. -/
theorem compile_eq_of_askAlike_moved :
    let left : List Instruction :=
      [⟨.uniform 2, [.writable (.uniform 3) false, .readonly (.uniform 4) false,
          .readonly (.uniform 5) true, .writable (.uniform 1) true], [7]⟩,
        ⟨.uniform 4, [.readonly (.uniform 3) false, .writable (.uniform 5) false,
          .readonly (.uniform 4) true], []⟩]
    let right : List Instruction :=
      [⟨.uniform 2, [.readonly (.uniform 3) false, .readonly (.uniform 4) true,
          .writable (.uniform 5) false, .readonly (.uniform 1) false], [7]⟩,
        ⟨.uniform 4, [.writable (.uniform 3) false, .readonly (.uniform 5) true,
          .readonly (.uniform 4) false], []⟩]
    let tables : List LookupTable := [⟨.uniform 8, [.uniform 4, .uniform 5, .uniform 3]⟩]
    let message : Message :=
      ⟨3, 2, 0, [.uniform 1, .uniform 5, .uniform 4, .uniform 2],
        [⟨3, [4, 2, 1, 0], [7]⟩, ⟨2, [4, 1, 2], []⟩], [⟨.uniform 8, [2], []⟩]⟩
    left ≠ right ∧ List.Forall₂ Instruction.SameCall left right ∧
      AskAlike (.uniform 1) left right ∧ compile (.uniform 1) left tables = .ok message ∧
      compile (.uniform 1) right tables = .ok message := by
  intro left right tables message
  have hcalls : List.Forall₂ Instruction.SameCall left right :=
    .cons ⟨rfl, rfl, rfl⟩ (.cons ⟨rfl, rfl, rfl⟩ .nil)
  have halike : AskAlike (.uniform 1) left right := by
    intro key hvault
    have hother : Address.uniform 1 ≠ key := hvault.symm
    simp [Asked, left, right, AccountMeta.writable, AccountMeta.readonly, hother, or_comm]
  have hcompile : compile (.uniform 1) left tables = .ok message := by decide
  refine ⟨by decide, hcalls, halike, hcompile, ?_⟩
  rw [← compile_eq_of_askAlike tables hcalls halike]
  exact hcompile

end Message

end MultisigVault
