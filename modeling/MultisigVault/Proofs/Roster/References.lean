import MultisigVault.Proofs.FirstOccurrence
import MultisigVault.Roster

/-!
# What a roster lists

The roster of some instructions is determined by the references alone: it lists
every address that is referred to once, in the order of first reference, and an
address has a privilege exactly when some reference asks for it.
-/

namespace MultisigVault

/-- Whether some instruction calls the address or lists it as an account. -/
def Mentioned (instructions : List Instruction) (key : Address) : Prop :=
  ∃ instruction ∈ instructions, instruction.program = key ∨
    ∃ account ∈ instruction.accounts, account.address = key

/-- Whether some account of the instructions asks for a privilege on the address. -/
def Asked (privilege : AccountMeta → Bool) (instructions : List Instruction)
    (key : Address) : Prop :=
  ∃ instruction ∈ instructions, ∃ account ∈ instruction.accounts,
    account.address = key ∧ privilege account = true

theorem Asked.mentioned {privilege : AccountMeta → Bool} {instructions : List Instruction}
    {key : Address} (hasked : Asked privilege instructions key) : Mentioned instructions key := by
  obtain ⟨instruction, hinstruction, account, haccount, hkey, -⟩ := hasked
  exact ⟨instruction, hinstruction, .inr ⟨account, haccount, hkey⟩⟩

instance (privilege : AccountMeta → Bool) (instructions : List Instruction) (key : Address) :
    Decidable (Asked privilege instructions key) :=
  inferInstanceAs (Decidable (∃ instruction ∈ instructions, _))

/-- Whether an address has a privilege: the vault has both, any other address what
some account of the instructions asks for. -/
def Entitled (privilege : AccountMeta → Bool) (vault : Address) (instructions : List Instruction)
    (key : Address) : Prop :=
  key = vault ∨ Asked privilege instructions key

instance (privilege : AccountMeta → Bool) (vault : Address) (instructions : List Instruction)
    (key : Address) : Decidable (Entitled privilege vault instructions key) :=
  inferInstanceAs (Decidable (_ ∨ _))

/-- All addresses in the order of reference: the vault, then the program and the
accounts of each instruction. -/
def mentions (vault : Address) (instructions : List Instruction) : List Address :=
  vault :: instructions.flatMap fun instruction =>
    instruction.program :: instruction.accounts.map AccountMeta.address

/-- The addresses that are referred to, each once and in the order of first reference. -/
def distinctMentions (vault : Address) (instructions : List Instruction) : List Address :=
  (mentions vault instructions).eraseDups

/-- Of the given addresses those that have exactly the given privileges, in the same order. -/
def privilegeClass (vault : Address) (instructions : List Instruction)
    (isSigner isWritable : Bool) (keys : List Address) : List Address :=
  keys.filter fun key =>
    Entitled AccountMeta.isSigner vault instructions key == isSigner &&
      Entitled AccountMeta.isWritable vault instructions key == isWritable

theorem mem_privilegeClass_iff {vault : Address} {instructions : List Instruction}
    {isSigner isWritable : Bool} {keys : List Address} {key : Address} :
    key ∈ privilegeClass vault instructions isSigner isWritable keys ↔
      key ∈ keys ∧
        (Entitled AccountMeta.isSigner vault instructions key ↔ isSigner = true) ∧
        (Entitled AccountMeta.isWritable vault instructions key ↔ isWritable = true) := by
  have hdecide (holds : Prop) [Decidable holds] (flag : Bool) :
      (decide holds == flag) = true ↔ (holds ↔ flag = true) := by
    rw [beq_iff_eq, Bool.eq_iff_iff, decide_eq_true_eq]
  rw [privilegeClass, List.mem_filter, Bool.and_eq_true, hdecide, hdecide]

/-- Leaving addresses out does not change the order of the others in their class. -/
theorem privilegeClass_filter (vault : Address) (instructions : List Instruction)
    (isSigner isWritable : Bool) (keep : Address → Bool) (keys : List Address) :
    privilegeClass vault instructions isSigner isWritable (keys.filter keep) =
      (privilegeClass vault instructions isSigner isWritable keys).filter keep := by
  rw [privilegeClass, privilegeClass, List.filter_filter, List.filter_filter]
  simp only [Bool.and_comm]

namespace Roster

/-! ## References and the privileges they ask for -/

/-- Everything that the payer and the instructions refer to, in order. -/
def references (payer : Address) (instructions : List Instruction) : List AccountMeta :=
  .writable payer true :: instructions.flatMap Instruction.references

/-- Whether one of the references to an address asks for a privilege. -/
def asks (privilege : AccountMeta → Bool) (references : List AccountMeta)
    (key : Address) : Bool :=
  references.any fun reference => reference.address = key && privilege reference

/-- An address with the privileges that any reference to it asks for. -/
def entry (references : List AccountMeta) (key : Address) : AccountMeta :=
  ⟨key, asks AccountMeta.isSigner references key, asks AccountMeta.isWritable references key⟩

@[simp]
theorem address_entry (references : List AccountMeta) (key : Address) :
    (entry references key).address = key := rfl

/-- The referenced addresses, each once and in the order of first reference. -/
def keys (references : List AccountMeta) : List Address :=
  (references.map AccountMeta.address).eraseDups

/-- The accounts of the roster that the references determine. -/
def merged (references : List AccountMeta) : List AccountMeta :=
  (keys references).map (entry references)

theorem nodup_keys (references : List AccountMeta) : (keys references).Nodup :=
  FirstOccurrence.nodup_eraseDups _

theorem asks_eq_true_iff {privilege : AccountMeta → Bool} {references : List AccountMeta}
    {key : Address} :
    asks privilege references key = true ↔
      ∃ reference ∈ references, reference.address = key ∧ privilege reference = true := by
  simp [asks]

theorem asks_concat (privilege : AccountMeta → Bool) (references : List AccountMeta)
    (reference : AccountMeta) (key : Address) :
    asks privilege (references ++ [reference]) key =
      (asks privilege references key || reference.address = key && privilege reference) := by
  simp [asks]

theorem keys_concat (references : List AccountMeta) (reference : AccountMeta) :
    keys (references ++ [reference]) =
      if reference.address ∈ keys references then keys references
      else keys references ++ [reference.address] := by
  simp only [keys, List.map_append, List.map_cons, List.map_nil, List.mem_eraseDups]
  exact FirstOccurrence.eraseDups_concat _ _

/-- A reference changes no other address. -/
theorem entry_concat_of_ne {references : List AccountMeta} {reference : AccountMeta}
    {key : Address} (hne : reference.address ≠ key) :
    entry (references ++ [reference]) key = entry references key := by
  simp [entry, asks_concat, hne]

/-- The first reference to an address sets its privileges. -/
theorem entry_concat_of_not_mem {references : List AccountMeta} {reference : AccountMeta}
    (hnew : reference.address ∉ keys references) :
    entry (references ++ [reference]) reference.address = reference := by
  have hunasked (privilege : AccountMeta → Bool) :
      asks privilege references reference.address = false := by
    simp only [asks, List.any_eq_false, Bool.and_eq_true, decide_eq_true_eq, not_and]
    intro earlier hearlier heq
    simp only [keys, List.mem_eraseDups] at hnew
    exact absurd (heq ▸ List.mem_map_of_mem hearlier) hnew
  simp [entry, asks_concat, hunasked]

/-! ## The roster is determined by its references -/

/-- A reference to a listed address adds its privileges in place. -/
theorem note_of_mem {references : List AccountMeta} {reference : AccountMeta}
    {listed : List Address} (hnodup : listed.Nodup) (hlisted : reference.address ∈ listed) :
    note (listed.map (entry references)) reference =
      listed.map (entry (references ++ [reference])) := by
  induction listed with
  | nil => cases hlisted
  | cons key rest ih =>
      obtain ⟨hfresh, hrest⟩ := List.nodup_cons.mp hnodup
      simp only [List.map_cons, note]
      by_cases heq : key = reference.address
      · subst heq
        rw [if_pos (address_entry ..)]
        congr 1
        · simp [entry, asks_concat]
        · apply List.map_congr_left
          intro other hother
          have hne : reference.address ≠ other := fun h => hfresh (h ▸ hother)
          rw [entry_concat_of_ne hne]
      · have hmem : reference.address ∈ rest :=
          (List.mem_cons.mp hlisted).resolve_left (Ne.symm heq)
        rw [if_neg (by simpa [entry] using heq), ih hrest hmem,
          entry_concat_of_ne (Ne.symm heq)]

/-- A reference to a new address goes to the end. -/
theorem note_of_not_mem {references : List AccountMeta} {reference : AccountMeta}
    {listed : List Address} (hnew : reference.address ∉ listed) :
    note (listed.map (entry references)) reference =
      listed.map (entry references) ++ [reference] := by
  induction listed with
  | nil => rfl
  | cons key rest ih =>
      simp only [List.mem_cons, not_or] at hnew
      have hne : (entry references key).address ≠ reference.address := Ne.symm hnew.1
      simp only [List.map_cons, note, if_neg hne, ih hnew.2, List.cons_append]

theorem note_merged (references : List AccountMeta) (reference : AccountMeta) :
    note (merged references) reference = merged (references ++ [reference]) := by
  by_cases hlisted : reference.address ∈ keys references
  · rw [merged, note_of_mem (nodup_keys references) hlisted, merged, keys_concat,
      if_pos hlisted]
  · rw [merged, note_of_not_mem hlisted, merged, keys_concat, if_neg hlisted,
      List.map_append, List.map_singleton, entry_concat_of_not_mem hlisted]
    congr 1
    apply List.map_congr_left
    intro key hkey
    have hne : reference.address ≠ key := fun h => hlisted (h ▸ hkey)
    rw [entry_concat_of_ne hne]

theorem foldl_note (seen references : List AccountMeta) :
    references.foldl note (merged seen) = merged (seen ++ references) := by
  induction references generalizing seen with
  | nil => simp
  | cons reference rest ih =>
      rw [List.foldl_cons, note_merged, ih, List.append_assoc, List.singleton_append]

/-- The roster lists each referenced address once, in the order of first
reference, with all privileges that are asked for. -/
theorem accounts_ofInstructions (payer : Address) (instructions : List Instruction) :
    (ofInstructions payer instructions).accounts = merged (references payer instructions) := by
  have hpayer : merged [.writable payer true] = [.writable payer true] := by
    simp [merged, keys, entry, asks, AccountMeta.writable, List.eraseDups_cons]
  rw [ofInstructions, ← hpayer, foldl_note, references, List.singleton_append]

/-! ## Reading privileges off the instructions -/

theorem mem_keys_references {payer : Address} {instructions : List Instruction} {key : Address} :
    key ∈ keys (references payer instructions) ↔ key = payer ∨ Mentioned instructions key := by
  simp only [keys, references, List.mem_eraseDups, List.map_cons, List.mem_cons, List.map_flatMap,
    List.mem_flatMap, Instruction.references, List.mem_map, Mentioned, AccountMeta.writable,
    AccountMeta.readonly, eq_comm (a := key)]

/-- The payer has every privilege; any other address has those that some account
of the instructions asks for.  Being called asks for none. -/
theorem asks_references {privilege : AccountMeta → Bool} {payer : Address}
    {instructions : List Instruction} {key : Address}
    (hpayer : privilege (.writable payer true) = true)
    (hprogram : ∀ program, privilege (.readonly program false) = false) :
    asks privilege (references payer instructions) key = true ↔
      key = payer ∨ Asked privilege instructions key := by
  rw [asks_eq_true_iff]
  constructor
  · rintro ⟨reference, hreference, hkey, hprivilege⟩
    rcases List.mem_cons.mp hreference with rfl | hreference
    · exact .inl hkey.symm
    · obtain ⟨instruction, hinstruction, hreference⟩ := List.mem_flatMap.mp hreference
      rcases List.mem_cons.mp hreference with rfl | haccount
      · rw [hprogram] at hprivilege
        cases hprivilege
      · exact .inr ⟨instruction, hinstruction, reference, haccount, hkey, hprivilege⟩
  · rintro (rfl | ⟨instruction, hinstruction, account, haccount, hkey, hprivilege⟩)
    · exact ⟨_, List.mem_cons_self, rfl, hpayer⟩
    · have hreference : account ∈ instruction.references := List.mem_cons_of_mem _ haccount
      exact ⟨account, List.mem_cons_of_mem _ (List.mem_flatMap_of_mem hinstruction hreference),
        hkey, hprivilege⟩

/-- An address is listed with the privileges that it is entitled to. -/
theorem entry_references (payer : Address) (instructions : List Instruction) (key : Address) :
    entry (references payer instructions) key =
      ⟨key, Entitled AccountMeta.isSigner payer instructions key,
        Entitled AccountMeta.isWritable payer instructions key⟩ := by
  have hasks {privilege : AccountMeta → Bool} (hpayer : privilege (.writable payer true) = true)
      (hprogram : ∀ program, privilege (.readonly program false) = false) :
      asks privilege (references payer instructions) key =
        decide (Entitled privilege payer instructions key) := by
    rw [Bool.eq_iff_iff, decide_eq_true_eq]
    exact asks_references hpayer hprogram
  rw [entry, hasks rfl fun _ => rfl, hasks rfl fun _ => rfl]

theorem keys_references (payer : Address) (instructions : List Instruction) :
    keys (references payer instructions) = distinctMentions payer instructions := by
  simp only [keys, references, distinctMentions, mentions, List.map_cons, List.map_flatMap,
    Instruction.references, AccountMeta.writable, AccountMeta.readonly]

theorem mem_merged_iff {references : List AccountMeta} {account : AccountMeta} :
    account ∈ merged references ↔
      account.address ∈ keys references ∧
        (account.isSigner = true ↔
          asks AccountMeta.isSigner references account.address = true) ∧
        (account.isWritable = true ↔
          asks AccountMeta.isWritable references account.address = true) := by
  constructor
  · intro hmem
    obtain ⟨key, hkey, rfl⟩ := List.mem_map.mp hmem
    exact ⟨hkey, Iff.rfl, Iff.rfl⟩
  · intro hentry
    obtain ⟨hkey, hsigner, hwritable⟩ := hentry
    rw [← Bool.eq_iff_iff] at hsigner hwritable
    apply List.mem_map.mpr
    refine ⟨account.address, hkey, ?_⟩
    rw [entry, ← hsigner, ← hwritable]

/-- The roster lists the payer and what the instructions mention, each with the
privileges that are asked for. -/
theorem mem_accounts_ofInstructions {payer : Address} {instructions : List Instruction}
    {account : AccountMeta} :
    account ∈ (ofInstructions payer instructions).accounts ↔
      (account.address = payer ∨ Mentioned instructions account.address) ∧
        (account.isSigner = true ↔
          account.address = payer ∨ Asked AccountMeta.isSigner instructions account.address) ∧
        (account.isWritable = true ↔
          account.address = payer ∨
            Asked AccountMeta.isWritable instructions account.address) := by
  rw [accounts_ofInstructions, mem_merged_iff, mem_keys_references,
    asks_references rfl fun _ => rfl, asks_references rfl fun _ => rfl]

end Roster

end MultisigVault
