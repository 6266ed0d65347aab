import MultisigVault.Proofs.Roster.Extraction
import MultisigVault.Proofs.Roster.References

/-!
# Well-formed rosters and their layout

A well-formed roster starts with the payer as a writable signer and lists no
address twice.  The roster of any instructions is well formed and stays so while
tables take accounts over.  Laying out a well-formed roster fails only if it has
more keys or signers than a message can count.
-/

namespace MultisigVault

open Outcome
open scoped List

namespace Roster

/-- What every roster has in common, whatever was taken out of it. -/
structure WellFormed (roster : Roster) : Prop where
  payer_first : ∃ others, roster.accounts = .writable roster.payer true :: others
  nodup : roster.addresses.Nodup

theorem addresses_ofInstructions (payer : Address) (instructions : List Instruction) :
    (ofInstructions payer instructions).addresses = keys (references payer instructions) := by
  rw [addresses, accounts_ofInstructions, merged, List.map_map]
  exact List.map_id _

theorem wellFormed_ofInstructions (payer : Address) (instructions : List Instruction) :
    (ofInstructions payer instructions).WellFormed where
  payer_first := by
    have hpayer : entry (references payer instructions) payer = .writable payer true := by
      simp [entry, references, asks, AccountMeta.writable]
    rw [accounts_ofInstructions, merged]
    refine ⟨((instructions.flatMap Instruction.references).map AccountMeta.address |>.filter
      fun key => !key == payer).eraseDups.map (entry (references payer instructions)), ?_⟩
    change _ = AccountMeta.writable payer true :: _
    rw [← hpayer, ← List.map_cons, keys]
    conv_lhs => rw [references, List.map_cons, List.eraseDups_cons]
    rfl
  nodup := by
    rw [addresses_ofInstructions]
    exact nodup_keys _

/-- A step of the extraction keeps the roster well formed. -/
theorem WellFormed.without {roster : Roster} (hroster : roster.WellFormed)
    (table : LookupTable) : (roster.without table).WellFormed where
  payer_first := by
    obtain ⟨others, hothers⟩ := hroster.payer_first
    refine ⟨others.filter fun account => account.isSigner || account.address ∉ table.addresses, ?_⟩
    simp [Roster.without, hothers, AccountMeta.writable]
  nodup := hroster.nodup.sublist (addresses_without_sublist roster table)

/-- The whole extraction keeps the roster well formed. -/
theorem WellFormed.withoutAll {roster : Roster} (hroster : roster.WellFormed)
    (tables : List LookupTable) : (roster.withoutAll tables).WellFormed := by
  induction tables generalizing roster with
  | nil => exact hroster
  | cons table rest ih => exact ih (hroster.without table)

/-! ## The four blocks -/

/-- The addresses of the accounts that sign, in roster order. -/
def signers (roster : Roster) : List Address :=
  (roster.accounts.filter AccountMeta.isSigner).map AccountMeta.address

theorem block_append_perm (roster : Roster) (isSigner : Bool) :
    roster.block isSigner true ++ roster.block isSigner false ~
      (roster.accounts.filter fun account => account.isSigner == isSigner).map
        AccountMeta.address := by
  have hsplit := (List.filter_append_perm AccountMeta.isWritable
    (roster.accounts.filter fun account => account.isSigner == isSigner)).map AccountMeta.address
  simp only [List.filter_filter] at hsplit
  simpa [block, Bool.and_comm] using hsplit

theorem length_signers (roster : Roster) :
    roster.signers.length = (roster.block true true).length + (roster.block true false).length := by
  have hlength := (roster.block_append_perm true).length_eq
  simpa [signers] using hlength.symm

/-- The four blocks list every account once. -/
theorem staticKeys_perm (roster : Roster) : roster.staticKeys ~ roster.addresses := by
  have hsigners := roster.block_append_perm true
  have hothers := roster.block_append_perm false
  have hall := (List.filter_append_perm AccountMeta.isSigner roster.accounts).map
    AccountMeta.address
  rw [List.map_append] at hall
  calc
    roster.staticKeys = (roster.block true true ++ roster.block true false) ++
        (roster.block false true ++ roster.block false false) := by
      simp only [staticKeys, List.append_assoc]
    _ ~ _ := hsigners.append hothers
    _ ~ roster.addresses := by simpa [addresses] using hall

theorem mem_signers_iff {roster : Roster} {key : Address} :
    key ∈ roster.signers ↔ key ∈ roster.block true true ∨ key ∈ roster.block true false := by
  have hperm := roster.block_append_perm true
  rw [← List.mem_append, hperm.mem_iff, signers]
  simp only [beq_true]

/-- What the tables leave are the signers and the addresses that no table holds. -/
theorem mem_staticKeys_withoutAll {roster : Roster} {tables : List LookupTable} {key : Address} :
    key ∈ (roster.withoutAll tables).staticKeys ↔
      key ∈ roster.signers ∨ key ∈ roster.nonSigners ∧ LookupTable.NoneHolds tables key := by
  simp only [staticKeys, block_withoutAll_signer, block_withoutAll_nonSigner, List.mem_append,
    List.mem_filter, decide_eq_true_eq, mem_signers_iff, mem_nonSigners_iff, or_and_right,
    or_assoc]

/-- The privileges of an address decide which block it is in. -/
theorem mem_block_ofInstructions {payer : Address} {instructions : List Instruction}
    {isSigner isWritable : Bool} {key : Address} :
    key ∈ (ofInstructions payer instructions).block isSigner isWritable ↔
      (key = payer ∨ Mentioned instructions key) ∧
        (isSigner = true ↔ key = payer ∨ Asked AccountMeta.isSigner instructions key) ∧
        (isWritable = true ↔ key = payer ∨ Asked AccountMeta.isWritable instructions key) := by
  rw [mem_block_iff, mem_accounts_ofInstructions]

theorem mem_signers_ofInstructions {payer : Address} {instructions : List Instruction}
    {key : Address} :
    key ∈ (ofInstructions payer instructions).signers ↔
      key = payer ∨ Asked AccountMeta.isSigner instructions key := by
  have hmentioned : Asked AccountMeta.isSigner instructions key → Mentioned instructions key :=
    Asked.mentioned
  rw [mem_signers_iff, mem_block_ofInstructions, mem_block_ofInstructions]
  tauto

theorem mem_nonSigners_ofInstructions {payer : Address} {instructions : List Instruction}
    {key : Address} :
    key ∈ (ofInstructions payer instructions).nonSigners ↔
      Mentioned instructions key ∧
        ¬(key = payer ∨ Asked AccountMeta.isSigner instructions key) := by
  rw [mem_nonSigners_iff, mem_block_ofInstructions, mem_block_ofInstructions]
  tauto

/-- No address is in two blocks, or twice in one. -/
theorem WellFormed.nodup_staticKeys {roster : Roster} (hroster : roster.WellFormed) :
    roster.staticKeys.Nodup :=
  roster.staticKeys_perm.nodup_iff.mpr hroster.nodup

theorem length_eq_blocks (roster : Roster) :
    roster.length = roster.signers.length + (roster.block false true).length +
      (roster.block false false).length := by
  have hlength := roster.staticKeys_perm.length_eq
  simp only [staticKeys, List.length_append, addresses, List.length_map] at hlength
  rw [length, length_signers, ← hlength]

/-- The payer opens the block of writable signers. -/
theorem WellFormed.head?_block {roster : Roster} (hroster : roster.WellFormed) :
    (roster.block true true).head? = some roster.payer := by
  obtain ⟨others, hothers⟩ := hroster.payer_first
  simp [block, hothers, AccountMeta.writable]

/-- The payer is in none of the blocks of addresses that do not sign. -/
theorem length_nonSigners_lt {roster : Roster} (hroster : roster.WellFormed)
    (hkeys : roster.length ≤ 256) (isWritable : Bool) :
    (roster.block false isWritable).length < 256 := by
  have hpositive : 0 < (roster.block true true).length :=
    List.length_pos_of_mem (List.mem_of_head? hroster.head?_block)
  have hsigners := roster.length_signers
  have hlength := roster.length_eq_blocks
  cases isWritable <;> omega

/-! ## The blocks of some instructions -/

/-- Choosing accounts by their privileges chooses among the distinct addresses. -/
theorem map_address_filter_accounts (payer : Address) (instructions : List Instruction)
    (select : AccountMeta → Bool) :
    ((ofInstructions payer instructions).accounts.filter select).map AccountMeta.address =
      (distinctMentions payer instructions).filter fun key =>
        select ⟨key, Entitled AccountMeta.isSigner payer instructions key,
          Entitled AccountMeta.isWritable payer instructions key⟩ := by
  simp only [← entry_references]
  rw [accounts_ofInstructions, merged, List.filter_map, List.map_map, keys_references]
  exact List.map_id _

theorem length_ofInstructions (payer : Address) (instructions : List Instruction) :
    (ofInstructions payer instructions).length = (distinctMentions payer instructions).length := by
  rw [length, accounts_ofInstructions, merged, List.length_map, keys_references]

theorem signers_ofInstructions (payer : Address) (instructions : List Instruction) :
    (ofInstructions payer instructions).signers =
      (distinctMentions payer instructions).filter fun key =>
        Entitled AccountMeta.isSigner payer instructions key :=
  map_address_filter_accounts payer instructions AccountMeta.isSigner

/-- A block lists the addresses of its privileges in the order of first reference. -/
theorem block_ofInstructions (payer : Address) (instructions : List Instruction)
    (isSigner isWritable : Bool) :
    (ofInstructions payer instructions).block isSigner isWritable =
      privilegeClass payer instructions isSigner isWritable
        (distinctMentions payer instructions) :=
  map_address_filter_accounts payer instructions fun account =>
    account.isSigner == isSigner && account.isWritable == isWritable

/-! ## The layout -/

/-- The block sizes of a roster that is small enough. -/
def header (roster : Roster) : Header where
  signers := UInt8.ofNat roster.signers.length
  readonlySigners := UInt8.ofNat (roster.block true false).length
  readonlyNonSigners := UInt8.ofNat (roster.block false false).length

/-- Laying out a well-formed roster fails only on too many keys or too many signers. -/
theorem layout_eq {roster : Roster} (hroster : roster.WellFormed) :
    roster.layout =
      if roster.length ≤ 256 ∧ roster.signers.length < 256 then
        .ok (roster.header, roster.staticKeys)
      else .error .tooManyKeys := by
  have hhead := hroster.head?_block
  have hsigners := roster.length_signers
  simp only [layout, hhead, Message.capacity, ← hsigners, ne_eq, not_true_eq_false, if_false]
  by_cases hkeys : roster.length ≤ 256
  · rw [if_neg (Nat.not_lt.mpr hkeys)]
    by_cases hcount : roster.signers.length < 256
    · have hreadonly : (roster.block true false).length < 256 := by omega
      have hothers := length_nonSigners_lt hroster hkeys false
      simp only [byteSize, hkeys, hcount, hreadonly, hothers, and_self, if_true, pure_eq_ok,
        ok_bind, header]
    · simp only [byteSize, hcount, and_false, if_false, error_bind, pure_eq_ok]
  · rw [if_pos (Nat.not_le.mp hkeys)]
    simp only [hkeys, false_and, if_false, throw_eq_error, error_bind]

/-- Laying out a well-formed roster fails on its size or not at all. -/
theorem layout_eq_error_iff {roster : Roster} (hroster : roster.WellFormed)
    {cause : CompileError} :
    roster.layout = .error cause ↔
      cause = .tooManyKeys ∧ (256 < roster.length ∨ 255 < roster.signers.length) := by
  rw [layout_eq hroster]
  by_cases hfits : roster.length ≤ 256 ∧ roster.signers.length < 256
  · have hsmall : ¬(256 < roster.length ∨ 255 < roster.signers.length) := by omega
    simp [hfits, hsmall]
  · have hlarge : 256 < roster.length ∨ 255 < roster.signers.length := by omega
    simp [hfits, hlarge, eq_comm]

theorem length_staticKeys (roster : Roster) : roster.staticKeys.length = roster.length := by
  rw [roster.staticKeys_perm.length_eq, addresses, List.length_map, length]

/-- The sizes of the two blocks of writable keys follow from those in the header. -/
theorem header_sizes {roster : Roster} (hroster : roster.WellFormed) (hkeys : roster.length ≤ 256)
    (hcount : roster.signers.length < 256) :
    roster.header.signers.toNat - roster.header.readonlySigners.toNat =
        (roster.block true true).length ∧
      roster.staticKeys.length - roster.header.signers.toNat -
        roster.header.readonlyNonSigners.toNat = (roster.block false true).length := by
  have hsigners := roster.length_signers
  have hlength := roster.length_eq_blocks
  have hothers := length_nonSigners_lt hroster hkeys false
  have hreadonly : (roster.block true false).length < 256 := by omega
  constructor
  · rw [header, UInt8.toNat_ofNat_of_lt' hcount, UInt8.toNat_ofNat_of_lt' hreadonly, hsigners,
      Nat.add_sub_cancel]
  · rw [length_staticKeys, header, UInt8.toNat_ofNat_of_lt' hcount,
      UInt8.toNat_ofNat_of_lt' hothers]
    omega

end Roster

end MultisigVault
