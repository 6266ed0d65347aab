import MultisigVault.Proofs.Compilation.Identity
import MultisigVault.Proofs.Message.Form

/-!
# Compiled messages are well formed

The stored sizes of a compiled message are those of the blocks of its static keys.
No address is repeated, and every index of its instructions names an address of
the combined list, so the form check accepts the message.
-/

namespace MultisigVault

/-! ## The stored sizes -/

/-- Whether the sizes that a message stores are those of the blocks of a roster
whose layout its static keys are. -/
structure Roster.CountsBlocks (rest : Roster) (message : Message) : Prop where
  staticKeys : message.staticKeys = rest.staticKeys
  signers : message.signers.toNat = rest.signers.length
  writableSigners : message.writableSigners.toNat = (rest.block true true).length
  writableNonSigners : message.writableNonSigners.toNat = (rest.block false true).length

/-- None of the stored sizes is cut off. -/
theorem Roster.WellFormed.countsBlocks {roster : Roster} (hroster : roster.WellFormed)
    (hkeys : roster.length ≤ 256) (hcount : roster.signers.length < 256)
    (instructions : List Instruction) (tables : List LookupTable) :
    (roster.withoutAll tables).CountsBlocks (roster.message instructions tables) := by
  have hsigners := roster.length_signers
  have hwritable : (roster.block true true).length < 256 := by omega
  have hsmall : (roster.withoutAll tables).length ≤ 256 := by
    have hall := roster.length_staticKeys_add_loaded tables
    rw [length_staticKeys] at hall
    omega
  have hothers := length_nonSigners_lt (hroster.withoutAll tables) hsmall true
  exact
    { staticKeys := rfl
      signers := by
        rw [signers_withoutAll]
        exact UInt8.toNat_ofNat_of_lt' hcount
      writableSigners := by
        rw [block_withoutAll_signer]
        exact UInt8.toNat_ofNat_of_lt' hwritable
      writableNonSigners := UInt8.toNat_ofNat_of_lt' hothers }

/-! ## Privileges by place -/

theorem getElem?_append_cases {first second : List Address} {index : Nat} {key : Address}
    (hkey : (first ++ second)[index]? = some key) :
    index < first.length ∧ first[index]? = some key ∨ first.length ≤ index ∧ key ∈ second := by
  rw [List.getElem?_append] at hkey
  split at hkey
  · next hlt => exact .inl ⟨hlt, hkey⟩
  · next hge => exact .inr ⟨Nat.le_of_not_lt hge, List.mem_of_getElem? hkey⟩

namespace Roster.CountsBlocks

variable {rest : Roster} {message : Message} (hblocks : rest.CountsBlocks message)
  {index : Nat}

include hblocks

theorem isSignerIndex_iff : message.isSignerIndex index = true ↔ index < rest.signers.length := by
  rw [Message.isSignerIndex, decide_eq_true_eq, hblocks.signers]

theorem isWritableIndex_iff (hlt : index < message.staticKeys.length) :
    message.isWritableIndex index = true ↔
      index < (rest.block true true).length ∨ rest.signers.length ≤ index ∧
        index < rest.signers.length + (rest.block false true).length := by
  simp only [Message.isWritableIndex, hblocks.signers, hblocks.writableSigners,
    hblocks.writableNonSigners, Bool.and_eq_true, Bool.or_eq_true, decide_eq_true_eq]
  omega

/-- The place of a static key tells the privileges of its account. -/
theorem mem_accounts {key : Address} (hkey : message.staticKeys[index]? = some key) :
    ⟨key, message.isSignerIndex index, message.isWritableIndex index⟩ ∈ rest.accounts := by
  have hlt : index < message.staticKeys.length := (List.getElem?_eq_some_iff.mp hkey).1
  have hlength := rest.length_signers
  have hplaced {isSigner isWritable : Bool} (hmem : key ∈ rest.block isSigner isWritable)
      (hsigns : index < rest.signers.length ↔ isSigner = true)
      (hwrites : (index < (rest.block true true).length ∨ rest.signers.length ≤ index ∧
        index < rest.signers.length + (rest.block false true).length) ↔ isWritable = true) :
      ⟨key, message.isSignerIndex index, message.isWritableIndex index⟩ ∈ rest.accounts := by
    have hsigner := hblocks.isSignerIndex_iff.trans hsigns
    have hwritable := (hblocks.isWritableIndex_iff hlt).trans hwrites
    rw [Bool.eq_iff_iff.mpr hsigner, Bool.eq_iff_iff.mpr hwritable]
    exact mem_block_iff.mp hmem
  rw [hblocks.staticKeys, Roster.staticKeys] at hkey
  -- One case for each block that the place may lie in, from the last to the first.
  rcases getElem?_append_cases hkey with ⟨hwithin, hkey⟩ | ⟨hafter, hmem⟩
  · rw [List.length_append, List.length_append] at hwithin
    rcases getElem?_append_cases hkey with ⟨hbefore, hkey⟩ | ⟨hafter, hmem⟩
    · rw [List.length_append] at hbefore
      rcases getElem?_append_cases hkey with ⟨hfirst, hkey⟩ | ⟨hafter, hmem⟩
      · exact hplaced (List.mem_of_getElem? hkey) (iff_of_true (by omega) rfl)
          (iff_of_true (by omega) rfl)
      · exact hplaced hmem (iff_of_true (by omega) rfl)
          (iff_of_false (by omega) Bool.false_ne_true)
    · rw [List.length_append] at hafter
      exact hplaced hmem (iff_of_false (by omega) Bool.false_ne_true)
        (iff_of_true (by omega) rfl)
  · rw [List.length_append, List.length_append] at hafter
    exact hplaced hmem (iff_of_false (by omega) Bool.false_ne_true)
      (iff_of_false (by omega) Bool.false_ne_true)

end Roster.CountsBlocks

/-! ## The form check -/

/-- The positions of an instruction are below the length of the combined list. -/
theorem CompiledInstruction.isWithin_renumber {keys : List Address} (hcapacity : keys.length ≤ 256)
    {instruction : Instruction} (hprogram : instruction.program ∈ keys)
    (haccounts : ∀ account ∈ instruction.accounts, account.address ∈ keys) :
    (renumber keys instruction).isWithin keys.length = true := by
  have hposition (key : Address) (hkey : key ∈ keys) :
      (position keys key).toNat < keys.length := by
    rw [toNat_position hcapacity hkey]
    exact List.idxOf_lt_length_of_mem hkey
  apply isWithin_iff.mpr
  refine ⟨hposition _ hprogram, ?_⟩
  intro index hindex
  obtain ⟨account, haccount, rfl⟩ := List.mem_map.mp hindex
  exact hposition _ (haccounts account haccount)

namespace Message

variable {vault : Address} {instructions : List Instruction} {tables : List LookupTable}
  {message : Message}

theorem countsBlocks_of_compile (hcompile : compile vault instructions tables = .ok message) :
    ((Roster.ofInstructions vault instructions).withoutAll tables).CountsBlocks message := by
  obtain ⟨-, ⟨hcapacity, hcount⟩, rfl⟩ := compile_eq_ok_iff.mp hcompile
  have hroster := Roster.wellFormed_ofInstructions vault instructions
  exact hroster.countsBlocks hcapacity hcount instructions tables

/-- The vault comes first. -/
theorem head?_staticKeys_of_compile
    (hcompile : compile vault instructions tables = .ok message) :
    message.staticKeys.head? = some vault := by
  have hroster := Roster.wellFormed_ofInstructions vault instructions
  have hvault := hroster.head?_block
  rw [(countsBlocks_of_compile hcompile).staticKeys, Roster.staticKeys,
    Roster.block_withoutAll_signer, List.append_assoc, List.append_assoc, List.head?_append, hvault,
    Option.some_or, Roster.ofInstructions]

theorem wellFormed_of_compile (hcompile : compile vault instructions tables = .ok message) :
    message.WellFormed := by
  have hblocks := countsBlocks_of_compile hcompile
  have hroster := Roster.wellFormed_ofInstructions vault instructions
  have hrest := hroster.withoutAll tables
  have hsigners := ((Roster.ofInstructions vault instructions).withoutAll tables).length_signers
  have hlength := ((Roster.ofInstructions vault instructions).withoutAll tables).length_eq_blocks
  have hcapacity := length_combined_of_compile hcompile
  obtain ⟨-, -, hmessage⟩ := compile_eq_ok_iff.mp hcompile
  have hcount : message.keyCount =
      ((Roster.ofInstructions vault instructions).combined tables).length := by
    rw [hmessage, Roster.keyCount_message, Roster.length_combined]
  exact
    { writableSigners_le := by
        rw [hblocks.writableSigners, hblocks.signers]
        omega
      counts_le := by
        rw [hblocks.signers, hblocks.writableNonSigners, hblocks.staticKeys,
          Roster.length_staticKeys]
        omega
      nodup := by
        rw [hblocks.staticKeys]
        exact hrest.nodup_staticKeys
      keyCount_le := hcount ▸ hcapacity
      within := by
        intro compiled hcompiled
        rw [hmessage] at hcompiled
        obtain ⟨instruction, hinstruction, rfl⟩ := List.mem_map.mp hcompiled
        rw [hcount]
        exact CompiledInstruction.isWithin_renumber hcapacity
          (program_mem_combined hinstruction) (account_mem_combined hinstruction) }

/-- The form check accepts every compiled message. -/
theorem checkForm_of_compile (hcompile : compile vault instructions tables = .ok message) :
    message.checkForm = .ok () :=
  checkForm_eq_ok_iff.mpr (wellFormed_of_compile hcompile)

end Message

end MultisigVault
