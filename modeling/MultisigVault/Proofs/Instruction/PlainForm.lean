import MultisigVault.Instruction
import MultisigVault.Proofs.Wire.Refusal
import MultisigVault.Proofs.Wire.Truncation

/-!
# The plain form of an instruction

Every instruction whose lists fit their counts has one plain form, and no other bytes are
read as this instruction.  What is not the plain form of any instruction is refused, be it
for bytes that are missing or left over, or for a flag that is no truth value.
-/

namespace MultisigVault

open Wire Outcome

/-! ## Accounts of an instruction -/

namespace AccountMeta

/-- The bytes of an account: its address, and one byte for each of its flags. -/
def written (account : AccountMeta) : Bytes :=
  account.address.bytes ++
    [if account.isSigner then 1 else 0, if account.isWritable then 1 else 0]

/-- The bytes of an account that stand before one of its flags. -/
inductive BeforeFlag (address : Address) : Bytes → Prop
  | signer : BeforeFlag address address.bytes
  | writable (isSigner : Bool) :
      BeforeFlag address (address.bytes ++ [if isSigner then 1 else 0])

theorem selfDelimiting_codec : codec.SelfDelimiting :=
  (Codec.selfDelimiting_address.pair
    (Codec.selfDelimiting_bool.pair Codec.selfDelimiting_bool)).via (fun _ => rfl) (fun _ => rfl)

theorem encode_codec (account : AccountMeta) : codec.encode account = .ok account.written := rfl

@[simp]
theorem encodes_codec (account : AccountMeta) : codec.Encodes account :=
  ⟨_, account.encode_codec⟩

theorem refuses_codec {address : Address} {start : Bytes} (hstart : BeforeFlag address start)
    {flag : Byte} (hzero : flag ≠ 0) (hone : flag ≠ 1) :
    codec.Refuses (start ++ [flag]) (.invalidBool flag) := by
  have hflag := Codec.refuses_bool hzero hone
  apply Codec.Refuses.via
  cases hstart with
  | signer => exact .pair_right Codec.lawful_address.recovers rfl (hflag.pair_left _)
  | writable isSigner =>
      have hsigner : Codec.bool.encode isSigner = .ok [if isSigner then 1 else 0] := rfl
      rw [List.append_assoc]
      exact .pair_right Codec.lawful_address.recovers rfl
        (.pair_right Codec.lawful_bool.recovers hsigner hflag)

end AccountMeta

/-! ## Whole instructions -/

namespace Instruction

/-- Whether both lists of an instruction are short enough for four-byte counts. -/
def FitsCounts (instruction : Instruction) : Prop :=
  instruction.accounts.length < 4294967296 ∧ instruction.data.length < 4294967296

/-- The bytes of an instruction: its program, then each of its lists behind its length. -/
def written (instruction : Instruction) : Bytes :=
  instruction.program.bytes ++
    Bytes.littleEndian 4 instruction.accounts.length ++
      instruction.accounts.flatMap AccountMeta.written ++
    Bytes.littleEndian 4 instruction.data.length ++ instruction.data

theorem selfDelimiting_codec : codec.SelfDelimiting :=
  (Codec.selfDelimiting_address.pair ((AccountMeta.selfDelimiting_codec.counted _).pair
    (Codec.selfDelimiting_byte.counted _))).via (fun _ => rfl) (fun _ => rfl)

theorem encodes_iff {instruction : Instruction} :
    codec.Encodes instruction ↔ instruction.FitsCounts := by
  have hlimit : countLimit 4 = 4294967296 - 1 := rfl
  simp only [codec, Codec.encodes_via, Codec.encodes_pair, Codec.encodes_address,
    Codec.encodes_counted, Codec.encodes_byte, AccountMeta.encodes_codec, implies_true, and_true,
    true_and, FitsCounts, hlimit]
  omega

theorem writes_codec : codec.Writes written := by
  intro instruction bytes hencode
  have haccount : AccountMeta.codec.Writes AccountMeta.written :=
    fun account _ hencode => (Except.ok.inj (account.encode_codec.symm.trans hencode)).symm
  have hwrites := (Codec.writes_address.pair ((haccount.counted _).pair
    (Codec.writes_byte.counted _))).via _ _ _ _ hencode
  simpa [written] using hwrites

/-- Instructions whose lists fit are written, and others are not. -/
theorem encode_eq_ok_iff {instruction : Instruction} {bytes : Bytes} :
    codec.encode instruction = .ok bytes ↔
      instruction.FitsCounts ∧ bytes = instruction.written := by
  constructor
  · intro hencode
    exact ⟨encodes_iff.mp ⟨bytes, hencode⟩, writes_codec _ _ hencode⟩
  · rintro ⟨hfits, rfl⟩
    obtain ⟨bytes, hencode⟩ := encodes_iff.mpr hfits
    rw [← writes_codec _ _ hencode, hencode]

theorem decodeAll_invalidBool (program : Address) {accounts : List AccountMeta} {count : Nat}
    (hcount : accounts.length < count) (hfits : count < 4294967296) {address : Address}
    {start : Bytes} (hstart : AccountMeta.BeforeFlag address start) {flag : Byte}
    (hzero : flag ≠ 0) (hone : flag ≠ 1) (rest : Bytes) :
    codec.decodeAll (program.bytes ++ (Bytes.littleEndian 4 count ++
      accounts.flatMap AccountMeta.written ++ (start ++ [flag])) ++ rest) =
        .error (.invalidBool flag) := by
  have hcapacity : count < Bytes.capacity 4 := hfits
  have haccounts := Codec.Refuses.counted AccountMeta.selfDelimiting_codec.recovers
    (fun account (_ : account ∈ accounts) => account.encode_codec)
    (AccountMeta.refuses_codec hstart hzero hone) hcount hcapacity
  exact Codec.Refuses.decodeAll (.via (.pair_right Codec.lawful_address.recovers rfl
    (haccounts.pair_left _)) _ _) rest

/-- Instructions correspond one to one with the byte strings that are read as one.  Such a
byte string is the program, the accounts and the data, with the lists behind their lengths.
Bytes that are missing at its end or follow it are noticed, and so is a flag of an account
that is neither zero nor one, whatever comes after. -/
theorem plain_form_canonical :
    (∀ (input : Bytes) (instruction : Instruction),
      codec.decodeAll input = .ok instruction ↔ codec.encode instruction = .ok input) ∧
    (∀ (instruction : Instruction) (bytes : Bytes),
      codec.encode instruction = .ok bytes ↔
        instruction.FitsCounts ∧ bytes = instruction.written) ∧
    (∀ (instruction : Instruction) (given missing : Bytes), instruction.FitsCounts →
      instruction.written = given ++ missing → missing ≠ [] →
        codec.decodeAll given = .error .endOfInput) ∧
    (∀ (instruction : Instruction) (appended : Bytes), instruction.FitsCounts →
      appended ≠ [] → codec.decodeAll (instruction.written ++ appended) = .error .leftover) ∧
    ∀ (program : Address) (accounts : List AccountMeta) (count : Nat) (address : Address)
      (start : Bytes) (flag : Byte) (rest : Bytes), accounts.length < count → count < 4294967296 →
        AccountMeta.BeforeFlag address start → flag ≠ 0 → flag ≠ 1 →
          codec.decodeAll (program.bytes ++ (Bytes.littleEndian 4 count ++
            accounts.flatMap AccountMeta.written ++ (start ++ [flag])) ++ rest) =
              .error (.invalidBool flag) := by
  refine ⟨fun _ _ => selfDelimiting_codec.decodeAll_eq_ok_iff, fun _ _ => encode_eq_ok_iff, ?_,
    ?_, ?_⟩
  · intro instruction given missing hfits hcut hmissing
    exact selfDelimiting_codec.decodeAll_of_cut (encode_eq_ok_iff.mpr ⟨hfits, hcut.symm⟩) hmissing
  · intro instruction appended hfits happended
    exact selfDelimiting_codec.decodeAll_append (encode_eq_ok_iff.mpr ⟨hfits, rfl⟩) happended
  · intro program accounts count address start flag rest hcount hfits hstart hzero hone
    exact decodeAll_invalidBool program hcount hfits hstart hzero hone rest

/-- One byte less, one byte more, and the last flag of the second account out of range. -/
theorem plain_form_canonical_last_flag :
    let instruction : Instruction :=
      ⟨.uniform 2, [.writable (.uniform 3) true, .readonly (.uniform 4) true], [7, 9]⟩
    let bytes (flag : Byte) : Bytes :=
      List.replicate 32 2 ++ ([2, 0, 0, 0] ++ (List.replicate 32 3 ++ [1, 1]) ++
        (List.replicate 32 4 ++ [1] ++ [flag])) ++ [2, 0, 0, 0, 7, 9]
    codec.encode instruction = .ok (bytes 0) ∧ codec.decodeAll (bytes 0) = .ok instruction ∧
      codec.decodeAll (bytes 0).dropLast = .error .endOfInput ∧
      codec.decodeAll (bytes 0 ++ [9]) = .error .leftover ∧
      codec.decodeAll (bytes 2) = .error (.invalidBool 2) := by
  intro instruction bytes
  obtain ⟨hread, hwrite, hcut, happended, hflag⟩ := plain_form_canonical
  have hfits : instruction.FitsCounts := ⟨by decide, by decide⟩
  have hbytes : bytes 0 = instruction.written := by decide
  have hencode : codec.encode instruction = .ok (bytes 0) := (hwrite _ _).mpr ⟨hfits, hbytes⟩
  refine ⟨hencode, (hread _ _).mpr hencode, ?_, ?_, ?_⟩
  · exact hcut instruction (bytes 0).dropLast [9] hfits (by decide) (by decide)
  · rw [hbytes]
    exact happended instruction [9] hfits (by decide)
  · have hflagged := hflag (.uniform 2) [.writable (.uniform 3) true] 2 (.uniform 4) _ 2
      [2, 0, 0, 0, 7, 9] (by decide) (by decide) (.writable true) (by decide) (by decide)
    exact hflagged

end Instruction

end MultisigVault
