import MultisigVault.Proofs.Wire.Laws

/-!
# Encodings that end early or go on

A codec notices truncation when it refuses every encoding that is cut short, wherever the
cut is, and for that reason.  A lawful codec that does so is self-delimiting: where its
encodings end is to be seen from them alone.  This passes from the parts of a composite
codec to the whole, since what stands before a cut is read as it was written.
-/

namespace MultisigVault.Wire

open Outcome

/-- A cut through two byte strings that stand one after the other leaves a part of the
first one, or all of it and a part of the second. -/
theorem cut_cases {left right given missing : Bytes} (hcut : left ++ right = given ++ missing) :
    (∃ lost, lost ≠ [] ∧ left = given ++ lost) ∨
      ∃ kept, given = left ++ kept ∧ right = kept ++ missing := by
  obtain ⟨kept, hgiven, hright⟩ | ⟨lost, hleft, hlost⟩ := List.append_eq_append_iff.mp hcut
  · exact .inr ⟨kept, hgiven, hright⟩
  · by_cases hempty : lost = []
    · subst hempty
      exact .inr ⟨[], by simpa using hleft.symm, by simpa using hlost.symm⟩
    · exact .inl ⟨lost, hempty, hleft⟩

theorem length_lt_of_cut {bytes given missing : Bytes} {width : Nat} (hwidth : bytes.length = width)
    (hcut : bytes = given ++ missing) (hmissing : missing ≠ []) : given.length < width := by
  have hpositive := List.length_pos_iff.mpr hmissing
  rw [hcut, List.length_append] at hwidth
  omega

/-- A field is not read from fewer bytes than it is wide. -/
theorem readBytes_of_length_lt {width : Nat} {input : Bytes} (hshort : input.length < width) :
    readBytes width input = .error .endOfInput := by
  rw [readBytes, if_neg]
  rw [List.length_take]
  omega

namespace Codec

variable {Value Left Right : Type}

/-- Of an encoding that is cut short, decoding reports just this. -/
def NoticesTruncation (codec : Codec Value) : Prop :=
  ∀ value given missing, codec.encode value = .ok (given ++ missing) → missing ≠ [] →
    codec.decode given = .error .endOfInput

/-- Whether decoding finds the end of an encoding by itself, and misses it where it has
been cut off. -/
structure SelfDelimiting (codec : Codec Value) : Prop extends codec.Lawful where
  noticesTruncation : codec.NoticesTruncation

/-! ## Single fields -/

theorem noticesTruncation_byte : byte.NoticesTruncation := by
  intro value given missing hencode hmissing
  have hshort := length_lt_of_cut rfl (Except.ok.inj hencode) hmissing
  rw [List.length_singleton, Nat.lt_one_iff, List.length_eq_zero_iff] at hshort
  rw [hshort]
  rfl

theorem noticesTruncation_bool : bool.NoticesTruncation := by
  intro value given missing hencode hmissing
  have hshort := length_lt_of_cut rfl (Except.ok.inj hencode) hmissing
  rw [List.length_singleton, Nat.lt_one_iff, List.length_eq_zero_iff] at hshort
  rw [hshort]
  rfl

theorem noticesTruncation_address : address.NoticesTruncation := by
  intro value given missing hencode hmissing
  have hshort := length_lt_of_cut value.length_bytes (Except.ok.inj hencode) hmissing
  have htake : ¬(given.take 32).length = 32 := by
    rw [List.length_take]
    omega
  rw [address]
  exact dif_neg htake

theorem selfDelimiting_byte : byte.SelfDelimiting :=
  ⟨lawful_byte, noticesTruncation_byte⟩

theorem selfDelimiting_bool : bool.SelfDelimiting :=
  ⟨lawful_bool, noticesTruncation_bool⟩

theorem selfDelimiting_address : address.SelfDelimiting :=
  ⟨lawful_address, noticesTruncation_address⟩

/-! ## Composite values -/

theorem NoticesTruncation.pair {left : Codec Left} {right : Codec Right}
    (hleft : left.NoticesTruncation) (hrecovers : left.Recovers)
    (hright : right.NoticesTruncation) : (left.pair right).NoticesTruncation := by
  intro value given missing hencode hmissing
  obtain ⟨leftBytes, rightBytes, hleftEncode, hrightEncode, hcut⟩ :=
    pair_encode_eq_ok_iff.mp hencode
  simp only [Codec.pair]
  obtain ⟨lost, hlost, rfl⟩ | ⟨kept, rfl, rfl⟩ := cut_cases hcut.symm
  · rw [hleft _ _ _ hleftEncode hlost, error_bind]
  · rw [hrecovers _ _ kept hleftEncode, ok_bind]
    dsimp only
    rw [hright _ _ _ hrightEncode hmissing, error_bind]

theorem SelfDelimiting.pair {left : Codec Left} {right : Codec Right}
    (hleft : left.SelfDelimiting) (hright : right.SelfDelimiting) :
    (left.pair right).SelfDelimiting :=
  ⟨hleft.toLawful.pair hright.toLawful,
    hleft.noticesTruncation.pair hleft.recovers hright.noticesTruncation⟩

theorem NoticesTruncation.via {codec : Codec Left} (hcodec : codec.NoticesTruncation)
    (toValue : Left → Value) (ofValue : Value → Left) :
    (codec.via toValue ofValue).NoticesTruncation := by
  intro value given missing hencode hmissing
  simp only [Codec.via]
  rw [hcodec _ _ _ hencode hmissing, error_bind]

theorem SelfDelimiting.via {codec : Codec Left} (hcodec : codec.SelfDelimiting)
    {toValue : Left → Value} {ofValue : Value → Left}
    (htoValue : ∀ value, toValue (ofValue value) = value)
    (hofValue : ∀ part, ofValue (toValue part) = part) :
    (codec.via toValue ofValue).SelfDelimiting :=
  ⟨hcodec.toLawful.via htoValue hofValue, hcodec.noticesTruncation.via toValue ofValue⟩

/-! ## Counted lists -/

/-- The values before the cut are read, and the one that is cut is not. -/
theorem readMany_truncated {element : Codec Value} (hrecovers : element.Recovers)
    (helement : element.NoticesTruncation) {elements : List Value} {fields : List Bytes}
    (hfields : List.Forall₂ (fun value field => element.encode value = .ok field) elements fields)
    (seen : List Value) {given missing : Bytes} (hcut : fields.flatten = given ++ missing)
    (hmissing : missing ≠ []) :
    readMany element.decode elements.length seen given = .error .endOfInput := by
  induction hfields generalizing seen given with
  | nil =>
      rw [List.flatten_nil, List.nil_eq, List.append_eq_nil_iff] at hcut
      exact absurd hcut.2 hmissing
  | @cons value field elements fields hfield _ ih =>
      rw [List.flatten_cons] at hcut
      rw [List.length_cons, readMany]
      obtain ⟨lost, hlost, rfl⟩ | ⟨kept, rfl, hkept⟩ := cut_cases hcut
      · rw [helement _ _ _ hfield hlost]
      · rw [hrecovers _ _ kept hfield]
        exact ih (value :: seen) hkept

theorem NoticesTruncation.counted {element : Codec Value}
    (helement : element.NoticesTruncation) (hrecovers : element.Recovers) (width : Nat) :
    (Codec.counted width element).NoticesTruncation := by
  intro elements given missing hencode hmissing
  obtain ⟨hlength, fields, hfields, hcut⟩ := counted_encode_eq_ok_iff.mp hencode
  have hwidth := Bytes.length_littleEndian width elements.length
  simp only [Codec.counted]
  obtain ⟨lost, hlost, hcount⟩ | ⟨kept, rfl, hkept⟩ := cut_cases hcut.symm
  · rw [readBytes_of_length_lt (length_lt_of_cut hwidth hcount hlost), error_bind]
  · rw [readBytes_append _ kept hwidth, ok_bind]
    dsimp only
    rw [Bytes.ofLittleEndian_littleEndian width elements.length
      (lt_capacity_of_le_countLimit hlength)]
    exact readMany_truncated hrecovers helement hfields [] hkept hmissing

theorem SelfDelimiting.counted {element : Codec Value} (helement : element.SelfDelimiting)
    (width : Nat) : (Codec.counted width element).SelfDelimiting :=
  ⟨helement.toLawful.counted width,
    helement.noticesTruncation.counted helement.recovers width⟩

/-! ## Whole inputs -/

theorem SelfDelimiting.decodeAll_of_cut {codec : Codec Value} (hcodec : codec.SelfDelimiting)
    {value : Value} {given missing : Bytes} (hencode : codec.encode value = .ok (given ++ missing))
    (hmissing : missing ≠ []) : codec.decodeAll given = .error .endOfInput := by
  rw [decodeAll, hcodec.noticesTruncation _ _ _ hencode hmissing, error_bind]

/-- Whatever follows a complete encoding is left over. -/
theorem SelfDelimiting.decodeAll_append {codec : Codec Value} (hcodec : codec.SelfDelimiting)
    {value : Value} {bytes appended : Bytes} (hencode : codec.encode value = .ok bytes)
    (happended : appended ≠ []) : codec.decodeAll (bytes ++ appended) = .error .leftover := by
  rw [decodeAll, hcodec.recovers _ _ appended hencode, ok_bind]
  exact if_neg (by simpa using happended)

end Codec

end MultisigVault.Wire
