import MultisigVault.Proofs.Outcome
import MultisigVault.Wire.Codec

/-!
# Laws of wire codecs

A codec recovers its values when decoding undoes encoding and leaves whatever
follows untouched.  It is canonical when decoding accepts only bytes that
encoding reproduces.  Both laws pass from the parts of a composite codec to the
whole, so that every wire form built from lawful parts is a bijection between
encodable values and accepted bytes.
-/

namespace MultisigVault

theorem Bytes.capacity_pos (width : Nat) : 0 < Bytes.capacity width := by
  induction width with
  | zero => decide
  | succ width ih =>
      simp only [Bytes.capacity]
      omega

namespace Wire

open Outcome

/-! ## Reading -/

/-- A field of known width comes off the front of the input. -/
theorem readBytes_append {width : Nat} (field rest : Bytes) (hwidth : field.length = width) :
    readBytes width (field ++ rest) = .ok (field, rest) := by
  subst hwidth
  simp [readBytes]

theorem readBytes_eq_ok_iff {width : Nat} {input field rest : Bytes} :
    readBytes width input = .ok (field, rest) ↔
      field.length = width ∧ input = field ++ rest := by
  constructor
  · intro hread
    simp only [readBytes] at hread
    split at hread
    · next hwidth =>
        cases hread
        exact ⟨hwidth, (List.take_append_drop width input).symm⟩
    · cases hread
  · rintro ⟨hwidth, rfl⟩
    exact readBytes_append field rest hwidth

theorem lt_capacity_of_le_countLimit {width count : Nat} (hcount : count ≤ countLimit width) :
    count < Bytes.capacity width := by
  have hpos := Bytes.capacity_pos width
  simp only [countLimit] at hcount
  omega

namespace Codec

variable {Value Left Right : Type}

/-- Decoding undoes encoding, whatever bytes follow. -/
def Recovers (codec : Codec Value) : Prop :=
  ∀ value bytes rest, codec.encode value = .ok bytes →
    codec.decode (bytes ++ rest) = .ok (value, rest)

/-- Decoding accepts only bytes that encoding reproduces. -/
def Canonical (codec : Codec Value) : Prop :=
  ∀ input value rest, codec.decode input = .ok (value, rest) →
    ∃ bytes, codec.encode value = .ok bytes ∧ input = bytes ++ rest

structure Lawful (codec : Codec Value) : Prop where
  recovers : codec.Recovers
  canonical : codec.Canonical

/-- Whether a value has a wire form. -/
def Encodes (codec : Codec Value) (value : Value) : Prop :=
  ∃ bytes, codec.encode value = .ok bytes

/-! ## Single fields -/

theorem lawful_byte : byte.Lawful where
  recovers := by
    intro value bytes rest hencode
    cases hencode
    rfl
  canonical := by
    intro input value rest hdecode
    cases input with
    | nil => cases hdecode
    | cons head tail =>
        cases hdecode
        exact ⟨[value], rfl, rfl⟩

theorem lawful_bool : bool.Lawful where
  recovers := by
    intro value bytes rest hencode
    cases hencode
    cases value <;> rfl
  canonical := by
    intro input value rest hdecode
    cases input with
    | nil => cases hdecode
    | cons head tail =>
        simp only [bool] at hdecode
        split at hdecode
        · next hzero =>
            cases hdecode
            exact ⟨[0], rfl, by simp [hzero]⟩
        · split at hdecode
          · next hone =>
              cases hdecode
              exact ⟨[1], rfl, by simp [hone]⟩
          · cases hdecode

theorem lawful_word : word.Lawful where
  recovers := by
    intro value bytes rest hencode
    cases hencode
    have hfits : value.toNat < Bytes.capacity 2 := value.toNat_lt
    simp only [word]
    rw [readBytes_append _ rest (Bytes.length_littleEndian 2 value.toNat)]
    simp [Bytes.ofLittleEndian_littleEndian 2 value.toNat hfits]
  canonical := by
    intro input value rest hdecode
    simp only [word] at hdecode
    split at hdecode
    · next field tail hread =>
        obtain ⟨hwidth, hinput⟩ := readBytes_eq_ok_iff.mp hread
        cases hdecode
        have hfits : Bytes.ofLittleEndian field < 65536 := by
          have hlt := Bytes.ofLittleEndian_lt field
          rwa [hwidth] at hlt
        refine ⟨field, ?_, hinput⟩
        have hfield := Bytes.littleEndian_ofLittleEndian field
        rw [hwidth] at hfield
        simp [word, UInt16.toNat_ofNat_of_lt' hfits, hfield]
    · cases hdecode

theorem lawful_address : address.Lawful where
  recovers := by
    intro value bytes rest hencode
    cases hencode
    have htake : (value.bytes ++ rest).take 32 = value.bytes := by
      rw [← value.length_bytes, List.take_left]
    have hdrop : (value.bytes ++ rest).drop 32 = rest := by
      rw [← value.length_bytes, List.drop_left]
    simp [address, htake, hdrop, value.length_bytes]
  canonical := by
    intro input value rest hdecode
    simp only [address] at hdecode
    split at hdecode
    · cases hdecode
      exact ⟨input.take 32, rfl, (List.take_append_drop 32 input).symm⟩
    · cases hdecode

@[simp]
theorem encodes_byte (value : Byte) : byte.Encodes value := ⟨_, rfl⟩

@[simp]
theorem encodes_address (value : Address) : address.Encodes value := ⟨_, rfl⟩

/-! ## Composite values -/

theorem pair_encode_eq_ok_iff {left : Codec Left} {right : Codec Right} {value : Left × Right}
    {bytes : Bytes} :
    (left.pair right).encode value = .ok bytes ↔
      ∃ leftBytes rightBytes, left.encode value.1 = .ok leftBytes ∧
        right.encode value.2 = .ok rightBytes ∧ bytes = leftBytes ++ rightBytes := by
  simp only [pair, bind_eq_ok_iff, pure_eq_ok, Except.ok.injEq]
  constructor
  · rintro ⟨leftBytes, hleft, rightBytes, hright, heq⟩
    exact ⟨leftBytes, rightBytes, hleft, hright, heq.symm⟩
  · rintro ⟨leftBytes, rightBytes, hleft, hright, heq⟩
    exact ⟨leftBytes, hleft, rightBytes, hright, heq.symm⟩

theorem pair_decode_eq_ok_iff {left : Codec Left} {right : Codec Right} {value : Left × Right}
    {input rest : Bytes} :
    (left.pair right).decode input = .ok (value, rest) ↔
      ∃ afterLeft, left.decode input = .ok (value.1, afterLeft) ∧
        right.decode afterLeft = .ok (value.2, rest) := by
  simp only [pair, bind_eq_ok_iff, pure_eq_ok, Except.ok.injEq, Prod.exists, Prod.mk.injEq]
  constructor
  · rintro ⟨leftValue, afterLeft, hleft, rightValue, afterRight, hright, rfl, rfl⟩
    exact ⟨afterLeft, hleft, hright⟩
  · rintro ⟨afterLeft, hleft, hright⟩
    exact ⟨_, afterLeft, hleft, _, rest, hright, rfl, rfl⟩

theorem Lawful.pair {left : Codec Left} {right : Codec Right} (hleft : left.Lawful)
    (hright : right.Lawful) : (left.pair right).Lawful where
  recovers := by
    intro value bytes rest hencode
    obtain ⟨leftBytes, rightBytes, hleftEncode, hrightEncode, rfl⟩ :=
      pair_encode_eq_ok_iff.mp hencode
    rw [pair_decode_eq_ok_iff, List.append_assoc]
    exact ⟨rightBytes ++ rest, hleft.recovers _ _ _ hleftEncode,
      hright.recovers _ _ _ hrightEncode⟩
  canonical := by
    intro input value rest hdecode
    obtain ⟨afterLeft, hleftDecode, hrightDecode⟩ := pair_decode_eq_ok_iff.mp hdecode
    obtain ⟨leftBytes, hleftEncode, rfl⟩ := hleft.canonical _ _ _ hleftDecode
    obtain ⟨rightBytes, hrightEncode, rfl⟩ := hright.canonical _ _ _ hrightDecode
    exact ⟨leftBytes ++ rightBytes,
      pair_encode_eq_ok_iff.mpr ⟨leftBytes, rightBytes, hleftEncode, hrightEncode, rfl⟩,
      (List.append_assoc ..).symm⟩

@[simp]
theorem encodes_pair {left : Codec Left} {right : Codec Right} {value : Left × Right} :
    (left.pair right).Encodes value ↔ left.Encodes value.1 ∧ right.Encodes value.2 := by
  simp only [Encodes, pair_encode_eq_ok_iff]
  constructor
  · rintro ⟨_, leftBytes, rightBytes, hleft, hright, -⟩
    exact ⟨⟨leftBytes, hleft⟩, ⟨rightBytes, hright⟩⟩
  · rintro ⟨⟨leftBytes, hleft⟩, ⟨rightBytes, hright⟩⟩
    exact ⟨_, leftBytes, rightBytes, hleft, hright, rfl⟩

/-- The bytes of another type are lawful when its values correspond one to one. -/
theorem Lawful.via {codec : Codec Left} (hcodec : codec.Lawful) {toValue : Left → Value}
    {ofValue : Value → Left} (htoValue : ∀ value, toValue (ofValue value) = value)
    (hofValue : ∀ part, ofValue (toValue part) = part) :
    (codec.via toValue ofValue).Lawful where
  recovers := by
    intro value bytes rest hencode
    simp only [Codec.via] at hencode ⊢
    rw [hcodec.recovers _ _ rest hencode]
    simp [htoValue]
  canonical := by
    intro input value rest hdecode
    simp only [Codec.via, bind_eq_ok_iff, pure_eq_ok, Except.ok.injEq, Prod.exists,
      Prod.mk.injEq] at hdecode
    obtain ⟨part, after, hpart, rfl, rfl⟩ := hdecode
    obtain ⟨bytes, hencode, hinput⟩ := hcodec.canonical _ _ _ hpart
    refine ⟨bytes, ?_, hinput⟩
    simpa only [Codec.via, hofValue] using hencode

@[simp]
theorem encodes_via {codec : Codec Left} {toValue : Left → Value} {ofValue : Value → Left}
    {value : Value} :
    (codec.via toValue ofValue).Encodes value ↔ codec.Encodes (ofValue value) :=
  Iff.rfl

/-! ## Counted lists -/

theorem counted_encode_eq_ok_iff {width : Nat} {element : Codec Value} {elements : List Value}
    {bytes : Bytes} :
    (counted width element).encode elements = .ok bytes ↔
      elements.length ≤ countLimit width ∧ ∃ fields,
        List.Forall₂ (fun value field => element.encode value = .ok field) elements fields ∧
        bytes = Bytes.littleEndian width elements.length ++ fields.flatten := by
  simp only [counted]
  split
  · next hlength =>
      simp only [bind_eq_ok_iff, pure_eq_ok, Except.ok.injEq, mapM_eq_ok_iff, hlength, true_and]
      exact exists_congr fun fields => and_congr_right fun _ => eq_comm
  · next hlength => simp [hlength]

/-- Reading as many values as were written, with those already seen in front. -/
theorem readMany_append {element : Codec Value} (helement : element.Recovers)
    {elements : List Value} {fields : List Bytes}
    (hfields : List.Forall₂ (fun value field => element.encode value = .ok field) elements fields)
    (seen : List Value) (rest : Bytes) :
    readMany element.decode elements.length seen (fields.flatten ++ rest) =
      .ok (seen.reverse ++ elements, rest) := by
  induction hfields generalizing seen with
  | nil => simp [readMany]
  | @cons value field elements fields hfield _ ih =>
      have hhead := helement _ _ (fields.flatten ++ rest) hfield
      simp only [List.length_cons, List.flatten_cons, List.append_assoc, readMany, hhead, ih]
      simp

/-- The values read are those already seen and then `count` more, whose bytes
make up the part of the input that was consumed. -/
theorem readMany_eq_ok {element : Codec Value} (helement : element.Canonical)
    {count : Nat} {seen values : List Value} {input rest : Bytes}
    (hread : readMany element.decode count seen input = .ok (values, rest)) :
    ∃ elements fields, values = seen.reverse ++ elements ∧ elements.length = count ∧
      List.Forall₂ (fun value field => element.encode value = .ok field) elements fields ∧
      input = fields.flatten ++ rest := by
  induction count generalizing seen input with
  | zero =>
      cases hread
      exact ⟨[], [], by simp, rfl, .nil, rfl⟩
  | succ count ih =>
      simp only [readMany] at hread
      split at hread
      · next value after hvalue =>
          obtain ⟨elements, fields, rfl, hcount, hfields, rfl⟩ := ih hread
          obtain ⟨field, hfield, rfl⟩ := helement _ _ _ hvalue
          exact ⟨value :: elements, field :: fields, by simp, by simp [hcount],
            .cons hfield hfields, by simp⟩
      · cases hread

theorem Recovers.counted {element : Codec Value} (helement : element.Recovers) (width : Nat) :
    (Codec.counted width element).Recovers := by
  intro elements bytes rest hencode
  obtain ⟨hlength, fields, hfields, rfl⟩ := counted_encode_eq_ok_iff.mp hencode
  have hcount := Bytes.ofLittleEndian_littleEndian width elements.length
    (lt_capacity_of_le_countLimit hlength)
  simp only [Codec.counted, List.append_assoc]
  rw [readBytes_append _ _ (Bytes.length_littleEndian width elements.length)]
  simp only [ok_bind, hcount]
  exact readMany_append helement hfields [] rest

theorem Canonical.counted {element : Codec Value} (helement : element.Canonical) (width : Nat) :
    (Codec.counted width element).Canonical := by
  intro input values rest hdecode
  simp only [Codec.counted, bind_eq_ok_iff, Prod.exists] at hdecode
  obtain ⟨count, after, hcount, hread⟩ := hdecode
  obtain ⟨hwidth, rfl⟩ := readBytes_eq_ok_iff.mp hcount
  obtain ⟨elements, fields, hvalues, hlength, hfields, rfl⟩ := readMany_eq_ok helement hread
  obtain rfl : values = elements := hvalues
  have hlimit : values.length ≤ countLimit width := by
    have hlt := Bytes.ofLittleEndian_lt count
    rw [← hlength, hwidth] at hlt
    simp only [countLimit]
    omega
  have hfirst : Bytes.littleEndian width values.length = count := by
    rw [hlength, ← hwidth]
    exact Bytes.littleEndian_ofLittleEndian count
  refine ⟨count ++ fields.flatten, ?_, (List.append_assoc ..).symm⟩
  rw [counted_encode_eq_ok_iff]
  exact ⟨hlimit, fields, hfields, by rw [hfirst]⟩

theorem Lawful.counted {element : Codec Value} (helement : element.Lawful) (width : Nat) :
    (Codec.counted width element).Lawful :=
  ⟨helement.recovers.counted width, helement.canonical.counted width⟩

/-- A list has a wire form exactly when its count fits and its elements have one. -/
@[simp]
theorem encodes_counted {width : Nat} {element : Codec Value} {elements : List Value} :
    (counted width element).Encodes elements ↔
      elements.length ≤ countLimit width ∧ ∀ value ∈ elements, element.Encodes value := by
  simp only [Encodes, counted_encode_eq_ok_iff, ← mapM_eq_ok_iff, ← mapM_succeeds_iff]
  constructor
  · rintro ⟨_, hlength, fields, hfields, -⟩
    exact ⟨hlength, fields, hfields⟩
  · rintro ⟨hlength, fields, hfields⟩
    exact ⟨_, hlength, fields, hfields, rfl⟩

/-! ## The bytes that are written -/

/-- Whether the wire form of a value, if it has one, is a given function of it. -/
def Writes (codec : Codec Value) (write : Value → Bytes) : Prop :=
  ∀ value bytes, codec.encode value = .ok bytes → bytes = write value

theorem writes_byte : byte.Writes fun value => [value] := by
  intro value bytes hencode
  exact (Except.ok.inj hencode).symm

theorem writes_address : address.Writes Address.bytes := by
  intro value bytes hencode
  exact (Except.ok.inj hencode).symm

theorem Writes.pair {left : Codec Left} {right : Codec Right} {writeLeft : Left → Bytes}
    {writeRight : Right → Bytes} (hleft : left.Writes writeLeft)
    (hright : right.Writes writeRight) :
    (left.pair right).Writes fun value => writeLeft value.1 ++ writeRight value.2 := by
  intro value bytes hencode
  obtain ⟨leftBytes, rightBytes, hleftEncode, hrightEncode, rfl⟩ :=
    pair_encode_eq_ok_iff.mp hencode
  rw [hleft _ _ hleftEncode, hright _ _ hrightEncode]

theorem Writes.via {codec : Codec Left} {write : Left → Bytes} (hcodec : codec.Writes write)
    (toValue : Left → Value) (ofValue : Value → Left) :
    (codec.via toValue ofValue).Writes fun value => write (ofValue value) :=
  fun value => hcodec (ofValue value)

/-- A list is written as its length and then all of its elements. -/
theorem Writes.counted {element : Codec Value} {write : Value → Bytes}
    (helement : element.Writes write) (width : Nat) :
    (Codec.counted width element).Writes fun elements =>
      Bytes.littleEndian width elements.length ++ elements.flatMap write := by
  intro elements bytes hencode
  obtain ⟨-, fields, hfields, rfl⟩ := counted_encode_eq_ok_iff.mp hencode
  have hwritten : fields = elements.map write := by
    rw [← List.forall₂_eq_eq_eq, List.forall₂_map_right_iff]
    exact hfields.flip.imp fun _ _ => helement _ _
  simp only [hwritten, List.flatMap_def]

/-! ## Whole inputs -/

theorem decodeAll_eq_ok_iff {codec : Codec Value} {input : Bytes} {value : Value} :
    codec.decodeAll input = .ok value ↔ codec.decode input = .ok (value, []) := by
  simp only [decodeAll, bind_eq_ok_iff, Prod.exists]
  constructor
  · rintro ⟨decoded, rest, hdecode, hrest⟩
    split at hrest
    · next hempty =>
        cases hrest
        rw [hdecode, List.isEmpty_iff.mp hempty]
    · cases hrest
  · intro hdecode
    exact ⟨value, [], hdecode, rfl⟩

/-- Reading a whole input succeeds exactly on the wire form of the value read. -/
theorem Lawful.decodeAll_eq_ok_iff {codec : Codec Value} (hcodec : codec.Lawful) {input : Bytes}
    {value : Value} :
    codec.decodeAll input = .ok value ↔ codec.encode value = .ok input := by
  rw [Codec.decodeAll_eq_ok_iff]
  constructor
  · intro hdecode
    obtain ⟨bytes, hencode, rfl⟩ := hcodec.canonical _ _ _ hdecode
    rwa [List.append_nil]
  · intro hencode
    simpa using hcodec.recovers _ _ [] hencode

end Codec

end Wire

end MultisigVault
