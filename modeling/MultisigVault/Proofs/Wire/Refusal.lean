import MultisigVault.Proofs.Wire.Laws

/-!
# Inputs that are refused at a certain byte

A field may refuse a byte whatever follows it.  A composite codec comes to that byte once
it has read what stands before it, and then refuses the whole input for the same reason.
-/

namespace MultisigVault.Wire.Codec

open Outcome

variable {Value Left Right : Type}

/-- Whether decoding refuses every input that starts with some bytes, and for what. -/
def Refuses (codec : Codec Value) (start : Bytes) (error : WireError) : Prop :=
  ∀ rest, codec.decode (start ++ rest) = .error error

theorem refuses_bool {flag : Byte} (hzero : flag ≠ 0) (hone : flag ≠ 1) :
    bool.Refuses [flag] (.invalidBool flag) := by
  intro rest
  rw [List.singleton_append]
  simp only [bool]
  rw [if_neg hzero, if_neg hone]

namespace Refuses

variable {start : Bytes} {error : WireError}

/-! ## Composite values -/

theorem pair_left {left : Codec Left} (hleft : left.Refuses start error) (right : Codec Right) :
    (left.pair right).Refuses start error := by
  intro rest
  simp only [pair]
  rw [hleft rest, error_bind]

theorem pair_right {left : Codec Left} (hrecovers : left.Recovers) {value : Left} {bytes : Bytes}
    (hencode : left.encode value = .ok bytes) {right : Codec Right}
    (hright : right.Refuses start error) : (left.pair right).Refuses (bytes ++ start) error := by
  intro rest
  rw [List.append_assoc]
  simp only [pair]
  rw [hrecovers _ _ _ hencode, ok_bind]
  dsimp only
  rw [hright rest, error_bind]

theorem via {codec : Codec Left} (hcodec : codec.Refuses start error) (toValue : Left → Value)
    (ofValue : Value → Left) : (codec.via toValue ofValue).Refuses start error := by
  intro rest
  simp only [Codec.via]
  rw [hcodec rest, error_bind]

/-! ## Counted lists -/

section

variable {element : Codec Value} (hrecovers : element.Recovers) {write : Value → Bytes}
  {elements : List Value} (hwrite : ∀ value ∈ elements, element.encode value = .ok (write value))
  (hrefuses : element.Refuses start error) {count : Nat} (hcount : elements.length < count)

include hrecovers hwrite hrefuses hcount

/-- The elements in front are read, and there is still one to come. -/
theorem readMany (seen : List Value) (rest : Bytes) :
    Wire.readMany element.decode count seen (elements.flatMap write ++ start ++ rest) =
      .error error := by
  induction elements generalizing count seen with
  | nil =>
      obtain ⟨count, rfl⟩ := Nat.exists_eq_add_one.mpr hcount
      rw [List.flatMap_nil, List.nil_append, Wire.readMany, hrefuses rest]
  | cons value elements ih =>
      obtain ⟨count, rfl⟩ := Nat.exists_eq_add_one.mpr (Nat.zero_lt_of_lt hcount)
      rw [List.forall_mem_cons] at hwrite
      rw [List.flatMap_cons, List.append_assoc, List.append_assoc, Wire.readMany,
        hrecovers _ _ _ hwrite.1, ← List.append_assoc]
      exact ih hwrite.2 (Nat.lt_of_succ_lt_succ hcount) (value :: seen)

theorem counted {width : Nat} (hfits : count < Bytes.capacity width) :
    (Codec.counted width element).Refuses
      (Bytes.littleEndian width count ++ elements.flatMap write ++ start) error := by
  intro rest
  rw [List.append_assoc, List.append_assoc]
  simp only [Codec.counted]
  rw [readBytes_append _ _ (Bytes.length_littleEndian width count), ok_bind]
  dsimp only
  rw [Bytes.ofLittleEndian_littleEndian width count hfits, ← List.append_assoc]
  exact Refuses.readMany hrecovers hwrite hrefuses hcount [] rest

end

/-! ## Whole inputs -/

theorem decodeAll {codec : Codec Value} (hcodec : codec.Refuses start error) (rest : Bytes) :
    codec.decodeAll (start ++ rest) = .error error := by
  rw [Codec.decodeAll, hcodec rest, error_bind]

end Refuses

end MultisigVault.Wire.Codec
