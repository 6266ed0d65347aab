import MultisigVault.Proofs.Wire.Laws

/-!
# Lists within lists

A codec round-trips except on some values when it fails on just these and reads all others
back, whatever follows them.  Putting a count in front of a list keeps this law: what is
added to the exceptions are lists that are too long for their counts.  So the law holds of
lists within lists as well, however deep, and at each level with a count of its own width.
-/

namespace MultisigVault.Wire.Codec

variable {Value : Type}

/-! ## Round trips with exceptions -/

/-- Whether a codec fails on just the given values, and reads every other value back from
what it writes, leaving any bytes that follow. -/
structure RoundTripsExcept (codec : Codec Value) (excluded : Value → Prop) : Prop where
  fails_iff : ∀ value, (∃ error, codec.encode value = .error error) ↔ excluded value
  reads_back : ∀ value, ¬excluded value → ∃ bytes, codec.encode value = .ok bytes ∧
    ∀ rest, codec.decode (bytes ++ rest) = .ok (value, rest)

theorem fails_iff_not_encodes {codec : Codec Value} {value : Value} :
    (∃ error, codec.encode value = .error error) ↔ ¬codec.Encodes value := by
  rw [Encodes]
  cases codec.encode value with
  | ok bytes => simp
  | error error => simp

/-- The law has two parts: which values have a wire form, and that each is recovered from
its own. -/
theorem roundTripsExcept_iff {codec : Codec Value} {excluded : Value → Prop} :
    codec.RoundTripsExcept excluded ↔
      codec.Recovers ∧ ∀ value, ¬codec.Encodes value ↔ excluded value := by
  constructor
  · intro hcodec
    refine ⟨?_, fun value => fails_iff_not_encodes.symm.trans (hcodec.fails_iff value)⟩
    intro value bytes rest hencode
    have hwritten : ¬excluded value := by
      rw [← hcodec.fails_iff, fails_iff_not_encodes, not_not]
      exact ⟨bytes, hencode⟩
    obtain ⟨written, hwrite, hread⟩ := hcodec.reads_back value hwritten
    obtain rfl : bytes = written := Except.ok.inj (hencode.symm.trans hwrite)
    exact hread rest
  · rintro ⟨hrecovers, hexcluded⟩
    refine ⟨fun value => fails_iff_not_encodes.trans (hexcluded value), ?_⟩
    intro value hwritten
    rw [← hexcluded, not_not] at hwritten
    obtain ⟨bytes, hencode⟩ := hwritten
    exact ⟨bytes, hencode, fun rest => hrecovers value bytes rest hencode⟩

/-- A codec that recovers its values round-trips except where it fails. -/
theorem Recovers.roundTripsExcept {codec : Codec Value} (hcodec : codec.Recovers) :
    codec.RoundTripsExcept fun value => ∃ error, codec.encode value = .error error :=
  roundTripsExcept_iff.mpr ⟨hcodec, fun _ => fails_iff_not_encodes.symm⟩

/-! ## One count -/

/-- Whether a list is too long for a count of `width` bytes, or has an excluded element. -/
def ListExcluded (width : Nat) (excluded : Value → Prop) (elements : List Value) : Prop :=
  countLimit width < elements.length ∨ ∃ value ∈ elements, excluded value

theorem RoundTripsExcept.counted {element : Codec Value} {excluded : Value → Prop}
    (helement : element.RoundTripsExcept excluded) (width : Nat) :
    (Codec.counted width element).RoundTripsExcept (ListExcluded width excluded) := by
  obtain ⟨hrecovers, hexcluded⟩ := roundTripsExcept_iff.mp helement
  refine roundTripsExcept_iff.mpr ⟨hrecovers.counted width, ?_⟩
  intro elements
  rw [encodes_counted, not_and_or, Nat.not_le, ListExcluded]
  simp only [not_forall, hexcluded, exists_prop]

/-! ## Counts at every level -/

/-- Lists within lists, one level for each width, with the values at the innermost. -/
def Nested (Value : Type) : (widths : List Nat) → Type
  | [] => Value
  | _ :: inner => List (Nested Value inner)

/-- The lists of each level are behind counts of the width given for it, the outermost
level first. -/
def nested (element : Codec Value) : (widths : List Nat) → Codec (Nested Value widths)
  | [] => element
  | width :: inner => counted width (nested element inner)

/-- Whether a list at some level is too long for its count, or a value at the innermost is
excluded. -/
def NestedExcluded (excluded : Value → Prop) : (widths : List Nat) → Nested Value widths → Prop
  | [] => excluded
  | width :: inner => ListExcluded width (NestedExcluded excluded inner)

theorem RoundTripsExcept.nested {element : Codec Value} {excluded : Value → Prop}
    (helement : element.RoundTripsExcept excluded) (widths : List Nat) :
    (Codec.nested element widths).RoundTripsExcept (NestedExcluded excluded widths) := by
  induction widths with
  | nil => exact helement
  | cons width inner ih => exact ih.counted width

theorem Canonical.nested {element : Codec Value} (helement : element.Canonical)
    (widths : List Nat) : (Codec.nested element widths).Canonical := by
  induction widths with
  | nil => exact helement
  | cons width inner ih => exact ih.counted width

/-- Lists behind a count of one or two bytes may have up to 255 or 65535 elements.  Writing
a list fails exactly if it is longer than that or an element fails, and every other list is
read back, whatever follows.  If reading an element accepts only what writing reproduces, so
does reading a list.  All of this holds at every depth of lists within lists. -/
theorem counts_keep_laws (element : Codec Value) (helement : element.Recovers) :
    countLimit 1 = 255 ∧ countLimit 2 = 65535 ∧
    (∀ width, (counted width element).RoundTripsExcept fun elements =>
      countLimit width < elements.length ∨
        ∃ value ∈ elements, ∃ error, element.encode value = .error error) ∧
    (∀ widths, (nested element widths).RoundTripsExcept
      (NestedExcluded (fun value => ∃ error, element.encode value = .error error) widths)) ∧
    (element.Canonical →
      (∀ width, (counted width element).Canonical) ∧
        ∀ widths, (nested element widths).Canonical) := by
  have hround := helement.roundTripsExcept
  refine ⟨rfl, rfl, hround.counted, hround.nested, ?_⟩
  intro hcanonical
  exact ⟨hcanonical.counted, hcanonical.nested⟩

/-- Three levels, the outermost with two-byte counts.  There 256 elements are written, and
one level below they are not. -/
theorem counts_keep_laws_three_levels :
    let codec : Codec (List (List (List UInt16))) := nested word [2, 1, 1]
    let values : List (List (List UInt16)) := [[[7], []], [], [[8, 300]]]
    let bytes : Bytes := [3, 0, 2, 1, 7, 0, 0, 0, 1, 2, 8, 0, 44, 1]
    let wide : List (List (List UInt16)) := List.replicate 256 []
    let deep : List (List (List UInt16)) := [[], List.replicate 256 []]
    word.Recovers ∧ codec.encode values = .ok bytes ∧
      codec.decode (bytes ++ [5, 6]) = .ok (values, [5, 6]) ∧
      (∃ written, codec.encode wide = .ok written ∧
        codec.decode (written ++ [5]) = .ok (wide, [5])) ∧
      (∃ error, codec.encode deep = .error error) ∧ codec.Canonical := by
  intro codec values bytes wide deep
  obtain ⟨-, -, -, hnested, hcanonical⟩ := counts_keep_laws word lawful_word.recovers
  obtain ⟨hfails, hreads⟩ := hnested [2, 1, 1]
  have hvalues : codec.encode values = .ok bytes := by decide
  have hwide : wide.length = 256 := List.length_replicate
  have hdeep : (List.replicate 256 ([] : List UInt16)).length = 256 := List.length_replicate
  refine ⟨lawful_word.recovers, hvalues, ?_, ?_, ?_,
    (hcanonical lawful_word.canonical).2 [2, 1, 1]⟩
  · obtain ⟨written, hwrite, hread⟩ := hreads values fun hexcluded => by
      obtain ⟨error, herror⟩ := (hfails values).mpr hexcluded
      cases hvalues.symm.trans herror
    obtain rfl : bytes = written := Except.ok.inj (hvalues.symm.trans hwrite)
    exact hread [5, 6]
  · obtain ⟨written, hwrite, hread⟩ := hreads wide <| by
      rintro (hlong | ⟨list, hlist, hlong | ⟨_, hmem, -⟩⟩)
      · -- As one level of nested lists, `wide` has another type, and still the same length.
        change countLimit 2 < wide.length at hlong
        exact absurd (hwide ▸ hlong) (by decide)
      · rw [List.eq_of_mem_replicate hlist] at hlong
        exact absurd hlong (by decide)
      · rw [List.eq_of_mem_replicate hlist] at hmem
        cases hmem
    exact ⟨written, hwrite, hread [5]⟩
  · exact (hfails deep).mpr (.inr ⟨_, .tail _ (.head _), .inl (hdeep.symm ▸ by decide)⟩)

end MultisigVault.Wire.Codec
