import MultisigVault.Proofs.Outcome
import MultisigVault.Text.Blank
import MultisigVault.Text.Hex
import MultisigVault.Text.Utf8

/-!
# Hexadecimal text in other spellings

Bytes are written in lower-case digits and nothing else.  They are read back from every
text that has these digits in either letter case, possibly behind `0x` and among blanks.
-/

namespace MultisigVault

/-! ## Characters of one byte -/

namespace Utf8

theorem utf8EncodeChar_of_lt {character : Char} (hascii : character.toNat < 128) :
    String.utf8EncodeChar character = [UInt8.ofNat character.toNat] :=
  if_pos (Nat.le_of_lt_succ hascii)

/-- ASCII characters stand for the bytes of their code points. -/
theorem encode_ofList {characters : List Char}
    (hascii : ∀ character ∈ characters, character.toNat < 128) :
    encode (String.ofList characters) =
      characters.map fun character => UInt8.ofNat character.toNat := by
  have hencode : encode (String.ofList characters) =
      characters.flatMap String.utf8EncodeChar := by
    simp [encode, List.utf8Encode]
  rw [hencode, List.map_eq_flatMap]
  exact List.flatMap_congr fun character hmem => utf8EncodeChar_of_lt (hascii character hmem)

end Utf8

/-! ## Blanks around a text -/

namespace Text

theorem dropWhile_of_forall_not_isBlank {characters : List Char}
    (hsolid : ∀ character ∈ characters, isBlank character = false) :
    characters.dropWhile isBlank = characters := by
  cases characters with
  | nil => rfl
  | cons character rest =>
      rw [List.dropWhile_cons_of_neg]
      simp [hsolid character List.mem_cons_self]

theorem trim_of_forall_isBlank {characters : List Char}
    (hblank : ∀ character ∈ characters, isBlank character = true) : trim characters = [] := by
  have hdrop : (characters ++ []).dropWhile isBlank = [].dropWhile isBlank :=
    List.dropWhile_append_of_pos hblank
  rw [List.append_nil] at hdrop
  rw [trim, hdrop]
  rfl

/-- Trimming removes exactly the blanks around a text without blanks. -/
theorem trim_append {before solid after : List Char}
    (hbefore : ∀ character ∈ before, isBlank character = true)
    (hsolid : ∀ character ∈ solid, isBlank character = false)
    (hafter : ∀ character ∈ after, isBlank character = true) :
    trim (before ++ solid ++ after) = solid := by
  cases solid with
  | nil =>
      apply trim_of_forall_isBlank
      intro character hmem
      rw [List.append_nil, List.mem_append] at hmem
      exact hmem.elim (hbefore character) (hafter character)
  | cons first rest =>
      have hfirst : ¬isBlank first = true := by simp [hsolid first List.mem_cons_self]
      have hreverse : ∀ character ∈ (first :: rest).reverse, isBlank character = false := by
        simpa only [List.mem_reverse] using hsolid
      have hend : ∀ character ∈ after.reverse, isBlank character = true := by
        simpa only [List.mem_reverse] using hafter
      rw [trim, List.append_assoc, List.dropWhile_append_of_pos hbefore, List.cons_append,
        List.dropWhile_cons_of_neg hfirst, ← List.cons_append, List.reverse_append,
        List.dropWhile_append_of_pos hend, dropWhile_of_forall_not_isBlank hreverse,
        List.reverse_reverse]

end Text

namespace Hex

/-! ## Digits in either letter case -/

theorem toNat_toLower (character : Char) :
    character.toLower.toNat =
      if 65 ≤ character.toNat ∧ character.toNat ≤ 90 then character.toNat + 32
      else character.toNat := by
  by_cases hupper : 65 ≤ character.toNat ∧ character.toNat ≤ 90
  · have hbounds : character.val ≥ 'A'.val ∧ character.val ≤ 'Z'.val := hupper
    have hlower : character.toLower.val = character.val + 32 :=
      congrArg Char.val (dif_pos hbounds)
    have hsmall : character.val.toNat ≤ 90 := hupper.2
    rw [if_pos hupper]
    change character.toLower.val.toNat = character.val.toNat + 32
    rw [hlower, UInt32.toNat_add]
    exact Nat.mod_eq_of_lt (by simp; omega)
  · have hbounds : ¬(character.val ≥ 'A'.val ∧ character.val ≤ 'Z'.val) := hupper
    have hlower : character.toLower = character := dif_neg hbounds
    rw [if_neg hupper, hlower]

theorem toNat_symbol {digit : Nat} (hdigit : digit < 16) :
    (symbol digit).toNat = if digit < 10 then 48 + digit else 87 + digit := by
  revert digit
  decide

/-- Whether a code point is that of a digit, in either letter case. -/
def IsCode (code digit : Nat) : Prop :=
  digit < 10 ∧ code = 48 + digit ∨
    10 ≤ digit ∧ digit < 16 ∧ (code = 87 + digit ∨ code = 55 + digit)

theorem isCode_of_toLower {character : Char} {digit : Nat} (hdigit : digit < 16)
    (hlower : character.toLower = symbol digit) : IsCode character.toNat digit := by
  have hcodes : character.toLower.toNat = (symbol digit).toNat := congrArg Char.toNat hlower
  rw [toNat_toLower, toNat_symbol hdigit] at hcodes
  rw [IsCode]
  split at hcodes <;> split at hcodes <;> omega

namespace IsCode

variable {code digit : Nat} (hcode : IsCode code digit)

include hcode

theorem lt : code < 128 := by
  rw [IsCode] at hcode
  omega

theorem ne_x : code ≠ 120 := by
  rw [IsCode] at hcode
  omega

theorem digit?_eq : digit? (UInt8.ofNat code) = some digit := by
  have hbyte : (UInt8.ofNat code).toNat = code := by
    rw [UInt8.toNat_ofNat']
    exact Nat.mod_eq_of_lt (by have := hcode.lt; omega)
  rw [IsCode] at hcode
  rw [digit?, hbyte]
  split_ifs <;> congr 1 <;> omega

end IsCode

/-- No digit is blank, since no range of blanks reaches between `0` and `f`. -/
theorem not_isBlank_of_isCode {character : Char} {digit : Nat}
    (hcode : IsCode character.toNat digit) : Text.isBlank character = false := by
  have houtside : ∀ range ∈ Text.blankRanges, range.2 < 48 ∨ 102 < range.1 := by decide
  rw [Text.isBlank, List.any_eq_false]
  intro range hrange
  rw [IsCode] at hcode
  simp only [Bool.and_eq_true, decide_eq_true_eq]
  have := houtside range hrange
  omega

/-! ## Reading what was written -/

theorem toList_encode_cons (byte : Byte) (bytes : Bytes) :
    (encode (byte :: bytes)).toList =
      symbol (byte.toNat / 16) :: symbol (byte.toNat % 16) :: (encode bytes).toList := by
  simp [encode]

theorem exists_digit_of_mem_encode {bytes : Bytes} {character : Char}
    (hmem : character ∈ (encode bytes).toList) : ∃ digit < 16, character = symbol digit := by
  induction bytes with
  | nil => simp [encode] at hmem
  | cons byte bytes ih =>
      have hbyte := byte.toNat_lt
      rw [toList_encode_cons, List.mem_cons, List.mem_cons] at hmem
      obtain rfl | rfl | hmem := hmem
      · exact ⟨_, by omega, rfl⟩
      · exact ⟨_, by omega, rfl⟩
      · exact ih hmem

/-- Digits in upper case are the same digits. -/
theorem map_toLower_map_toUpper (bytes : Bytes) :
    ((encode bytes).toList.map Char.toUpper).map Char.toLower = (encode bytes).toList := by
  have hsymbol : ∀ digit < 16, (symbol digit).toUpper.toLower = symbol digit := by decide
  have hfixed : ∀ character ∈ (encode bytes).toList, character.toUpper.toLower = character := by
    intro character hmem
    obtain ⟨digit, hdigit, rfl⟩ := exists_digit_of_mem_encode hmem
    exact hsymbol digit hdigit
  rw [List.map_map]
  exact (List.map_congr_left hfixed).trans (List.map_id' _)

/-- The characters of written bytes in either letter case. -/
theorem exists_isCode {bytes : Bytes} {body : List Char}
    (hbody : body.map Char.toLower = (encode bytes).toList) {character : Char}
    (hmem : character ∈ body) : ∃ digit, IsCode character.toNat digit := by
  have hlower : character.toLower ∈ (encode bytes).toList := hbody ▸ List.mem_map_of_mem hmem
  obtain ⟨digit, hdigit, heq⟩ := exists_digit_of_mem_encode hlower
  exact ⟨digit, isCode_of_toLower hdigit heq⟩

theorem decodePairs_of_toLower {bytes : Bytes} {body : List Char}
    (hbody : body.map Char.toLower = (encode bytes).toList) (seen : Bytes) (position : Nat) :
    decodePairs seen position (body.map fun character => UInt8.ofNat character.toNat) =
      .ok (seen.reverse ++ bytes) := by
  induction bytes generalizing body seen position with
  | nil =>
      obtain rfl : body = [] := by simpa [encode] using hbody
      simp [decodePairs]
  | cons byte bytes ih =>
      rw [toList_encode_cons] at hbody
      obtain ⟨high, rest, rfl, hhigh, hrest⟩ := List.map_eq_cons_iff.mp hbody
      obtain ⟨low, body, rfl, hlow, hbody⟩ := List.map_eq_cons_iff.mp hrest
      have hbyte := byte.toNat_lt
      have hhighDigit := (isCode_of_toLower (by omega) hhigh).digit?_eq
      have hlowDigit := (isCode_of_toLower (by omega) hlow).digit?_eq
      have hjoin : UInt8.ofNat (16 * (byte.toNat / 16) + byte.toNat % 16) = byte := by
        rw [Nat.div_add_mod, UInt8.ofNat_toNat]
      rw [List.map_cons, List.map_cons, decodePairs, hhighDigit, hlowDigit]
      dsimp only
      rw [ih hbody, hjoin, List.reverse_cons, List.append_assoc, List.singleton_append]

theorem length_encode (bytes : Bytes) : (encode bytes).toList.length = 2 * bytes.length := by
  induction bytes with
  | nil => rfl
  | cons byte bytes ih =>
      rw [toList_encode_cons, List.length_cons, List.length_cons, ih, List.length_cons]
      omega

/-- The digits of a byte string are read in either letter case. -/
theorem decode_of_toLower {bytes : Bytes} {body : List Char}
    (hbody : body.map Char.toLower = (encode bytes).toList) :
    decode (Utf8.encode (String.ofList body)) = .ok bytes := by
  have hlength : body.length = 2 * bytes.length := by
    rw [← length_encode, ← hbody, List.length_map]
  have hascii : ∀ character ∈ body, character.toNat < 128 := by
    intro character hmem
    obtain ⟨digit, hcode⟩ := exists_isCode hbody hmem
    exact hcode.lt
  rw [Utf8.encode_ofList hascii, decode, List.length_map, if_neg (by omega),
    decodePairs_of_toLower hbody]
  rfl

/-- The texts that have the given digits in either letter case, possibly behind `0x` and
with blanks around them. -/
inductive Respells (digits : String) : String → Prop
  | spelled {before marker body after : List Char}
      (hbefore : ∀ character ∈ before, Text.isBlank character = true)
      (hmarker : marker = [] ∨ marker = ['0', 'x'])
      (hbody : body.map Char.toLower = digits.toList)
      (hafter : ∀ character ∈ after, Text.isBlank character = true) :
      Respells digits (String.ofList (before ++ (marker ++ body) ++ after))

theorem respells_map_toUpper (bytes : Bytes) :
    Respells (encode bytes) (String.ofList ((encode bytes).toList.map Char.toUpper)) := by
  have hspelled := Respells.spelled (List.forall_mem_nil _) (.inl rfl)
    (map_toLower_map_toUpper bytes) (List.forall_mem_nil _)
  rwa [List.append_nil, List.nil_append, List.nil_append] at hspelled

end Hex

end MultisigVault
