import MultisigVault.Json.Token
import MultisigVault.Proofs.Text.Numeral

/-!
# Literals that the program writes

A string is written with its own escapes, and its literal ends at the next quote and gives
the text back.  A number is written in decimal, which is a number of the grammar and gives
the value back.
-/

namespace MultisigVault.Json

/-! ## Strings -/

theorem codeUnit?_control {code : Nat} (hcode : code < 32) :
    codeUnit? '0' '0' (Nat.digitChar (code / 16)) (Nat.digitChar (code % 16)) = some code := by
  revert code
  decide

/-- A character is escaped by a letter or by its code unit, or stands for itself. -/
theorem escapeCharacter_cases (character : Char) :
    (∃ letter, letter ≠ 'u' ∧ escapedCharacter? letter = some character ∧
      escapeCharacter character = ['\\', letter]) ∨
    (character.toNat < 32 ∧ escapeCharacter character =
      ['\\', 'u', '0', '0', Nat.digitChar (character.toNat / 16),
        Nat.digitChar (character.toNat % 16)]) ∨
    (character ≠ '"' ∧ character ≠ '\\' ∧ ¬character.toNat < 32 ∧
      escapeCharacter character = [character]) := by
  rw [escapeCharacter]
  split_ifs with hquote hbackslash hback hfeed hline hreturn htab hcontrol
  · exact .inl ⟨'"', by decide, by rw [hquote]; rfl, rfl⟩
  · exact .inl ⟨'\\', by decide, by rw [hbackslash]; rfl, rfl⟩
  · exact .inl ⟨'b', by decide, by rw [hback]; rfl, rfl⟩
  · exact .inl ⟨'f', by decide, by rw [hfeed]; rfl, rfl⟩
  · exact .inl ⟨'n', by decide, by rw [hline]; rfl, rfl⟩
  · exact .inl ⟨'r', by decide, by rw [hreturn]; rfl, rfl⟩
  · exact .inl ⟨'t', by decide, by rw [htab]; rfl, rfl⟩
  · exact .inr (.inl ⟨hcontrol, rfl⟩)
  · exact .inr (.inr ⟨hquote, hbackslash, hcontrol, rfl⟩)

theorem scanString_escapeCharacter (seen : List Char) (character : Char) (rest : List Char) :
    scanString seen (escapeCharacter character ++ rest) =
      scanString ((escapeCharacter character).reverse ++ seen) rest := by
  obtain ⟨letter, hunit, hletter, heq⟩ | ⟨hcontrol, heq⟩ | ⟨hquote, hbackslash, hcontrol, heq⟩ :=
    escapeCharacter_cases character
  · rw [heq]
    simp [scanString, hletter, hunit]
  · rw [heq]
    simp [scanString, codeUnit?_control hcontrol]
  · rw [heq]
    simp [scanString, hbackslash, hcontrol]

/-- The literal of a written string ends at the quote behind it. -/
theorem scanString_escape (seen characters rest : List Char) :
    scanString seen (escape characters ++ '"' :: rest) =
      some (seen.reverse ++ escape characters, rest) := by
  induction characters generalizing seen with
  | nil => simp [escape, scanString]
  | cons character characters ih =>
      rw [escape, List.flatMap_cons, ← escape, List.append_assoc, scanString_escapeCharacter, ih]
      simp

theorem unescape_escapeCharacter (character : Char) (rest : List Char) :
    unescape (escapeCharacter character ++ rest) = (unescape rest).map (character :: ·) := by
  obtain ⟨letter, hunit, hletter, heq⟩ | ⟨hcontrol, heq⟩ | ⟨-, hbackslash, -, heq⟩ :=
    escapeCharacter_cases character
  · rw [heq]
    simp [unescape, hletter, hunit, Option.map_eq_bind]
  · have hhigh : ¬(0xD800 ≤ character.toNat ∧ character.toNat < 0xDC00) := by omega
    have hlow : ¬(0xDC00 ≤ character.toNat ∧ character.toNat < 0xE000) := by omega
    rw [heq]
    simp only [List.cons_append, List.nil_append, unescape, codeUnit?_control hcontrol,
      Option.bind_eq_bind, Option.bind_some, if_neg hhigh, if_neg hlow, Char.ofNat_toNat]
    cases unescape rest <;> rfl
  · rw [heq]
    simp [unescape, hbackslash, Option.map_eq_bind]

/-- Every text is read back from its literal. -/
theorem unescape_escape (characters : List Char) :
    unescape (escape characters) = some characters := by
  induction characters with
  | nil => rfl
  | cons character characters ih =>
      rw [escape, List.flatMap_cons, ← escape, unescape_escapeCharacter, ih, Option.map_some]

@[simp]
theorem text?_ofText (text : String) : text? (ofText text) = some text := by
  rw [ofText, text?, unescape_escape, Option.map_some, String.ofList_toList]

@[simp]
theorem nat?_ofNat (number : Nat) : nat? (ofNat number) = some number :=
  Decimal.ofDigits?_write number

/-! ## Numbers -/

theorem takeWhile_append_of_head? {test : Char → Bool} {literal : List Char}
    (hliteral : ∀ character ∈ literal, test character = true) {rest : List Char}
    (hrest : ∀ character ∈ rest.head?, test character = false) :
    (literal ++ rest).takeWhile test = literal ∧ (literal ++ rest).dropWhile test = rest := by
  rw [List.takeWhile_append_of_pos hliteral, List.dropWhile_append_of_pos hliteral]
  cases rest with
  | nil => simp
  | cons character rest =>
      have hcharacter : ¬test character = true := by simp [hrest character rfl]
      rw [List.takeWhile_cons_of_neg hcharacter, List.dropWhile_cons_of_neg hcharacter,
        List.append_nil]
      exact ⟨rfl, rfl⟩

theorem isNumberCharacter_of_isDigit {character : Char}
    (hdigit : Decimal.isDigit character = true) : isNumberCharacter character = true := by
  simp [isNumberCharacter, hdigit]

theorem isSpace_of_isDigit {character : Char} (hdigit : Decimal.isDigit character = true) :
    isSpace character = false := by
  simp [isSpace, Decimal.ne_of_isDigit hdigit ' ' rfl, Decimal.ne_of_isDigit hdigit '\n' rfl,
    Decimal.ne_of_isDigit hdigit '\t' rfl, Decimal.ne_of_isDigit hdigit '\r' rfl]

theorem isWhole_write (value : Nat) : isWhole (Decimal.write value) = true := by
  by_cases hzero : value = 0
  · rw [hzero]
    rfl
  · have hhead := Decimal.head?_write hzero
    have hdigits : isDigits (Decimal.write value) = true := by
      simp only [isDigits, Bool.and_eq_true, Bool.not_eq_true', List.isEmpty_eq_false_iff,
        List.all_eq_true]
      exact ⟨Decimal.write_ne_nil value, fun _ => Decimal.isDigit_of_mem_write⟩
    rw [isWhole.eq_def]
    split
    · rfl
    · next heq =>
        rw [heq] at hhead
        exact absurd rfl hhead
    · exact hdigits

/-- The decimal text of a number is its whole part, without sign, decimals and exponent. -/
theorem isNumber_write (value : Nat) : isNumber (Decimal.write value) = true := by
  have hspan (test : Char → Bool) (htest : ∀ character, Decimal.isDigit character = true →
      test character = true) :
      (Decimal.write value).takeWhile test = Decimal.write value ∧
        (Decimal.write value).dropWhile test = [] := by
    have hliteral : ∀ character ∈ Decimal.write value, test character = true :=
      fun character hmem => htest character (Decimal.isDigit_of_mem_write hmem)
    have hnone : ∀ character ∈ ([] : List Char).head?, test character = false := by simp
    have hends := takeWhile_append_of_head? hliteral hnone
    rwa [List.append_nil] at hends
  obtain ⟨hmantissa, hexponent⟩ := hspan (fun character => !(character == 'e' || character == 'E'))
    fun character hdigit => by
      simp [Decimal.ne_of_isDigit hdigit 'e' rfl,
        Decimal.ne_of_isDigit hdigit 'E' rfl]
  obtain ⟨hwhole, hdecimals⟩ := hspan (· != '.') fun character hdigit => by
    simp [Decimal.ne_of_isDigit hdigit '.' rfl]
  have hmagnitude : isMagnitude (Decimal.write value) = true := by
    simp only [isMagnitude, hmantissa, hexponent, isMantissa, hwhole, hdecimals, isWhole_write]
  rw [isNumber.eq_def]
  split
  · next heq =>
      have hsign : '-' ∈ Decimal.write value := heq ▸ List.mem_cons_self
      exact absurd rfl (Decimal.ne_of_isDigit (Decimal.isDigit_of_mem_write hsign) _ rfl)
  · exact hmagnitude

end MultisigVault.Json
