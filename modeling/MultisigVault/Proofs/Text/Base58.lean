import Mathlib.Data.List.GetD
import MultisigVault.Address
import MultisigVault.Proofs.FirstOccurrence
import MultisigVault.Proofs.Text.Numeral

/-!
# Base58 text names byte strings one to one

A base58 text denotes a zero byte for each leading `1`, which is the zero digit, and then
the shortest byte string of the number that its other characters denote.  Reading gives
what a text denotes, and writing gives the one text that denotes the bytes.  So no two
texts name the same address, and a text is refused for a character outside the alphabet
or for the length of what it denotes.
-/

namespace MultisigVault

open Outcome

/-! ## The shortest bytes of a number -/

namespace Bytes

theorem ofBigEndian_eq_value (bytes : Bytes) :
    ofBigEndian bytes = Numeral.value 256 (bytes.map UInt8.toNat) := by
  rw [ofBigEndian, Numeral.value, List.foldl_map]

theorem toNat_lt_of_mem_map {bytes : Bytes} {digit : Nat}
    (hmem : digit ∈ bytes.map UInt8.toNat) : digit < 256 := by
  obtain ⟨byte, -, rfl⟩ := List.mem_map.mp hmem
  exact byte.toNat_lt

theorem map_ofNat_map_toNat (bytes : Bytes) : (bytes.map UInt8.toNat).map UInt8.ofNat = bytes := by
  simp [Function.comp_def]

theorem map_toNat_map_ofNat {digits : List Nat} (hdigits : ∀ digit ∈ digits, digit < 256) :
    (digits.map UInt8.ofNat).map UInt8.toNat = digits := by
  rw [List.map_map]
  conv_rhs => rw [← List.map_id digits]
  apply List.map_congr_left
  intro digit hdigit
  exact UInt8.toNat_ofNat_of_lt' (hdigits digit hdigit)

/-- The bytes of a number without leading zeros, most significant byte first. -/
def shortest (number : Nat) : Bytes :=
  (Numeral.digits 256 number).map UInt8.ofNat

theorem map_toNat_shortest (number : Nat) :
    (shortest number).map UInt8.toNat = Numeral.digits 256 number :=
  map_toNat_map_ofNat fun _ hdigit => Numeral.lt_of_mem_digits (by decide) hdigit

/-- The shortest byte string of a number is the only one that denotes it and does not start
with a zero byte. -/
theorem eq_shortest_iff {bytes : Bytes} {number : Nat} :
    bytes = shortest number ↔ bytes.head? ≠ some 0 ∧ ofBigEndian bytes = number := by
  constructor
  · rintro rfl
    constructor
    · have hdigits : (Numeral.digits 256 number).head? ≠ some 0 :=
        Numeral.head?_digits (by decide) number
      intro hzero
      rw [← map_toNat_shortest, List.head?_map, hzero] at hdigits
      exact hdigits rfl
    · rw [ofBigEndian_eq_value, map_toNat_shortest, Numeral.value_digits (by decide)]
  · rintro ⟨hhead, rfl⟩
    have hmapped : (bytes.map UInt8.toNat).head? ≠ some 0 := by
      rw [List.head?_map]
      intro hzero
      obtain ⟨byte, hfirst, hbyte⟩ := Option.map_eq_some_iff.mp hzero
      exact hhead (hfirst.trans (congrArg some (UInt8.toNat_inj.mp hbyte)))
    rw [shortest, ofBigEndian_eq_value, Numeral.digits_value (by decide)
      (fun _ => toNat_lt_of_mem_map) hmapped, map_ofNat_map_toNat]

end Bytes

/-! ## Characters and digits -/

namespace Base58

theorem digit?_symbol {digit : Nat} (hdigit : digit < 58) : digit? (symbol digit) = some digit := by
  revert digit
  decide

theorem symbol_mem_alphabet (digit : Nat) : symbol digit ∈ alphabet := by
  obtain hsmall | hlarge := Nat.lt_or_ge digit 58
  · rw [symbol, List.getD_eq_getElem _ _ hsmall]
    exact List.getElem_mem hsmall
  · rw [symbol, List.getD_eq_default _ _ hlarge]
    exact List.mem_cons_self

theorem mem_alphabet_of_mem_encode {bytes : Bytes} {character : Char}
    (hmem : character ∈ (encode bytes).toList) : character ∈ alphabet := by
  rw [encode, String.toList_ofList] at hmem
  obtain ⟨digit, -, rfl⟩ := List.mem_map.mp hmem
  exact symbol_mem_alphabet digit

/-- Writing the digit of a character gives the character back. -/
theorem symbol_idxOf {character : Char} (hmem : character ∈ alphabet) :
    symbol (alphabet.idxOf character) = character := by
  rw [symbol, List.getD_eq_getElem _ _ (List.idxOf_lt_length_of_mem hmem), List.getElem_idxOf]

/-- A text is read digit by digit exactly when all its characters are in the alphabet. -/
theorem mapM_digit?_eq_some_iff {characters : List Char} {digits : List Nat} :
    characters.mapM digit? = some digits ↔
      (∀ character ∈ characters, character ∈ alphabet) ∧
        characters.map alphabet.idxOf = digits := by
  apply mapM_eq_some_iff_map
  intro character digit
  exact FirstOccurrence.idxOf?_eq_some_iff

/-! ## What a text denotes -/

/-- The number that characters of the alphabet denote, the first one most significant. -/
def number (characters : List Char) : Nat :=
  Nat.ofDigits 58 (characters.map alphabet.idxOf).reverse

/-- Whether a text denotes a byte string: as many zero bytes as it has leading ones, and
then the number of its other characters without leading zeros, high byte first. -/
inductive Denotes (text : String) (bytes : Bytes) : Prop
  | intro (zeros : Nat) (rest : List Char) (low : Bytes)
      (text_eq : text.toList = List.replicate zeros '1' ++ rest)
      (head_rest : rest.head? ≠ some '1')
      (mem_alphabet : ∀ character ∈ rest, character ∈ alphabet)
      (bytes_eq : bytes = List.replicate zeros 0 ++ low)
      (head_low : low.head? ≠ some 0)
      (number_eq : Bytes.ofBigEndian low = number rest)

theorem head?_map_idxOf {characters : List Char} (hhead : characters.head? ≠ some '1')
    (hmem : ∀ character ∈ characters, character ∈ alphabet) :
    (characters.map alphabet.idxOf).head? ≠ some 0 := by
  rw [List.head?_map]
  intro hzero
  obtain ⟨character, hfirst, hindex⟩ := Option.map_eq_some_iff.mp hzero
  have hcharacter := symbol_idxOf (hmem character (List.mem_of_head? hfirst))
  rw [hindex] at hcharacter
  exact hhead (hfirst.trans (congrArg some hcharacter.symm))

/-- Reading a text whose leading ones are known. -/
theorem decode?_of_leading_ones {text : String} {zeros : Nat} {rest : List Char}
    (htext : text.toList = List.replicate zeros '1' ++ rest) (hhead : rest.head? ≠ some '1')
    (hmem : ∀ character ∈ rest, character ∈ alphabet) :
    decode? text = some (List.replicate zeros 0 ++ Bytes.shortest (number rest)) := by
  have hall : ∀ character ∈ text.toList, character ∈ alphabet := by
    rw [htext, List.forall_mem_append]
    refine ⟨?_, hmem⟩
    intro character hone
    rw [List.eq_of_mem_replicate hone]
    exact List.mem_cons_self
  have hdigits : text.toList.map alphabet.idxOf =
      List.replicate zeros 0 ++ rest.map alphabet.idxOf := by
    rw [htext, List.map_append, List.map_replicate]
    rfl
  rw [decode?, mapM_digit?_eq_some_iff.mpr ⟨hall, hdigits⟩, Option.map_some,
    Numeral.recode_zeros_append _ _ _ (head?_map_idxOf hhead hmem), List.map_append,
    List.map_replicate, Numeral.value_eq_ofDigits]
  rfl

/-- Reading a text gives exactly what it denotes. -/
theorem decode?_eq_some_iff {text : String} {bytes : Bytes} :
    decode? text = some bytes ↔ Denotes text bytes := by
  constructor
  · intro hdecode
    -- The text can be read, so it splits into leading ones and characters of the alphabet.
    obtain ⟨digits, hdigits, -⟩ := Option.map_eq_some_iff.mp hdecode
    have hall := (mapM_digit?_eq_some_iff.mp hdigits).1
    obtain ⟨zeros, rest, htext, hhead⟩ := Numeral.exists_leading_zeros '1' text.toList
    have hmem : ∀ character ∈ rest, character ∈ alphabet := by
      rw [htext, List.forall_mem_append] at hall
      exact hall.2
    rw [decode?_of_leading_ones htext hhead hmem] at hdecode
    obtain ⟨hlow, hnumber⟩ := Bytes.eq_shortest_iff.mp (Eq.refl (Bytes.shortest (number rest)))
    exact .intro zeros rest _ htext hhead hmem (Option.some.inj hdecode).symm hlow hnumber
  · intro hdenotes
    obtain ⟨zeros, rest, low, htext, hhead, hmem, rfl, hlow, hnumber⟩ := hdenotes
    rw [decode?_of_leading_ones htext hhead hmem, ← Bytes.eq_shortest_iff.mpr ⟨hlow, hnumber⟩]

/-- A text is refused for a character outside the alphabet and for nothing else. -/
theorem decode?_eq_none_iff {text : String} :
    decode? text = none ↔ ∃ character ∈ text.toList, character ∉ alphabet := by
  rw [decode?, Option.map_eq_none_iff]
  constructor
  · intro hnone
    by_contra! hall
    rw [mapM_digit?_eq_some_iff.mpr ⟨hall, rfl⟩] at hnone
    cases hnone
  · rintro ⟨character, hmem, houtside⟩
    rw [Option.eq_none_iff_forall_ne_some]
    intro digits hdigits
    exact houtside ((mapM_digit?_eq_some_iff.mp hdigits).1 character hmem)

/-! ## Writing and reading -/

/-- Every byte string is read back from its base58 text. -/
theorem decode?_encode (bytes : Bytes) : decode? (encode bytes) = some bytes := by
  rw [decode?, encode, String.toList_ofList, mapM_map_eq_some fun digit hdigit =>
    digit?_symbol (Numeral.lt_of_mem_recode (by decide) hdigit), Option.map_some,
    Numeral.recode_recode (by decide) (by decide) fun _ => Bytes.toNat_lt_of_mem_map,
    Bytes.map_ofNat_map_toNat]

/-- Every text that can be read is the one written for its bytes. -/
theorem encode_of_decode? {text : String} {bytes : Bytes} (hdecode : decode? text = some bytes) :
    encode bytes = text := by
  obtain ⟨digits, hdigits, rfl⟩ := Option.map_eq_some_iff.mp hdecode
  obtain ⟨hmem, rfl⟩ := mapM_digit?_eq_some_iff.mp hdigits
  have hsmall : ∀ digit ∈ text.toList.map alphabet.idxOf, digit < 58 := by
    intro digit hdigit
    obtain ⟨character, hcharacter, rfl⟩ := List.mem_map.mp hdigit
    exact List.idxOf_lt_length_of_mem (hmem character hcharacter)
  have hsymbols : (text.toList.map alphabet.idxOf).map symbol = text.toList := by
    rw [List.map_map]
    conv_rhs => rw [← List.map_id text.toList]
    apply List.map_congr_left
    intro character hcharacter
    exact symbol_idxOf (hmem character hcharacter)
  rw [encode, Bytes.map_toNat_map_ofNat fun _ => Numeral.lt_of_mem_recode (by decide),
    Numeral.recode_recode (by decide) (by decide) hsmall, hsymbols, String.ofList_toList]

end Base58

/-! ## Addresses as text -/

namespace Address

@[simp]
theorem ofText_text (address : Address) : ofText address.text = .ok address := by
  rw [ofText, text, Base58.decode?_encode]
  exact ofBytes_bytes address

theorem ofBytes_eq_error_iff {bytes : Bytes} {error : AddressError} :
    ofBytes bytes = .error error ↔ bytes.length ≠ 32 ∧ error = .wrongLength bytes.length := by
  rw [ofBytes]
  split
  · next hlength => simp [hlength]
  · next hlength => simp [hlength, eq_comm]

theorem ofText_eq_ok_iff {text : String} {address : Address} :
    ofText text = .ok address ↔ Base58.decode? text = some address.bytes := by
  rw [ofText]
  cases Base58.decode? text with
  | none => simp
  | some bytes =>
      rw [Option.some.injEq, eq_comm (a := bytes)]
      exact ofBytes_eq_ok_iff

theorem ofText_eq_notBase58_iff {text : String} :
    ofText text = .error .notBase58 ↔ Base58.decode? text = none := by
  rw [ofText]
  cases Base58.decode? text with
  | none => simp
  | some bytes => simp [ofBytes_eq_error_iff]

theorem ofText_eq_wrongLength_iff {text : String} {length : Nat} :
    ofText text = .error (.wrongLength length) ↔
      ∃ bytes, Base58.decode? text = some bytes ∧ bytes.length = length ∧ length ≠ 32 := by
  rw [ofText]
  cases Base58.decode? text with
  | none => simp
  | some bytes =>
      simp only [ofBytes_eq_error_iff, AddressError.wrongLength.injEq, Option.some.injEq,
        exists_eq_left']
      constructor
      · rintro ⟨hlength, rfl⟩
        exact ⟨rfl, hlength⟩
      · rintro ⟨rfl, hlength⟩
        exact ⟨hlength, rfl⟩

/-- Addresses and the texts that are accepted for them correspond one to one.  A text is
accepted if it denotes 32 bytes, which are then those of the address.  Otherwise the error
says that a character is outside the alphabet, or how many bytes the text denotes. -/
theorem text_names_one_address :
    (∀ address : Address, ofText address.text = .ok address) ∧
    (∀ (text : String) (address : Address), ofText text = .ok address → address.text = text) ∧
    (∀ (left right : String) (address : Address),
      ofText left = .ok address → ofText right = .ok address → left = right) ∧
    (∀ (text : String) (address : Address),
      ofText text = .ok address ↔ Base58.Denotes text address.bytes) ∧
    (∀ text : String,
      ofText text = .error .notBase58 ↔ ∃ character ∈ text.toList, character ∉ Base58.alphabet) ∧
    ∀ (text : String) (length : Nat),
      ofText text = .error (.wrongLength length) ↔
        ∃ bytes, Base58.Denotes text bytes ∧ bytes.length = length ∧ length ≠ 32 := by
  have hwritten (text : String) (address : Address) (hread : ofText text = .ok address) :
      address.text = text :=
    Base58.encode_of_decode? (ofText_eq_ok_iff.mp hread)
  refine ⟨ofText_text, hwritten, ?_, ?_, ?_, ?_⟩
  · intro left right address hleft hright
    rw [← hwritten left address hleft, hwritten right address hright]
  · intro text address
    rw [ofText_eq_ok_iff, Base58.decode?_eq_some_iff]
  · intro text
    rw [ofText_eq_notBase58_iff, Base58.decode?_eq_none_iff]
  · intro text length
    simp only [ofText_eq_wrongLength_iff, Base58.decode?_eq_some_iff]

/-- The two characters denote two bytes.  Behind thirty ones they name an address, and a
single one more or less makes the text too long or too short for one. -/
theorem text_names_one_address_leading_zeros :
    let text (ones : Nat) : String := String.ofList (List.replicate ones '1' ++ ['5', 'R'])
    let address : Address := ⟨List.replicate 30 0 ++ [1, 0], rfl⟩
    ofText (text 30) = .ok address ∧ address.text = text 30 ∧
      ofText (text 29) = .error (.wrongLength 31) ∧ ofText (text 31) = .error (.wrongLength 33) ∧
      ofText (String.ofList ['5', 'R', '0']) = .error .notBase58 := by
  intro text address
  have hmem : ∀ character ∈ ['5', 'R'], character ∈ Base58.alphabet := by
    simp [Base58.alphabet]
  have hdenotes (ones : Nat) : Base58.Denotes (text ones) (List.replicate ones 0 ++ [1, 0]) :=
    .intro ones ['5', 'R'] [1, 0] String.toList_ofList (by decide) hmem rfl (by decide)
      (by decide)
  have houtside : ∃ character ∈ (String.ofList ['5', 'R', '0']).toList,
      character ∉ Base58.alphabet := by
    simp [Base58.alphabet]
  obtain ⟨-, hwritten, -, hok, houtsideIff, hwrong⟩ := text_names_one_address
  have hread : ofText (text 30) = .ok address := (hok (text 30) address).mpr (hdenotes 30)
  exact ⟨hread, hwritten (text 30) address hread,
    (hwrong (text 29) 31).mpr ⟨_, hdenotes 29, rfl, by decide⟩,
    (hwrong (text 31) 33).mpr ⟨_, hdenotes 31, rfl, by decide⟩,
    (houtsideIff _).mpr houtside⟩

end Address

end MultisigVault
