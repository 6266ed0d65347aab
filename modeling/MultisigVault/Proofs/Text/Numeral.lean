import Mathlib.Data.List.GetD
import Mathlib.Data.Nat.Digits.Lemmas
import MultisigVault.Proofs.Outcome
import MultisigVault.Text.Decimal

/-!
# Numerals lose nothing

A digit string is some zeros and the digits of a number.  Rewriting it into another base
keeps the zeros and the number, so that rewriting it back gives the same digit string.
Decimal text is read back as the number that it was written for.
-/

namespace MultisigVault

open Outcome

namespace Numeral

variable {base source target : Nat}

/-! ## Digits of a number -/

theorem value_eq_ofDigits (base : Nat) (string : List Nat) :
    value base string = Nat.ofDigits base string.reverse := by
  rw [Nat.ofDigits_eq_foldr, List.foldr_reverse, value]
  congr 1
  funext total digit
  rw [Nat.mul_comm, Nat.add_comm, Nat.cast_id]

theorem lowDigits_eq_digits (hbase : 2 ≤ base) (number : Nat) :
    lowDigits base number = Nat.digits base number := by
  induction number using Nat.strongRecOn with
  | ind number ih =>
      rw [lowDigits]
      obtain rfl | hpositive := Nat.eq_zero_or_pos number
      · simp
      · rw [if_pos ⟨hbase, hpositive⟩, Nat.digits_def' hbase hpositive,
          ih _ (Nat.div_lt_self hpositive hbase)]

theorem digits_eq_reverse (hbase : 2 ≤ base) (number : Nat) :
    digits base number = (Nat.digits base number).reverse := by
  rw [digits, lowDigits_eq_digits hbase]

theorem value_digits (hbase : 2 ≤ base) (number : Nat) :
    value base (digits base number) = number := by
  rw [value_eq_ofDigits, digits_eq_reverse hbase, List.reverse_reverse, Nat.ofDigits_digits]

theorem lt_of_mem_digits (hbase : 2 ≤ base) {number digit : Nat}
    (hmem : digit ∈ digits base number) : digit < base := by
  rw [digits_eq_reverse hbase, List.mem_reverse] at hmem
  exact Nat.digits_lt_base hbase hmem

theorem head?_digits (hbase : 2 ≤ base) (number : Nat) :
    (digits base number).head? ≠ some 0 := by
  rw [digits_eq_reverse hbase, List.head?_reverse]
  obtain rfl | hnumber := eq_or_ne number 0
  · simp
  · rw [List.getLast?_eq_some_getLast (Nat.digits_ne_nil_iff_ne_zero.mpr hnumber)]
    simpa using Nat.getLast_digit_ne_zero base hnumber

/-- A digit string without leading zeros is that of its number. -/
theorem digits_value (hbase : 2 ≤ base) {string : List Nat}
    (hdigits : ∀ digit ∈ string, digit < base) (hhead : string.head? ≠ some 0) :
    digits base (value base string) = string := by
  have hlow : Nat.digits base (Nat.ofDigits base string.reverse) = string.reverse := by
    apply Nat.digits_ofDigits base hbase
    · simpa using hdigits
    · intro hne hzero
      apply hhead
      rw [← List.getLast?_reverse, List.getLast?_eq_some_getLast hne, hzero]
  rw [digits_eq_reverse hbase, value_eq_ofDigits, hlow, List.reverse_reverse]

/-! ## Leading zeros -/

theorem exists_leading_zeros {Digit : Type} [DecidableEq Digit] (zero : Digit)
    (string : List Digit) :
    ∃ count rest, string = List.replicate count zero ++ rest ∧ rest.head? ≠ some zero := by
  induction string with
  | nil => exact ⟨0, [], rfl, by simp⟩
  | cons digit string ih =>
      by_cases hzero : digit = zero
      · obtain ⟨count, rest, rfl, hhead⟩ := ih
        exact ⟨count + 1, rest, by simp [hzero, List.replicate_succ], hhead⟩
      · exact ⟨0, digit :: string, rfl, by simpa using hzero⟩

theorem value_zeros_append (base count : Nat) (rest : List Nat) :
    value base (List.replicate count 0 ++ rest) = value base rest := by
  rw [value_eq_ofDigits, value_eq_ofDigits, List.reverse_append, List.reverse_replicate,
    Nat.ofDigits_append_replicate_zero]

theorem recode_zeros_append (source target count : Nat) {rest : List Nat}
    (hhead : rest.head? ≠ some 0) :
    recode source target (List.replicate count 0 ++ rest) =
      List.replicate count 0 ++ digits target (value source rest) := by
  have hrest : rest.takeWhile (· == 0) = [] := by
    cases rest with
    | nil => rfl
    | cons digit rest =>
        rw [List.takeWhile_cons_of_neg]
        simpa using hhead
  have hzeros : (List.replicate count 0 ++ rest).takeWhile (· == 0) = List.replicate count 0 := by
    rw [List.takeWhile_append_of_pos (by simp), hrest, List.append_nil]
  rw [recode, hzeros, value_zeros_append]

/-- Rewriting a digit string into another base and back changes nothing. -/
theorem recode_recode (hsource : 2 ≤ source) (htarget : 2 ≤ target) {string : List Nat}
    (hdigits : ∀ digit ∈ string, digit < source) :
    recode target source (recode source target string) = string := by
  obtain ⟨count, rest, rfl, hhead⟩ := exists_leading_zeros 0 string
  rw [recode_zeros_append _ _ _ hhead, recode_zeros_append _ _ _ (head?_digits htarget _),
    value_digits htarget, digits_value hsource _ hhead]
  exact fun digit hdigit => hdigits digit (List.mem_append_right _ hdigit)

theorem lt_of_mem_recode (htarget : 2 ≤ target) {string : List Nat} {digit : Nat}
    (hmem : digit ∈ recode source target string) : digit < target := by
  obtain ⟨count, rest, rfl, hhead⟩ := exists_leading_zeros 0 string
  rw [recode_zeros_append _ _ _ hhead, List.mem_append] at hmem
  obtain hzero | hdigit := hmem
  · rw [(List.mem_replicate.mp hzero).2]
    omega
  · exact lt_of_mem_digits htarget hdigit

end Numeral

/-! ## Decimal text -/

namespace Decimal

theorem digitValue?_symbol {digit : Nat} (hdigit : digit < 10) :
    Numeral.digitValue? 10 (symbol digit) = some digit := by
  revert digit
  decide

theorem isDigit_symbol (digit : Nat) : isDigit (symbol digit) = true := by
  obtain hsmall | hlarge := Nat.lt_or_ge digit 10
  · revert digit
    decide
  · rw [symbol, List.getD_eq_default _ _ hlarge]
    rfl

theorem write_ne_nil (number : Nat) : write number ≠ [] := by
  rw [write]
  split
  · simp
  · next hnumber =>
      intro hempty
      apply hnumber
      rw [← Numeral.value_digits (show 2 ≤ 10 by decide) number, List.map_eq_nil_iff.mp hempty]
      rfl

theorem isDigit_of_mem_write {number : Nat} {character : Char} (hmem : character ∈ write number) :
    isDigit character = true := by
  rw [write] at hmem
  split at hmem
  · obtain rfl := List.mem_singleton.mp hmem
    rfl
  · obtain ⟨digit, -, rfl⟩ := List.mem_map.mp hmem
    exact isDigit_symbol digit

/-- Only zero is written with a leading zero. -/
theorem head?_write {number : Nat} (hnumber : number ≠ 0) : (write number).head? ≠ some '0' := by
  rw [write, if_neg hnumber, List.head?_map]
  intro hhead
  obtain ⟨digit, hdigit, hsymbol⟩ := Option.map_eq_some_iff.mp hhead
  have hsmall : digit < 10 := Numeral.lt_of_mem_digits (by decide) (List.mem_of_head? hdigit)
  have hzero := digitValue?_symbol hsmall
  rw [hsymbol] at hzero
  obtain rfl : 0 = digit := Option.some.inj hzero
  exact Numeral.head?_digits (by decide) _ hdigit

theorem ne_of_isDigit {character : Char} (hdigit : isDigit character = true) (other : Char)
    (hother : isDigit other = false) : character ≠ other := by
  rintro rfl
  rw [hdigit] at hother
  cases hother

/-- The decimal text of a number denotes it. -/
theorem ofDigits?_write (number : Nat) : Numeral.ofDigits? 10 (write number) = some number := by
  rw [Numeral.ofDigits?, if_neg (by simpa using write_ne_nil number), write]
  split
  · next hzero =>
      subst hzero
      rfl
  · rw [mapM_map_eq_some fun digit hdigit =>
      digitValue?_symbol (Numeral.lt_of_mem_digits (by decide) hdigit), Option.map_some,
      Numeral.value_digits (by decide)]

end Decimal

end MultisigVault
