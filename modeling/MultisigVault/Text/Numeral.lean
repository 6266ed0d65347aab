/-!
# Positional numerals

A digit string is a list of digits, most significant first.  Rewriting it from
one base into another keeps each leading zero as a zero digit of the new base,
so a digit string of fixed width is not confused with a shorter one.

As text, digits from ten on are letters in either case.
-/

namespace MultisigVault.Numeral

/-- The number a digit string denotes. -/
def value (base : Nat) (digits : List Nat) : Nat :=
  digits.foldl (fun total digit => total * base + digit) 0

/-- The digits of a number, least significant first and without trailing
zeros.  Zero has no digits. -/
def lowDigits (base number : Nat) : List Nat :=
  if 2 ≤ base ∧ 0 < number then
    number % base :: lowDigits base (number / base)
  else
    []
termination_by number
decreasing_by exact Nat.div_lt_self (by omega) (by omega)

/-- The shortest digit string of a number, which is empty for zero. -/
def digits (base number : Nat) : List Nat :=
  (lowDigits base number).reverse

/-- Rewrites a digit string into another base, one zero digit for each leading
zero digit. -/
def recode (source target : Nat) (string : List Nat) : List Nat :=
  string.takeWhile (· == 0) ++ digits target (value source string)

/-- The value of a digit of any base up to 36, with letters in either case. -/
def digitValue? (base : Nat) (character : Char) : Option Nat :=
  let code := character.toNat
  let value :=
    if 48 ≤ code ∧ code ≤ 57 then code - 48
    else if 97 ≤ code ∧ code ≤ 122 then code - 87
    else if 65 ≤ code ∧ code ≤ 90 then code - 55
    else base
  if value < base then some value else none

/-- The number a nonempty string of digits denotes. -/
def ofDigits? (base : Nat) (characters : List Char) : Option Nat :=
  if characters.isEmpty then none
  else (characters.mapM (digitValue? base)).map (value base)

end MultisigVault.Numeral
