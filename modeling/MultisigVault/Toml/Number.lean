import MultisigVault.Text.Decimal

/-!
# Numbers of TOML text

Digits may be grouped by single underscores.  An integer has a value.  Of a
number with decimals or an exponent only the magnitude matters: a positive one
that would be rounded to infinity in double precision is no number, while below
zero there is no such limit.
-/

namespace MultisigVault.Toml

/-- The digits of a number without the underscores between them. -/
def ungroup (isDigit : Char → Bool) : List Char → Option (List Char)
  | [] => none
  | [digit] => if isDigit digit then some [digit] else none
  | digit :: '_' :: rest =>
      if isDigit digit then (ungroup isDigit rest).map (digit :: ·) else none
  | digit :: rest =>
      if isDigit digit then (ungroup isDigit rest).map (digit :: ·) else none

/-- The value of grouped digits. -/
def magnitude? (base : Nat) (characters : List Char) : Option Nat := do
  let digits ← ungroup (fun digit => (Numeral.digitValue? base digit).isSome) characters
  Numeral.ofDigits? base digits

/-- The digits of a decimal integer without sign and without leading zeros. -/
def wholeDigits? : List Char → Option (List Char)
  | ['0'] => some ['0']
  | '0' :: _ => none
  | digits => ungroup Decimal.isDigit digits

/-- Removes a sign and tells whether it was a minus. -/
def unsigned : List Char → Bool × List Char
  | '-' :: rest => (true, rest)
  | '+' :: rest => (false, rest)
  | characters => (false, characters)

def signed (isNegative : Bool) (magnitude : Nat) : Int :=
  if isNegative then -Int.ofNat magnitude else Int.ofNat magnitude

/-- The value of an integer in decimal, or without sign in another base. -/
def integer? : List Char → Option Int
  | '0' :: 'x' :: digits => (magnitude? 16 digits).map Int.ofNat
  | '0' :: 'o' :: digits => (magnitude? 8 digits).map Int.ofNat
  | '0' :: 'b' :: digits => (magnitude? 2 digits).map Int.ofNat
  | characters => do
      let (isNegative, digits) := unsigned characters
      return signed isNegative (← Numeral.ofDigits? 10 (← wholeDigits? digits))

/-- A number with decimals or an exponent: its digits before and after the point,
and the power of ten by which the last of them counts. -/
structure Scientific where
  isNegative : Bool
  digits : List Char
  exponent : Int
deriving DecidableEq, Repr

namespace Scientific

def isExponentMark (character : Char) : Bool :=
  character == 'e' || character == 'E'

/-- The digits after a point, of which there are none if there is no point. -/
def decimals? : List Char → Option (List Char)
  | [] => some []
  | _ :: digits => ungroup Decimal.isDigit digits

/-- The exponent after a mark, which is zero if there is no mark. -/
def scale? : List Char → Option Int
  | [] => some 0
  | _ :: characters => do
      let (isNegative, digits) := unsigned characters
      return signed isNegative (← magnitude? 10 digits)

/-- Reads a number that is no integer. -/
def ofCharacters? (characters : List Char) : Option Scientific := do
  let (isNegative, magnitude) := unsigned characters
  let mantissa := magnitude.takeWhile (!isExponentMark ·)
  let scale := magnitude.dropWhile (!isExponentMark ·)
  let point := mantissa.dropWhile (· != '.')
  if point.isEmpty && scale.isEmpty then none
  else
    let whole ← wholeDigits? (mantissa.takeWhile (· != '.'))
    let decimals ← decimals? point
    return ⟨isNegative, whole ++ decimals, (← scale? scale) - Int.ofNat decimals.length⟩

/-- The least magnitude that is rounded to infinity.  It lies halfway between the
largest number of double precision and the next power of two. -/
def overflow : Nat := 0x3FFFFFFFFFFFFF <<< 970

/-- Number of decimal digits of `overflow`. -/
def overflowLength : Nat := 309

/-- Whether the magnitude is at least `overflow`.  If the first digit that is not
zero counts as much as that of `overflow`, the integer parts decide. -/
def isHuge (number : Scientific) : Bool :=
  let digits := number.digits.dropWhile (· == '0')
  let length := Int.ofNat digits.length + number.exponent
  let whole := (digits ++ List.replicate overflowLength '0').take overflowLength
  !digits.isEmpty &&
    (Int.ofNat overflowLength < length ||
      (length = Int.ofNat overflowLength &&
        ((Numeral.ofDigits? 10 whole).any fun value => overflow ≤ value)))

end Scientific

/-- Whether the characters are a number that is no integer, infinity, or the
value that is no number. -/
def isFloat (characters : List Char) : Bool :=
  let magnitude := (unsigned characters).2
  magnitude = ['i', 'n', 'f'] || magnitude = ['n', 'a', 'n'] ||
    (Scientific.ofCharacters? characters).any fun number => number.isNegative || !number.isHuge

end MultisigVault.Toml
