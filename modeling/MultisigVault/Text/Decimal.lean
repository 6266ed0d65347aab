import MultisigVault.Text.Numeral

/-!
# Decimal text

Natural numbers in decimal digits, without leading zeros and with `0` for zero.
-/

namespace MultisigVault.Decimal

def isDigit (character : Char) : Bool :=
  '0' ≤ character && character ≤ '9'

def symbol (digit : Nat) : Char :=
  ['0', '1', '2', '3', '4', '5', '6', '7', '8', '9'].getD digit '0'

/-- The decimal text of a number. -/
def write (number : Nat) : List Char :=
  if number = 0 then ['0'] else (Numeral.digits 10 number).map symbol

end MultisigVault.Decimal
