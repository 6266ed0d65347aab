import MultisigVault.Bytes
import MultisigVault.Text.Numeral

/-!
# Base58 text

A byte string is written as the same number in base 58, with one `1` for each
leading zero byte.  The alphabet leaves out the four characters that are easily
mistaken for another: `0`, `O`, `I` and `l`.
-/

namespace MultisigVault.Base58

/-- The digits in increasing order. -/
def alphabet : List Char :=
  ['1', '2', '3', '4', '5', '6', '7', '8', '9',
   'A', 'B', 'C', 'D', 'E', 'F', 'G', 'H', 'J', 'K', 'L', 'M', 'N', 'P', 'Q', 'R', 'S', 'T',
   'U', 'V', 'W', 'X', 'Y', 'Z',
   'a', 'b', 'c', 'd', 'e', 'f', 'g', 'h', 'i', 'j', 'k', 'm', 'n', 'o', 'p', 'q', 'r', 's',
   't', 'u', 'v', 'w', 'x', 'y', 'z']

/-- The character of a digit below 58. -/
def symbol (digit : Nat) : Char :=
  alphabet.getD digit '1'

/-- The digit of a character, if it belongs to the alphabet. -/
def digit? (symbol : Char) : Option Nat :=
  alphabet.idxOf? symbol

def encode (bytes : Bytes) : String :=
  String.ofList ((Numeral.recode 256 58 (bytes.map UInt8.toNat)).map symbol)

/-- The byte string a text denotes, unless a character is outside the alphabet. -/
def decode? (text : String) : Option Bytes :=
  (text.toList.mapM digit?).map fun digits =>
    (Numeral.recode 58 256 digits).map UInt8.ofNat

end MultisigVault.Base58
