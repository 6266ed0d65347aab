import MultisigVault.Bytes

/-!
# Hexadecimal text

Two digits per byte, high half first.  Writing uses lower-case letters and
reading takes either case.  Reading works on the bytes of the text, so that the
position in an error counts bytes and a character outside ASCII is named by its
first byte.
-/

namespace MultisigVault.Hex

inductive HexError where
  /-- The text cannot be split into pairs. -/
  | oddLength
  /-- The byte at `position` is no hexadecimal digit. -/
  | invalidDigit (byte : Byte) (position : Nat)
deriving DecidableEq, Repr

/-- The lower-case character of a digit below sixteen. -/
def symbol (digit : Nat) : Char :=
  ['0', '1', '2', '3', '4', '5', '6', '7', '8', '9', 'a', 'b', 'c', 'd', 'e', 'f'].getD digit '0'

def encode (bytes : Bytes) : String :=
  String.ofList (bytes.flatMap fun byte => [symbol (byte.toNat / 16), symbol (byte.toNat % 16)])

/-- The value of an ASCII digit or letter up to `f`, in either case. -/
def digit? (byte : Byte) : Option Nat :=
  let code := byte.toNat
  if 48 ≤ code ∧ code ≤ 57 then some (code - 48)
  else if 97 ≤ code ∧ code ≤ 102 then some (code - 87)
  else if 65 ≤ code ∧ code ≤ 70 then some (code - 55)
  else none

/-- Reads pairs of digits, of which the first stands at `position`. -/
def decodePairs (seen : Bytes) (position : Nat) : Bytes → Except HexError Bytes
  | high :: low :: rest =>
      match digit? high, digit? low with
      | some highDigit, some lowDigit =>
          decodePairs (UInt8.ofNat (16 * highDigit + lowDigit) :: seen) (position + 2) rest
      | none, _ => .error (.invalidDigit high position)
      | some _, none => .error (.invalidDigit low (position + 1))
  | [_] => .error .oddLength
  | [] => .ok seen.reverse

/-- Reads a text of hexadecimal digits.  An odd length is reported before any
character that is no digit. -/
def decode (text : Bytes) : Except HexError Bytes :=
  if text.length % 2 = 1 then .error .oddLength else decodePairs [] 0 text

/-- A byte as the character with that code point, in single quotes.  The quote,
the backslash and characters without a visible shape are escaped. -/
def quoted (byte : Byte) : String :=
  let code := byte.toNat
  let inner :=
    if code = 0 then "\\0"
    else if code = 9 then "\\t"
    else if code = 10 then "\\n"
    else if code = 13 then "\\r"
    else if code = 39 then "\\'"
    else if code = 92 then "\\\\"
    else if code < 32 ∨ (127 ≤ code ∧ code ≤ 160) ∨ code = 173 then
      "\\u\x7b" ++ String.ofList (Nat.toDigits 16 code) ++ "\x7d"
    else String.singleton (Char.ofNat code)
  "'" ++ inner ++ "'"

def HexError.message : HexError → String
  | .oddLength => "Odd number of digits"
  | .invalidDigit byte position =>
      "Invalid character " ++ quoted byte ++ " at position " ++ toString position

end MultisigVault.Hex
