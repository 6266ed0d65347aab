import MultisigVault.Text.Decimal

/-!
# JSON values

Numbers and strings are kept as they are written, since grammar and meaning
differ: every escape of a string may be well written although no text results,
and a number may be beyond the range of any number that is looked for.  A value
that nobody asks for is only held to the grammar.
-/

namespace MultisigVault

inductive Json where
  | null
  | bool (value : Bool)
  | number (literal : List Char)
  | string (literal : List Char)
  | array (items : List Json)
  | object (members : List (List Char × Json))
deriving Repr, Inhabited

namespace Json

/-- The character for a letter that follows a backslash. -/
def escapedCharacter? : Char → Option Char
  | '"' => some '"'
  | '\\' => some '\\'
  | '/' => some '/'
  | 'b' => some '\x08'
  | 'f' => some '\x0c'
  | 'n' => some '\n'
  | 'r' => some '\r'
  | 't' => some '\t'
  | _ => none

/-- The 16-bit unit written as four hexadecimal digits. -/
def codeUnit? (first second third fourth : Char) : Option Nat :=
  Numeral.ofDigits? 16 [first, second, third, fourth]

/-- The text of a string literal.  A surrogate that is not half of a pair stands
for no character. -/
def unescape : List Char → Option (List Char)
  | [] => some []
  | '\\' :: 'u' :: first :: second :: third :: fourth :: rest => do
      let unit ← codeUnit? first second third fourth
      if 0xD800 ≤ unit ∧ unit < 0xDC00 then
        match rest with
        | '\\' :: 'u' :: first :: second :: third :: fourth :: rest =>
            let low ← codeUnit? first second third fourth
            if 0xDC00 ≤ low ∧ low < 0xE000 then
              return Char.ofNat (0x10000 + (unit - 0xD800) * 0x400 + (low - 0xDC00)) ::
                (← unescape rest)
            else
              none
        | _ => none
      else if 0xDC00 ≤ unit ∧ unit < 0xE000 then
        none
      else
        return Char.ofNat unit :: (← unescape rest)
  | '\\' :: letter :: rest => do
      return (← escapedCharacter? letter) :: (← unescape rest)
  | character :: rest => return character :: (← unescape rest)

/-- The literal characters of one character.  Quotes, backslashes and control
characters are escaped. -/
def escapeCharacter (character : Char) : List Char :=
  if character = '"' then ['\\', '"']
  else if character = '\\' then ['\\', '\\']
  else if character = '\x08' then ['\\', 'b']
  else if character = '\x0c' then ['\\', 'f']
  else if character = '\n' then ['\\', 'n']
  else if character = '\r' then ['\\', 'r']
  else if character = '\t' then ['\\', 't']
  else if character.toNat < 32 then
    ['\\', 'u', '0', '0', Nat.digitChar (character.toNat / 16),
      Nat.digitChar (character.toNat % 16)]
  else [character]

def escape (characters : List Char) : List Char :=
  characters.flatMap escapeCharacter

/-- The string with the given text. -/
def ofText (text : String) : Json :=
  .string (escape text.toList)

/-- The number with the given value. -/
def ofNat (number : Nat) : Json :=
  .number (Decimal.write number)

/-- The text of a string. -/
def text? : Json → Option String
  | .string literal => (unescape literal).map String.ofList
  | _ => none

/-- The value of a number that is written as digits alone. -/
def nat? : Json → Option Nat
  | .number literal => Numeral.ofDigits? 10 literal
  | _ => none

def bool? : Json → Option Bool
  | .bool value => some value
  | _ => none

def items? : Json → Option (List Json)
  | .array items => some items
  | _ => none

end Json

end MultisigVault
