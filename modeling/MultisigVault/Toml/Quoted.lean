import MultisigVault.Text.Decimal

/-!
# Strings of TOML text

A string has four spellings: with escapes or without, on one line or on several.
Each scanner starts after the opening quotes and returns the text and the input
that follows the closing ones.
-/

namespace MultisigVault.Toml

def isSpace (character : Char) : Bool :=
  character == ' ' || character == '\t'

/-- Characters that stand for themselves in a comment or a string. -/
def isPlain (character : Char) : Bool :=
  character == '\t' || (0x20 ≤ character.toNat && character.toNat ≠ 0x7F)

def isBareKeyCharacter (character : Char) : Bool :=
  ('a' ≤ character && character ≤ 'z') || ('A' ≤ character && character ≤ 'Z') ||
    Decimal.isDigit character || character == '_' || character == '-'

/-- The character for a letter that follows a backslash. -/
def escapedCharacter? : Char → Option Char
  | '"' => some '"'
  | '\\' => some '\\'
  | 'b' => some '\x08'
  | 't' => some '\t'
  | 'n' => some '\n'
  | 'f' => some '\x0c'
  | 'r' => some '\r'
  | _ => none

/-- The character with the given code point in hexadecimal digits. -/
def codePoint? (digits : List Char) : Option Char := do
  let code ← Numeral.ofDigits? 16 digits
  if code.isValidChar then some (Char.ofNat code) else none

/-- A string with escapes, after its opening quote. -/
def basicString (seen : List Char) : List Char → Option (List Char × List Char)
  | [] => none
  | '"' :: rest => some (seen.reverse, rest)
  | '\\' :: 'u' :: a :: b :: c :: d :: rest => do
      basicString ((← codePoint? [a, b, c, d]) :: seen) rest
  | '\\' :: 'U' :: a :: b :: c :: d :: e :: f :: g :: h :: rest => do
      basicString ((← codePoint? [a, b, c, d, e, f, g, h]) :: seen) rest
  | '\\' :: letter :: rest => do
      basicString ((← escapedCharacter? letter) :: seen) rest
  | character :: rest =>
      if isPlain character then basicString (character :: seen) rest else none

/-- A string without escapes, after its opening quote. -/
def literalString (seen : List Char) : List Char → Option (List Char × List Char)
  | [] => none
  | '\'' :: rest => some (seen.reverse, rest)
  | character :: rest =>
      if isPlain character then literalString (character :: seen) rest else none

/-- Where the scanner of a string over several lines stands. -/
inductive LineState where
  | text
  /-- After a backslash that must end the line. -/
  | lineEnd
  /-- Skipping blanks and line ends. -/
  | skipping
deriving DecidableEq

/-- A string with escapes over several lines, after its opening quotes.  Up to two
quotes may stand in front of the closing ones. -/
def basicLines (state : LineState) (seen : List Char) : List Char → Option (List Char × List Char)
  | [] => none
  | '\r' :: '\n' :: rest =>
      if state = .text then basicLines .text ('\n' :: seen) rest
      else basicLines .skipping seen rest
  | '\n' :: rest =>
      if state = .text then basicLines .text ('\n' :: seen) rest
      else basicLines .skipping seen rest
  | '"' :: '"' :: '"' :: '"' :: '"' :: rest =>
      if state = .lineEnd then none else some (('"' :: '"' :: seen).reverse, rest)
  | '"' :: '"' :: '"' :: '"' :: rest =>
      if state = .lineEnd then none else some (('"' :: seen).reverse, rest)
  | '"' :: '"' :: '"' :: rest =>
      if state = .lineEnd then none else some (seen.reverse, rest)
  | '\\' :: 'u' :: a :: b :: c :: d :: rest => do
      if state = .lineEnd then none
      else basicLines .text ((← codePoint? [a, b, c, d]) :: seen) rest
  | '\\' :: 'U' :: a :: b :: c :: d :: e :: f :: g :: h :: rest => do
      if state = .lineEnd then none
      else basicLines .text ((← codePoint? [a, b, c, d, e, f, g, h]) :: seen) rest
  | '\\' :: '\n' :: rest =>
      if state = .lineEnd then none else basicLines .skipping seen rest
  | '\\' :: letter :: rest =>
      if state = .lineEnd then none
      else if isSpace letter || letter == '\r' then basicLines .lineEnd seen (letter :: rest)
      else do basicLines .text ((← escapedCharacter? letter) :: seen) rest
  | character :: rest =>
      if isSpace character && state ≠ .text then basicLines state seen rest
      else if isPlain character && state ≠ .lineEnd then
        basicLines .text (character :: seen) rest
      else none

/-- A string without escapes over several lines, after its opening quotes. -/
def literalLines (seen : List Char) : List Char → Option (List Char × List Char)
  | [] => none
  | '\r' :: '\n' :: rest => literalLines ('\n' :: seen) rest
  | '\n' :: rest => literalLines ('\n' :: seen) rest
  | '\'' :: '\'' :: '\'' :: '\'' :: '\'' :: rest =>
      some (('\'' :: '\'' :: seen).reverse, rest)
  | '\'' :: '\'' :: '\'' :: '\'' :: rest => some (('\'' :: seen).reverse, rest)
  | '\'' :: '\'' :: '\'' :: rest => some (seen.reverse, rest)
  | character :: rest =>
      if isPlain character then literalLines (character :: seen) rest else none

end MultisigVault.Toml
