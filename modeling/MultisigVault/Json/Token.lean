import MultisigVault.Json.Basic

/-!
# Tokens of JSON text

The text is split into punctuation, words, numbers and strings.  Blanks between
them carry no meaning, so two layouts of one value have the same tokens.
-/

namespace MultisigVault.Json

inductive Token where
  | openArray
  | closeArray
  | openObject
  | closeObject
  | comma
  | colon
  | null
  | bool (value : Bool)
  | number (literal : List Char)
  | string (literal : List Char)
deriving DecidableEq, Repr

def isSpace (character : Char) : Bool :=
  character == ' ' || character == '\n' || character == '\t' || character == '\r'

def isNumberCharacter (character : Char) : Bool :=
  Decimal.isDigit character || character == '-' || character == '+' || character == '.' ||
    character == 'e' || character == 'E'

def isWordCharacter (character : Char) : Bool :=
  'a' ≤ character && character ≤ 'z'

/-- Digits only, and at least one. -/
def isDigits (characters : List Char) : Bool :=
  !characters.isEmpty && characters.all Decimal.isDigit

/-- The part of a number that follows `e`. -/
def isExponent : List Char → Bool
  | '-' :: digits => isDigits digits
  | '+' :: digits => isDigits digits
  | digits => isDigits digits

/-- An integer without sign and without leading zeros. -/
def isWhole : List Char → Bool
  | ['0'] => true
  | '0' :: _ => false
  | digits => isDigits digits

/-- A number without its exponent: an integer, possibly with decimals. -/
def isMantissa (characters : List Char) : Bool :=
  let whole := characters.takeWhile (· != '.')
  match characters.dropWhile (· != '.') with
  | [] => isWhole whole
  | _ :: decimals => isWhole whole && isDigits decimals

/-- A number without its sign. -/
def isMagnitude (characters : List Char) : Bool :=
  let isMark (character : Char) := character == 'e' || character == 'E'
  let mantissa := characters.takeWhile (!isMark ·)
  match characters.dropWhile (!isMark ·) with
  | [] => isMantissa mantissa
  | _ :: exponent => isMantissa mantissa && isExponent exponent

def isNumber : List Char → Bool
  | '-' :: magnitude => isMagnitude magnitude
  | magnitude => isMagnitude magnitude

def word? (characters : List Char) : Option Token :=
  if characters = ['n', 'u', 'l', 'l'] then some .null
  else if characters = ['t', 'r', 'u', 'e'] then some (.bool true)
  else if characters = ['f', 'a', 'l', 's', 'e'] then some (.bool false)
  else none

def punctuation? : Char → Option Token
  | '[' => some .openArray
  | ']' => some .closeArray
  | '{' => some .openObject
  | '}' => some .closeObject
  | ',' => some .comma
  | ':' => some .colon
  | _ => none

/-- Splits the input after the quote that closes a string.  The characters of
the string are put behind those already seen, which are held in reverse. -/
def scanString (seen : List Char) : List Char → Option (List Char × List Char)
  | [] => none
  | '"' :: rest => some (seen.reverse, rest)
  | '\\' :: 'u' :: first :: second :: third :: fourth :: rest =>
      if (codeUnit? first second third fourth).isSome then
        scanString (fourth :: third :: second :: first :: 'u' :: '\\' :: seen) rest
      else
        none
  | '\\' :: letter :: rest =>
      if (escapedCharacter? letter).isSome then scanString (letter :: '\\' :: seen) rest
      else none
  | character :: rest =>
      if character.toNat < 32 then none else scanString (character :: seen) rest

theorem length_of_scanString {seen input literal rest : List Char}
    (hscan : scanString seen input = some (literal, rest)) : rest.length < input.length := by
  fun_induction scanString seen input <;> simp_all <;> omega

/-- Splits the input into tokens and puts them behind those already seen, which
are held in reverse. -/
def scan (seen : List Token) : List Char → Option (List Token)
  | [] => some seen.reverse
  | character :: rest =>
      if isSpace character then
        scan seen rest
      else if character = '"' then
        match _hscan : scanString [] rest with
        | some (literal, rest) => scan (.string literal :: seen) rest
        | none => none
      else if isNumberCharacter character then
        let literal := character :: rest.takeWhile isNumberCharacter
        if isNumber literal then
          scan (.number literal :: seen) (rest.dropWhile isNumberCharacter)
        else
          none
      else if isWordCharacter character then
        match word? (character :: rest.takeWhile isWordCharacter) with
        | some token => scan (token :: seen) (rest.dropWhile isWordCharacter)
        | none => none
      else
        match punctuation? character with
        | some token => scan (token :: seen) rest
        | none => none
termination_by input => input.length
decreasing_by
  · simp
  · have := length_of_scanString _hscan
    simp only [List.length_cons]
    omega
  · have := (List.dropWhile_sublist isNumberCharacter (l := rest)).length_le
    simp only [List.length_cons]
    omega
  · have := (List.dropWhile_sublist isWordCharacter (l := rest)).length_le
    simp only [List.length_cons]
    omega
  · simp

end MultisigVault.Json
