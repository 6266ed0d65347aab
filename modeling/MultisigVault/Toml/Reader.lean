import MultisigVault.Toml.Basic
import MultisigVault.Toml.DateTime
import MultisigVault.Toml.Number
import MultisigVault.Toml.Quoted

/-!
# Reading TOML text

A text is a sequence of lines that give a key its value or open a table.  Strings
and arrays may go on over several lines.

Arrays and inline tables may stand in one another, and the parts of a key may be
joined by dots, up to a fixed limit.
-/

namespace MultisigVault.Toml

/-- The greatest depth of arrays and inline tables, and of tables under one key. -/
def depthLimit : Nat := 127

def skipSpaces (input : List Char) : List Char :=
  input.dropWhile isSpace

/-- Removes a comment, up to the end of its line. -/
def skipComment : List Char → List Char
  | '#' :: rest => rest.dropWhile isPlain
  | input => input

/-- Removes a line end. -/
def lineEnd? : List Char → Option (List Char)
  | '\n' :: rest => some rest
  | '\r' :: '\n' :: rest => some rest
  | _ => none

/-- Removes one line end if there is any. -/
def skipLineEnd (input : List Char) : List Char :=
  (lineEnd? input).getD input

/-- Removes blanks, comments and line ends, at most `fuel` lines of them. -/
def skipLines : (fuel : Nat) → List Char → List Char
  | 0, input => input
  | fuel + 1, input =>
      let input := skipComment (skipSpaces input)
      match lineEnd? input with
      | some rest => skipLines fuel rest
      | none => input

/-- A part of a dotted key: a bare word, or a string on one line. -/
def keyPart : List Char → Option (String × List Char)
  | '"' :: rest => (basicString [] rest).map fun (text, rest) => (String.ofList text, rest)
  | '\'' :: rest => (literalString [] rest).map fun (text, rest) => (String.ofList text, rest)
  | input =>
      let word := input.takeWhile isBareKeyCharacter
      if word.isEmpty then none else some (String.ofList word, input.dropWhile isBareKeyCharacter)

/-- At most `limit` parts of a key, separated by dots, and the blanks after them. -/
def keyParts : (limit : Nat) → List Char → Option (List String × List Char)
  | 0, _ => none
  | limit + 1, input => do
      let (part, rest) ← keyPart (skipSpaces input)
      match skipSpaces rest with
      | '.' :: rest => do
          let (parts, rest) ← keyParts limit rest
          return (part :: parts, rest)
      | rest => return ([part], rest)

/-- A key and the blanks after it. -/
def dottedKey (input : List Char) : Option (List String × List Char) :=
  keyParts depthLimit input

/-- Characters of numbers and truth values. -/
def isAtomCharacter (character : Char) : Bool :=
  isBareKeyCharacter character || character == '+' || character == '.'

/-- The value of a number or a word.  Integers have 64 bits. -/
def atom? (characters : List Char) : Option Value :=
  if String.ofList characters = "true" || String.ofList characters = "false" then some .other
  else
    match integer? characters with
    | some number =>
        if -0x8000000000000000 ≤ number ∧ number ≤ 0x7FFFFFFFFFFFFFFF then some (.integer number)
        else none
    | none => if isFloat characters then some .other else none

mutual

/-- A value inside `depth` arrays and inline tables. -/
def value (depth : Nat) : (fuel : Nat) → List Char → Option (Value × List Char)
  | 0, _ => none
  | fuel + 1, input =>
      match input with
      | '"' :: '"' :: '"' :: rest =>
          (basicLines .text [] (skipLineEnd rest)).map fun (text, rest) =>
            (.text (String.ofList text), rest)
      | '\'' :: '\'' :: '\'' :: rest =>
          (literalLines [] (skipLineEnd rest)).map fun (text, rest) =>
            (.text (String.ofList text), rest)
      | '"' :: rest =>
          (basicString [] rest).map fun (text, rest) => (.text (String.ofList text), rest)
      | '\'' :: rest =>
          (literalString [] rest).map fun (text, rest) => (.text (String.ofList text), rest)
      | '[' :: rest => if depth < depthLimit then items (depth + 1) fuel rest else none
      | '{' :: rest =>
          if depth < depthLimit then
            match skipSpaces rest with
            | '}' :: rest => some (.inlineTable [], rest)
            | rest => members (depth + 1) [] fuel rest
          else none
      | input =>
          match dateTime input with
          | some rest => some (.other, rest)
          | none => do
              let value ← atom? (input.takeWhile isAtomCharacter)
              return (value, input.dropWhile isAtomCharacter)

/-- The items of an array up to its end, possibly with a comma after the last. -/
def items (depth : Nat) : (fuel : Nat) → List Char → Option (Value × List Char)
  | 0, _ => none
  | fuel + 1, input =>
      match skipLines input.length input with
      | ']' :: rest => some (.other, rest)
      | input => do
          let (_, rest) ← value depth fuel input
          match skipLines rest.length rest with
          | ']' :: rest => some (.other, rest)
          | ',' :: rest => items depth fuel rest
          | _ => none

/-- The members of an inline table up to its end, on one line.  They are added to
those already seen. -/
def members (depth : Nat) (seen : Named Value) :
    (fuel : Nat) → List Char → Option (Value × List Char)
  | 0, _ => none
  | fuel + 1, input => do
      let (key, rest) ← dottedKey input
      match rest with
      | '=' :: rest =>
          let (member, rest) ← value depth fuel (skipSpaces rest)
          let seen ← member.assign key seen
          match skipSpaces rest with
          | '}' :: rest => some (.inlineTable seen, rest)
          | ',' :: rest => members depth seen fuel rest
          | _ => none
      | _ => none

end

/-- The root table, and the path of the table that is open. -/
structure Document where
  root : Entries
  path : List String

/-- Reads what a line has to say. -/
def statement (document : Document) : List Char → Option (Document × List Char)
  | '[' :: '[' :: rest => do
      let (path, rest) ← dottedKey rest
      match rest, path.getLast? with
      | ']' :: ']' :: rest, some key =>
          let root ← document.root.within (Entries.openElement key) path.dropLast
          return (⟨root, path⟩, rest)
      | _, _ => none
  | '[' :: rest => do
      let (path, rest) ← dottedKey rest
      match rest, path.getLast? with
      | ']' :: rest, some key =>
          let root ← document.root.within (Entries.openTable key) path.dropLast
          return (⟨root, path⟩, rest)
      | _, _ => none
  | input => do
      let (key, rest) ← dottedKey input
      match rest with
      | '=' :: rest =>
          let (given, rest) ← value 0 rest.length (skipSpaces rest)
          let root ← document.root.within (Entries.assign given true key) document.path
          return (⟨root, document.path⟩, rest)
      | _ => none

/-- Reads lines up to the end of the text. -/
def lines (document : Document) : (fuel : Nat) → List Char → Option Document
  | 0, _ => none
  | fuel + 1, input =>
      match skipLines input.length input with
      | [] => some document
      | input => do
          let (document, rest) ← statement document input
          match skipComment (skipSpaces rest) with
          | [] => some document
          | rest => do lines document fuel (← lineEnd? rest)

/-- Reads a text into its root table. -/
def parse (text : String) : Option Entries :=
  let input := text.toList
  let input := if input.head? = some '\uFEFF' then input.drop 1 else input
  (lines ⟨[], []⟩ (input.length + 1) input).map Document.root

end MultisigVault.Toml
