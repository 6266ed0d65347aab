import MultisigVault.Json.Token

/-!
# Reading JSON text

Tokens are assembled into a value one by one.  The containers that are still
open are kept on a stack, so that the depth of nesting is not limited.
-/

namespace MultisigVault.Json

/-- An open container, with what it holds so far in reverse. -/
inductive Frame where
  | array (seen : List Json)
  | object (seen : List (List Char × Json)) (key : List Char)

/-- What may come next. -/
inductive Expected where
  | value
  /-- A value or the end of the array. -/
  | firstItem
  /-- A key or the end of the object. -/
  | firstMember
  | member (seen : List (List Char × Json))
  | colon (seen : List (List Char × Json)) (key : List Char)
  /-- A value is complete; its container goes on or ends. -/
  | after (value : Json)

/-- What is expected, and the open containers from the innermost outwards. -/
abbrev Progress := Expected × List Frame

/-- Takes the first token of a value. -/
def beginValue (stack : List Frame) : Token → Option Progress
  | .null => some (.after .null, stack)
  | .bool value => some (.after (.bool value), stack)
  | .number literal => some (.after (.number literal), stack)
  | .string literal => some (.after (.string literal), stack)
  | .openArray => some (.firstItem, stack)
  | .openObject => some (.firstMember, stack)
  | _ => none

def step (progress : Progress) (token : Token) : Option Progress :=
  match progress, token with
  | (.value, stack), token => beginValue stack token
  | (.firstItem, stack), .closeArray => some (.after (.array []), stack)
  | (.firstItem, stack), token => beginValue (.array [] :: stack) token
  | (.firstMember, stack), .closeObject => some (.after (.object []), stack)
  | (.firstMember, stack), .string key => some (.colon [] key, stack)
  | (.member seen, stack), .string key => some (.colon seen key, stack)
  | (.colon seen key, stack), .colon => some (.value, .object seen key :: stack)
  | (.after value, .array seen :: stack), .comma =>
      some (.value, .array (value :: seen) :: stack)
  | (.after value, .array seen :: stack), .closeArray =>
      some (.after (.array (value :: seen).reverse), stack)
  | (.after value, .object seen key :: stack), .comma =>
      some (.member ((key, value) :: seen), stack)
  | (.after value, .object seen key :: stack), .closeObject =>
      some (.after (.object ((key, value) :: seen).reverse), stack)
  | _, _ => none

/-- The value that a list of tokens spells out. -/
def assemble (tokens : List Token) : Option Json :=
  match tokens.foldlM step (.value, []) with
  | some (.after value, []) => some value
  | _ => none

/-- Reads a text that consists of one value. -/
def parse (text : String) : Option Json :=
  (scan [] text.toList).bind assemble

end MultisigVault.Json
