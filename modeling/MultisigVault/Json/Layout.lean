import MultisigVault.Json.Basic

/-!
# Writing JSON text

A layout says what is written around the parts of a container.  The compact
layout writes nothing, and the indented one puts every part on a line of its own.
Empty containers are never broken up.
-/

namespace MultisigVault.Json

structure Layout where
  /-- What precedes a part at the given depth, and the end of its container. -/
  lineBreak : (depth : Nat) → List Char
  /-- What stands between the colon and the value of a member. -/
  afterColon : List Char

def Layout.compact : Layout :=
  ⟨fun _ => [], []⟩

/-- Two blanks for each level of depth. -/
def Layout.indented : Layout :=
  ⟨fun depth => '\n' :: List.replicate (2 * depth) ' ', [' ']⟩

def quote (literal : List Char) : List Char :=
  '"' :: literal ++ ['"']

mutual

/-- The characters of a value whose container is at the given depth. -/
def characters (layout : Layout) (depth : Nat) : Json → List Char
  | .null => ['n', 'u', 'l', 'l']
  | .bool true => ['t', 'r', 'u', 'e']
  | .bool false => ['f', 'a', 'l', 's', 'e']
  | .number literal => literal
  | .string literal => quote literal
  | .array [] => ['[', ']']
  | .array (item :: rest) =>
      '[' :: layout.lineBreak (depth + 1) ++ characters layout (depth + 1) item ++
        itemCharacters layout (depth + 1) rest ++ layout.lineBreak depth ++ [']']
  | .object [] => ['{', '}']
  | .object ((key, value) :: rest) =>
      '{' :: layout.lineBreak (depth + 1) ++ quote key ++ ':' :: layout.afterColon ++
        characters layout (depth + 1) value ++ memberCharacters layout (depth + 1) rest ++
        layout.lineBreak depth ++ ['}']

/-- The items of an array after the first one. -/
def itemCharacters (layout : Layout) (depth : Nat) : List Json → List Char
  | [] => []
  | item :: rest =>
      ',' :: layout.lineBreak depth ++ characters layout depth item ++
        itemCharacters layout depth rest

/-- The members of an object after the first one. -/
def memberCharacters (layout : Layout) (depth : Nat) : List (List Char × Json) → List Char
  | [] => []
  | (key, value) :: rest =>
      ',' :: layout.lineBreak depth ++ quote key ++ ':' :: layout.afterColon ++
        characters layout depth value ++ memberCharacters layout depth rest

end

/-- The text of a value in a layout. -/
def render (layout : Layout) (value : Json) : String :=
  String.ofList (characters layout 0 value)

end MultisigVault.Json
