/-!
# TOML documents

A document is a tree of tables.  A table may be opened once by a header, may be
implied by the header of a table inside it, or may be made by dotted keys, and
how it came about decides what may be added to it later.  A key is given a value
only once.

A table may also be written inline, as a value.  It is complete where it ends,
but up to the end of the outermost inline table dotted keys may still add to the
ones inside it.
-/

namespace MultisigVault.Toml

/-- Items under names, in the order in which they were given. -/
abbrev Named (Item : Type) := List (String × Item)

namespace Named

variable {Item : Type}

def get? (items : Named Item) (key : String) : Option Item :=
  (items.find? fun entry => entry.1 == key).map Prod.snd

/-- Puts an item under a key, in place of the one that is there or at the end. -/
def set (items : Named Item) (key : String) (item : Item) : Named Item :=
  if items.any fun entry => entry.1 == key then
    items.map fun entry => if entry.1 == key then (key, item) else entry
  else
    items ++ [(key, item)]

end Named

/-- A value.  Only texts, integers and inline tables are told apart from all
others. -/
inductive Value where
  | text (value : String)
  | integer (value : Int)
  | inlineTable (members : List (String × Value))
  | other
deriving Repr

/-- Gives a member of an inline table its value.  On the way to it, tables are made
or added to. -/
def Value.assign (value : Value) : (path : List String) → Named Value → Option (Named Value)
  | [], _ => none
  | [key], members =>
      if (members.get? key).isNone then some (members.set key value) else none
  | key :: path, members =>
      match members.get? key with
      | none => do
          return members.set key (.inlineTable (← assign value path []))
      | some (.inlineTable inner) => do
          return members.set key (.inlineTable (← assign value path inner))
      | some _ => none

/-- How a table came about. -/
inductive Origin where
  | header
  | implied
  | dotted
deriving DecidableEq, Repr

inductive Node where
  | leaf (value : Value)
  | table (origin : Origin) (entries : List (String × Node))
  /-- An array of tables, of which only the last one can still grow. -/
  | series (last : List (String × Node))
deriving Repr

abbrev Entries := Named Node

namespace Entries

/-- Changes the table at a path of headers, and implies the tables on the way. -/
def within (change : Entries → Option Entries) : (path : List String) → Entries → Option Entries
  | [], entries => change entries
  | key :: path, entries =>
      match entries.get? key with
      | none => do
          return entries.set key (.table .implied (← within change path []))
      | some (.table origin inner) => do
          return entries.set key (.table origin (← within change path inner))
      | some (.series last) => do
          return entries.set key (.series (← within change path last))
      | some (.leaf _) => none

/-- Opens a table by its header. -/
def openTable (key : String) (entries : Entries) : Option Entries :=
  match entries.get? key with
  | none => some (entries.set key (.table .header []))
  | some (.table .implied inner) => some (entries.set key (.table .header inner))
  | _ => none

/-- Opens another table of an array of tables. -/
def openElement (key : String) (entries : Entries) : Option Entries :=
  match entries.get? key with
  | none | some (.series _) => some (entries.set key (.series []))
  | _ => none

/-- Gives a dotted key its value.  Values go into the table that is open and into
tables made by dotted keys, of which `isOpen` tells whether this is one. -/
def assign (value : Value) (isOpen : Bool) : (path : List String) → Entries → Option Entries
  | [], _ => none
  | [key], entries =>
      if isOpen && (entries.get? key).isNone then some (entries.set key (.leaf value)) else none
  | key :: path, entries =>
      match entries.get? key with
      | none => do
          return entries.set key (.table .dotted (← assign value true path []))
      | some (.table .dotted inner) => do
          return entries.set key (.table .dotted (← assign value true path inner))
      | some (.table .implied inner) => do
          return entries.set key (.table .implied (← assign value false path inner))
      | some (.series last) => do
          return entries.set key (.series (← assign value false path last))
      | some (.table .header _) | some (.leaf _) => none

end Entries

end MultisigVault.Toml
