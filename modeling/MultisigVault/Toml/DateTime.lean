import MultisigVault.Text.Decimal

/-!
# Dates and times of TOML text

A date, a time, or a date followed by a time and possibly its offset from
universal time.  Nothing is configured by a date, so each scanner only returns
the input that follows.
-/

namespace MultisigVault.Toml

/-- Removes a character that has to come next. -/
def expect (character : Char) : List Char → Option (List Char)
  | next :: rest => if next = character then some rest else none
  | [] => none

/-- Removes exactly `width` digits, which denote a number between two bounds. -/
def digitsBetween (width low high : Nat) (input : List Char) : Option (List Char) := do
  let digits := input.take width
  let number ← Numeral.ofDigits? 10 digits
  if digits.length = width ∧ low ≤ number ∧ number ≤ high then some (input.drop width) else none

/-- A year, a month and a day, separated by dashes.  Every month may have 31 days. -/
def date (input : List Char) : Option (List Char) := do
  let rest ← digitsBetween 4 0 9999 input
  let rest ← digitsBetween 2 1 12 (← expect '-' rest)
  digitsBetween 2 1 31 (← expect '-' rest)

/-- An hour and a minute, separated by a colon. -/
def hourAndMinute (input : List Char) : Option (List Char) := do
  let rest ← digitsBetween 2 0 23 input
  digitsBetween 2 0 59 (← expect ':' rest)

/-- A time of day.  Seconds are required and may have decimals. -/
def time (input : List Char) : Option (List Char) := do
  let rest ← hourAndMinute input
  let rest ← digitsBetween 2 0 60 (← expect ':' rest)
  match rest with
  | '.' :: digit :: decimals =>
      if Decimal.isDigit digit then return decimals.dropWhile Decimal.isDigit else return rest
  | _ => return rest

/-- The offset behind a time, if there is one. -/
def offset : List Char → Option (List Char)
  | 'Z' :: rest | 'z' :: rest => some rest
  | '+' :: rest | '-' :: rest => hourAndMinute rest
  | _ => none

/-- A date, a time or both.  Between them stands a letter or a blank. -/
def dateTime (input : List Char) : Option (List Char) :=
  match date input with
  | none => time input
  | some rest =>
      match rest with
      | 'T' :: after | 't' :: after | ' ' :: after =>
          match time after with
          | some rest => some ((offset rest).getD rest)
          | none => some rest
      | _ => some rest

end MultisigVault.Toml
