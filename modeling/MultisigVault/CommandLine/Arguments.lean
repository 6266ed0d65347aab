import MultisigVault.Address
import MultisigVault.Text.Decimal

/-!
# Command line arguments

The arguments name one of four commands.  Options stand before or after the
name of the command when they apply to every command, and after it otherwise.
An option takes its value from the same argument, behind `=`, or from the next
one, which must not look like an option.  After `--` all arguments are
positional.  No option may be repeated before or after the name, but the value
given after the name wins over the one before it.  The program may also be set by
a variable of the environment, which every option wins over.
-/

namespace MultisigVault.CommandLine

/-- What an argument, possibly with the next one as its value, says. -/
inductive Item where
  | option (name value : String)
  | flag (name : String)
  | positional (value : String)
deriving DecidableEq, Repr

/-- What an argument says when it is looked at alone. -/
inductive Shape where
  | word
  | separator
  | whole (items : List Item)
  /-- The value of the option is the next argument. -/
  | pending (name : String)
  | unknown

/-- Whether an argument looks like an option. -/
def isDashed (argument : String) : Bool :=
  match argument.toList with
  | '-' :: _ :: _ => true
  | _ => false

def shape (options : List String) (argument : String) : Shape :=
  match argument.toList with
  | ['-', '-'] => .separator
  | '-' :: '-' :: long =>
      let name := String.ofList (long.takeWhile (· != '='))
      match long.dropWhile (· != '=') with
      | [] =>
          if name = "verbose" then .whole [.flag name]
          else if options.contains name then .pending name
          else .unknown
      | _ :: value =>
          if options.contains name then .whole [.option name (String.ofList value)] else .unknown
  | '-' :: first :: letters =>
      if (first :: letters).all (· == 'v') then
        .whole ((first :: letters).map fun _ => .flag "verbose")
      else
        .unknown
  | _ => .word

/-- Reads the arguments of a command with the given options. -/
def scan (options : List String) : List String → Option (List Item)
  | [] => some []
  | argument :: rest =>
      match shape options argument with
      | .word => (scan options rest).map (.positional argument :: ·)
      | .separator => some (rest.map .positional)
      | .whole items => (scan options rest).map (items ++ ·)
      | .pending name =>
          match rest with
          | [] => none
          | value :: rest =>
              if isDashed value then none
              else (scan options rest).map (.option name value :: ·)
      | .unknown => none

/-- Reads the arguments in front of the name of the command.  Returns what they
say, the name, and the arguments after it. -/
def scanToName (options : List String) : List String → Option (List Item × String × List String)
  | [] => none
  | argument :: rest =>
      match shape options argument with
      | .word => some ([], argument, rest)
      | .separator => none
      | .whole items =>
          (scanToName options rest).map fun (found, after) => (items ++ found, after)
      | .pending name =>
          match rest with
          | [] => none
          | value :: rest =>
              if isDashed value then none
              else
                (scanToName options rest).map fun (found, after) =>
                  (.option name value :: found, after)
      | .unknown => none

/-- The values given for an option. -/
def values (name : String) (items : List Item) : List String :=
  items.filterMap fun
    | .option other value => if other = name then some value else none
    | _ => none

def positionals (items : List Item) : List String :=
  items.filterMap fun
    | .positional value => some value
    | _ => none

/-- The value of an option that may be left out.  Fails when the option is
repeated or its value is not understood. -/
def optional {Value : Type} (read : String → Option Value) (name : String)
    (items : List Item) : Option (Option Value) :=
  match values name items with
  | [] => some none
  | [value] => (read value).map some
  | _ => none

/-- The value of an option that must be given. -/
def required {Value : Type} (read : String → Option Value) (name : String)
    (items : List Item) : Option Value := do
  let value ← optional read name items
  value

/-- Whether a flag is given.  Fails when it is repeated. -/
def flag (name : String) (items : List Item) : Option Bool :=
  match items.count (.flag name) with
  | 0 => some false
  | 1 => some true
  | _ => none

def readPath (text : String) : Option String :=
  if text.isEmpty then none else some text

def readAddress (text : String) : Option Address :=
  (Address.ofText text).toOption

/-- An integer in digits with an optional sign, that must be below 256. -/
def readByte (text : String) : Option Byte := do
  let (isNegative, digits) :=
    match text.toList with
    | '-' :: digits => (true, digits)
    | '+' :: digits => (false, digits)
    | digits => (false, digits)
  let number ← Numeral.ofDigits? 10 digits
  if number < 256 ∧ (number = 0 ∨ !isNegative) then some (UInt8.ofNat number) else none

/-- A natural number in digits with an optional plus sign, of at most 64 bits. -/
def readIndex (text : String) : Option UInt64 := do
  let digits :=
    match text.toList with
    | '+' :: digits => digits
    | digits => digits
  let number ← Numeral.ofDigits? 10 digits
  if number < UInt64.size then some (UInt64.ofNat number) else none

/-- Options that apply to every command. -/
structure Settings where
  config : Option String
  program : Option Address
  multisig : Option Address
  vaultIndex : Option Byte
  verbose : Bool
deriving DecidableEq, Repr

def Settings.names : List String :=
  ["config", "program-id", "multisig", "vault-index"]

def Settings.ofItems (items : List Item) : Option Settings := do
  return {
    config := ← optional readPath "config" items
    program := ← optional readAddress "program-id" items
    multisig := ← optional readAddress "multisig" items
    vaultIndex := ← optional readByte "vault-index" items
    verbose := ← flag "verbose" items }

/-- Settings with gaps filled by others. -/
def Settings.orElse (settings others : Settings) : Settings :=
  { config := settings.config <|> others.config
    program := settings.program <|> others.program
    multisig := settings.multisig <|> others.multisig
    vaultIndex := settings.vaultIndex <|> others.vaultIndex
    verbose := settings.verbose || others.verbose }

/-- The variable of the environment that may set the program. -/
def programVariable : String := "VAULT_MESSAGE_PROGRAM_ID"

/-- Settings given after the name of a command, with gaps filled by those in front of it and
then by the environment.  The variable is read for each side that sets no program, and has to
be an address even if the other side sets one. -/
def Settings.complete (own front : Settings) (environment : Option String) : Option Settings := do
  let program ←
    if own.program.isSome && front.program.isSome then pure none
    else environment.mapM readAddress
  let settings := own.orElse front
  return { settings with program := settings.program <|> program }

structure CompileOptions where
  instructions : String
  tables : Option String
  vault : Option Address
deriving DecidableEq, Repr

structure ResolveOptions where
  message : String
  tables : Option String
  transactionIndex : Option UInt64
  transaction : Option Address
  ephemeralSigners : Byte
  vault : Option Address
deriving DecidableEq, Repr

structure DeriveOptions where
  transactionIndex : Option UInt64
  ephemeralSigners : Byte
deriving DecidableEq, Repr

inductive Command where
  | compile (options : CompileOptions)
  | decode (message : String)
  | resolve (options : ResolveOptions)
  | derive (options : DeriveOptions)
deriving DecidableEq, Repr

/-- The options of a command besides the settings. -/
def Command.names : String → List String
  | "compile" => ["instructions", "tables", "vault"]
  | "resolve" => ["tables", "transaction-index", "transaction", "ephemeral-signers", "vault"]
  | "derive" => ["transaction-index", "ephemeral-signers"]
  | _ => []

def CompileOptions.ofItems (items : List Item) : Option CompileOptions :=
  match positionals items with
  | [] => do
      return {
        instructions := ← required readPath "instructions" items
        tables := ← optional readPath "tables" items
        vault := ← optional readAddress "vault" items }
  | _ => none

/-- The transaction is given either by its index or by its address. -/
def ResolveOptions.ofItems (items : List Item) : Option ResolveOptions :=
  match positionals items with
  | [message] => do
      let transactionIndex ← optional readIndex "transaction-index" items
      let transaction ← optional readAddress "transaction" items
      let ephemeralSigners ← optional readByte "ephemeral-signers" items
      let options : ResolveOptions := {
        message
        tables := ← optional readPath "tables" items
        transactionIndex
        transaction
        ephemeralSigners := ephemeralSigners.getD 0
        vault := ← optional readAddress "vault" items }
      if transactionIndex.isSome != transaction.isSome then some options else none
  | _ => none

/-- Ephemeral signers belong to a transaction, so they may only be asked for
together with its index. -/
def DeriveOptions.ofItems (items : List Item) : Option DeriveOptions :=
  match positionals items with
  | [] => do
      let transactionIndex ← optional readIndex "transaction-index" items
      let ephemeralSigners ← optional readByte "ephemeral-signers" items
      if ephemeralSigners.isSome && transactionIndex.isNone then none
      else some ⟨transactionIndex, ephemeralSigners.getD 0⟩
  | _ => none

def Command.ofItems (name : String) (items : List Item) : Option Command :=
  match name with
  | "compile" => (CompileOptions.ofItems items).map .compile
  | "decode" =>
      match positionals items with
      | [message] => some (.decode message)
      | _ => none
  | "resolve" => (ResolveOptions.ofItems items).map .resolve
  | "derive" => (DeriveOptions.ofItems items).map .derive
  | _ => none

/-- A command together with the settings it runs under. -/
structure Invocation where
  settings : Settings
  command : Command
deriving DecidableEq, Repr

/-- Reads the arguments after the name of the program.  The environment holds the value of
`programVariable`, if that is set. -/
def Invocation.ofArguments (arguments : List String) (environment : Option String := none) :
    Option Invocation := do
  let (before, name, rest) ← scanToName Settings.names arguments
  let items ← scan (Settings.names ++ Command.names name) rest
  let command ← Command.ofItems name items
  let own ← Settings.ofItems items
  let front ← Settings.ofItems before
  let settings ← own.complete front environment
  return ⟨settings, command⟩

end MultisigVault.CommandLine
