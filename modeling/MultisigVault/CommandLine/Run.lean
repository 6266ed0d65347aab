import MultisigVault.CommandLine.Arguments
import MultisigVault.Config.Text
import MultisigVault.Execution
import MultisigVault.Records
import MultisigVault.Text.Blank
import MultisigVault.Text.Hex

/-!
# Running commands

A command reads its files, works on them and writes one text.  The configuration
is loaded first, whatever the command; after that the order of the steps decides
which of several failures is reported.
-/

namespace MultisigVault.CommandLine

inductive CommandError where
  | config (error : ConfigError)
  | missingVault (failure : Failure)
  | missingTransaction
  | unreadableFile (path : String) (error : FileError)
  | malformedFile (path : String)
  | invalidHex (error : Hex.HexError)
  | compilation (error : CompileError)
  | storage (error : StoreError)
  | decoding (error : LoadError)
  | resolution (failure : Failure)
  | derivation (error : DerivationError)
  | address (failure : Failure)
deriving DecidableEq, Repr

namespace CommandError

/-- The outermost description of what went wrong. -/
def message : CommandError → String
  | .config error => error.message
  | .missingVault failure =>
      "No vault given and none could be derived from the config: " ++ failure.message
  | .missingTransaction => "Either --transaction or --transaction-index is required"
  | .unreadableFile path error => "Failed to read " ++ path ++ ": " ++ error.message
  | .malformedFile path => "Invalid JSON in " ++ path
  | .invalidHex error => "Message bytes are not valid hex: " ++ error.message
  | .compilation _ => "Failed to compile instructions"
  | .storage error => error.message
  | .decoding _ => "Failed to decode message"
  | .resolution _ => "Failed to resolve execution accounts"
  | .derivation error => error.message
  | .address failure => failure.message

/-- The innermost reason. -/
def cause : CommandError → String
  | .config error => (Failure.config error).cause
  | .unreadableFile _ error => error.message
  | .invalidHex error => error.message
  | .compilation error => error.message
  | .decoding error => error.cause
  | .resolution failure => failure.cause
  | .address failure => failure.cause
  | error => error.message

end CommandError

/-- The file that holds the configuration unless another one is named. -/
def defaultConfigPath : String := "VaultMessage.toml"

/-- The configuration file with the settings of the command line put in. -/
def Settings.configuration (settings : Settings) (files : Files) :
    Except CommandError Config := do
  let config ← (Config.load files (settings.config.getD defaultConfigPath)).mapError .config
  return {
    program := settings.program.getD config.program
    multisig := settings.multisig <|> config.multisig
    vaultIndex := settings.vaultIndex.getD config.vaultIndex }

/-- Reads a JSON array from a file. -/
def readList {Value : Type} (ofItem? : Json → Option Value) (files : Files) (path : String) :
    Except CommandError (List Value) := do
  let text ← (files.readText path).mapError (.unreadableFile path)
  match (Json.parse text).bind (Json.list? ofItem?) with
  | some values => return values
  | none => throw (.malformedFile path)

/-- Reads lookup tables, or none if no file is named. -/
def readTables (files : Files) : Option String → Except CommandError (List LookupTable)
  | none => .ok []
  | some path => readList LookupTable.ofJson? files path

/-- Reads bytes in hexadecimal, with blanks around them and `0x` in front allowed. -/
def readMessageBytes (text : String) : Except CommandError Bytes :=
  let digits :=
    match Text.trim text.toList with
    | '0' :: 'x' :: digits => digits
    | digits => digits
  (Hex.decode (Utf8.encode (String.ofList digits))).mapError .invalidHex

/-- The given vault, or the configured one. -/
def chooseVault (config : Config) : Option Address → Except CommandError Address
  | some vault => .ok vault
  | none => config.vault.mapError .missingVault

/-- The text of a JSON value as a command writes it. -/
def written (json : Json) : String :=
  json.render .indented ++ "\n"

def runCompile (files : Files) (config : Config) (options : CompileOptions) :
    Except CommandError String := do
  let vault ← chooseVault config options.vault
  let instructions ← readList Instruction.ofJson? files options.instructions
  let tables ← readTables files options.tables
  let message ← (Message.compile vault instructions tables).mapError .compilation
  let bytes ← message.store.mapError .storage
  return Hex.encode bytes ++ "\n"

def runDecode (text : String) : Except CommandError String := do
  let bytes ← readMessageBytes text
  let message ← (Message.load bytes).mapError .decoding
  return written message.toJson

/-- The given transaction, or the one with the given index. -/
def chooseTransaction (config : Config) (options : ResolveOptions) :
    Except CommandError Address :=
  match options.transaction, options.transactionIndex with
  | some transaction, _ => .ok transaction
  | none, some index => (config.transaction index).mapError .address
  | none, none => .error .missingTransaction

/-- The accounts and the keys of the tables they come from. -/
def ResolvedAccounts.report (resolved : ResolvedAccounts) : Json :=
  .record
    [("account_metas", .ofList AccountMeta.toJson resolved.accounts),
      ("lookup_tables", .ofList Address.toJson (resolved.tables.map LookupTable.key))]

def runResolve (files : Files) (config : Config) (options : ResolveOptions) :
    Except CommandError String := do
  let transaction ← chooseTransaction config options
  let vault ← chooseVault config options.vault
  let context : ExecutionContext :=
    { program := config.program
      transaction
      vault
      ephemeralSigners := options.ephemeralSigners }
  let tables ← readTables files options.tables
  let bytes ← readMessageBytes options.message
  let resolved ← (Message.resolveStored bytes (TableStore.ofList tables).source context).value
    |>.mapError .resolution
  return written (ResolvedAccounts.report resolved)

/-- The addresses that belong to a configuration and possibly a transaction. -/
structure DerivedAddresses where
  program : Address
  multisig : Address
  vault : Address
  transaction : Option Address
  ephemeralSigners : List Address
deriving DecidableEq, Repr

/-- What does not exist is left out. -/
def DerivedAddresses.toJson (derived : DerivedAddresses) : Json :=
  .record
    ([("program_id", derived.program.toJson),
      ("multisig", derived.multisig.toJson),
      ("vault", derived.vault.toJson)] ++
    (derived.transaction.map fun transaction => ("transaction", transaction.toJson)).toList ++
    if derived.ephemeralSigners.isEmpty then []
    else [("ephemeral_signers", .ofList Address.toJson derived.ephemeralSigners)])

def derive (config : Config) (options : DeriveOptions) :
    Except CommandError DerivedAddresses := do
  let multisig ← config.requireMultisig.mapError .config
  let transaction ← options.transactionIndex.mapM fun index =>
    ((DerivationScheme.standard.transaction multisig index config.program).map Prod.fst).mapError
      CommandError.derivation
  let ephemeralSigners ←
    match transaction with
    | some transaction =>
        (DerivationScheme.standard.ephemeralSigners transaction options.ephemeralSigners
          config.program).mapError .derivation
    | none => pure []
  let vault ← config.vault.mapError .address
  return {
    program := config.program
    multisig
    vault
    transaction
    ephemeralSigners }

/-- Runs a command and returns what it writes. -/
def run (files : Files) (invocation : Invocation) : Except CommandError String := do
  let config ← invocation.settings.configuration files
  match invocation.command with
  | .compile options => runCompile files config options
  | .decode message => runDecode message
  | .resolve options => runResolve files config options
  | .derive options => return written (← derive config options).toJson

end MultisigVault.CommandLine
