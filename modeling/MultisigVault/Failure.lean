import MultisigVault.Compilation
import MultisigVault.Config.Basic
import MultisigVault.Message.Storage
import MultisigVault.Resolution

/-!
# Failures of work on the network

Compiling and resolving against live lookup tables can fail at every step.  Only
the failures that the state of the network causes may go away when the tables are
fetched again.
-/

namespace MultisigVault

inductive Failure where
  | compile (error : CompileError)
  | load (error : LoadError)
  | resolve (error : ResolveError)
  | fetch (reason : String)
  | lookupTable (error : LookupTableError)
  | derivation (error : DerivationError)
  | config (error : ConfigError)
deriving DecidableEq, Repr

namespace Failure

def message : Failure → String
  | .compile error => error.message
  | .load error => error.message
  | .resolve error => error.message
  | .fetch reason => "fetch failed: " ++ reason
  | .lookupTable error => "invalid lookup table account: " ++ error.message
  | .derivation error => "address derivation failed: " ++ error.message
  | .config error => error.message

/-- The innermost reason, without the introductions that `message` puts in front. -/
def cause : Failure → String
  | .load error => error.cause
  | .lookupTable error => error.message
  | .derivation error => error.message
  | .config (.unreadable _ error) => error.message
  | failure => failure.message

/-- Whether fetching the tables again may help. -/
def isRetriable : Failure → Bool
  | .resolve _ | .fetch _ | .lookupTable _ => true
  | .compile _ | .load _ | .derivation _ | .config _ => false

end Failure

namespace Config

/-- The configured vault. -/
def vault (config : Config) : Except Failure Address := do
  let multisig ← config.requireMultisig.mapError .config
  let (address, _) ←
    (DerivationScheme.standard.vault multisig config.vaultIndex config.program).mapError
      .derivation
  return address

/-- The account that stores the transaction with the given index. -/
def transaction (config : Config) (index : UInt64) : Except Failure Address := do
  let multisig ← config.requireMultisig.mapError .config
  let (address, _) ←
    (DerivationScheme.standard.transaction multisig index config.program).mapError .derivation
  return address

end Config

end MultisigVault
