import MultisigVault.Derivation.Basic
import MultisigVault.Files

/-!
# Configuration

The configuration names the program, the multisig and the vault to work with.
Without a multisig no address can be derived.
-/

namespace MultisigVault

structure Config where
  program : Address
  multisig : Option Address
  vaultIndex : Byte
deriving DecidableEq, Repr

inductive ConfigError where
  | unreadable (path : String) (error : FileError)
  | malformed
  | missingMultisig
deriving DecidableEq, Repr

def ConfigError.message : ConfigError → String
  | .unreadable path error => "failed to read config " ++ path ++ ": " ++ error.message
  | .malformed => "failed to parse config"
  | .missingMultisig => "config has no multisig address"

namespace Config

/-- Stands in for the program when none is configured: the ASCII bytes of
`vault-message-placeholder-progid`. -/
def defaultProgram : Address :=
  ⟨[0x76, 0x61, 0x75, 0x6c, 0x74, 0x2d, 0x6d, 0x65, 0x73, 0x73, 0x61, 0x67, 0x65, 0x2d, 0x70,
    0x6c, 0x61, 0x63, 0x65, 0x68, 0x6f, 0x6c, 0x64, 0x65, 0x72, 0x2d, 0x70, 0x72, 0x6f, 0x67,
    0x69, 0x64], rfl⟩

def default : Config :=
  ⟨defaultProgram, none, 0⟩

instance : Inhabited Config := ⟨default⟩

def requireMultisig (config : Config) : Except ConfigError Address :=
  match config.multisig with
  | some multisig => .ok multisig
  | none => .error .missingMultisig

end Config

end MultisigVault
