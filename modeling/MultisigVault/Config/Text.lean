import MultisigVault.Config.Basic
import MultisigVault.Toml.Reader

/-!
# Configuration files

A configuration is a TOML document.  Fields that are not given keep their
defaults, and fields of other names are skipped.  A file that does not exist is
the same as an empty one.
-/

namespace MultisigVault.Config

/-- An address given as a text. -/
def addressOfToml? : Toml.Node → Option Address
  | .leaf (.text text) => (Address.ofText text).toOption
  | _ => none

/-- A number below 256. -/
def byteOfToml? : Toml.Node → Option Byte
  | .leaf (.integer number) =>
      if 0 ≤ number ∧ number < 256 then some (UInt8.ofNat number.toNat) else none
  | _ => none

/-- The value at a key, or its default if there is none. -/
def entryOr {Value : Type} (default : Value) (ofNode? : Toml.Node → Option Value)
    (entries : Toml.Entries) (key : String) : Option Value :=
  match entries.get? key with
  | none => some default
  | some node => ofNode? node

/-- Reads the text of a configuration. -/
def ofText (text : String) : Except ConfigError Config :=
  let config? : Option Config := do
    let entries ← Toml.parse text
    return {
      program := ← entryOr default.program addressOfToml? entries "program_id"
      multisig := ← entryOr default.multisig (fun node => (addressOfToml? node).map some)
        entries "multisig"
      vaultIndex := ← entryOr default.vaultIndex byteOfToml? entries "vault_index" }
  match config? with
  | some config => .ok config
  | none => .error .malformed

/-- Reads the configuration at a path. -/
def load (files : Files) (path : String) : Except ConfigError Config :=
  if files.isPresent path then
    match files.readText path with
    | .ok text => ofText text
    | .error error => .error (.unreadable path error)
  else
    .ok default

end MultisigVault.Config
