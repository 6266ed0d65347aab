import MultisigVault.Config.Basic
import MultisigVault.Instruction
import MultisigVault.Json.Layout
import MultisigVault.Json.Reader
import MultisigVault.Message.Basic

/-!
# JSON forms

Each type has one written form, an object whose fields stand in a fixed order.
Reading is more generous: fields may come in any order, fields of other names are
skipped, and the values may also be listed in an array in that fixed order.  No
field may occur twice.
-/

namespace MultisigVault

namespace Json

/-- The values of the named fields, where `none` stands for a missing one. -/
def fields (names : List String) : Json → Option (List (Option Json))
  | .array items =>
      if items.length ≤ names.length then
        some (items.map some ++ List.replicate (names.length - items.length) none)
      else
        none
  | .object members => do
      let members ← members.mapM fun member => do
        return (String.ofList (← unescape member.1), member.2)
      names.mapM fun name =>
        match members.filter fun member => member.1 == name with
        | [] => some none
        | [member] => some (some member.2)
        | _ => none
  | _ => none

/-- The values of the named fields, none of which may be missing. -/
def requiredFields (names : List String) (json : Json) : Option (List Json) := do
  let values ← json.fields names
  values.mapM id

/-- An object with the given fields. -/
def record (members : List (String × Json)) : Json :=
  .object (members.map fun member => (escape member.1.toList, member.2))

def ofList {Value : Type} (ofValue : Value → Json) (values : List Value) : Json :=
  .array (values.map ofValue)

/-- Reads an array whose items are all of one kind. -/
def list? {Value : Type} (ofItem? : Json → Option Value) (json : Json) :
    Option (List Value) := do
  let items ← json.items?
  items.mapM ofItem?

def ofByte (byte : Byte) : Json :=
  .ofNat byte.toNat

def byte? (json : Json) : Option Byte := do
  let number ← json.nat?
  if number < 256 then some (UInt8.ofNat number) else none

def ofBytes (bytes : Bytes) : Json :=
  ofList ofByte bytes

def bytes? (json : Json) : Option Bytes :=
  json.list? byte?

end Json

open Json

namespace Address

def toJson (address : Address) : Json :=
  .ofText address.text

def ofJson? (json : Json) : Option Address := do
  (ofText (← json.text?)).toOption

end Address

namespace AccountMeta

def toJson (account : AccountMeta) : Json :=
  record
    [("pubkey", account.address.toJson),
      ("is_signer", .bool account.isSigner),
      ("is_writable", .bool account.isWritable)]

def ofJson? (json : Json) : Option AccountMeta :=
  match json.requiredFields ["pubkey", "is_signer", "is_writable"] with
  | some [address, isSigner, isWritable] => do
      return ⟨← Address.ofJson? address, ← isSigner.bool?, ← isWritable.bool?⟩
  | _ => none

end AccountMeta

namespace Instruction

def toJson (instruction : Instruction) : Json :=
  record
    [("program_id", instruction.program.toJson),
      ("accounts", ofList AccountMeta.toJson instruction.accounts),
      ("data", ofBytes instruction.data)]

def ofJson? (json : Json) : Option Instruction :=
  match json.requiredFields ["program_id", "accounts", "data"] with
  | some [program, accounts, data] => do
      return ⟨← Address.ofJson? program, ← accounts.list? AccountMeta.ofJson?, ← data.bytes?⟩
  | _ => none

end Instruction

namespace LookupTable

def toJson (table : LookupTable) : Json :=
  record
    [("key", table.key.toJson),
      ("addresses", ofList Address.toJson table.addresses)]

def ofJson? (json : Json) : Option LookupTable :=
  match json.requiredFields ["key", "addresses"] with
  | some [key, addresses] => do
      return ⟨← Address.ofJson? key, ← addresses.list? Address.ofJson?⟩
  | _ => none

end LookupTable

namespace CompiledInstruction

def toJson (instruction : CompiledInstruction) : Json :=
  record
    [("program_id_index", ofByte instruction.programIndex),
      ("account_indexes", ofBytes instruction.accountIndexes),
      ("data", ofBytes instruction.data)]

def ofJson? (json : Json) : Option CompiledInstruction :=
  match json.requiredFields ["program_id_index", "account_indexes", "data"] with
  | some [programIndex, accountIndexes, data] => do
      return ⟨← programIndex.byte?, ← accountIndexes.bytes?, ← data.bytes?⟩
  | _ => none

end CompiledInstruction

namespace TableLookup

def toJson (lookup : TableLookup) : Json :=
  record
    [("account_key", lookup.table.toJson),
      ("writable_indexes", ofBytes lookup.writableIndexes),
      ("readonly_indexes", ofBytes lookup.readonlyIndexes)]

def ofJson? (json : Json) : Option TableLookup :=
  match json.requiredFields ["account_key", "writable_indexes", "readonly_indexes"] with
  | some [table, writableIndexes, readonlyIndexes] => do
      return ⟨← Address.ofJson? table, ← writableIndexes.bytes?, ← readonlyIndexes.bytes?⟩
  | _ => none

end TableLookup

namespace Message

def fieldNames : List String :=
  ["num_signers", "num_writable_signers", "num_writable_non_signers", "account_keys",
    "instructions", "address_table_lookups"]

def toJson (message : Message) : Json :=
  record
    [("num_signers", ofByte message.signers),
      ("num_writable_signers", ofByte message.writableSigners),
      ("num_writable_non_signers", ofByte message.writableNonSigners),
      ("account_keys", ofList Address.toJson message.staticKeys),
      ("instructions", ofList CompiledInstruction.toJson message.instructions),
      ("address_table_lookups", ofList TableLookup.toJson message.lookups)]

def ofJson? (json : Json) : Option Message :=
  match json.requiredFields fieldNames with
  | some [signers, writableSigners, writableNonSigners, staticKeys, instructions, lookups] => do
      return {
        signers := ← signers.byte?
        writableSigners := ← writableSigners.byte?
        writableNonSigners := ← writableNonSigners.byte?
        staticKeys := ← staticKeys.list? Address.ofJson?
        instructions := ← instructions.list? CompiledInstruction.ofJson?
        lookups := ← lookups.list? TableLookup.ofJson? }
  | _ => none

end Message

namespace Config

def fieldNames : List String :=
  ["program_id", "multisig", "vault_index"]

def toJson (config : Config) : Json :=
  record
    [("program_id", config.program.toJson),
      ("multisig", (config.multisig.map Address.toJson).getD .null),
      ("vault_index", ofByte config.vaultIndex)]

/-- The value of a field that keeps its default when it is missing. -/
def fieldOr {Value : Type} (default : Value) (ofJson? : Json → Option Value) :
    Option Json → Option Value
  | none => some default
  | some json => ofJson? json

/-- An address, or `null` for none. -/
def optionalAddress? : Json → Option (Option Address)
  | .null => some none
  | json => (Address.ofJson? json).map some

def ofJson? (json : Json) : Option Config :=
  match json.fields fieldNames with
  | some [program, multisig, vaultIndex] => do
      return {
        program := ← fieldOr default.program Address.ofJson? program
        multisig := ← fieldOr default.multisig optionalAddress? multisig
        vaultIndex := ← fieldOr default.vaultIndex Json.byte? vaultIndex }
  | _ => none

end Config

end MultisigVault
