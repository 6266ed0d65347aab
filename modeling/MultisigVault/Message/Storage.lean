import MultisigVault.Message.WellFormed
import MultisigVault.Wire.Codec

/-!
# Stored messages

The stored form of a message is its fields in order.  Every list has a one-byte
count except instruction data, whose count takes two bytes.  Writing fails on a
list that is too long for its count, and reading accepts only well-formed
messages that take up all bytes.
-/

namespace MultisigVault

/-- The lists of a message that have a limited length. -/
inductive ListField where
  | staticKeys
  | instructions
  | lookups
  | accountIndexes
  | data
  | writableIndexes
  | readonlyIndexes
deriving DecidableEq, Repr

/-- The name under which a list is shown to the user. -/
def ListField.name : ListField → String
  | .staticKeys => "account_keys"
  | .instructions => "instructions"
  | .lookups => "address_table_lookups"
  | .accountIndexes => "account_indexes"
  | .data => "data"
  | .writableIndexes => "writable_indexes"
  | .readonlyIndexes => "readonly_indexes"

/-- Number of bytes that count the elements of a list. -/
def ListField.countWidth : ListField → Nat
  | .data => 2
  | _ => 1

def ListField.limit (field : ListField) : Nat :=
  Wire.countLimit field.countWidth

/-- A message that has no stored form. -/
inductive StoreError where
  | lengthOverflow (field : ListField) (length : Nat)
  | wire (error : Wire.WireError)
deriving DecidableEq, Repr

def StoreError.message : StoreError → String
  | .lengthOverflow field length =>
      field.name ++ " holds " ++ toString length ++ " elements, more than the " ++
        toString field.limit ++ " its length prefix allows"
  | .wire error => "failed to encode message: " ++ error.message

/-- Bytes that are not the stored form of a well-formed message. -/
inductive LoadError where
  | wire (error : Wire.WireError)
  | form (error : FormError)
deriving DecidableEq, Repr

/-- What is wrong, without the introduction that `message` puts in front. -/
def LoadError.cause : LoadError → String
  | .wire error => error.message
  | .form error => error.message

def LoadError.message (error : LoadError) : String :=
  "corrupt message: " ++ error.cause

open Wire

def CompiledInstruction.codec : Codec CompiledInstruction :=
  (Codec.byte.pair
      ((Codec.counted ListField.accountIndexes.countWidth Codec.byte).pair
        (Codec.counted ListField.data.countWidth Codec.byte))).via
    (fun fields => ⟨fields.1, fields.2.1, fields.2.2⟩)
    (fun instruction =>
      (instruction.programIndex, instruction.accountIndexes, instruction.data))

def TableLookup.codec : Codec TableLookup :=
  (Codec.address.pair
      ((Codec.counted ListField.writableIndexes.countWidth Codec.byte).pair
        (Codec.counted ListField.readonlyIndexes.countWidth Codec.byte))).via
    (fun fields => ⟨fields.1, fields.2.1, fields.2.2⟩)
    (fun lookup => (lookup.table, lookup.writableIndexes, lookup.readonlyIndexes))

namespace Message

def codec : Codec Message :=
  (Codec.byte.pair (Codec.byte.pair (Codec.byte.pair
      ((Codec.counted ListField.staticKeys.countWidth Codec.address).pair
        ((Codec.counted ListField.instructions.countWidth CompiledInstruction.codec).pair
          (Codec.counted ListField.lookups.countWidth TableLookup.codec)))))).via
    (fun fields =>
      ⟨fields.1, fields.2.1, fields.2.2.1, fields.2.2.2.1, fields.2.2.2.2.1, fields.2.2.2.2.2⟩)
    (fun message =>
      (message.signers, message.writableSigners, message.writableNonSigners,
        message.staticKeys, message.instructions, message.lookups))

/-- Every list of a message with its length: first the three lists of the
message itself, then those of each instruction, then those of each lookup. -/
def listLengths (message : Message) : List (ListField × Nat) :=
  [(.staticKeys, message.staticKeys.length),
    (.instructions, message.instructions.length),
    (.lookups, message.lookups.length)] ++
  message.instructions.flatMap (fun instruction =>
    [(.accountIndexes, instruction.accountIndexes.length),
      (.data, instruction.data.length)]) ++
  message.lookups.flatMap fun lookup =>
    [(.writableIndexes, lookup.writableIndexes.length),
      (.readonlyIndexes, lookup.readonlyIndexes.length)]

/-- The bytes under which a message is stored.  The first list that is too long
is reported. -/
def store (message : Message) : Except StoreError Bytes :=
  match message.listLengths.find? fun entry => entry.1.limit < entry.2 with
  | some (field, length) => .error (.lengthOverflow field length)
  | none => (codec.encode message).mapError .wire

/-- Reads a stored message.  Bytes that are left over are reported before a rule
of well-formed messages that is broken. -/
def load (bytes : Bytes) : Except LoadError Message :=
  match codec.decodeAll bytes with
  | .error error => .error (.wire error)
  | .ok message =>
      match message.checkForm with
      | .error error => .error (.form error)
      | .ok () => .ok message

end Message

end MultisigVault
