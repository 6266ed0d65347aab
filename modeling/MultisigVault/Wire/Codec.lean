import MultisigVault.Address

/-!
# Wire codecs

A codec writes a value as bytes and reads one value off the front of a byte
string, returning the bytes it did not need.  Composite codecs are built from
those of their parts, so that the laws of the parts carry over to the whole.

No field is padded or tagged.  A list is preceded by the number of its elements,
least significant byte first, and the width of that count is part of the codec.
-/

namespace MultisigVault.Wire

inductive WireError where
  /-- The bytes end before the value does. -/
  | endOfInput
  /-- The value ends before the bytes do. -/
  | leftover
  /-- A truth value is neither zero nor one. -/
  | invalidBool (byte : Byte)
  /-- A list has more elements than its count can express. -/
  | tooManyElements (length limit : Nat)
  /-- The place the bytes come from or go to has failed. -/
  | external (reason : String)
deriving DecidableEq, Repr

def WireError.message : WireError → String
  | .endOfInput => "Unexpected length of input"
  | .leftover => "Not all bytes read"
  | .invalidBool byte => "Invalid bool representation: " ++ toString byte.toNat
  | .tooManyElements length limit =>
      toString length ++ " elements exceed the length prefix maximum of " ++ toString limit
  | .external reason => reason

/-- Reads a value off the front of the input and returns what follows it. -/
abbrev Reader (Value : Type) := Bytes → Except WireError (Value × Bytes)

structure Codec (Value : Type) where
  encode : Value → Except WireError Bytes
  decode : Reader Value

/-- Reads exactly `width` bytes. -/
def readBytes (width : Nat) : Reader Bytes := fun input =>
  if (input.take width).length = width then .ok (input.take width, input.drop width)
  else .error .endOfInput

/-- Reads `count` values and puts them behind those already seen, which are held
in reverse. -/
def readMany {Value : Type} (read : Reader Value) :
    (count : Nat) → (seen : List Value) → Reader (List Value)
  | 0, seen, input => .ok (seen.reverse, input)
  | count + 1, seen, input =>
      match read input with
      | .ok (value, rest) => readMany read count (value :: seen) rest
      | .error error => .error error

/-- The largest number of elements a count of `width` bytes can express. -/
def countLimit (width : Nat) : Nat :=
  Bytes.capacity width - 1

namespace Codec

variable {Value Left Right : Type}

def byte : Codec Byte where
  encode value := .ok [value]
  decode
    | [] => .error .endOfInput
    | value :: rest => .ok (value, rest)

/-- A truth value is one byte, zero or one. -/
def bool : Codec Bool where
  encode value := .ok [if value then 1 else 0]
  decode
    | [] => .error .endOfInput
    | value :: rest =>
        if value = 0 then .ok (false, rest)
        else if value = 1 then .ok (true, rest)
        else .error (.invalidBool value)

/-- A 16-bit number, least significant byte first. -/
def word : Codec UInt16 where
  encode value := .ok (Bytes.littleEndian 2 value.toNat)
  decode input :=
    match readBytes 2 input with
    | .ok (field, rest) => .ok (UInt16.ofNat (Bytes.ofLittleEndian field), rest)
    | .error error => .error error

/-- An address is its 32 bytes. -/
def address : Codec Address where
  encode value := .ok value.bytes
  decode input :=
    if hlength : (input.take 32).length = 32 then
      .ok (⟨input.take 32, hlength⟩, input.drop 32)
    else
      .error .endOfInput

/-- One value directly after another. -/
def pair (left : Codec Left) (right : Codec Right) : Codec (Left × Right) where
  encode value := do
    let leftBytes ← left.encode value.1
    let rightBytes ← right.encode value.2
    return leftBytes ++ rightBytes
  decode input := do
    let (leftValue, afterLeft) ← left.decode input
    let (rightValue, rest) ← right.decode afterLeft
    return ((leftValue, rightValue), rest)

/-- The same bytes for another type whose values correspond one to one. -/
def via (codec : Codec Left) (toValue : Left → Value) (ofValue : Value → Left) :
    Codec Value where
  encode value := codec.encode (ofValue value)
  decode input := do
    let (value, rest) ← codec.decode input
    return (toValue value, rest)

/-- A list behind a count of `width` bytes. -/
def counted (width : Nat) (element : Codec Value) : Codec (List Value) where
  encode elements :=
    if elements.length ≤ countLimit width then do
      let fields ← elements.mapM element.encode
      return Bytes.littleEndian width elements.length ++ fields.flatten
    else
      .error (.tooManyElements elements.length (countLimit width))
  decode input := do
    let (count, rest) ← readBytes width input
    readMany element.decode (Bytes.ofLittleEndian count) [] rest

/-- Reads a value that must take up the whole input. -/
def decodeAll (codec : Codec Value) (input : Bytes) : Except WireError Value := do
  let (value, rest) ← codec.decode input
  if rest.isEmpty then return value else throw .leftover

end Codec

end MultisigVault.Wire
