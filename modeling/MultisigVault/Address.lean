import MultisigVault.Text.Base58

/-!
# Addresses

An address names an account, a program, a vault or a lookup table.  It is 32
bytes long, is written in base58, and is compared byte by byte from the left.
-/

namespace MultisigVault

structure Address where
  bytes : Bytes
  length_bytes : bytes.length = 32
deriving DecidableEq

/-- A byte string or a text that names no address. -/
inductive AddressError where
  /-- The text is not base58. -/
  | notBase58
  /-- There are `length` bytes instead of 32. -/
  | wrongLength (length : Nat)
deriving DecidableEq, Repr

def AddressError.message : AddressError → String
  | .notBase58 => "invalid base58 string for pubkey"
  | .wrongLength length =>
      "invalid length for pubkey: expected 32 bytes, got " ++ toString length

namespace Address

@[ext]
theorem ext {left right : Address} (heq : left.bytes = right.bytes) : left = right := by
  cases left
  cases right
  congr

def ofBytes (bytes : Bytes) : Except AddressError Address :=
  if hlength : bytes.length = 32 then .ok ⟨bytes, hlength⟩
  else .error (.wrongLength bytes.length)

/-- The base58 text of an address. -/
def text (address : Address) : String :=
  Base58.encode address.bytes

/-- Reads base58 text.  A character outside the alphabet is reported before a
wrong length. -/
def ofText (text : String) : Except AddressError Address :=
  match Base58.decode? text with
  | none => .error .notBase58
  | some bytes => ofBytes bytes

instance : ToString Address := ⟨text⟩

instance : Repr Address := ⟨fun address _ => address.text⟩

/-- The address whose bytes are all zero. -/
def zero : Address :=
  ⟨List.replicate 32 0, by simp⟩

instance : Inhabited Address := ⟨zero⟩

/-- The address that repeats one byte. -/
def uniform (byte : Byte) : Address :=
  ⟨List.replicate 32 byte, by simp⟩

/-- The address that starts with an eight-byte serial number, high byte first,
and continues with zeros.  Addresses are ordered as their serial numbers. -/
def numbered (serial : Nat) : Address :=
  ⟨Bytes.bigEndian 8 serial ++ List.replicate 24 0, by simp⟩

/-- Pairwise different addresses for use as stand-ins, each greater than the one
before it. -/
def samples (count : Nat) : List Address :=
  (List.range count).map fun index => numbered (index + 1)

/-- Addresses in increasing order of their bytes; repeated addresses stay. -/
def sort (addresses : List Address) : List Address :=
  addresses.mergeSort fun left right => left.bytes ≤ right.bytes

@[simp]
theorem ofBytes_bytes (address : Address) : ofBytes address.bytes = .ok address := by
  simp [ofBytes, address.length_bytes]

/-- Exactly the byte strings of length 32 are addresses. -/
theorem ofBytes_eq_ok_iff {bytes : Bytes} {address : Address} :
    ofBytes bytes = .ok address ↔ address.bytes = bytes := by
  constructor
  · intro heq
    simp only [ofBytes] at heq
    split at heq
    · cases heq
      rfl
    · cases heq
  · rintro rfl
    exact ofBytes_bytes address

end Address

end MultisigVault
