/-!
# Byte strings

Everything the vault stores, hashes or derives is a list of bytes.  Fixed-width
numbers appear in them in both orders: counts and indexes low byte first, the
serial number of a numbered address high byte first.
-/

namespace MultisigVault

abbrev Byte := UInt8
abbrev Bytes := List Byte

namespace Bytes

/-- The low `width` bytes of a number, least significant byte first. -/
def littleEndian : (width value : Nat) → Bytes
  | 0, _ => []
  | width + 1, value => UInt8.ofNat value :: littleEndian width (value / 256)

/-- The number a byte string denotes when its first byte is least significant. -/
def ofLittleEndian : Bytes → Nat
  | [] => 0
  | byte :: rest => byte.toNat + 256 * ofLittleEndian rest

/-- The number of byte strings of a length. -/
def capacity : (width : Nat) → Nat
  | 0 => 1
  | width + 1 => 256 * capacity width

/-- The low `width` bytes of a number, most significant byte first. -/
def bigEndian (width value : Nat) : Bytes :=
  (littleEndian width value).reverse

/-- The number a byte string denotes when its first byte is most significant. -/
def ofBigEndian (bytes : Bytes) : Nat :=
  bytes.foldl (fun total byte => total * 256 + byte.toNat) 0

@[simp]
theorem length_littleEndian (width value : Nat) :
    (littleEndian width value).length = width := by
  induction width generalizing value with
  | zero => rfl
  | succ width ih => simp [littleEndian, ih]

@[simp]
theorem length_bigEndian (width value : Nat) :
    (bigEndian width value).length = width := by
  simp [bigEndian]

/-- A number that fits the width is recovered from its bytes. -/
theorem ofLittleEndian_littleEndian (width value : Nat) (hfits : value < capacity width) :
    ofLittleEndian (littleEndian width value) = value := by
  induction width generalizing value with
  | zero =>
      simp only [capacity] at hfits
      simp only [littleEndian, ofLittleEndian]
      omega
  | succ width ih =>
      have hquotient : value / 256 < capacity width := by
        simp only [capacity] at hfits
        omega
      simp only [littleEndian, ofLittleEndian, ih _ hquotient, UInt8.toNat_ofNat']
      omega

/-- The bytes of a fixed width are recovered from the number they denote. -/
theorem littleEndian_ofLittleEndian (bytes : Bytes) :
    littleEndian bytes.length (ofLittleEndian bytes) = bytes := by
  induction bytes with
  | nil => rfl
  | cons byte rest ih =>
      have hlow : byte.toNat < 256 := byte.toNat_lt
      have hquotient : (byte.toNat + 256 * ofLittleEndian rest) / 256 =
          ofLittleEndian rest := by omega
      simp only [List.length_cons, ofLittleEndian, littleEndian, hquotient, ih]
      congr 1
      apply UInt8.toNat_inj.mp
      simp only [UInt8.toNat_ofNat']
      omega

theorem ofLittleEndian_lt (bytes : Bytes) :
    ofLittleEndian bytes < capacity bytes.length := by
  induction bytes with
  | nil => simp [ofLittleEndian, capacity]
  | cons byte rest ih =>
      have hlow : byte.toNat < 256 := byte.toNat_lt
      simp only [ofLittleEndian, List.length_cons, capacity]
      omega

end Bytes

end MultisigVault
