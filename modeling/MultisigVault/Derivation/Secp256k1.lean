import MultisigVault.Bytes

/-!
# The curve secp256k1

A public key is a point of the curve `y² = x³ + 7` over a prime field.  A byte
string of length 32 is the x coordinate of such a point exactly when it is below
the prime and `x³ + 7` is a square.  The prime is three modulo four, so that the
square root of a square is found by a single power.
-/

namespace MultisigVault.Secp256k1

/-- The order of the field, `2²⁵⁶ - 2³² - 977`. -/
def prime : Nat :=
  0xFFFFFFFFFFFFFFFFFFFFFFFFFFFFFFFFFFFFFFFFFFFFFFFFFFFFFFFEFFFFFC2F

/-- The lowest `width` binary digits of a number, highest first. -/
def bits (width number : Nat) : List Bool :=
  (List.range width).reverse.map number.testBit

/-- A power in the field, with the exponent given in binary. -/
def power (base : Nat) (exponent : List Bool) : Nat :=
  exponent.foldl
    (fun result bit =>
      let squared := result * result % prime
      if bit then squared * base % prime else squared)
    1

/-- The only candidate for a square root, up to its sign. -/
def rootCandidate (number : Nat) : Nat :=
  power number (bits 256 ((prime + 1) / 4))

def isSquare (number : Nat) : Bool :=
  rootCandidate number * rootCandidate number % prime == number % prime

/-- Whether a byte string is the x coordinate of a point. -/
def isCoordinate (bytes : Bytes) : Bool :=
  let x := Bytes.ofBigEndian bytes
  bytes.length == 32 && x < prime && isSquare ((x * x * x + 7) % prime)

end MultisigVault.Secp256k1
