import MultisigVault.Address

/-!
# SHA-256

The digest that turns seeds into an address.  A message is padded to whole
blocks of 64 bytes, and each block of sixteen 32-bit words is stretched to 64
words that drive as many rounds of the compression function.
-/

namespace MultisigVault.Sha256

abbrev Word := UInt32

/-- The eight working variables. -/
structure State where
  a : Word
  b : Word
  c : Word
  d : Word
  e : Word
  f : Word
  g : Word
  h : Word
deriving DecidableEq, Repr

/-- Fractional parts of the square roots of the first eight primes. -/
def initialState : State :=
  ⟨0x6a09e667, 0xbb67ae85, 0x3c6ef372, 0xa54ff53a, 0x510e527f, 0x9b05688c, 0x1f83d9ab, 0x5be0cd19⟩

/-- Fractional parts of the cube roots of the first 64 primes. -/
def roundConstants : List Word :=
  [0x428a2f98, 0x71374491, 0xb5c0fbcf, 0xe9b5dba5, 0x3956c25b, 0x59f111f1, 0x923f82a4, 0xab1c5ed5,
   0xd807aa98, 0x12835b01, 0x243185be, 0x550c7dc3, 0x72be5d74, 0x80deb1fe, 0x9bdc06a7, 0xc19bf174,
   0xe49b69c1, 0xefbe4786, 0x0fc19dc6, 0x240ca1cc, 0x2de92c6f, 0x4a7484aa, 0x5cb0a9dc, 0x76f988da,
   0x983e5152, 0xa831c66d, 0xb00327c8, 0xbf597fc7, 0xc6e00bf3, 0xd5a79147, 0x06ca6351, 0x14292967,
   0x27b70a85, 0x2e1b2138, 0x4d2c6dfc, 0x53380d13, 0x650a7354, 0x766a0abb, 0x81c2c92e, 0x92722c85,
   0xa2bfe8a1, 0xa81a664b, 0xc24b8b70, 0xc76c51a3, 0xd192e819, 0xd6990624, 0xf40e3585, 0x106aa070,
   0x19a4c116, 0x1e376c08, 0x2748774c, 0x34b0bcb5, 0x391c0cb3, 0x4ed8aa4a, 0x5b9cca4f, 0x682e6ff3,
   0x748f82ee, 0x78a5636f, 0x84c87814, 0x8cc70208, 0x90befffa, 0xa4506ceb, 0xbef9a3f7, 0xc67178f2]

def rotateRight (word : Word) (count : UInt32) : Word :=
  (word >>> count) ||| (word <<< (32 - count))

/-- Mixing functions of the schedule. -/
def scheduleMixLow (word : Word) : Word :=
  rotateRight word 7 ^^^ rotateRight word 18 ^^^ (word >>> 3)

def scheduleMixHigh (word : Word) : Word :=
  rotateRight word 17 ^^^ rotateRight word 19 ^^^ (word >>> 10)

/-- Mixing functions of a round. -/
def roundMixLow (word : Word) : Word :=
  rotateRight word 2 ^^^ rotateRight word 13 ^^^ rotateRight word 22

def roundMixHigh (word : Word) : Word :=
  rotateRight word 6 ^^^ rotateRight word 11 ^^^ rotateRight word 25

/-- Adds `count` words to a schedule that is held with its latest word first. -/
def extendSchedule : (count : Nat) → List Word → List Word
  | 0, words => words
  | count + 1, words =>
      let next := scheduleMixHigh (words.getD 1 0) + words.getD 6 0 +
        scheduleMixLow (words.getD 14 0) + words.getD 15 0
      extendSchedule count (next :: words)

/-- The 64 words of a block. -/
def schedule (block : List Word) : List Word :=
  (extendSchedule 48 block.reverse).reverse

def round (state : State) (constant word : Word) : State :=
  let choice := (state.e &&& state.f) ^^^ (~~~state.e &&& state.g)
  let majority := (state.a &&& state.b) ^^^ (state.a &&& state.c) ^^^ (state.b &&& state.c)
  let first := state.h + roundMixHigh state.e + choice + constant + word
  let second := roundMixLow state.a + majority
  ⟨first + second, state.a, state.b, state.c, state.d + first, state.e, state.f, state.g⟩

/-- Absorbs one block of sixteen words. -/
def compress (state : State) (block : List Word) : State :=
  let mixed := (roundConstants.zip (schedule block)).foldl
    (fun current step => round current step.1 step.2) state
  ⟨state.a + mixed.a, state.b + mixed.b, state.c + mixed.c, state.d + mixed.d,
    state.e + mixed.e, state.f + mixed.f, state.g + mixed.g, state.h + mixed.h⟩

/-- What follows a message of the given length: a one bit, zeros, and the length
in bits, so that the whole fills blocks of 64 bytes. -/
def padding (length : Nat) : Bytes :=
  0x80 :: List.replicate ((119 - length % 64) % 64) 0 ++ Bytes.bigEndian 8 (8 * length)

/-- Splits bytes into words, high byte first. -/
def words : Bytes → List Word
  | first :: second :: third :: fourth :: rest =>
      UInt32.ofNat (Bytes.ofBigEndian [first, second, third, fourth]) :: words rest
  | _ => []

/-- Absorbs `count` blocks. -/
def absorb (state : State) : (count : Nat) → List Word → State
  | 0, _ => state
  | count + 1, input => absorb (compress state (input.take 16)) count (input.drop 16)

def State.bytes (state : State) : Bytes :=
  [state.a, state.b, state.c, state.d, state.e, state.f, state.g, state.h].flatMap
    fun word => Bytes.bigEndian 4 word.toNat

theorem State.length_bytes (state : State) : state.bytes.length = 32 := by
  simp [State.bytes]

/-- The digest of a byte string.  It has the length of an address. -/
def digest (message : Bytes) : Address :=
  let padded := message ++ padding message.length
  let final := absorb initialState (padded.length / 64) (words padded)
  ⟨final.bytes, final.length_bytes⟩

end MultisigVault.Sha256
