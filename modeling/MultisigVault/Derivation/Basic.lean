import MultisigVault.Derivation.Secp256k1
import MultisigVault.Derivation.Sha256

/-!
# Derived addresses

A derived address is the digest of some seeds and a program.  It must not belong
to a key pair, since then somebody could sign for it.  Where the digest does, one
more seed, the bump, is counted down from 255 until it does not.

The vaults of a multisig, its stored transactions and the ephemeral signers of a
transaction are found this way, from seeds that tell the three kinds apart.
-/

namespace MultisigVault

/-- How addresses are derived: a digest, and the byte strings that belong to key
pairs. -/
structure DerivationScheme where
  digest : Bytes → Address
  onCurve : Bytes → Bool

inductive DerivationError where
  /-- There are too many seeds, or one of them is too long. -/
  | seedsTooLong
  /-- The digest belongs to a key pair. -/
  | onCurve
  /-- Every bump gives a digest that belongs to a key pair. -/
  | noViableBump
deriving DecidableEq, Repr

def DerivationError.message : DerivationError → String
  | .seedsTooLong => "length of the seed is too long for address generation"
  | .onCurve => "provided seeds do not result in a valid address"
  | .noViableBump => "unable to find a viable program address bump seed"

namespace DerivationScheme

def standard : DerivationScheme :=
  ⟨Sha256.digest, Secp256k1.isCoordinate⟩

def maxSeeds : Nat := 16

def maxSeedLength : Nat := 32

/-- The bytes whose digest is the address. -/
def preimage (seeds : List Bytes) (program : Address) : Bytes :=
  seeds.flatten ++ program.bytes

variable (scheme : DerivationScheme)

/-- The address of exactly the given seeds. -/
def create (seeds : List Bytes) (program : Address) : Except DerivationError Address :=
  if maxSeeds < seeds.length then
    .error .seedsTooLong
  else if seeds.any (maxSeedLength < ·.length) then
    .error .seedsTooLong
  else
    let address := scheme.digest (preimage seeds program)
    if scheme.onCurve address.bytes then .error .onCurve else .ok address

/-- Tries the bumps from the given one down to one. -/
def findFrom (seeds : List Bytes) (program : Address) :
    (bump : Nat) → Except DerivationError (Address × Byte)
  | 0 => .error .noViableBump
  | bump + 1 =>
      match scheme.create (seeds ++ [[UInt8.ofNat (bump + 1)]]) program with
      | .ok address => .ok (address, UInt8.ofNat (bump + 1))
      | .error .onCurve => findFrom seeds program bump
      | .error error => .error error

/-- The address with the largest bump that works, and that bump. -/
def find (seeds : List Bytes) (program : Address) : Except DerivationError (Address × Byte) :=
  scheme.findFrom seeds program 255

/-- A bump that is counted down.  Below zero there is none. -/
def countDown (bump : Byte) : Option Byte :=
  if bump = 0 then none else some (bump - 1)

/-- The same search in rounds, with the bump in a byte that is counted down after each
round that fails.  There is no outcome if the byte cannot be counted down. -/
def findInRounds (seeds : List Bytes) (program : Address) : (rounds : Nat) → (bump : Byte) →
    Option (Except DerivationError (Address × Byte))
  | 0, _ => some (.error .noViableBump)
  | rounds + 1, bump =>
      match scheme.create (seeds ++ [[bump]]) program with
      | .ok address => some (.ok (address, bump))
      | .error .onCurve => countDown bump >>= findInRounds seeds program rounds
      | .error error => some (.error error)

/-- The seed that all derivations of a multisig share: `multisig`. -/
def multisigSeed : Bytes :=
  [0x6d, 0x75, 0x6c, 0x74, 0x69, 0x73, 0x69, 0x67]

/-- The seed of a vault: `vault`. -/
def vaultSeed : Bytes :=
  [0x76, 0x61, 0x75, 0x6c, 0x74]

/-- The seed of a stored transaction: `transaction`. -/
def transactionSeed : Bytes :=
  [0x74, 0x72, 0x61, 0x6e, 0x73, 0x61, 0x63, 0x74, 0x69, 0x6f, 0x6e]

/-- The seed of an ephemeral signer: `ephemeral_signer`. -/
def ephemeralSignerSeed : Bytes :=
  [0x65, 0x70, 0x68, 0x65, 0x6d, 0x65, 0x72, 0x61, 0x6c, 0x5f,
   0x73, 0x69, 0x67, 0x6e, 0x65, 0x72]

def vaultSeeds (multisig : Address) (index : Byte) : List Bytes :=
  [multisigSeed, multisig.bytes, vaultSeed, [index]]

def transactionSeeds (multisig : Address) (index : UInt64) : List Bytes :=
  [multisigSeed, multisig.bytes, transactionSeed, Bytes.littleEndian 8 index.toNat]

def ephemeralSignerSeeds (transaction : Address) (index : Byte) : List Bytes :=
  [multisigSeed, transaction.bytes, ephemeralSignerSeed, [index]]

/-- The vault of a multisig with the given index. -/
def vault (multisig : Address) (index : Byte) (program : Address) :
    Except DerivationError (Address × Byte) :=
  scheme.find (vaultSeeds multisig index) program

/-- The account that stores the transaction of a multisig with the given index. -/
def transaction (multisig : Address) (index : UInt64) (program : Address) :
    Except DerivationError (Address × Byte) :=
  scheme.find (transactionSeeds multisig index) program

/-- The stand-in for a signer that exists only while a transaction executes. -/
def ephemeralSigner (transaction : Address) (index : Byte) (program : Address) :
    Except DerivationError (Address × Byte) :=
  scheme.find (ephemeralSignerSeeds transaction index) program

/-- The first ephemeral signers of a transaction. -/
def ephemeralSigners (transaction : Address) (count : Byte) (program : Address) :
    Except DerivationError (List Address) :=
  (List.range count.toNat).mapM fun index =>
    (scheme.ephemeralSigner transaction (UInt8.ofNat index) program).map Prod.fst

end DerivationScheme

end MultisigVault
