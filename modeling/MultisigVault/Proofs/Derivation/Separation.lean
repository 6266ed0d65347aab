import Mathlib.Data.List.Flatten
import Mathlib.Data.Set.Function
import MultisigVault.Proofs.Derivation.Search

/-!
# Separation of derived addresses

Seeds are hashed without any separator, so that different seeds may well be hashed as the
same bytes.  Those of vaults, transactions and ephemeral signers never are: each kind has
a total length of its own, and within a kind every seed has a fixed length.  Two derived
addresses are therefore equal only if the digest collides on what was hashed.
-/

namespace MultisigVault

open Outcome

/-! ## Seeds of fixed lengths -/

/-- A number can be told from its eight bytes. -/
theorem Bytes.littleEndian_inj {left right : UInt64}
    (heq : littleEndian 8 left.toNat = littleEndian 8 right.toNat) : left = right := by
  apply UInt64.toNat_inj.mp
  rw [← ofLittleEndian_littleEndian 8 left.toNat left.toNat_lt, heq,
    ofLittleEndian_littleEndian 8 right.toNat right.toNat_lt]

namespace DerivationScheme

/-- Seeds of the same lengths, their bump and their program can be told from the bytes
that are hashed. -/
theorem attempt_inj {leftSeeds rightSeeds : List Bytes} {leftProgram rightProgram : Address}
    {leftBump rightBump : Byte}
    (hlengths : leftSeeds.map List.length = rightSeeds.map List.length)
    (heq : attempt leftSeeds leftProgram leftBump = attempt rightSeeds rightProgram rightBump) :
    leftSeeds = rightSeeds ∧ leftProgram = rightProgram ∧ leftBump = rightBump := by
  have hprograms : leftProgram.bytes.length = rightProgram.bytes.length := by
    rw [leftProgram.length_bytes, rightProgram.length_bytes]
  obtain ⟨hflat, hprogram⟩ := List.append_inj' heq hprograms
  have hall : (leftSeeds ++ [[leftBump]]).map List.length =
      (rightSeeds ++ [[rightBump]]).map List.length := by
    rw [List.map_append, List.map_append, hlengths]
    rfl
  obtain ⟨hseeds, hbump⟩ := List.append_inj' (List.eq_iff_flatten_eq.mpr ⟨hflat, hall⟩) rfl
  exact ⟨hseeds, Address.ext hprogram, by simpa using hbump⟩

end DerivationScheme

/-! ## Kinds of derived addresses -/

/-- What a derived address stands for. -/
inductive DerivedKind where
  | vault
  | transaction
  | ephemeralSigner
deriving DecidableEq

namespace DerivedKind

/-- The lengths of the seeds. -/
def seedLengths : DerivedKind → List Nat
  | vault => [8, 32, 5, 1]
  | transaction => [8, 32, 11, 8]
  | ephemeralSigner => [8, 32, 16, 1]

/-- Number of bytes that are hashed: the seeds, the bump and the program. -/
def width : DerivedKind → Nat
  | vault => 79
  | transaction => 92
  | ephemeralSigner => 90

/-- The kinds differ in the number of bytes that are hashed. -/
theorem width_inj {left right : DerivedKind} (heq : left.width = right.width) : left = right := by
  revert heq
  cases left <;> cases right <;> decide

theorem length_seedLengths_lt (kind : DerivedKind) :
    kind.seedLengths.length < DerivationScheme.maxSeeds := by
  cases kind <;> decide

theorem seedLengths_le (kind : DerivedKind) :
    ∀ length ∈ kind.seedLengths, length ≤ DerivationScheme.maxSeedLength := by
  cases kind <;> decide

end DerivedKind

/-- What an address is derived for. -/
inductive Derivation where
  | vault (multisig : Address) (index : Byte) (program : Address)
  | transaction (multisig : Address) (index : UInt64) (program : Address)
  | ephemeralSigner (transaction : Address) (index : Byte) (program : Address)
deriving DecidableEq

namespace Derivation

open DerivationScheme (vaultSeeds transactionSeeds ephemeralSignerSeeds Searchable attempt)

def kind : Derivation → DerivedKind
  | .vault .. => .vault
  | .transaction .. => .transaction
  | .ephemeralSigner .. => .ephemeralSigner

def seeds : Derivation → List Bytes
  | .vault multisig index _ => vaultSeeds multisig index
  | .transaction multisig index _ => transactionSeeds multisig index
  | .ephemeralSigner stored index _ => ephemeralSignerSeeds stored index

def program : Derivation → Address
  | .vault _ _ program | .transaction _ _ program | .ephemeralSigner _ _ program => program

/-- The bytes that are hashed for a bump: the seeds, the bump and the program, without
separators. -/
def preimage (derivation : Derivation) (bump : Byte) : Bytes :=
  attempt derivation.seeds derivation.program bump

theorem map_length_seeds (derivation : Derivation) :
    derivation.seeds.map List.length = derivation.kind.seedLengths := by
  cases derivation <;>
    simp [seeds, kind, vaultSeeds, transactionSeeds, ephemeralSignerSeeds, Address.length_bytes,
      DerivationScheme.multisigSeed, DerivationScheme.vaultSeed, DerivationScheme.transactionSeed,
      DerivationScheme.ephemeralSignerSeed, DerivedKind.seedLengths]

theorem length_preimage (derivation : Derivation) (bump : Byte) :
    (derivation.preimage bump).length = derivation.kind.width := by
  rw [preimage, attempt, DerivationScheme.preimage, List.length_append, List.length_flatten,
    List.map_append, map_length_seeds, Address.length_bytes]
  cases derivation.kind <;> rfl

theorem searchable_seeds (derivation : Derivation) : Searchable derivation.seeds where
  length_lt := by
    rw [← List.length_map List.length, map_length_seeds]
    exact derivation.kind.length_seedLengths_lt
  length_le := by
    intro seed hseed
    apply derivation.kind.seedLengths_le
    rw [← map_length_seeds]
    exact List.mem_map_of_mem hseed

/-- Seeds of one kind tell the key and the index. -/
theorem key_index_of_seeds {start kind index otherIndex : Bytes} {key otherKey : Address}
    (hseeds : [start, key.bytes, kind, index] = [start, otherKey.bytes, kind, otherIndex]) :
    key = otherKey ∧ index = otherIndex := by
  simp only [List.cons.injEq, true_and, and_true] at hseeds
  exact ⟨Address.ext hseeds.1, hseeds.2⟩

/-- What is hashed says what it is hashed for. -/
theorem eq_of_preimage_eq {left right : Derivation} {leftBump rightBump : Byte}
    (heq : left.preimage leftBump = right.preimage rightBump) : left = right := by
  have hkind : left.kind = right.kind := by
    apply DerivedKind.width_inj
    rw [← length_preimage left leftBump, heq, length_preimage]
  have hlengths : left.seeds.map List.length = right.seeds.map List.length := by
    rw [map_length_seeds, map_length_seeds, hkind]
  obtain ⟨hseeds, hprogram, -⟩ := DerivationScheme.attempt_inj hlengths heq
  -- Of two derivations the one on the right has the kind of the one on the left.
  cases left with
  | vault multisig index program =>
      cases right <;> cases hkind
      obtain ⟨hkey, hindex⟩ := key_index_of_seeds hseeds
      rw [hkey, List.singleton_inj.mp hindex]
      exact congrArg _ hprogram
  | transaction multisig index program =>
      cases right <;> cases hkind
      obtain ⟨hkey, hindex⟩ := key_index_of_seeds hseeds
      rw [hkey, Bytes.littleEndian_inj hindex]
      exact congrArg _ hprogram
  | ephemeralSigner stored index program =>
      cases right <;> cases hkind
      obtain ⟨hkey, hindex⟩ := key_index_of_seeds hseeds
      rw [hkey, List.singleton_inj.mp hindex]
      exact congrArg _ hprogram

/-! ## Calls -/

/-- The derived address and its bump. -/
def derive (scheme : DerivationScheme) : Derivation → Except DerivationError (Address × Byte)
  | .vault multisig index program => scheme.vault multisig index program
  | .transaction multisig index program => scheme.transaction multisig index program
  | .ephemeralSigner stored index program => scheme.ephemeralSigner stored index program

/-- The byte strings that are hashed while the address is searched for. -/
def hashed (scheme : DerivationScheme) (derivation : Derivation) : List Bytes :=
  scheme.hashed derivation.seeds derivation.program

theorem derive_eq (scheme : DerivationScheme) (derivation : Derivation) :
    derivation.derive scheme = scheme.find derivation.seeds derivation.program := by
  cases derivation <;> rfl

/-- A derived address is the digest of a byte string that was hashed. -/
theorem digest_of_derive {scheme : DerivationScheme} {derivation : Derivation} {address : Address}
    {bump : Byte} (hderive : derivation.derive scheme = .ok (address, bump)) :
    derivation.preimage bump ∈ derivation.hashed scheme ∧
      address = scheme.digest (derivation.preimage bump) := by
  rw [derive_eq] at hderive
  exact DerivationScheme.digest_of_find derivation.searchable_seeds hderive

/-- Only the curve can keep an address from being derived. -/
theorem cause_of_derive {scheme : DerivationScheme} {derivation : Derivation}
    {cause : DerivationError} (hderive : derivation.derive scheme = .error cause) :
    cause = .noViableBump := by
  rw [derive_eq] at hderive
  exact DerivationScheme.cause_of_findFrom derivation.searchable_seeds hderive

end Derivation

namespace DerivationScheme

/-- The byte strings that are hashed in some derivations.  No digest is free of collisions
on all byte strings, so it is assumed to be on these at most. -/
def hashedBy (scheme : DerivationScheme) (derivations : Set Derivation) : Set Bytes :=
  {bytes | ∃ derivation ∈ derivations, bytes ∈ derivation.hashed scheme}

variable {scheme : DerivationScheme} {derivations : Set Derivation}

/-- A digest without collisions on what is hashed derives no address twice. -/
theorem eq_of_derive (hinjective : Set.InjOn scheme.digest (scheme.hashedBy derivations))
    {left right : Derivation} (hleft : left ∈ derivations) (hright : right ∈ derivations)
    {address : Address} {leftBump rightBump : Byte}
    (hleftDerive : left.derive scheme = .ok (address, leftBump))
    (hrightDerive : right.derive scheme = .ok (address, rightBump)) : left = right := by
  obtain ⟨hleftMem, hleftDigest⟩ := Derivation.digest_of_derive hleftDerive
  obtain ⟨hrightMem, hrightDigest⟩ := Derivation.digest_of_derive hrightDerive
  apply Derivation.eq_of_preimage_eq
  apply hinjective ⟨left, hleft, hleftMem⟩ ⟨right, hright, hrightMem⟩
  exact hleftDigest.symm.trans hrightDigest

/-- Counting the ephemeral signers in bytes loses nothing. -/
theorem toNat_signerIndex {index : Nat} {count : Byte} (hindex : index ∈ List.range count.toNat) :
    (UInt8.ofNat index).toNat = index := by
  have hcount : count.toNat < 256 := count.toNat_lt
  rw [UInt8.toNat_ofNat', Nat.mod_eq_of_lt ((List.mem_range.mp hindex).trans hcount)]

theorem nodup_of_ephemeralSigners
    (hinjective : Set.InjOn scheme.digest (scheme.hashedBy derivations))
    {transaction program : Address} {count : Byte} {addresses : List Address}
    (hmem : ∀ index < count,
      Derivation.ephemeralSigner transaction index program ∈ derivations)
    (hsigners : scheme.ephemeralSigners transaction count program = .ok addresses) :
    addresses.Nodup := by
  have hderived {index : Nat} (hindex : index ∈ List.range count.toNat) :
      Derivation.ephemeralSigner transaction (UInt8.ofNat index) program ∈ derivations := by
    apply hmem
    rw [UInt8.lt_iff_toNat_lt, toNat_signerIndex hindex]
    exact List.mem_range.mp hindex
  apply nodup_of_mapM_eq_ok List.nodup_range _ hsigners
  intro left hleft right hright address hleftStep hrightStep
  obtain ⟨⟨_, leftBump⟩, hleftDerive, rfl⟩ := map_eq_ok_iff.mp hleftStep
  obtain ⟨⟨_, rightBump⟩, hrightDerive, rfl⟩ := map_eq_ok_iff.mp hrightStep
  have heq := eq_of_derive hinjective (hderived hleft) (hderived hright) hleftDerive hrightDerive
  injection heq with _ hindexes
  rw [← toNat_signerIndex hleft, hindexes, toNat_signerIndex hright]

theorem cause_of_ephemeralSigners {transaction program : Address} {count : Byte}
    {cause : DerivationError}
    (hsigners : scheme.ephemeralSigners transaction count program = .error cause) :
    cause = .noViableBump := by
  obtain ⟨index, -, hstep⟩ := exists_mem_of_mapM_eq_error hsigners
  have hderive : (Derivation.ephemeralSigner transaction (UInt8.ofNat index) program).derive
      scheme = .error cause := map_eq_error_iff.mp hstep
  exact Derivation.cause_of_derive hderive

/-- A vault, a transaction and an ephemeral signer never share an address, and neither do
two of one kind, as long as the digest has no collision among the byte strings that are
hashed for them.  These byte strings by themselves are different, whatever the digest is:
those whose digests are the addresses tell the kind, the key, the index and the program.
The seeds are never too long. -/
theorem derivations_separated (scheme : DerivationScheme) :
    (∀ (left right : Derivation) leftAddress leftBump rightAddress rightBump,
      left.derive scheme = .ok (leftAddress, leftBump) →
      right.derive scheme = .ok (rightAddress, rightBump) →
        leftAddress = scheme.digest (left.preimage leftBump) ∧
        rightAddress = scheme.digest (right.preimage rightBump) ∧
        (left.preimage leftBump = right.preimage rightBump → left = right)) ∧
    (∀ derivations, Set.InjOn scheme.digest (scheme.hashedBy derivations) →
      (∀ left ∈ derivations, ∀ right ∈ derivations, ∀ address leftBump rightBump,
        left.derive scheme = .ok (address, leftBump) →
        right.derive scheme = .ok (address, rightBump) → left = right) ∧
      ∀ transaction count program addresses,
        (∀ index < count, .ephemeralSigner transaction index program ∈ derivations) →
        scheme.ephemeralSigners transaction count program = .ok addresses → addresses.Nodup) ∧
    (∀ derivation : Derivation, derivation.derive scheme ≠ .error .seedsTooLong) ∧
    ∀ transaction count program,
      scheme.ephemeralSigners transaction count program ≠ .error .seedsTooLong := by
  refine ⟨?_, ?_, ?_, ?_⟩
  · intro left right leftAddress leftBump rightAddress rightBump hleft hright
    exact ⟨(Derivation.digest_of_derive hleft).2, (Derivation.digest_of_derive hright).2,
      Derivation.eq_of_preimage_eq⟩
  · intro derivations hinjective
    constructor
    · intro left hleft right hright address leftBump rightBump hleftDerive hrightDerive
      exact eq_of_derive hinjective hleft hright hleftDerive hrightDerive
    · intro transaction count program addresses hmem hsigners
      exact nodup_of_ephemeralSigners hinjective hmem hsigners
  · intro derivation hderive
    cases Derivation.cause_of_derive hderive
  · intro transaction count program hsigners
    cases cause_of_ephemeralSigners hsigners

/-- A vault, a transaction and two ephemeral signers with the same key and program.  Five
byte strings are hashed, since the first bump of the transaction fails. -/
theorem derivations_separated_same_key :
    let vault := Derivation.vault (.uniform 13) 0 (.uniform 2)
    let transaction := Derivation.transaction (.uniform 13) 0 (.uniform 2)
    let derivations : List Derivation :=
      [vault, transaction, .ephemeralSigner (.uniform 13) 0 (.uniform 2),
        .ephemeralSigner (.uniform 13) 1 (.uniform 2)]
    Set.InjOn standard.digest (standard.hashedBy {derivation | derivation ∈ derivations}) ∧
    ∃ vaultAddress vaultBump transactionAddress transactionBump signers,
      vault.derive standard = .ok (vaultAddress, vaultBump) ∧
      transaction.derive standard = .ok (transactionAddress, transactionBump) ∧
      standard.ephemeralSigners (.uniform 13) 2 (.uniform 2) = .ok signers ∧
      vaultAddress ≠ transactionAddress ∧
      vault.preimage vaultBump ≠ transaction.preimage transactionBump ∧ signers.Nodup := by
  intro vault transaction derivations
  have hdigests : ((derivations.flatMap (Derivation.hashed standard)).map
      standard.digest).Nodup := by decide +kernel
  have hinjective : Set.InjOn standard.digest
      (standard.hashedBy {derivation | derivation ∈ derivations}) := by
    intro left hleft right hright
    exact List.inj_on_of_nodup_map hdigests (List.mem_flatMap.mpr hleft)
      (List.mem_flatMap.mpr hright)
  obtain ⟨⟨vaultAddress, vaultBump⟩, hvault⟩ :=
    isOk_iff.mp (by decide +kernel : (vault.derive standard).isOk = true)
  obtain ⟨⟨transactionAddress, transactionBump⟩, htransaction⟩ :=
    isOk_iff.mp (by decide +kernel : (transaction.derive standard).isOk = true)
  obtain ⟨signers, hsigners⟩ := isOk_iff.mp (by decide +kernel :
    (standard.ephemeralSigners (.uniform 13) 2 (.uniform 2)).isOk = true)
  obtain ⟨hpreimages, hseparated, -⟩ := derivations_separated standard
  obtain ⟨haddresses, hdistinct⟩ := hseparated {derivation | derivation ∈ derivations} hinjective
  have hdifferent : vault ≠ transaction := nofun
  refine ⟨hinjective, vaultAddress, vaultBump, transactionAddress, transactionBump, signers,
    hvault, htransaction, hsigners, ?_, ?_, ?_⟩
  · intro hsame
    rw [← hsame] at htransaction
    exact hdifferent (haddresses _ (by decide) _ (by decide) _ _ _ hvault htransaction)
  · intro hsame
    exact hdifferent ((hpreimages _ _ _ _ _ _ hvault htransaction).2.2 hsame)
  · apply hdistinct _ _ _ _ _ hsigners
    intro index hindex
    have hindexes : index = 0 ∨ index = 1 := by
      rw [UInt8.lt_iff_toNat_lt] at hindex
      rw [← UInt8.toNat_inj, ← UInt8.toNat_inj]
      exact Nat.lt_succ_iff_lt_or_eq.mp hindex |>.imp_left Nat.lt_one_iff.mp
    rcases hindexes with rfl | rfl <;> decide

end DerivationScheme

end MultisigVault
