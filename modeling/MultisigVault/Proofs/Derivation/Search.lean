import MultisigVault.Derivation.Basic
import MultisigVault.Proofs.Outcome

/-!
# The search for a bump

A search hashes the seeds with one bump after the other until the digest belongs to no
key pair.  The address it finds is the digest of the last byte string that it hashed.
-/

namespace MultisigVault.DerivationScheme

open Outcome

/-- Whether seeds are short enough, and leave room for a bump. -/
structure Searchable (seeds : List Bytes) : Prop where
  length_lt : seeds.length < maxSeeds
  length_le : ∀ seed ∈ seeds, seed.length ≤ maxSeedLength

/-- The bytes that are hashed when a bump is tried. -/
def attempt (seeds : List Bytes) (program : Address) (bump : Byte) : Bytes :=
  preimage (seeds ++ [[bump]]) program

variable (scheme : DerivationScheme)

/-- The byte strings that are hashed when the bumps from the given one down are tried. -/
def hashedFrom (seeds : List Bytes) (program : Address) : (bump : Nat) → List Bytes
  | 0 => []
  | bump + 1 =>
      let bytes := attempt seeds program (UInt8.ofNat (bump + 1))
      bytes ::
        if scheme.onCurve (scheme.digest bytes).bytes then hashedFrom seeds program bump else []

/-- The byte strings that a search hashes. -/
def hashed (seeds : List Bytes) (program : Address) : List Bytes :=
  scheme.hashedFrom seeds program 255

section

variable {scheme} {seeds : List Bytes} (hseeds : Searchable seeds)

include hseeds

/-- No seed is too long or one too many, so only the digest decides. -/
theorem create_attempt (program : Address) (bump : Byte) :
    scheme.create (seeds ++ [[bump]]) program =
      let address := scheme.digest (attempt seeds program bump)
      if scheme.onCurve address.bytes then .error .onCurve else .ok address := by
  have hmany : ¬maxSeeds < (seeds ++ [[bump]]).length := by
    have hlength := hseeds.length_lt
    rw [List.length_append, List.length_singleton]
    omega
  have hlong : ¬(seeds ++ [[bump]]).any (maxSeedLength < ·.length) := by
    rw [Bool.not_eq_true, List.any_eq_false]
    intro seed hseed
    rw [decide_eq_true_eq, Nat.not_lt]
    obtain hmem | hbump := List.mem_append.mp hseed
    · exact hseeds.length_le seed hmem
    · rw [List.mem_singleton.mp hbump, List.length_singleton]
      exact Nat.le_add_left 1 31
  rw [create, if_neg hmany, if_neg hlong]
  rfl

/-- A search goes on exactly while the digest belongs to a key pair. -/
theorem findFrom_succ (program : Address) (bump : Nat) :
    scheme.findFrom seeds program (bump + 1) =
      let address := scheme.digest (attempt seeds program (UInt8.ofNat (bump + 1)))
      if scheme.onCurve address.bytes then scheme.findFrom seeds program bump
      else .ok (address, UInt8.ofNat (bump + 1)) := by
  rw [findFrom, create_attempt hseeds]
  dsimp only
  cases scheme.onCurve (scheme.digest (attempt seeds program (UInt8.ofNat (bump + 1)))).bytes with
  | true => rfl
  | false => rfl

/-- A search that succeeds ends with the address it finds. -/
theorem digest_of_findFrom {program : Address} {start : Nat} {address : Address} {bump : Byte}
    (hfind : scheme.findFrom seeds program start = .ok (address, bump)) :
    attempt seeds program bump ∈ scheme.hashedFrom seeds program start ∧
      address = scheme.digest (attempt seeds program bump) := by
  induction start with
  | zero => cases hfind
  | succ start ih =>
      rw [findFrom_succ hseeds] at hfind
      dsimp only at hfind
      rw [hashedFrom]
      split at hfind
      · next hcurve =>
          -- A bump that fails puts its bytes in front of what the others hash.
          obtain ⟨hmem, hdigest⟩ := ih hfind
          rw [if_pos hcurve]
          exact ⟨List.mem_cons_of_mem _ hmem, hdigest⟩
      · cases hfind
        exact ⟨List.mem_cons_self, rfl⟩

theorem digest_of_find {program address : Address} {bump : Byte}
    (hfind : scheme.find seeds program = .ok (address, bump)) :
    attempt seeds program bump ∈ scheme.hashed seeds program ∧
      address = scheme.digest (attempt seeds program bump) :=
  digest_of_findFrom hseeds hfind

/-- A search fails only when it has tried every bump. -/
theorem cause_of_findFrom {program : Address} {start : Nat} {cause : DerivationError}
    (hfind : scheme.findFrom seeds program start = .error cause) : cause = .noViableBump := by
  induction start with
  | zero =>
      cases hfind
      rfl
  | succ start ih =>
      rw [findFrom_succ hseeds] at hfind
      dsimp only at hfind
      split at hfind
      · exact ih hfind
      · cases hfind

end

end MultisigVault.DerivationScheme
