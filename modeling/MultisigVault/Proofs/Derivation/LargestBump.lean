import Mathlib.Order.Bounds.Basic
import MultisigVault.Proofs.Derivation.Search

/-!
# The largest bump that works

A search tries the bumps from 255 down to one, so that it finds the largest bump whose
digest belongs to no key pair, and fails only if there is none.  The counter of a search
is a single byte; it is counted down once after each bump that fails, which takes it to
zero at most.
-/

namespace MultisigVault.DerivationScheme

open Outcome

/-- Whether there are too many seeds to add a bump, or one of them is too long. -/
def SeedsTooLong (seeds : List Bytes) : Prop :=
  15 < seeds.length ∨ ∃ seed ∈ seeds, 32 < seed.length

theorem searchable_iff_not_seedsTooLong {seeds : List Bytes} :
    Searchable seeds ↔ ¬SeedsTooLong seeds := by
  simp only [SeedsTooLong, not_or, not_exists, not_and, Nat.not_lt]
  constructor
  · intro hseeds
    exact ⟨Nat.le_of_lt_succ hseeds.length_lt, hseeds.length_le⟩
  · rintro ⟨hmany, hlong⟩
    exact ⟨Nat.lt_succ_of_le hmany, hlong⟩

variable (scheme : DerivationScheme) (seeds : List Bytes) (program : Address)

/-- The digest for a bump: that of the seeds, the bump and the program. -/
def candidate (bump : Byte) : Address :=
  scheme.digest (seeds.flatten ++ bump :: program.bytes)

/-- Whether the digest for a bump belongs to no key pair. -/
def Viable (bump : Byte) : Prop :=
  scheme.onCurve (scheme.candidate seeds program bump).bytes = false

/-! ## The counter -/

theorem countDown_of_toNat {bump : Byte} {rest : Nat} (hbump : bump.toNat = rest + 1) :
    ∃ lower, countDown bump = some lower ∧ lower.toNat = rest := by
  have hpositive : bump ≠ 0 := by
    rintro rfl
    cases hbump
  refine ⟨bump - 1, if_neg hpositive, ?_⟩
  have hle : (1 : Byte) ≤ bump := by
    rw [UInt8.le_iff_toNat_le, hbump]
    exact Nat.le_add_left 1 rest
  rw [UInt8.toNat_sub_of_le _ _ hle, hbump]
  rfl

/-- As many rounds as the bump says never count below zero. -/
theorem findInRounds_toNat {rounds : Nat} {bump : Byte} (hbump : bump.toNat = rounds) :
    scheme.findInRounds seeds program rounds bump =
      some (scheme.findFrom seeds program rounds) := by
  induction rounds generalizing bump with
  | zero => rfl
  | succ rounds ih =>
      obtain ⟨lower, hlower, hrest⟩ := countDown_of_toNat hbump
      have hround : UInt8.ofNat (rounds + 1) = bump := by rw [← hbump, UInt8.ofNat_toNat]
      rw [findInRounds, findFrom, hround]
      cases scheme.create (seeds ++ [[bump]]) program with
      | ok address => rfl
      | error cause =>
          cases cause with
          | onCurve =>
              dsimp only
              rw [hlower]
              exact ih hrest
          | seedsTooLong => rfl
          | noViableBump => rfl

/-! ## The outcome of a search -/

/-- Seeds that are too long are refused in the first round. -/
theorem find_of_seedsTooLong (hseeds : SeedsTooLong seeds) :
    scheme.find seeds program = .error .seedsTooLong := by
  have hcreate (bump : Byte) :
      scheme.create (seeds ++ [[bump]]) program = .error .seedsTooLong := by
    rw [create]
    obtain hmany | ⟨seed, hmem, hlong⟩ := hseeds
    · rw [if_pos]
      rw [List.length_append, List.length_singleton]
      exact Nat.succ_lt_succ hmany
    · have hany : (seeds ++ [[bump]]).any (maxSeedLength < ·.length) :=
        List.any_eq_true.mpr ⟨seed, List.mem_append_left _ hmem, decide_eq_true hlong⟩
      rw [if_pos hany, ite_self]
  rw [find, findFrom, hcreate]

section

variable {scheme seeds} (hseeds : Searchable seeds)

include hseeds

theorem create_bump (program : Address) (bump : Byte) :
    scheme.create (seeds ++ [[bump]]) program =
      if scheme.onCurve (scheme.candidate seeds program bump).bytes then .error .onCurve
      else .ok (scheme.candidate seeds program bump) := by
  have hbytes : attempt seeds program bump = seeds.flatten ++ bump :: program.bytes := by
    simp [attempt, preimage]
  rw [create_attempt hseeds, hbytes]
  rfl

theorem create_bump_of_viable {program : Address} {bump : Byte}
    (hviable : scheme.Viable seeds program bump) :
    scheme.create (seeds ++ [[bump]]) program = .ok (scheme.candidate seeds program bump) := by
  rw [create_bump hseeds, if_neg (Bool.eq_false_iff.mp hviable)]

theorem create_bump_of_not_viable {program : Address} {bump : Byte}
    (hfails : ¬scheme.Viable seeds program bump) :
    scheme.create (seeds ++ [[bump]]) program = .error .onCurve := by
  rw [create_bump hseeds, if_pos (Bool.eq_true_of_not_eq_false hfails)]

end

/-- The bumps that work, among those that a search from the given one tries. -/
def viableFrom (start : Nat) : Set Byte :=
  {bump | 0 < bump ∧ bump.toNat ≤ start ∧ scheme.Viable seeds program bump}

theorem toNat_bump {start : Nat} (hstart : start < 255) :
    (UInt8.ofNat (start + 1)).toNat = start + 1 := by
  rw [UInt8.toNat_ofNat', Nat.mod_eq_of_lt]
  exact Nat.succ_lt_succ hstart

/-- If the next bump fails, it may be left out. -/
theorem viableFrom_succ {start : Nat}
    (hfails : ¬scheme.Viable seeds program (UInt8.ofNat (start + 1))) :
    scheme.viableFrom seeds program (start + 1) = scheme.viableFrom seeds program start := by
  ext bump
  constructor
  · rintro ⟨hpositive, hle, hviable⟩
    refine ⟨hpositive, ?_, hviable⟩
    apply Nat.le_of_lt_succ
    apply hle.lt_of_ne
    intro hlast
    rw [← hlast, UInt8.ofNat_toNat] at hfails
    exact hfails hviable
  · rintro ⟨hpositive, hle, hviable⟩
    exact ⟨hpositive, Nat.le_succ_of_le hle, hviable⟩

theorem isGreatest_viableFrom_succ {start : Nat} (hstart : start < 255)
    (hviable : scheme.Viable seeds program (UInt8.ofNat (start + 1))) :
    IsGreatest (scheme.viableFrom seeds program (start + 1)) (UInt8.ofNat (start + 1)) := by
  refine ⟨⟨?_, (toNat_bump hstart).le, hviable⟩, ?_⟩
  · rw [UInt8.lt_iff_toNat_lt, toNat_bump hstart]
    exact Nat.succ_pos start
  · rintro bump ⟨-, hle, -⟩
    rwa [UInt8.le_iff_toNat_le, toNat_bump hstart]

/-- A search finds the largest bump that works, or there is none. -/
theorem findFrom_cases {seeds : List Bytes} (hseeds : Searchable seeds) {start : Nat}
    (hstart : start < 256) :
    (∃ bump, IsGreatest (scheme.viableFrom seeds program start) bump ∧
      scheme.findFrom seeds program start =
        .ok (scheme.candidate seeds program bump, bump)) ∨
    (scheme.viableFrom seeds program start = ∅ ∧
      scheme.findFrom seeds program start = .error .noViableBump) := by
  induction start with
  | zero =>
      refine .inr ⟨?_, rfl⟩
      rw [Set.eq_empty_iff_forall_notMem]
      rintro bump ⟨hpositive, hzero, -⟩
      rw [UInt8.lt_iff_toNat_lt] at hpositive
      exact absurd hzero (Nat.not_le.mpr hpositive)
  | succ start ih =>
      have hbound : start < 255 := Nat.lt_of_succ_lt_succ hstart
      by_cases hviable : scheme.Viable seeds program (UInt8.ofNat (start + 1))
      · refine .inl ⟨_, scheme.isGreatest_viableFrom_succ seeds program hbound hviable, ?_⟩
        rw [findFrom, create_bump_of_viable hseeds hviable]
      · rw [scheme.viableFrom_succ seeds program hviable, findFrom,
          create_bump_of_not_viable hseeds hviable]
        exact ih (Nat.lt_of_succ_lt hstart)

section

variable {scheme seeds program} (hseeds : Searchable seeds)

include hseeds

theorem find_cases (program : Address) :
    (∃ bump, IsGreatest {bump | 0 < bump ∧ scheme.Viable seeds program bump} bump ∧
      scheme.find seeds program = .ok (scheme.candidate seeds program bump, bump)) ∨
    ((∀ bump, 0 < bump → ¬scheme.Viable seeds program bump) ∧
      scheme.find seeds program = .error .noViableBump) := by
  have hall : scheme.viableFrom seeds program 255 =
      {bump | 0 < bump ∧ scheme.Viable seeds program bump} := by
    ext bump
    exact and_congr_right fun _ => and_iff_right (Nat.le_of_lt_succ bump.toNat_lt)
  rw [← hall, find]
  refine (scheme.findFrom_cases program hseeds (by decide)).imp_right ?_
  rintro ⟨hnone, hfails⟩
  refine ⟨fun bump hpositive hviable => ?_, hfails⟩
  rw [hall, Set.eq_empty_iff_forall_notMem] at hnone
  exact hnone bump ⟨hpositive, hviable⟩

theorem find_eq_ok_iff {address : Address} {bump : Byte} :
    scheme.find seeds program = .ok (address, bump) ↔
      IsGreatest {bump | 0 < bump ∧ scheme.Viable seeds program bump} bump ∧
        address = scheme.candidate seeds program bump := by
  obtain ⟨largest, hlargest, hfind⟩ | ⟨hnone, hfind⟩ := find_cases hseeds program
  · rw [hfind]
    constructor
    · rintro ⟨⟩
      exact ⟨hlargest, rfl⟩
    · rintro ⟨hgreatest, rfl⟩
      rw [UInt8.le_antisymm (hgreatest.2 hlargest.1) (hlargest.2 hgreatest.1)]
  · rw [hfind]
    constructor
    · nofun
    · rintro ⟨hgreatest, -⟩
      exact absurd hgreatest.1.2 (hnone bump hgreatest.1.1)

theorem find_eq_noViableBump_iff :
    scheme.find seeds program = .error .noViableBump ↔
      ∀ bump, 0 < bump → ¬scheme.Viable seeds program bump := by
  obtain ⟨largest, hlargest, hfind⟩ | ⟨hnone, hfind⟩ := find_cases hseeds program
  · rw [hfind]
    constructor
    · nofun
    · intro hnone
      exact absurd hlargest.1.2 (hnone largest hlargest.1.1)
  · exact iff_of_true hfind hnone

end

theorem find_eq_seedsTooLong_iff :
    scheme.find seeds program = .error .seedsTooLong ↔ SeedsTooLong seeds := by
  constructor
  · intro hfind
    by_contra hshort
    have hcause := cause_of_findFrom (searchable_iff_not_seedsTooLong.mpr hshort) hfind
    cases hcause
  · exact scheme.find_of_seedsTooLong seeds program

/-- An address that is found belongs to no key pair and is made from the seeds and the bump
in one go.  With any larger bump this fails. -/
theorem create_of_find {address : Address} {bump : Byte}
    (hfind : scheme.find seeds program = .ok (address, bump)) :
    scheme.onCurve address.bytes = false ∧
      scheme.create (seeds ++ [[bump]]) program = .ok address ∧
        ∀ larger, bump < larger →
          scheme.create (seeds ++ [[larger]]) program = .error .onCurve := by
  have hseeds : Searchable seeds := by
    rw [searchable_iff_not_seedsTooLong]
    intro hlong
    rw [scheme.find_of_seedsTooLong seeds program hlong] at hfind
    cases hfind
  obtain ⟨⟨⟨hpositive, hviable⟩, hlargest⟩, rfl⟩ := (find_eq_ok_iff hseeds).mp hfind
  refine ⟨hviable, create_bump_of_viable hseeds hviable, ?_⟩
  intro larger hlarger
  apply create_bump_of_not_viable hseeds
  intro hworks
  exact UInt8.not_le.mpr hlarger (hlargest ⟨UInt8.lt_trans hpositive hlarger, hworks⟩)

/-- A search refuses seeds that are too long, and otherwise finds the digest for the
largest bump, from 255 down to one, whose digest belongs to no key pair; it fails exactly
if there is no such bump.  Its counter is never counted down below zero.  The address that
is found belongs to no key pair, and is also made from the seeds and the bump in one go,
which fails for every larger bump. -/
theorem find_is_largest_viable (scheme : DerivationScheme) (seeds : List Bytes)
    (program : Address) :
    (scheme.find seeds program = .error .seedsTooLong ↔ SeedsTooLong seeds) ∧
    (¬SeedsTooLong seeds →
      (∀ address bump, scheme.find seeds program = .ok (address, bump) ↔
        IsGreatest {bump | 0 < bump ∧ scheme.Viable seeds program bump} bump ∧
          address = scheme.candidate seeds program bump) ∧
      (scheme.find seeds program = .error .noViableBump ↔
        ∀ bump, 0 < bump → ¬scheme.Viable seeds program bump)) ∧
    scheme.findInRounds seeds program 255 255 = some (scheme.find seeds program) ∧
    ∀ address bump, scheme.find seeds program = .ok (address, bump) →
      scheme.onCurve address.bytes = false ∧
      scheme.create (seeds ++ [[bump]]) program = .ok address ∧
      ∀ larger, bump < larger →
        scheme.create (seeds ++ [[larger]]) program = .error .onCurve := by
  refine ⟨scheme.find_eq_seedsTooLong_iff seeds program, ?_,
    scheme.findInRounds_toNat seeds program rfl, fun _ _ => scheme.create_of_find seeds program⟩
  intro hshort
  have hseeds := searchable_iff_not_seedsTooLong.mpr hshort
  exact ⟨fun _ _ => find_eq_ok_iff hseeds, find_eq_noViableBump_iff hseeds⟩

/-- As many seeds as there may be, two of them as long as they may be.  The first bump
fails and the second one works.  One seed more is refused, even if it is empty. -/
theorem find_is_largest_viable_second_bump :
    let seeds : List Bytes :=
      [List.replicate 32 7, List.replicate 32 8] ++ List.replicate 13 [0]
    ¬SeedsTooLong seeds ∧
    (∃ address, standard.find seeds (.uniform 2) = .ok (address, 254) ∧
      IsGreatest {bump | 0 < bump ∧ standard.Viable seeds (.uniform 2) bump} 254 ∧
      standard.onCurve address.bytes = false ∧
      standard.create (seeds ++ [[255]]) (.uniform 2) = .error .onCurve) ∧
    standard.find ([] :: seeds) (.uniform 2) = .error .seedsTooLong := by
  intro seeds
  have hshort : ¬SeedsTooLong seeds := by
    rw [SeedsTooLong]
    decide
  have hbump : (standard.find seeds (.uniform 2)).map Prod.snd = .ok 254 := by decide +kernel
  obtain ⟨⟨address, bump⟩, hfind, rfl⟩ := map_eq_ok_iff.mp hbump
  obtain ⟨-, houtcome, -, hcreate⟩ := find_is_largest_viable standard seeds (.uniform 2)
  obtain ⟨hcurve, -, hlarger⟩ := hcreate address 254 hfind
  refine ⟨hshort, ⟨address, hfind, ?_, hcurve, hlarger 255 (by decide)⟩, ?_⟩
  · exact (((houtcome hshort).1 address 254).mp hfind).1
  · exact (find_is_largest_viable standard ([] :: seeds) (.uniform 2)).1.mpr (.inl (by decide))

end MultisigVault.DerivationScheme
