import MultisigVault.Proofs.Compilation.Canonical

/-!
# Offering a roster to any tables

A roster may be offered to tables one after the other, in any number, and a call may
fail.  Whatever the calls are, each account is either still in the roster, as it was and
in its old order, or was returned by exactly one call.  The payer stays in front and the
signers stay, so only the number of accounts or signers can be a reason not to lay out
what remains.
-/

namespace MultisigVault

open Outcome
open scoped List

namespace Roster

/-! ## One call -/

/-- Extracting in place changes the roster only when it succeeds. -/
theorem offer_eq (roster : Roster) (table : LookupTable) :
    roster.offer table =
      match roster.extract table with
      | .ok (extracted, rest) => (.ok extracted, rest)
      | .error cause => (.error cause, roster) := by
  rw [offer, extractInPlace, extract]
  simp only [run_bind, run_get, run_liftM, run_modify]
  cases locate table (roster.block false true) with
  | error cause => rfl
  | ok writable =>
      dsimp only
      cases locate table (roster.block false false) with
      | error cause => rfl
      | ok readonly =>
          dsimp only
          rw [ok_bind, ok_bind]
          by_cases hempty : (writable.isEmpty && readonly.isEmpty) = true
          · -- Nothing is located, so the filter in place keeps every account.
            obtain ⟨rfl, rfl⟩ : writable = [] ∧ readonly = [] := by simpa using hempty
            rw [if_pos hempty, if_pos hempty]
            simp only [run_pure, pure_eq_ok, List.map_nil, LoadedAddresses.toList, List.append_nil,
              List.contains_nil, Bool.not_false, List.filter_true]
          · rw [if_neg hempty, if_neg hempty]
            rfl

/-- What a table takes over and what it leaves are all the addresses. -/
theorem addresses_without_perm (roster : Roster) (table : LookupTable) :
    (roster.without table).addresses ++ (roster.drain table).loaded.toList ~
      roster.addresses := by
  have hloaded : roster.loaded [table] = (roster.drain table).loaded := by
    simp [loaded, drains, Drain.loaded, Drain.group]
  calc
    (roster.without table).addresses ++ (roster.drain table).loaded.toList
      ~ (roster.without table).staticKeys ++ (roster.drain table).loaded.toList :=
        (roster.without table).staticKeys_perm.symm.append_right _
    _ = roster.combined [table] := by rw [combined, hloaded]; rfl
    _ ~ roster.addresses := roster.combined_perm [table]

/-- A table that takes over nothing leaves everything. -/
theorem without_of_isEmpty {roster : Roster} (hnodup : roster.addresses.Nodup)
    {table : LookupTable} (hempty : (roster.drain table).loaded.isEmpty = true) :
    roster.without table = roster := by
  rw [without_eq hnodup, (LoadedAddresses.toList_eq_nil_iff _).mpr hempty]
  simp

/-- What a call does, returns and needs: it fails on an index beyond one byte, finds
nothing to take over, or returns what leaves the roster. -/
theorem offer_cases {roster : Roster} (hnodup : roster.addresses.Nodup) (table : LookupTable) :
    (¬table.Reaches roster.nonSigners ∧
      roster.offer table = (.error .lookupIndexOverflow, roster)) ∨
    (table.Reaches roster.nonSigners ∧ (roster.drain table).loaded.isEmpty = true ∧
      roster.offer table = (.ok none, roster)) ∨
    (table.Reaches roster.nonSigners ∧ (roster.drain table).loaded.isEmpty = false ∧
      roster.offer table =
        (.ok (some ((roster.drain table).lookup, (roster.drain table).loaded)),
          roster.without table)) := by
  rw [offer_eq, extract_eq hnodup]
  by_cases hreaches : table.Reaches roster.nonSigners
  · rw [if_pos hreaches]
    cases hempty : (roster.drain table).loaded.isEmpty with
    | true =>
        refine .inr (.inl ⟨hreaches, rfl, ?_⟩)
        simp only [Drain.extracted?, hempty, if_true, without_of_isEmpty hnodup hempty]
    | false =>
        refine .inr (.inr ⟨hreaches, rfl, ?_⟩)
        simp only [Drain.extracted?, hempty, Bool.false_eq_true, if_false]
  · exact .inl ⟨hreaches, by rw [if_neg hreaches]⟩

/-! ## Any calls -/

/-- A roster in use, with the addresses that the calls so far have returned. -/
structure Session where
  roster : Roster
  returned : List Address

namespace Session

def start (roster : Roster) : Session :=
  ⟨roster, []⟩

/-- The addresses that the outcome of a call hands out. -/
def handedOut : Except CompileError (Option (TableLookup × LoadedAddresses)) → List Address
  | .ok (some (_, loaded)) => loaded.toList
  | .ok none => []
  | .error _ => []

/-- Goes on after a call, also after one that failed. -/
def offer (session : Session) (table : LookupTable) : Session :=
  let (outcome, roster) := session.roster.offer table
  ⟨roster, session.returned ++ handedOut outcome⟩

def run (session : Session) (tables : List LookupTable) : Session :=
  tables.foldl offer session

/-- Nothing of the initial roster was lost, changed, moved or handed out twice, and no
signer was handed out. -/
structure Conserves (initial : Roster) (session : Session) : Prop where
  same_payer : session.roster.payer = initial.payer
  payer_first : ∃ others, session.roster.accounts = .writable initial.payer true :: others
  /-- An address is in the roster or was returned. -/
  accounted : session.roster.addresses ++ session.returned ~ initial.addresses
  /-- No address is in two places, or twice in one. -/
  once : (session.roster.addresses ++ session.returned).Nodup
  /-- What remains has its initial privileges and its initial order. -/
  in_order : session.roster.accounts.Sublist initial.accounts
  signers_stay : ∀ account ∈ initial.accounts, account.isSigner = true →
    account ∈ session.roster.accounts

variable {initial : Roster} {session : Session}

theorem conserves_start (hinitial : initial.WellFormed) : (start initial).Conserves initial where
  same_payer := rfl
  payer_first := hinitial.payer_first
  accounted := by rw [start, List.append_nil]
  once := by simpa [start] using hinitial.nodup
  in_order := List.Sublist.refl _
  signers_stay := fun _ hmem _ => hmem

theorem Conserves.wellFormed (hsession : session.Conserves initial) :
    session.roster.WellFormed where
  payer_first := by
    rw [hsession.same_payer]
    exact hsession.payer_first
  nodup := (List.nodup_append.mp hsession.once).1

/-- Handing out what a table takes over. -/
theorem Conserves.without (hsession : session.Conserves initial) (table : LookupTable) :
    Conserves initial ⟨session.roster.without table,
      session.returned ++ (session.roster.drain table).loaded.toList⟩ := by
  have haccounted :
      (session.roster.without table).addresses ++
          (session.returned ++ (session.roster.drain table).loaded.toList) ~
        session.roster.addresses ++ session.returned := by
    calc
      (session.roster.without table).addresses ++
          (session.returned ++ (session.roster.drain table).loaded.toList)
        ~ (session.roster.without table).addresses ++
            ((session.roster.drain table).loaded.toList ++ session.returned) :=
          List.perm_append_comm.append_left _
      _ = (session.roster.without table).addresses ++
            (session.roster.drain table).loaded.toList ++ session.returned := by
          rw [List.append_assoc]
      _ ~ session.roster.addresses ++ session.returned :=
          (session.roster.addresses_without_perm table).append_right _
  exact {
    same_payer := hsession.same_payer
    payer_first := by
      have hfirst := (hsession.wellFormed.without table).payer_first
      rwa [← hsession.same_payer]
    accounted := haccounted.trans hsession.accounted
    once := haccounted.nodup_iff.mpr hsession.once
    in_order := List.filter_sublist.trans hsession.in_order
    signers_stay := by
      intro account hmem hsigner
      have hstays := hsession.signers_stay account hmem hsigner
      exact List.mem_filter.mpr ⟨hstays, by rw [hsigner, Bool.true_or]⟩ }

/-- One call, whatever its outcome. -/
theorem Conserves.offer (hsession : session.Conserves initial) (table : LookupTable) :
    (session.offer table).Conserves initial := by
  rcases offer_cases hsession.wellFormed.nodup table with
    ⟨-, hoffer⟩ | ⟨-, -, hoffer⟩ | ⟨-, -, hoffer⟩
  · simpa only [Session.offer, hoffer, handedOut, List.append_nil] using hsession
  · simpa only [Session.offer, hoffer, handedOut, List.append_nil] using hsession
  · simpa only [Session.offer, hoffer, handedOut] using hsession.without table

/-- All calls of a run. -/
theorem Conserves.run (hsession : session.Conserves initial) (tables : List LookupTable) :
    (session.run tables).Conserves initial := by
  induction tables generalizing session with
  | nil => exact hsession
  | cons table rest ih => exact ih (hsession.offer table)

end Session

/-- A call that fails, or finds nothing to take over, leaves the roster as it was. -/
theorem offer_unchanged {roster : Roster} (hnodup : roster.addresses.Nodup) {table : LookupTable}
    (hnothing : ∀ extracted, (roster.offer table).1 ≠ .ok (some extracted)) :
    (roster.offer table).2 = roster := by
  rcases offer_cases hnodup table with ⟨-, hoffer⟩ | ⟨-, -, hoffer⟩ | ⟨-, -, hoffer⟩
  · rw [hoffer]
  · rw [hoffer]
  · exact absurd (congrArg Prod.fst hoffer) (hnothing _)

/-- After any calls, with any outcomes, the accounts of the instructions are all accounted
for, another call that fails or finds nothing changes nothing, and the roster can be laid
out unless it has too many keys or signers. -/
theorem session_conserves_accounts (payer : Address) (instructions : List Instruction)
    (tables : List LookupTable) :
    let initial := ofInstructions payer instructions
    let session := (Session.start initial).run tables
    session.Conserves initial ∧
      (∀ table, (∀ extracted, (session.roster.offer table).1 ≠ .ok (some extracted)) →
        (session.roster.offer table).2 = session.roster) ∧
      ∀ cause, session.roster.layout = .error cause ↔
        cause = .tooManyKeys ∧
          (256 < session.roster.length ∨ 255 < session.roster.signers.length) := by
  intro initial session
  have hsession : session.Conserves initial :=
    (Session.conserves_start (wellFormed_ofInstructions payer instructions)).run tables
  have hroster := hsession.wellFormed
  exact ⟨hsession, fun _ => offer_unchanged hroster.nodup, fun _ => layout_eq_error_iff hroster⟩

/-- The first table holds the writable account within reach and the readonly account
beyond it, the second one holds only a signer, and the third one takes over both. -/
theorem session_conserves_accounts_late_overflow :
    let initial := ofInstructions (.uniform 1)
      [⟨.uniform 2, [.writable (.uniform 3) false, .readonly (.uniform 4) true,
        .readonly (.uniform 5) false], []⟩]
    let distant : LookupTable :=
      ⟨.uniform 8, .uniform 3 :: List.replicate 256 .zero ++ [.uniform 5]⟩
    let session := (Session.start initial).run
      [distant, ⟨.uniform 9, [.uniform 4]⟩, ⟨.uniform 10, [.uniform 5, .uniform 3]⟩]
    (initial.offer distant).1 = .error .lookupIndexOverflow ∧
      (initial.offer distant).2 = initial ∧
      session.Conserves initial ∧
      session.roster.addresses = [.uniform 1, .uniform 2, .uniform 4] ∧
      session.returned = [.uniform 3, .uniform 5] := by
  intro initial distant session
  have hoverflow : (initial.offer distant).1 = .error .lookupIndexOverflow := by decide +kernel
  have hnothing (extracted) : (initial.offer distant).1 ≠ .ok (some extracted) := by
    rw [hoverflow]
    nofun
  have hunchanged : (initial.offer distant).2 = initial :=
    (session_conserves_accounts _ _ []).2.1 distant hnothing
  refine ⟨hoverflow, hunchanged, (session_conserves_accounts ..).1, ?_, ?_⟩
  · decide +kernel
  · decide +kernel

end Roster

end MultisigVault
