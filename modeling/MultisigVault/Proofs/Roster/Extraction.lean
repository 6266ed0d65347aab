import Mathlib.Data.List.Nodup
import MultisigVault.Compilation
import MultisigVault.Proofs.LookupTable.Holding
import MultisigVault.Proofs.Outcome

/-!
# Moving accounts into lookup tables

A table takes over every account that does not sign and whose address it holds,
and nothing else changes.  Offering the roster to several tables fails only if
some first occurrence lies beyond the reach of a one-byte index; otherwise each
table drains what no earlier table holds.
-/

namespace MultisigVault

open Outcome
open scoped List

theorem LoadedAddresses.toList_eq_nil_iff (loaded : LoadedAddresses) :
    loaded.toList = [] ↔ loaded.isEmpty = true := by
  simp [LoadedAddresses.toList, LoadedAddresses.isEmpty]

namespace Roster

/-- The addresses that a table holds, each with its position. -/
theorem filterMap_position? (table : LookupTable) (keys : List Address) :
    (keys.filterMap fun key => (table.position? key).map fun index => (index, key)) =
      (table.held keys).map fun key => (table.addresses.idxOf key, key) := by
  induction keys with
  | nil => rfl
  | cons key rest ih =>
      by_cases hheld : key ∈ table.addresses
      · simpa [LookupTable.held, hheld, LookupTable.position?_of_mem hheld] using ih
      · simpa [LookupTable.held, hheld, LookupTable.position?_of_not_mem hheld] using ih

theorem locate_eq (table : LookupTable) (keys : List Address) :
    locate table keys =
      if table.Reaches keys then .ok ((table.held keys).map fun key => (table.index key, key))
      else .error .lookupIndexOverflow := by
  rw [locate, filterMap_position?, List.mapM_map]
  split
  · next hreaches =>
      apply mapM_eq_ok_map
      intro key hkey
      simp only [LookupTable.held, List.mem_filter, decide_eq_true_eq] at hkey
      simp only [Function.comp_apply, if_pos (hreaches key hkey.1 hkey.2), LookupTable.index]
  · next hreaches =>
      simp only [LookupTable.Reaches, not_forall] at hreaches
      obtain ⟨key, hkey, hheld, hfar⟩ := hreaches
      refine mapM_eq_error ?_ ⟨key, by simp [LookupTable.held, hkey, hheld], if_neg hfar⟩
      intro other _ cause hcause
      simp only [Function.comp_apply] at hcause
      split at hcause
      · cases hcause
      · exact (Except.error.inj hcause).symm

/-! ## One table -/

/-- The addresses of all accounts, in roster order. -/
def addresses (roster : Roster) : List Address :=
  roster.accounts.map AccountMeta.address

/-- The addresses of the accounts that do not sign, in roster order. -/
def nonSigners (roster : Roster) : List Address :=
  (roster.accounts.filter fun account => !account.isSigner).map AccountMeta.address

/-- What remains when a table has taken over all it may. -/
def without (roster : Roster) (table : LookupTable) : Roster :=
  { roster with
    accounts := roster.accounts.filter fun account =>
      account.isSigner || account.address ∉ table.addresses }

theorem mem_block_iff {roster : Roster} {isSigner isWritable : Bool} {key : Address} :
    key ∈ roster.block isSigner isWritable ↔
      ⟨key, isSigner, isWritable⟩ ∈ roster.accounts := by
  simp only [block, List.mem_map, List.mem_filter, Bool.and_eq_true, beq_iff_eq]
  constructor
  · rintro ⟨⟨address, signs, writes⟩, ⟨hmem, rfl, rfl⟩, rfl⟩
    exact hmem
  · intro hmem
    exact ⟨_, ⟨hmem, rfl, rfl⟩, rfl⟩

theorem mem_nonSigners_iff {roster : Roster} {key : Address} :
    key ∈ roster.nonSigners ↔ key ∈ roster.block false true ∨ key ∈ roster.block false false := by
  simp only [mem_block_iff, nonSigners, List.mem_map, List.mem_filter, Bool.not_eq_true']
  constructor
  · rintro ⟨⟨address, signs, writes⟩, ⟨hmem, rfl⟩, rfl⟩
    cases writes
    · exact .inr hmem
    · exact .inl hmem
  · rintro (hmem | hmem)
    · exact ⟨_, ⟨hmem, rfl⟩, rfl⟩
    · exact ⟨_, ⟨hmem, rfl⟩, rfl⟩

theorem mem_nonSigners_of_mem_block {roster : Roster} {isWritable : Bool} {key : Address}
    (hkey : key ∈ roster.block false isWritable) : key ∈ roster.nonSigners := by
  cases isWritable
  · exact mem_nonSigners_iff.mpr (.inr hkey)
  · exact mem_nonSigners_iff.mpr (.inl hkey)

theorem reaches_nonSigners_iff {roster : Roster} {table : LookupTable} :
    table.Reaches roster.nonSigners ↔
      table.Reaches (roster.block false true) ∧ table.Reaches (roster.block false false) := by
  simp only [LookupTable.Reaches, mem_nonSigners_iff, or_imp, forall_and]

/-- An account whose address no other account has is determined by that address. -/
theorem address_mem_nonSigners_iff {roster : Roster} (hnodup : roster.addresses.Nodup)
    {account : AccountMeta} (hmem : account ∈ roster.accounts) :
    account.address ∈ roster.nonSigners ↔ account.isSigner = false := by
  simp only [nonSigners, List.mem_map, List.mem_filter, Bool.not_eq_true']
  constructor
  · rintro ⟨other, ⟨hother, hsigns⟩, heq⟩
    rwa [List.inj_on_of_nodup_map hnodup hother hmem heq] at hsigns
  · intro hsigns
    exact ⟨account, ⟨hmem, hsigns⟩, rfl⟩

end Roster

/-- What one table takes over from a roster. -/
structure Drain where
  table : LookupTable
  writable : List Address
  readonly : List Address

namespace Drain

def lookup (drain : Drain) : TableLookup :=
  ⟨drain.table.key, drain.writable.map drain.table.index, drain.readonly.map drain.table.index⟩

def loaded (drain : Drain) : LoadedAddresses :=
  ⟨drain.writable, drain.readonly⟩

/-- The addresses that are taken over as writable, or those taken over as readonly. -/
def group (drain : Drain) : (isWritable : Bool) → List Address
  | true => drain.writable
  | false => drain.readonly

/-- A table that takes over nothing makes no lookup. -/
def extracted? (drain : Drain) : Option (TableLookup × LoadedAddresses) :=
  if drain.loaded.isEmpty then none else some (drain.lookup, drain.loaded)

end Drain

namespace Roster

/-- What a table takes over: the accounts that do not sign and that it holds. -/
def drain (roster : Roster) (table : LookupTable) : Drain :=
  ⟨table, table.held (roster.block false true), table.held (roster.block false false)⟩

@[simp]
theorem table_drain (roster : Roster) (table : LookupTable) :
    (roster.drain table).table = table := rfl

@[simp]
theorem group_drain (roster : Roster) (table : LookupTable) (isWritable : Bool) :
    (roster.drain table).group isWritable = table.held (roster.block false isWritable) := by
  cases isWritable <;> rfl

/-- The accounts that stay are those whose address is not drained. -/
theorem without_eq {roster : Roster} (hnodup : roster.addresses.Nodup) (table : LookupTable) :
    roster.without table =
      { roster with
        accounts := roster.accounts.filter fun account =>
          !(roster.drain table).loaded.toList.contains account.address } := by
  have hdrained (key : Address) :
      key ∈ (roster.drain table).loaded.toList ↔
        key ∈ roster.nonSigners ∧ key ∈ table.addresses := by
    simp only [drain, Drain.loaded, LoadedAddresses.toList, LookupTable.held, List.mem_append,
      List.mem_filter, decide_eq_true_eq, mem_nonSigners_iff, or_and_right]
  rw [without, Roster.mk.injEq]
  constructor
  · rfl
  · apply List.filter_congr
    intro account hmem
    rw [Bool.eq_iff_iff, Bool.not_eq_true', ← Bool.not_eq_true, List.contains_iff_mem, hdrained,
      address_mem_nonSigners_iff hnodup hmem]
    cases account.isSigner <;> simp

/-- Offering a table moves exactly its drain out of the roster, unless an index
does not fit one byte. -/
theorem extract_eq {roster : Roster} (hnodup : roster.addresses.Nodup) (table : LookupTable) :
    roster.extract table =
      if table.Reaches roster.nonSigners then
        .ok ((roster.drain table).extracted?, roster.without table)
      else .error .lookupIndexOverflow := by
  rw [extract, locate_eq, locate_eq]
  by_cases hwritable : table.Reaches (roster.block false true)
  · by_cases hreadonly : table.Reaches (roster.block false false)
    · rw [if_pos hwritable, if_pos hreadonly,
        if_pos (reaches_nonSigners_iff.mpr ⟨hwritable, hreadonly⟩), without_eq hnodup]
      simp only [ok_bind, pure_eq_ok, List.isEmpty_map, List.map_map, Function.comp_def]
      by_cases hempty : (roster.drain table).loaded.isEmpty
      · have hnone := (roster.drain table).loaded.toList_eq_nil_iff.mpr hempty
        simp only [Drain.extracted?, hempty, hnone, if_true, List.contains_nil, Bool.not_false,
          List.filter_true]
        exact if_pos hempty
      · simp only [Drain.extracted?, hempty, List.map_id']
        exact if_neg hempty
    · rw [if_pos hwritable, if_neg hreadonly,
        if_neg fun hall => hreadonly (reaches_nonSigners_iff.mp hall).2, ok_bind, error_bind]
  · rw [if_neg hwritable, if_neg fun hall => hwritable (reaches_nonSigners_iff.mp hall).1,
      error_bind]

/-- A table never takes over a signer. -/
theorem block_without_signer (roster : Roster) (table : LookupTable) (isWritable : Bool) :
    (roster.without table).block true isWritable = roster.block true isWritable := by
  simp only [block, without, List.filter_filter]
  congr 1
  apply List.filter_congr
  intro account _
  cases account.isSigner <;> simp

/-- Of the accounts that do not sign, those remain that the table does not hold. -/
theorem block_without_nonSigner (roster : Roster) (table : LookupTable) (isWritable : Bool) :
    (roster.without table).block false isWritable =
      (roster.block false isWritable).filter fun key => key ∉ table.addresses := by
  simp only [block, without, List.filter_filter, List.filter_map]
  congr 1
  apply List.filter_congr
  intro account _
  cases account.isSigner <;> simp [Bool.and_comm]

theorem addresses_without_sublist (roster : Roster) (table : LookupTable) :
    (roster.without table).addresses.Sublist roster.addresses :=
  (List.filter_sublist ..).map _

/-! ## Several tables -/

/-- What remains when all the tables have taken over what they may. -/
def withoutAll (roster : Roster) (tables : List LookupTable) : Roster :=
  tables.foldl without roster

/-- What each of the tables takes over when they are offered in order. -/
def drains (roster : Roster) : List LookupTable → List Drain
  | [] => []
  | table :: rest => roster.drain table :: (roster.without table).drains rest

/-- Whether no table stops the extraction: each reaches what is left for it. -/
def ReachedBy (roster : Roster) : List LookupTable → Prop
  | [] => True
  | table :: rest => table.Reaches roster.nonSigners ∧ (roster.without table).ReachedBy rest

instance decidableReachedBy :
    (roster : Roster) → (tables : List LookupTable) → Decidable (roster.ReachedBy tables)
  | _, [] => inferInstanceAs (Decidable True)
  | roster, table :: rest =>
      haveI := decidableReachedBy (roster.without table) rest
      inferInstanceAs (Decidable (_ ∧ _))

/-- Offering the tables in order moves each table's drain out of the roster,
unless an index does not fit one byte. -/
theorem extractAll_eq {roster : Roster} (hnodup : roster.addresses.Nodup)
    (tables : List LookupTable) :
    roster.extractAll tables =
      if roster.ReachedBy tables then
        .ok ((roster.drains tables).filterMap Drain.extracted?, roster.withoutAll tables)
      else .error .lookupIndexOverflow := by
  induction tables generalizing roster with
  | nil => rfl
  | cons table rest ih =>
      rw [extractAll, extract_eq hnodup]
      by_cases hreaches : table.Reaches roster.nonSigners
      · rw [if_pos hreaches, ok_bind]
        dsimp only
        rw [ih (hnodup.sublist (addresses_without_sublist roster table))]
        by_cases hrest : (roster.without table).ReachedBy rest
        · rw [if_pos hrest, if_pos ⟨hreaches, hrest⟩, drains, List.filterMap_cons]
          cases (roster.drain table).extracted? <;> rfl
        · rw [if_neg hrest, if_neg fun hall => hrest hall.2, error_bind]
      · rw [if_neg hreaches, if_neg fun hall => hreaches hall.1, error_bind]

theorem accounts_withoutAll_sublist (roster : Roster) (tables : List LookupTable) :
    (roster.withoutAll tables).accounts.Sublist roster.accounts := by
  induction tables generalizing roster with
  | nil => exact List.Sublist.refl _
  | cons table rest ih => exact (ih (roster.without table)).trans List.filter_sublist

theorem block_withoutAll_signer (roster : Roster) (tables : List LookupTable)
    (isWritable : Bool) :
    (roster.withoutAll tables).block true isWritable = roster.block true isWritable := by
  induction tables generalizing roster with
  | nil => rfl
  | cons table rest ih =>
      rw [withoutAll, List.foldl_cons, ← withoutAll, ih, block_without_signer]

end Roster

namespace Roster

open LookupTable (NoneHolds FirstHolder)

/-- Of the accounts that do not sign, those remain that no table holds. -/
theorem block_withoutAll_nonSigner (roster : Roster) (tables : List LookupTable)
    (isWritable : Bool) :
    (roster.withoutAll tables).block false isWritable =
      (roster.block false isWritable).filter fun key => NoneHolds tables key := by
  induction tables generalizing roster with
  | nil => simp [withoutAll]
  | cons table rest ih =>
      rw [withoutAll, List.foldl_cons, ← withoutAll, ih, block_without_nonSigner,
        List.filter_filter]
      apply List.filter_congr
      intro key _
      rw [Bool.eq_iff_iff]
      simp [and_comm]

/-- Each table drains what it holds of the remainder that the tables before it leave. -/
theorem getElem?_drains (roster : Roster) (tables : List LookupTable) (place : Nat) :
    (roster.drains tables)[place]? =
      tables[place]?.map (roster.withoutAll (tables.take place)).drain := by
  induction tables generalizing roster place with
  | nil => simp [drains]
  | cons table rest ih =>
      cases place with
      | zero => simp [drains, withoutAll]
      | succ place => simp [drains, withoutAll, ih]

/-- An address that does not sign is drained by the first table that holds it, in
the group its privilege to be written to decides. -/
theorem mem_group_iff {roster : Roster} {tables : List LookupTable} {place : Nat} {drain : Drain}
    (hdrain : (roster.drains tables)[place]? = some drain) {isWritable : Bool} {key : Address} :
    key ∈ drain.group isWritable ↔
      key ∈ roster.block false isWritable ∧ FirstHolder tables place drain.table key := by
  rw [getElem?_drains, Option.map_eq_some_iff] at hdrain
  obtain ⟨table, hplace, rfl⟩ := hdrain
  simp only [group_drain, table_drain, LookupTable.held, List.mem_filter, decide_eq_true_eq,
    block_withoutAll_nonSigner]
  constructor
  · rintro ⟨⟨hmem, hfirst⟩, hholds⟩
    exact ⟨hmem, hplace, hholds, hfirst⟩
  · rintro ⟨hmem, -, hholds, hfirst⟩
    exact ⟨⟨hmem, hfirst⟩, hholds⟩

/-- Each account that does not sign either remains or is drained by one table. -/
theorem block_perm_drains (roster : Roster) (tables : List LookupTable) (isWritable : Bool) :
    (roster.block false isWritable).Perm
      ((roster.withoutAll tables).block false isWritable ++
        (roster.drains tables).flatMap (Drain.group · isWritable)) := by
  induction tables generalizing roster with
  | nil => simp [withoutAll, drains]
  | cons table rest ih =>
      have hsplit : (roster.block false isWritable).Perm
          (table.held (roster.block false isWritable) ++
            (roster.without table).block false isWritable) := by
        rw [block_without_nonSigner, LookupTable.held]
        simpa only [decide_not] using (List.filter_append_perm _ _).symm
      calc
        roster.block false isWritable
          ~ table.held (roster.block false isWritable) ++
              (roster.without table).block false isWritable := hsplit
        _ ~ table.held (roster.block false isWritable) ++
              (((roster.without table).withoutAll rest).block false isWritable ++
                ((roster.without table).drains rest).flatMap (Drain.group · isWritable)) :=
          (ih (roster.without table)).append_left _
        _ ~ ((roster.without table).withoutAll rest).block false isWritable ++
              (table.held (roster.block false isWritable) ++
                ((roster.without table).drains rest).flatMap (Drain.group · isWritable)) :=
          List.perm_append_comm_assoc ..
        _ = (roster.withoutAll (table :: rest)).block false isWritable ++
              (roster.drains (table :: rest)).flatMap (Drain.group · isWritable) := by
          rw [drains, List.flatMap_cons, group_drain]
          rfl

theorem mem_nonSigners_without {roster : Roster} {table : LookupTable} {key : Address} :
    key ∈ (roster.without table).nonSigners ↔ key ∈ roster.nonSigners ∧ key ∉ table.addresses := by
  simp [mem_nonSigners_iff, block_without_nonSigner, or_and_right]

theorem mem_nonSigners_withoutAll {roster : Roster} {tables : List LookupTable} {key : Address} :
    key ∈ (roster.withoutAll tables).nonSigners ↔
      key ∈ roster.nonSigners ∧ NoneHolds tables key := by
  simp [mem_nonSigners_iff, block_withoutAll_nonSigner, or_and_right]

/-- The extraction goes through exactly when the first holder of every address
that does not sign holds it within the reach of a one-byte index. -/
theorem reachedBy_iff {roster : Roster} {tables : List LookupTable} :
    roster.ReachedBy tables ↔
      ∀ place table key, FirstHolder tables place table key → key ∈ roster.nonSigners →
        table.addresses.idxOf key < 256 := by
  induction tables generalizing roster with
  | nil =>
      apply iff_of_true trivial
      intro place table key hfirst
      cases hfirst.at_place
  | cons head rest ih =>
      rw [ReachedBy, ih]
      constructor
      · rintro ⟨hhead, hrest⟩ (_ | place) table key hfirst hkey
        · obtain ⟨rfl, hholds⟩ := LookupTable.firstHolder_cons_zero.mp hfirst
          exact hhead key hkey hholds
        · obtain ⟨hunheld, hfirst⟩ := LookupTable.firstHolder_cons_succ.mp hfirst
          exact hrest place table key hfirst (mem_nonSigners_without.mpr ⟨hkey, hunheld⟩)
      · intro hall
        constructor
        · intro key hkey hholds
          exact hall 0 head key (LookupTable.firstHolder_cons_zero.mpr ⟨rfl, hholds⟩) hkey
        · intro place table key hfirst hkey
          obtain ⟨hkey, hunheld⟩ := mem_nonSigners_without.mp hkey
          exact hall (place + 1) table key
            (LookupTable.firstHolder_cons_succ.mpr ⟨hunheld, hfirst⟩) hkey

end Roster

end MultisigVault
