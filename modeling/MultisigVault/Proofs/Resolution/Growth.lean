import MultisigVault.Proofs.Resolution.Reading

/-!
# Resolving after the tables have grown

A stored message refers to its tables by their keys and to addresses by their indexes,
and the first table with a key is the one that counts.  As long as these tables stay and
are only appended to, the message keeps the accounts it had.  Where they are not touched
at all, resolving has the same outcome, also when it fails.
-/

namespace MultisigVault

open Outcome
open scoped List

namespace LookupTable

/-! ## Tables that change around those in use -/

/-- A key is looked up among the tables with one of some keys, if it is one of them. -/
theorem find_filter {keys : List Address} {key : Address} (hkey : key ∈ keys)
    (tables : List LookupTable) :
    find (tables.filter fun table => table.key ∈ keys) key = find tables key := by
  rw [find, List.find?_filter, find]
  congr 1
  congr 1
  funext table
  by_cases htable : table.key = key
  · simp [htable, hkey]
  · simp [htable]

/-- Whether a table is an earlier one with addresses appended. -/
def Extends (grown table : LookupTable) : Prop :=
  grown.key = table.key ∧ table.addresses <+: grown.addresses

/-- Appending to some tables of a list leaves every key with its table, or that table
with addresses appended. -/
theorem grownAt_of_extends {tables grown : List LookupTable}
    (hextends : List.Forall₂ (fun table later => later.Extends table) tables grown)
    (key : Address) : GrownAt tables grown key := by
  -- The first table with the key stands at the same place in both lists.
  induction hextends with
  | nil => exact grownAt_self [] key
  | @cons table later tables grown hhead _ ih =>
      obtain ⟨hkey, hprefix⟩ := hhead
      intro found hfind
      rw [find_eq_ok_iff] at hfind
      by_cases hfirst : table.key = key
      · rw [List.find?_cons_of_pos (by simpa using hfirst)] at hfind
        obtain rfl := Option.some.inj hfind
        refine ⟨later, find_eq_ok_iff.mpr ?_, hprefix⟩
        exact List.find?_cons_of_pos (by simpa [hkey] using hfirst)
      · rw [List.find?_cons_of_neg (by simpa using hfirst)] at hfind
        obtain ⟨answer, hanswer, hstarts⟩ := ih found (find_eq_ok_iff.mpr hfind)
        refine ⟨answer, find_eq_ok_iff.mpr ?_, hstarts⟩
        rw [List.find?_cons_of_neg (by simpa [hkey] using hfirst)]
        exact find_eq_ok_iff.mp hanswer

/-- Of the tables in use only their keys are listed. -/
theorem map_readonly (tables : List LookupTable) :
    tables.map (fun table => AccountMeta.readonly table.key false) =
      (tables.map key).map (.readonly · false) := by
  rw [List.map_map]
  rfl

end LookupTable

namespace Message

variable {message : Message} {tables later : List LookupTable}

/-! ## What resolving makes of the change -/

/-- Resolving sees nothing of the tables but what is found under the keys in use. -/
theorem resolve_congr (hfind : ∀ key ∈ message.tableKeys,
      LookupTable.find later key = LookupTable.find tables key)
    (vault : Address) (ephemeralSigners : List Address) :
    message.resolve vault ephemeralSigners later =
      message.resolve vault ephemeralSigners tables := by
  rw [resolve, resolve, mapM_congr hfind]

/-- Whether resolving, if it succeeds before, also does later, with the same accounts
and with tables of the same keys in the same order. -/
def KeepsAccounts (before later : Except ResolveError ResolvedAccounts) : Prop :=
  ∀ resolved, before = .ok resolved →
    ∃ again, later = .ok again ∧ again.accounts = resolved.accounts ∧
      again.tables.map LookupTable.key = resolved.tables.map LookupTable.key

/-- The tables in use are found again. -/
theorem mapM_find_of_grownAt
    (hgrown : ∀ lookup ∈ message.lookups, LookupTable.GrownAt tables later lookup.table)
    {used : List LookupTable} (hused : message.tableKeys.mapM (LookupTable.find tables) = .ok used) :
    ∃ found, message.tableKeys.mapM (LookupTable.find later) = .ok found := by
  apply mapM_succeeds_iff.mpr
  intro key hkey
  obtain ⟨table, -, hfind⟩ := exists_mem_of_mapM_eq_ok hused hkey
  obtain ⟨lookup, hlookup, rfl⟩ := mem_tableKeys_iff.mp hkey
  obtain ⟨grown, hfound, -⟩ := hgrown lookup hlookup table hfind
  exact ⟨grown, hfound⟩

theorem keepsAccounts_of_grownAt
    (hgrown : ∀ lookup ∈ message.lookups, LookupTable.GrownAt tables later lookup.table)
    (vault : Address) (ephemeralSigners : List Address) :
    KeepsAccounts (message.resolve vault ephemeralSigners tables)
      (message.resolve vault ephemeralSigners later) := by
  intro resolved hresolve
  obtain ⟨groups, hused, hgroups, haccounts⟩ := resolve_eq_ok_iff.mp hresolve
  obtain ⟨found, hfound⟩ := mapM_find_of_grownAt hgrown hused
  have hkeys : found.map LookupTable.key = resolved.tables.map LookupTable.key := by
    rw [map_key_of_mapM_find hfound, map_key_of_mapM_find hused]
  have hread : message.lookups.mapM (fun lookup => lookup.read later) = .ok groups :=
    mapM_eq_ok_imp (fun lookup hlookup _ => TableLookup.read_of_grownAt (hgrown lookup hlookup))
      hgroups
  let again : ResolvedAccounts := ⟨resolved.accounts, found⟩
  have hagain : message.resolve vault ephemeralSigners later = .ok again := by
    apply resolve_eq_ok_iff.mpr
    refine ⟨groups, hfound, hread, ?_⟩
    rw [LookupTable.map_readonly, hkeys, ← LookupTable.map_readonly]
    exact haccounts
  exact ⟨again, hagain, rfl, hkeys⟩

/-- A message keeps its accounts when the first table with each of its keys, where there
was one, is still there with nothing but addresses appended.  Appending to any of the
tables is such a change.  Reordering tables with different keys, and adding or removing
tables the message does not refer to, changes nothing at all. -/
theorem resolve_outlasts_growth (message : Message) (vault : Address)
    (ephemeralSigners : List Address) (tables later : List LookupTable) :
    let outcome := message.resolve vault ephemeralSigners
    let isUsed (table : LookupTable) : Bool := table.key ∈ message.lookups.map TableLookup.table
    ((∀ lookup ∈ message.lookups, LookupTable.GrownAt tables later lookup.table) →
      KeepsAccounts (outcome tables) (outcome later)) ∧
    (List.Forall₂ (fun table grown => grown.Extends table) tables later →
      KeepsAccounts (outcome tables) (outcome later)) ∧
    ((tables.map LookupTable.key).Nodup → tables ~ later → outcome later = outcome tables) ∧
    (tables.filter isUsed = later.filter isUsed → outcome later = outcome tables) := by
  intro outcome isUsed
  refine ⟨?_, ?_, ?_, ?_⟩
  · intro hgrown
    exact keepsAccounts_of_grownAt hgrown vault ephemeralSigners
  · intro hextends
    apply keepsAccounts_of_grownAt
    intro lookup _
    exact LookupTable.grownAt_of_extends hextends lookup.table
  · intro hkeys hperm
    apply resolve_congr
    intro key _
    rw [LookupTable.find, LookupTable.find, LookupTable.find?_perm hkeys hperm]
  · intro hused
    apply resolve_congr
    intro key hkey
    have hmem : key ∈ message.lookups.map TableLookup.table := by
      rwa [tableKeys, List.mem_eraseDups] at hkey
    rw [← LookupTable.find_filter hmem later, ← LookupTable.find_filter hmem tables]
    exact congrArg (LookupTable.find · key) hused.symm

/-- Three lookups of two tables.  Later the tables stand in another order, among others
and with addresses appended, and an empty table comes to share a key. -/
theorem resolve_outlasts_growth_reordered :
    let message : Message :=
      ⟨1, 1, 0, [.uniform 1], [],
        [⟨.uniform 8, [1], [0]⟩, ⟨.uniform 9, [0], []⟩, ⟨.uniform 8, [], [1]⟩]⟩
    let tables : List LookupTable :=
      [⟨.uniform 9, [.uniform 5]⟩, ⟨.uniform 8, [.uniform 3, .uniform 4]⟩]
    let later : List LookupTable :=
      [⟨.uniform 7, [.uniform 2]⟩, ⟨.uniform 8, [.uniform 3, .uniform 4, .uniform 6]⟩,
        ⟨.uniform 9, [.uniform 5, .uniform 2]⟩, ⟨.uniform 8, []⟩]
    let appended : List LookupTable :=
      [⟨.uniform 9, [.uniform 5, .uniform 2]⟩, ⟨.uniform 8, [.uniform 3, .uniform 4]⟩]
    let outcome := message.resolve (.uniform 1) []
    (∃ resolved again, outcome tables = .ok resolved ∧ outcome later = .ok again ∧
      again.accounts = resolved.accounts ∧ again.tables ≠ resolved.tables) ∧
    KeepsAccounts (outcome tables) (outcome appended) ∧
    outcome tables.reverse = outcome tables ∧
    outcome (⟨.uniform 7, [.uniform 2]⟩ :: tables) = outcome tables := by
  intro message tables later appended outcome
  have hresolve : outcome tables = .ok
      { accounts := [.readonly (.uniform 8) false, .readonly (.uniform 9) false,
          .writable (.uniform 1) false, .writable (.uniform 4) false,
          .readonly (.uniform 3) false, .writable (.uniform 5) false,
          .readonly (.uniform 4) false]
        tables := tables.reverse } := by decide
  have hkeys : ∀ lookup ∈ message.lookups,
      lookup.table = .uniform 8 ∨ lookup.table = .uniform 9 := by decide
  have hgrown : ∀ lookup ∈ message.lookups, LookupTable.GrownAt tables later lookup.table := by
    intro lookup hlookup table hfind
    rcases hkeys lookup hlookup with hkey | hkey
    · rw [hkey] at hfind ⊢
      obtain rfl := Except.ok.inj hfind
      exact ⟨⟨.uniform 8, [.uniform 3, .uniform 4, .uniform 6]⟩, by decide, [.uniform 6], rfl⟩
    · rw [hkey] at hfind ⊢
      obtain rfl := Except.ok.inj hfind
      exact ⟨⟨.uniform 9, [.uniform 5, .uniform 2]⟩, by decide, [.uniform 2], rfl⟩
  obtain ⟨again, hagain, haccounts, -⟩ :=
    (resolve_outlasts_growth message (.uniform 1) [] tables later).1 hgrown _ hresolve
  have htables : outcome later = .ok again → again.tables ≠ tables.reverse := by
    intro hlater hsame
    have hshort : (outcome later).map ResolvedAccounts.tables ≠ .ok tables.reverse := by decide
    exact hshort (by rw [hlater, Except.map, hsame])
  refine ⟨⟨_, again, hresolve, hagain, haccounts, htables hagain⟩, ?_, ?_, ?_⟩
  · apply (resolve_outlasts_growth message (.uniform 1) [] tables appended).2.1
    exact .cons ⟨rfl, [.uniform 2], rfl⟩ (.cons ⟨rfl, List.prefix_rfl⟩ .nil)
  · apply (resolve_outlasts_growth message (.uniform 1) [] tables tables.reverse).2.2.1
    · decide
    · exact (List.reverse_perm tables).symm
  · apply (resolve_outlasts_growth message (.uniform 1) [] tables _).2.2.2
    decide

end Message

end MultisigVault
