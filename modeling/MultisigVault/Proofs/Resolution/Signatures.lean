import MultisigVault.Proofs.Resolution.Reading

/-!
# Which resolved accounts sign

Derived addresses cannot sign, so resolving never lists one as a signer, by whatever
route it reached the list.  The derived addresses decide nothing else.  Two resolutions
of a message that differ in them fail alike or list the same accounts from the same
tables, and any difference is in the signatures of static keys.
-/

namespace MultisigVault

open Outcome

/-- An account without its signature. -/
def AccountMeta.unsigned (account : AccountMeta) : AccountMeta :=
  { account with isSigner := false }

theorem LoadedAddresses.isSigner_of_mem_accounts {loaded : LoadedAddresses}
    {account : AccountMeta} (hmem : account ∈ loaded.accounts) : account.isSigner = false := by
  rcases List.mem_append.mp hmem with hwritable | hreadonly
  · obtain ⟨address, -, rfl⟩ := List.mem_map.mp hwritable
    rfl
  · obtain ⟨address, -, rfl⟩ := List.mem_map.mp hreadonly
    rfl

namespace Message

/-! ## What the derived addresses have no part in -/

/-- The tables in use, and what each lookup names in them. -/
def consult (message : Message) (tables : List LookupTable) :
    Except ResolveError (List LookupTable × List LoadedAddresses) := do
  let used ← message.tableKeys.mapM (LookupTable.find tables)
  let groups ← message.lookups.mapM fun lookup => lookup.read tables
  return (used, groups)

/-- The accounts of a message in front of which some tables are listed and after which
some loaded addresses. -/
def listing (message : Message) (derived : List Address)
    (consulted : List LookupTable × List LoadedAddresses) : ResolvedAccounts where
  accounts := consulted.1.map (fun table => .readonly table.key false) ++
    message.staticAccounts derived ++ consulted.2.flatMap LoadedAddresses.accounts
  tables := consulted.1

/-- The derived addresses come in only after everything that can fail. -/
theorem resolve_eq_map (message : Message) (vault : Address) (ephemeralSigners : List Address)
    (tables : List LookupTable) :
    message.resolve vault ephemeralSigners tables =
      (message.consult tables).map (message.listing (vault :: ephemeralSigners)) := by
  rw [resolve, consult]
  cases hused : message.tableKeys.mapM (LookupTable.find tables) with
  | error cause => rfl
  | ok used =>
      rw [ok_bind, ok_bind, mapM_resolve_used hused, mapM_map]
      cases message.lookups.mapM fun lookup => lookup.read tables <;> rfl

theorem length_tables_of_consult {message : Message} {tables : List LookupTable}
    {consulted : List LookupTable × List LoadedAddresses}
    (hconsult : message.consult tables = .ok consulted) :
    consulted.1.length = message.tableKeys.length := by
  rw [consult, bind_eq_ok_iff] at hconsult
  obtain ⟨used, hused, hconsult⟩ := hconsult
  obtain ⟨groups, -, hconsult⟩ := bind_eq_ok_iff.mp hconsult
  cases hconsult
  rw [← map_key_of_mapM_find hused, List.length_map]

/-! ## The places of the static keys -/

/-- Whether a place among the resolved accounts belongs to a static key.  The static
keys stand directly after the tables. -/
def IsStaticPlace (message : Message) (place : Nat) : Prop :=
  message.tableKeys.length ≤ place ∧
    place < message.tableKeys.length + message.staticKeys.length

theorem length_staticAccounts (message : Message) (derived : List Address) :
    (message.staticAccounts derived).length = message.staticKeys.length :=
  List.length_mapIdx

/-- A static key signs exactly if its index is that of a signer and it is not derived. -/
theorem isSigner_staticAccounts_iff {message : Message} {derived : List Address} {index : Nat}
    {account : AccountMeta} (haccount : (message.staticAccounts derived)[index]? = some account) :
    message.staticKeys[index]? = some account.address ∧
      (account.isSigner = true ↔ index < message.signers.toNat ∧ account.address ∉ derived) := by
  rw [staticAccounts, List.getElem?_mapIdx, Option.map_eq_some_iff] at haccount
  obtain ⟨key, hkey, rfl⟩ := haccount
  refine ⟨hkey, ?_⟩
  rw [Bool.and_eq_true, isSignerIndex, decide_eq_true_eq, Bool.not_eq_true', ← Bool.not_eq_true,
    List.contains_iff_mem]

section

variable {message : Message} {derived : List Address}
  {consulted : List LookupTable × List LoadedAddresses}
  (htables : consulted.1.length = message.tableKeys.length)

include htables

theorem getElem?_listing_static {index : Nat} (hindex : index < message.staticKeys.length) :
    (message.listing derived consulted).accounts[message.tableKeys.length + index]? =
      (message.staticAccounts derived)[index]? := by
  have hstatic := message.length_staticAccounts derived
  rw [listing, List.append_assoc, List.getElem?_append_right, List.length_map, htables,
    Nat.add_sub_cancel_left, List.getElem?_append_left]
  · omega
  · rw [List.length_map, htables]
    exact Nat.le_add_right _ _

/-- Every account that signs stands in the place of a static key. -/
theorem exists_static_of_signer {place : Nat} {account : AccountMeta}
    (haccount : (message.listing derived consulted).accounts[place]? = some account)
    (hsigner : account.isSigner = true) :
    ∃ index, place = message.tableKeys.length + index ∧
      (message.staticAccounts derived)[index]? = some account := by
  rw [listing, List.append_assoc, List.getElem?_append] at haccount
  split at haccount
  · obtain ⟨table, -, rfl⟩ := List.mem_map.mp (List.mem_of_getElem? haccount)
    cases hsigner
  · next hpast =>
      rw [List.length_map, htables] at hpast haccount
      rw [List.getElem?_append] at haccount
      split at haccount
      · exact ⟨_, (Nat.add_sub_cancel' (Nat.le_of_not_lt hpast)).symm, haccount⟩
      · obtain ⟨loaded, -, hmem⟩ := List.mem_flatMap.mp (List.mem_of_getElem? haccount)
        rw [LoadedAddresses.isSigner_of_mem_accounts hmem] at hsigner
        cases hsigner

/-- Away from the static keys nothing depends on what is derived. -/
theorem getElem?_listing_elsewhere {other : List Address} {place : Nat}
    (hplace : ¬message.IsStaticPlace place) :
    (message.listing derived consulted).accounts[place]? =
      (message.listing other consulted).accounts[place]? := by
  have hderived := message.length_staticAccounts derived
  have hother := message.length_staticAccounts other
  have hfront : (consulted.1.map fun table => AccountMeta.readonly table.key false).length =
      message.tableKeys.length := by rw [List.length_map, htables]
  rw [IsStaticPlace] at hplace
  by_cases htable : place < message.tableKeys.length
  · rw [listing, listing, List.append_assoc, List.append_assoc,
      List.getElem?_append_left (hfront.symm ▸ htable),
      List.getElem?_append_left (hfront.symm ▸ htable)]
  · rw [listing, listing, List.getElem?_append_right, List.getElem?_append_right,
      List.length_append, List.length_append, hderived, hother]
    all_goals
      rw [List.length_append, hfront]
      omega

end

/-- Without signatures the same accounts are listed whatever is derived. -/
theorem map_unsigned_listing (message : Message) (derived other : List Address)
    (consulted : List LookupTable × List LoadedAddresses) :
    (message.listing derived consulted).accounts.map AccountMeta.unsigned =
      (message.listing other consulted).accounts.map AccountMeta.unsigned := by
  have hstatic : (message.staticAccounts derived).map AccountMeta.unsigned =
      (message.staticAccounts other).map AccountMeta.unsigned := by
    apply List.ext_getElem?
    intro index
    simp only [staticAccounts, List.getElem?_map, List.getElem?_mapIdx, Option.map_map]
    rfl
  rw [listing, listing, List.map_append, List.map_append, hstatic, ← List.map_append,
    ← List.map_append]

end Message

/-! ## Resolving withholds signatures and nothing else -/

/-- Whether exactly those static keys sign that have the index of a signer and are
neither the vault nor an ephemeral signer. -/
structure ResolvedAccounts.WithholdsSignatures (resolved : ResolvedAccounts) (message : Message)
    (vault : Address) (ephemeralSigners : List Address) : Prop where
  signs_only : ∀ place account, resolved.accounts[place]? = some account →
    account.isSigner = true →
      ∃ index < message.signers.toNat, place = message.tableKeys.length + index ∧
        message.staticKeys[index]? = some account.address ∧
        account.address ≠ vault ∧ account.address ∉ ephemeralSigners
  signs_all : ∀ index < message.signers.toNat, ∀ key, message.staticKeys[index]? = some key →
    key ≠ vault → key ∉ ephemeralSigners →
      ∃ account, resolved.accounts[message.tableKeys.length + index]? = some account ∧
        account.address = key ∧ account.isSigner = true

/-- Whether two outcomes of resolving a message are the same failure, or the same tables
and accounts up to the signatures of static keys. -/
inductive Message.SameButSignatures (message : Message) :
    Except ResolveError ResolvedAccounts → Except ResolveError ResolvedAccounts → Prop where
  | failed (cause : ResolveError) : SameButSignatures message (.error cause) (.error cause)
  | resolved {left right : ResolvedAccounts} (tables : left.tables = right.tables)
      (unsigned : left.accounts.map AccountMeta.unsigned =
        right.accounts.map AccountMeta.unsigned)
      (elsewhere : ∀ place, ¬message.IsStaticPlace place →
        left.accounts[place]? = right.accounts[place]?) :
      SameButSignatures message (.ok left) (.ok right)

namespace Message

theorem withholdsSignatures_of_resolve {message : Message} {vault : Address}
    {ephemeralSigners : List Address} {tables : List LookupTable} {resolved : ResolvedAccounts}
    (hresolve : message.resolve vault ephemeralSigners tables = .ok resolved) :
    resolved.WithholdsSignatures message vault ephemeralSigners := by
  rw [resolve_eq_map, map_eq_ok_iff] at hresolve
  obtain ⟨consulted, hconsult, rfl⟩ := hresolve
  have htables := length_tables_of_consult hconsult
  constructor
  · intro place account haccount hsigner
    obtain ⟨index, hplace, hstatic⟩ := exists_static_of_signer htables haccount hsigner
    obtain ⟨hkey, hiff⟩ := isSigner_staticAccounts_iff hstatic
    obtain ⟨hindex, hderived⟩ := hiff.mp hsigner
    rw [List.mem_cons, not_or] at hderived
    exact ⟨index, hindex, hplace, hkey, hderived.1, hderived.2⟩
  · intro index hindex key hkey hvault hephemeral
    have hlt : index < (message.staticAccounts (vault :: ephemeralSigners)).length := by
      rw [length_staticAccounts]
      exact (List.getElem?_eq_some_iff.mp hkey).1
    have haccount := List.getElem?_eq_getElem hlt
    obtain ⟨haddress, hiff⟩ := isSigner_staticAccounts_iff haccount
    rw [hkey, Option.some.injEq] at haddress
    rw [length_staticAccounts] at hlt
    refine ⟨_, (getElem?_listing_static htables hlt).trans haccount, haddress.symm, ?_⟩
    apply hiff.mpr
    rw [← haddress, List.mem_cons, not_or]
    exact ⟨hindex, hvault, hephemeral⟩

theorem sameButSignatures_resolve (message : Message) (tables : List LookupTable)
    (vault otherVault : Address) (ephemeralSigners otherSigners : List Address) :
    message.SameButSignatures (message.resolve vault ephemeralSigners tables)
      (message.resolve otherVault otherSigners tables) := by
  rw [resolve_eq_map, resolve_eq_map]
  cases hconsult : message.consult tables with
  | error cause => exact .failed cause
  | ok consulted =>
      have htables := length_tables_of_consult hconsult
      exact .resolved rfl (map_unsigned_listing message _ _ consulted)
        fun _ => getElem?_listing_elsewhere htables

/-- Resolving never lists the vault or an ephemeral signer as a signer, and lists every
other key with the index of a signer as one.  The derived addresses decide nothing else:
with others in their place resolving fails for the same cause or lists the same accounts,
up to the signatures of static keys. -/
theorem resolve_withholds_signatures (message : Message) (tables : List LookupTable) :
    (∀ vault ephemeralSigners resolved,
      message.resolve vault ephemeralSigners tables = .ok resolved →
        resolved.WithholdsSignatures message vault ephemeralSigners) ∧
    ∀ vault ephemeralSigners otherVault otherSigners,
      message.SameButSignatures (message.resolve vault ephemeralSigners tables)
        (message.resolve otherVault otherSigners tables) := by
  constructor
  · intro vault ephemeralSigners resolved hresolve
    exact withholdsSignatures_of_resolve hresolve
  · intro vault ephemeralSigners otherVault otherSigners
    exact sameButSignatures_resolve message tables vault otherVault ephemeralSigners otherSigners

/-- The counts exceed the keys, one key is repeated, and the vault is also loaded from a
table.  Of the four static keys only the one that is not derived signs. -/
theorem resolve_withholds_signatures_malformed :
    let message : Message :=
      ⟨7, 9, 0, [.uniform 1, .uniform 4, .uniform 1, .uniform 2], [], [⟨.uniform 8, [0], [1]⟩]⟩
    let tables : List LookupTable := [⟨.uniform 8, [.uniform 1, .uniform 4]⟩]
    ∃ resolved, message.resolve (.uniform 1) [.uniform 2] tables = .ok resolved ∧
      resolved.accounts.map AccountMeta.isSigner =
        [false, false, true, false, false, false, false] ∧
      resolved.WithholdsSignatures message (.uniform 1) [.uniform 2] ∧
      message.SameButSignatures (message.resolve (.uniform 1) [.uniform 2] tables)
        (message.resolve (.uniform 4) [] tables) := by
  intro message tables
  let resolved : ResolvedAccounts :=
    { accounts := [.readonly (.uniform 8) false, .writable (.uniform 1) false,
        .writable (.uniform 4) true, .writable (.uniform 1) false, .writable (.uniform 2) false,
        .writable (.uniform 1) false, .readonly (.uniform 4) false]
      tables := tables }
  have hresolve : message.resolve (.uniform 1) [.uniform 2] tables = .ok resolved := by decide
  obtain ⟨hwithholds, hsame⟩ := resolve_withholds_signatures message tables
  exact ⟨resolved, hresolve, rfl, hwithholds _ _ _ hresolve, hsame _ _ _ _⟩

end Message

end MultisigVault
