import Mathlib.Data.List.Perm.Basic
import MultisigVault.Proofs.Compilation.Form
import MultisigVault.Proofs.Message.StoredForm

/-!
# Privileges survive storage and resolution

A compiled message that is stored, loaded and resolved lists every address its
instructions refer to once, with the privileges that the instructions ask for and
no others.  Only the signatures of derived addresses are withheld.
-/

namespace MultisigVault

open Outcome
open scoped List

/-- An account, without its signature if its address is derived. -/
def AccountMeta.withheld (derived : List Address) (account : AccountMeta) : AccountMeta :=
  { account with isSigner := account.isSigner && !derived.contains account.address }

theorem AccountMeta.withheld_of_not_signer {derived : List Address} {account : AccountMeta}
    (hsigner : account.isSigner = false) : account.withheld derived = account := by
  obtain ⟨address, isSigner, isWritable⟩ := account
  obtain rfl : isSigner = false := hsigner
  rfl

/-! ## The static keys -/

namespace Message

/-- The static keys are listed with the privileges of their accounts. -/
theorem exists_account_of_mem_staticAccounts {rest : Roster} {message : Message}
    (hblocks : rest.CountsBlocks message) {derived : List Address} {account : AccountMeta}
    (hmem : account ∈ message.staticAccounts derived) :
    ∃ original ∈ rest.accounts, account = original.withheld derived := by
  obtain ⟨index, hindex⟩ := List.mem_iff_getElem?.mp hmem
  rw [staticAccounts, List.getElem?_mapIdx, Option.map_eq_some_iff] at hindex
  obtain ⟨key, hkey, rfl⟩ := hindex
  exact ⟨_, hblocks.mem_accounts hkey, rfl⟩

end Message

/-! ## The loaded addresses -/

/-- The addresses that several lookups name, lookup by lookup, are those of the
combined list in another order. -/
theorem LoadedAddresses.map_address_accounts (groups : List LoadedAddresses) :
    (groups.flatMap accounts).map AccountMeta.address ~ (concat groups).toList := by
  have haddresses (loaded : LoadedAddresses) :
      loaded.accounts.map AccountMeta.address = loaded.writable ++ loaded.readonly := by
    simp only [accounts, List.map_append, List.map_map, Function.comp_def, AccountMeta.writable,
      AccountMeta.readonly, List.map_id']
  rw [List.map_flatMap, concat, toList]
  simp only [haddresses]
  exact (List.flatMap_append_perm groups writable readonly).symm

namespace Roster

/-- What a table takes over keeps its privileges, and none of it signs. -/
theorem mem_accounts_of_mem_loaded {roster : Roster} {tables : List LookupTable} {drain : Drain}
    (hdrain : drain ∈ roster.drains tables) {account : AccountMeta}
    (hmem : account ∈ drain.loaded.accounts) :
    account ∈ roster.accounts ∧ account.isSigner = false := by
  obtain ⟨place, hplace⟩ := List.mem_iff_getElem?.mp hdrain
  have hgroup {isWritable : Bool} {key : Address} (hkey : key ∈ drain.group isWritable) :
      ⟨key, false, isWritable⟩ ∈ roster.accounts :=
    mem_block_iff.mp ((mem_group_iff hplace).mp hkey).1
  rcases List.mem_append.mp hmem with hwritable | hreadonly
  · obtain ⟨key, hkey, rfl⟩ := List.mem_map.mp hwritable
    exact ⟨hgroup hkey, rfl⟩
  · obtain ⟨key, hkey, rfl⟩ := List.mem_map.mp hreadonly
    exact ⟨hgroup hkey, rfl⟩

end Roster

/-! ## The resolved accounts -/

/-- The accounts after those of the tables in use. -/
def ResolvedAccounts.named (resolved : ResolvedAccounts) : List AccountMeta :=
  resolved.accounts.drop resolved.tables.length

/-- Whether resolved accounts are the tables in use, then each address that the
vault and the instructions refer to once, with the privileges that are asked for
and no others.  The vault is writable; it and the ephemeral signers never sign. -/
structure ResolvedAccounts.Grants (resolved : ResolvedAccounts) (vault : Address)
    (ephemeralSigners : List Address) (instructions : List Instruction) : Prop where
  tables : resolved.accounts.take resolved.tables.length =
    resolved.tables.map fun table => ⟨table.key, false, false⟩
  once : (resolved.named.map AccountMeta.address).Nodup
  listed : ∀ key, key ∈ resolved.named.map AccountMeta.address ↔
    key = vault ∨ Mentioned instructions key
  writable : ∀ account ∈ resolved.named, account.isWritable = true ↔
    account.address = vault ∨ Asked AccountMeta.isWritable instructions account.address
  signer : ∀ account ∈ resolved.named, account.isSigner = true ↔
    Asked AccountMeta.isSigner instructions account.address ∧
      ¬(account.address = vault ∨ account.address ∈ ephemeralSigners)

/-- Withholding the signatures of the vault and the ephemeral signers leaves those
that the instructions ask for. -/
theorem Roster.signer_withheld_iff {vault : Address} {ephemeralSigners : List Address}
    {instructions : List Instruction} {account : AccountMeta}
    (hmem : account ∈ (Roster.ofInstructions vault instructions).accounts) :
    (account.withheld (vault :: ephemeralSigners)).isSigner = true ↔
      Asked AccountMeta.isSigner instructions account.address ∧
        ¬(account.address = vault ∨ account.address ∈ ephemeralSigners) := by
  have hsigner := (mem_accounts_ofInstructions.mp hmem).2.1
  rw [AccountMeta.withheld, Bool.and_eq_true, Bool.not_eq_true', ← Bool.not_eq_true,
    List.contains_iff_mem, List.mem_cons, hsigner]
  tauto

namespace Message

section

variable {vault : Address} {ephemeralSigners : List Address} {instructions : List Instruction}
  {tables : List LookupTable} {message : Message}

/-- The accounts of a compiled message, without those of its tables. -/
def namedAccounts (message : Message) (derived : List Address) (groups : List LoadedAddresses) :
    List AccountMeta :=
  message.staticAccounts derived ++ groups.flatMap LoadedAddresses.accounts

/-- The addresses that are listed are those of the combined list, in another order. -/
theorem map_address_namedAccounts (hcompile : compile vault instructions tables = .ok message)
    (derived : List Address) :
    let roster := Roster.ofInstructions vault instructions
    (message.namedAccounts derived (roster.groups tables)).map AccountMeta.address ~
      roster.combined tables := by
  intro roster
  have hblocks := countsBlocks_of_compile hcompile
  have hloaded := LoadedAddresses.map_address_accounts (roster.groups tables)
  rw [Roster.concat_groups] at hloaded
  rw [namedAccounts, List.map_append, map_address_staticAccounts, hblocks.staticKeys]
  exact hloaded.append_left _

/-- Nothing but the accounts of the roster is listed. -/
theorem exists_account_of_mem_namedAccounts
    (hcompile : compile vault instructions tables = .ok message) {derived : List Address}
    {account : AccountMeta}
    (hmem : account ∈ message.namedAccounts derived
      ((Roster.ofInstructions vault instructions).groups tables)) :
    ∃ original ∈ (Roster.ofInstructions vault instructions).accounts,
      account = original.withheld derived := by
  rcases List.mem_append.mp hmem with hstatic | hloaded
  · obtain ⟨original, horiginal, heq⟩ :=
      exists_account_of_mem_staticAccounts (countsBlocks_of_compile hcompile) hstatic
    have hsublist := (Roster.ofInstructions vault instructions).accounts_withoutAll_sublist tables
    exact ⟨original, hsublist.subset horiginal, heq⟩
  · obtain ⟨loaded, hgroup, haccount⟩ := List.mem_flatMap.mp hloaded
    obtain ⟨drain, hactive, rfl⟩ := List.mem_map.mp hgroup
    obtain ⟨hlisted, hsigner⟩ :=
      Roster.mem_accounts_of_mem_loaded (Roster.mem_drains_of_mem_active hactive) haccount
    exact ⟨account, hlisted, (AccountMeta.withheld_of_not_signer hsigner).symm⟩

/-- The accounts of a compiled message have the privileges that are asked for. -/
theorem grants_of_accounts_eq (hcompile : compile vault instructions tables = .ok message)
    {resolved : ResolvedAccounts}
    (haccounts : resolved.accounts =
      resolved.tables.map (fun table => .readonly table.key false) ++
        message.namedAccounts (vault :: ephemeralSigners)
          ((Roster.ofInstructions vault instructions).groups tables)) :
    resolved.Grants vault ephemeralSigners instructions := by
  have hroster := Roster.wellFormed_ofInstructions vault instructions
  have hperm := map_address_namedAccounts hcompile (vault :: ephemeralSigners)
  have hnamed : resolved.named = message.namedAccounts (vault :: ephemeralSigners)
      ((Roster.ofInstructions vault instructions).groups tables) := by
    rw [ResolvedAccounts.named, haccounts]
    exact List.drop_left' (List.length_map _)
  exact
    { tables := by
        rw [haccounts]
        exact List.take_left' (List.length_map _)
      once := by
        rw [hnamed]
        exact hperm.nodup_iff.mpr (Roster.nodup_combined hroster tables)
      listed := by
        intro key
        rw [hnamed, hperm.mem_iff]
        exact mem_combined_iff
      writable := by
        intro account hmem
        rw [hnamed] at hmem
        obtain ⟨original, horiginal, rfl⟩ := exists_account_of_mem_namedAccounts hcompile hmem
        exact (Roster.mem_accounts_ofInstructions.mp horiginal).2.2
      signer := by
        intro account hmem
        rw [hnamed] at hmem
        obtain ⟨original, horiginal, rfl⟩ := exists_account_of_mem_namedAccounts hcompile hmem
        exact Roster.signer_withheld_iff horiginal }

/-- The tables a compiled message needs are among the live ones. -/
theorem mapM_find_live (hkeys : (tables.map LookupTable.key).Nodup) {live : List LookupTable}
    (hgrown : ∀ lookup ∈ message.lookups, LookupTable.GrownAt tables live lookup.table)
    (hcompile : compile vault instructions tables = .ok message) :
    ∃ used, message.tableKeys.mapM (LookupTable.find live) = .ok used := by
  apply mapM_succeeds_iff.mpr
  intro key hkey
  obtain ⟨lookup, hlookup, rfl⟩ := mem_tableKeys_iff.mp hkey
  obtain ⟨-, -, rfl⟩ := compile_eq_ok_iff.mp hcompile
  obtain ⟨drain, hactive, rfl⟩ := List.mem_map.mp hlookup
  have hdrain := Roster.mem_drains_of_mem_active hactive
  have hfind := LookupTable.find_of_mem hkeys (Roster.table_mem_of_mem_drains hdrain)
  obtain ⟨grown, hgrown, -⟩ := hgrown _ hlookup _ hfind
  exact ⟨grown, hgrown⟩

end

/-- Storing a compiled message and executing it later neither loses nor grants a
privilege, whatever has been appended to the tables in the meantime. -/
theorem resolve_stored_grants {vault : Address} {ephemeralSigners : List Address}
    {instructions : List Instruction} {tables live : List LookupTable} {message : Message}
    {bytes : Bytes} (hkeys : (tables.map LookupTable.key).Nodup)
    (hcompile : compile vault instructions tables = .ok message)
    (hgrown : ∀ lookup ∈ message.lookups, LookupTable.GrownAt tables live lookup.table)
    (hstore : message.store = .ok bytes) :
    load bytes = .ok message ∧
      ∃ resolved, message.resolve vault ephemeralSigners live = .ok resolved ∧
        message.tableKeys.mapM (LookupTable.find live) = .ok resolved.tables ∧
        resolved.Grants vault ephemeralSigners instructions := by
  obtain ⟨used, hused⟩ := mapM_find_live hkeys hgrown hcompile
  obtain ⟨hreached, -, hmessage⟩ := compile_eq_ok_iff.mp hcompile
  have hread := Roster.mapM_read_lookups hkeys hreached (hmessage ▸ hgrown)
  rw [← hmessage] at hread
  let resolved : ResolvedAccounts :=
    { accounts := used.map (fun table => .readonly table.key false) ++
        message.namedAccounts (vault :: ephemeralSigners)
          ((Roster.ofInstructions vault instructions).groups tables)
      tables := used }
  have hresolve : message.resolve vault ephemeralSigners live = .ok resolved := by
    apply resolve_eq_ok_iff.mpr
    refine ⟨_, hused, hread, ?_⟩
    rw [List.append_assoc]
    rfl
  have hload := load_eq_ok_iff_store.mpr ⟨hstore, checkForm_of_compile hcompile⟩
  exact ⟨hload, resolved, hresolve, hused, grants_of_accounts_eq hcompile rfl⟩

/-- A table that has grown, among others, and a signer that is derived. -/
theorem resolve_stored_grants_derived_signer :
    let instruction : Instruction :=
      ⟨.uniform 2, [.writable (.uniform 3) false, .readonly (.uniform 4) true], [7]⟩
    let tables : List LookupTable := [⟨.uniform 8, [.uniform 3]⟩]
    let live : List LookupTable :=
      [⟨.uniform 9, []⟩, ⟨.uniform 8, [.uniform 3, .uniform 6]⟩]
    ∃ message bytes resolved, compile (.uniform 1) [instruction] tables = .ok message ∧
      message.store = .ok bytes ∧ load bytes = .ok message ∧
      message.resolve (.uniform 1) [.uniform 4] live = .ok resolved ∧
      resolved.Grants (.uniform 1) [.uniform 4] [instruction] := by
  intro instruction tables live
  let message : Message :=
    ⟨2, 1, 0, [.uniform 1, .uniform 4, .uniform 2], [⟨2, [3, 1], [7]⟩], [⟨.uniform 8, [0], []⟩]⟩
  let bytes : Bytes :=
    [2, 1, 0, 3] ++ List.replicate 32 1 ++ List.replicate 32 4 ++ List.replicate 32 2 ++
      [1, 2, 2, 3, 1, 1, 0, 7] ++ [1] ++ List.replicate 32 8 ++ [1, 0, 0]
  have hkeys : (tables.map LookupTable.key).Nodup := by decide
  have hcompile : compile (.uniform 1) [instruction] tables = .ok message := by decide
  have hstore : message.store = .ok bytes := by decide
  have hgrown : ∀ lookup ∈ message.lookups, LookupTable.GrownAt tables live lookup.table := by
    intro lookup hlookup table hfind
    obtain rfl := List.mem_singleton.mp hlookup
    have hold : LookupTable.find tables (.uniform 8) = .ok ⟨.uniform 8, [.uniform 3]⟩ := by decide
    have hnew : LookupTable.find live (.uniform 8) =
        .ok ⟨.uniform 8, [.uniform 3, .uniform 6]⟩ := by decide
    obtain rfl : _ = table := Except.ok.inj (hold.symm.trans hfind)
    exact ⟨_, hnew, [.uniform 6], rfl⟩
  obtain ⟨hload, resolved, hresolve, -, hgrants⟩ :=
    resolve_stored_grants hkeys hcompile hgrown hstore
  exact ⟨message, bytes, resolved, hcompile, hstore, hload, hresolve, hgrants⟩

end Message

end MultisigVault
