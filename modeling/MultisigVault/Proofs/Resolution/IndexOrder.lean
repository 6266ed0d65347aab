import Mathlib.Data.List.Perm.Basic
import MultisigVault.Proofs.Message.Form
import MultisigVault.Proofs.Message.StoredForm
import MultisigVault.Proofs.Resolution.Reading

/-!
# Resolved accounts in index order

Indexes count the static keys, then all addresses loaded as writable, then all loaded
as readonly.  Resolved accounts are listed in another order, lookup by lookup.  Moving
the writable ones to the front, without changing their order otherwise, turns the one
order into the other, so an index names the same address in both.
-/

namespace MultisigVault

open Outcome
open scoped List

/-! ## The two orders -/

/-- Where the combined list takes its loaded addresses from: the writable indexes of
every lookup, then the readonly indexes of every lookup, each with the key of the table. -/
def Message.loadedPlaces (message : Message) : List (Address × Byte) :=
  message.lookups.flatMap (fun lookup => lookup.writableIndexes.map (lookup.table, ·)) ++
    message.lookups.flatMap fun lookup => lookup.readonlyIndexes.map (lookup.table, ·)

/-- The address at an index of the first table with a key, if there is one. -/
def LookupTable.addressAt (tables : List LookupTable) (place : Address × Byte) : Option Address :=
  (tables.find? fun table => table.key = place.1).bind fun table => table.get? place.2

/-- The writable accounts, then the others, each in their order. -/
def AccountMeta.writableFirst (accounts : List AccountMeta) : List AccountMeta :=
  accounts.filter AccountMeta.isWritable ++ accounts.filter fun account => !account.isWritable

namespace ResolvedAccounts

/-- The accounts in the places of the static keys, directly after those of the tables. -/
def static (resolved : ResolvedAccounts) (message : Message) : List AccountMeta :=
  (resolved.accounts.drop message.tableKeys.length).take message.staticKeys.length

/-- The accounts after those of the static keys. -/
def loaded (resolved : ResolvedAccounts) (message : Message) : List AccountMeta :=
  resolved.accounts.drop (message.tableKeys.length + message.staticKeys.length)

/-- The accounts in the order in which indexes name them. -/
def inIndexOrder (resolved : ResolvedAccounts) (message : Message) : List AccountMeta :=
  resolved.static message ++ AccountMeta.writableFirst (resolved.loaded message)

end ResolvedAccounts

theorem AccountMeta.writableFirst_perm (accounts : List AccountMeta) :
    writableFirst accounts ~ accounts :=
  List.filter_append_perm AccountMeta.isWritable accounts

namespace LoadedAddresses

theorem filter_isWritable_accounts (loaded : LoadedAddresses) :
    loaded.accounts.filter AccountMeta.isWritable = loaded.writable.map (.writable · false) := by
  simp [accounts, List.filter_map, Function.comp_def, AccountMeta.writable, AccountMeta.readonly]

theorem filter_not_isWritable_accounts (loaded : LoadedAddresses) :
    (loaded.accounts.filter fun account => !account.isWritable) =
      loaded.readonly.map (.readonly · false) := by
  simp [accounts, List.filter_map, Function.comp_def, AccountMeta.writable, AccountMeta.readonly]

/-- Moving the writable accounts of several lookups to the front gives the order of
the combined list. -/
theorem map_address_writableFirst (groups : List LoadedAddresses) :
    (AccountMeta.writableFirst (groups.flatMap accounts)).map AccountMeta.address =
      (concat groups).toList := by
  rw [AccountMeta.writableFirst, List.filter_flatMap, List.filter_flatMap, List.map_append,
    List.map_flatMap, List.map_flatMap, concat, toList]
  simp only [filter_isWritable_accounts, filter_not_isWritable_accounts, List.map_map,
    Function.comp_def, AccountMeta.writable, AccountMeta.readonly, List.map_id']

end LoadedAddresses

/-! ## Reading the loaded places -/

/-- Loading from the first table with a key gives the addresses at the indexes. -/
theorem LookupTable.map_addressAt {tables : List LookupTable} {key : Address}
    {table : LookupTable} (hfind : find tables key = .ok table) {indexes : List Byte}
    {addresses : List Address} (hload : indexes.mapM table.load = .ok addresses) :
    (indexes.map (key, ·)).map (addressAt tables) = addresses.map some := by
  rw [mapM_eq_ok_iff] at hload
  rw [← List.forall₂_eq_eq_eq, List.forall₂_map_left_iff, List.forall₂_map_left_iff,
    List.forall₂_map_right_iff]
  apply hload.imp
  intro index address hindex
  rw [addressAt, find_eq_ok_iff.mp hfind, Option.bind_some]
  exact load_eq_ok_iff.mp hindex

/-- What holds of the places of each lookup holds of those of all lookups together. -/
theorem TableLookup.map_addressAt_flatMap {tables : List LookupTable}
    {places : TableLookup → List (Address × Byte)} {select : LoadedAddresses → List Address}
    (hread : ∀ lookup loaded, TableLookup.read lookup tables = .ok loaded →
      (places lookup).map (LookupTable.addressAt tables) = (select loaded).map some)
    {lookups : List TableLookup} {groups : List LoadedAddresses}
    (hgroups : lookups.mapM (fun lookup => lookup.read tables) = .ok groups) :
    (lookups.flatMap places).map (LookupTable.addressAt tables) =
      (groups.flatMap select).map some := by
  rw [mapM_eq_ok_iff] at hgroups
  induction hgroups with
  | nil => rfl
  | cons hlookup _ ih =>
      rw [List.flatMap_cons, List.flatMap_cons, List.map_append, List.map_append,
        hread _ _ hlookup, ih]

/-- The addresses at the loaded places are those that the lookups name, regrouped. -/
theorem Message.map_addressAt_loadedPlaces {message : Message} {tables : List LookupTable}
    {groups : List LoadedAddresses}
    (hgroups : message.lookups.mapM (fun lookup => lookup.read tables) = .ok groups) :
    message.loadedPlaces.map (LookupTable.addressAt tables) =
      (LoadedAddresses.concat groups).toList.map some := by
  rw [loadedPlaces, List.map_append, LoadedAddresses.toList, List.map_append]
  congr 1
  · apply TableLookup.map_addressAt_flatMap _ hgroups
    intro lookup loaded hread
    obtain ⟨table, hfind, hwritable, -⟩ := TableLookup.read_eq_ok_iff.mp hread
    exact LookupTable.map_addressAt hfind hwritable
  · apply TableLookup.map_addressAt_flatMap _ hgroups
    intro lookup loaded hread
    obtain ⟨table, hfind, -, hreadonly⟩ := TableLookup.read_eq_ok_iff.mp hread
    exact LookupTable.map_addressAt hfind hreadonly

/-! ## The resolved accounts -/

namespace Message

section

variable {message : Message} {vault : Address} {ephemeralSigners : List Address}
  {tables : List LookupTable} {resolved : ResolvedAccounts}

/-- Resolved accounts are those of the tables, those of the static keys and those of
the lookups. -/
theorem exists_groups_of_resolve
    (hresolve : message.resolve vault ephemeralSigners tables = .ok resolved) :
    ∃ groups, message.lookups.mapM (fun lookup => lookup.read tables) = .ok groups ∧
      message.tableKeys.length ≤ resolved.accounts.length ∧
      resolved.static message = message.staticAccounts (vault :: ephemeralSigners) ∧
      resolved.loaded message = groups.flatMap LoadedAddresses.accounts := by
  obtain ⟨groups, hused, hgroups, haccounts⟩ := resolve_eq_ok_iff.mp hresolve
  have htables : resolved.tables.length = message.tableKeys.length := by
    rw [← map_key_of_mapM_find hused, List.length_map]
  have hstatic : (message.staticAccounts (vault :: ephemeralSigners)).length =
      message.staticKeys.length := List.length_mapIdx
  refine ⟨groups, hgroups, ?_, ?_, ?_⟩
  · rw [haccounts, List.append_assoc, List.length_append, List.length_map, htables]
    exact Nat.le_add_right _ _
  · rw [ResolvedAccounts.static, haccounts, List.append_assoc, List.drop_left', List.take_left']
    · exact hstatic
    · rw [List.length_map, htables]
  · rw [ResolvedAccounts.loaded, haccounts, List.drop_left']
    rw [List.length_append, List.length_map, htables, hstatic]

/-- The loaded places are the indexes of all lookups, regrouped. -/
theorem map_snd_loadedPlaces_perm (message : Message) :
    message.loadedPlaces.map Prod.snd ~ message.lookups.flatMap TableLookup.indexes := by
  have hindexes (key : Address) (indexes : List Byte) :
      (indexes.map (key, ·)).map Prod.snd = indexes := by
    rw [List.map_map]
    exact List.map_id _
  rw [loadedPlaces, List.map_append, List.map_flatMap, List.map_flatMap]
  simp only [hindexes]
  exact List.flatMap_append_perm message.lookups TableLookup.writableIndexes
    TableLookup.readonlyIndexes

theorem length_loadedPlaces (message : Message) :
    message.loadedPlaces.length = (message.lookups.flatMap TableLookup.indexes).length := by
  rw [← (map_snd_loadedPlaces_perm message).length_eq, List.length_map]

/-- In index order the resolved accounts are the addresses of the combined list. -/
theorem map_address_inIndexOrder
    (hresolve : message.resolve vault ephemeralSigners tables = .ok resolved) :
    (resolved.static message).map AccountMeta.address = message.staticKeys ∧
      (AccountMeta.writableFirst (resolved.loaded message)).map (fun account =>
        some account.address) = message.loadedPlaces.map (LookupTable.addressAt tables) := by
  obtain ⟨groups, hgroups, -, hstatic, hloaded⟩ := exists_groups_of_resolve hresolve
  constructor
  · rw [hstatic, map_address_staticAccounts]
  · rw [map_addressAt_loadedPlaces hgroups, hloaded,
      ← LoadedAddresses.map_address_writableFirst, List.map_map]
    rfl

/-- Index order only moves accounts after those of the tables. -/
theorem inIndexOrder_perm (message : Message) (resolved : ResolvedAccounts) :
    resolved.inIndexOrder message ~ resolved.accounts.drop message.tableKeys.length := by
  have hsplit := List.take_append_drop message.staticKeys.length
    (resolved.accounts.drop message.tableKeys.length)
  rw [List.drop_drop] at hsplit
  calc
    resolved.inIndexOrder message
      ~ resolved.static message ++ resolved.loaded message :=
        (AccountMeta.writableFirst_perm _).append_left _
    _ = resolved.accounts.drop message.tableKeys.length := hsplit

theorem length_inIndexOrder
    (hresolve : message.resolve vault ephemeralSigners tables = .ok resolved) :
    (resolved.inIndexOrder message).length = message.keyCount := by
  obtain ⟨hstatic, hloaded⟩ := map_address_inIndexOrder hresolve
  have hstaticLength := congrArg List.length hstatic
  have hloadedLength := congrArg List.length hloaded
  rw [List.length_map] at hstaticLength
  rw [List.length_map, List.length_map, length_loadedPlaces] at hloadedLength
  rw [ResolvedAccounts.inIndexOrder, List.length_append, hstaticLength, hloadedLength, keyCount]

theorem length_accounts_of_resolve
    (hresolve : message.resolve vault ephemeralSigners tables = .ok resolved) :
    resolved.accounts.length = message.tableKeys.length + message.keyCount := by
  obtain ⟨-, -, htables, -, -⟩ := exists_groups_of_resolve hresolve
  have hcount := (inIndexOrder_perm message resolved).length_eq
  rw [length_inIndexOrder hresolve, List.length_drop] at hcount
  omega

/-- Every index of a loaded message names one of the accounts after those of the tables. -/
theorem exists_account_of_index {bytes : Bytes} (hload : load bytes = .ok message)
    (hresolve : message.resolve vault ephemeralSigners tables = .ok resolved)
    {instruction : CompiledInstruction} (hinstruction : instruction ∈ message.instructions)
    {index : Byte} (hindex : index ∈ instruction.programIndex :: instruction.accountIndexes) :
    index.toNat < message.keyCount ∧
      ∃ account ∈ resolved.accounts.drop message.tableKeys.length,
        (resolved.inIndexOrder message)[index.toNat]? = some account := by
  have hform := checkForm_eq_ok_iff.mp (load_eq_ok_iff.mp hload).2
  have hwithin := CompiledInstruction.isWithin_iff.mp (hform.within instruction hinstruction)
  have hlt : index.toNat < message.keyCount := by
    rcases List.mem_cons.mp hindex with rfl | haccount
    · exact hwithin.1
    · exact hwithin.2 index haccount
  rw [← length_inIndexOrder hresolve] at hlt ⊢
  refine ⟨hlt, (resolved.inIndexOrder message)[index.toNat], ?_, List.getElem?_eq_getElem hlt⟩
  exact (inIndexOrder_perm message resolved).subset (List.getElem_mem hlt)

end

/-- The resolved accounts and the combined list name the same addresses.  After the
tables come the static keys and then the loaded addresses, which turn into those of the
combined list when the writable accounts move to the front.  The indexes of a message
that was loaded all name one of these accounts. -/
theorem resolve_follows_index_order {message : Message} {vault : Address}
    {ephemeralSigners : List Address} {tables : List LookupTable} {resolved : ResolvedAccounts}
    (hresolve : message.resolve vault ephemeralSigners tables = .ok resolved) :
    resolved.accounts.length = message.tableKeys.length + message.keyCount ∧
    (resolved.static message).map AccountMeta.address = message.staticKeys ∧
    (AccountMeta.writableFirst (resolved.loaded message)).map (fun account =>
      some account.address) = message.loadedPlaces.map (LookupTable.addressAt tables) ∧
    ∀ bytes, load bytes = .ok message →
      ∀ instruction ∈ message.instructions,
        ∀ index ∈ instruction.programIndex :: instruction.accountIndexes,
          index.toNat < resolved.accounts.length - message.tableKeys.length ∧
            ∃ account ∈ resolved.accounts.drop message.tableKeys.length,
              (resolved.inIndexOrder message)[index.toNat]? = some account := by
  have hlength := length_accounts_of_resolve hresolve
  obtain ⟨hstatic, hloaded⟩ := map_address_inIndexOrder hresolve
  refine ⟨hlength, hstatic, hloaded, ?_⟩
  intro bytes hload instruction hinstruction index hindex
  rw [hlength, Nat.add_sub_cancel_left]
  exact exists_account_of_index hload hresolve hinstruction hindex

/-- Three lookups of two tables, one of which is read twice.  The accounts with the
indexes 3 and 4 are listed in the other order. -/
theorem resolve_follows_index_order_shared_table :
    let lookups : List TableLookup :=
      [⟨.uniform 8, [1], [0]⟩, ⟨.uniform 9, [0], []⟩, ⟨.uniform 8, [], [2]⟩]
    let message : Message := ⟨1, 1, 0, [.uniform 1, .uniform 2], [⟨1, [3, 5], []⟩], lookups⟩
    let tables : List LookupTable :=
      [⟨.uniform 9, [.uniform 5]⟩, ⟨.uniform 8, [.uniform 3, .uniform 4, .uniform 6]⟩,
        ⟨.uniform 8, []⟩]
    ∃ bytes resolved, load bytes = .ok message ∧
      message.resolve (.uniform 1) [] tables = .ok resolved ∧
      resolved.accounts.map AccountMeta.address = [.uniform 8, .uniform 9, .uniform 1, .uniform 2,
        .uniform 4, .uniform 3, .uniform 5, .uniform 6] ∧
      (AccountMeta.writableFirst (resolved.loaded message)).map (fun account =>
        some account.address) = message.loadedPlaces.map (LookupTable.addressAt tables) ∧
      message.loadedPlaces.map (LookupTable.addressAt tables) =
        [some (.uniform 4), some (.uniform 5), some (.uniform 3), some (.uniform 6)] ∧
      ∃ account, (resolved.inIndexOrder message)[3]? = some account := by
  intro lookups message tables
  let bytes : Bytes :=
    [1, 1, 0, 2] ++ List.replicate 32 1 ++ List.replicate 32 2 ++ [1, 1, 2, 3, 5, 0, 0] ++ [3] ++
      List.replicate 32 8 ++ [1, 1, 1, 0] ++ List.replicate 32 9 ++ [1, 0, 0] ++
        List.replicate 32 8 ++ [0, 1, 2]
  let resolved : ResolvedAccounts :=
    { accounts := [.readonly (.uniform 8) false, .readonly (.uniform 9) false,
        .writable (.uniform 1) false, .readonly (.uniform 2) false,
        .writable (.uniform 4) false, .readonly (.uniform 3) false,
        .writable (.uniform 5) false, .readonly (.uniform 6) false]
      tables := [⟨.uniform 8, [.uniform 3, .uniform 4, .uniform 6]⟩, ⟨.uniform 9, [.uniform 5]⟩] }
  have hload : load bytes = .ok message := by decide +kernel
  have hresolve : message.resolve (.uniform 1) [] tables = .ok resolved := by decide
  have hplaces : message.loadedPlaces.map (LookupTable.addressAt tables) =
      [some (.uniform 4), some (.uniform 5), some (.uniform 3), some (.uniform 6)] := by decide
  obtain ⟨-, -, hloaded, hindexes⟩ := resolve_follows_index_order hresolve
  obtain ⟨-, account, -, haccount⟩ :=
    hindexes bytes hload ⟨1, [3, 5], []⟩ (List.mem_singleton_self _) 3 (by decide)
  exact ⟨bytes, resolved, hload, hresolve, rfl, hloaded, hplaces, account, haccount⟩

end Message

end MultisigVault
