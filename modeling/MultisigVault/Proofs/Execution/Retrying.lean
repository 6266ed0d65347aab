import MultisigVault.Proofs.Execution.Resolution

/-!
# Which failures a retry may cure

Executing a stored message begins with what needs no tables: the message is loaded and
the ephemeral signers are derived.  A failure there is the same whatever the tables are.
Every later failure comes from the tables of the moment, since any message that can be
loaded is served by tables that are long enough.
-/

namespace MultisigVault

open Outcome

/-! ## Failures of sources -/

/-- The kinds of sources there are: tables in memory and the data of accounts. -/
inductive TableSource.Provided : TableSource → Prop where
  | store (store : TableStore) : Provided store.source
  | accounts (accounts : Accounts) : Provided accounts.source

namespace TableSource

theorem Provided.isRetriable_of_answer {source : TableSource} (hsource : source.Provided)
    {key : Address} {failure : Failure} (hfails : source.answer key = .error failure) :
    failure.isRetriable = true := by
  cases hsource with
  | store store => cases hfails
  | accounts accounts =>
      simp only [Accounts.source] at hfails
      split at hfails
      · cases hfails
      · obtain ⟨cause, -, rfl⟩ := mapError_eq_error_iff.mp hfails
        rfl
      · cases hfails
        rfl

/-- Whatever keeps a table from being fetched may go away. -/
theorem Provided.isRetriable_of_table {source : TableSource} (hsource : source.Provided)
    {key : Address} {failure : Failure} (hfails : source.table key = .error failure) :
    failure.isRetriable = true := by
  rw [table, bind_eq_error_iff] at hfails
  obtain hanswer | ⟨found, -, hmissing⟩ := hfails
  · exact hsource.isRetriable_of_answer hanswer
  · cases found with
    | some table => cases hmissing
    | none =>
        cases hmissing
        rfl

end TableSource

/-! ## Tables that serve every index -/

namespace LookupTable

/-- A table that reaches as far as one-byte indexes do. -/
def full (key : Address) : LookupTable :=
  ⟨key, List.replicate 256 .zero⟩

theorem load_full (key : Address) (index : Byte) : (full key).load index = .ok .zero := by
  rw [load_eq_ok_iff, get?, full, List.getElem?_replicate, if_pos index.toNat_lt]

/-- Among full tables every key is found for which there is one. -/
theorem find_map_full {keys : List Address} (hkeys : keys.Nodup) {key : Address}
    (hkey : key ∈ keys) : find (keys.map full) key = .ok (full key) := by
  have hmap : (keys.map full).map LookupTable.key = keys := by
    rw [List.map_map]
    exact List.map_id keys
  exact find_of_mem (hmap.symm ▸ hkeys) (List.mem_map_of_mem hkey)

end LookupTable

theorem TableLookup.read_full {lookup : TableLookup} {tables : List LookupTable}
    (hfind : LookupTable.find tables lookup.table = .ok (.full lookup.table)) :
    ∃ loaded, lookup.read tables = .ok loaded := by
  have hload (indexes : List Byte) : indexes.mapM (LookupTable.full lookup.table).load =
      .ok (indexes.map fun _ => .zero) :=
    mapM_eq_ok_map fun index _ => LookupTable.load_full lookup.table index
  exact ⟨⟨_, _⟩, read_eq_ok_iff.mpr ⟨_, hfind, hload _, hload _⟩⟩

namespace Message

/-- Any message can be resolved with full tables. -/
theorem resolve_full (message : Message) (vault : Address) (ephemeralSigners : List Address) :
    ∃ resolved, message.resolve vault ephemeralSigners (message.tableKeys.map .full) =
      .ok resolved := by
  let used : List LookupTable := message.tableKeys.map .full
  have hfind : ∀ key ∈ message.tableKeys, LookupTable.find used key = .ok (.full key) :=
    fun _ => LookupTable.find_map_full (FirstOccurrence.nodup_eraseDups _)
  have hread : ∀ lookup ∈ message.lookups, ∃ loaded, lookup.read used = .ok loaded := by
    intro lookup hlookup
    exact lookup.read_full (hfind lookup.table (mem_tableKeys_iff.mpr ⟨lookup, hlookup, rfl⟩))
  obtain ⟨groups, hgroups⟩ := mapM_succeeds_iff.mpr hread
  exact ⟨_, resolve_of_read (mapM_eq_ok_map hfind) hgroups vault ephemeralSigners⟩

/-! ## Before and after the tables are fetched -/

/-- What executing a stored message needs besides the tables: the message and the
ephemeral signers. -/
def prepare (bytes : Bytes) (context : ExecutionContext) :
    Except Failure (Message × List Address) := do
  let message ← (load bytes).mapError .load
  let ephemeralSigners ← (DerivationScheme.standard.ephemeralSigners context.transaction
    context.ephemeralSigners context.program).mapError .derivation
  return (message, ephemeralSigners)

/-- What is left to do after that. -/
def complete (source : TableSource) (context : ExecutionContext)
    (prepared : Message × List Address) : Except Failure ResolvedAccounts := do
  let tables ← prepared.1.tableKeys.mapM source.table
  (prepared.1.resolve context.vault prepared.2 tables).mapError .resolve

theorem value_resolveStored (bytes : Bytes) (source : TableSource) (context : ExecutionContext) :
    (resolveStored bytes source context).value =
      prepare bytes context >>= complete source context := by
  rw [resolveStored, Fetching.value, Fetching.record, run_bind, run_liftM, prepare]
  cases load bytes with
  | error cause => rfl
  | ok message =>
      simp only [Except.mapError, ok_bind]
      rw [← Fetching.record]
      cases hderive : DerivationScheme.standard.ephemeralSigners context.transaction
          context.ephemeralSigners context.program with
      | error cause =>
          rw [record_resolveWith_of_error message source context hderive]
          rfl
      | ok ephemeralSigners =>
          rw [record_resolveWith_of_ok message source context hderive]
          rfl

/-- What fails before the tables are fetched will fail again. -/
theorem isRetriable_of_prepare {bytes : Bytes} {context : ExecutionContext} {failure : Failure}
    (hfails : prepare bytes context = .error failure) : failure.isRetriable = false := by
  rw [prepare, bind_eq_error_iff] at hfails
  obtain hload | ⟨message, -, hrest⟩ := hfails
  · obtain ⟨cause, -, rfl⟩ := mapError_eq_error_iff.mp hload
    rfl
  · obtain hderive | ⟨ephemeralSigners, -, hpure⟩ := bind_eq_error_iff.mp hrest
    · obtain ⟨cause, -, rfl⟩ := mapError_eq_error_iff.mp hderive
      rfl
    · cases hpure

/-- What fails from then on may go away. -/
theorem isRetriable_of_complete {source : TableSource} (hsource : source.Provided)
    {context : ExecutionContext} {prepared : Message × List Address} {failure : Failure}
    (hfails : complete source context prepared = .error failure) :
    failure.isRetriable = true := by
  rw [complete, bind_eq_error_iff] at hfails
  obtain hfetch | ⟨tables, -, hresolve⟩ := hfails
  · obtain ⟨key, -, htable⟩ := exists_mem_of_mapM_eq_error hfetch
    exact hsource.isRetriable_of_table htable
  · obtain ⟨cause, -, rfl⟩ := mapError_eq_error_iff.mp hresolve
    rfl

/-- Full tables in memory serve whatever has been prepared. -/
theorem complete_full (context : ExecutionContext) (prepared : Message × List Address) :
    ∃ resolved, complete (TableStore.ofList (prepared.1.tableKeys.map .full)).source context
      prepared = .ok resolved := by
  obtain ⟨message, ephemeralSigners⟩ := prepared
  have hnodup : message.tableKeys.Nodup := FirstOccurrence.nodup_eraseDups _
  -- The last table with a key is the one held, but no key occurs twice here.
  have hreversed : (message.tableKeys.map LookupTable.full).reverse =
      message.tableKeys.reverse.map .full := List.map_reverse.symm
  have htables : message.tableKeys.mapM
      (TableStore.ofList (message.tableKeys.map .full)).source.table =
        .ok (message.tableKeys.map .full) := by
    apply mapM_eq_ok_map
    intro key hkey
    rw [TableSource.table_ofList, hreversed, LookupTable.find_map_full
      (List.nodup_reverse.mpr hnodup) (List.mem_reverse.mpr hkey)]
    rfl
  obtain ⟨resolved, hresolve⟩ := message.resolve_full context.vault ephemeralSigners
  refine ⟨resolved, ?_⟩
  rw [complete, htables, ok_bind, hresolve]
  rfl

/-- A failure to resolve a stored message that no retry is said to cure comes back with
every source.  Any other failure comes from the tables: with suitable ones in memory the
same message is resolved. -/
theorem resolveStored_failure_permanent_or_curable (bytes : Bytes) (context : ExecutionContext)
    {source : TableSource} (hsource : source.Provided) {failure : Failure}
    (hfails : (resolveStored bytes source context).value = .error failure) :
    (failure.isRetriable = false → ∀ other : TableSource,
      (resolveStored bytes other context).value = .error failure) ∧
    (failure.isRetriable = true → ∃ tables resolved,
      (resolveStored bytes (TableStore.ofList tables).source context).value = .ok resolved) := by
  rw [value_resolveStored, bind_eq_error_iff] at hfails
  obtain hprepare | ⟨prepared, hprepare, hcomplete⟩ := hfails
  · constructor
    · intro _ other
      rw [value_resolveStored, hprepare, error_bind]
    · intro hretriable
      rw [isRetriable_of_prepare hprepare] at hretriable
      cases hretriable
  · constructor
    · intro hpermanent
      rw [isRetriable_of_complete hsource hcomplete] at hpermanent
      cases hpermanent
    · intro _
      obtain ⟨resolved, hresolved⟩ := complete_full context prepared
      refine ⟨prepared.1.tableKeys.map .full, resolved, ?_⟩
      rw [value_resolveStored, hprepare, ok_bind, hresolved]

/-- Two bytes are no message, whichever tables there are.  A message whose table cannot be
read at the moment is resolved with another one. -/
theorem resolveStored_failure_permanent_or_curable_unavailable :
    let context : ExecutionContext :=
      { program := .uniform 2
        transaction := .uniform 3
        vault := .uniform 1
        ephemeralSigners := 1 }
    let bytes : Bytes :=
      [1, 1, 0, 1] ++ List.replicate 32 1 ++ [0] ++ [1] ++ List.replicate 32 8 ++ [1, 255, 0]
    let down : Accounts := fun _ => .unavailable "connection reset"
    (∀ other : TableSource, (resolveStored [1, 2] other context).value =
      .error (.load (.wire .endOfInput))) ∧
    (resolveStored bytes down.source context).value = .error (.fetch "connection reset") ∧
    ∃ tables resolved,
      (resolveStored bytes (TableStore.ofList tables).source context).value = .ok resolved := by
  intro context bytes down
  have hcorrupt : (resolveStored [1, 2] TableStore.empty.source context).value =
      .error (.load (.wire .endOfInput)) := by decide +kernel
  have hdown : (resolveStored bytes down.source context).value =
      .error (.fetch "connection reset") := by decide +kernel
  refine ⟨?_, hdown, ?_⟩
  · exact (resolveStored_failure_permanent_or_curable [1, 2] context
      (.store TableStore.empty) hcorrupt).1 rfl
  · exact (resolveStored_failure_permanent_or_curable bytes context
      (.accounts down) hdown).2 rfl

end Message

end MultisigVault
