import MultisigVault.Proofs.Execution.Fetching
import MultisigVault.Proofs.Resolution.Reading

/-!
# Resolving against a source

Resolving against a source is deriving the ephemeral signers, fetching the tables and
resolving the message with both.  Against tables held in memory it has the value of
resolving with the list of these tables, and it asks for each table in use once.
-/

namespace MultisigVault

open Outcome

namespace Message

/-! ## Resolving with the tables in use -/

/-- The tables in use serve a message as all tables do. -/
theorem resolve_used {message : Message} {tables used : List LookupTable}
    (hused : message.tableKeys.mapM (LookupTable.find tables) = .ok used) (vault : Address)
    (ephemeralSigners : List Address) :
    message.resolve vault ephemeralSigners used = message.resolve vault ephemeralSigners tables := by
  have hagain : message.tableKeys.mapM (LookupTable.find used) = .ok used := by
    rw [← hused]
    apply mapM_congr
    intro key hkey
    obtain ⟨lookup, hlookup, rfl⟩ := mem_tableKeys_iff.mp hkey
    exact find_used hused hlookup
  rw [resolve, resolve, hagain, hused]

/-- Tables may be looked up before resolving. -/
theorem resolve_eq_bind (message : Message) (vault : Address) (ephemeralSigners : List Address)
    (tables : List LookupTable) :
    message.resolve vault ephemeralSigners tables =
      message.tableKeys.mapM (LookupTable.find tables) >>=
        message.resolve vault ephemeralSigners := by
  cases hused : message.tableKeys.mapM (LookupTable.find tables) with
  | error cause => rw [resolve, hused, error_bind, error_bind]
  | ok used => rw [ok_bind, resolve_used hused]

/-! ## The value and the record -/

section

variable (message : Message) (source : TableSource) (context : ExecutionContext)

/-- Without the ephemeral signers nothing is fetched. -/
theorem record_resolveWith_of_error {cause : DerivationError}
    (hderive : DerivationScheme.standard.ephemeralSigners context.transaction
      context.ephemeralSigners context.program = .error cause) :
    (message.resolveWith source context).record = (.error (.derivation cause), []) := by
  rw [resolveWith, hderive, Fetching.record]
  rfl

/-- With the ephemeral signers the tables are fetched, and then nothing else is. -/
theorem record_resolveWith_of_ok {ephemeralSigners : List Address}
    (hderive : DerivationScheme.standard.ephemeralSigners context.transaction
      context.ephemeralSigners context.program = .ok ephemeralSigners) :
    (message.resolveWith source context).record =
      (do
        let tables ← message.tableKeys.mapM source.table
        (message.resolve context.vault ephemeralSigners tables).mapError .resolve,
      source.asks message.tableKeys) := by
  rw [resolveWith, hderive, Fetching.record]
  simp only [Except.mapError, run_bind, run_liftM, TableSource.run_fetch, List.nil_append]
  cases message.tableKeys.mapM source.table <;> rfl

/-- Resolving succeeds only if every table was asked for. -/
theorem asked_of_value_eq_ok {resolved : ResolvedAccounts}
    (hresolved : (message.resolveWith source context).value = .ok resolved) :
    (message.resolveWith source context).asked = message.tableKeys := by
  rw [Fetching.value] at hresolved
  rw [Fetching.asked]
  cases hderive : DerivationScheme.standard.ephemeralSigners context.transaction
      context.ephemeralSigners context.program with
  | error cause =>
      rw [record_resolveWith_of_error message source context hderive] at hresolved
      cases hresolved
  | ok ephemeralSigners =>
      rw [record_resolveWith_of_ok message source context hderive] at hresolved ⊢
      obtain ⟨tables, htables, -⟩ := bind_eq_ok_iff.mp hresolved
      exact TableSource.asks_of_mapM_eq_ok htables

end

/-- Against tables held in memory, the value is that of resolving with the list of the
tables from the last to the first. -/
theorem value_resolveWith_ofList (message : Message) (context : ExecutionContext)
    (tables : List LookupTable) {ephemeralSigners : List Address}
    (hderive : DerivationScheme.standard.ephemeralSigners context.transaction
      context.ephemeralSigners context.program = .ok ephemeralSigners) :
    (message.resolveWith (TableStore.ofList tables).source context).value =
      (message.resolve context.vault ephemeralSigners tables.reverse).mapError .resolve := by
  have hfetch : message.tableKeys.mapM (TableStore.ofList tables).source.table =
      (message.tableKeys.mapM (LookupTable.find tables.reverse)).mapError .resolve := by
    rw [← mapM_mapError]
    exact mapM_congr fun key _ => TableSource.table_ofList tables key
  rw [Fetching.value, record_resolveWith_of_ok message _ context hderive, hfetch, resolve_eq_bind,
    mapError_bind]

/-- Resolving against a source refines resolving with a list of tables.  If the ephemeral
signers cannot be derived, it fails for that cause and asks for nothing.  Otherwise it has,
against tables held in memory, the value of resolving with the list in which the last
inserted table comes first.  If it succeeds, it has asked for every table that the message
refers to, and once. -/
theorem resolveWith_refines_resolve (message : Message) (context : ExecutionContext)
    (tables : List LookupTable) :
    let derived := DerivationScheme.standard.ephemeralSigners context.transaction
      context.ephemeralSigners context.program
    (∀ cause, derived = .error cause → ∀ source,
      (message.resolveWith source context).record = (.error (.derivation cause), [])) ∧
    (∀ ephemeralSigners, derived = .ok ephemeralSigners →
      (message.resolveWith (TableStore.ofList tables).source context).value =
        (message.resolve context.vault ephemeralSigners tables.reverse).mapError .resolve) ∧
    (∀ source resolved, (message.resolveWith source context).value = .ok resolved →
      (message.resolveWith source context).asked = message.tableKeys) ∧
    message.tableKeys.Nodup ∧
    ∀ key, key ∈ message.tableKeys ↔ ∃ lookup ∈ message.lookups, lookup.table = key := by
  intro derived
  refine ⟨?_, ?_, ?_, FirstOccurrence.nodup_eraseDups _, fun _ => mem_tableKeys_iff⟩
  · intro cause hderive source
    exact record_resolveWith_of_error message source context hderive
  · intro ephemeralSigners hderive
    exact value_resolveWith_ofList message context tables hderive
  · intro source resolved hresolved
    exact asked_of_value_eq_ok message source context hresolved

/-- Two lookups share a table, and two tables share its key: the first of them is too
short for the second lookup.  The ephemeral signer is a static key. -/
theorem resolveWith_refines_resolve_shared_table :
    let signer : Address :=
      ⟨[147, 212, 40, 105, 61, 203, 230, 134, 61, 29, 136, 142, 200, 238, 153, 0,
        31, 222, 249, 17, 62, 140, 22, 176, 241, 9, 206, 121, 32, 202, 105, 246], by decide⟩
    let context : ExecutionContext :=
      { program := .uniform 2
        transaction := .uniform 3
        vault := .uniform 1
        ephemeralSigners := 1 }
    let message : Message :=
      ⟨2, 1, 0, [.uniform 1, signer], [],
        [⟨.uniform 8, [0], []⟩, ⟨.uniform 9, [], [1]⟩, ⟨.uniform 8, [], [1]⟩]⟩
    let tables : List LookupTable :=
      [⟨.uniform 8, [.uniform 5]⟩, ⟨.uniform 9, [.uniform 6, .uniform 7]⟩,
        ⟨.uniform 8, [.uniform 10, .uniform 11]⟩]
    let computation := message.resolveWith (TableStore.ofList tables).source context
    ∃ resolved, message.resolve (.uniform 1) [signer] tables.reverse = .ok resolved ∧
      computation.value = .ok resolved ∧ computation.asked = [.uniform 8, .uniform 9] := by
  intro signer context message tables computation
  let resolved : ResolvedAccounts :=
    { accounts := [.readonly (.uniform 8) false, .readonly (.uniform 9) false,
        .writable (.uniform 1) false, .readonly signer false, .writable (.uniform 10) false,
        .readonly (.uniform 7) false, .readonly (.uniform 11) false]
      tables := [⟨.uniform 8, [.uniform 10, .uniform 11]⟩,
        ⟨.uniform 9, [.uniform 6, .uniform 7]⟩] }
  have hderive : DerivationScheme.standard.ephemeralSigners context.transaction
      context.ephemeralSigners context.program = .ok [signer] := by decide +kernel
  have hresolve : message.resolve (.uniform 1) [signer] tables.reverse = .ok resolved := by decide
  have hkeys : message.tableKeys = [.uniform 8, .uniform 9] := by decide
  obtain ⟨-, hvalue, hasked, -⟩ := resolveWith_refines_resolve message context tables
  have hresolved : computation.value = .ok resolved := by
    rw [hvalue _ hderive, hresolve]
    rfl
  exact ⟨resolved, hresolve, hresolved, (hasked _ _ hresolved).trans hkeys⟩

end Message

end MultisigVault
