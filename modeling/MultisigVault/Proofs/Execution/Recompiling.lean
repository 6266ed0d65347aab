import MultisigVault.Proofs.Compilation.Limits
import MultisigVault.Proofs.Execution.Retrying
import MultisigVault.Proofs.Resolution.Growth

/-!
# Which failures to compile are final

Compiling against a source fails for good when the vault and the instructions bring in too
many addresses or signers, since no table helps against that.  Every other failure comes
from the tables of the moment: without addresses in the tables it would not have occurred.
An index overflow is one of these, although it does not count as a failure that may go
away.
-/

namespace MultisigVault

open Outcome

/-! ## Tables without addresses -/

namespace LookupTable

/-- A table that holds nothing. -/
def bare (key : Address) : LookupTable :=
  ⟨key, []⟩

end LookupTable

/-- Bare tables in memory answer for all their keys. -/
theorem TableSource.table_bare {keys : List Address} {key : Address} (hkey : key ∈ keys) :
    (TableStore.ofList (keys.map .bare)).source.table key = .ok (.bare key) := by
  have hfind : LookupTable.find (keys.map LookupTable.bare).reverse key = .ok (.bare key) := by
    rw [LookupTable.find_eq_ok_iff]
    cases hfound : (keys.map LookupTable.bare).reverse.find? fun table => table.key = key with
    | none =>
        have hnone := List.find?_eq_none.mp hfound (.bare key)
          (List.mem_reverse.mpr (List.mem_map_of_mem hkey))
        simp [LookupTable.bare] at hnone
    | some table =>
        have htable := List.mem_reverse.mp (List.mem_of_find?_eq_some hfound)
        obtain ⟨other, -, rfl⟩ := List.mem_map.mp htable
        obtain rfl : other = key := of_decide_eq_true (List.find?_some hfound :)
        rfl
  rw [table_ofList, hfind]
  rfl

theorem not_indexOverflows_bare (vault : Address) (instructions : List Instruction)
    (keys : List Address) :
    ¬IndexOverflows vault instructions (keys.map LookupTable.bare) := by
  rintro ⟨place, table, key, hfirst, -⟩
  obtain ⟨other, -, rfl⟩ := List.mem_map.mp (List.mem_of_getElem? hfirst.at_place)
  exact List.not_mem_nil hfirst.holds

namespace Message

section

variable {vault : Address} {instructions : List Instruction} {tableKeys : List Address}

/-! ## Success with some tables -/

/-- Whatever the tables are, the limits have been kept. -/
theorem not_exceedsLimits_of_compileWith {source : TableSource} {message : Message}
    (hcompile : (compileWith source vault instructions tableKeys).value = .ok message) :
    ¬ExceedsLimits vault instructions := by
  obtain ⟨tables, -, hmessage⟩ := (value_compileWith_eq_ok_iff ..).mp hcompile
  exact (compile_succeeds_iff.mp ⟨message, hmessage⟩).2

/-- Bare tables serve whatever keeps the limits. -/
theorem compileWith_bare (tableKeys : List Address) (hwithin : ¬ExceedsLimits vault instructions) :
    ∃ message, (compileWith (TableStore.ofList (tableKeys.map .bare)).source vault instructions
      tableKeys).value = .ok message := by
  obtain ⟨message, hcompile⟩ :=
    compile_of_withinLimits (not_indexOverflows_bare vault instructions tableKeys) hwithin
  have htables : tableKeys.mapM (TableStore.ofList (tableKeys.map .bare)).source.table =
      .ok (tableKeys.map LookupTable.bare) :=
    mapM_eq_ok_map fun _ => TableSource.table_bare
  exact ⟨message, (value_compileWith_eq_ok_iff ..).mpr ⟨_, htables, hcompile⟩⟩

theorem compileWith_never_succeeds_iff :
    (∀ source : TableSource, source.Provided → ∀ message,
      (compileWith source vault instructions tableKeys).value ≠ .ok message) ↔
      ExceedsLimits vault instructions := by
  constructor
  · intro hnever
    by_contra hwithin
    obtain ⟨message, hcompile⟩ := compileWith_bare tableKeys hwithin
    exact hnever _ (.store _) message hcompile
  · intro hexceeds source _ message hcompile
    exact not_exceedsLimits_of_compileWith hcompile hexceeds

/-! ## Causes of failure -/

/-- Either a table cannot be had or the instructions cannot be compiled with them. -/
theorem value_compileWith_eq_error {source : TableSource} {failure : Failure}
    (hfails : (compileWith source vault instructions tableKeys).value = .error failure) :
    (∃ key ∈ tableKeys, source.table key = .error failure) ∨
      ∃ tables cause, compile vault instructions tables = .error cause ∧
        failure = .compile cause := by
  rw [Fetching.value, record_compileWith, bind_eq_error_iff] at hfails
  obtain hfetch | ⟨tables, -, hcompile⟩ := hfails
  · exact .inl (exists_mem_of_mapM_eq_error hfetch)
  · obtain ⟨cause, hcause, rfl⟩ := mapError_eq_error_iff.mp hcompile
    exact .inr ⟨tables, cause, hcause, rfl⟩

theorem isRetriable_eq_false_iff_of_compileWith {source : TableSource}
    (hsource : source.Provided) {failure : Failure}
    (hfails : (compileWith source vault instructions tableKeys).value = .error failure) :
    failure.isRetriable = false ↔
      failure = .compile .tooManyKeys ∨ failure = .compile .lookupIndexOverflow := by
  obtain ⟨key, -, htable⟩ | ⟨tables, cause, hcompile, rfl⟩ := value_compileWith_eq_error hfails
  · have hretriable := hsource.isRetriable_of_table htable
    constructor
    · intro hpermanent
      rw [hretriable] at hpermanent
      cases hpermanent
    · rintro (rfl | rfl) <;> cases hretriable
  · refine iff_of_true rfl ?_
    obtain rfl | rfl := cause_of_compile hcompile
    · exact .inr rfl
    · exact .inl rfl

theorem exceedsLimits_of_compileWith {source : TableSource} (hsource : source.Provided)
    (hfails : (compileWith source vault instructions tableKeys).value =
      .error (.compile .tooManyKeys)) : ExceedsLimits vault instructions := by
  obtain ⟨key, -, htable⟩ | ⟨tables, cause, hcompile, heq⟩ := value_compileWith_eq_error hfails
  · have hretriable := hsource.isRetriable_of_table htable
    cases hretriable
  · cases heq
    exact (compile_eq_tooManyKeys_iff.mp hcompile).2

end

/-- A failure to compile against a source is not called retriable if there are too many
keys or an index overflows.  It never goes away exactly if the vault and the instructions
exceed the limits.  Too many keys always mean that they do; an index overflow need not. -/
theorem compileWith_failure_permanent_iff (vault : Address) (instructions : List Instruction)
    (tableKeys : List Address) {source : TableSource} (hsource : source.Provided)
    {failure : Failure}
    (hfails : (compileWith source vault instructions tableKeys).value = .error failure) :
    (failure.isRetriable = false ↔
      failure = .compile .tooManyKeys ∨ failure = .compile .lookupIndexOverflow) ∧
    ((∀ other : TableSource, other.Provided → ∀ message,
      (compileWith other vault instructions tableKeys).value ≠ .ok message) ↔
        ExceedsLimits vault instructions) ∧
    (failure = .compile .tooManyKeys → ExceedsLimits vault instructions) := by
  refine ⟨isRetriable_eq_false_iff_of_compileWith hsource hfails,
    compileWith_never_succeeds_iff, ?_⟩
  rintro rfl
  exact exceedsLimits_of_compileWith hsource hfails

/-- The one account is out of reach in its table, and a source that serves bare tables is
all it takes to compile. -/
theorem compileWith_failure_permanent_iff_out_of_reach :
    let instruction : Instruction := ⟨.numbered 2, [.writable (.numbered 3) false], [7]⟩
    let far : LookupTable :=
      ⟨.numbered 9, List.replicate 256 (.numbered 0) ++ [.numbered 3]⟩
    let outcome (source : TableSource) : Except Failure Message :=
      (compileWith source (.numbered 1) [instruction] [.numbered 9]).value
    outcome (TableStore.ofList [far]).source = .error (.compile .lookupIndexOverflow) ∧
    (Failure.compile .lookupIndexOverflow).isRetriable = false ∧
    ∃ other : TableSource, other.Provided ∧ ∃ message, outcome other = .ok message := by
  intro instruction far outcome
  have hoverflow : outcome (TableStore.ofList [far]).source =
      .error (.compile .lookupIndexOverflow) := by decide +kernel
  obtain ⟨hpermanent, hnever, -⟩ := compileWith_failure_permanent_iff (.numbered 1) [instruction]
    [.numbered 9] (.store _) hoverflow
  refine ⟨hoverflow, hpermanent.mpr (.inr rfl), ?_⟩
  by_contra hfinal
  have hwithin : ¬ExceedsLimits (.numbered 1) [instruction] :=
    Roster.fits_ofInstructions_iff.mp (by decide +kernel)
  exact hwithin (hnever.mp fun other hother message hmessage =>
    hfinal ⟨other, hother, message, hmessage⟩)

/-- An index overflow goes away when the first of two tables, empty so far, comes to hold
the address that the other one holds out of reach.  Addresses are only appended. -/
theorem compileWith_overflow_goes_away :
    let instruction : Instruction := ⟨.numbered 2, [.writable (.numbered 3) false], [7]⟩
    let far : LookupTable :=
      ⟨.numbered 9, List.replicate 256 (.numbered 0) ++ [.numbered 3]⟩
    let tables : List LookupTable := [⟨.numbered 8, []⟩, far]
    let grown : List LookupTable := [⟨.numbered 8, [.numbered 3]⟩, far]
    let outcome (tables : List LookupTable) : Except Failure Message :=
      (compileWith (TableStore.ofList tables).source (.numbered 1) [instruction]
        [.numbered 8, .numbered 9]).value
    List.Forall₂ (fun table later => later.Extends table) tables grown ∧
    (∃ failure, outcome tables = .error failure ∧ failure.isRetriable = false) ∧
    ∃ message, outcome grown = .ok message := by
  intro instruction far tables grown outcome
  have hoverflow : outcome tables = .error (.compile .lookupIndexOverflow) := by decide +kernel
  let message : Message :=
    ⟨1, 1, 0, [.numbered 1, .numbered 2], [⟨1, [2], [7]⟩], [⟨.numbered 8, [0], []⟩]⟩
  have hgrown : outcome grown = .ok message := by decide +kernel
  refine ⟨?_, ⟨_, hoverflow, rfl⟩, message, hgrown⟩
  exact .cons ⟨rfl, List.nil_prefix⟩ (.cons ⟨rfl, List.prefix_rfl⟩ .nil)

end Message

end MultisigVault
