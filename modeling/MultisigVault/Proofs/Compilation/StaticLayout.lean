import MultisigVault.Proofs.Compilation.Exclusivity
import MultisigVault.Proofs.Compilation.Form

/-!
# The layout of static keys

The static keys of a compiled message are the distinct addresses in the order of
first reference, without those that lookups name, in four blocks by privilege.  The
three stored counts and the two derived ones are the sizes of the blocks, so the place
of a static key tells exactly which privileges are asked for on it.
-/

namespace MultisigVault

/-- Whether the static keys of a message are the given addresses, divided into four
blocks by privilege and otherwise in the given order, and whether everything that the
message tells about blocks and places agrees with the privileges asked for. -/
structure CanonicalLayout (vault : Address) (instructions : List Instruction)
    (kept : List Address) (message : Message) : Prop where
  staticKeys : message.staticKeys =
    privilegeClass vault instructions true true kept ++
      privilegeClass vault instructions true false kept ++
        privilegeClass vault instructions false true kept ++
          privilegeClass vault instructions false false kept
  signers : message.signers.toNat =
    (privilegeClass vault instructions true true kept).length +
      (privilegeClass vault instructions true false kept).length
  writableSigners : message.writableSigners.toNat =
    (privilegeClass vault instructions true true kept).length
  writableNonSigners : message.writableNonSigners.toNat =
    (privilegeClass vault instructions false true kept).length
  readonlySigners : message.readonlySigners =
    (privilegeClass vault instructions true false kept).length
  readonlyNonSigners : message.readonlyNonSigners =
    (privilegeClass vault instructions false false kept).length
  vault_first : message.staticKeys[0]? = some vault
  signer_at : ∀ index key, message.staticKeys[index]? = some key →
    (message.isSignerIndex index = true ↔ Entitled AccountMeta.isSigner vault instructions key)
  writable_at : ∀ index key, message.staticKeys[index]? = some key →
    (message.isWritableIndex index = true ↔
      Entitled AccountMeta.isWritable vault instructions key)

/-- The distinct addresses that stay among the static keys, in the order of first reference. -/
def keptMentions (vault : Address) (instructions : List Instruction)
    (tables : List LookupTable) : List Address :=
  (distinctMentions vault instructions).filter fun key =>
    StaysStatic vault instructions tables key

namespace Roster

variable {vault : Address} {instructions : List Instruction} {tables : List LookupTable}

/-- What stays static of a class without signers is what no table holds. -/
theorem block_withoutAll_ofInstructions (isSigner isWritable : Bool) :
    ((ofInstructions vault instructions).withoutAll tables).block isSigner isWritable =
      privilegeClass vault instructions isSigner isWritable
        (keptMentions vault instructions tables) := by
  rw [keptMentions, privilegeClass_filter]
  cases isSigner with
  | true =>
      rw [block_withoutAll_signer, block_ofInstructions, eq_comm, List.filter_eq_self]
      intro key hkey
      obtain ⟨-, hsigner, -⟩ := mem_privilegeClass_iff.mp hkey
      rw [decide_eq_true_eq, StaysStatic, ← or_assoc]
      exact .inl (hsigner.mpr rfl)
  | false =>
      rw [block_withoutAll_nonSigner, block_ofInstructions]
      apply List.filter_congr
      intro key hkey
      obtain ⟨-, hsigner, -⟩ := mem_privilegeClass_iff.mp hkey
      rw [decide_eq_decide, StaysStatic, ← or_assoc, ← Entitled]
      simp [hsigner]

end Roster

namespace Message

section

variable {vault : Address} {instructions : List Instruction} {tables : List LookupTable}
  {message : Message}

/-- The privileges of the account that a place holds are those that are asked for. -/
theorem entitled_of_staticKeys (hcompile : compile vault instructions tables = .ok message)
    {index : Nat} {key : Address} (hkey : message.staticKeys[index]? = some key) :
    (message.isSignerIndex index = true ↔ Entitled AccountMeta.isSigner vault instructions key) ∧
      (message.isWritableIndex index = true ↔
        Entitled AccountMeta.isWritable vault instructions key) := by
  have hmem := (countsBlocks_of_compile hcompile).mem_accounts hkey
  have hlisted := (Roster.accounts_withoutAll_sublist _ tables).subset hmem
  exact (Roster.mem_accounts_ofInstructions.mp hlisted).2

theorem canonicalLayout_of_compile (hcompile : compile vault instructions tables = .ok message) :
    CanonicalLayout vault instructions (keptMentions vault instructions tables) message := by
  let rest := (Roster.ofInstructions vault instructions).withoutAll tables
  have hblocks : rest.CountsBlocks message := countsBlocks_of_compile hcompile
  have hblock (isSigner isWritable : Bool) : rest.block isSigner isWritable =
      privilegeClass vault instructions isSigner isWritable
        (keptMentions vault instructions tables) :=
    Roster.block_withoutAll_ofInstructions isSigner isWritable
  have hsigners := rest.length_signers
  have hlength := rest.length_eq_blocks
  exact
    { staticKeys := by
        rw [hblocks.staticKeys, Roster.staticKeys]
        simp only [hblock]
      signers := by rw [hblocks.signers, hsigners, hblock, hblock]
      writableSigners := by rw [hblocks.writableSigners, hblock]
      writableNonSigners := by rw [hblocks.writableNonSigners, hblock]
      readonlySigners := by
        rw [readonlySigners, hblocks.signers, hblocks.writableSigners, ← hblock]
        omega
      readonlyNonSigners := by
        rw [readonlyNonSigners, hblocks.staticKeys, hblocks.signers, hblocks.writableNonSigners,
          Roster.length_staticKeys, ← hblock]
        omega
      vault_first := by
        rw [← List.head?_eq_getElem?]
        exact head?_staticKeys_of_compile hcompile
      signer_at := fun _ _ hkey => (entitled_of_staticKeys hcompile hkey).1
      writable_at := fun _ _ hkey => (entitled_of_staticKeys hcompile hkey).2 }

/-- An address that is referred to stays static exactly when no lookup names it. -/
theorem staysStatic_iff_not_names
    (hreached : (Roster.ofInstructions vault instructions).ReachedBy tables) {key : Address}
    (hkey : key ∈ distinctMentions vault instructions) :
    StaysStatic vault instructions tables key ↔
      ∀ source ∈ (Roster.ofInstructions vault instructions).sources tables,
        ¬Names tables source key := by
  constructor
  · intro hstays source hsource
    exact not_names_of_staysStatic hreached hsource hstays
  · intro hunnamed
    by_contra hdrained
    rw [← Roster.keys_references, Roster.mem_keys_references] at hkey
    have hmentioned : Mentioned instructions key :=
      hkey.resolve_left fun hvault => hdrained (.inl hvault)
    obtain ⟨source, hsource, -, -, hnames, -⟩ :=
      exists_source_of_not_staysStatic hreached hmentioned hdrained
    exact hunnamed source hsource ((hnames source hsource).mpr rfl)

end

/-- The static keys of a compiled message are laid out canonically: they are the
addresses that no lookup names, in the order of first reference and in four blocks by
privilege, and the counts and places of the message tell the privileges. -/
theorem compile_canonical_layout {vault : Address} {instructions : List Instruction}
    {tables : List LookupTable} {message : Message}
    (hcompile : compile vault instructions tables = .ok message) :
    CanonicalLayout vault instructions (keptMentions vault instructions tables) message ∧
      ∃ sources : List (Nat × TableLookup), sources.map Prod.snd = message.lookups ∧
        (sources.map Prod.fst).Pairwise (· < ·) ∧
        (∀ source ∈ sources, ∃ table, tables[source.1]? = some table ∧
          source.2.table = table.key) ∧
        ∀ key ∈ distinctMentions vault instructions,
          StaysStatic vault instructions tables key ↔
            ∀ source ∈ sources, ¬Names tables source key := by
  refine ⟨canonicalLayout_of_compile hcompile, ?_⟩
  obtain ⟨hreached, -, rfl⟩ := compile_eq_ok_iff.mp hcompile
  exact ⟨_, Roster.map_snd_sources _ tables, Roster.pairwise_fst_sources _ tables,
    fun _ => Roster.exists_table_of_mem_sources, fun _ => staysStatic_iff_not_names hreached⟩

/-- The vault is an account of the second instruction, which also adds a privilege to
each of two accounts of the first.  The first program is looked up. -/
theorem compile_canonical_layout_late_privileges :
    let instructions : List Instruction :=
      [⟨.uniform 2, [.readonly (.uniform 5) false, .writable (.uniform 3) false,
          .readonly (.uniform 4) true], []⟩,
        ⟨.uniform 6, [.readonly (.uniform 1) false, .writable (.uniform 4) false,
          .readonly (.uniform 5) true], []⟩]
    let tables : List LookupTable := [⟨.uniform 8, [.uniform 9, .uniform 2]⟩]
    ∃ message, compile (.uniform 1) instructions tables = .ok message ∧
      message.staticKeys = [.uniform 1, .uniform 4, .uniform 5, .uniform 3, .uniform 6] ∧
      keptMentions (.uniform 1) instructions tables =
        [.uniform 1, .uniform 5, .uniform 3, .uniform 4, .uniform 6] ∧
      CanonicalLayout (.uniform 1) instructions
        (keptMentions (.uniform 1) instructions tables) message := by
  intro instructions tables
  let message : Message :=
    ⟨3, 2, 1, [.uniform 1, .uniform 4, .uniform 5, .uniform 3, .uniform 6],
      [⟨5, [2, 3, 1], []⟩, ⟨4, [0, 1, 2], []⟩], [⟨.uniform 8, [], [1]⟩]⟩
  have hcompile : compile (.uniform 1) instructions tables = .ok message := by decide
  have hkept : keptMentions (.uniform 1) instructions tables =
      [.uniform 1, .uniform 5, .uniform 3, .uniform 4, .uniform 6] := by decide +kernel
  exact ⟨message, hcompile, rfl, hkept, (compile_canonical_layout hcompile).1⟩

end Message

end MultisigVault
