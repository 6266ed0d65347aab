import Mathlib.Algebra.Ring.Nat
import MultisigVault.Proofs.Compilation.Form
import MultisigVault.Proofs.Message.LengthLimits

/-!
# What lookup tables save

A static key is stored with its 32 bytes, and an address that is looked up with the one
byte of its index.  Every lookup adds the 32 bytes of its table and two counts.  All else
that is stored of some instructions is as long with tables as without them, so tables make
a message shorter exactly when they take over enough addresses for each lookup.
-/

namespace MultisigVault

open scoped List

/-! ## The length of what is written -/

/-- Items that take up a fixed number of bytes each, and some of their own. -/
theorem Bytes.length_flatMap_of_width {Item : Type} {write rest : Item → Bytes} {width : Nat}
    (hwrite : ∀ item, (write item).length = width + (rest item).length) (items : List Item) :
    (items.flatMap write).length = width * items.length + (items.flatMap rest).length := by
  induction items with
  | nil => rfl
  | cons item items ih =>
      simp only [List.flatMap_cons, List.length_append, List.length_cons, hwrite, ih]
      rw [Nat.mul_succ]
      omega

theorem Address.length_flatMap_bytes (keys : List Address) :
    (keys.flatMap Address.bytes).length = 32 * keys.length := by
  have hlength : (keys.flatMap Address.bytes).length =
      32 * keys.length + (keys.flatMap fun _ => ([] : Bytes)).length :=
    Bytes.length_flatMap_of_width Address.length_bytes keys
  simpa using hlength

/-- The number of bytes that an instruction takes up in a message: its program, the counts
of its two lists, an index for each account, and its data. -/
def Instruction.storedLength (instruction : Instruction) : Nat :=
  4 + instruction.accounts.length + instruction.data.length

/-- However its addresses are numbered, an instruction takes up the same space. -/
theorem CompiledInstruction.length_written_renumber (keys : List Address)
    (instruction : Instruction) :
    (renumber keys instruction).written.length = instruction.storedLength := by
  simp only [written, renumber, Instruction.storedLength, List.length_append, List.length_map,
    List.length_singleton, Bytes.length_littleEndian]
  omega

namespace TableLookup

/-- A lookup takes up its table, the counts of its two lists, and a byte for each index. -/
theorem length_written (lookup : TableLookup) :
    lookup.written.length = 34 + lookup.indexes.length := by
  simp only [written, indexes, List.length_append, Bytes.length_littleEndian,
    lookup.table.length_bytes]
  omega

theorem length_flatMap_written (lookups : List TableLookup) :
    (lookups.flatMap written).length = 34 * lookups.length + (lookups.flatMap indexes).length :=
  Bytes.length_flatMap_of_width length_written lookups

end TableLookup

namespace Message

/-- The static keys of one message that another one does not have. -/
def missingKeys (message other : Message) : List Address :=
  message.staticKeys.filter fun key => key ∉ other.staticKeys

section

variable {vault : Address} {instructions : List Instruction} {tables : List LookupTable}
  {message plain : Message} {bytes : Bytes}

/-- The length of a stored message, part by part. -/
theorem length_store_of_compile (hcompile : compile vault instructions tables = .ok message)
    (hstore : message.store = .ok bytes) :
    bytes.length = 6 + 32 * message.staticKeys.length +
      (instructions.map Instruction.storedLength).sum + 34 * message.lookups.length +
        (message.lookups.flatMap TableLookup.indexes).length := by
  have hinstructions : (message.instructions.flatMap CompiledInstruction.written).length =
      (instructions.map Instruction.storedLength).sum := by
    obtain ⟨-, -, rfl⟩ := compile_eq_ok_iff.mp hcompile
    rw [Roster.message, List.flatMap_map, List.length_flatMap]
    simp only [CompiledInstruction.length_written_renumber]
  rw [writes_codec _ _ (store_eq_ok_iff.mp hstore), written]
  simp only [List.length_append, List.length_cons, List.length_nil, Bytes.length_littleEndian,
    Address.length_flatMap_bytes, TableLookup.length_flatMap_written, hinstructions]
  omega

/-! ## With and without tables -/

/-- Tables move addresses about but add none and lose none. -/
theorem keyCount_of_compile (hcompile : compile vault instructions tables = .ok message) :
    message.keyCount = (distinctMentions vault instructions).length := by
  obtain ⟨-, -, rfl⟩ := compile_eq_ok_iff.mp hcompile
  rw [Roster.keyCount_message, Roster.length_ofInstructions]

theorem lookups_of_compile_nil (hplain : compile vault instructions [] = .ok plain) :
    plain.lookups = [] := by
  obtain ⟨-, -, rfl⟩ := compile_eq_ok_iff.mp hplain
  rfl

/-- Without tables every address is static. -/
theorem length_staticKeys_of_compile_nil (hplain : compile vault instructions [] = .ok plain) :
    plain.staticKeys.length = (distinctMentions vault instructions).length := by
  have hcount := keyCount_of_compile hplain
  rwa [keyCount, lookups_of_compile_nil hplain, List.flatMap_nil, List.length_nil,
    Nat.add_zero] at hcount

theorem staticKeys_subset_of_compile
    (hcompile : compile vault instructions tables = .ok message)
    (hplain : compile vault instructions [] = .ok plain) :
    message.staticKeys ⊆ plain.staticKeys := by
  rw [(countsBlocks_of_compile hcompile).staticKeys, (countsBlocks_of_compile hplain).staticKeys]
  intro key hkey
  rw [Roster.mem_staticKeys_withoutAll] at hkey ⊢
  rcases hkey with hsigner | ⟨hother, -⟩
  · exact .inl hsigner
  · exact .inr ⟨hother, LookupTable.noneHolds_nil key⟩

/-- The static keys that tables take over are as many as the indexes of the lookups. -/
theorem length_missingKeys (hcompile : compile vault instructions tables = .ok message)
    (hplain : compile vault instructions [] = .ok plain) :
    (plain.missingKeys message).length =
      (message.lookups.flatMap TableLookup.indexes).length := by
  -- Neither list repeats a key, so the keys that stay are counted by the shorter list.
  have hkept : plain.staticKeys.filter (fun key => key ∈ message.staticKeys) ~
      message.staticKeys := by
    have hnodup := (wellFormed_of_compile hplain).nodup.filter fun key => key ∈ message.staticKeys
    apply (List.perm_ext_iff_of_nodup hnodup (wellFormed_of_compile hcompile).nodup).mpr
    intro key
    rw [List.mem_filter, decide_eq_true_eq]
    exact and_iff_right_of_imp fun hkey => staticKeys_subset_of_compile hcompile hplain hkey
  have hsplit := List.length_eq_length_filter_add (l := plain.staticKeys)
    fun key => key ∈ message.staticKeys
  have hcount := keyCount_of_compile hcompile
  rw [keyCount, ← length_staticKeys_of_compile_nil hplain, hsplit, hkept.length_eq] at hcount
  simp only [missingKeys, decide_not]
  exact (Nat.add_left_cancel hcount).symm

end

/-- The exact effect of tables on the length of a stored message.  Each address that they
take over saves 31 bytes, and each lookup costs 34.  The addresses taken over are those
that would be static keys without tables, one for each index of a lookup. -/
theorem length_store_with_tables {vault : Address} {instructions : List Instruction}
    {tables : List LookupTable} {message plain : Message} {bytes plainBytes : Bytes}
    (hcompile : compile vault instructions tables = .ok message)
    (hplain : compile vault instructions [] = .ok plain)
    (hstore : message.store = .ok bytes) (hplainStore : plain.store = .ok plainBytes) :
    let drained := (message.lookups.flatMap TableLookup.indexes).length
    drained = (plain.missingKeys message).length ∧
      bytes.length + 31 * drained = plainBytes.length + 34 * message.lookups.length ∧
      (bytes.length < plainBytes.length ↔ 34 * message.lookups.length < 31 * drained) := by
  intro drained
  have hlength := length_store_of_compile hcompile hstore
  have hplainLength := length_store_of_compile hplain hplainStore
  have hkeys : message.staticKeys.length + drained = plain.staticKeys.length := by
    rw [length_staticKeys_of_compile_nil hplain]
    exact keyCount_of_compile hcompile
  simp only [lookups_of_compile_nil hplain, List.flatMap_nil, List.length_nil] at hplainLength
  have hexact : bytes.length + 31 * drained =
      plainBytes.length + 34 * message.lookups.length := by
    omega
  refine ⟨(length_missingKeys hcompile hplain).symm, hexact, ?_⟩
  omega

/-- A table that holds two accounts saves 28 bytes.  If another one comes before it and
takes over one of them, the two lookups cost 6 bytes more than the accounts. -/
theorem length_store_with_tables_split_lookup :
    let instruction : Instruction :=
      ⟨.uniform 2, [.writable (.uniform 3) false, .readonly (.uniform 4) false], [7]⟩
    let table : LookupTable := ⟨.uniform 8, [.uniform 3, .uniform 4]⟩
    let other : LookupTable := ⟨.uniform 9, [.uniform 4]⟩
    ∃ plain single split plainBytes singleBytes splitBytes,
      compile (.uniform 1) [instruction] [] = .ok plain ∧
      compile (.uniform 1) [instruction] [table] = .ok single ∧
      compile (.uniform 1) [instruction] [other, table] = .ok split ∧
      plain.store = .ok plainBytes ∧ single.store = .ok singleBytes ∧
      split.store = .ok splitBytes ∧
      singleBytes.length + 28 = plainBytes.length ∧
      splitBytes.length = plainBytes.length + 6 := by
  intro instruction table other
  let plain : Message :=
    ⟨1, 1, 1, [.uniform 1, .uniform 3, .uniform 2, .uniform 4], [⟨2, [1, 3], [7]⟩], []⟩
  let single : Message :=
    ⟨1, 1, 0, [.uniform 1, .uniform 2], [⟨1, [2, 3], [7]⟩], [⟨.uniform 8, [0], [1]⟩]⟩
  let split : Message :=
    ⟨1, 1, 0, [.uniform 1, .uniform 2], [⟨1, [2, 3], [7]⟩],
      [⟨.uniform 9, [], [0]⟩, ⟨.uniform 8, [0], []⟩]⟩
  have hplain : compile (.uniform 1) [instruction] [] = .ok plain := by decide
  have hsingle : compile (.uniform 1) [instruction] [table] = .ok single := by decide
  have hsplit : compile (.uniform 1) [instruction] [other, table] = .ok split := by decide
  have hplainStore : plain.store = .ok plain.written := by decide
  have hsingleStore : single.store = .ok single.written := by decide
  have hsplitStore : split.store = .ok split.written := by decide
  have hshorter : single.written.length + 31 * 2 = plain.written.length + 34 * 1 :=
    (length_store_with_tables hsingle hplain hsingleStore hplainStore).2.1
  have hlonger : split.written.length + 31 * 2 = plain.written.length + 34 * 2 :=
    (length_store_with_tables hsplit hplain hsplitStore hplainStore).2.1
  refine ⟨plain, single, split, _, _, _, hplain, hsingle, hsplit, hplainStore, hsingleStore,
    hsplitStore, ?_, ?_⟩
  · omega
  · omega

end Message

end MultisigVault
