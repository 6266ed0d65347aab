import MultisigVault.Proofs.Message.StoredForm

/-!
# Which length is reported

Storing a message first compares the length of each of its lists with the largest
number that the count of the list can express.  The wire codec makes the same
comparisons by itself, list by list.  They agree, so a message that passes the check is
written, with all of its elements, and one that does not is refused for the first list
that is too long.
-/

namespace MultisigVault

open Wire Outcome

/-! ## Lists that are too long -/

/-- Whether the lists of an instruction are short enough for their counts. -/
def CompiledInstruction.FitsCounts (instruction : CompiledInstruction) : Prop :=
  instruction.accountIndexes.length ≤ 255 ∧ instruction.data.length ≤ 65535

/-- Whether the lists of a lookup are short enough for their counts. -/
def TableLookup.FitsCounts (lookup : TableLookup) : Prop :=
  lookup.writableIndexes.length ≤ 255 ∧ lookup.readonlyIndexes.length ≤ 255

namespace Message

/-- Whether the lists of a message itself are short enough for their counts. -/
def OwnListsFit (message : Message) : Prop :=
  message.staticKeys.length ≤ 255 ∧ message.instructions.length ≤ 255 ∧
    message.lookups.length ≤ 255

/-- The first list of a message that is too long: its name, its length and the largest
length it may have. -/
inductive FirstTooLong (message : Message) : (name : String) → (length limit : Nat) → Prop
  | staticKeys (hlong : 255 < message.staticKeys.length) :
      FirstTooLong message "account_keys" message.staticKeys.length 255
  | instructions (hkeys : message.staticKeys.length ≤ 255)
      (hlong : 255 < message.instructions.length) :
      FirstTooLong message "instructions" message.instructions.length 255
  | lookups (hkeys : message.staticKeys.length ≤ 255)
      (hinstructions : message.instructions.length ≤ 255)
      (hlong : 255 < message.lookups.length) :
      FirstTooLong message "address_table_lookups" message.lookups.length 255
  | accountIndexes {before after : List CompiledInstruction} {instruction : CompiledInstruction}
      (hown : message.OwnListsFit) (hplace : message.instructions = before ++ instruction :: after)
      (hbefore : ∀ earlier ∈ before, earlier.FitsCounts)
      (hlong : 255 < instruction.accountIndexes.length) :
      FirstTooLong message "account_indexes" instruction.accountIndexes.length 255
  | data {before after : List CompiledInstruction} {instruction : CompiledInstruction}
      (hown : message.OwnListsFit) (hplace : message.instructions = before ++ instruction :: after)
      (hbefore : ∀ earlier ∈ before, earlier.FitsCounts)
      (hindexes : instruction.accountIndexes.length ≤ 255)
      (hlong : 65535 < instruction.data.length) :
      FirstTooLong message "data" instruction.data.length 65535
  | writableIndexes {before after : List TableLookup} {lookup : TableLookup}
      (hown : message.OwnListsFit)
      (hinstructions : ∀ instruction ∈ message.instructions, instruction.FitsCounts)
      (hplace : message.lookups = before ++ lookup :: after)
      (hbefore : ∀ earlier ∈ before, earlier.FitsCounts)
      (hlong : 255 < lookup.writableIndexes.length) :
      FirstTooLong message "writable_indexes" lookup.writableIndexes.length 255
  | readonlyIndexes {before after : List TableLookup} {lookup : TableLookup}
      (hown : message.OwnListsFit)
      (hinstructions : ∀ instruction ∈ message.instructions, instruction.FitsCounts)
      (hplace : message.lookups = before ++ lookup :: after)
      (hbefore : ∀ earlier ∈ before, earlier.FitsCounts)
      (hindexes : lookup.writableIndexes.length ≤ 255)
      (hlong : 255 < lookup.readonlyIndexes.length) :
      FirstTooLong message "readonly_indexes" lookup.readonlyIndexes.length 255

end Message

namespace ListField

theorem name_injective : Function.Injective name := by
  intro left right heq
  cases left <;> cases right <;> simp [name] at heq ⊢

/-- The first of some lists that is too long for its count. -/
def tooLong? (lists : List (ListField × Nat)) : Option (ListField × Nat) :=
  lists.find? fun entry => entry.1.limit < entry.2

variable {lists rest : List (ListField × Nat)} {field : ListField} {length : Nat}
  {entry : ListField × Nat}

theorem tooLong?_eq_none_iff :
    tooLong? lists = none ↔ ∀ entry ∈ lists, entry.2 ≤ entry.1.limit := by
  simp [tooLong?, List.find?_eq_none]

theorem tooLong?_cons_eq_some_iff :
    tooLong? ((field, length) :: rest) = some entry ↔
      field.limit < length ∧ entry = (field, length) ∨
        length ≤ field.limit ∧ tooLong? rest = some entry := by
  by_cases hlong : field.limit < length
  · simp [tooLong?, hlong, Nat.not_le_of_lt hlong, eq_comm]
  · simp [tooLong?, hlong, Nat.le_of_not_lt hlong]

theorem tooLong?_singleton_eq_some_iff :
    tooLong? [(field, length)] = some entry ↔ field.limit < length ∧ entry = (field, length) := by
  rw [tooLong?_cons_eq_some_iff, tooLong?, List.find?_nil]
  simp

theorem tooLong?_append_eq_some_iff :
    tooLong? (lists ++ rest) = some entry ↔
      tooLong? lists = some entry ∨ tooLong? lists = none ∧ tooLong? rest = some entry := by
  rw [tooLong?, List.find?_append, Option.or_eq_some_iff, tooLong?, tooLong?]

theorem tooLong?_flatMap_eq_some_iff {Item : Type} {items : List Item}
    {select : Item → List (ListField × Nat)} :
    tooLong? (items.flatMap select) = some entry ↔
      ∃ before item after, items = before ++ item :: after ∧
        tooLong? (select item) = some entry ∧
        ∀ earlier ∈ before, tooLong? (select earlier) = none := by
  rw [tooLong?, List.find?_flatMap, List.findSome?_eq_some_iff]
  rfl

theorem tooLong?_flatMap_eq_none_iff {Item : Type} {items : List Item}
    {select : Item → List (ListField × Nat)} :
    tooLong? (items.flatMap select) = none ↔ ∀ item ∈ items, tooLong? (select item) = none := by
  rw [tooLong?, List.find?_flatMap, List.findSome?_eq_none_iff]
  rfl

end ListField

/-! ## From part to part -/

open ListField

/-- The lists of an instruction with their lengths. -/
def CompiledInstruction.lengths (instruction : CompiledInstruction) : List (ListField × Nat) :=
  [(.accountIndexes, instruction.accountIndexes.length), (.data, instruction.data.length)]

theorem CompiledInstruction.fitsCounts_iff {instruction : CompiledInstruction} :
    instruction.FitsCounts ↔ tooLong? instruction.lengths = none := by
  rw [tooLong?_eq_none_iff, lengths, List.forall_mem_cons, List.forall_mem_singleton]
  rfl

/-- The lists of a lookup with their lengths. -/
def TableLookup.lengths (lookup : TableLookup) : List (ListField × Nat) :=
  [(.writableIndexes, lookup.writableIndexes.length),
    (.readonlyIndexes, lookup.readonlyIndexes.length)]

theorem TableLookup.fitsCounts_iff {lookup : TableLookup} :
    lookup.FitsCounts ↔ tooLong? lookup.lengths = none := by
  rw [tooLong?_eq_none_iff, lengths, List.forall_mem_cons, List.forall_mem_singleton]
  rfl

namespace Message

variable {message : Message} {field : ListField} {length : Nat} {entry : ListField × Nat}

/-- The lists of a message itself with their lengths. -/
def ownLengths (message : Message) : List (ListField × Nat) :=
  [(.staticKeys, message.staticKeys.length), (.instructions, message.instructions.length),
    (.lookups, message.lookups.length)]

theorem ownListsFit_iff : message.OwnListsFit ↔ tooLong? message.ownLengths = none := by
  rw [tooLong?_eq_none_iff, ownLengths, List.forall_mem_cons, List.forall_mem_cons,
    List.forall_mem_singleton]
  rfl

/-- The search goes through the lists of the message itself, then instruction by
instruction and then lookup by lookup. -/
theorem tooLong?_listLengths_eq_some_iff :
    tooLong? message.listLengths = some entry ↔
      tooLong? message.ownLengths = some entry ∨ message.OwnListsFit ∧
        ((∃ before instruction after, message.instructions = before ++ instruction :: after ∧
            tooLong? instruction.lengths = some entry ∧
            ∀ earlier ∈ before, earlier.FitsCounts) ∨
          (∀ instruction ∈ message.instructions, instruction.FitsCounts) ∧
            ∃ before lookup after, message.lookups = before ++ lookup :: after ∧
              tooLong? lookup.lengths = some entry ∧ ∀ earlier ∈ before, earlier.FitsCounts) := by
  have hlists : message.listLengths =
      message.ownLengths ++ (message.instructions.flatMap CompiledInstruction.lengths ++
        message.lookups.flatMap TableLookup.lengths) :=
    List.append_assoc ..
  simp only [hlists, tooLong?_append_eq_some_iff, tooLong?_flatMap_eq_some_iff,
    tooLong?_flatMap_eq_none_iff, ← ownListsFit_iff, ← CompiledInstruction.fitsCounts_iff,
    ← TableLookup.fitsCounts_iff]

theorem firstTooLong_of_tooLong? (hfound : tooLong? message.listLengths = some (field, length)) :
    message.FirstTooLong field.name length field.limit := by
  rcases tooLong?_listLengths_eq_some_iff.mp hfound with hlong | ⟨hown, hparts⟩
  · rw [ownLengths, tooLong?_cons_eq_some_iff, tooLong?_cons_eq_some_iff,
      tooLong?_singleton_eq_some_iff] at hlong
    rcases hlong with ⟨hlong, heq⟩ | ⟨hkeys, ⟨hlong, heq⟩ | ⟨hinstructions, hlong, heq⟩⟩
    · cases heq
      exact .staticKeys hlong
    · cases heq
      exact .instructions hkeys hlong
    · cases heq
      exact .lookups hkeys hinstructions hlong
  · rcases hparts with ⟨before, instruction, after, hplace, hlong, hbefore⟩ |
      ⟨hinstructions, before, lookup, after, hplace, hlong, hbefore⟩
    · rw [CompiledInstruction.lengths, tooLong?_cons_eq_some_iff,
        tooLong?_singleton_eq_some_iff] at hlong
      rcases hlong with ⟨hlong, heq⟩ | ⟨hindexes, hlong, heq⟩
      · cases heq
        exact .accountIndexes hown hplace hbefore hlong
      · cases heq
        exact .data hown hplace hbefore hindexes hlong
    · rw [TableLookup.lengths, tooLong?_cons_eq_some_iff, tooLong?_singleton_eq_some_iff] at hlong
      rcases hlong with ⟨hlong, heq⟩ | ⟨hindexes, hlong, heq⟩
      · cases heq
        exact .writableIndexes hown hinstructions hplace hbefore hlong
      · cases heq
        exact .readonlyIndexes hown hinstructions hplace hbefore hindexes hlong

theorem tooLong?_of_firstTooLong {name : String} {limit : Nat}
    (hfirst : message.FirstTooLong name length limit) :
    ∃ field, field.name = name ∧ field.limit = limit ∧
      tooLong? message.listLengths = some (field, length) := by
  simp only [tooLong?_listLengths_eq_some_iff]
  cases hfirst with
  | staticKeys hlong =>
      refine ⟨.staticKeys, rfl, rfl, .inl ?_⟩
      exact tooLong?_cons_eq_some_iff.mpr (.inl ⟨hlong, rfl⟩)
  | instructions hkeys hlong =>
      refine ⟨.instructions, rfl, rfl, .inl ?_⟩
      rw [ownLengths, tooLong?_cons_eq_some_iff, tooLong?_cons_eq_some_iff]
      exact .inr ⟨hkeys, .inl ⟨hlong, rfl⟩⟩
  | lookups hkeys hinstructions hlong =>
      refine ⟨.lookups, rfl, rfl, .inl ?_⟩
      rw [ownLengths, tooLong?_cons_eq_some_iff, tooLong?_cons_eq_some_iff,
        tooLong?_singleton_eq_some_iff]
      exact .inr ⟨hkeys, .inr ⟨hinstructions, hlong, rfl⟩⟩
  | accountIndexes hown hplace hbefore hlong =>
      refine ⟨.accountIndexes, rfl, rfl, .inr ⟨hown, .inl ⟨_, _, _, hplace, ?_, hbefore⟩⟩⟩
      exact tooLong?_cons_eq_some_iff.mpr (.inl ⟨hlong, rfl⟩)
  | data hown hplace hbefore hindexes hlong =>
      refine ⟨.data, rfl, rfl, .inr ⟨hown, .inl ⟨_, _, _, hplace, ?_, hbefore⟩⟩⟩
      rw [CompiledInstruction.lengths, tooLong?_cons_eq_some_iff, tooLong?_singleton_eq_some_iff]
      exact .inr ⟨hindexes, hlong, rfl⟩
  | writableIndexes hown hinstructions hplace hbefore hlong =>
      refine ⟨.writableIndexes, rfl, rfl,
        .inr ⟨hown, .inr ⟨hinstructions, _, _, _, hplace, ?_, hbefore⟩⟩⟩
      exact tooLong?_cons_eq_some_iff.mpr (.inl ⟨hlong, rfl⟩)
  | readonlyIndexes hown hinstructions hplace hbefore hindexes hlong =>
      refine ⟨.readonlyIndexes, rfl, rfl,
        .inr ⟨hown, .inr ⟨hinstructions, _, _, _, hplace, ?_, hbefore⟩⟩⟩
      rw [TableLookup.lengths, tooLong?_cons_eq_some_iff, tooLong?_singleton_eq_some_iff]
      exact .inr ⟨hindexes, hlong, rfl⟩

/-- The relation and the search agree. -/
theorem firstTooLong_iff :
    message.FirstTooLong field.name length field.limit ↔
      tooLong? message.listLengths = some (field, length) := by
  constructor
  · intro hfirst
    obtain ⟨other, hname, -, hfound⟩ := tooLong?_of_firstTooLong hfirst
    rwa [name_injective hname] at hfound
  · exact firstTooLong_of_tooLong?

/-- Storing fails on the first list that is too long, and never for another reason. -/
theorem store_eq_error_iff {error : StoreError} :
    message.store = .error error ↔
      ∃ field length, message.FirstTooLong field.name length field.limit ∧
        error = .lengthOverflow field length := by
  simp only [firstTooLong_iff]
  cases hfound : tooLong? message.listLengths with
  | some entry =>
      have hstore : message.store = .error (.lengthOverflow entry.1 entry.2) := by
        rw [tooLong?] at hfound
        rw [store, hfound]
      rw [hstore]
      constructor
      · intro heq
        exact ⟨entry.1, entry.2, rfl, (Except.error.inj heq).symm⟩
      · intro hlisted
        obtain ⟨field, length, heq, rfl⟩ := hlisted
        rw [Option.some.inj heq]
  | none =>
      obtain ⟨bytes, hstore⟩ := store_succeeds_iff.mpr (find_tooLong_eq_none_iff.mp hfound)
      simp [hstore]

end Message

/-! ## What is written -/

/-- The bytes of an instruction: each of its lists behind its length. -/
def CompiledInstruction.written (instruction : CompiledInstruction) : Bytes :=
  [instruction.programIndex] ++
    Bytes.littleEndian 1 instruction.accountIndexes.length ++ instruction.accountIndexes ++
    Bytes.littleEndian 2 instruction.data.length ++ instruction.data

/-- The bytes of a lookup: its table, then each of its lists behind its length. -/
def TableLookup.written (lookup : TableLookup) : Bytes :=
  lookup.table.bytes ++
    Bytes.littleEndian 1 lookup.writableIndexes.length ++ lookup.writableIndexes ++
    Bytes.littleEndian 1 lookup.readonlyIndexes.length ++ lookup.readonlyIndexes

/-- The bytes of a message: the three stored sizes, then each of its lists behind its length. -/
def Message.written (message : Message) : Bytes :=
  [message.signers, message.writableSigners, message.writableNonSigners] ++
    Bytes.littleEndian 1 message.staticKeys.length ++ message.staticKeys.flatMap Address.bytes ++
    Bytes.littleEndian 1 message.instructions.length ++
      message.instructions.flatMap CompiledInstruction.written ++
    Bytes.littleEndian 1 message.lookups.length ++ message.lookups.flatMap TableLookup.written

theorem CompiledInstruction.writes_codec : CompiledInstruction.codec.Writes written := by
  intro instruction bytes hencode
  have hwrites := (Codec.writes_byte.pair ((Codec.writes_byte.counted _).pair
    (Codec.writes_byte.counted _))).via _ _ _ _ hencode
  simpa [written, ListField.countWidth] using hwrites

theorem TableLookup.writes_codec : TableLookup.codec.Writes written := by
  intro lookup bytes hencode
  have hwrites := (Codec.writes_address.pair ((Codec.writes_byte.counted _).pair
    (Codec.writes_byte.counted _))).via _ _ _ _ hencode
  simpa [written, ListField.countWidth] using hwrites

namespace Message

theorem writes_codec : Message.codec.Writes written := by
  intro message bytes hencode
  have hwrites := (Codec.writes_byte.pair (Codec.writes_byte.pair (Codec.writes_byte.pair
    ((Codec.writes_address.counted _).pair
      ((CompiledInstruction.writes_codec.counted _).pair
        (TableLookup.writes_codec.counted _)))))).via _ _ _ _ hencode
  simpa [written, ListField.countWidth] using hwrites

/-- The check of lengths and the wire codec agree.  A message is stored exactly when all
of its lists are short enough for their counts, which are those that the codec writes by
itself; what is stored has all elements of every list and is decoded again.  Any other
message is refused for the first list that is too long, and never by the codec. -/
theorem store_agrees_with_codec (message : Message) :
    ((∃ bytes, message.store = .ok bytes) ↔
      message.OwnListsFit ∧ (∀ instruction ∈ message.instructions, instruction.FitsCounts) ∧
        ∀ lookup ∈ message.lookups, lookup.FitsCounts) ∧
    (∀ error, message.store = .error error ↔
      ∃ field length, message.FirstTooLong field.name length field.limit ∧
        error = .lengthOverflow field length) ∧
    (∀ error, message.store ≠ .error (.wire error)) ∧
    (∀ bytes, message.store = .ok bytes ↔ codec.encode message = .ok bytes) ∧
    ∀ bytes, message.store = .ok bytes →
      bytes = message.written ∧ codec.decodeAll bytes = .ok message := by
  refine ⟨?_, fun _ => store_eq_error_iff, ?_, fun _ => store_eq_ok_iff, ?_⟩
  · rw [store_succeeds_iff, fitsCounts_iff, OwnListsFit, and_assoc, and_assoc]
    rfl
  · intro error hstore
    obtain ⟨field, length, -, heq⟩ := store_eq_error_iff.mp hstore
    cases heq
  · intro bytes hstore
    have hencode := store_eq_ok_iff.mp hstore
    exact ⟨writes_codec _ _ hencode, lawful_codec.decodeAll_eq_ok_iff.mpr hencode⟩

/-- With 255 account indexes an instruction is written, also behind one without any.  With
one more the message is refused for them, although its lookup is too long as well. -/
theorem store_agrees_with_codec_last_index :
    let message (count : Nat) : Message :=
      ⟨0, 0, 0, [], [⟨0, [], []⟩, ⟨0, List.replicate count 7, [9]⟩],
        [⟨.zero, [], List.replicate (count + 1) 7⟩]⟩
    let fitting : Message := { message 255 with lookups := [] }
    (∃ bytes, fitting.store = .ok bytes ∧ bytes = fitting.written ∧
      codec.decodeAll bytes = .ok fitting) ∧
    (message 255).store = .error (.lengthOverflow .readonlyIndexes 256) ∧
    (message 256).store = .error (.lengthOverflow .accountIndexes 256) := by
  intro message fitting
  have htwo : 2 ≤ 255 := by decide
  have hone : 1 ≤ 255 := by decide
  have hown (count : Nat) : (message count).OwnListsFit := ⟨Nat.zero_le _, htwo, hone⟩
  have hfirst : CompiledInstruction.FitsCounts ⟨0, [], []⟩ := ⟨Nat.zero_le _, Nat.zero_le _⟩
  have hsecond : CompiledInstruction.FitsCounts ⟨0, List.replicate 255 7, [9]⟩ :=
    ⟨Nat.le_of_eq List.length_replicate, by decide⟩
  have hinstructions : ∀ instruction ∈ (message 255).instructions, instruction.FitsCounts :=
    List.forall_mem_cons.mpr ⟨hfirst, List.forall_mem_singleton.mpr hsecond⟩
  have hover : 255 < (List.replicate 256 (7 : UInt8)).length := by
    rw [List.length_replicate]
    decide
  have hindexes := FirstTooLong.readonlyIndexes (hown 255) hinstructions
    (List.nil_append _).symm (List.forall_mem_nil _) (Nat.zero_le _) hover
  have haccounts := FirstTooLong.accountIndexes (hown 256)
    (List.singleton_append ..).symm (List.forall_mem_singleton.mpr hfirst) hover
  rw [List.length_replicate] at hindexes haccounts
  obtain ⟨hfits, -, -, -, hbytes⟩ := store_agrees_with_codec fitting
  obtain ⟨bytes, hstore⟩ :=
    hfits.mpr ⟨⟨Nat.zero_le _, htwo, Nat.zero_le _⟩, hinstructions, List.forall_mem_nil _⟩
  refine ⟨⟨bytes, hstore, hbytes bytes hstore⟩, ?_, ?_⟩
  · exact ((store_agrees_with_codec (message 255)).2.1 _).mpr ⟨.readonlyIndexes, 256, hindexes, rfl⟩
  · exact ((store_agrees_with_codec (message 256)).2.1 _).mpr ⟨.accountIndexes, 256, haccounts, rfl⟩

end Message

end MultisigVault
