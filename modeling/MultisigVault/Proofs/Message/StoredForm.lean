import MultisigVault.Message.Storage
import MultisigVault.Proofs.Wire.Laws

/-!
# The stored form of a message

Storing and loading are inverse to each other: the accepted byte strings are
exactly the stored forms of well-formed messages.  The check of list lengths
before writing refuses nothing that the wire codec could write.
-/

namespace MultisigVault

open Wire Outcome

theorem CompiledInstruction.lawful_codec : CompiledInstruction.codec.Lawful :=
  (Codec.lawful_byte.pair
    ((Codec.lawful_byte.counted _).pair (Codec.lawful_byte.counted _))).via
      (fun _ => rfl) (fun _ => rfl)

theorem TableLookup.lawful_codec : TableLookup.codec.Lawful :=
  (Codec.lawful_address.pair
    ((Codec.lawful_byte.counted _).pair (Codec.lawful_byte.counted _))).via
      (fun _ => rfl) (fun _ => rfl)

theorem CompiledInstruction.encodes_iff {instruction : CompiledInstruction} :
    CompiledInstruction.codec.Encodes instruction ↔
      instruction.accountIndexes.length ≤ ListField.accountIndexes.limit ∧
        instruction.data.length ≤ ListField.data.limit := by
  simp [CompiledInstruction.codec, ListField.limit]

theorem TableLookup.encodes_iff {lookup : TableLookup} :
    TableLookup.codec.Encodes lookup ↔
      lookup.writableIndexes.length ≤ ListField.writableIndexes.limit ∧
        lookup.readonlyIndexes.length ≤ ListField.readonlyIndexes.limit := by
  simp [TableLookup.codec, ListField.limit]

namespace Message

theorem lawful_codec : Message.codec.Lawful :=
  (Codec.lawful_byte.pair (Codec.lawful_byte.pair (Codec.lawful_byte.pair
    ((Codec.lawful_address.counted _).pair
      ((CompiledInstruction.lawful_codec.counted _).pair
        (TableLookup.lawful_codec.counted _)))))).via (fun _ => rfl) (fun _ => rfl)

/-- Whether every list of a message is short enough for its count. -/
def FitsCounts (message : Message) : Prop :=
  ∀ entry ∈ message.listLengths, entry.2 ≤ entry.1.limit

/-- The lists of a message are its own three, two in each instruction and two in
each lookup. -/
theorem fitsCounts_iff {message : Message} :
    message.FitsCounts ↔
      message.staticKeys.length ≤ ListField.staticKeys.limit ∧
        message.instructions.length ≤ ListField.instructions.limit ∧
        message.lookups.length ≤ ListField.lookups.limit ∧
        (∀ instruction ∈ message.instructions,
          instruction.accountIndexes.length ≤ ListField.accountIndexes.limit ∧
            instruction.data.length ≤ ListField.data.limit) ∧
        ∀ lookup ∈ message.lookups,
          lookup.writableIndexes.length ≤ ListField.writableIndexes.limit ∧
            lookup.readonlyIndexes.length ≤ ListField.readonlyIndexes.limit := by
  simp only [FitsCounts, listLengths, List.forall_mem_append, List.forall_mem_flatMap,
    List.forall_mem_cons, List.not_mem_nil, false_imp_iff, implies_true, and_true, and_assoc]

/-- The wire codec writes exactly the messages whose lists fit their counts. -/
theorem encodes_iff {message : Message} : codec.Encodes message ↔ message.FitsCounts := by
  simp only [fitsCounts_iff, codec, Codec.encodes_via, Codec.encodes_pair, Codec.encodes_byte,
    Codec.encodes_counted, Codec.encodes_address, CompiledInstruction.encodes_iff,
    TableLookup.encodes_iff, ListField.limit, implies_true, and_true, true_and, and_assoc]
  tauto

theorem find_tooLong_eq_none_iff {message : Message} :
    (message.listLengths.find? fun entry => entry.1.limit < entry.2) = none ↔
      message.FitsCounts := by
  simp [List.find?_eq_none, FitsCounts]

/-- The check of list lengths refuses nothing that the wire codec writes. -/
theorem store_eq_ok_iff {message : Message} {bytes : Bytes} :
    message.store = .ok bytes ↔ codec.encode message = .ok bytes := by
  constructor
  · intro hstore
    simp only [store] at hstore
    split at hstore
    · cases hstore
    · cases hencode : codec.encode message with
      | ok written => simpa [hencode, Except.mapError] using hstore
      | error error => simp [hencode, Except.mapError] at hstore
  · intro hencode
    have hfits := find_tooLong_eq_none_iff.mpr (encodes_iff.mp ⟨bytes, hencode⟩)
    simp [store, hfits, hencode, Except.mapError]

theorem store_succeeds_iff {message : Message} :
    (∃ bytes, message.store = .ok bytes) ↔ message.FitsCounts := by
  simp only [store_eq_ok_iff]
  exact encodes_iff

theorem store_fails_iff {message : Message} :
    (∃ error, message.store = .error error) ↔ ¬message.FitsCounts := by
  rw [← store_succeeds_iff]
  cases message.store with
  | ok bytes => simp
  | error error => simp

/-- Storing fails only on a list that is too long, and names one. -/
theorem tooLong_of_store {message : Message} {error : StoreError}
    (hstore : message.store = .error error) :
    ∃ field length, (field, length) ∈ message.listLengths ∧ field.limit < length ∧
      error = .lengthOverflow field length := by
  simp only [store] at hstore
  split at hstore
  · next field length hfound =>
      refine ⟨field, length, List.mem_of_find?_eq_some hfound, ?_, ?_⟩
      · simpa using List.find?_some hfound
      · exact (Except.error.inj hstore).symm
  · next hnone =>
      obtain ⟨bytes, hencode⟩ := encodes_iff.mpr (find_tooLong_eq_none_iff.mp hnone)
      simp [hencode, Except.mapError] at hstore

theorem load_eq_ok_iff {bytes : Bytes} {message : Message} :
    load bytes = .ok message ↔
      codec.decodeAll bytes = .ok message ∧ message.checkForm = .ok () := by
  simp only [load]
  split
  · next error hdecode => simp [hdecode]
  · next decoded hdecode =>
      rw [hdecode]
      split
      · next error hform =>
          simp only [reduceCtorEq, Except.ok.injEq, false_iff, not_and]
          rintro rfl
          simp [hform]
      · next hform =>
          simp only [Except.ok.injEq]
          constructor
          · rintro rfl
            exact ⟨rfl, hform⟩
          · exact And.left

/-- Bytes are accepted exactly when they are the stored form of a well-formed
message. -/
theorem load_eq_ok_iff_store {bytes : Bytes} {message : Message} :
    load bytes = .ok message ↔ message.store = .ok bytes ∧ message.checkForm = .ok () := by
  rw [load_eq_ok_iff, lawful_codec.decodeAll_eq_ok_iff, store_eq_ok_iff]

/-- The stored form of a message that breaks a rule is refused for that rule. -/
theorem load_of_checkForm_eq_error {message : Message} {bytes : Bytes} {error : FormError}
    (hstore : message.store = .ok bytes) (hform : message.checkForm = .error error) :
    load bytes = .error (.form error) := by
  have hdecode := lawful_codec.decodeAll_eq_ok_iff.mpr (store_eq_ok_iff.mp hstore)
  simp [load, hdecode, hform]

/-- Storing and loading are inverse to each other between well-formed messages
and accepted bytes, and a stored message that is not well formed is refused for
the rule it breaks. -/
theorem load_iff_store :
    (∀ (bytes : Bytes) (message : Message),
      load bytes = .ok message ↔ message.store = .ok bytes ∧ message.checkForm = .ok ()) ∧
    (∀ (message : Message) (bytes : Bytes) (error : FormError), message.store = .ok bytes →
      message.checkForm = .error error → load bytes = .error (.form error)) ∧
    (∀ (left right : Bytes) (message : Message),
      load left = .ok message → load right = .ok message → left = right) ∧
    ∀ (bytes : Bytes) (message : Message), load bytes = .ok message → message.store = .ok bytes := by
  refine ⟨fun _ _ => load_eq_ok_iff_store, fun _ _ _ => load_of_checkForm_eq_error, ?_, ?_⟩
  · intro left right message hleft hright
    have hstored := (load_eq_ok_iff_store.mp hleft).1
    rw [(load_eq_ok_iff_store.mp hright).1] at hstored
    exact (Except.ok.inj hstored).symm
  · intro bytes message hload
    exact (load_eq_ok_iff_store.mp hload).1

/-- One key that claims to be a writable signer in a message without signers. -/
theorem load_iff_store_unbacked_signer :
    let message : Message := ⟨0, 1, 0, [.zero], [], []⟩
    let bytes : Bytes := [0, 1, 0, 1] ++ List.replicate 34 0
    message.store = .ok bytes ∧ message.checkForm = .error .valueOutOfBounds ∧
      load bytes = .error (.form .valueOutOfBounds) := by
  have hstore : store ⟨0, 1, 0, [.zero], [], []⟩ = .ok ([0, 1, 0, 1] ++ List.replicate 34 0) := by
    decide
  have hform : checkForm ⟨0, 1, 0, [.zero], [], []⟩ = .error .valueOutOfBounds := by
    decide
  exact ⟨hstore, hform, load_iff_store.2.1 _ _ _ hstore hform⟩

end Message

end MultisigVault
