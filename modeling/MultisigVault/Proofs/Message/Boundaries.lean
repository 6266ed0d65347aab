import MultisigVault.Proofs.Message.StoredForm
import MultisigVault.Proofs.Wire.Truncation

/-!
# Where a stored message ends

A stored message says itself where it ends, so that no stored form is the beginning of
another one.  Bytes that end too early or too late are refused for their length, before
anybody asks whether the counts and indexes in them are well formed.
-/

namespace MultisigVault

open Wire Outcome

theorem CompiledInstruction.selfDelimiting_codec : CompiledInstruction.codec.SelfDelimiting :=
  (Codec.selfDelimiting_byte.pair
    ((Codec.selfDelimiting_byte.counted _).pair (Codec.selfDelimiting_byte.counted _))).via
      (fun _ => rfl) (fun _ => rfl)

theorem TableLookup.selfDelimiting_codec : TableLookup.codec.SelfDelimiting :=
  (Codec.selfDelimiting_address.pair
    ((Codec.selfDelimiting_byte.counted _).pair (Codec.selfDelimiting_byte.counted _))).via
      (fun _ => rfl) (fun _ => rfl)

namespace Message

theorem selfDelimiting_codec : Message.codec.SelfDelimiting :=
  (Codec.selfDelimiting_byte.pair (Codec.selfDelimiting_byte.pair
    (Codec.selfDelimiting_byte.pair ((Codec.selfDelimiting_address.counted _).pair
      ((CompiledInstruction.selfDelimiting_codec.counted _).pair
        (TableLookup.selfDelimiting_codec.counted _)))))).via (fun _ => rfl) (fun _ => rfl)

/-- What cannot be decoded is refused for that, and its form is not checked. -/
theorem load_of_decodeAll_eq_error {bytes : Bytes} {error : WireError}
    (hdecode : codec.decodeAll bytes = .error error) : load bytes = .error (.wire error) := by
  rw [load, hdecode]

theorem load_of_cut {message : Message} {given missing : Bytes}
    (hstore : message.store = .ok (given ++ missing)) (hmissing : missing ≠ []) :
    load given = .error (.wire .endOfInput) :=
  load_of_decodeAll_eq_error
    (selfDelimiting_codec.decodeAll_of_cut (store_eq_ok_iff.mp hstore) hmissing)

theorem load_append {message : Message} {bytes appended : Bytes}
    (hstore : message.store = .ok bytes) (happended : appended ≠ []) :
    load (bytes ++ appended) = .error (.wire .leftover) :=
  load_of_decodeAll_eq_error
    (selfDelimiting_codec.decodeAll_append (store_eq_ok_iff.mp hstore) happended)

/-- A message whose stored form goes on from that of another one is that other one. -/
theorem eq_of_store_prefix {message other : Message} {bytes longer : Bytes}
    (hstore : message.store = .ok bytes) (hother : other.store = .ok longer)
    (hstarts : bytes <+: longer) : other = message ∧ longer = bytes := by
  obtain ⟨appended, rfl⟩ := hstarts
  have hdecode := lawful_codec.decodeAll_eq_ok_iff.mpr (store_eq_ok_iff.mp hother)
  by_cases hempty : appended = []
  · subst hempty
    rw [List.append_nil] at hdecode ⊢
    rw [lawful_codec.decodeAll_eq_ok_iff.mpr (store_eq_ok_iff.mp hstore)] at hdecode
    exact ⟨(Except.ok.inj hdecode).symm, rfl⟩
  · rw [selfDelimiting_codec.decodeAll_append (store_eq_ok_iff.mp hstore) hempty] at hdecode
    cases hdecode

/-- The stored form of any message, well formed or not, is refused for its length as soon
as bytes are missing at its end or follow it.  No message has a stored form that goes on
from that of another one. -/
theorem stored_form_delimits_itself {message : Message} {bytes : Bytes}
    (hstore : message.store = .ok bytes) :
    (∀ given missing, bytes = given ++ missing → missing ≠ [] →
      load given = .error (.wire .endOfInput)) ∧
    (∀ appended, appended ≠ [] → load (bytes ++ appended) = .error (.wire .leftover)) ∧
    ∀ (other : Message) longer, other.store = .ok longer → bytes <+: longer →
      other = message ∧ longer = bytes := by
  refine ⟨?_, fun _ => load_append hstore, fun _ _ => eq_of_store_prefix hstore⟩
  rintro given missing rfl hmissing
  exact load_of_cut hstore hmissing

/-- A message that breaks several rules, cut within the two bytes that count its data, and
followed by one byte more. -/
theorem stored_form_delimits_itself_malformed :
    let message : Message := ⟨0, 1, 0, [.zero], [⟨9, [200], [7]⟩], []⟩
    let kept : Bytes := [0, 1, 0, 1] ++ List.replicate 32 0 ++ [1, 9, 1, 200, 1]
    let lost : Bytes := [0, 7, 0]
    message.store = .ok (kept ++ lost) ∧
    load (kept ++ lost) = .error (.form .valueOutOfBounds) ∧
    load kept = .error (.wire .endOfInput) ∧
    load (kept ++ lost ++ [0]) = .error (.wire .leftover) ∧
    ∀ (other : Message) longer, other.store = .ok longer → kept ++ lost <+: longer →
      other = message := by
  intro message kept lost
  have hstore : message.store = .ok (kept ++ lost) := by decide
  obtain ⟨hcut, happend, hother⟩ := stored_form_delimits_itself hstore
  refine ⟨hstore, by decide, hcut kept lost rfl (by decide), happend [0] (by decide), ?_⟩
  intro other longer hlonger hstarts
  exact (hother other longer hlonger hstarts).1

end Message

end MultisigVault
