import MultisigVault.Proofs.Json.Parsing
import MultisigVault.Proofs.Text.Base58
import MultisigVault.Records

/-!
# JSON forms lose nothing

Every type has a written form, which is read back as the value it was written for.  The
law holds of the parts first: bytes and addresses, then lists and objects of what has it
already.
-/

namespace MultisigVault

open Outcome

namespace Json

/-- Whether a reader takes every written form for the value it was written for, and the
forms are among those that can be written as text. -/
structure Faithful {Value : Type} (toJson : Value → Json) (ofJson? : Json → Option Value) :
    Prop where
  plain : ∀ value, (toJson value).Plain
  reads : ∀ value, ofJson? (toJson value) = some value

/-! ## Lists -/

theorem Faithful.ofList {Value : Type} {toJson : Value → Json} {ofJson? : Json → Option Value}
    (hitem : Faithful toJson ofJson?) : Faithful (ofList toJson) (list? ofJson?) where
  plain values := by
    apply Plain.array
    intro item hmem
    obtain ⟨value, -, rfl⟩ := List.mem_map.mp hmem
    exact hitem.plain value
  reads values := mapM_map_eq_some fun value _ => hitem.reads value

theorem faithful_byte : Faithful ofByte byte? where
  plain byte := .number _
  reads byte := by
    rw [byte?, ofByte, nat?_ofNat, Option.bind_eq_bind, Option.bind_some, if_pos byte.toNat_lt,
      UInt8.ofNat_toNat]

theorem faithful_bytes : Faithful ofBytes bytes? :=
  faithful_byte.ofList

/-! ## Objects -/

section

variable {members : List (String × Json)}

theorem plain_record (hvalues : ∀ member ∈ members, member.2.Plain) : (record members).Plain := by
  apply Plain.object
  · intro literal hmem
    obtain ⟨member, -, rfl⟩ := List.mem_map.mp hmem
    exact ⟨_, rfl⟩
  · intro literal hmem
    obtain ⟨member, hmember, rfl⟩ := List.mem_map.mp hmem
    exact hvalues member hmember

/-- Among members of different names each one is the only one of its name. -/
theorem filter_name_eq_singleton (hnames : (members.map Prod.fst).Nodup) {member : String × Json}
    (hmem : member ∈ members) : (members.filter fun other => other.1 == member.1) = [member] := by
  induction members with
  | nil => cases hmem
  | cons first rest ih =>
      rw [List.map_cons, List.nodup_cons] at hnames
      obtain ⟨hfirst, hrest⟩ := hnames
      obtain rfl | hmem := List.mem_cons.mp hmem
      · have hnone : (rest.filter fun other => other.1 == member.1) = [] := by
          rw [List.filter_eq_nil_iff]
          intro other hother heq
          exact hfirst (eq_of_beq heq ▸ List.mem_map_of_mem hother)
        rw [List.filter_cons_of_pos (by simp), hnone]
      · have hother : ¬(first.1 == member.1) = true := by
          intro heq
          exact hfirst (eq_of_beq heq ▸ List.mem_map_of_mem hmem)
        rw [List.filter_cons, if_neg hother, ih hrest hmem]

/-- The value of each field is that of the member of its name, if there is one. -/
theorem fields_record (hnames : (members.map Prod.fst).Nodup) (names : List String) :
    fields names (record members) =
      some (names.map fun name => (members.find? fun member => member.1 == name).map Prod.snd) := by
  have hread : ((members.map fun member => (escape member.1.toList, member.2)).mapM
      fun member => do return (String.ofList (← unescape member.1), member.2)) = some members := by
    apply mapM_map_eq_some
    intro member _
    rw [unescape_escape, Option.bind_eq_bind, Option.bind_some, String.ofList_toList]
    rfl
  rw [record, fields, hread, Option.bind_eq_bind, Option.bind_some]
  conv_lhs => rw [← List.map_id names]
  apply mapM_map_eq_some_map
  intro name _
  rw [id, ← List.head?_filter]
  by_cases hmember : ∃ member ∈ members, member.1 = name
  · obtain ⟨member, hmem, rfl⟩ := hmember
    rw [filter_name_eq_singleton hnames hmem]
    rfl
  · have hnone : (members.filter fun member => member.1 == name) = [] := by
      rw [List.filter_eq_nil_iff]
      intro member hmem heq
      exact hmember ⟨member, hmem, eq_of_beq heq⟩
    rw [hnone]
    rfl

/-- The fields of an object are found under their names. -/
theorem requiredFields_record {names : List String} (hnames : members.map Prod.fst = names)
    (hnodup : names.Nodup) :
    requiredFields names (record members) = some (members.map Prod.snd) := by
  subst hnames
  have hvalues : ((members.map Prod.fst).map fun name =>
      (members.find? fun member => member.1 == name).map Prod.snd) =
        members.map fun member => some member.2 := by
    rw [List.map_map]
    apply List.map_congr_left
    intro member hmem
    rw [Function.comp_apply, ← List.head?_filter, filter_name_eq_singleton hnodup hmem]
    rfl
  rw [requiredFields, fields_record hnodup, hvalues, Option.bind_eq_bind, Option.bind_some]
  exact mapM_map_eq_some_map _ fun _ _ => rfl

end

end Json

open Json

/-! ## The types -/

theorem Address.faithful : Faithful Address.toJson Address.ofJson? where
  plain address := .string _
  reads address := by
    rw [ofJson?, toJson, text?_ofText, Option.bind_eq_bind, Option.bind_some, ofText_text]
    rfl

theorem AccountMeta.faithful : Faithful AccountMeta.toJson AccountMeta.ofJson? where
  plain account := by
    apply plain_record
    simp [Address.faithful.plain, Plain.bool]
  reads account := by
    rw [ofJson?, toJson, requiredFields_record (by rfl) (by decide)]
    simp [Address.faithful.reads, bool?]

theorem Instruction.faithful : Faithful Instruction.toJson Instruction.ofJson? where
  plain instruction := by
    apply plain_record
    simp [Address.faithful.plain, AccountMeta.faithful.ofList.plain, faithful_bytes.plain]
  reads instruction := by
    rw [ofJson?, toJson, requiredFields_record (by rfl) (by decide)]
    simp [Address.faithful.reads, AccountMeta.faithful.ofList.reads, faithful_bytes.reads]

theorem LookupTable.faithful : Faithful LookupTable.toJson LookupTable.ofJson? where
  plain table := by
    apply plain_record
    simp [Address.faithful.plain, Address.faithful.ofList.plain]
  reads table := by
    rw [ofJson?, toJson, requiredFields_record (by rfl) (by decide)]
    simp [Address.faithful.reads, Address.faithful.ofList.reads]

theorem CompiledInstruction.faithful :
    Faithful CompiledInstruction.toJson CompiledInstruction.ofJson? where
  plain instruction := by
    apply plain_record
    simp [faithful_byte.plain, faithful_bytes.plain]
  reads instruction := by
    rw [ofJson?, toJson, requiredFields_record (by rfl) (by decide)]
    simp [faithful_byte.reads, faithful_bytes.reads]

theorem TableLookup.faithful : Faithful TableLookup.toJson TableLookup.ofJson? where
  plain lookup := by
    apply plain_record
    simp [Address.faithful.plain, faithful_bytes.plain]
  reads lookup := by
    rw [ofJson?, toJson, requiredFields_record (by rfl) (by decide)]
    simp [Address.faithful.reads, faithful_bytes.reads]

theorem Message.faithful : Faithful Message.toJson Message.ofJson? where
  plain message := by
    apply plain_record
    simp [faithful_byte.plain, Address.faithful.ofList.plain,
      CompiledInstruction.faithful.ofList.plain, TableLookup.faithful.ofList.plain]
  reads message := by
    rw [ofJson?, toJson, requiredFields_record (by rfl) (by decide)]
    simp [faithful_byte.reads, Address.faithful.ofList.reads,
      CompiledInstruction.faithful.ofList.reads, TableLookup.faithful.ofList.reads]

/-- An absent address is written as `null`, which is the written form of no address. -/
theorem Config.optionalAddress?_getD (address : Option Address) :
    optionalAddress? ((address.map Address.toJson).getD .null) = some address := by
  cases address with
  | none => rfl
  | some address =>
      have hread : (Address.ofJson? address.toJson).map some = some (some address) := by
        rw [Address.faithful.reads, Option.map_some]
      exact hread

/-- A written configuration has all fields, so that no default comes in. -/
theorem Config.faithful : Faithful Config.toJson Config.ofJson? where
  plain config := by
    apply plain_record
    cases config.multisig <;> simp [Address.faithful.plain, faithful_byte.plain, Plain.null]
  reads config := by
    rw [ofJson?, toJson, fields_record (by simp)]
    simp [fieldNames, fieldOr, Address.faithful.reads, optionalAddress?_getD, faithful_byte.reads]

end MultisigVault
