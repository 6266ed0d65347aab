import MultisigVault.CommandLine.Run
import MultisigVault.Proofs.Json.Records

/-!
# What is printed can be read back

The commands print JSON on a line of its own.  From the text alone one gets back the value
that was printed, be it a message, a list of accounts or a set of derived addresses.  So do
the files that the commands read, in both layouts.
-/

namespace MultisigVault

open Outcome

namespace CommandLine

/-! ## Printed values -/

theorem parse_written_of_plain {json : Json} (hplain : json.Plain) :
    Json.parse (written json) = some json := by
  have hbreak : ∀ character ∈ "\n".toList, Json.isSpace character = true :=
    List.all_eq_true.mp rfl
  exact Json.parse_render Json.Layout.blank_indented hplain hbreak

/-- Written values are read back. -/
theorem parse_written {Value : Type} {toJson : Value → Json} {ofJson? : Json → Option Value}
    (hfaithful : Json.Faithful toJson ofJson?) (value : Value) :
    (Json.parse (written (toJson value))).bind ofJson? = some value := by
  rw [parse_written_of_plain (hfaithful.plain value), Option.bind_some, hfaithful.reads]

/-! ## Reports -/

/-- The accounts and the keys of the tables that a report names. -/
def reported? (json : Json) : Option (List AccountMeta × List Address) :=
  match json.requiredFields ["account_metas", "lookup_tables"] with
  | some [accounts, tables] => do
      return (← accounts.list? AccountMeta.ofJson?, ← tables.list? Address.ofJson?)
  | _ => none

theorem reported?_written (resolved : ResolvedAccounts) :
    (Json.parse (written (ResolvedAccounts.report resolved))).bind reported? =
      some (resolved.accounts, resolved.tables.map LookupTable.key) := by
  have hplain : (ResolvedAccounts.report resolved).Plain := by
    apply Json.plain_record
    simp [AccountMeta.faithful.ofList.plain, Address.faithful.ofList.plain]
  rw [parse_written_of_plain hplain, Option.bind_some, reported?, ResolvedAccounts.report,
    Json.requiredFields_record (by rfl) (by decide)]
  simp [AccountMeta.faithful.ofList.reads, Address.faithful.ofList.reads]

/-! ## Derived addresses -/

namespace DerivedAddresses

def fieldNames : List String :=
  ["program_id", "multisig", "vault", "transaction", "ephemeral_signers"]

/-- Reads derived addresses, of which the transaction and the signers may be left out. -/
def ofJson? (json : Json) : Option DerivedAddresses :=
  match json.fields fieldNames with
  | some [some program, some multisig, some vault, transaction, ephemeralSigners] => do
      return {
        program := ← Address.ofJson? program
        multisig := ← Address.ofJson? multisig
        vault := ← Address.ofJson? vault
        transaction := ← transaction.mapM Address.ofJson?
        ephemeralSigners := ←
          Config.fieldOr [] (Json.list? Address.ofJson?) ephemeralSigners }
  | _ => none

theorem fields_toJson (derived : DerivedAddresses) :
    Json.fields fieldNames derived.toJson =
      some [some derived.program.toJson, some derived.multisig.toJson, some derived.vault.toJson,
        derived.transaction.map Address.toJson,
        if derived.ephemeralSigners.isEmpty then none
        else some (.ofList Address.toJson derived.ephemeralSigners)] := by
  rw [toJson, Json.fields_record]
  · cases derived.transaction <;> cases derived.ephemeralSigners <;> simp [fieldNames]
  · cases derived.transaction <;> cases derived.ephemeralSigners <;> simp

theorem faithful : Json.Faithful toJson ofJson? where
  plain derived := by
    apply Json.plain_record
    cases derived.transaction <;> cases derived.ephemeralSigners <;>
      simp [Address.faithful.plain, Address.faithful.ofList.plain]
  reads derived := by
    rw [ofJson?, fields_toJson]
    cases derived with
    | mk program multisig vault transaction ephemeralSigners =>
        cases transaction <;> cases ephemeralSigners <;>
          simp [Config.fieldOr, Address.faithful.reads, Address.faithful.ofList.reads]

end DerivedAddresses

end CommandLine

/-! ## Both layouts -/

/-- Whether every value is read back from the JSON text printed for it, in the compact
layout, in the indented one, and as a command prints it. -/
structure Json.ReadsBack {Value : Type} (toJson : Value → Json) (ofJson? : Json → Option Value) :
    Prop where
  compact : ∀ value, (parse (render .compact (toJson value))).bind ofJson? = some value
  indented : ∀ value, (parse (render .indented (toJson value))).bind ofJson? = some value
  printed : ∀ value, (parse (CommandLine.written (toJson value))).bind ofJson? = some value

namespace Json

theorem Faithful.readsBack {Value : Type} {toJson : Value → Json} {ofJson? : Json → Option Value}
    (hfaithful : Faithful toJson ofJson?) : ReadsBack toJson ofJson? := by
  have hlayout {layout : Layout} (hblank : layout.Blank) (value : Value) :
      (parse (render layout (toJson value))).bind ofJson? = some value := by
    have hempty : ∀ character ∈ "".toList, isSpace character = true := List.all_eq_true.mp rfl
    have hparse := parse_render hblank (hfaithful.plain value) hempty
    rw [String.append_empty] at hparse
    rw [hparse, Option.bind_some, hfaithful.reads]
  exact ⟨hlayout Layout.blank_compact, hlayout Layout.blank_indented,
    CommandLine.parse_written hfaithful⟩

end Json

namespace CommandLine

/-- What decoding prints is read back as the message that was loaded. -/
theorem parse_runDecode (text : String) :
    (runDecode text).map (fun output => (Json.parse output).bind Message.ofJson?) =
      (do
        let bytes ← readMessageBytes text
        let message ← (Message.load bytes).mapError .decoding
        return some message) := by
  rw [runDecode]
  cases readMessageBytes text with
  | error cause => rfl
  | ok bytes =>
      rw [ok_bind, ok_bind]
      cases (Message.load bytes).mapError CommandError.decoding with
      | error cause => rfl
      | ok message => exact congrArg Except.ok (parse_written Message.faithful message)

end CommandLine

/-- Values of every type that is written as JSON are read back from their text, and so are
lists of instructions and of tables, however long they are.  No message has to be well
formed for that, and the text that decoding prints loses nothing of the message. -/
theorem json_text_reads_back :
    Json.ReadsBack Message.toJson Message.ofJson? ∧
    Json.ReadsBack Instruction.toJson Instruction.ofJson? ∧
    Json.ReadsBack AccountMeta.toJson AccountMeta.ofJson? ∧
    Json.ReadsBack LookupTable.toJson LookupTable.ofJson? ∧
    Json.ReadsBack Config.toJson Config.ofJson? ∧
    Json.ReadsBack (Json.ofList Instruction.toJson) (Json.list? Instruction.ofJson?) ∧
    Json.ReadsBack (Json.ofList LookupTable.toJson) (Json.list? LookupTable.ofJson?) ∧
    ∀ text, (CommandLine.runDecode text).map
        (fun output => (Json.parse output).bind Message.ofJson?) =
      (do
        let bytes ← CommandLine.readMessageBytes text
        let message ← (Message.load bytes).mapError .decoding
        return some message) :=
  ⟨Message.faithful.readsBack, Instruction.faithful.readsBack, AccountMeta.faithful.readsBack,
    LookupTable.faithful.readsBack, Config.faithful.readsBack,
    Instruction.faithful.ofList.readsBack, LookupTable.faithful.ofList.readsBack,
    CommandLine.parse_runDecode⟩

end MultisigVault
