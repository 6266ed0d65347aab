import MultisigVault.Proofs.CommandLine.Arguments
import MultisigVault.Proofs.CommandLine.Printing
import MultisigVault.Proofs.Execution.Retrying
import MultisigVault.Proofs.Resolution.Growth
import MultisigVault.Proofs.Resolution.Privileges

/-!
# What one command prints the others understand

Compiling prints the stored form of a message in hexadecimal.  In every spelling of these
digits, decoding prints the message, and resolving with the same tables prints its
accounts and the keys of its tables.
-/

namespace MultisigVault

open Outcome

/-! ## Compiled messages resolve with their own tables -/

namespace Message

section

variable {vault : Address} {instructions : List Instruction} {tables : List LookupTable}
  {message : Message} (hkeys : (tables.map LookupTable.key).Nodup)
  (hcompile : compile vault instructions tables = .ok message)

include hkeys hcompile

theorem resolve_of_compile (executor : Address) (ephemeralSigners : List Address) :
    ∃ resolved, message.resolve executor ephemeralSigners tables = .ok resolved := by
  have hgrown : ∀ lookup ∈ message.lookups, LookupTable.GrownAt tables tables lookup.table :=
    fun _ _ => LookupTable.grownAt_self tables _
  obtain ⟨used, hused⟩ := mapM_find_live hkeys hgrown hcompile
  obtain ⟨hreached, -, rfl⟩ := compile_eq_ok_iff.mp hcompile
  have hread := Roster.mapM_read_lookups hkeys hreached hgrown
  exact ⟨_, resolve_of_read hused hread executor ephemeralSigners⟩

/-- The tables may be held in memory, since their keys differ. -/
theorem value_resolveStored_of_compile {bytes : Bytes} (hload : load bytes = .ok message)
    (context : ExecutionContext) {ephemeralSigners : List Address}
    (hderive : DerivationScheme.standard.ephemeralSigners context.transaction
      context.ephemeralSigners context.program = .ok ephemeralSigners) :
    ∃ resolved, message.resolve context.vault ephemeralSigners tables = .ok resolved ∧
      (resolveStored bytes (TableStore.ofList tables).source context).value = .ok resolved := by
  obtain ⟨resolved, hresolved⟩ :=
    resolve_of_compile hkeys hcompile context.vault ephemeralSigners
  have hreverse : message.resolve context.vault ephemeralSigners tables.reverse = .ok resolved := by
    rw [← hresolved]
    apply resolve_congr
    intro key _
    rw [LookupTable.find, LookupTable.find,
      LookupTable.find?_perm hkeys (List.reverse_perm tables).symm]
  have hprepare : prepare bytes context = .ok (message, ephemeralSigners) := by
    rw [prepare, hload, hderive]
    rfl
  refine ⟨resolved, hresolved, ?_⟩
  calc
    (resolveStored bytes (TableStore.ofList tables).source context).value =
        complete (TableStore.ofList tables).source context (message, ephemeralSigners) := by
      rw [value_resolveStored, hprepare, ok_bind]
    _ = (message.resolveWith (TableStore.ofList tables).source context).value := by
      rw [Fetching.value, record_resolveWith_of_ok message _ context hderive, complete]
    _ = (message.resolve context.vault ephemeralSigners tables.reverse).mapError .resolve :=
      value_resolveWith_ofList message context tables hderive
    _ = .ok resolved := by
      rw [hreverse]
      rfl

end

end Message

namespace CommandLine

/-! ## Running a command -/

/-- What the program writes for some arguments in an environment, unless they are not
understood or the command fails. -/
def output? (files : Files) (environment : Option String) (arguments : List String) :
    Option String :=
  (Invocation.ofArguments arguments environment).bind fun invocation =>
    (run files invocation).toOption

theorem output?_eq_some_iff {files : Files} {environment : Option String}
    {arguments : List String} {output : String} :
    output? files environment arguments = some output ↔
      ∃ invocation, Invocation.ofArguments arguments environment = some invocation ∧
        run files invocation = .ok output := by
  have hrun (invocation : Invocation) : (run files invocation).toOption = some output ↔
      run files invocation = .ok output := by
    cases run files invocation with
    | ok written => simp [Except.toOption]
    | error error => simp [Except.toOption]
  simp only [output?, Option.bind_eq_some_iff, hrun]

section

variable {files : Files} {config : Config} {vault : Address} {instructionsPath tablesPath : String}
  {instructions : List Instruction} {tables : List LookupTable}

/-- Compiling prints the digits of what is stored. -/
theorem runCompile_eq_ok_iff
    (hinstructions : readList Instruction.ofJson? files instructionsPath = .ok instructions)
    (htables : readList LookupTable.ofJson? files tablesPath = .ok tables) {output : String} :
    runCompile files config ⟨instructionsPath, some tablesPath, some vault⟩ = .ok output ↔
      ∃ message bytes, Message.compile vault instructions tables = .ok message ∧
        message.store = .ok bytes ∧ output = Hex.encode bytes ++ "\n" := by
  have hread : readTables files (some tablesPath) = .ok tables := htables
  simp only [runCompile, chooseVault, hinstructions, hread, ok_bind, bind_eq_ok_iff,
    mapError_eq_ok_iff, pure_eq_ok, Except.ok.injEq]
  constructor
  · rintro ⟨message, hcompile, bytes, hstore, rfl⟩
    exact ⟨message, bytes, hcompile, hstore, rfl⟩
  · rintro ⟨message, bytes, hcompile, hstore, rfl⟩
    exact ⟨message, hcompile, bytes, hstore, rfl⟩

theorem runDecode_of_load {bytes : Bytes} {message : Message}
    (hload : Message.load bytes = .ok message) {text : String}
    (htext : Hex.Respells (Hex.encode bytes) text) :
    runDecode text = .ok (written message.toJson) := by
  rw [runDecode, readMessageBytes_of_respells htext, ok_bind, hload]
  rfl

theorem runResolve_of_compile
    (htables : readList LookupTable.ofJson? files tablesPath = .ok tables)
    (hkeys : (tables.map LookupTable.key).Nodup) {message : Message}
    (hcompile : Message.compile vault instructions tables = .ok message) {bytes : Bytes}
    (hload : Message.load bytes = .ok message) {text : String}
    (htext : Hex.Respells (Hex.encode bytes) text) {transaction : Address} {count : Byte}
    {ephemeralSigners : List Address}
    (hderive : DerivationScheme.standard.ephemeralSigners transaction count config.program =
      .ok ephemeralSigners) :
    ∃ resolved, message.resolve vault ephemeralSigners tables = .ok resolved ∧
      runResolve files config
        ⟨text, some tablesPath, none, some transaction, count, some vault⟩ =
          .ok (written (ResolvedAccounts.report resolved)) := by
  let context : ExecutionContext :=
    { program := config.program
      transaction
      vault
      ephemeralSigners := count }
  obtain ⟨resolved, hresolved, hvalue⟩ :=
    Message.value_resolveStored_of_compile hkeys hcompile hload context hderive
  have hread : readTables files (some tablesPath) = .ok tables := htables
  refine ⟨resolved, hresolved, ?_⟩
  simp only [runResolve, chooseTransaction, chooseVault, hread,
    readMessageBytes_of_respells htext, ok_bind]
  rw [hvalue]
  rfl

end

/-- What compiling prints are the digits of a stored message and a line break.  In every
spelling of the digits, decoding prints JSON that is read back as this message.  Resolving
prints the accounts and the keys of the tables that the message has with the tables it was
compiled with, whenever the ephemeral signers can be derived. -/
theorem commands_compose {files : Files} {globals : List String} {environment : Option String}
    {settings : Settings} {config : Config} (hsettings : settings.GivenBy environment globals)
    (hconfig : settings.configuration files = .ok config) {vault : Address}
    {instructionsPath tablesPath : String} {instructions : List Instruction}
    {tables : List LookupTable}
    (hinstructions : readList Instruction.ofJson? files instructionsPath = .ok instructions)
    (htables : readList LookupTable.ofJson? files tablesPath = .ok tables)
    (hkeys : (tables.map LookupTable.key).Nodup) {output : String}
    (hcompile : output? files environment (globals ++
      ["compile", "--vault", vault.text, "--instructions", instructionsPath,
        "--tables", tablesPath]) = some output) :
    ∃ message bytes, Message.compile vault instructions tables = .ok message ∧
      message.store = .ok bytes ∧ output = Hex.encode bytes ++ "\n" ∧
      ∀ text, Hex.Respells (Hex.encode bytes) text →
        (∃ decoded, output? files environment (globals ++ ["decode", text]) = some decoded ∧
          (Json.parse decoded).bind Message.ofJson? = some message) ∧
        ∀ transaction count ephemeralSigners,
          DerivationScheme.standard.ephemeralSigners transaction count config.program =
            .ok ephemeralSigners →
          ∃ resolved, message.resolve vault ephemeralSigners tables = .ok resolved ∧
            output? files environment (globals ++
              ["resolve", text, "--tables", tablesPath, "--vault", vault.text,
                "--transaction", transaction.text,
                "--ephemeral-signers", String.ofList (Decimal.write count.toNat)]) =
              some (written (ResolvedAccounts.report resolved)) := by
  -- Compiling has been understood, so the paths may be given again.
  obtain ⟨invocation, hinvocation, hrun⟩ := output?_eq_some_iff.mp hcompile
  obtain ⟨hpath, htablesPath⟩ := isPath_of_ofArguments_compile hsettings hinvocation
  rw [ofArguments_compile hsettings vault hpath htablesPath, Option.some.injEq] at hinvocation
  subst hinvocation
  rw [run, hconfig, ok_bind] at hrun
  obtain ⟨message, bytes, hmessage, hstore, rfl⟩ :=
    (runCompile_eq_ok_iff hinstructions htables).mp hrun
  have hload : Message.load bytes = .ok message :=
    Message.load_eq_ok_iff_store.mpr ⟨hstore, Message.checkForm_of_compile hmessage⟩
  refine ⟨message, bytes, hmessage, hstore, rfl, fun text htext => ⟨?_, ?_⟩⟩
  · refine ⟨written message.toJson, output?_eq_some_iff.mpr ⟨_,
      ofArguments_decode hsettings (undashed_of_respells htext), ?_⟩,
      parse_written Message.faithful message⟩
    rw [run, hconfig, ok_bind]
    exact runDecode_of_load hload htext
  · intro transaction count ephemeralSigners hderive
    obtain ⟨resolved, hresolved, houtput⟩ :=
      runResolve_of_compile htables hkeys hmessage hload htext hderive
    refine ⟨resolved, hresolved, output?_eq_some_iff.mpr ⟨_, ofArguments_resolve hsettings
      (undashed_of_respells htext) htablesPath vault transaction count, ?_⟩⟩
    rw [run, hconfig, ok_bind]
    exact houtput

/-- A program is set in front of the commands, which hides the one in the environment.  The
two files are laid out differently, and the digits are in upper case.  The ephemeral signer is
a static key that does not sign. -/
theorem commands_compose_upper_case :
    let signer : Address :=
      ⟨[147, 212, 40, 105, 61, 203, 230, 134, 61, 29, 136, 142, 200, 238, 153, 0,
        31, 222, 249, 17, 62, 140, 22, 176, 241, 9, 206, 121, 32, 202, 105, 246], by decide⟩
    let instructions : List Instruction :=
      [⟨.uniform 5, [.writable (.uniform 6) false, .readonly signer true], [7]⟩]
    let tables : List LookupTable := [⟨.uniform 8, [.uniform 6]⟩]
    let files : Files := fun path =>
      if path = "instructions.json" then
        .ok (Utf8.encode (Json.render .compact (.ofList Instruction.toJson instructions) ++ ""))
      else if path = "tables.json" then
        .ok (Utf8.encode (Json.render .indented (.ofList LookupTable.toJson tables) ++ "\n"))
      else
        .error .notFound
    let output (arguments : List String) : Option String :=
      output? files (some (Address.uniform 9).text)
        ("--program-id" :: (Address.uniform 2).text :: arguments)
    let message : Message :=
      ⟨2, 1, 0, [.uniform 1, signer, .uniform 5], [⟨2, [3, 1], [7]⟩], [⟨.uniform 8, [0], []⟩]⟩
    let resolved : ResolvedAccounts :=
      { accounts := [.readonly (.uniform 8) false, .writable (.uniform 1) false,
          .readonly signer false, .readonly (.uniform 5) false, .writable (.uniform 6) false]
        tables := tables }
    let bytes : Bytes :=
      [2, 1, 0, 3] ++ List.replicate 32 1 ++ signer.bytes ++ List.replicate 32 5 ++
        [1, 2, 2, 3, 1, 1, 0, 7] ++ [1] ++ List.replicate 32 8 ++ [1, 0, 0]
    let text : String :=
      String.ofList ([' '] ++ (['0', 'x'] ++ (Hex.encode bytes).toList.map Char.toUpper) ++ ['\n'])
    ∃ decoded,
      output ["compile", "--vault", (Address.uniform 1).text, "--instructions",
        "instructions.json", "--tables", "tables.json"] = some (Hex.encode bytes ++ "\n") ∧
      output ["decode", text] = some decoded ∧
      (Json.parse decoded).bind Message.ofJson? = some message ∧
      output ["resolve", text, "--tables", "tables.json", "--vault", (Address.uniform 1).text,
        "--transaction", (Address.uniform 3).text, "--ephemeral-signers", "1"] =
          some (written (ResolvedAccounts.report resolved)) := by
  intro signer instructions tables files output message resolved bytes text
  let settings : Settings := ⟨none, some (.uniform 2), none, none, false⟩
  have henvironment : (some (Address.uniform 9).text).mapM readAddress =
      some (some (.uniform 9)) := by
    rw [Option.mapM_some, readAddress_text]
    rfl
  have hsettings := givenBy_program (.uniform 2) henvironment
  have hconfig : settings.configuration files = .ok ⟨.uniform 2, none, 0⟩ := rfl
  have hinstructions : readList Instruction.ofJson? files "instructions.json" = .ok instructions :=
    readList_render Instruction.faithful Json.Layout.blank_compact "" (List.all_eq_true.mp rfl)
      rfl
  have htables : readList LookupTable.ofJson? files "tables.json" = .ok tables :=
    readList_render LookupTable.faithful Json.Layout.blank_indented "\n"
      (List.all_eq_true.mp rfl) rfl
  have hkeys : (tables.map LookupTable.key).Nodup := by decide
  have hmessage : Message.compile (.uniform 1) instructions tables = .ok message := by decide
  have hstore : message.store = .ok bytes := by decide
  have hcompile : output ["compile", "--vault", (Address.uniform 1).text, "--instructions",
      "instructions.json", "--tables", "tables.json"] = some (Hex.encode bytes ++ "\n") := by
    apply output?_eq_some_iff.mpr
    refine ⟨_, ofArguments_compile hsettings (.uniform 1) ⟨by decide, by decide⟩
      ⟨by decide, by decide⟩, ?_⟩
    rw [run, hconfig, ok_bind]
    exact (runCompile_eq_ok_iff hinstructions htables).mpr ⟨message, bytes, hmessage, hstore, rfl⟩
  have hderive : DerivationScheme.standard.ephemeralSigners (.uniform 3) 1 (.uniform 2) =
      .ok [signer] := by decide +kernel
  have htext : Hex.Respells (Hex.encode bytes) text :=
    .spelled (List.all_eq_true.mp rfl) (.inr rfl) (Hex.map_toLower_map_toUpper bytes)
      (List.all_eq_true.mp rfl)
  have hresolve : message.resolve (.uniform 1) [signer] tables = .ok resolved := by decide
  obtain ⟨compiled, stored, hcompiled, hstored, -, hcommands⟩ :=
    commands_compose hsettings hconfig hinstructions htables hkeys hcompile
  obtain rfl : compiled = message := Except.ok.inj (hcompiled.symm.trans hmessage)
  obtain rfl : stored = bytes := Except.ok.inj (hstored.symm.trans hstore)
  obtain ⟨⟨decoded, hdecode, hparse⟩, hresolves⟩ := hcommands text htext
  obtain ⟨again, hagain, houtput⟩ := hresolves (.uniform 3) 1 [signer] hderive
  obtain rfl : again = resolved := Except.ok.inj (hagain.symm.trans hresolve)
  have hcount : String.ofList (Decimal.write (1 : Byte).toNat) = "1" := by
    simp [Decimal.write, Numeral.digits, Numeral.lowDigits, Decimal.symbol]
  rw [hcount] at houtput
  exact ⟨decoded, hcompile, hdecode, hparse, houtput⟩

end CommandLine

end MultisigVault
