import MultisigVault.Proofs.CommandLine.GivenSettings
import MultisigVault.Proofs.Execution.Retrying
import MultisigVault.Proofs.Resolution.Signatures

/-!
# Deriving and resolving agree on addresses

Deriving computes the addresses of a transaction step by step, while resolving asks the
configuration for its vault and its transaction.  Both come to the same addresses.  So it
makes no difference whether resolving is told the index of a transaction or the addresses
that deriving prints for it, whatever the message, its tables and the files are.
-/

namespace MultisigVault

open Outcome

namespace Message

/-- What is resolved for a stored message is what the message resolves to, with the signers
derived for it and some tables. -/
theorem exists_resolve_of_resolveStored {bytes : Bytes} {source : TableSource}
    {context : ExecutionContext} {resolved : ResolvedAccounts}
    (hresolved : (resolveStored bytes source context).value = .ok resolved) :
    ∃ message ephemeralSigners tables, load bytes = .ok message ∧
      DerivationScheme.standard.ephemeralSigners context.transaction context.ephemeralSigners
        context.program = .ok ephemeralSigners ∧
      message.resolve context.vault ephemeralSigners tables = .ok resolved := by
  rw [value_resolveStored] at hresolved
  obtain ⟨⟨message, ephemeralSigners⟩, hprepare, hcomplete⟩ := bind_eq_ok_iff.mp hresolved
  obtain ⟨loaded, hload, hprepare⟩ := bind_eq_ok_iff.mp hprepare
  obtain ⟨signers, hsigners, hprepare⟩ := bind_eq_ok_iff.mp hprepare
  cases hprepare
  obtain ⟨tables, -, hresolve⟩ := bind_eq_ok_iff.mp hcomplete
  exact ⟨message, ephemeralSigners, tables, mapError_eq_ok_iff.mp hload,
    mapError_eq_ok_iff.mp hsigners, mapError_eq_ok_iff.mp hresolve⟩

end Message

namespace CommandLine

section

variable {files : Files} {config : Config} {message : String} {tables : Option String}
  {index : UInt64} {count : Byte} {derived : DerivedAddresses} {transaction : Address}

/-- Naming the transaction and the vault that are derived changes nothing. -/
theorem runResolve_of_derived (hvault : config.vault = .ok derived.vault)
    (htransaction : config.transaction index = .ok transaction) :
    runResolve files config ⟨message, tables, some index, none, count, none⟩ =
      runResolve files config
        ⟨message, tables, none, some transaction, count, some derived.vault⟩ := by
  simp only [runResolve, chooseTransaction, chooseVault, hvault, htransaction, Except.mapError]

/-- What is printed withholds the signatures of the vault and of the signers. -/
theorem withholdsSignatures_of_runResolve {vault : Address} {ephemeralSigners : List Address}
    {printed : String}
    (hsigners : DerivationScheme.standard.ephemeralSigners transaction count config.program =
      .ok ephemeralSigners)
    (hprinted : runResolve files config
      ⟨message, tables, none, some transaction, count, some vault⟩ = .ok printed) :
    ∃ bytes stored, ∃ resolved : ResolvedAccounts, readMessageBytes message = .ok bytes ∧
      Message.load bytes = .ok stored ∧
      (Json.parse printed).bind reported? =
        some (resolved.accounts, resolved.tables.map LookupTable.key) ∧
      resolved.WithholdsSignatures stored vault ephemeralSigners := by
  simp only [runResolve, chooseTransaction, chooseVault, ok_bind, bind_eq_ok_iff,
    mapError_eq_ok_iff, pure_eq_ok, Except.ok.injEq] at hprinted
  obtain ⟨found, -, bytes, hbytes, resolved, hresolved, rfl⟩ := hprinted
  obtain ⟨stored, signers, loaded, hload, hagain, hresolve⟩ :=
    Message.exists_resolve_of_resolveStored hresolved
  obtain rfl : signers = ephemeralSigners := Except.ok.inj (hagain.symm.trans hsigners)
  exact ⟨bytes, stored, resolved, hbytes, hload, reported?_written resolved,
    Message.withholdsSignatures_of_resolve hresolve⟩

end

/-! ## A message and its tables -/

theorem positionals_of_whole {options : List String} {argument : String} {items : List Item}
    (hshape : shape options argument = .whole items) : positionals items = [] := by
  have hshaped := hshape ▸ shaped_shape options argument
  cases hshaped with
  | flags _ hitems =>
      apply List.filterMap_eq_nil_iff.mpr
      intro item hitem
      rw [hitems item hitem]
  | same => rfl

theorem scan_next {options : List String} {argument name : String}
    (hshape : shape options argument = .pending name) (value : String) (rest : List String) :
    scan options (argument :: value :: rest) =
      if isDashed value then none else (scan options rest).map (.option name value :: ·) := by
  rw [scan, hshape]

/-- A command for one message takes it from the front of its arguments, if the others are
options.  Then it cannot look like an option, and the path of its tables neither. -/
theorem of_scan_message {options further : List String} {message tables text : String}
    {items all : List Item} (htables : shape options "--tables" = .pending "tables")
    (hfurther : scan options further = some items) (hnone : positionals items = [])
    (hscan : scan options (message :: "--tables" :: tables :: further) = some all)
    (hone : positionals all = [text]) :
    isDashed message = false ∧ isDashed tables = false ∧
      all = .positional message :: .option "tables" tables :: items := by
  cases hshape : shape options message with
  | word =>
      have hmessage := shape_eq_word_iff.mp hshape
      rw [scan_positional hmessage, scan_next htables, hfurther] at hscan
      split_ifs at hscan with hpath
      · cases hscan
      · cases hscan
        exact ⟨hmessage, Bool.eq_false_iff.mpr hpath, rfl⟩
  | separator =>
      rw [scan, hshape] at hscan
      cases hscan
      simp [positionals] at hone
  | whole flags =>
      rw [scan, hshape, scan_next htables, hfurther] at hscan
      split_ifs at hscan
      · cases hscan
      · cases hscan
        have hflags := positionals_of_whole hshape
        rw [positionals] at hone hnone hflags
        simp [hnone, hflags] at hone
  | pending name =>
      have hdashed : isDashed "--tables" = true := rfl
      rw [scan_next hshape, if_pos hdashed] at hscan
      cases hscan
  | unknown =>
      rw [scan, hshape] at hscan
      cases hscan

/-! ## What comes of arguments -/

/-- What comes of some arguments in an environment, unless they are not understood: what the
program writes, or why it fails. -/
def outcome? (files : Files) (environment : Option String) (arguments : List String) :
    Option (Except CommandError String) :=
  (Invocation.ofArguments arguments environment).map (run files)

/-! ## The lines of arguments -/

section

variable {globals : List String} {environment : Option String} {settings : Settings}
  (hsettings : settings.GivenBy environment globals) {index count tables message : String}

include hsettings

theorem of_ofArguments_derive {invocation : Invocation}
    (hinvocation : Invocation.ofArguments
      (globals ++ ["derive", "--transaction-index", index, "--ephemeral-signers", count])
        environment = some invocation) :
    isDashed index = false ∧ isDashed count = false ∧
      ∃ place signers, readIndex index = some place ∧ readByte count = some signers ∧
        invocation = ⟨settings, .derive ⟨some place, signers⟩⟩ := by
  rw [ofArguments_append hsettings (by simp [Undashed])] at hinvocation
  obtain ⟨items, hitems, hinvocation⟩ := Option.bind_eq_some_iff.mp hinvocation
  obtain ⟨command, hcommand, hinvocation⟩ := Option.bind_eq_some_iff.mp hinvocation
  obtain ⟨own, hown, heq⟩ := Option.bind_eq_some_iff.mp hinvocation
  obtain ⟨hindex, hcount, rfl⟩ : isDashed index = false ∧ isDashed count = false ∧
      [.option "transaction-index" index, .option "ephemeral-signers" count] = items := by
    simpa [scan, shape, Settings.names, Command.names] using hitems
  obtain rfl : Settings.unset = own := by
    simpa [Settings.ofItems, optional, values, flag, Settings.unset] using hown
  obtain ⟨place, hplace, signers, hsigners, rfl⟩ : ∃ place, readIndex index = some place ∧
      ∃ signers, readByte count = some signers ∧ .derive ⟨some place, signers⟩ = command := by
    simpa [Command.ofItems, DeriveOptions.ofItems, positionals, optional, values,
      Option.bind_eq_some_iff] using hcommand
  rw [settings.unset_orElse] at heq
  cases heq
  exact ⟨hindex, hcount, place, signers, hplace, hsigners, rfl⟩

variable {files : Files} {further : List String} {items : List Item}
  (hfurther : scan (Settings.names ++ Command.names "resolve") further = some items)

include hfurther

theorem outcome?_resolve {config : Config} (hconfig : settings.configuration files = .ok config)
    (hmessage : isDashed message = false) (htables : IsPath tables) {options : ResolveOptions}
    (hoptions : ResolveOptions.ofItems
      (.positional message :: .option "tables" tables :: items) = some options)
    (hown : Settings.ofItems (.positional message :: .option "tables" tables :: items) =
      some .unset) :
    outcome? files environment
      (globals ++ "resolve" :: message :: "--tables" :: tables :: further) =
      some (runResolve files config options) := by
  have hnext : shape (Settings.names ++ Command.names "resolve") "--tables" =
    .pending "tables" := rfl
  have hitems : scan (Settings.names ++ Command.names "resolve")
      (message :: "--tables" :: tables :: further) =
      some (.positional message :: .option "tables" tables :: items) := by
    rw [scan_positional hmessage, scan_next hnext, htables.1, hfurther]
    rfl
  have hcommand : Command.ofItems "resolve"
      (.positional message :: .option "tables" tables :: items) = some (.resolve options) :=
    Option.map_eq_some_iff.mpr ⟨options, hoptions, rfl⟩
  rw [outcome?, ofArguments_of_items hsettings (by simp [Undashed]) hitems hcommand hown,
    Option.map_some, run, hconfig, ok_bind]

/-- A message that looks like an option and a path that is none are refused. -/
theorem outcome?_resolve_eq_none (hnone : positionals items = [])
    (hrefused : ¬(isDashed message = false ∧ IsPath tables)) :
    outcome? files environment
      (globals ++ "resolve" :: message :: "--tables" :: tables :: further) = none := by
  refine Option.map_eq_none_iff.mpr (Option.eq_none_iff_forall_ne_some.mpr fun invocation => ?_)
  contrapose! hrefused
  rw [ofArguments_append hsettings (by simp [Undashed])] at hrefused
  obtain ⟨all, hall, hread⟩ := Option.bind_eq_some_iff.mp hrefused
  obtain ⟨command, hcommand, -⟩ := Option.bind_eq_some_iff.mp hread
  obtain ⟨options, hoptions, -⟩ := Option.map_eq_some_iff.mp hcommand
  have hread := ResolveOptions.readFrom_of_ofItems hoptions
  obtain ⟨hmessage, hpath, rfl⟩ := of_scan_message rfl hfurther hnone hall hread.message
  refine ⟨hmessage, hpath, ?_⟩
  rintro rfl
  obtain ⟨hvalues, -⟩ | ⟨text, value, hvalues, hvalue, -⟩ := optional_cases hread.tables
  · simp [values] at hvalues
  · obtain ⟨rfl, -⟩ : "" = text ∧ _ := by simpa [values] using hvalues
    cases hvalue

end

/-! ## The two ways to name a transaction -/

section

variable {index count : String}

theorem scan_index (hindex : isDashed index = false) (hcount : isDashed count = false) :
    scan (Settings.names ++ Command.names "resolve")
      ["--transaction-index", index, "--ephemeral-signers", count] =
      some [.option "transaction-index" index, .option "ephemeral-signers" count] := by
  simp [scan, shape, Settings.names, Command.names, hindex, hcount]

theorem scan_addresses (transaction vault : Address) (hcount : isDashed count = false) :
    scan (Settings.names ++ Command.names "resolve")
      ["--transaction", transaction.text, "--vault", vault.text, "--ephemeral-signers", count] =
      some [.option "transaction" transaction.text, .option "vault" vault.text,
        .option "ephemeral-signers" count] := by
  have htransaction := (undashed_text transaction).isDashed_eq_false
  have hvault := (undashed_text vault).isDashed_eq_false
  simp [scan, shape, Settings.names, Command.names, htransaction, hvault, hcount]

variable {globals : List String} {environment : Option String} {settings : Settings}
  (hsettings : settings.GivenBy environment globals)
  {files : Files} {config : Config} (hconfig : settings.configuration files = .ok config)
  {message tables : String} (hmessage : isDashed message = false) (htables : IsPath tables)
  (hcount : isDashed count = false) {signers : Byte} (hsigners : readByte count = some signers)

include hsettings hconfig hmessage htables hcount hsigners

theorem outcome?_index (hindex : isDashed index = false) {place : UInt64}
    (hplace : readIndex index = some place) :
    outcome? files environment (globals ++
      ["resolve", message, "--tables", tables, "--transaction-index", index,
        "--ephemeral-signers", count]) =
      some (runResolve files config
        ⟨message, some tables, some place, none, signers, none⟩) := by
  refine outcome?_resolve hsettings (scan_index hindex hcount) hconfig hmessage htables ?_ rfl
  simp [ResolveOptions.ofItems, positionals, optional, values, readPath_of_isPath htables, hplace,
    hsigners]

theorem outcome?_addresses (transaction vault : Address) :
    outcome? files environment (globals ++
      ["resolve", message, "--tables", tables, "--transaction", transaction.text,
        "--vault", vault.text, "--ephemeral-signers", count]) =
      some (runResolve files config
        ⟨message, some tables, none, some transaction, signers, some vault⟩) := by
  refine outcome?_resolve hsettings (scan_addresses transaction vault hcount) hconfig hmessage
    htables ?_ rfl
  simp [ResolveOptions.ofItems, positionals, optional, values, readPath_of_isPath htables,
    hsigners]

end

/-- Deriving and resolving agree on the addresses of a transaction.  If deriving succeeds for
an index and a number of signers, resolving any message with this index comes to the same as
resolving it with the transaction and the vault that are printed, be it a text, a failure or
that the arguments are refused.  What it prints withholds exactly the signatures of the vault
and the signers that are printed. -/
theorem derive_agrees_with_resolve {files : Files} {globals : List String} {settings : Settings}
    {environment : Option String} (hsettings : settings.GivenBy environment globals)
    {index count output : String}
    (hderived : outcome? files environment
      (globals ++ ["derive", "--transaction-index", index, "--ephemeral-signers", count]) =
        some (.ok output)) :
    ∃ derived transaction, (Json.parse output).bind DerivedAddresses.ofJson? = some derived ∧
      derived.transaction = some transaction ∧
      ∀ message tables : String,
        let withIndex := outcome? files environment (globals ++
          ["resolve", message, "--tables", tables, "--transaction-index", index,
            "--ephemeral-signers", count])
        let withAddresses := outcome? files environment (globals ++
          ["resolve", message, "--tables", tables, "--transaction", transaction.text,
            "--vault", derived.vault.text, "--ephemeral-signers", count])
        withIndex = withAddresses ∧
        ∀ printed, withIndex = some (.ok printed) →
          ∃ bytes stored, ∃ resolved : ResolvedAccounts, readMessageBytes message = .ok bytes ∧
            Message.load bytes = .ok stored ∧
            (Json.parse printed).bind reported? =
              some (resolved.accounts, resolved.tables.map LookupTable.key) ∧
            resolved.WithholdsSignatures stored derived.vault derived.ephemeralSigners := by
  obtain ⟨invocation, hinvocation, hrun⟩ := Option.map_eq_some_iff.mp hderived
  obtain ⟨hindex, hcount, place, signers, hplace, hsigners, rfl⟩ :=
    of_ofArguments_derive hsettings hinvocation
  obtain ⟨config, derived, hconfig, hderive, rfl⟩ := run_derive_eq_ok_iff.mp hrun
  obtain ⟨hvault, ⟨hmissing, -⟩ | ⟨_, transaction, heq, hprints, htransaction, hephemeral⟩⟩ :=
    derive_cases hderive
  · cases hmissing
  cases heq
  refine ⟨derived, transaction, parse_written DerivedAddresses.faithful derived, hprints, ?_⟩
  intro message tables withIndex withAddresses
  by_cases hunderstood : isDashed message = false ∧ IsPath tables
  · obtain ⟨hmessage, htables⟩ := hunderstood
    have hindexOutcome : withIndex = some (runResolve files config
        ⟨message, some tables, some place, none, signers, none⟩) :=
      outcome?_index hsettings hconfig hmessage htables hcount hsigners hindex hplace
    have haddressesOutcome : withAddresses = some (runResolve files config
        ⟨message, some tables, none, some transaction, signers, some derived.vault⟩) :=
      outcome?_addresses hsettings hconfig hmessage htables hcount hsigners transaction
        derived.vault
    rw [runResolve_of_derived hvault htransaction] at hindexOutcome
    refine ⟨hindexOutcome.trans haddressesOutcome.symm, fun printed hprinted => ?_⟩
    rw [hindexOutcome, Option.some.injEq] at hprinted
    exact withholdsSignatures_of_runResolve hephemeral hprinted
  · have hindexRefused : withIndex = none :=
      outcome?_resolve_eq_none hsettings (scan_index hindex hcount) rfl hunderstood
    have haddressesRefused : withAddresses = none :=
      outcome?_resolve_eq_none hsettings (scan_addresses transaction derived.vault hcount) rfl
        hunderstood
    rw [hindexRefused, haddressesRefused]
    exact ⟨rfl, fun printed hprinted => nomatch hprinted⟩

/-- All four static keys but the last are to sign.  Two of them are derived, so only the other
one does, in the accounts that both lines print. -/
theorem derive_agrees_with_resolve_static_keys :
    let vault : Address :=
      ⟨[115, 37, 195, 160, 56, 132, 180, 136, 18, 63, 66, 60, 110, 218, 20, 219, 225, 111, 232,
        128, 81, 131, 10, 155, 90, 9, 215, 83, 149, 25, 66, 51], by decide⟩
    let transaction : Address :=
      ⟨[124, 181, 197, 110, 211, 202, 61, 221, 45, 85, 20, 44, 221, 177, 93, 17, 234, 253, 166,
        209, 30, 57, 253, 125, 69, 32, 76, 209, 205, 161, 69, 104], by decide⟩
    let signer : Address :=
      ⟨[134, 19, 203, 208, 116, 184, 182, 12, 31, 231, 187, 97, 5, 54, 135, 230, 61, 42, 107,
        181, 255, 47, 149, 51, 51, 30, 82, 157, 2, 200, 63, 196], by decide⟩
    let derived : DerivedAddresses :=
      ⟨Config.default.program, .uniform 1, vault, some transaction, [signer]⟩
    let tables : List LookupTable := [⟨.uniform 8, [.uniform 6]⟩]
    let files : Files := fun path =>
      if path = "tables.json" then
        .ok (Utf8.encode (Json.render .compact (.ofList LookupTable.toJson tables) ++ ""))
      else
        .error .notFound
    let bytes : Bytes :=
      [3, 1, 0, 4] ++ vault.bytes ++ List.replicate 32 9 ++ signer.bytes ++ List.replicate 32 5 ++
        [0] ++ [1] ++ List.replicate 32 8 ++ [1, 0, 0]
    let text : String := String.ofList ((Hex.encode bytes).toList.map Char.toUpper)
    let accounts : List AccountMeta :=
      [.readonly (.uniform 8) false, .writable vault false, .readonly (.uniform 9) true,
        .readonly signer false, .readonly (.uniform 5) false, .writable (.uniform 6) false]
    let outcome (arguments : List String) : Option (Except CommandError String) :=
      outcome? files none (("--multisig=" ++ (Address.uniform 1).text) :: arguments)
    ∃ printed,
      outcome ["derive", "--transaction-index", "7", "--ephemeral-signers", "1"] =
        some (.ok (written derived.toJson)) ∧
      outcome ["resolve", text, "--tables", "tables.json",
        "--transaction-index", "7", "--ephemeral-signers", "1"] = some (.ok printed) ∧
      outcome ["resolve", text, "--tables", "tables.json",
        "--transaction", transaction.text, "--vault", vault.text,
        "--ephemeral-signers", "1"] = some (.ok printed) ∧
      (Json.parse printed).bind reported? = some (accounts, [.uniform 8]) := by
  intro vault transaction signer derived tables files bytes text accounts outcome
  let settings : Settings := ⟨none, none, some (.uniform 1), none, false⟩
  let config : Config := ⟨Config.default.program, some (.uniform 1), 0⟩
  have hnameless : settings.config ≠ some "" := by decide
  have hsettings : settings.GivenBy none ["--multisig=" ++ (Address.uniform 1).text] :=
    Settings.givenBy_items hnameless rfl
  have hconfig : settings.configuration files = .ok config := rfl
  have hderive : derive config ⟨some 7, 1⟩ = .ok derived := by decide +kernel
  have hcount : readByte "1" = some 1 := by decide
  have hderived : outcome ["derive", "--transaction-index", "7", "--ephemeral-signers", "1"] =
      some (.ok (written derived.toJson)) := by
    have hitems : scan (Settings.names ++ Command.names "derive")
        ["--transaction-index", "7", "--ephemeral-signers", "1"] =
        some [.option "transaction-index" "7", .option "ephemeral-signers" "1"] := by decide
    have hcommand : Command.ofItems "derive"
        [.option "transaction-index" "7", .option "ephemeral-signers" "1"] =
        some (.derive ⟨some 7, 1⟩) := by decide
    have hread := ofArguments_of_items hsettings (by simp [Undashed]) hitems hcommand rfl
    exact Option.map_eq_some_iff.mpr
      ⟨_, hread, run_derive_eq_ok_iff.mpr ⟨config, derived, hconfig, hderive, rfl⟩⟩
  obtain ⟨again, named, hparsed, hnamed, hlines⟩ := derive_agrees_with_resolve hsettings hderived
  obtain rfl : derived = again := by
    rw [parse_written DerivedAddresses.faithful] at hparsed
    exact Option.some.inj hparsed
  obtain rfl : transaction = named := Option.some.inj hnamed
  obtain ⟨hagree, -⟩ := hlines text "tables.json"
  let resolved : ResolvedAccounts := ⟨accounts, tables⟩
  have htext : Hex.Respells (Hex.encode bytes) text := Hex.respells_map_toUpper bytes
  have hmessage := (undashed_of_respells htext).isDashed_eq_false
  have hpath : IsPath "tables.json" := ⟨by decide, by decide⟩
  have hundashed : isDashed "1" = false := by decide
  have htables : readTables files (some "tables.json") = .ok tables :=
    readList_render LookupTable.faithful Json.Layout.blank_compact "" (List.all_eq_true.mp rfl) rfl
  have hvalue : (Message.resolveStored bytes (TableStore.ofList tables).source
      ⟨config.program, transaction, vault, 1⟩).value = .ok resolved := by decide +kernel
  have hresolved : outcome ["resolve", text, "--tables", "tables.json",
      "--transaction", transaction.text, "--vault", vault.text, "--ephemeral-signers", "1"] =
      some (.ok (written (ResolvedAccounts.report resolved))) := by
    have haddresses := outcome?_addresses hsettings hconfig hmessage hpath hundashed hcount
      transaction vault
    refine haddresses.trans (congrArg some ?_)
    simp only [runResolve, chooseTransaction, chooseVault, htables,
      readMessageBytes_of_respells htext, ok_bind]
    rw [hvalue]
    rfl
  exact ⟨_, hderived, hagree.trans hresolved, hresolved, reported?_written resolved⟩

end CommandLine

end MultisigVault
