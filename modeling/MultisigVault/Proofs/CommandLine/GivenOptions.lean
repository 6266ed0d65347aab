import MultisigVault.Proofs.CommandLine.Arguments
import MultisigVault.Proofs.CommandLine.Deriving

/-!
# Which options the arguments give

Reading the arguments turns them into items, and the rules of each command are rules on
items.  What the arguments give is also a matter of the arguments alone, wherever an option
stands among them and in whichever way its value is attached.  The two agree on arguments
that are accepted.  So an accepted command names its transaction in exactly one way, and no
signers are asked for without one.
-/

namespace MultisigVault.CommandLine

open Outcome

/-! ## Options among arguments -/

/-- Whether arguments give an option a value: in the argument after its name, or behind `=`
in the same one.  After `--` no argument gives anything. -/
inductive Gives (name value : String) : List String → Prop
  | next (rest : List String) : Gives name value (("--" ++ name) :: value :: rest)
  | same (rest : List String) : Gives name value (("--" ++ name ++ "=" ++ value) :: rest)
  | later {argument : String} {rest : List String} (hargument : argument ≠ "--")
      (hrest : Gives name value rest) : Gives name value (argument :: rest)

/-- Whether arguments give an option some value. -/
def Given (name : String) (arguments : List String) : Prop :=
  ∃ value, Gives name value arguments

/-- Whether the value read for an option is the one that the arguments give it. -/
structure ReadsAs {Value : Type} (read : String → Option Value) (name : String)
    (arguments : List String) (result : Option Value) : Prop where
  value : ∀ text, Gives name text arguments → read text = result
  isSome_iff : result.isSome ↔ Given name arguments

/-- Whether an option of this name can be told from a flag and from what has no name. -/
structure IsOptionName (name : String) : Prop where
  ne_empty : name ≠ ""
  ne_verbose : name ≠ "verbose"
  no_sign : ∀ character ∈ name.toList, (character != '=') = true

instance (name : String) : Decidable (IsOptionName name) :=
  decidable_of_iff (name ≠ "" ∧ name ≠ "verbose" ∧ name.toList.all (· != '=') = true)
    ⟨fun ⟨hempty, hverbose, hsign⟩ => ⟨hempty, hverbose, List.all_eq_true.mp hsign⟩,
      fun ⟨hempty, hverbose, hsign⟩ => ⟨hempty, hverbose, List.all_eq_true.mpr hsign⟩⟩

/-! ## Arguments one by one -/

section

variable {options : List String} {argument : String}

theorem eq_separator_of_shape (hshape : shape options argument = .separator) :
    argument = "--" := by
  have hshaped := hshape ▸ shaped_shape options argument
  cases hshaped with
  | separator => rfl

/-- An argument that says something on its own is an option with its value as far as it
says anything of options. -/
theorem of_mem_whole {items : List Item} (hshape : shape options argument = .whole items)
    {name value : String} (hmem : .option name value ∈ items) :
    name ∈ options ∧ argument = "--" ++ name ++ "=" ++ value := by
  have hshaped := hshape ▸ shaped_shape options argument
  cases hshaped with
  | flags _ hitems => cases hitems _ hmem
  | same hname =>
      cases List.mem_singleton.mp hmem
      exact ⟨hname, rfl⟩

theorem of_shape_pending {name : String} (hshape : shape options argument = .pending name) :
    name ∈ options ∧ argument = "--" ++ name := by
  have hshaped := hshape ▸ shaped_shape options argument
  cases hshaped with
  | next hname => exact ⟨hname, rfl⟩

end

/-! ## The spellings of an option -/

namespace IsOptionName

variable {name : String} (hname : IsOptionName name)

include hname

/-- The name of an option has a first letter, so `--` in front of it is not the separator,
and it ends where the argument or a sign does. -/
theorem exists_toList : ∃ first letters, name.toList = first :: letters ∧
    ∀ rest : List Char, (∀ character ∈ rest.head?, (character != '=') = false) →
      String.ofList ((first :: (letters ++ rest)).takeWhile (· != '=')) = name ∧
        (first :: (letters ++ rest)).dropWhile (· != '=') = rest := by
  obtain ⟨first, letters, hletters⟩ : ∃ first letters, name.toList = first :: letters := by
    apply List.exists_cons_of_ne_nil
    intro hnil
    exact hname.ne_empty (String.toList_inj.mp hnil)
  refine ⟨first, letters, hletters, fun rest hrest => ?_⟩
  obtain ⟨htake, hdrop⟩ := Json.takeWhile_append_of_head? hname.no_sign hrest
  rw [← List.cons_append, ← hletters, htake, hdrop, String.ofList_toList]
  exact ⟨rfl, rfl⟩

theorem shape_next (options : List String) :
    shape options ("--" ++ name) =
      if options.contains name then .pending name else .unknown := by
  obtain ⟨first, letters, hletters, hread⟩ := hname.exists_toList
  obtain ⟨htake, hdrop⟩ := hread [] (by simp)
  have hlist : ("--" ++ name).toList = '-' :: '-' :: first :: letters := by simp [hletters]
  rw [List.append_nil] at htake hdrop
  simp [shape, hlist, htake, hdrop, hname.ne_verbose]

theorem shape_same (options : List String) (value : String) :
    shape options ("--" ++ name ++ "=" ++ value) =
      if options.contains name then .whole [.option name value] else .unknown := by
  obtain ⟨first, letters, hletters, hread⟩ := hname.exists_toList
  obtain ⟨htake, hdrop⟩ := hread ('=' :: value.toList) (by simp)
  have hlist : ("--" ++ name ++ "=" ++ value).toList =
      '-' :: '-' :: first :: (letters ++ '=' :: value.toList) := by simp [hletters]
  simp [shape, hlist, htake, hdrop]

/-! ## What arguments give -/

variable {options : List String} {argument value : String} {rest : List String}

/-- An argument that is understood gives a value by itself or with the next one, or leaves
it to the arguments after it. -/
theorem gives_cons (hknown : shape options argument ≠ .unknown) :
    Gives name value (argument :: rest) ↔
      (shape options argument = .pending name ∧ rest.head? = some value) ∨
        (∃ items, shape options argument = .whole items ∧ .option name value ∈ items) ∨
        (shape options argument ≠ .separator ∧ Gives name value rest) := by
  constructor
  · intro hgives
    cases hgives with
    | next =>
        rw [hname.shape_next] at hknown ⊢
        split_ifs at hknown ⊢ with hoption
        · exact .inl ⟨rfl, rfl⟩
        · exact absurd rfl hknown
    | same =>
        rw [hname.shape_same] at hknown ⊢
        split_ifs at hknown ⊢ with hoption
        · exact .inr (.inl ⟨_, rfl, List.mem_cons_self⟩)
        · exact absurd rfl hknown
    | later hargument hrest =>
        exact .inr (.inr ⟨fun hshape => hargument (eq_separator_of_shape hshape), hrest⟩)
  · rintro (⟨hshape, hvalue⟩ | ⟨items, hshape, hmem⟩ | ⟨hshape, hrest⟩)
    · obtain ⟨further, rfl⟩ := List.head?_eq_some_iff.mp hvalue
      rw [(of_shape_pending hshape).2]
      exact .next further
    · rw [(of_mem_whole hshape hmem).2]
      exact .same rest
    · refine .later ?_ hrest
      rintro rfl
      exact hshape rfl

theorem gives_word (hshape : shape options argument = .word) :
    Gives name value (argument :: rest) ↔ Gives name value rest := by
  have hknown : shape options argument ≠ .unknown := by simp [hshape]
  simp [hname.gives_cons hknown, hshape]

theorem not_gives_separator (hshape : shape options argument = .separator) :
    ¬Gives name value (argument :: rest) := by
  have hknown : shape options argument ≠ .unknown := by simp [hshape]
  simp [hname.gives_cons hknown, hshape]

theorem gives_whole {items : List Item} (hshape : shape options argument = .whole items) :
    Gives name value (argument :: rest) ↔
      .option name value ∈ items ∨ Gives name value rest := by
  have hknown : shape options argument ≠ .unknown := by simp [hshape]
  simp [hname.gives_cons hknown, hshape]

theorem gives_pending {other next : String} (hshape : shape options argument = .pending other)
    (hnext : CommandLine.isDashed next = false) :
    Gives name value (argument :: next :: rest) ↔
      (name = other ∧ value = next) ∨ Gives name value rest := by
  have hknown : shape options argument ≠ .unknown := by simp [hshape]
  have hword : shape options next = .word := shape_eq_word_iff.mpr hnext
  rw [hname.gives_cons hknown, hname.gives_word hword]
  simp [hshape, eq_comm]

/-- The items of accepted arguments hold the values that the arguments give. -/
theorem mem_scan_iff {arguments : List String} {items : List Item}
    (hscan : scan options arguments = some items) :
    .option name value ∈ items ↔ Gives name value arguments := by
  fun_induction scan options arguments generalizing items with
  | case1 =>
      cases hscan
      exact ⟨fun hmem => absurd hmem List.not_mem_nil, fun hgives => nomatch hgives⟩
  | case2 argument rest hshape ih =>
      obtain ⟨found, hfound, rfl⟩ := Option.map_eq_some_iff.mp hscan
      simp [hname.gives_word hshape, ih hfound]
  | case3 argument rest hshape =>
      cases hscan
      simp [hname.not_gives_separator hshape]
  | case4 argument rest items hshape ih =>
      obtain ⟨found, hfound, rfl⟩ := Option.map_eq_some_iff.mp hscan
      simp [hname.gives_whole hshape, ih hfound]
  | case5 => cases hscan
  | case6 => cases hscan
  | case7 argument other hshape next rest hnext ih =>
      obtain ⟨found, hfound, rfl⟩ := Option.map_eq_some_iff.mp hscan
      simp [hname.gives_pending hshape (Bool.not_eq_true _ ▸ hnext), ih hfound]
  | case8 => cases hscan

/-- An option that is none in front of the name of a command is only given after it. -/
theorem gives_scanToName_iff (hunknown : name ∉ options) {arguments : List String}
    {found : List Item} {command : String} {after : List String}
    (hscan : scanToName options arguments = some (found, command, after)) :
    Gives name value arguments ↔ Gives name value after := by
  fun_induction scanToName options arguments generalizing found with
  | case1 => cases hscan
  | case2 argument rest hshape =>
      cases hscan
      exact hname.gives_word hshape
  | case3 => cases hscan
  | case4 argument rest items hshape ih =>
      obtain ⟨⟨found, after⟩, hfound, heq⟩ := Option.map_eq_some_iff.mp hscan
      cases heq
      have hitems : .option name value ∉ items := fun hmem => hunknown (of_mem_whole hshape hmem).1
      rw [hname.gives_whole hshape, or_iff_right hitems, ih hfound]
  | case5 => cases hscan
  | case6 => cases hscan
  | case7 argument other hshape next rest hnext ih =>
      obtain ⟨⟨found, after⟩, hfound, heq⟩ := Option.map_eq_some_iff.mp hscan
      cases heq
      have hother : ¬(name = other ∧ value = next) := by
        rintro ⟨rfl, -⟩
        exact hunknown (of_shape_pending hshape).1
      rw [hname.gives_pending hshape (Bool.not_eq_true _ ▸ hnext), or_iff_right hother, ih hfound]
  | case8 => cases hscan

end IsOptionName

/-! ## Options of a command -/

theorem mem_values_iff {name value : String} {items : List Item} :
    value ∈ values name items ↔ .option name value ∈ items := by
  rw [values, List.mem_filterMap]
  constructor
  · rintro ⟨item, hmem, hvalue⟩
    cases item with
    | option other given =>
        obtain ⟨rfl, rfl⟩ : other = name ∧ given = value := by simpa using hvalue
        exact hmem
    | flag => cases hvalue
    | positional => cases hvalue
  · intro hmem
    exact ⟨_, hmem, by simp⟩

section

variable {Value : Type} {read : String → Option Value} {name : String} {items : List Item}
  {result : Option Value}

/-- An option that may be left out has no value, or one that is understood. -/
theorem optional_cases (hoptional : optional read name items = some result) :
    (values name items = [] ∧ result = none) ∨
      ∃ text value, values name items = [text] ∧ read text = some value ∧ result = some value := by
  rw [optional] at hoptional
  split at hoptional
  · next hvalues =>
      cases hoptional
      exact .inl ⟨hvalues, rfl⟩
  · next text hvalues =>
      obtain ⟨value, hvalue, rfl⟩ := Option.map_eq_some_iff.mp hoptional
      exact .inr ⟨text, value, hvalues, hvalue, rfl⟩
  · cases hoptional

/-- It is read as the arguments give it. -/
theorem readsAs_of_optional {arguments : List String}
    (hgives : ∀ value, .option name value ∈ items ↔ Gives name value arguments)
    (hoptional : optional read name items = some result) : ReadsAs read name arguments result := by
  simp only [← mem_values_iff] at hgives
  obtain ⟨hvalues, rfl⟩ | ⟨text, value, hvalues, hvalue, rfl⟩ := optional_cases hoptional
  · rw [hvalues] at hgives
    exact ⟨fun text htext => absurd ((hgives text).mpr htext) List.not_mem_nil,
      by simp [Given, ← hgives]⟩
  · rw [hvalues] at hgives
    refine ⟨fun other hother => ?_, by simp [Given, ← hgives]⟩
    rw [List.mem_singleton.mp ((hgives other).mpr hother), hvalue]

end

section

variable {arguments : List String} {environment : Option String} {invocation : Invocation}

/-- The options of the commands are told from flags, and none of them is a setting. -/
theorem Command.isOptionName_of_mem {command name : String} (hname : name ∈ names command) :
    IsOptionName name ∧ name ∉ Settings.names := by
  rw [names.eq_def] at hname
  revert name
  split
  all_goals decide

/-- A command is read from items that hold what the arguments give for its options. -/
theorem exists_items_of_ofArguments
    (haccepted : Invocation.ofArguments arguments environment = some invocation) :
    ∃ command items, Command.ofItems command items = some invocation.command ∧
      ∀ owner, ∀ name ∈ Command.names owner, ∀ value,
        .option name value ∈ items ↔ Gives name value arguments := by
  obtain ⟨⟨before, command, rest⟩, hbefore, haccepted⟩ := Option.bind_eq_some_iff.mp haccepted
  obtain ⟨items, hitems, haccepted⟩ := Option.bind_eq_some_iff.mp haccepted
  obtain ⟨read, hread, haccepted⟩ := Option.bind_eq_some_iff.mp haccepted
  obtain ⟨own, -, haccepted⟩ := Option.bind_eq_some_iff.mp haccepted
  obtain ⟨front, -, haccepted⟩ := Option.bind_eq_some_iff.mp haccepted
  obtain ⟨settings, -, haccepted⟩ := Option.bind_eq_some_iff.mp haccepted
  cases haccepted
  refine ⟨command, items, hread, fun owner name hmem value => ?_⟩
  obtain ⟨hname, hsettings⟩ := Command.isOptionName_of_mem hmem
  rw [hname.gives_scanToName_iff hsettings hbefore]
  exact hname.mem_scan_iff hitems

end

/-! ## Rules of the commands -/

/-- Whether items say how to resolve a message, under the rule for its transaction. -/
structure ResolveOptions.ReadFrom (options : ResolveOptions) (items : List Item) : Prop where
  message : positionals items = [options.message]
  tables : optional readPath "tables" items = some options.tables
  transactionIndex : optional readIndex "transaction-index" items = some options.transactionIndex
  transaction : optional readAddress "transaction" items = some options.transaction
  ephemeralSigners : ∃ signers, optional readByte "ephemeral-signers" items = some signers ∧
    options.ephemeralSigners = signers.getD 0
  vault : optional readAddress "vault" items = some options.vault
  one_transaction : options.transactionIndex.isSome ≠ options.transaction.isSome

/-- Whether items say what to derive, under the rule for its signers. -/
structure DeriveOptions.ReadFrom (options : DeriveOptions) (items : List Item) : Prop where
  no_message : positionals items = []
  transactionIndex : optional readIndex "transaction-index" items = some options.transactionIndex
  ephemeralSigners : ∃ signers, optional readByte "ephemeral-signers" items = some signers ∧
    options.ephemeralSigners = signers.getD 0 ∧
    (options.transactionIndex = none → signers = none)

section

variable {items : List Item}

theorem ResolveOptions.readFrom_of_ofItems {options : ResolveOptions}
    (hoptions : ofItems items = some options) : options.ReadFrom items := by
  rw [ofItems] at hoptions
  split at hoptions
  · next message hmessage =>
      obtain ⟨index, hindex, hoptions⟩ := Option.bind_eq_some_iff.mp hoptions
      obtain ⟨transaction, htransaction, hoptions⟩ := Option.bind_eq_some_iff.mp hoptions
      obtain ⟨signers, hsigners, hoptions⟩ := Option.bind_eq_some_iff.mp hoptions
      obtain ⟨tables, htables, hoptions⟩ := Option.bind_eq_some_iff.mp hoptions
      obtain ⟨vault, hvault, hoptions⟩ := Option.bind_eq_some_iff.mp hoptions
      obtain ⟨hexclusive, heq⟩ := Option.ite_none_right_eq_some.mp hoptions
      cases heq
      exact ⟨hmessage, htables, hindex, htransaction, ⟨signers, hsigners, rfl⟩, hvault,
        bne_iff_ne.mp hexclusive⟩
  · cases hoptions

theorem DeriveOptions.readFrom_of_ofItems {options : DeriveOptions}
    (hoptions : ofItems items = some options) : options.ReadFrom items := by
  rw [ofItems] at hoptions
  split at hoptions
  · next hnone =>
      obtain ⟨index, hindex, hoptions⟩ := Option.bind_eq_some_iff.mp hoptions
      obtain ⟨signers, hsigners, hoptions⟩ := Option.bind_eq_some_iff.mp hoptions
      obtain ⟨hneeded, heq⟩ := Option.ite_none_left_eq_some.mp hoptions
      cases heq
      refine ⟨hnone, hindex, signers, hsigners, rfl, ?_⟩
      rintro rfl
      simpa using hneeded
  · cases hoptions

/-- A command is read from its items by the rules of its own kind. -/
theorem Command.of_ofItems {name : String} {command : Command}
    (hcommand : ofItems name items = some command) :
    match command with
    | .compile options => CompileOptions.ofItems items = some options
    | .decode message => positionals items = [message]
    | .resolve options => ResolveOptions.ofItems items = some options
    | .derive options => DeriveOptions.ofItems items = some options := by
  rw [ofItems.eq_def] at hcommand
  split at hcommand
  · obtain ⟨options, hoptions, rfl⟩ := Option.map_eq_some_iff.mp hcommand
    exact hoptions
  · split at hcommand
    · next hmessage =>
        cases hcommand
        exact hmessage
    · cases hcommand
  · obtain ⟨options, hoptions, rfl⟩ := Option.map_eq_some_iff.mp hcommand
    exact hoptions
  · obtain ⟨options, hoptions, rfl⟩ := Option.map_eq_some_iff.mp hcommand
    exact hoptions
  · cases hcommand

end

/-! ## Accepted commands -/

section

variable {arguments : List String} {environment : Option String} {settings : Settings}

theorem resolve_of_ofArguments {options : ResolveOptions}
    (haccepted : Invocation.ofArguments arguments environment =
      some ⟨settings, .resolve options⟩) :
    ReadsAs readAddress "transaction" arguments options.transaction ∧
      ReadsAs readIndex "transaction-index" arguments options.transactionIndex ∧
      options.transactionIndex.isSome ≠ options.transaction.isSome := by
  obtain ⟨command, items, hcommand, hgives⟩ := exists_items_of_ofArguments haccepted
  have hread := ResolveOptions.readFrom_of_ofItems (Command.of_ofItems hcommand)
  exact ⟨readsAs_of_optional (hgives "resolve" _ (by decide)) hread.transaction,
    readsAs_of_optional (hgives "resolve" _ (by decide)) hread.transactionIndex,
    hread.one_transaction⟩

theorem derive_of_ofArguments {options : DeriveOptions}
    (haccepted : Invocation.ofArguments arguments environment =
      some ⟨settings, .derive options⟩) :
    ReadsAs readIndex "transaction-index" arguments options.transactionIndex ∧
      ∃ signers, ReadsAs readByte "ephemeral-signers" arguments signers ∧
        options.ephemeralSigners = signers.getD 0 ∧
        (options.transactionIndex = none → signers = none) := by
  obtain ⟨command, items, hcommand, hgives⟩ := exists_items_of_ofArguments haccepted
  have hread := DeriveOptions.readFrom_of_ofItems (Command.of_ofItems hcommand)
  obtain ⟨signers, hsigners, hrules⟩ := hread.ephemeralSigners
  exact ⟨readsAs_of_optional (hgives "derive" _ (by decide)) hread.transactionIndex, signers,
    readsAs_of_optional (hgives "derive" _ (by decide)) hsigners, hrules⟩

end

/-! ## Running them -/

variable {files : Files}

theorem readTables_ne_missingTransaction (path : Option String) :
    readTables files path ≠ .error .missingTransaction := by
  intro hmissing
  cases path with
  | none => cases hmissing
  | some path =>
      obtain hread | ⟨text, -, hread⟩ := bind_eq_error_iff.mp hmissing
      · obtain ⟨_, -, heq⟩ := mapError_eq_error_iff.mp hread
        cases heq
      · split at hread <;> cases hread

theorem chooseVault_ne_missingTransaction (config : Config) (vault : Option Address) :
    chooseVault config vault ≠ .error .missingTransaction := by
  cases vault <;> simp [chooseVault, mapError_eq_error_iff]

theorem chooseTransaction_ne_missingTransaction (config : Config) {options : ResolveOptions}
    (hgiven : options.transactionIndex.isSome ≠ options.transaction.isSome) :
    chooseTransaction config options ≠ .error .missingTransaction := by
  rw [chooseTransaction]
  split
  · simp
  · simp [mapError_eq_error_iff]
  · next htransaction hindex => exact absurd (by simp [htransaction, hindex]) hgiven

/-- Only choosing the transaction can fail for want of one. -/
theorem run_ne_missingTransaction {settings : Settings} {options : ResolveOptions}
    (hgiven : options.transactionIndex.isSome ≠ options.transaction.isSome) :
    run files ⟨settings, .resolve options⟩ ≠ .error .missingTransaction := by
  simp [run, Settings.configuration, runResolve, readMessageBytes, bind_eq_error_iff,
    mapError_eq_error_iff, readTables_ne_missingTransaction, chooseVault_ne_missingTransaction,
    chooseTransaction_ne_missingTransaction _ hgiven]

/-- As many signers are printed as are asked for, and none if nothing is. -/
theorem length_of_derive {config : Config} {options : DeriveOptions} {derived : DerivedAddresses}
    (hderive : derive config options = .ok derived)
    (hneeded : options.transactionIndex = none → options.ephemeralSigners = 0) :
    derived.ephemeralSigners.length = options.ephemeralSigners.toNat := by
  obtain ⟨-, ⟨hindex, -, hnone⟩ | ⟨index, transaction, -, -, -, hsigners⟩⟩ := derive_cases hderive
  · rw [hnone, hneeded hindex]
    rfl
  · exact DerivationScheme.length_of_ephemeralSigners hsigners

/-- Wherever the options stand among the arguments, resolving is only understood with
exactly one of a transaction and its index, so it never fails for want of a transaction.
Deriving is only understood with signers if it has an index to derive them from, and it
prints as many as the arguments ask for, none if they do not. -/
theorem accepted_arguments_name_transaction {arguments : List String}
    {environment : Option String} {settings : Settings} {command : Command}
    (haccepted : Invocation.ofArguments arguments environment = some ⟨settings, command⟩) :
    (∀ options, command = .resolve options →
      ReadsAs readAddress "transaction" arguments options.transaction ∧
      ReadsAs readIndex "transaction-index" arguments options.transactionIndex ∧
      Xor (Given "transaction" arguments) (Given "transaction-index" arguments) ∧
      ∀ files, run files ⟨settings, command⟩ ≠ .error .missingTransaction) ∧
    ∀ options, command = .derive options →
      (Given "ephemeral-signers" arguments → Given "transaction-index" arguments) ∧
      ∀ files output, run files ⟨settings, command⟩ = .ok output →
        ∃ derived count, (Json.parse output).bind DerivedAddresses.ofJson? = some derived ∧
          ReadsAs readByte "ephemeral-signers" arguments count ∧
          derived.ephemeralSigners.length = (count.getD 0).toNat := by
  constructor
  · rintro options rfl
    obtain ⟨htransaction, hindex, hexclusive⟩ := resolve_of_ofArguments haccepted
    refine ⟨htransaction, hindex, ?_, fun files => run_ne_missingTransaction hexclusive⟩
    rw [← htransaction.isSome_iff, ← hindex.isSome_iff, xor_iff_not_iff, Bool.coe_iff_coe]
    exact hexclusive.symm
  · rintro options rfl
    obtain ⟨hindex, count, hcount, hoptions, hneeded⟩ := derive_of_ofArguments haccepted
    constructor
    · rw [← hcount.isSome_iff, ← hindex.isSome_iff]
      cases htransaction : options.transactionIndex with
      | none => simp [hneeded htransaction]
      | some index => simp
    · intro files output hrun
      obtain ⟨config, derived, -, hderive, rfl⟩ := run_derive_eq_ok_iff.mp hrun
      refine ⟨derived, count, parse_written DerivedAddresses.faithful derived, hcount, ?_⟩
      rw [← hoptions]
      refine length_of_derive hderive fun hindex => ?_
      rw [hoptions, hneeded hindex]
      rfl

/-- An index is given behind the name of the command and its value behind `=`.  What stands
after `--` is the message, even if it looks like a transaction.  The signers are derived
without a configuration file. -/
theorem accepted_arguments_name_transaction_separator :
    let files : Files := fun _ => .error .notFound
    let resolves := ["--vault-index", "1", "resolve", "--transaction-index=7", "--",
      "--transaction"]
    let derives := ["derive", "--ephemeral-signers", "2", "--multisig", (Address.uniform 1).text,
      "--transaction-index=7"]
    (∃ invocation, Invocation.ofArguments resolves = some invocation ∧
      Given "transaction-index" resolves ∧ ¬Given "transaction" resolves) ∧
    ∃ invocation output derived, Invocation.ofArguments derives = some invocation ∧
      run files invocation = .ok output ∧
      (Json.parse output).bind DerivedAddresses.ofJson? = some derived ∧
      derived.ephemeralSigners.length = 2 := by
  intro files resolves derives
  have hbyte : readByte "2" = some 2 := by decide
  have hcount : isDashed "2" = false := by decide
  have htext := (undashed_text (.uniform 1)).isDashed_eq_false
  have hindex : readIndex "7" = some 7 := by decide
  constructor
  · have haccepted : Invocation.ofArguments resolves = some ⟨⟨none, none, none, some 1, false⟩,
        .resolve ⟨"--transaction", none, some 7, none, 0, none⟩⟩ := by
      decide
    obtain ⟨-, hnamed, hone, -⟩ := (accepted_arguments_name_transaction haccepted).1 _ rfl
    have hgiven := hnamed.isSome_iff.mp rfl
    refine ⟨_, haccepted, hgiven, ?_⟩
    rwa [xor_iff_iff_not, iff_not_comm, iff_true_left hgiven] at hone
  · let items : List Item := [.option "ephemeral-signers" "2",
      .option "multisig" (Address.uniform 1).text, .option "transaction-index" "7"]
    let settings : Settings := ⟨none, none, some (.uniform 1), none, false⟩
    have hitems : scan (Settings.names ++ Command.names "derive") derives.tail = some items := by
      simp [derives, items, scan, shape, Settings.names, Command.names, htext, hcount]
    have hcommand : Command.ofItems "derive" items = some (.derive ⟨some 7, 2⟩) := by
      simp [items, Command.ofItems, DeriveOptions.ofItems, positionals, optional, values, hbyte,
        hindex]
    have hown : Settings.ofItems items = some settings := by
      simp [items, settings, Settings.ofItems, optional, values, flag]
    have haccepted : Invocation.ofArguments derives = some ⟨settings, .derive ⟨some 7, 2⟩⟩ := by
      have hname : Undashed "derive" := by simp [Undashed]
      have happend := ofArguments_append givenBy_nil hname derives.tail
      rw [hitems, Option.bind_eq_bind, Option.bind_some, hcommand, Option.bind_eq_bind,
        Option.bind_some, hown] at happend
      exact happend
    let config : Config := ⟨Config.default.program, some (.uniform 1), 0⟩
    have hsucceeds : (derive config ⟨some 7, 2⟩).isOk = true := by decide +kernel
    obtain ⟨derived, hderive⟩ := isOk_iff.mp hsucceeds
    have hrun : run files ⟨settings, .derive ⟨some 7, 2⟩⟩ = .ok (written derived.toJson) :=
      run_derive_eq_ok_iff.mpr ⟨config, derived, rfl, hderive, rfl⟩
    obtain ⟨printed, count, hprinted, hcount, hlength⟩ :=
      ((accepted_arguments_name_transaction haccepted).2 _ rfl).2 files _ hrun
    refine ⟨_, _, printed, haccepted, hrun, hprinted, ?_⟩
    have hasked : readByte "2" = count := hcount.value "2" (.later (by decide) (.next _))
    rw [hlength, ← hasked, hbyte]
    rfl

end MultisigVault.CommandLine
