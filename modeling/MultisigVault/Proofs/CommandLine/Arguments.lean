import MultisigVault.CommandLine.Run
import MultisigVault.Proofs.Json.Records
import MultisigVault.Proofs.Text.Hex

/-!
# Arguments and files are read as they are written

The text of an address or of a small number is never taken for an option, and it is read
back as what it was written for.  The same holds of the digits of a stored message in
their other spellings, and of lists of values in files.  Settings may stand in front of
every command, and the arguments after its name are read on their own.
-/

namespace MultisigVault.CommandLine

open Outcome

/-! ## Arguments one by one -/

/-- What an argument may be taken for: a word, the separator, flags, an option with its
value, or an option whose value is the next argument. -/
inductive Shaped (options : List String) : String → Shape → Prop
  | word {argument : String} (hargument : isDashed argument = false) :
      Shaped options argument .word
  | separator : Shaped options "--" .separator
  | flags {argument : String} {items : List Item} (hargument : isDashed argument = true)
      (hitems : ∀ item ∈ items, item = .flag "verbose") : Shaped options argument (.whole items)
  | same {name value : String} (hname : name ∈ options) :
      Shaped options ("--" ++ name ++ "=" ++ value) (.whole [.option name value])
  | next {name : String} (hname : name ∈ options) : Shaped options ("--" ++ name) (.pending name)
  | unknown {argument : String} (hargument : isDashed argument = true) :
      Shaped options argument .unknown

theorem shaped_shape (options : List String) (argument : String) :
    Shaped options argument (shape options argument) := by
  have hdashed {first : Char} {letters : List Char}
      (heq : argument.toList = '-' :: first :: letters) : isDashed argument = true := by
    simp [isDashed, heq]
  rw [shape.eq_def]
  split
  · next heq =>
      obtain rfl : argument = "--" := String.toList_inj.mp heq
      exact .separator
  · next long _ heq =>
      have hlong := List.takeWhile_append_dropWhile (p := (· != '=')) (l := long)
      split
      · next hrest =>
          rw [hrest, List.append_nil] at hlong
          obtain rfl : argument = "--" ++ String.ofList long := String.toList_inj.mp (by simp [heq])
          simp only [hlong]
          split_ifs with hverbose hoption
          · exact .flags (hdashed heq) (by simpa)
          · exact .next (List.contains_iff_mem.mp hoption)
          · exact .unknown (hdashed heq)
      · next sign value hrest =>
          have hsign : sign = '=' := by
            have hhead := List.head_dropWhile_not (· != '=') (l := long) (by simp [hrest])
            simpa [hrest] using hhead
          rw [hrest, hsign] at hlong
          obtain rfl : argument = "--" ++ String.ofList (long.takeWhile (· != '=')) ++ "=" ++
              String.ofList value := String.toList_inj.mp (by simp [heq, hlong])
          dsimp only
          split_ifs with hoption
          · exact .same (List.contains_iff_mem.mp hoption)
          · exact .unknown (hdashed heq)
  · next heq =>
      split_ifs
      · exact .flags (hdashed heq) (by simp)
      · exact .unknown (hdashed heq)
  · next hword =>
      refine .word ?_
      rw [isDashed.eq_def]
      split
      · next heq => exact absurd heq (hword _ _)
      · rfl

theorem shape_eq_word_iff {options : List String} {argument : String} :
    shape options argument = .word ↔ isDashed argument = false := by
  have hshaped := shaped_shape options argument
  constructor
  · intro hshape
    rw [hshape] at hshaped
    cases hshaped with
    | word hargument => exact hargument
  · intro hargument
    cases hshape : shape options argument with
    | word => rfl
    | _ =>
        rw [hshape] at hshaped
        cases hshaped <;> simp_all [isDashed]

/-! ## Arguments that are no options -/

/-- Whether an argument cannot be taken for an option. -/
def Undashed (argument : String) : Prop :=
  argument.toList.head? ≠ some '-'

namespace Undashed

variable {argument : String}

theorem of_forall_ne (hnone : ∀ character ∈ argument.toList, character ≠ '-') :
    Undashed argument :=
  fun hhead => hnone '-' (List.mem_of_head? hhead) rfl

theorem isDashed_eq_false (hundashed : Undashed argument) : isDashed argument = false := by
  rw [isDashed.eq_def]
  split
  · next heq => exact absurd (by rw [heq]; rfl) hundashed
  · rfl

theorem shape_eq_word (hundashed : Undashed argument) (options : List String) :
    shape options argument = .word :=
  shape_eq_word_iff.mpr hundashed.isDashed_eq_false

end Undashed

theorem undashed_text (address : Address) : Undashed address.text := by
  apply Undashed.of_forall_ne
  intro character hmem heq
  have halphabet := Base58.mem_alphabet_of_mem_encode hmem
  subst heq
  exact absurd halphabet (by decide)

theorem undashed_write (number : Nat) : Undashed (String.ofList (Decimal.write number)) := by
  apply Undashed.of_forall_ne
  intro character hmem
  rw [String.toList_ofList] at hmem
  exact Decimal.ne_of_isDigit (Decimal.isDigit_of_mem_write hmem) '-' rfl

theorem undashed_of_respells {bytes : Bytes} {text : String}
    (htext : Hex.Respells (Hex.encode bytes) text) : Undashed text := by
  obtain ⟨hbefore, hmarker, hbody, hafter⟩ := htext
  apply Undashed.of_forall_ne
  rintro character hmem rfl
  rw [String.toList_ofList, List.mem_append, List.mem_append, List.mem_append] at hmem
  obtain (hblank | hmark | hdigit) | hblank := hmem
  · cases hbefore _ hblank
  · obtain rfl | rfl := hmarker
    · cases hmark
    · exact absurd hmark (by decide)
  · obtain ⟨digit, hcode⟩ := Hex.exists_isCode hbody hdigit
    rw [Hex.IsCode] at hcode
    have hdash : '-'.toNat = 45 := rfl
    omega
  · cases hafter _ hblank

/-! ## Values of arguments -/

@[simp]
theorem readAddress_text (address : Address) : readAddress address.text = some address := by
  rw [readAddress, Address.ofText_text]
  rfl

@[simp]
theorem readByte_write (byte : Byte) :
    readByte (String.ofList (Decimal.write byte.toNat)) = some byte := by
  have hsign (sign : Char) (hsign : Decimal.isDigit sign = false) (digits : List Char) :
      Decimal.write byte.toNat ≠ sign :: digits := by
    intro heq
    have hmem : sign ∈ Decimal.write byte.toNat := heq ▸ List.mem_cons_self
    exact Decimal.ne_of_isDigit (Decimal.isDigit_of_mem_write hmem) sign hsign rfl
  have hmagnitude := Decimal.ofDigits?_write byte.toNat
  rw [readByte, String.toList_ofList]
  split
  next heq =>
    split at heq
    · next hminus => exact absurd hminus (hsign '-' rfl _)
    · next hplus => exact absurd hplus (hsign '+' rfl _)
    · cases heq
      rw [hmagnitude, Option.bind_eq_bind, Option.bind_some, if_pos ⟨byte.toNat_lt, by simp⟩,
        UInt8.ofNat_toNat]

/-- Stored bytes are read from their digits in every spelling. -/
theorem readMessageBytes_of_respells {bytes : Bytes} {text : String}
    (htext : Hex.Respells (Hex.encode bytes) text) : readMessageBytes text = .ok bytes := by
  obtain @⟨before, marker, body, after, hbefore, hmarker, hbody, hafter⟩ := htext
  have hsolid : ∀ character ∈ marker ++ body, Text.isBlank character = false := by
    intro character hmem
    obtain hmem | hmem := List.mem_append.mp hmem
    · obtain rfl | rfl := hmarker
      · cases hmem
      · obtain rfl | rfl : character = '0' ∨ character = 'x' := by simpa using hmem
        · rfl
        · rfl
    · obtain ⟨digit, hcode⟩ := Hex.exists_isCode hbody hmem
      exact Hex.not_isBlank_of_isCode hcode
  have hdecode : (Hex.decode (Utf8.encode (String.ofList body))).mapError CommandError.invalidHex =
      .ok bytes := by
    rw [Hex.decode_of_toLower hbody]
    rfl
  rw [readMessageBytes, String.toList_ofList, Text.trim_append hbefore hsolid hafter]
  obtain rfl | rfl := hmarker
  · -- The digits themselves do not begin with `0x`.
    split
    · next digits heq =>
        have hmem : 'x' ∈ body := by
          rw [← List.nil_append body, heq]
          simp
        obtain ⟨digit, hcode⟩ := Hex.exists_isCode hbody hmem
        exact absurd rfl hcode.ne_x
    · exact hdecode
  · exact hdecode

/-! ## Files -/

/-- A list is read from a file that holds its written form in any layout. -/
theorem readList_render {Value : Type} {toJson : Value → Json} {ofJson? : Json → Option Value}
    (hfaithful : Json.Faithful toJson ofJson?) {layout : Json.Layout} (hlayout : layout.Blank)
    (blanks : String) (hblanks : ∀ character ∈ blanks.toList, Json.isSpace character = true)
    {files : Files} {path : String} {values : List Value}
    (hfile : files path =
      .ok (Utf8.encode (Json.render layout (.ofList toJson values) ++ blanks))) :
    readList ofJson? files path = .ok values := by
  have hparse := Json.parse_render hlayout (hfaithful.ofList.plain values) hblanks
  have htext : files.readText path =
      .ok (Json.render layout (.ofList toJson values) ++ blanks) := by
    rw [Files.readText, hfile, ok_bind, Utf8.decode?_encode]
    rfl
  rw [readList, htext, Except.mapError, ok_bind, hparse, Option.bind_some,
    hfaithful.ofList.reads]
  rfl

/-- Whether an argument names a file where an option wants one. -/
def IsPath (argument : String) : Prop :=
  isDashed argument = false ∧ argument ≠ ""

theorem readPath_of_isPath {argument : String} (hpath : IsPath argument) :
    readPath argument = some argument := by
  simp [readPath, hpath.2]

/-! ## Settings in front of a command -/

/-- Settings that say nothing. -/
def Settings.unset : Settings :=
  ⟨none, none, none, none, false⟩

theorem Settings.unset_orElse (settings : Settings) : unset.orElse settings = settings := by
  simp [orElse, unset]

theorem Settings.complete_unset_eq_some_iff {settings front : Settings}
    {environment : Option String} :
    unset.complete front environment = some settings ↔
      ∃ program, environment.mapM readAddress = some program ∧
        { front with program := front.program <|> program } = settings := by
  have hunset : unset.program = none := rfl
  simp only [complete, unset_orElse, hunset, Option.isSome_none, Bool.false_and,
    Bool.false_eq_true, if_false, Option.bind_eq_bind, Option.bind_eq_some_iff, Option.pure_def,
    Option.some.injEq]

/-- What a command sets itself goes before whatever holds without it. -/
theorem Settings.complete_of_unset {settings front : Settings} {environment : Option String}
    (hfront : unset.complete front environment = some settings) (own : Settings) :
    own.complete front environment = some (own.orElse settings) := by
  obtain ⟨program, hprogram, rfl⟩ := complete_unset_eq_some_iff.mp hfront
  rw [complete, hprogram]
  cases hown : own.program with
  | none => simp [orElse, hown]
  | some set =>
      -- With a program on both sides the environment is not asked.
      cases hset : front.program <;> simp [orElse, hown, hset]

/-- Whether arguments consist of settings, so that the name of a command may follow, and
together with the environment they come to the given settings. -/
def Settings.GivenBy (settings : Settings) (environment : Option String)
    (arguments : List String) : Prop :=
  ∃ items front, Settings.ofItems items = some front ∧
    unset.complete front environment = some settings ∧
    ∀ name rest, Undashed name →
      scanToName Settings.names (arguments ++ name :: rest) = some (items, name, rest)

theorem givenBy_nil : Settings.unset.GivenBy none [] := by
  refine ⟨[], .unset, rfl, rfl, fun name rest hname => ?_⟩
  rw [List.nil_append, scanToName, hname.shape_eq_word]

/-- A program that is set in front of a command holds, whatever program the environment sets. -/
theorem givenBy_program (program : Address) {environment : Option String} {other : Option Address}
    (henvironment : environment.mapM readAddress = some other) :
    Settings.GivenBy ⟨none, some program, none, none, false⟩ environment
      ["--program-id", program.text] := by
  refine ⟨[.option "program-id" program.text], ⟨none, some program, none, none, false⟩, ?_,
    Settings.complete_unset_eq_some_iff.mpr ⟨other, henvironment, rfl⟩, ?_⟩
  · simp [Settings.ofItems, optional, values, flag]
  · intro name rest hname
    have hoption : shape Settings.names "--program-id" = .pending "program-id" := by rfl
    rw [List.cons_append, List.cons_append, scanToName, hoption]
    simp [(undashed_text program).isDashed_eq_false, scanToName, hname.shape_eq_word]

theorem scan_positional {argument : String} (hargument : isDashed argument = false)
    (options rest : List String) :
    scan options (argument :: rest) = (scan options rest).map (.positional argument :: ·) := by
  rw [scan, shape_eq_word_iff.mpr hargument]

section

variable {settings : Settings} {environment : Option String} {arguments : List String}
  (hsettings : settings.GivenBy environment arguments)

include hsettings

/-- The arguments after the name of a command are read on their own, and what they say
goes before the settings in front and in the environment. -/
theorem ofArguments_append {name : String} (hname : Undashed name) (rest : List String) :
    Invocation.ofArguments (arguments ++ name :: rest) environment = do
      let items ← scan (Settings.names ++ Command.names name) rest
      let command ← Command.ofItems name items
      let own ← Settings.ofItems items
      return ⟨own.orElse settings, command⟩ := by
  obtain ⟨items, front, hitems, hfront, hscan⟩ := hsettings
  rw [Invocation.ofArguments, hscan name rest hname, Option.bind_eq_bind, Option.bind_some]
  simp only [hitems, Settings.complete_of_unset hfront, Option.bind_eq_bind, Option.bind_some]

theorem ofArguments_of_items {name : String} (hname : Undashed name) {rest : List String}
    {items : List Item} (hitems : scan (Settings.names ++ Command.names name) rest = some items)
    {command : Command} (hcommand : Command.ofItems name items = some command)
    (hown : Settings.ofItems items = some .unset) :
    Invocation.ofArguments (arguments ++ name :: rest) environment =
      some ⟨settings, command⟩ := by
  simp only [ofArguments_append hsettings hname, hitems, hcommand, hown, Option.bind_eq_bind,
    Option.bind_some, settings.unset_orElse]
  rfl

/-! ## The arguments of a command -/

theorem ofArguments_decode {message : String} (hmessage : Undashed message) :
    Invocation.ofArguments (arguments ++ ["decode", message]) environment =
      some ⟨settings, .decode message⟩ := by
  have hitems : scan (Settings.names ++ Command.names "decode") [message] =
      some [.positional message] := by
    rw [scan_positional hmessage.isDashed_eq_false]
    rfl
  exact ofArguments_of_items hsettings (by simp [Undashed]) hitems rfl rfl

theorem ofArguments_compile (vault : Address) {instructions tables : String}
    (hinstructions : IsPath instructions) (htables : IsPath tables) :
    Invocation.ofArguments (arguments ++
        ["compile", "--vault", vault.text, "--instructions", instructions, "--tables", tables])
        environment =
      some ⟨settings, .compile ⟨instructions, some tables, some vault⟩⟩ := by
  have hvault := (undashed_text vault).isDashed_eq_false
  have hitems : scan (Settings.names ++ Command.names "compile")
      ["--vault", vault.text, "--instructions", instructions, "--tables", tables] =
      some [.option "vault" vault.text, .option "instructions" instructions,
        .option "tables" tables] := by
    simp [scan, shape, Settings.names, Command.names, hvault, hinstructions.1, htables.1]
  have hcommand : Command.ofItems "compile"
      [.option "vault" vault.text, .option "instructions" instructions,
        .option "tables" tables] =
      some (.compile ⟨instructions, some tables, some vault⟩) := by
    simp [Command.ofItems, CompileOptions.ofItems, positionals, required, optional, values,
      readPath_of_isPath hinstructions, readPath_of_isPath htables]
  exact ofArguments_of_items hsettings (by simp [Undashed]) hitems hcommand rfl

/-- Compiling is only understood with two paths. -/
theorem isPath_of_ofArguments_compile {vault : Address} {instructions tables : String}
    {invocation : Invocation}
    (hinvocation : Invocation.ofArguments (arguments ++
        ["compile", "--vault", vault.text, "--instructions", instructions, "--tables", tables])
        environment = some invocation) :
    IsPath instructions ∧ IsPath tables := by
  have hvault := (undashed_text vault).isDashed_eq_false
  rw [ofArguments_append hsettings (by simp [Undashed])] at hinvocation
  obtain ⟨items, hitems, hrest⟩ := Option.bind_eq_some_iff.mp hinvocation
  obtain ⟨command, hcommand, -⟩ := Option.bind_eq_some_iff.mp hrest
  obtain ⟨⟨hfirst, hsecond⟩, rfl⟩ :
      (isDashed instructions = false ∧ isDashed tables = false) ∧
        [.option "vault" vault.text, .option "instructions" instructions,
          .option "tables" tables] = items := by
    simpa [scan, shape, Settings.names, Command.names, hvault] using hitems
  have hinstructions : instructions ≠ "" := by
    rintro rfl
    simp [Command.ofItems, CompileOptions.ofItems, positionals, required, optional, values,
      readPath] at hcommand
  have htables : tables ≠ "" := by
    rintro rfl
    simp [Command.ofItems, CompileOptions.ofItems, positionals, optional, values, readPath]
      at hcommand
  exact ⟨⟨hfirst, hinstructions⟩, ⟨hsecond, htables⟩⟩

theorem ofArguments_resolve {message : String} (hmessage : Undashed message) {tables : String}
    (htables : IsPath tables) (vault transaction : Address) (count : Byte) :
    Invocation.ofArguments (arguments ++
      ["resolve", message, "--tables", tables, "--vault", vault.text,
        "--transaction", transaction.text,
        "--ephemeral-signers", String.ofList (Decimal.write count.toNat)]) environment =
      some ⟨settings,
        .resolve ⟨message, some tables, none, some transaction, count, some vault⟩⟩ := by
  have hvault := (undashed_text vault).isDashed_eq_false
  have htransaction := (undashed_text transaction).isDashed_eq_false
  have hcount := (undashed_write count.toNat).isDashed_eq_false
  let items : List Item :=
    [.positional message, .option "tables" tables, .option "vault" vault.text,
      .option "transaction" transaction.text,
      .option "ephemeral-signers" (String.ofList (Decimal.write count.toNat))]
  have hitems : scan (Settings.names ++ Command.names "resolve")
      [message, "--tables", tables, "--vault", vault.text, "--transaction", transaction.text,
        "--ephemeral-signers", String.ofList (Decimal.write count.toNat)] = some items := by
    rw [scan_positional hmessage.isDashed_eq_false]
    simp [scan, shape, Settings.names, Command.names, hvault, htables.1, htransaction, hcount,
      items]
  have hcommand : Command.ofItems "resolve" items =
      some (.resolve ⟨message, some tables, none, some transaction, count, some vault⟩) := by
    simp [Command.ofItems, ResolveOptions.ofItems, positionals, optional, values,
      readPath_of_isPath htables, items]
  exact ofArguments_of_items hsettings (by simp [Undashed]) hitems hcommand rfl

end

end MultisigVault.CommandLine
