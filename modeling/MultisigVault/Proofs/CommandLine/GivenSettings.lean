import MultisigVault.Proofs.CommandLine.GivenOptions

/-!
# Settings in front of a command

The settings that apply to every command may be set in front of its name, each in an
argument of its own.  Any settings can be set in this way, unless they name a configuration
file without a name.
-/

namespace MultisigVault.CommandLine

/-- An item in an argument of its own. -/
def Item.argument : Item → String
  | .option name value => "--" ++ name ++ "=" ++ value
  | .flag name => "--" ++ name
  | .positional value => value

/-- What settings say, item by item. -/
def Settings.items (settings : Settings) : List Item :=
  (settings.config.map (.option "config")).toList ++
    ((settings.program.map Address.text).map (.option "program-id")).toList ++
    ((settings.multisig.map Address.text).map (.option "multisig")).toList ++
    ((settings.vaultIndex.map fun index => String.ofList (Decimal.write index.toNat)).map
      (.option "vault-index")).toList ++
    List.replicate settings.verbose.toNat (.flag "verbose")

theorem scanToName_items {options : List String} {items : List Item}
    (hitems : ∀ item ∈ items, shape options item.argument = .whole [item]) (rest : List String) :
    scanToName options (items.map Item.argument ++ rest) =
      (scanToName options rest).map fun (found, after) => (items ++ found, after) := by
  induction items with
  | nil => simp
  | cons item items ih =>
      rw [List.forall_mem_cons] at hitems
      rw [List.map_cons, List.cons_append, scanToName, hitems.1, ih hitems.2]
      simp [Option.map_map, Function.comp_def]

theorem isOptionName_of_mem_settings {name : String} (hname : name ∈ Settings.names) :
    IsOptionName name := by
  revert name
  decide

theorem Settings.shape_items (settings : Settings) {item : Item} (hitem : item ∈ settings.items) :
    shape names item.argument = .whole [item] := by
  have hoption {name value : String} (hname : name ∈ names) :
      shape names (Item.option name value).argument = .whole [.option name value] := by
    rw [Item.argument, (isOptionName_of_mem_settings hname).shape_same,
      if_pos (List.contains_iff_mem.mpr hname)]
  simp only [items, List.mem_append, Option.mem_toList, Option.map_eq_some_iff,
    List.mem_replicate] at hitem
  obtain (((⟨_, -, rfl⟩ | ⟨_, -, rfl⟩) | ⟨_, -, rfl⟩) | ⟨_, -, rfl⟩) | ⟨-, rfl⟩ := hitem
  · exact hoption (by decide)
  · exact hoption (by decide)
  · exact hoption (by decide)
  · exact hoption (by decide)
  · rfl

theorem values_append (name : String) (front back : List Item) :
    values name (front ++ back) = values name front ++ values name back :=
  List.filterMap_append

theorem values_toList (name other : String) (value : Option String) :
    values name (value.map (.option other)).toList =
      if other = name then value.toList else [] := by
  cases value with
  | none => simp [values]
  | some text => split_ifs with heq <;> simp [values, heq]

theorem values_replicate_flag (name other : String) (count : Nat) :
    values name (List.replicate count (.flag other)) = [] := by
  simp [values]

/-- An option is read back from the text it is written as. -/
theorem optional_of_values {Value : Type} {read : String → Option Value}
    (write : Value → String) {name : String} {items : List Item} {value : Option Value}
    (hvalues : values name items = (value.map write).toList)
    (hread : ∀ given, value = some given → read (write given) = some given) :
    optional read name items = some value := by
  cases value with
  | none => simp [optional, hvalues]
  | some given => simp [optional, hvalues, hread given rfl]

theorem Settings.ofItems_items {settings : Settings} (hconfig : settings.config ≠ some "") :
    ofItems settings.items = some settings := by
  have hvalues (name : String) : values name settings.items =
      (if "config" = name then settings.config.toList else []) ++
        (if "program-id" = name then (settings.program.map Address.text).toList else []) ++
        (if "multisig" = name then (settings.multisig.map Address.text).toList else []) ++
        if "vault-index" = name then (settings.vaultIndex.map fun index =>
          String.ofList (Decimal.write index.toNat)).toList else [] := by
    simp only [items, values_append, values_toList, values_replicate_flag, List.append_nil]
  have hpath : optional readPath "config" settings.items = some settings.config := by
    refine optional_of_values id ?_ ?_
    · simp [hvalues]
    · rintro path hpath
      have hnonempty : path ≠ "" := fun hempty => hconfig (hempty ▸ hpath)
      simp [readPath, hnonempty]
  have hprogram : optional readAddress "program-id" settings.items = some settings.program :=
    optional_of_values _ (by simp [hvalues]) fun _ _ => readAddress_text _
  have hmultisig : optional readAddress "multisig" settings.items = some settings.multisig :=
    optional_of_values _ (by simp [hvalues]) fun _ _ => readAddress_text _
  have hindex : optional readByte "vault-index" settings.items = some settings.vaultIndex :=
    optional_of_values _ (by simp [hvalues]) fun _ _ => readByte_write _
  have hverbose : flag "verbose" settings.items = some settings.verbose := by
    have hcount (name : String) (given : Option String) :
        (given.map (Item.option name)).toList.count (Item.flag "verbose") = 0 := by
      cases given <;> simp
    simp only [flag, items, List.count_append, hcount, List.count_replicate_self]
    cases settings.verbose <;> rfl
  rw [ofItems, hpath, hprogram, hmultisig, hindex, hverbose]
  rfl

/-- Every settings can be set in front of a command, unless they name a file without a name.
The environment completes them. -/
theorem Settings.givenBy_items {settings completed : Settings} {environment : Option String}
    (hconfig : settings.config ≠ some "")
    (hcompleted : unset.complete settings environment = some completed) :
    completed.GivenBy environment (settings.items.map Item.argument) := by
  refine ⟨settings.items, settings, ofItems_items hconfig, hcompleted, fun name rest hname => ?_⟩
  rw [scanToName_items fun _ => settings.shape_items, scanToName, hname.shape_eq_word]
  simp

end MultisigVault.CommandLine
