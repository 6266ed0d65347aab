import MultisigVault.Json.Layout
import MultisigVault.Json.Reader
import MultisigVault.Proofs.Json.Literals

/-!
# Written JSON is read back

A value is written as its tokens with blanks between them, whatever the layout.  Scanning
the text gives the tokens, and assembling the tokens gives the value.  This holds of the
values that the program makes, whose numbers are decimal and whose strings are escaped by
itself.
-/

namespace MultisigVault.Json

/-! ## Values and layouts -/

/-- The values that the program makes: numbers are decimal, and strings and keys are
escaped by itself. -/
inductive Plain : Json → Prop
  | null : Plain .null
  | bool (value : Bool) : Plain (.bool value)
  | number (value : Nat) : Plain (.ofNat value)
  | string (characters : List Char) : Plain (.string (escape characters))
  | array {items : List Json} (hitems : ∀ item ∈ items, Plain item) : Plain (.array items)
  | object {members : List (List Char × Json)}
      (hkeys : ∀ member ∈ members, ∃ key, member.1 = escape key)
      (hvalues : ∀ member ∈ members, Plain member.2) : Plain (.object members)

/-- Whether a layout puts in nothing but blanks. -/
structure Layout.Blank (layout : Layout) : Prop where
  lineBreak : ∀ depth, ∀ character ∈ layout.lineBreak depth, isSpace character = true
  afterColon : ∀ character ∈ layout.afterColon, isSpace character = true

theorem Layout.blank_compact : Layout.compact.Blank :=
  ⟨fun _ => by simp [compact], by simp [compact]⟩

theorem Layout.blank_indented : Layout.indented.Blank := by
  constructor
  · intro depth character hmem
    obtain rfl | hmem := List.mem_cons.mp hmem
    · rfl
    · rw [(List.mem_replicate.mp hmem).2]
      rfl
  · intro character hmem
    obtain rfl := List.mem_singleton.mp hmem
    rfl

mutual

/-- The tokens of a value. -/
def tokens : Json → List Token
  | .null => [.null]
  | .bool value => [.bool value]
  | .number literal => [.number literal]
  | .string literal => [.string literal]
  | .array [] => [.openArray, .closeArray]
  | .array (item :: rest) => .openArray :: tokens item ++ itemTokens rest ++ [.closeArray]
  | .object [] => [.openObject, .closeObject]
  | .object ((key, value) :: rest) =>
      .openObject :: .string key :: .colon :: tokens value ++ memberTokens rest ++ [.closeObject]

/-- The tokens of the items of an array after the first one. -/
def itemTokens : List Json → List Token
  | [] => []
  | item :: rest => .comma :: tokens item ++ itemTokens rest

/-- The tokens of the members of an object after the first one. -/
def memberTokens : List (List Char × Json) → List Token
  | [] => []
  | (key, value) :: rest =>
      .comma :: .string key :: .colon :: tokens value ++ memberTokens rest

end

/-! ## Scanning one token -/

/-- Whether a number or a word cannot go on in what follows. -/
def Delimited (rest : List Char) : Prop :=
  ∀ character ∈ rest.head?, isNumberCharacter character = false ∧
    isWordCharacter character = false

theorem delimited_nil : Delimited [] := by simp [Delimited]

theorem delimited_of_isSpace {character : Char} (hspace : isSpace character = true)
    (rest : List Char) : Delimited (character :: rest) := by
  simp only [isSpace, Bool.or_eq_true, beq_iff_eq] at hspace
  rintro other ⟨⟩
  obtain ((rfl | rfl) | rfl) | rfl := hspace <;> decide

theorem delimited_of_punctuation? {character : Char} {token : Token}
    (htoken : punctuation? character = some token) (rest : List Char) :
    Delimited (character :: rest) := by
  rintro other ⟨⟩
  rw [punctuation?.eq_def] at htoken
  split at htoken <;> first | decide | cases htoken

theorem delimited_append {blanks rest : List Char}
    (hblanks : ∀ character ∈ blanks, isSpace character = true) (hrest : Delimited rest) :
    Delimited (blanks ++ rest) := by
  cases blanks with
  | nil => exact hrest
  | cons character blanks => exact delimited_of_isSpace (hblanks _ List.mem_cons_self) _

section

variable (seen : List Token)

theorem scan_blanks {blanks : List Char}
    (hblanks : ∀ character ∈ blanks, isSpace character = true) (rest : List Char) :
    scan seen (blanks ++ rest) = scan seen rest := by
  induction blanks with
  | nil => rfl
  | cons character blanks ih =>
      rw [List.forall_mem_cons] at hblanks
      rw [List.cons_append, scan, if_pos hblanks.1, ih hblanks.2]

theorem scan_punctuation {character : Char} {token : Token}
    (htoken : punctuation? character = some token) (rest : List Char) :
    scan seen (character :: rest) = scan (token :: seen) rest := by
  have hclass : isSpace character = false ∧ character ≠ '"' ∧
      isNumberCharacter character = false ∧ isWordCharacter character = false := by
    rw [punctuation?.eq_def] at htoken
    split at htoken <;> first | decide | cases htoken
  obtain ⟨hspace, hquote, hnumber, hword⟩ := hclass
  rw [scan]
  simp [hspace, hquote, hnumber, hword, htoken]

theorem scan_quote (characters rest : List Char) :
    scan seen (quote (escape characters) ++ rest) =
      scan (.string (escape characters) :: seen) rest := by
  have hstring : scanString [] (escape characters ++ '"' :: rest) =
      some (escape characters, rest) := scanString_escape [] characters rest
  rw [quote, List.append_assoc, List.singleton_append, List.cons_append, scan, if_neg (by decide),
    if_pos rfl]
  split
  · next literal tail hscan =>
      rw [hstring] at hscan
      cases hscan
      rfl
  · next hscan =>
      rw [hstring] at hscan
      cases hscan

theorem scan_number (value : Nat) {rest : List Char} (hrest : Delimited rest) :
    scan seen (Decimal.write value ++ rest) =
      scan (.number (Decimal.write value) :: seen) rest := by
  have hdigits : ∀ character ∈ Decimal.write value, Decimal.isDigit character = true :=
    fun _ => Decimal.isDigit_of_mem_write
  have hnumber := isNumber_write value
  obtain ⟨first, digits, heq⟩ := List.exists_cons_of_ne_nil (Decimal.write_ne_nil value)
  rw [heq] at hdigits hnumber ⊢
  obtain ⟨hfirst, hdigits⟩ := List.forall_mem_cons.mp hdigits
  have hspace : ¬isSpace first = true := by simp [isSpace_of_isDigit hfirst]
  have hquote : first ≠ '"' := Decimal.ne_of_isDigit hfirst _ rfl
  obtain ⟨hspan, htail⟩ := takeWhile_append_of_head?
    (fun character hmem => isNumberCharacter_of_isDigit (hdigits character hmem))
    fun character hmem => (hrest character hmem).1
  rw [List.cons_append, scan, if_neg hspace, if_neg hquote,
    if_pos (isNumberCharacter_of_isDigit hfirst)]
  dsimp only
  rw [hspan, htail, if_pos hnumber]

theorem scan_word (word : List Char) {token : Token} (htoken : word? word = some token)
    {rest : List Char} (hrest : Delimited rest) :
    scan seen (word ++ rest) = scan (token :: seen) rest := by
  have hclass : ∃ first letters, word = first :: letters ∧ isSpace first = false ∧
      first ≠ '"' ∧ isNumberCharacter first = false ∧ isWordCharacter first = true ∧
      letters.all isWordCharacter = true := by
    rw [word?] at htoken
    split_ifs at htoken with hnull htrue hfalse
    · exact ⟨_, _, hnull, by decide⟩
    · exact ⟨_, _, htrue, by decide⟩
    · exact ⟨_, _, hfalse, by decide⟩
  obtain ⟨first, letters, rfl, hspace, hquote, hnumber, hfirst, hletters⟩ := hclass
  obtain ⟨hspan, htail⟩ := takeWhile_append_of_head? (List.all_eq_true.mp hletters)
    fun character hmem => (hrest character hmem).2
  rw [List.cons_append, scan, hspan, htail]
  simp [hspace, hquote, hnumber, hfirst, htoken]

end

/-! ## Scanning a value -/

section

variable {layout : Layout}

theorem delimited_itemCharacters (depth : Nat) (items : List Json) {rest : List Char}
    (hrest : Delimited rest) : Delimited (itemCharacters layout depth items ++ rest) := by
  cases items with
  | nil => exact hrest
  | cons item items =>
      rw [itemCharacters]
      exact delimited_of_punctuation? rfl _

theorem delimited_memberCharacters (depth : Nat) (members : List (List Char × Json))
    {rest : List Char} (hrest : Delimited rest) :
    Delimited (memberCharacters layout depth members ++ rest) := by
  cases members with
  | nil => exact hrest
  | cons member members =>
      rw [memberCharacters]
      exact delimited_of_punctuation? rfl _

/-- Whether scanning a value in a layout gives its tokens. -/
def Scans (layout : Layout) (json : Json) : Prop :=
  ∀ (depth : Nat) (seen : List Token) (rest : List Char), Delimited rest →
    scan seen (characters layout depth json ++ rest) = scan ((tokens json).reverse ++ seen) rest

variable (hlayout : layout.Blank)

include hlayout

theorem scan_itemCharacters {items : List Json} (hitems : ∀ item ∈ items, Scans layout item)
    (depth : Nat) (seen : List Token) {rest : List Char} (hrest : Delimited rest) :
    scan seen (itemCharacters layout depth items ++ rest) =
      scan ((itemTokens items).reverse ++ seen) rest := by
  induction items generalizing seen with
  | nil => rfl
  | cons item items ih =>
      rw [List.forall_mem_cons] at hitems
      simp only [itemCharacters, itemTokens, List.cons_append, List.append_assoc]
      rw [scan_punctuation seen rfl, scan_blanks _ (hlayout.lineBreak depth),
        hitems.1 depth _ _ (delimited_itemCharacters depth items hrest), ih hitems.2]
      simp

theorem scan_memberCharacters {members : List (List Char × Json)}
    (hkeys : ∀ member ∈ members, ∃ key, member.1 = escape key)
    (hvalues : ∀ member ∈ members, Scans layout member.2) (depth : Nat) (seen : List Token)
    {rest : List Char} (hrest : Delimited rest) :
    scan seen (memberCharacters layout depth members ++ rest) =
      scan ((memberTokens members).reverse ++ seen) rest := by
  induction members generalizing seen with
  | nil => rfl
  | cons member members ih =>
      obtain ⟨literal, value⟩ := member
      rw [List.forall_mem_cons] at hkeys hvalues
      obtain ⟨key, rfl⟩ : ∃ key, literal = escape key := hkeys.1
      simp only [memberCharacters, memberTokens, List.cons_append, List.append_assoc]
      rw [scan_punctuation seen rfl, scan_blanks _ (hlayout.lineBreak depth), scan_quote,
        scan_punctuation _ rfl, scan_blanks _ hlayout.afterColon,
        hvalues.1 depth _ _ (delimited_memberCharacters depth members hrest),
        ih hkeys.2 hvalues.2]
      simp

theorem scans_of_plain {json : Json} (hplain : json.Plain) : Scans layout json := by
  induction hplain with
  | null => exact fun _ seen _ hrest => scan_word seen ['n', 'u', 'l', 'l'] rfl hrest
  | bool value =>
      cases value with
      | true => exact fun _ seen _ hrest => scan_word seen ['t', 'r', 'u', 'e'] rfl hrest
      | false =>
          exact fun _ seen _ hrest => scan_word seen ['f', 'a', 'l', 's', 'e'] rfl hrest
  | number value => exact fun _ seen _ hrest => scan_number seen value hrest
  | string text => exact fun _ seen rest _ => scan_quote seen text rest
  | @array items _ ih =>
      intro depth seen rest hrest
      -- The closing bracket delimits the last item, and a comma every other one.
      cases items with
      | nil =>
          rw [characters, List.cons_append, scan_punctuation seen rfl, List.cons_append,
            scan_punctuation _ rfl]
          rfl
      | cons item items =>
          rw [List.forall_mem_cons] at ih
          have hclose : Delimited (layout.lineBreak depth ++ ']' :: rest) :=
            delimited_append (hlayout.lineBreak depth) (delimited_of_punctuation? rfl rest)
          simp only [characters, tokens, List.cons_append, List.append_assoc, List.nil_append]
          rw [scan_punctuation seen rfl, scan_blanks _ (hlayout.lineBreak _),
            ih.1 _ _ _ (delimited_itemCharacters _ items hclose),
            scan_itemCharacters hlayout ih.2 _ _ hclose, scan_blanks _ (hlayout.lineBreak _),
            scan_punctuation _ rfl]
          simp
  | @object members hkeys _ ih =>
      intro depth seen rest hrest
      cases members with
      | nil =>
          rw [characters, List.cons_append, scan_punctuation seen rfl, List.cons_append,
            scan_punctuation _ rfl]
          rfl
      | cons member members =>
          obtain ⟨literal, value⟩ := member
          rw [List.forall_mem_cons] at hkeys ih
          obtain ⟨key, rfl⟩ : ∃ key, literal = escape key := hkeys.1
          have hclose : Delimited (layout.lineBreak depth ++ '}' :: rest) :=
            delimited_append (hlayout.lineBreak depth) (delimited_of_punctuation? rfl rest)
          simp only [characters, tokens, List.cons_append, List.append_assoc, List.nil_append]
          rw [scan_punctuation seen rfl, scan_blanks _ (hlayout.lineBreak _), scan_quote,
            scan_punctuation _ rfl, scan_blanks _ hlayout.afterColon,
            ih.1 _ _ _ (delimited_memberCharacters _ members hclose),
            scan_memberCharacters hlayout hkeys.2 ih.2 _ _ hclose,
            scan_blanks _ (hlayout.lineBreak _), scan_punctuation _ rfl]
          simp

end

/-! ## Assembling a value -/

/-- No value begins with the end of an array. -/
theorem exists_head_tokens (json : Json) :
    ∃ head tail, tokens json = head :: tail ∧ head ≠ .closeArray := by
  match json with
  | .null | .bool _ | .number _ | .string _ | .array [] | .object [] =>
      exact ⟨_, _, by rw [tokens], by simp⟩
  | .array (item :: items) =>
      exact ⟨.openArray, _, by rw [tokens, List.cons_append, List.cons_append], by simp⟩
  | .object ((key, value) :: members) =>
      exact ⟨.openObject, _, by rw [tokens, List.cons_append, List.cons_append], by simp⟩

/-- Whether assembling the tokens of a value gives the value, where one is expected. -/
def Assembles (json : Json) : Prop :=
  ∀ (stack : List Frame) (rest : List Token),
    (tokens json ++ rest).foldlM step (.value, stack) = rest.foldlM step (.after json, stack)

/-- The first item of an array is a value like any other. -/
theorem Assembles.firstItem {json : Json} (hjson : Assembles json) (stack : List Frame)
    (rest : List Token) :
    (tokens json ++ rest).foldlM step (.firstItem, stack) =
      rest.foldlM step (.after json, .array [] :: stack) := by
  rw [← hjson]
  obtain ⟨head, tail, heq, hhead⟩ := exists_head_tokens json
  rw [heq, List.cons_append, List.foldlM_cons, List.foldlM_cons]
  congr 1
  cases head <;> first | rfl | exact absurd rfl hhead

theorem assembles_itemTokens {items : List Json} (hitems : ∀ item ∈ items, Assembles item)
    (item : Json) (seen : List Json) (stack : List Frame) (rest : List Token) :
    (itemTokens items ++ .closeArray :: rest).foldlM step (.after item, .array seen :: stack) =
      rest.foldlM step (.after (.array (seen.reverse ++ item :: items)), stack) := by
  induction items generalizing item seen with
  | nil =>
      rw [itemTokens, List.nil_append, List.foldlM_cons, step, List.reverse_cons]
      rfl
  | cons next items ih =>
      rw [List.forall_mem_cons] at hitems
      rw [itemTokens, List.append_assoc, List.cons_append, List.foldlM_cons, step,
        Option.bind_eq_bind, Option.bind_some, hitems.1, ih hitems.2, List.reverse_cons,
        List.append_assoc]
      rfl

theorem assembles_memberTokens {members : List (List Char × Json)}
    (hvalues : ∀ member ∈ members, Assembles member.2) (key : List Char) (value : Json)
    (seen : List (List Char × Json)) (stack : List Frame) (rest : List Token) :
    (memberTokens members ++ .closeObject :: rest).foldlM step
        (.after value, .object seen key :: stack) =
      rest.foldlM step (.after (.object (seen.reverse ++ (key, value) :: members)), stack) := by
  induction members generalizing key value seen with
  | nil =>
      rw [memberTokens, List.nil_append, List.foldlM_cons, step, List.reverse_cons]
      rfl
  | cons member members ih =>
      obtain ⟨nextKey, next⟩ := member
      rw [List.forall_mem_cons] at hvalues
      have hvalue : Assembles next := hvalues.1
      simp only [memberTokens, List.cons_append, List.append_assoc, List.foldlM_cons, step,
        Option.bind_eq_bind, Option.bind_some]
      rw [hvalue, ih hvalues.2, List.reverse_cons, List.append_assoc]
      rfl

-- By recursion on the value, since the parts of a container are assembled before it is.
mutual

theorem assembles : (json : Json) → Assembles json
  | .null | .bool _ | .number _ | .string _ | .array [] | .object [] => fun _ _ => by
      simp only [tokens]
      rfl
  | .array (item :: items) => fun stack rest => by
      simp only [tokens, List.cons_append, List.append_assoc, List.nil_append, List.foldlM_cons,
        step, beginValue, Option.bind_eq_bind, Option.bind_some]
      rw [(assembles item).firstItem, assembles_itemTokens (assembles_items items)]
      rfl
  | .object ((key, value) :: members) => fun stack rest => by
      simp only [tokens, List.cons_append, List.append_assoc, List.nil_append, List.foldlM_cons,
        step, beginValue, Option.bind_eq_bind, Option.bind_some]
      rw [assembles value, assembles_memberTokens (assembles_members members)]
      rfl

theorem assembles_items : (items : List Json) → ∀ item ∈ items, Assembles item
  | [] => by simp
  | item :: items => List.forall_mem_cons.mpr ⟨assembles item, assembles_items items⟩

theorem assembles_members :
    (members : List (List Char × Json)) → ∀ member ∈ members, Assembles member.2
  | [] => by simp
  | (_, value) :: members => List.forall_mem_cons.mpr ⟨assembles value, assembles_members members⟩

end

/-- The tokens of a value assemble to it. -/
theorem assemble_tokens (json : Json) : assemble (tokens json) = some json := by
  have hassembles := assembles json [] []
  rw [List.append_nil] at hassembles
  rw [assemble, hassembles]
  rfl

/-! ## Reading a text -/

/-- A written value is read back, whatever blanks the layout puts in and the text ends
with. -/
theorem parse_render {layout : Layout} (hlayout : layout.Blank) {json : Json}
    (hplain : json.Plain) {blanks : String}
    (hblanks : ∀ character ∈ blanks.toList, isSpace character = true) :
    parse (render layout json ++ blanks) = some json := by
  have hscan := scans_of_plain hlayout hplain 0 [] blanks.toList
    (by simpa using delimited_append hblanks delimited_nil)
  have hend := scan_blanks (tokens json).reverse hblanks []
  rw [List.append_nil] at hscan hend
  rw [parse, render, String.toList_append, String.toList_ofList, hscan, hend, scan,
    List.reverse_reverse]
  exact assemble_tokens json

end MultisigVault.Json
