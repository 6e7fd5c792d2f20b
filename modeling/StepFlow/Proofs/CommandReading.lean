import Mathlib.Data.List.DropRight
import StepFlow.Proofs.Literals
import StepFlow.Recording.CommandText

/-!
# What a command is read from

A command is read from left to right, member by member or item by item, and reading stops at the
first thing that is wrong.  Here this is compared with the value that the text is of: which fields
the members of an object fill one after the other, and which fields the items of a list are.  Any
grammatical text is allowed, and so is any way to give the strings of a value, as long as it says
which of them have a text.
Main statement: `reads_command`.
-/

namespace StepFlow

open Json

namespace Recording

/-! ## The fields in a value -/

section Fields

variable {Text Number : Type} (text? : Text → Option String)

/-- The text of a value that is a string. -/
def stringOf? : Tree Text Number → Option String
  | .string string => text? string
  | _ => none

/-- The text of a value that is a string or `null`. -/
def optionalOf? : Tree Text Number → Option (Option String)
  | .null => some none
  | .string string => (text? string).map some
  | _ => none

namespace Fields

/-- The fields after a member was taken in, if it could be. -/
def fill? (fields : Fields) (field? : Option Field) (value : Tree Text Number) : Option Fields :=
  match field? with
  | none => some fields
  | some field =>
      if fields.has field then none
      else
        match field with
        | .id => (optionalOf? text? value).map fields.setId
        | .text field => (stringOf? text? value).map (fields.setText · field)

/-- The fields after all members were taken in. -/
def fillAll? (fields : Fields) : List (Text × Tree Text Number) → Option Fields
  | [] => some fields
  | (name, value) :: members =>
      (text? name).bind fun name =>
        (fields.fill? text? (Field.ofKey? name) value).bind fun fields => fields.fillAll? members

end Fields

/-- The next item of a list, if it has one, and the items behind it. -/
def next? {α : Type} (decode : Tree Text Number → Option α) :
    List (Tree Text Number) → Option (Option α × List (Tree Text Number))
  | [] => some (none, [])
  | item :: items => (decode item).map fun found => (some found, items)

/-- The command whose fields are the items of a list. -/
def listed? (items : List (Tree Text Number)) : Option Command := do
  let (id, items) ← next? (optionalOf? text?) items
  let (name, items) ← next? (stringOf? text?) items
  let name ← name
  let (target, items) ← next? (stringOf? text?) items
  let (value, items) ← next? (stringOf? text?) items
  let (comment, items) ← next? (stringOf? text?) items
  if items.isEmpty then
    some {
      id := id.getD none
      name
      target := target.getD ""
      value := value.getD ""
      comment := comment.getD "" }
  else none

/-- The command that a value is. -/
def meant? : Tree Text Number → Option Command
  | .object members =>
      (Fields.fillAll? text? {} members).bind fun fields => fields.toCommand.toOption
  | .array items => listed? text? items
  | _ => none

end Fields

/-! ## Reading in front of a rest -/

/-- What reading in front of `rest` comes to: it finds what is expected and stops at space in front
of the rest, or it fails, if nothing is expected. -/
inductive Finds {α : Type} (rest : List Char) :
    Except ReadError (α × List Char) → Option α → Prop
  | found {result : α} {gap : List Char} (hgap : IsGap gap) :
      Finds rest (.ok (result, gap ++ rest)) (some result)
  | failed (error : ReadError) : Finds rest (.error error) none

/-- Whatever follows the text, as long as it does not continue a number, `read` finds there what is
expected. -/
def ReadsAs {α : Type} (read : List Char → Except ReadError (α × List Char)) (expected : Option α)
    (text : List Char) : Prop :=
  ∀ {rest}, Ends rest → Finds rest (read (text ++ rest)) expected

section Reading

variable {α β : Type} {read : List Char → Except ReadError (α × List Char)} {expected : Option α}
variable {result : Except ReadError (α × List Char)} {text rest gap : List Char}

theorem Finds.map (f : α → β) (hfinds : Finds rest result expected) :
    Finds rest (result.map fun (value, rest) => (f value, rest)) (expected.map f) := by
  cases hfinds with
  | found hgap => exact .found hgap
  | failed error => exact .failed error

theorem finds_self (found : α) (rest : List Char) : Finds rest (.ok (found, rest)) (some found) :=
  .found isGap_nil

/-- `read` takes no notice of space in front. -/
def SkipsSpace (read : List Char → Except ReadError (α × List Char)) : Prop :=
  ∀ text, read (skipSpace text) = read text

theorem SkipsSpace.gap_append (hskips : SkipsSpace read) (hgap : IsGap gap) (text : List Char) :
    read (gap ++ text) = read text := by
  rw [← hskips (gap ++ text), skipSpace_append hgap, hskips]

theorem skipSpace_skipSpace (text : List Char) : skipSpace (skipSpace text) = skipSpace text :=
  List.dropWhile_idempotent _ _

theorem skipsSpace_readText : SkipsSpace readText := by
  intro text
  rw [readText, readText, skipSpace_skipSpace]

theorem skipsSpace_readOptionalText : SkipsSpace readOptionalText := by
  intro text
  rw [readOptionalText, readOptionalText, skipSpace_skipSpace, skipsSpace_readText]

theorem skipsSpace_readName : SkipsSpace (readName strict) := by
  intro text
  rw [readName, readName, skipSpace_skipSpace]

theorem skipsSpace_readCommand : SkipsSpace readCommand := by
  intro text
  rw [readCommand, readCommand, skipSpace_skipSpace]

section Grammar

variable {Text Number : Type} {spelling : Spelling Text Number} {tree : Tree Text Number}

/-- Space around a text changes nothing. -/
theorem readsAs_of_bare (hskips : SkipsSpace read) (htext : Spells spelling tree text)
    (hbare : ∀ {text}, SpellsBare spelling tree text → ReadsAs read expected text) :
    ReadsAs read expected text := by
  intro rest hrest
  obtain ⟨before, bare, after, rfl, hbefore, hafter, htree⟩ := htext.spacedBare
  rw [List.append_assoc, List.append_assoc, hskips.gap_append hbefore]
  have hfinds := hbare htree (hrest.gap_append hafter)
  generalize read (bare ++ (after ++ rest)) = result at hfinds
  cases hfinds with
  | found hgap =>
      rw [← List.append_assoc]
      exact .found (List.forall_mem_append.mpr ⟨hgap, hafter⟩)
  | failed error => exact .failed error

/-- A grammatical spelling together with the texts of its strings. -/
structure Legible (spelling : Spelling Text Number) (text? : Text → Option String) : Prop
    extends spelling.IsGrammatical where
  readString : ∀ {string text}, spelling.string string text → ∀ rest,
    readString (text ++ '"' :: rest) =
      match text? string with
      | some string => .ok (string, rest)
      | none => .error .malformed

variable {text? : Text → Option String}

/-! ## Strings -/

theorem Legible.finds_string (hlegible : Legible spelling text?) {string : Text}
    (hstring : spelling.string string text) :
    Finds rest (Json.readString (text ++ '"' :: rest)) (text? string) := by
  rw [hlegible.readString hstring]
  cases text? string with
  | some string => exact finds_self string rest
  | none => exact .failed _

/-- A number begins with its sign or with a digit. -/
theorem Legible.exists_number_cons (hlegible : Legible spelling text?) {number : Number}
    (hnumber : spelling.number number text) :
    ∃ char later, text = char :: later ∧ isSpace char = false ∧
      ∀ other, other ≠ '-' → other.isDigit = false → char ≠ other := by
  obtain ⟨numeral, hnumeral⟩ := hlegible.number hnumber
  have hskimmed : skimmedSpelling.number () text := ⟨numeral, hnumeral⟩
  obtain ⟨char, later, rfl, _, hspace, hother⟩ := skim_reads.exists_number_cons hskimmed
  exact ⟨char, later, rfl, hspace, hother⟩

theorem readText_cons {char : Char} (hspace : isSpace char = false) (hquote : char ≠ '"')
    (rest : List Char) :
    readText (char :: rest) = .error (unexpected "a string" char rest) := by
  rw [readText, skipSpace_cons hspace]
  split
  · contradiction
  · simp_all
  · simp_all

theorem readsAs_readText (hlegible : Legible spelling text?) (htext : Spells spelling tree text) :
    ReadsAs readText (stringOf? text? tree) text := by
  refine readsAs_of_bare skipsSpace_readText htext fun hbare rest _ => ?_
  cases hbare with
  | string hstring =>
      rw [List.cons_append, List.append_assoc]
      exact hlegible.finds_string hstring
  | number hnumber =>
      obtain ⟨char, later, rfl, hspace, hother⟩ := hlegible.exists_number_cons hnumber
      rw [List.cons_append, readText_cons hspace (hother '"' (by decide) rfl)]
      exact .failed _
  | null | yes | no | emptyArray | array | emptyObject | object => exact .failed _

theorem readOptionalText_cons {char : Char} (hspace : isSpace char = false) (hnull : char ≠ 'n')
    (rest : List Char) :
    readOptionalText (char :: rest) =
      (readText (char :: rest)).map fun (string, rest) => (some string, rest) := by
  rw [readOptionalText, skipSpace_cons hspace]
  split
  · simp_all
  · rfl

theorem readsAs_readOptionalText (hlegible : Legible spelling text?)
    (htext : Spells spelling tree text) :
    ReadsAs readOptionalText (optionalOf? text? tree) text := by
  refine readsAs_of_bare skipsSpace_readOptionalText htext fun hbare rest _ => ?_
  cases hbare with
  | null => exact finds_self none rest
  | string hstring =>
      rw [List.cons_append, List.append_assoc]
      exact (hlegible.finds_string hstring).map some
  | number hnumber =>
      obtain ⟨char, later, rfl, hspace, hother⟩ := hlegible.exists_number_cons hnumber
      rw [List.cons_append, readOptionalText_cons hspace (hother 'n' (by decide) rfl),
        readText_cons hspace (hother '"' (by decide) rfl)]
      exact .failed _
  | yes | no | emptyArray | array | emptyObject | object => exact .failed _

theorem readsAs_readName (hlegible : Legible spelling text?) {name : Text}
    (hname : Spells spelling (.string name) text) :
    ReadsAs (readName strict) (text? name) text := by
  refine readsAs_of_bare skipsSpace_readName hname fun hbare rest _ => ?_
  cases hbare with
  | string hstring =>
      rw [List.cons_append, List.append_assoc]
      exact hlegible.finds_string hstring

/-! ## Members -/

theorem finds_readMember (hlegible : Legible spelling text?) (fields : Fields)
    (field? : Option Field) (htext : Spells spelling tree text) (hgap : IsGap gap)
    (hrest : Ends rest) :
    Finds rest (readMember fields field? (gap ++ ':' :: (text ++ rest)))
      (fields.fill? text? field? tree) := by
  have hcolon := readColon_append hgap (text ++ rest)
  cases field? with
  | none =>
      obtain ⟨space, hspace, hskim⟩ :=
        skim_of_spells hlegible.toIsGrammatical htext hrest
      simp only [readMember, Fields.fill?, hcolon, Except.bind, hskim]
      exact .found hspace
  | some field =>
      simp only [readMember, Fields.fill?]
      split
      · exact .failed _
      · simp only [hcolon, Except.bind]
        cases field with
        | id => exact (readsAs_readOptionalText hlegible htext hrest).map _
        | text field =>
            exact (readsAs_readText hlegible htext hrest).map (fields.setText · field)

theorem ends_colon (rest : List Char) : Ends (':' :: rest) := ends_cons (by decide) rest

/-- Reading a member and what follows it. -/
theorem finds_readFields_cons (hlegible : Legible spelling text?) {fuel : Nat} {fields : Fields}
    {name : Text} {label later : List Char} {filled : Fields → Option Fields}
    (hname : Spells spelling (.string name) label) (htext : Spells spelling tree text)
    (hlater : Ends later)
    (hcontinue : ∀ {gap fields}, IsGap gap →
      Finds rest (match readContinuation '\x7d' (gap ++ later) with
        | .error error => .error error
        | .ok (.done, rest) => .ok (fields, rest)
        | .ok (.more, rest) => readFields fuel fields rest) (filled fields)) :
    Finds rest (readFields (fuel + 1) fields (label ++ ':' :: (text ++ later)))
      ((text? name).bind fun name =>
        (fields.fill? text? (Field.ofKey? name) tree).bind filled) := by
  have hfinds := readsAs_readName hlegible hname (ends_colon (text ++ later))
  rw [readFields]
  generalize readName strict (label ++ ':' :: (text ++ later)) = result, text? name = name?
    at hfinds
  cases hfinds with
  | failed error => exact .failed error
  | @found name gap hgap =>
      have hmember := finds_readMember hlegible fields (Field.ofKey? name) htext hgap hlater
      simp only [Option.bind_some]
      generalize readMember fields (Field.ofKey? name) (gap ++ ':' :: (text ++ later)) = result,
        fields.fill? text? (Field.ofKey? name) tree = filled? at hmember
      cases hmember with
      | failed error => exact .failed error
      | found hspace => exact hcontinue hspace

/-- The members of an object are read one after the other. -/
theorem finds_readFields (hlegible : Legible spelling text?) :
    ∀ {members text}, SpellsMembers spelling members text →
      ∀ {fuel : Nat} {fields : Fields} {rest : List Char}, text.length < fuel →
        Finds rest (readFields fuel fields (text ++ '\x7d' :: rest))
          (fields.fillAll? text? members)
  | _, _, .last hname hvalue, fuel, fields, rest, hfuel => by
      obtain ⟨fuel, rfl⟩ := Nat.exists_eq_add_one.mpr (Nat.zero_lt_of_lt hfuel)
      rw [List.append_assoc, List.cons_append]
      refine finds_readFields_cons hlegible hname hvalue (ends_brace rest) fun hgap => ?_
      simp only [readContinuation_done (by rfl : isSpace '\x7d' = false) (by decide) hgap]
      exact finds_self _ rest
  | _, _, .cons hname hvalue hlater, fuel, fields, rest, hfuel => by
      obtain ⟨fuel, rfl⟩ := Nat.exists_eq_add_one.mpr (Nat.zero_lt_of_lt hfuel)
      simp only [List.length_append, List.length_cons] at hfuel
      simp only [List.append_assoc, List.cons_append]
      refine finds_readFields_cons hlegible hname hvalue (ends_comma _) fun hgap => ?_
      simp only [readContinuation_more _ hgap]
      exact finds_readFields hlegible hlater (by omega)

/-! ## Objects -/

theorem finds_readObject {fields? : Option Fields} {after : List Char}
    (hfinds : Finds rest (readAllFields after) fields?) :
    Finds rest (readObject after) (fields?.bind fun fields => fields.toCommand.toOption) := by
  rw [readObject]
  generalize readAllFields after = result at hfinds
  cases hfinds with
  | failed error => exact .failed error
  | @found fields gap hgap =>
      simp only [Option.bind_some]
      cases fields.toCommand with
      | error mismatch => exact .failed _
      | ok command => exact .found hgap

/-- What is written in front of the first member's name is space. -/
theorem skipSpace_members {members : List (Text × Tree Text Number)}
    (hmembers : SpellsMembers spelling members text) (rest : List Char) :
    ∃ later, skipSpace (text ++ rest) = '"' :: later := by
  have hlabel : ∀ {name : Text} {label : List Char}, Spells spelling (.string name) label →
      ∀ later, ∃ behind, skipSpace (label ++ later) = '"' :: behind := by
    intro name label hname later
    obtain ⟨before, bare, after, rfl, hbefore, _, hbare⟩ := hname.spacedBare
    cases hbare
    rw [List.append_assoc, List.append_assoc, skipSpace_append hbefore]
    exact ⟨_, skipSpace_cons rfl _⟩
  cases hmembers with
  | last hname _ =>
      rw [List.append_assoc]
      exact hlabel hname _
  | cons hname _ _ =>
      rw [List.append_assoc, List.append_assoc]
      exact hlabel hname _

theorem finds_readAllFields_nil (hgap : IsGap gap) :
    Finds rest (readAllFields (gap ++ '\x7d' :: rest)) (some {}) := by
  rw [readAllFields, skipSpace_append_cons hgap rfl]
  exact finds_self ({} : Fields) rest

theorem finds_readAllFields (hlegible : Legible spelling text?)
    {members : List (Text × Tree Text Number)} (hmembers : SpellsMembers spelling members text) :
    Finds rest (readAllFields (text ++ '\x7d' :: rest)) (Fields.fillAll? text? {} members) := by
  have hfuel : text.length < (text ++ '\x7d' :: rest).length + 1 := by
    rw [List.length_append]
    omega
  obtain ⟨later, hlater⟩ := skipSpace_members hmembers ('\x7d' :: rest)
  rw [readAllFields, hlater]
  exact finds_readFields hlegible hmembers hfuel

/-! ## Lists -/

/-- What follows an item of a list: the items behind it, each after a comma, and the closing
bracket. -/
inductive SpellsTail (spelling : Spelling Text Number) : List (Tree Text Number) → List Char → Prop
  | done {gap : List Char} (hgap : IsGap gap) : SpellsTail spelling [] (gap ++ [']'])
  | more {gap : List Char} {item : Tree Text Number} {items : List (Tree Text Number)}
      {text later : List Char} (hgap : IsGap gap) (hitem : Spells spelling item text)
      (hlater : SpellsTail spelling items later) :
      SpellsTail spelling (item :: items) (gap ++ ',' :: (text ++ later))

/-- What follows the opening bracket of a list. -/
inductive SpellsList (spelling : Spelling Text Number) : List (Tree Text Number) → List Char → Prop
  | empty {gap : List Char} (hgap : IsGap gap) : SpellsList spelling [] (gap ++ [']'])
  | items {item : Tree Text Number} {items : List (Tree Text Number)} {text later : List Char}
      (hitem : Spells spelling item text) (hlater : SpellsTail spelling items later) :
      SpellsList spelling (item :: items) (text ++ later)

variable {items : List (Tree Text Number)} {tail : List Char}

theorem spellsTail_of_items {text : List Char} (hitems : SpellsItems spelling items text) :
    SpellsTail spelling items (',' :: (text ++ [']'])) := by
  induction items generalizing text with
  | nil => cases hitems
  | cons item items ih =>
      cases hitems with
      | last hitem => exact .more isGap_nil hitem (.done isGap_nil)
      | cons hitem hlater =>
          rw [List.append_assoc, List.cons_append]
          exact .more isGap_nil hitem (ih hlater)

theorem spellsList_of_items {text : List Char} (hitems : SpellsItems spelling items text) :
    SpellsList spelling items (text ++ [']']) := by
  cases hitems with
  | last hitem => exact .items hitem (.done isGap_nil)
  | cons hitem hlater =>
      rw [List.append_assoc, List.cons_append]
      exact .items hitem (spellsTail_of_items hlater)

theorem spellsTail_nil (spelling : Spelling Text Number) : SpellsTail spelling [] [']'] :=
  .done isGap_nil

theorem SpellsTail.gap_append (hgap : IsGap gap) (htail : SpellsTail spelling items tail) :
    SpellsTail spelling items (gap ++ tail) := by
  cases htail with
  | done hinner =>
      rw [← List.append_assoc]
      exact .done (List.forall_mem_append.mpr ⟨hgap, hinner⟩)
  | more hinner hitem hlater =>
      rw [← List.append_assoc]
      exact .more (List.forall_mem_append.mpr ⟨hgap, hinner⟩) hitem hlater

theorem SpellsTail.ends (htail : SpellsTail spelling items tail) (rest : List Char) :
    Ends (tail ++ rest) := by
  cases htail with
  | done hgap =>
      rw [List.append_assoc]
      exact Ends.gap_append hgap (ends_bracket rest)
  | more hgap hitem hlater =>
      rw [List.append_assoc]
      exact Ends.gap_append hgap (ends_comma _)

/-- No value begins with a closing bracket. -/
theorem exists_skipSpace_eq_cons (hlegible : Legible spelling text?)
    (htext : Spells spelling tree text) (rest : List Char) :
    ∃ char later, skipSpace (text ++ rest) = char :: later ∧ char ≠ ']' := by
  obtain ⟨before, bare, after, rfl, hbefore, _, hbare⟩ := htext.spacedBare
  rw [List.append_assoc, List.append_assoc, skipSpace_append hbefore]
  cases hbare with
  | number hnumber =>
      obtain ⟨char, later, rfl, hspace, hother⟩ := hlegible.exists_number_cons hnumber
      exact ⟨_, _, skipSpace_cons hspace _, hother ']' (by decide) rfl⟩
  | null | yes | no | string | emptyArray | array | emptyObject | object =>
      exact ⟨_, _, skipSpace_cons rfl _, by decide⟩

/-- What reading an item of a list in front of `rest` comes to: it finds the next item, unless there
is none, and stops behind it, or it fails, if the item is not what it should be. -/
inductive FindsNext (spelling : Spelling Text Number) (rest : List Char) :
    Except ReadError (Option α × List Char) → Option (Option α × List (Tree Text Number)) → Prop
  | found {found? : Option α} {items : List (Tree Text Number)} {tail : List Char}
      (htail : SpellsTail spelling items tail) :
      FindsNext spelling rest (.ok (found?, tail ++ rest)) (some (found?, items))
  | failed (error : ReadError) : FindsNext spelling rest (.error error) none

/-- `read` finds in the texts of a value what `decode` makes of the value. -/
def Decodes (spelling : Spelling Text Number)
    (read : List Char → Except ReadError (α × List Char)) (decode : Tree Text Number → Option α) :
    Prop :=
  ∀ {tree text}, Spells spelling tree text → ReadsAs read (decode tree) text

theorem findsNext_item {decode : Tree Text Number → Option α} (rest : List Char)
    (hdecodes : Decodes spelling read decode) (htext : Spells spelling tree text)
    (htail : SpellsTail spelling items tail) :
    FindsNext spelling rest
      ((read (text ++ (tail ++ rest))).map fun (item, rest) => (some item, rest))
      (next? decode (tree :: items)) := by
  have hfinds := hdecodes htext (htail.ends rest)
  rw [next?]
  generalize read (text ++ (tail ++ rest)) = result, decode tree = expected at hfinds
  cases hfinds with
  | failed error => exact .failed error
  | found hgap =>
      show FindsNext spelling rest (.ok (some _, _ ++ (tail ++ rest))) _
      rw [← List.append_assoc]
      exact .found (htail.gap_append hgap)

theorem findsNext_first {decode : Tree Text Number → Option α} (hlegible : Legible spelling text?)
    (hskips : SkipsSpace read) (hdecodes : Decodes spelling read decode)
    (htext : SpellsList spelling items text) :
    FindsNext spelling rest (readItem? true read (text ++ rest)) (next? decode items) := by
  cases htext with
  | empty hgap =>
      rw [readItem?, List.append_assoc, List.singleton_append, skipSpace_append_cons hgap rfl]
      exact .found (spellsTail_nil spelling)
  | items hitem hlater =>
      rename_i tail
      obtain ⟨char, later, hskip, hchar⟩ := exists_skipSpace_eq_cons hlegible hitem (tail ++ rest)
      have hnext := findsNext_item rest hdecodes hitem hlater
      rw [← hskips, hskip] at hnext
      rw [readItem?, List.append_assoc, hskip]
      simpa only [hchar, if_false, if_true] using hnext

theorem findsNext_tail {decode : Tree Text Number → Option α} (hlegible : Legible spelling text?)
    (hskips : SkipsSpace read) (hdecodes : Decodes spelling read decode)
    (htail : SpellsTail spelling items tail) :
    FindsNext spelling rest (readItem? false read (tail ++ rest)) (next? decode items) := by
  cases htail with
  | done hgap =>
      rw [readItem?, List.append_assoc, List.singleton_append, skipSpace_append_cons hgap rfl]
      exact .found (spellsTail_nil spelling)
  | more hgap hitem hlater =>
      rename_i later
      obtain ⟨char, behind, hskip, hchar⟩ := exists_skipSpace_eq_cons hlegible hitem (later ++ rest)
      have hnext := findsNext_item rest hdecodes hitem hlater
      rw [← hskips, hskip] at hnext
      rw [readItem?, List.append_assoc, List.cons_append, skipSpace_append_cons hgap rfl,
        List.append_assoc]
      simp only [hskip]
      rw [if_neg (by decide), if_neg (by decide), if_pos trivial]
      split
      · contradiction
      · simp_all
      · exact hnext

theorem finds_readClose {command : Command} (htail : SpellsTail spelling items tail) :
    Finds rest ((readClose (tail ++ rest)).map fun rest => (command, rest))
      (if items.isEmpty then some command else none) := by
  cases htail with
  | done hgap =>
      rw [readClose, List.append_assoc, List.singleton_append, skipSpace_append_cons hgap rfl]
      exact finds_self command rest
  | more hgap hitem hlater =>
      rw [readClose, List.append_assoc, List.cons_append, skipSpace_append_cons hgap rfl]
      exact .failed _

/-- Reading goes on behind an item. -/
theorem FindsNext.bind {result : Except ReadError (Option α × List Char)}
    {next : Option (Option α × List (Tree Text Number))}
    {readMore : Option α × List Char → Except ReadError (β × List Char)}
    {decodeMore : Option α × List (Tree Text Number) → Option β}
    (hnext : FindsNext spelling rest result next)
    (hmore : ∀ {found? items tail}, SpellsTail spelling items tail →
      Finds rest (readMore (found?, tail ++ rest)) (decodeMore (found?, items))) :
    Finds rest (result >>= readMore) (next >>= decodeMore) := by
  cases hnext with
  | failed error => exact .failed error
  | found htail => exact hmore htail

/-- The items of a list are read one after the other. -/
theorem finds_readList (hlegible : Legible spelling text?)
    (htext : SpellsList spelling items text) :
    Finds rest (readList (text ++ rest)) (listed? text? items) := by
  have hoptional : Decodes spelling readOptionalText (optionalOf? text?) :=
    readsAs_readOptionalText hlegible
  have hstring : Decodes spelling readText (stringOf? text?) := readsAs_readText hlegible
  have hnext : ∀ {items tail}, SpellsTail spelling items tail →
      FindsNext spelling rest (readItem? false readText (tail ++ rest))
        (next? (stringOf? text?) items) :=
    findsNext_tail hlegible skipsSpace_readText hstring
  refine (findsNext_first hlegible skipsSpace_readOptionalText hoptional htext).bind
    fun {id items tail} htail => ?_
  refine (hnext htail).bind fun {name items tail} htail => ?_
  cases name with
  | none => exact .failed _
  | some name =>
      refine (hnext htail).bind fun {target items tail} htail => ?_
      refine (hnext htail).bind fun {value items tail} htail => ?_
      refine (hnext htail).bind fun {comment items tail} htail => ?_
      exact finds_readClose htail

/-! ## Commands -/

theorem readCommand_cons {char : Char} (hspace : isSpace char = false) (hbrace : char ≠ '\x7b')
    (hbracket : char ≠ '[') (rest : List Char) :
    readCommand (char :: rest) = .error (unexpected "struct Command" char rest) := by
  rw [readCommand, skipSpace_cons hspace]
  split <;> simp_all

/-- Whatever value a text is of, a command is read from it exactly if the value is one. -/
theorem reads_command (hlegible : Legible spelling text?) (htext : Spells spelling tree text) :
    ReadsAs readCommand (meant? text? tree) text := by
  refine readsAs_of_bare skipsSpace_readCommand htext fun hbare rest _ => ?_
  cases hbare with
  | emptyArray hgap => exact finds_readList hlegible (.empty hgap)
  | array hitems => exact finds_readList hlegible (spellsList_of_items hitems)
  | emptyObject hgap =>
      rw [List.cons_append, List.append_assoc, List.singleton_append]
      exact finds_readObject (finds_readAllFields_nil hgap)
  | object hmembers =>
      rw [List.cons_append, List.append_assoc, List.singleton_append]
      exact finds_readObject (finds_readAllFields hlegible hmembers)
  | number hnumber =>
      obtain ⟨char, later, rfl, hspace, hother⟩ := hlegible.exists_number_cons hnumber
      rw [List.cons_append, readCommand_cons hspace (hother '\x7b' (by decide) rfl)
        (hother '[' (by decide) rfl)]
      exact .failed _
  | null | yes | no | string => exact .failed _

end Grammar

end Reading

end Recording

/-- A text holds a command exactly if the value that the text is of is one. -/
theorem Command.read_of_spells {Text Number : Type} {spelling : Spelling Text Number}
    {text? : Text → Option String} {tree : Tree Text Number} {text : String}
    (hlegible : Recording.Legible spelling text?) (htext : Spells spelling tree text.toList) :
    (Command.read text).toOption = Recording.meant? text? tree := by
  have hends : Ends [] := fun char hchar => absurd hchar (Option.not_mem_none char)
  have hfinds := Recording.reads_command hlegible htext hends
  rw [List.append_nil] at hfinds
  rw [read]
  generalize Recording.readCommand text.toList = result, Recording.meant? text? tree = expected
    at hfinds
  cases hfinds with
  | failed error => rfl
  | found hgap =>
      rw [List.append_nil]
      simp only [expectEnd_of_isGap hgap]
      rfl

end StepFlow
