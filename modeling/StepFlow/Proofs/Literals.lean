import StepFlow.Proofs.JsonReading
import StepFlow.Proofs.Results

/-!
# Literals as they are written

Every string literal is made of characters and of code units that are written by number, and every
number literal is a numeral.  A literal may have no value: a surrogate may lack its partner, and a
number may be too large for a double.  This file is about all texts that are grammatical, with a
value or without: which strings can be read, and that skimming takes no notice of values.
Main statements: `readString_of_pieces` and `skim_of_spells`.
-/

namespace StepFlow.Json

/-! ## Strings -/

/-- The spellings of a part of a string: a character is written as itself or by a short escape, and
a code unit by its four digits. -/
inductive SpellsPiece : Piece → List Char → Prop
  | plain {char : Char} (hcontrol : 0x20 ≤ char.toNat) (hquote : char ≠ '"')
      (hbackslash : char ≠ '\\') : SpellsPiece (.char char) [char]
  | short {char letter : Char} (hletter : shortEscape? letter = some char) :
      SpellsPiece (.char char) ['\\', letter]
  | unit {a b c d : Char} {code : Nat} (hcode : Text.hexNumber? [a, b, c, d] = some code) :
      SpellsPiece (.unit code) ['\\', 'u', a, b, c, d]

inductive SpellsPieces : List Piece → List Char → Prop
  | nil : SpellsPieces [] []
  | cons {piece : Piece} {pieces : List Piece} {text later : List Char}
      (hpiece : SpellsPiece piece text) (hlater : SpellsPieces pieces later) :
      SpellsPieces (piece :: pieces) (text ++ later)

/-- The character can stand for itself between quotes. -/
def isPlain (char : Char) : Bool := 0x20 ≤ char.toNat && char != '"' && char != '\\'

/-- The pieces of a string in which every character stands for itself. -/
def plainPieces (text : String) : List Piece := text.toList.map .char

/-- No surrogate lacks its partner. -/
inductive Paired : List Piece → Prop
  | nil : Paired []
  | char {char : Char} {later : List Piece} (hlater : Paired later) : Paired (.char char :: later)
  | unit {code : Nat} {later : List Piece} (hlead : isLead code = false)
      (htrail : isTrail code = false) (hlater : Paired later) : Paired (.unit code :: later)
  | pair {lead trail : Nat} {later : List Piece} (hlead : isLead lead = true)
      (htrail : isTrail trail = true) (hlater : Paired later) :
      Paired (.unit lead :: .unit trail :: later)

/-- The string that pieces write, if every surrogate has its partner. -/
def textOf? (pieces : List Piece) : Option String := (decode pieces).toOption.map String.ofList

section Strings

variable {piece : Piece} {pieces : List Piece} {char : Char} {chars text rest : List Char}

theorem isTrail_of_isLead {code : Nat} (hlead : isLead code = true) : isTrail code = false := by
  simp only [isLead, Bool.and_eq_true, decide_eq_true_eq] at hlead
  simp only [isTrail, Bool.and_eq_false_iff, decide_eq_false_iff_not]
  omega

/-- Exactly the strings in which no surrogate lacks its partner have a text. -/
theorem isSome_textOf?_iff : (textOf? pieces).isSome = true ↔ Paired pieces := by
  rw [textOf?, Option.isSome_map]
  fun_induction decode pieces with
  | case1 => exact iff_of_true rfl .nil
  | case2 char later ih =>
      rw [isSome_toOption_map, ih]
      exact ⟨.char, fun | .char hlater => hlater⟩
  | case3 code later htrail =>
      refine iff_of_false nofun fun hpaired => ?_
      cases hpaired with
      | unit _ hother _ => simp [hother] at htrail
      | pair hlead _ _ => simp [isTrail_of_isLead hlead] at htrail
  | case4 code htrail hlead =>
      refine iff_of_false nofun fun hpaired => ?_
      cases hpaired with
      | unit hother _ _ => simp [hother] at hlead
  | case5 code htrail hlead char later =>
      refine iff_of_false nofun fun hpaired => ?_
      cases hpaired with
      | unit hother _ _ => simp [hother] at hlead
  | case6 code htrail hlead trail later hpair ih =>
      rw [isSome_toOption_map, ih]
      refine ⟨.pair hlead hpair, fun hpaired => ?_⟩
      cases hpaired with
      | unit hother _ _ => simp [hother] at hlead
      | pair _ _ hlater => exact hlater
  | case7 code htrail hlead trail later hpair =>
      refine iff_of_false nofun fun hpaired => ?_
      cases hpaired with
      | unit hother _ _ => simp [hother] at hlead
      | pair _ hother _ => exact hpair hother
  | case8 code later htrail hlead ih =>
      rw [isSome_toOption_map, ih]
      refine ⟨.unit (by simpa using hlead) (by simpa using htrail), fun hpaired => ?_⟩
      cases hpaired with
      | unit _ _ hlater => exact hlater
      | pair hother _ _ => exact absurd hother hlead

/-! ### Scanning -/

theorem SpellsPiece.scanString_append (hpiece : SpellsPiece piece text) (rest : List Char) :
    scanString (text ++ rest) = (piece :: (scanString rest).1, (scanString rest).2) := by
  cases hpiece with
  | plain hcontrol hquote hbackslash => exact scanString_plain hcontrol hquote hbackslash rest
  | short hletter => exact scanString_short hletter rest
  | unit hcode => exact scanString_unit hcode rest

theorem SpellsPieces.scanString_append (hpieces : SpellsPieces pieces text) (rest : List Char) :
    scanString (text ++ '"' :: rest) = (pieces, .ok rest) := by
  induction hpieces with
  | nil => rfl
  | cons hpiece _ ih => rw [List.append_assoc, hpiece.scanString_append, ih]

/-- Characters that need no escape write themselves. -/
theorem spellsPieces_plainPieces {string : String} (hplain : string.toList.all isPlain = true) :
    SpellsPieces (plainPieces string) string.toList := by
  rw [plainPieces]
  generalize string.toList = chars at hplain
  induction chars with
  | nil => exact .nil
  | cons char chars ih =>
      simp only [List.all_cons, isPlain, Bool.and_eq_true, decide_eq_true_eq, bne_iff_ne] at hplain
      obtain ⟨⟨⟨hcontrol, hquote⟩, hbackslash⟩, hlater⟩ := hplain
      exact .cons (.plain hcontrol hquote hbackslash) (ih hlater)

/-- A string is read if every surrogate has its partner, and otherwise refused. -/
theorem readString_of_pieces (hpieces : SpellsPieces pieces text) (rest : List Char) :
    readString (text ++ '"' :: rest) =
      match textOf? pieces with
      | some string => .ok (string, rest)
      | none => .error .malformed := by
  simp only [readString, hpieces.scanString_append, textOf?]
  cases decode pieces with
  | ok chars => rfl
  | error lone => cases lone <;> rfl

theorem skimString_of_pieces (hpieces : SpellsPieces pieces text) (rest : List Char) :
    skimString (text ++ '"' :: rest) = .ok ((), rest) := by
  rw [skimString, hpieces.scanString_append]
  rfl

/-- A character is made of one piece, or of a surrogate pair. -/
theorem SpellsChar.exists_spellsPieces (hchar : SpellsChar char text) :
    ∃ pieces, SpellsPieces pieces text := by
  have hone : ∀ {piece}, SpellsPiece piece text → ∃ pieces, SpellsPieces pieces text := by
    intro piece hpiece
    have hpieces := SpellsPieces.cons hpiece .nil
    rw [List.append_nil] at hpieces
    exact ⟨_, hpieces⟩
  cases hchar with
  | plain hcontrol hquote hbackslash => exact hone (.plain hcontrol hquote hbackslash)
  | short hletter => exact hone (.short hletter)
  | unit hcode => exact hone (.unit hcode)
  | pair hlead _ htrail _ _ => exact ⟨_, .cons (.unit hlead) (.cons (.unit htrail) .nil)⟩

theorem SpellsPieces.append {later : List Piece} {textLater : List Char}
    (hpieces : SpellsPieces pieces text) (hlater : SpellsPieces later textLater) :
    SpellsPieces (pieces ++ later) (text ++ textLater) := by
  induction hpieces with
  | nil => exact hlater
  | cons hpiece _ ih =>
      rw [List.append_assoc]
      exact .cons hpiece ih

theorem SpellsChars.exists_spellsPieces (hchars : SpellsChars chars text) :
    ∃ pieces, SpellsPieces pieces text := by
  induction hchars with
  | nil => exact ⟨[], .nil⟩
  | cons hchar _ ih =>
      obtain ⟨first, hfirst⟩ := hchar.exists_spellsPieces
      obtain ⟨pieces, hpieces⟩ := ih
      exact ⟨first ++ pieces, hfirst.append hpieces⟩

end Strings

/-! ## Values -/

/-- The spelling of everything that is grammatical: strings as pieces, and numbers of any size. -/
def literalSpelling : Spelling (List Piece) Numeral := ⟨SpellsPieces, SpellsNumeral⟩

/-- The spelling of strings and numbers whose values are not asked for. -/
def skimmedSpelling : Spelling Unit Unit where
  string _ text := ∃ pieces, SpellsPieces pieces text
  number _ text := ∃ numeral, SpellsNumeral numeral text

theorem skim_reads : skim.Reads skimmedSpelling where
  string := fun ⟨_, hpieces⟩ rest => skimString_of_pieces hpieces rest
  number := fun ⟨_, hnumeral⟩ _ hrest => by
    show skimNumeral _ = _
    rw [skimNumeral, scanNumeral_append hnumeral hrest]
  exists_cons := fun ⟨_, hnumeral⟩ => hnumeral.exists_cons

section Values

variable {Text Number : Type} {spelling : Spelling Text Number}

/-- Every literal of the spelling is grammatical. -/
structure Spelling.IsGrammatical (spelling : Spelling Text Number) : Prop where
  string : ∀ {string text}, spelling.string string text → ∃ pieces, SpellsPieces pieces text
  number : ∀ {number text}, spelling.number number text → ∃ numeral, SpellsNumeral numeral text

theorem literalSpelling_isGrammatical : literalSpelling.IsGrammatical where
  string hstring := ⟨_, hstring⟩
  number hnumber := ⟨_, hnumber⟩

theorem plainSpelling_isGrammatical : plainSpelling.IsGrammatical where
  string hstring := SpellsChars.exists_spellsPieces hstring
  number hnumber := ⟨_, hnumber.1⟩

namespace Tree

mutual

/-- What is left of a value when its literals are not asked for. -/
def skimmed : Tree Text Number → Tree Unit Unit
  | null => null
  | boolean value => boolean value
  | number _ => number ()
  | string _ => string ()
  | array items => array (skimmedItems items)
  | object members => object (skimmedMembers members)

def skimmedItems : List (Tree Text Number) → List (Tree Unit Unit)
  | [] => []
  | item :: items => skimmed item :: skimmedItems items

def skimmedMembers : List (Text × Tree Text Number) → List (Unit × Tree Unit Unit)
  | [] => []
  | (_, value) :: members => ((), skimmed value) :: skimmedMembers members

end

end Tree

mutual

theorem Spells.skimmed (hgrammatical : spelling.IsGrammatical) :
    ∀ {tree text}, Spells spelling tree text → Spells skimmedSpelling tree.skimmed text
  | _, _, .null => .null
  | _, _, .yes => .yes
  | _, _, .no => .no
  | _, _, .number hnumber => .number (hgrammatical.number hnumber)
  | _, _, .string hstring => .string (hgrammatical.string hstring)
  | _, _, .emptyArray hgap => .emptyArray hgap
  | _, _, .array hitems => .array (hitems.skimmed hgrammatical)
  | _, _, .emptyObject hgap => .emptyObject hgap
  | _, _, .object hmembers => .object (hmembers.skimmed hgrammatical)
  | _, _, .spaced hbefore htext hafter => .spaced hbefore (htext.skimmed hgrammatical) hafter

theorem SpellsItems.skimmed (hgrammatical : spelling.IsGrammatical) :
    ∀ {items text}, SpellsItems spelling items text →
      SpellsItems skimmedSpelling (Tree.skimmedItems items) text
  | _, _, .last hitem => .last (hitem.skimmed hgrammatical)
  | _, _, .cons hitem hlater => .cons (hitem.skimmed hgrammatical) (hlater.skimmed hgrammatical)

theorem SpellsMembers.skimmed (hgrammatical : spelling.IsGrammatical) :
    ∀ {members text}, SpellsMembers spelling members text →
      SpellsMembers skimmedSpelling (Tree.skimmedMembers members) text
  | _, _, .last hname hvalue =>
      .last (hname.skimmed hgrammatical) (hvalue.skimmed hgrammatical)
  | _, _, .cons hname hvalue hlater =>
      .cons (hname.skimmed hgrammatical) (hvalue.skimmed hgrammatical)
        (hlater.skimmed hgrammatical)

end

/-- Any grammatical text is skimmed, up to space behind the value. -/
theorem skim_of_spells {tree : Tree Text Number} {text rest : List Char}
    (hgrammatical : spelling.IsGrammatical) (htext : Spells spelling tree text)
    (hrest : Ends rest) :
    ∃ gap, IsGap gap ∧ skim.read (text ++ rest) = .ok (tree.skimmed, gap ++ rest) := by
  have hfuel : 2 * text.length ≤ fuelFor (text ++ rest) := by
    rw [fuelFor, List.length_append]
    omega
  have hroom : FitsInto tree.skimmed.depth skim.room :=
    fun limit hlimit => absurd hlimit (Option.not_mem_none limit)
  exact (htext.skimmed hgrammatical).reads skim_reads hfuel hroom hrest

/-- The texts of a value that have no space around them. -/
inductive SpellsBare (spelling : Spelling Text Number) : Tree Text Number → List Char → Prop
  | null : SpellsBare spelling .null ['n', 'u', 'l', 'l']
  | yes : SpellsBare spelling (.boolean true) ['t', 'r', 'u', 'e']
  | no : SpellsBare spelling (.boolean false) ['f', 'a', 'l', 's', 'e']
  | number {number : Number} {text : List Char} (hnumber : spelling.number number text) :
      SpellsBare spelling (.number number) text
  | string {string : Text} {text : List Char} (hstring : spelling.string string text) :
      SpellsBare spelling (.string string) ('"' :: (text ++ ['"']))
  | emptyArray {gap : List Char} (hgap : IsGap gap) :
      SpellsBare spelling (.array []) ('[' :: (gap ++ [']']))
  | array {items : List (Tree Text Number)} {text : List Char}
      (hitems : SpellsItems spelling items text) :
      SpellsBare spelling (.array items) ('[' :: (text ++ [']']))
  | emptyObject {gap : List Char} (hgap : IsGap gap) :
      SpellsBare spelling (.object []) ('\x7b' :: (gap ++ ['\x7d']))
  | object {members : List (Text × Tree Text Number)} {text : List Char}
      (hmembers : SpellsMembers spelling members text) :
      SpellsBare spelling (.object members) ('\x7b' :: (text ++ ['\x7d']))

/-- The text is one of the value without space around it, and space. -/
def SpacedBare (spelling : Spelling Text Number) (tree : Tree Text Number) (text : List Char) :
    Prop :=
  ∃ before bare after, text = before ++ bare ++ after ∧ IsGap before ∧ IsGap after ∧
    SpellsBare spelling tree bare

theorem SpellsBare.spaced {tree : Tree Text Number} {text : List Char}
    (htext : SpellsBare spelling tree text) : SpacedBare spelling tree text :=
  ⟨[], text, [], (List.append_nil text).symm, isGap_nil, isGap_nil, htext⟩

theorem Spells.spacedBare :
    ∀ {tree text}, Spells spelling tree text → SpacedBare spelling tree text
  | _, _, .null => SpellsBare.null.spaced
  | _, _, .yes => SpellsBare.yes.spaced
  | _, _, .no => SpellsBare.no.spaced
  | _, _, .number hnumber => (SpellsBare.number hnumber).spaced
  | _, _, .string hstring => (SpellsBare.string hstring).spaced
  | _, _, .emptyArray hgap => (SpellsBare.emptyArray hgap).spaced
  | _, _, .array hitems => (SpellsBare.array hitems).spaced
  | _, _, .emptyObject hgap => (SpellsBare.emptyObject hgap).spaced
  | _, _, .object hmembers => (SpellsBare.object hmembers).spaced
  | _, _, .spaced hbefore htext hafter => by
      obtain ⟨before, bare, after, rfl, hinner, houter, hbare⟩ := htext.spacedBare
      refine ⟨_ ++ before, bare, after ++ _, ?_, List.forall_mem_append.mpr ⟨hbefore, hinner⟩,
        List.forall_mem_append.mpr ⟨houter, hafter⟩, hbare⟩
      simp only [List.append_assoc]

end Values

end StepFlow.Json
