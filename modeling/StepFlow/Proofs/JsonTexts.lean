import Mathlib.Data.List.TakeWhile
import StepFlow.Json.Value

/-!
# JSON texts

What it is to be a JSON text of a value, as a grammar that looks at no reader: the spellings of a
character between quotes, the parts of a number, and the nesting of lists and objects with space
between all of their tokens.  As with reading, the grammar of nested values leaves open how strings
and numbers are written.  The second half of the file shows that a string and a number are read from
each of their spellings.
Main definitions: `Spells` and `plainSpelling`.
-/

namespace StepFlow.Json

/-! ## Strings -/

/-- The spellings of one character between quotes: itself, a short escape, or the escapes of its
one or two code units. -/
inductive SpellsChar (char : Char) : List Char → Prop
  | plain (hcontrol : 0x20 ≤ char.toNat) (hquote : char ≠ '"') (hbackslash : char ≠ '\\') :
      SpellsChar char [char]
  | short {letter : Char} (hletter : shortEscape? letter = some char) :
      SpellsChar char ['\\', letter]
  | unit {a b c d : Char} (hcode : Text.hexNumber? [a, b, c, d] = some char.toNat) :
      SpellsChar char ['\\', 'u', a, b, c, d]
  | pair {a b c d e f g h : Char} {lead trail : Nat}
      (hlead : Text.hexNumber? [a, b, c, d] = some lead) (hisLead : isLead lead = true)
      (htrail : Text.hexNumber? [e, f, g, h] = some trail) (hisTrail : isTrail trail = true)
      (hchar : char.toNat = 0x10000 + (lead - 0xd800) * 0x400 + (trail - 0xdc00)) :
      SpellsChar char ['\\', 'u', a, b, c, d, '\\', 'u', e, f, g, h]

inductive SpellsChars : (chars text : List Char) → Prop
  | nil : SpellsChars [] []
  | cons {char : Char} {chars text later : List Char} (hchar : SpellsChar char text)
      (hlater : SpellsChars chars later) : SpellsChars (char :: chars) (text ++ later)

/-! ## Numbers -/

/-- Decimal digits, of which there is at least one. -/
structure IsDigits (digits : List Char) : Prop where
  ne_nil : digits ≠ []
  isDigit : ∀ digit ∈ digits, digit.isDigit = true

/-- The digits before the point begin with a zero only if that is all there is. -/
structure IsWhole (digits : List Char) : Prop extends IsDigits digits where
  eq_zero : digits.head? = some '0' → digits = ['0']

inductive SpellsFraction : Option (List Char) → List Char → Prop
  | none : SpellsFraction none []
  | some {digits : List Char} (hdigits : IsDigits digits) :
      SpellsFraction (some digits) ('.' :: digits)

/-- The sign of an exponent, which may be left out unless it is negative. -/
inductive SpellsSign : (negative : Bool) → List Char → Prop
  | none : SpellsSign false []
  | plus : SpellsSign false ['+']
  | minus : SpellsSign true ['-']

inductive SpellsExponent : Option (Bool × List Char) → List Char → Prop
  | none : SpellsExponent none []
  | some {negative : Bool} {mark : Char} {sign digits : List Char}
      (hmark : mark = 'e' ∨ mark = 'E') (hsign : SpellsSign negative sign)
      (hdigits : IsDigits digits) :
      SpellsExponent (some (negative, digits)) (mark :: sign ++ digits)

inductive SpellsNumeral (numeral : Numeral) : List Char → Prop
  | mk {fraction exponent : List Char} (hwhole : IsWhole numeral.whole)
      (hfraction : SpellsFraction numeral.fraction fraction)
      (hexponent : SpellsExponent numeral.exponent exponent) :
      SpellsNumeral numeral
        ((if numeral.negative then ['-'] else []) ++ numeral.whole ++ fraction ++ exponent)

/-! ## Values -/

/-- How strings are written between their quotes, and how numbers are written. -/
structure Spelling (Text Number : Type) where
  string : Text → List Char → Prop
  number : Number → List Char → Prop

/-- The spelling of texts and of numbers that a double can hold. -/
def plainSpelling : Spelling String Numeral where
  string text := SpellsChars text.toList
  number numeral text := SpellsNumeral numeral text ∧ numeral.magnitude?.isSome = true

/-- Only space. -/
def IsGap (text : List Char) : Prop := ∀ char ∈ text, isSpace char = true

theorem isGap_nil : IsGap [] := fun _ hchar => absurd hchar List.not_mem_nil

section Grammar

variable {Text Number : Type}

mutual

/-- The texts of a value, with any space around them. -/
inductive Spells (spelling : Spelling Text Number) : Tree Text Number → List Char → Prop
  | null : Spells spelling .null ['n', 'u', 'l', 'l']
  | yes : Spells spelling (.boolean true) ['t', 'r', 'u', 'e']
  | no : Spells spelling (.boolean false) ['f', 'a', 'l', 's', 'e']
  | number {number : Number} {text : List Char} (hnumber : spelling.number number text) :
      Spells spelling (.number number) text
  | string {string : Text} {text : List Char} (hstring : spelling.string string text) :
      Spells spelling (.string string) ('"' :: (text ++ ['"']))
  | emptyArray {gap : List Char} (hgap : IsGap gap) :
      Spells spelling (.array []) ('[' :: (gap ++ [']']))
  | array {items : List (Tree Text Number)} {text : List Char}
      (hitems : SpellsItems spelling items text) :
      Spells spelling (.array items) ('[' :: (text ++ [']']))
  | emptyObject {gap : List Char} (hgap : IsGap gap) :
      Spells spelling (.object []) ('\x7b' :: (gap ++ ['\x7d']))
  | object {members : List (Text × Tree Text Number)} {text : List Char}
      (hmembers : SpellsMembers spelling members text) :
      Spells spelling (.object members) ('\x7b' :: (text ++ ['\x7d']))
  | spaced {tree : Tree Text Number} {before text after : List Char} (hbefore : IsGap before)
      (htext : Spells spelling tree text) (hafter : IsGap after) :
      Spells spelling tree (before ++ text ++ after)

/-- The texts of items between brackets, of which there is at least one. -/
inductive SpellsItems (spelling : Spelling Text Number) :
    List (Tree Text Number) → List Char → Prop
  | last {item : Tree Text Number} {text : List Char} (hitem : Spells spelling item text) :
      SpellsItems spelling [item] text
  | cons {item : Tree Text Number} {items : List (Tree Text Number)} {text later : List Char}
      (hitem : Spells spelling item text) (hlater : SpellsItems spelling items later) :
      SpellsItems spelling (item :: items) (text ++ ',' :: later)

/-- The texts of members between braces, of which there is at least one. -/
inductive SpellsMembers (spelling : Spelling Text Number) :
    List (Text × Tree Text Number) → List Char → Prop
  | last {name : Text} {value : Tree Text Number} {label text : List Char}
      (hname : Spells spelling (.string name) label) (hvalue : Spells spelling value text) :
      SpellsMembers spelling [(name, value)] (label ++ ':' :: text)
  | cons {name : Text} {value : Tree Text Number} {members : List (Text × Tree Text Number)}
      {label text later : List Char} (hname : Spells spelling (.string name) label)
      (hvalue : Spells spelling value text) (hlater : SpellsMembers spelling members later) :
      SpellsMembers spelling ((name, value) :: members) (label ++ ':' :: text ++ ',' :: later)

end

namespace Tree

mutual

/-- How many containers are nested in a value at most. -/
def depth : Tree Text Number → Nat
  | null | boolean _ | number _ | string _ => 0
  | array items => itemsDepth items + 1
  | object members => membersDepth members + 1

def itemsDepth : List (Tree Text Number) → Nat
  | [] => 0
  | item :: items => max (depth item) (itemsDepth items)

def membersDepth : List (Text × Tree Text Number) → Nat
  | [] => 0
  | (_, value) :: members => max (depth value) (membersDepth members)

end

end Tree

end Grammar

/-! ## Reading strings -/

section Strings

variable {char : Char} {chars text : List Char}

theorem scanString_plain (hcontrol : 0x20 ≤ char.toNat) (hquote : char ≠ '"')
    (hbackslash : char ≠ '\\') (rest : List Char) :
    scanString (char :: rest) = (.char char :: (scanString rest).1, (scanString rest).2) := by
  rw [scanString]
  · simp [Nat.not_lt.mpr hcontrol]
  all_goals simp [hquote, hbackslash]

theorem scanString_short {letter : Char} (hletter : shortEscape? letter = some char)
    (rest : List Char) :
    scanString ('\\' :: letter :: rest) =
      (.char char :: (scanString rest).1, (scanString rest).2) := by
  have hunit : letter ≠ 'u' := by
    rintro rfl
    contradiction
  rw [scanString]
  · simp [hletter]
  · simpa using hunit

theorem scanString_unit {a b c d : Char} {code : Nat}
    (hcode : Text.hexNumber? [a, b, c, d] = some code) (rest : List Char) :
    scanString ('\\' :: 'u' :: a :: b :: c :: d :: rest) =
      (.unit code :: (scanString rest).1, (scanString rest).2) := by
  rw [scanString]
  simp only [hcode]

theorem isLead_toNat (char : Char) : isLead char.toNat = false := by
  have hvalid : char.toNat.isValidChar := char.valid
  simp only [isLead, Bool.and_eq_false_iff, decide_eq_false_iff_not]
  simp only [Nat.isValidChar] at hvalid
  omega

theorem isTrail_toNat (char : Char) : isTrail char.toNat = false := by
  have hvalid : char.toNat.isValidChar := char.valid
  simp only [isTrail, Bool.and_eq_false_iff, decide_eq_false_iff_not]
  simp only [Nat.isValidChar] at hvalid
  omega

theorem decode_unit (char : Char) (later : List Piece) :
    decode (.unit char.toNat :: later) = (decode later).map (char :: ·) := by
  rw [decode.eq_def]
  simp [isTrail_toNat, isLead_toNat]

theorem decode_pair {lead trail : Nat} (hlead : isLead lead = true) (htrail : isTrail trail = true)
    (later : List Piece) :
    decode (.unit lead :: .unit trail :: later) =
      (decode later).map (joinPair lead trail :: ·) := by
  have hother : isTrail lead = false := by
    simp only [isLead, Bool.and_eq_true, decide_eq_true_eq] at hlead
    simp only [isTrail, Bool.and_eq_false_iff, decide_eq_false_iff_not]
    omega
  rw [decode.eq_def]
  simp [hother, hlead, htrail]

/-- Scanning goes through a spelled character and leaves pieces that decode to it. -/
theorem SpellsChar.exists_pieces (hchar : SpellsChar char text) :
    ∃ pieces, (∀ rest, scanString (text ++ rest) =
        (pieces ++ (scanString rest).1, (scanString rest).2)) ∧
      ∀ later, decode (pieces ++ later) = (decode later).map (char :: ·) := by
  cases hchar with
  | plain hcontrol hquote hbackslash =>
      exact ⟨[.char char], scanString_plain hcontrol hquote hbackslash, fun later => rfl⟩
  | short hletter => exact ⟨[.char char], scanString_short hletter, fun later => rfl⟩
  | unit hcode => exact ⟨[.unit char.toNat], scanString_unit hcode, decode_unit char⟩
  | @pair a b c d e f g h lead trail hlead hisLead htrail hisTrail hvalue =>
      have hjoin : joinPair lead trail = char := by
        rw [joinPair, ← hvalue, Char.ofNat_toNat]
      refine ⟨[.unit lead, .unit trail], fun rest => ?_, fun later => ?_⟩
      · simp only [List.cons_append, List.nil_append, scanString_unit hlead, scanString_unit htrail]
      · rw [List.cons_append, List.singleton_append, decode_pair hisLead hisTrail, hjoin]

theorem SpellsChars.exists_pieces (hchars : SpellsChars chars text) (rest : List Char) :
    ∃ pieces, scanString (text ++ '"' :: rest) = (pieces, .ok rest) ∧
      decode pieces = .ok chars := by
  induction hchars with
  | nil => exact ⟨[], rfl, rfl⟩
  | @cons char chars text later hchar hlater ih =>
      obtain ⟨first, hscan, hdecode⟩ := hchar.exists_pieces
      obtain ⟨pieces, hscanLater, hdecodeLater⟩ := ih
      refine ⟨first ++ pieces, ?_, ?_⟩
      · rw [List.append_assoc, hscan, hscanLater]
      · rw [hdecode, hdecodeLater]
        rfl

/-- A string is read from each of its spellings. -/
theorem readString_append {string : String} (hstring : SpellsChars string.toList text)
    (rest : List Char) : readString (text ++ '"' :: rest) = .ok (string, rest) := by
  obtain ⟨pieces, hscan, hdecode⟩ := hstring.exists_pieces rest
  simp only [readString, hscan, hdecode, String.ofList_toList]

end Strings

/-! ## Reading numbers -/

/-- What follows a number does not continue it. -/
def Ends (text : List Char) : Prop :=
  ∀ char ∈ text.head?, char.isDigit = false ∧ char ≠ '.' ∧ char ≠ 'e' ∧ char ≠ 'E'

section Numbers

variable {digits fraction exponent sign text rest : List Char}

/-- What follows a run of digits does not continue it. -/
def EndsDigits (text : List Char) : Prop := ∀ char ∈ text.head?, char.isDigit = false

theorem Ends.endsDigits (hrest : Ends rest) : EndsDigits rest :=
  fun char hchar => (hrest char hchar).1

theorem splitDigits_of_endsDigits (hrest : EndsDigits rest) : splitDigits rest = ([], rest) := by
  rw [splitDigits]
  cases rest with
  | nil => rfl
  | cons char rest =>
      have hchar : ¬char.isDigit = true := by simpa using hrest char rfl
      rw [List.takeWhile_cons_of_neg hchar, List.dropWhile_cons_of_neg hchar]

theorem splitDigits_append (hdigits : ∀ digit ∈ digits, digit.isDigit = true)
    (hrest : EndsDigits rest) : splitDigits (digits ++ rest) = (digits, rest) := by
  have hsplit := splitDigits_of_endsDigits hrest
  rw [splitDigits, Prod.mk.injEq] at hsplit
  rw [splitDigits, List.takeWhile_append_of_pos hdigits, List.dropWhile_append_of_pos hdigits,
    hsplit.1, hsplit.2, List.append_nil]

theorem scanSign_append {negative : Bool} (hsign : SpellsSign negative sign)
    (hrest : ∀ char ∈ rest.head?, char.isDigit = true) :
    scanSign (sign ++ rest) = (negative, rest) := by
  cases hsign with
  | none =>
      cases rest with
      | nil => rfl
      | cons char rest =>
          have hchar : char.isDigit = true := hrest char rfl
          rw [List.nil_append, scanSign]
          all_goals
            rintro rest' ⟨⟩
            contradiction
  | plus => rfl
  | minus => rfl

theorem scanExponent_append {exponent : Option (Bool × List Char)}
    (hexponent : SpellsExponent exponent text) (hrest : Ends rest) :
    scanExponent (text ++ rest) = .ok (exponent, rest) := by
  cases hexponent with
  | none =>
      cases rest with
      | nil => rfl
      | cons char rest =>
          obtain ⟨_, _, hlower, hupper⟩ := hrest char rfl
          simp [scanExponent, hlower, hupper]
  | @some negative mark sign digits hmark hsign hdigits =>
      obtain ⟨digit, later, rfl⟩ := List.exists_cons_of_ne_nil hdigits.ne_nil
      have hdigit : digit.isDigit = true := hdigits.isDigit digit List.mem_cons_self
      have hscan : scanSign (sign ++ digit :: (later ++ rest)) =
          (negative, digit :: (later ++ rest)) := scanSign_append hsign (by simpa using hdigit)
      have hsplit : splitDigits (digit :: (later ++ rest)) = (digit :: later, rest) :=
        splitDigits_append hdigits.isDigit hrest.endsDigits
      simp only [scanExponent, List.cons_append, List.append_assoc, hmark, if_true, hscan, hsplit]

/-- A written exponent begins with its mark. -/
theorem SpellsExponent.ends {exponent : Option (Bool × List Char)}
    (hexponent : SpellsExponent exponent text) (hrest : Ends rest) :
    ∀ char ∈ (text ++ rest).head?, char.isDigit = false ∧ char ≠ '.' := by
  cases hexponent with
  | none => exact fun char hchar => ⟨(hrest char hchar).1, (hrest char hchar).2.1⟩
  | some hmark =>
      rintro char ⟨⟩
      rcases hmark with rfl | rfl <;> decide

theorem scanFraction_append {fraction : Option (List Char)}
    (hfraction : SpellsFraction fraction text)
    (hrest : ∀ char ∈ rest.head?, char.isDigit = false ∧ char ≠ '.') :
    scanFraction (text ++ rest) = .ok (fraction, rest) := by
  cases hfraction with
  | none =>
      cases rest with
      | nil => rfl
      | cons char rest =>
          have hpoint : char ≠ '.' := (hrest char rfl).2
          rw [List.nil_append, scanFraction]
          rintro rest' ⟨⟩
          contradiction
  | @some digits hdigits =>
      obtain ⟨digit, later, rfl⟩ := List.exists_cons_of_ne_nil hdigits.ne_nil
      have hsplit : splitDigits (digit :: (later ++ rest)) = (digit :: later, rest) :=
        splitDigits_append hdigits.isDigit fun char hchar => (hrest char hchar).1
      simp only [scanFraction, List.cons_append, hsplit]

/-- A written fraction begins with its point. -/
theorem SpellsFraction.endsDigits {fraction : Option (List Char)}
    (hfraction : SpellsFraction fraction text) (hrest : EndsDigits rest) :
    EndsDigits (text ++ rest) := by
  cases hfraction with
  | none => exact hrest
  | some => simp [EndsDigits]

theorem scanWhole_append (hdigits : IsWhole digits) (hrest : EndsDigits rest) :
    scanWhole (digits ++ rest) = .ok (digits, rest) := by
  obtain ⟨digit, later, rfl⟩ := List.exists_cons_of_ne_nil hdigits.ne_nil
  by_cases hzero : digit = '0'
  · obtain ⟨rfl⟩ : later = [] := by simpa [hzero] using hdigits.eq_zero
    rw [hzero, List.singleton_append, scanWhole]
    simp only [splitDigits_of_endsDigits hrest]
  · have hsplit : splitDigits (digit :: (later ++ rest)) = (digit :: later, rest) :=
      splitDigits_append hdigits.isDigit hrest
    rw [List.cons_append, scanWhole]
    · simp only [hsplit]
    · rintro rest' ⟨⟩
      contradiction

theorem scanMinus_append (negative : Bool) (hdigits : IsWhole digits) (rest : List Char) :
    scanMinus ((if negative then ['-'] else []) ++ (digits ++ rest)) =
      (negative, digits ++ rest) := by
  obtain ⟨digit, later, rfl⟩ := List.exists_cons_of_ne_nil hdigits.ne_nil
  have hdigit : digit.isDigit = true := hdigits.isDigit digit List.mem_cons_self
  cases negative with
  | true => rfl
  | false =>
      show scanMinus (digit :: (later ++ rest)) = _
      rw [scanMinus]
      · rfl
      · rintro rest' ⟨⟩
        contradiction

/-- A number is scanned from each of its spellings. -/
theorem scanNumeral_append {numeral : Numeral} (hnumeral : SpellsNumeral numeral text)
    (hrest : Ends rest) : scanNumeral (text ++ rest) = .ok (numeral, rest) := by
  cases hnumeral with
  | @mk fraction exponent hwhole hfraction hexponent =>
      have hends := hexponent.ends hrest
      have hendsWhole : EndsDigits (fraction ++ (exponent ++ rest)) :=
        hfraction.endsDigits fun char hchar => (hends char hchar).1
      simp only [scanNumeral, List.append_assoc, scanMinus_append _ hwhole,
        scanWhole_append hwhole hendsWhole, scanFraction_append hfraction hends,
        scanExponent_append hexponent hrest, bind, Except.bind]
      rfl

/-- A number that a double can hold is read from each of its spellings. -/
theorem readNumeral_append {numeral : Numeral} (hnumeral : SpellsNumeral numeral text)
    (hfinite : numeral.magnitude?.isSome = true) (hrest : Ends rest) :
    readNumeral (text ++ rest) = .ok (numeral, rest) := by
  simp only [readNumeral, scanNumeral_append hnumeral hrest, hfinite, if_true]

/-- A written number begins with its sign or with a digit. -/
theorem SpellsNumeral.exists_cons {numeral : Numeral} (hnumeral : SpellsNumeral numeral text) :
    ∃ char later, text = char :: later ∧ (char = '-' ∨ char.isDigit = true) := by
  cases hnumeral with
  | mk hwhole =>
      obtain ⟨digit, later, hdigits⟩ := List.exists_cons_of_ne_nil hwhole.ne_nil
      have hdigit : digit.isDigit = true := hwhole.isDigit digit (by simp [hdigits])
      cases numeral.negative with
      | true => exact ⟨'-', _, rfl, Or.inl rfl⟩
      | false =>
          rw [hdigits]
          exact ⟨digit, _, rfl, Or.inr hdigit⟩

end Numbers

end StepFlow.Json
