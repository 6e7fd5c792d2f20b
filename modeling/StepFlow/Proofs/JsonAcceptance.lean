import StepFlow.Proofs.Literals

/-!
# Only the texts of a value are read as it

Whatever is read was written by the rules of the grammar: a reader that accepts no other strings and
numbers than those of a spelling accepts no other values, and none that nest too deeply.  Together
with the opposite direction, this says which texts can be read and as what.
Main statement: `reads_strictly_iff`.
-/

namespace StepFlow.Json

/-! ## Strings -/

section Strings

variable {piece : Piece} {pieces : List Piece} {chars text front later rest : List Char}

/-- The text begins with the spelling of the pieces, and a quote follows. -/
def BeginsPieces (pieces : List Piece) (text rest : List Char) : Prop :=
  ∃ spelled, text = spelled ++ '"' :: rest ∧ SpellsPieces pieces spelled

theorem beginsPieces_append (hpiece : SpellsPiece piece front)
    (hlater : ∀ {pieces}, scanString later = (pieces, .ok rest) → BeginsPieces pieces later rest)
    (hscan : scanString (front ++ later) = (pieces, .ok rest)) :
    BeginsPieces pieces (front ++ later) rest := by
  rw [hpiece.scanString_append] at hscan
  obtain ⟨rfl, hrest⟩ := Prod.mk.inj hscan
  obtain ⟨spelled, rfl, hspelled⟩ := hlater (Prod.ext rfl hrest)
  exact ⟨front ++ spelled, (List.append_assoc ..).symm, .cons hpiece hspelled⟩

theorem beginsPieces_of_scanString (hscan : scanString text = (pieces, .ok rest)) :
    BeginsPieces pieces text rest := by
  induction text using scanString.induct generalizing pieces with
  | case1 | case3 => nomatch hscan
  | case2 rest =>
      cases hscan
      exact ⟨[], rfl, .nil⟩
  | case4 a b c d later code hcode ih =>
      exact beginsPieces_append (.unit hcode) ih hscan
  | case7 letter rest hunit char hletter ih =>
      exact beginsPieces_append (.short hletter) ih hscan
  | case10 char rest hquote hend hunit hescape hcontrol ih =>
      have hbackslash : char ≠ '\\' := by
        rintro rfl
        cases rest with
        | nil => exact hend rfl rfl
        | cons letter rest => exact hescape letter rest rfl rfl
      exact beginsPieces_append (.plain (Nat.le_of_not_lt hcontrol) hquote hbackslash) ih hscan
  | case5 a b c d later hcode => simp [scanString, hcode] at hscan
  | case6 short hshort => simp [scanString] at hscan
  | case8 letter rest hunit hletter => simp [scanString, hletter] at hscan
  | case9 char rest hquote hend hunit hescape hcontrol => simp [scanString, hcontrol] at hscan

theorem hexValue?_lt {char : Char} {value : Nat} (hvalue : Text.hexValue? char = some value) :
    value < 16 := by
  have hle : ∀ {low high : Char}, low ≤ high → low.toNat ≤ high.toNat := fun hle => hle
  simp only [Text.hexValue?] at hvalue
  split_ifs at hvalue with hdigit hlower hupper
  · have hhigh : char.toNat ≤ 57 := hle hdigit.2
    have hzero : '0'.toNat = 48 := rfl
    cases hvalue
    omega
  · have hhigh : char.toNat ≤ 102 := hle hlower.2
    have ha : 'a'.toNat = 97 := rfl
    cases hvalue
    omega
  · have hhigh : char.toNat ≤ 70 := hle hupper.2
    have ha : 'A'.toNat = 65 := rfl
    cases hvalue
    omega

theorem hexNumberFrom?_lt {number code : Nat} {digits : List Char}
    (hcode : Text.hexNumberFrom? number digits = some code) :
    code < (number + 1) * Nat.pow 16 digits.length := by
  induction digits generalizing number with
  | nil =>
      cases hcode
      show code < (code + 1) * 1
      omega
  | cons digit digits ih =>
      rw [Text.hexNumberFrom?] at hcode
      cases hvalue : Text.hexValue? digit with
      | none => simp [hvalue] at hcode
      | some value =>
          simp only [hvalue] at hcode
          have hlt := hexValue?_lt hvalue
          calc code < (16 * number + value + 1) * Nat.pow 16 digits.length := ih hcode
            _ ≤ ((number + 1) * 16) * Nat.pow 16 digits.length :=
                Nat.mul_le_mul_right _ (by omega)
            _ = (number + 1) * Nat.pow 16 (digit :: digits).length := by
                rw [List.length_cons, Nat.pow_eq, Nat.pow_eq, Nat.pow_succ', Nat.mul_assoc]

theorem toNat_ofNat {code : Nat} (hvalid : code.isValidChar) : (Char.ofNat code).toNat = code := by
  rw [Char.ofNat, dif_pos hvalid]
  exact UInt32.toNat_ofNatLT

/-- A code unit that is no surrogate is a character. -/
theorem spellsChar_unit {code : Nat} (hpiece : SpellsPiece (.unit code) text)
    (hlead : isLead code = false) (htrail : isTrail code = false) :
    SpellsChar (Char.ofNat code) text := by
  cases hpiece with
  | unit hcode =>
      have hlt : code < 0x10000 := by simpa using hexNumberFrom?_lt hcode
      refine .unit (hcode.trans (congrArg some (toNat_ofNat ?_).symm))
      simp [isLead, isTrail] at hlead htrail
      simp [Nat.isValidChar]
      omega

theorem spellsChar_pair {lead trail : Nat} (hlead : SpellsPiece (.unit lead) text)
    (htrail : SpellsPiece (.unit trail) later) (hisLead : isLead lead = true)
    (hisTrail : isTrail trail = true) : SpellsChar (joinPair lead trail) (text ++ later) := by
  cases hlead with
  | unit hlead =>
      cases htrail with
      | unit htrail =>
          refine .pair hlead hisLead htrail hisTrail (toNat_ofNat ?_)
          simp [isLead, isTrail] at hisLead hisTrail
          simp [Nat.isValidChar]
          omega

/-- The characters that pieces stand for are spelled by the text of the pieces. -/
theorem SpellsPieces.spellsChars (hpieces : SpellsPieces pieces text)
    (hdecode : decode pieces = .ok chars) : SpellsChars chars text := by
  induction pieces using decode.induct generalizing text chars with
  | case1 =>
      cases hpieces
      cases hdecode
      exact .nil
  | case2 char later ih =>
      obtain ⟨chars, hlater, rfl⟩ := map_eq_ok_iff.mp hdecode
      obtain _ | ⟨hpiece, hpieces⟩ := hpieces
      refine .cons ?_ (ih hpieces hlater)
      cases hpiece with
      | plain hcontrol hquote hbackslash => exact .plain hcontrol hquote hbackslash
      | short hletter => exact .short hletter
  | case6 code htrail hlead trail later hpair ih =>
      rw [decode_pair hlead hpair] at hdecode
      obtain ⟨chars, hlater, rfl⟩ := map_eq_ok_iff.mp hdecode
      obtain _ | ⟨hfirst, hpieces⟩ := hpieces
      obtain _ | ⟨hsecond, hpieces⟩ := hpieces
      rw [← List.append_assoc]
      exact .cons (spellsChar_pair hfirst hsecond hlead hpair) (ih hpieces hlater)
  | case8 code later htrail hlead ih =>
      rw [decode.eq_def] at hdecode
      simp only [htrail, hlead, Bool.false_eq_true, if_false] at hdecode
      obtain ⟨chars, hlater, rfl⟩ := map_eq_ok_iff.mp hdecode
      obtain _ | ⟨hpiece, hpieces⟩ := hpieces
      exact .cons (spellsChar_unit hpiece (by simpa using hlead) (by simpa using htrail))
        (ih hpieces hlater)
  | case3 | case4 | case5 | case7 =>
      rw [decode.eq_def] at hdecode
      simp_all

/-- A string is read from nothing but its spellings. -/
theorem exists_of_readString {string : String} (hread : readString text = .ok (string, rest)) :
    ∃ spelled, text = spelled ++ '"' :: rest ∧ SpellsChars string.toList spelled := by
  simp only [readString] at hread
  split at hread
  case h_4 chars later hdecode hscan =>
      cases hread
      obtain ⟨spelled, htext, hspelled⟩ := beginsPieces_of_scanString (Prod.ext rfl hscan)
      rw [String.toList_ofList]
      exact ⟨spelled, htext, hspelled.spellsChars hdecode⟩
  all_goals contradiction

end Strings

/-! ## Numbers -/

section Numbers

variable {digits text rest : List Char}

theorem eq_append_of_splitDigits (hsplit : splitDigits text = (digits, rest)) :
    text = digits ++ rest ∧ ∀ digit ∈ digits, digit.isDigit = true := by
  obtain ⟨rfl, rfl⟩ := Prod.mk.inj hsplit
  exact ⟨List.takeWhile_append_dropWhile.symm, fun digit hdigit => List.mem_takeWhile_imp hdigit⟩

theorem isDigits_of_splitDigits (hsplit : splitDigits text = (digits, rest)) (hne : digits ≠ []) :
    text = digits ++ rest ∧ IsDigits digits :=
  (eq_append_of_splitDigits hsplit).imp_right fun hdigits => ⟨hne, hdigits⟩

theorem eq_append_of_scanWhole (hscan : scanWhole text = .ok (digits, rest)) :
    text = digits ++ rest ∧ IsWhole digits := by
  unfold scanWhole at hscan
  split at hscan
  case h_1 later =>
      split at hscan
      case h_1 =>
          cases hscan
          exact ⟨rfl, ⟨⟨nofun, List.all_eq_true.mp rfl⟩, fun _ => rfl⟩⟩
      case h_2 => contradiction
  case h_2 hzero =>
      split at hscan
      case h_1 => contradiction
      case h_2 hne =>
          have hsplit : splitDigits text = (digits, rest) := Except.ok.inj hscan
          have hdigits : digits ≠ [] := by
            rintro rfl
            exact hne rest hsplit
          obtain ⟨rfl, hdigits⟩ := isDigits_of_splitDigits hsplit hdigits
          refine ⟨rfl, hdigits, fun hhead => ?_⟩
          obtain ⟨later, rfl⟩ := List.head?_eq_some_iff.mp hhead
          exact absurd rfl (hzero (later ++ rest))

theorem exists_of_scanFraction {fraction : Option (List Char)}
    (hscan : scanFraction text = .ok (fraction, rest)) :
    ∃ spelled, text = spelled ++ rest ∧ SpellsFraction fraction spelled := by
  unfold scanFraction at hscan
  split at hscan
  case h_1 later =>
      split at hscan
      case h_1 => contradiction
      case h_2 digits behind hne hsplit =>
          cases hscan
          obtain ⟨rfl, hdigits⟩ := isDigits_of_splitDigits hsplit hne
          exact ⟨'.' :: digits, rfl, .some hdigits⟩
  case h_2 =>
      cases hscan
      exact ⟨[], rfl, .none⟩

theorem exists_of_scanSign {negative : Bool} (hscan : scanSign text = (negative, rest)) :
    ∃ sign, text = sign ++ rest ∧ SpellsSign negative sign := by
  unfold scanSign at hscan
  split at hscan
  all_goals cases hscan
  · exact ⟨['+'], rfl, .plus⟩
  · exact ⟨['-'], rfl, .minus⟩
  · exact ⟨[], rfl, .none⟩

theorem exists_of_scanExponent {exponent : Option (Bool × List Char)}
    (hscan : scanExponent text = .ok (exponent, rest)) :
    ∃ spelled, text = spelled ++ rest ∧ SpellsExponent exponent spelled := by
  unfold scanExponent at hscan
  split at hscan
  case h_1 =>
      cases hscan
      exact ⟨[], rfl, .none⟩
  case h_2 mark signed =>
      split at hscan
      case isTrue hmark =>
          rcases hsigned : scanSign signed with ⟨negative, unsigned⟩
          obtain ⟨sign, rfl, hsign⟩ := exists_of_scanSign hsigned
          simp only [hsigned] at hscan
          split at hscan
          case h_1 => contradiction
          case h_2 digits behind hne hsplit =>
              cases hscan
              obtain ⟨rfl, hdigits⟩ := isDigits_of_splitDigits hsplit hne
              exact ⟨mark :: sign ++ digits, by simp, .some hmark hsign hdigits⟩
      case isFalse hmark =>
          cases hscan
          exact ⟨[], rfl, .none⟩

theorem eq_append_of_scanMinus {negative : Bool} (hscan : scanMinus text = (negative, rest)) :
    text = (if negative then ['-'] else []) ++ rest := by
  unfold scanMinus at hscan
  split at hscan
  all_goals
    cases hscan
    rfl

/-- A number is scanned from nothing but its spellings. -/
theorem exists_of_scanNumeral {numeral : Numeral}
    (hscan : scanNumeral text = .ok (numeral, rest)) :
    ∃ spelled, text = spelled ++ rest ∧ SpellsNumeral numeral spelled := by
  rcases hminus : scanMinus text with ⟨negative, unsigned⟩
  rw [scanNumeral, hminus] at hscan
  obtain ⟨⟨whole, behindWhole⟩, hscanWhole, hscan⟩ := bind_eq_ok_iff.mp hscan
  obtain ⟨⟨fraction, behindFraction⟩, hscanFraction, hscan⟩ := bind_eq_ok_iff.mp hscan
  obtain ⟨⟨exponent, behind⟩, hscanExponent, ⟨⟩⟩ := bind_eq_ok_iff.mp hscan
  obtain ⟨hunsigned, hwhole⟩ := eq_append_of_scanWhole hscanWhole
  obtain ⟨spelledFraction, hbehindWhole, hfraction⟩ := exists_of_scanFraction hscanFraction
  obtain ⟨spelledExponent, hbehindFraction, hexponent⟩ := exists_of_scanExponent hscanExponent
  refine ⟨_, ?_, .mk hwhole hfraction hexponent⟩
  rw [eq_append_of_scanMinus hminus, hunsigned, hbehindWhole, hbehindFraction]
  simp only [List.append_assoc]

theorem exists_of_readNumeral {numeral : Numeral}
    (hread : readNumeral text = .ok (numeral, rest)) :
    ∃ spelled, text = spelled ++ rest ∧ plainSpelling.number numeral spelled := by
  unfold readNumeral at hread
  split at hread
  case h_1 => contradiction
  case h_2 scanned behind hscan =>
      split at hread
      case isTrue hfinite =>
          cases hread
          obtain ⟨spelled, htext, hspelled⟩ := exists_of_scanNumeral hscan
          exact ⟨spelled, htext, hspelled, hfinite⟩
      case isFalse => contradiction

end Numbers

/-! ## Values -/

section Values

variable {Text Number : Type}

/-- What is read as a string or as a number is one of its spellings. -/
structure Reading.Accepts (reading : Reading Text Number) (spelling : Spelling Text Number) :
    Prop where
  string : ∀ {text string rest}, reading.string text = .ok (string, rest) →
    ∃ spelled, text = spelled ++ '"' :: rest ∧ spelling.string string spelled
  number : ∀ {text number rest}, reading.number text = .ok (number, rest) →
    ∃ spelled, text = spelled ++ rest ∧ spelling.number number spelled

theorem strict_accepts : strict.Accepts plainSpelling where
  string := exists_of_readString
  number := exists_of_readNumeral

variable {reading : Reading Text Number} {spelling : Spelling Text Number}
  {tree : Tree Text Number} {text rest : List Char} {room inner : Option Nat} {fuel : Nat}

/-! ### Tokens -/

theorem exists_gap (text : List Char) : ∃ gap, IsGap gap ∧ text = gap ++ skipSpace text :=
  ⟨text.takeWhile isSpace, fun _ hchar => List.mem_takeWhile_imp hchar,
    List.takeWhile_append_dropWhile.symm⟩

theorem eq_append_of_readWord {word : List Char} (hread : readWord word text = .ok rest) :
    text = word ++ rest := by
  fun_induction readWord word text with
  | case1 =>
      cases hread
      rfl
  | case2 => contradiction
  | case3 expected word text ih => rw [ih hread, List.cons_append]
  | case4 => contradiction

/-- The token behind an item. -/
def Continuation.token (close : Char) : Continuation → Char
  | .more => ','
  | .done => close

theorem exists_of_readContinuation {close : Char} {continuation : Continuation}
    (hread : readContinuation close text = .ok (continuation, rest)) :
    ∃ gap, IsGap gap ∧ text = gap ++ continuation.token close :: rest := by
  obtain ⟨gap, hgap, htext⟩ := exists_gap text
  refine ⟨gap, hgap, htext.trans (congrArg (gap ++ ·) ?_)⟩
  unfold readContinuation at hread
  split at hread
  case h_1 => contradiction
  case h_2 char behind hskip =>
      split_ifs at hread with hcomma hclose
      · cases hread
        rw [hskip, hcomma]
        rfl
      · cases hread
        rw [hskip, hclose]
        rfl

theorem exists_of_readColon (hread : readColon text = .ok rest) :
    ∃ gap, IsGap gap ∧ text = gap ++ ':' :: rest := by
  obtain ⟨gap, hgap, htext⟩ := exists_gap text
  refine ⟨gap, hgap, htext.trans (congrArg (gap ++ ·) ?_)⟩
  unfold readColon at hread
  split at hread
  case h_2 hskip =>
      cases hread
      exact hskip
  all_goals contradiction

theorem FitsInto.of_enter {depth : Nat} (henter : enter room = .ok inner)
    (hfits : FitsInto depth inner) : FitsInto (depth + 1) room := by
  rintro limit ⟨⟩
  cases limit with
  | zero => contradiction
  | succ limit =>
      cases henter
      exact Nat.succ_le_succ (hfits limit rfl)

/-! ### Containers -/

/-- The text begins with one of the value, which fits into the room. -/
def BeginsTree (spelling : Spelling Text Number) (room : Option Nat) (tree : Tree Text Number)
    (text rest : List Char) : Prop :=
  ∃ spelled, text = spelled ++ rest ∧ Spells spelling tree spelled ∧ FitsInto tree.depth room

/-- What is read as a value with the given fuel is one of its texts. -/
def AcceptsTree (reading : Reading Text Number) (spelling : Spelling Text Number) (fuel : Nat) :
    Prop :=
  ∀ {room text tree rest}, readTree reading fuel room text = .ok (tree, rest) →
    BeginsTree spelling room tree text rest

def AcceptsItems (reading : Reading Text Number) (spelling : Spelling Text Number) (fuel : Nat) :
    Prop :=
  ∀ {room text items rest}, readItems reading fuel room text = .ok (items, rest) →
    ∃ spelled, text = spelled ++ ']' :: rest ∧ SpellsItems spelling items spelled ∧
      FitsInto (Tree.itemsDepth items) room

def AcceptsMembers (reading : Reading Text Number) (spelling : Spelling Text Number) (fuel : Nat) :
    Prop :=
  ∀ {room text members rest}, readMembers reading fuel room text = .ok (members, rest) →
    ∃ spelled, text = spelled ++ '\x7d' :: rest ∧ SpellsMembers spelling members spelled ∧
      FitsInto (Tree.membersDepth members) room

theorem beginsTree_of_skipSpace (hbegins : BeginsTree spelling room tree (skipSpace text) rest) :
    BeginsTree spelling room tree text rest := by
  obtain ⟨gap, hgap, htext⟩ := exists_gap text
  obtain ⟨spelled, hskip, hspelled, hfits⟩ := hbegins
  refine ⟨gap ++ spelled ++ [], ?_, .spaced hgap hspelled isGap_nil, hfits⟩
  rw [List.append_nil, List.append_assoc, ← hskip]
  exact htext

theorem fitsInto_zero (room : Option Nat) : FitsInto 0 room := fun _ _ => Nat.zero_le _

theorem FitsInto.max {depth other : Nat} (hfits : FitsInto depth room)
    (hother : FitsInto other room) : FitsInto (Nat.max depth other) room :=
  fun limit hlimit => Nat.max_le.mpr ⟨hfits limit hlimit, hother limit hlimit⟩

/-- What is left to read behind an opening bracket. -/
theorem beginsTree_of_bracket {later : List Char} (hitems : AcceptsItems reading spelling fuel)
    (hread : (match enter room with
      | .error error => .error error
      | .ok room =>
          match skipSpace later with
          | ']' :: rest => .ok (.array [], rest)
          | _ => (readItems reading fuel room later).map fun (items, rest) =>
              (.array items, rest)) = Except.ok (tree, rest)) :
    BeginsTree spelling room tree ('[' :: later) rest := by
  split at hread
  case h_1 => contradiction
  case h_2 inner henter =>
      split at hread
      case h_1 behind hskip =>
          cases hread
          obtain ⟨gap, hgap, htext⟩ := exists_gap later
          refine ⟨_, ?_, .emptyArray hgap, .of_enter henter (fitsInto_zero inner)⟩
          rw [htext, hskip, List.cons_append, List.append_assoc, List.singleton_append]
      case h_2 =>
          obtain ⟨⟨items, behind⟩, hread, ⟨⟩⟩ := map_eq_ok_iff.mp hread
          obtain ⟨spelled, rfl, hspelled, hfits⟩ := hitems hread
          refine ⟨_, ?_, .array hspelled, .of_enter henter hfits⟩
          rw [List.cons_append, List.append_assoc, List.singleton_append]

theorem beginsTree_of_brace {later : List Char} (hmembers : AcceptsMembers reading spelling fuel)
    (hread : (match enter room with
      | .error error => .error error
      | .ok room =>
          match skipSpace later with
          | '\x7d' :: rest => .ok (.object [], rest)
          | _ => (readMembers reading fuel room later).map fun (members, rest) =>
              (.object members, rest)) = Except.ok (tree, rest)) :
    BeginsTree spelling room tree ('\x7b' :: later) rest := by
  split at hread
  case h_1 => contradiction
  case h_2 inner henter =>
      split at hread
      case h_1 behind hskip =>
          cases hread
          obtain ⟨gap, hgap, htext⟩ := exists_gap later
          refine ⟨_, ?_, .emptyObject hgap, .of_enter henter (fitsInto_zero inner)⟩
          rw [htext, hskip, List.cons_append, List.append_assoc, List.singleton_append]
      case h_2 =>
          obtain ⟨⟨members, behind⟩, hread, ⟨⟩⟩ := map_eq_ok_iff.mp hread
          obtain ⟨spelled, rfl, hspelled, hfits⟩ := hmembers hread
          refine ⟨_, ?_, .object hspelled, .of_enter henter hfits⟩
          rw [List.cons_append, List.append_assoc, List.singleton_append]

theorem acceptsTree_succ (haccepts : reading.Accepts spelling)
    (hitems : AcceptsItems reading spelling fuel)
    (hmembers : AcceptsMembers reading spelling fuel) :
    AcceptsTree reading spelling (fuel + 1) := by
  intro room text tree rest hread
  apply beginsTree_of_skipSpace
  rw [readTree] at hread
  rcases hskip : skipSpace text with _ | ⟨char, later⟩
  · simp [hskip] at hread
  · simp only [hskip] at hread
    split_ifs at hread with hn ht hf hquote hnumber hbracket hbrace
    · obtain ⟨behind, hword, ⟨⟩⟩ := map_eq_ok_iff.mp hread
      rw [hn, eq_append_of_readWord hword]
      exact ⟨_, rfl, .null, fitsInto_zero room⟩
    · obtain ⟨behind, hword, ⟨⟩⟩ := map_eq_ok_iff.mp hread
      rw [ht, eq_append_of_readWord hword]
      exact ⟨_, rfl, .yes, fitsInto_zero room⟩
    · obtain ⟨behind, hword, ⟨⟩⟩ := map_eq_ok_iff.mp hread
      rw [hf, eq_append_of_readWord hword]
      exact ⟨_, rfl, .no, fitsInto_zero room⟩
    · obtain ⟨⟨string, behind⟩, hstring, ⟨⟩⟩ := map_eq_ok_iff.mp hread
      obtain ⟨spelled, rfl, hspelled⟩ := haccepts.string hstring
      refine ⟨_, ?_, .string hspelled, fitsInto_zero room⟩
      rw [hquote, List.cons_append, List.append_assoc, List.singleton_append]
    · obtain ⟨⟨number, behind⟩, hnumber, ⟨⟩⟩ := map_eq_ok_iff.mp hread
      obtain ⟨spelled, htext, hspelled⟩ := haccepts.number hnumber
      exact ⟨spelled, htext, .number hspelled, fitsInto_zero room⟩
    · rw [hbracket]
      exact beginsTree_of_bracket hitems hread
    · rw [hbrace]
      exact beginsTree_of_brace hmembers hread

theorem Spells.append_gap {spelled gap : List Char} (hspelled : Spells spelling tree spelled)
    (hgap : IsGap gap) : Spells spelling tree (spelled ++ gap) :=
  .spaced isGap_nil hspelled hgap

theorem acceptsItems_succ (htree : AcceptsTree reading spelling fuel)
    (hitems : AcceptsItems reading spelling fuel) : AcceptsItems reading spelling (fuel + 1) := by
  intro room text items rest hread
  rw [readItems] at hread
  split at hread
  case h_1 => contradiction
  case h_2 item behind hitem =>
      obtain ⟨spelled, rfl, hspelled, hfits⟩ := htree hitem
      split at hread
      case h_1 => contradiction
      case h_2 behind hdone =>
          cases hread
          obtain ⟨gap, hgap, rfl⟩ := exists_of_readContinuation hdone
          refine ⟨_, ?_, .last (hspelled.append_gap hgap), hfits.max (fitsInto_zero room)⟩
          rw [Continuation.token, List.append_assoc]
      case h_3 behind hmore =>
          obtain ⟨⟨later, behindLater⟩, hread, ⟨⟩⟩ := map_eq_ok_iff.mp hread
          obtain ⟨gap, hgap, rfl⟩ := exists_of_readContinuation hmore
          obtain ⟨spelledLater, rfl, hlater, hfitsLater⟩ := hitems hread
          refine ⟨_, ?_, .cons (hspelled.append_gap hgap) hlater, hfits.max hfitsLater⟩
          simp only [Continuation.token, List.append_assoc, List.cons_append]

/-- The name of a member. -/
theorem exists_of_readName {name : Text} (haccepts : reading.Accepts spelling)
    (hread : readName reading text = .ok (name, rest)) :
    ∃ label, text = label ++ rest ∧ Spells spelling (.string name) label := by
  obtain ⟨gap, hgap, htext⟩ := exists_gap text
  unfold readName at hread
  split at hread
  case h_2 behind hskip =>
      obtain ⟨spelled, rfl, hspelled⟩ := haccepts.string hread
      refine ⟨_, ?_, .spaced hgap (.string hspelled) isGap_nil⟩
      rw [htext, hskip]
      simp only [List.append_assoc, List.cons_append, List.nil_append]
  all_goals contradiction

theorem acceptsMembers_succ (haccepts : reading.Accepts spelling)
    (htree : AcceptsTree reading spelling fuel) (hmembers : AcceptsMembers reading spelling fuel) :
    AcceptsMembers reading spelling (fuel + 1) := by
  intro room text members rest hread
  rw [readMembers] at hread
  split at hread
  case h_1 => contradiction
  case h_2 name behindName hname =>
      obtain ⟨label, rfl, hlabel⟩ := exists_of_readName haccepts hname
      split at hread
      case h_1 => contradiction
      case h_2 behindColon hcolon =>
          obtain ⟨gap, hgap, rfl⟩ := exists_of_readColon hcolon
          have hlabel := hlabel.append_gap hgap
          split at hread
          case h_1 => contradiction
          case h_2 value behind hvalue =>
              obtain ⟨spelled, rfl, hspelled, hfits⟩ := htree hvalue
              split at hread
              case h_1 => contradiction
              case h_2 behind hdone =>
                  cases hread
                  obtain ⟨space, hspace, rfl⟩ := exists_of_readContinuation hdone
                  refine ⟨_, ?_, .last hlabel (hspelled.append_gap hspace),
                    hfits.max (fitsInto_zero room)⟩
                  simp only [Continuation.token, List.append_assoc, List.cons_append]
              case h_3 behind hmore =>
                  obtain ⟨⟨later, behindLater⟩, hread, ⟨⟩⟩ := map_eq_ok_iff.mp hread
                  obtain ⟨space, hspace, rfl⟩ := exists_of_readContinuation hmore
                  obtain ⟨spelledLater, rfl, hlater, hfitsLater⟩ := hmembers hread
                  refine ⟨_, ?_, .cons hlabel (hspelled.append_gap hspace) hlater,
                    hfits.max hfitsLater⟩
                  simp only [Continuation.token, List.append_assoc, List.cons_append]

theorem Reading.Accepts.values (haccepts : reading.Accepts spelling) (fuel : Nat) :
    AcceptsTree reading spelling fuel ∧ AcceptsItems reading spelling fuel ∧
      AcceptsMembers reading spelling fuel := by
  induction fuel with
  | zero => exact ⟨nofun, nofun, nofun⟩
  | succ fuel ih =>
      obtain ⟨htree, hitems, hmembers⟩ := ih
      exact ⟨acceptsTree_succ haccepts hitems hmembers, acceptsItems_succ htree hitems,
        acceptsMembers_succ haccepts htree hmembers⟩

end Values

theorem isGap_of_expectEnd {text : List Char} (hend : expectEnd text = .ok ()) : IsGap text := by
  unfold expectEnd at hend
  split at hend
  case isTrue hempty => exact List.dropWhile_eq_nil_iff.mp (List.isEmpty_iff.mp hempty)
  case isFalse => contradiction

/-- What a value is read from strictly, with nothing but space behind it, are its texts, unless it
is nested too deeply. -/
theorem reads_strictly_iff {value : Value} {text : List Char} :
    (∃ rest, strict.read text = .ok (value, rest) ∧ expectEnd rest = .ok ()) ↔
      Spells plainSpelling value text ∧ value.depth ≤ 127 := by
  have hfits : FitsInto value.depth strict.room ↔ value.depth ≤ 127 := by
    simp [FitsInto, strict]
  constructor
  · rintro ⟨rest, hread, hend⟩
    obtain ⟨spelled, rfl, hspelled, hroom⟩ := (strict_accepts.values _).1 hread
    exact ⟨hspelled.append_gap (isGap_of_expectEnd hend), hfits.mp hroom⟩
  · rintro ⟨htext, hdepth⟩
    obtain ⟨gap, hgap, hread⟩ := read_of_spells strict_reads htext (hfits.mpr hdepth)
    exact ⟨gap, hread, expectEnd_of_isGap hgap⟩

end StepFlow.Json
