import Mathlib.Algebra.Group.Nat.Defs
import StepFlow.Proofs.JsonReading
import StepFlow.Proofs.JsonWriting
import StepFlow.Proofs.Texts

/-!
# Indented values

Line breaks and indentation are space between tokens, so the indented text of a value is one of its
texts.  A reader of the grammar that puts no limit on numbers and nesting reads it back.  The strict
reader does so for the values that are exported: they nest a few containers only, and their numbers
have at most 64 bits, which no rounding carries beyond the largest double.
Main statements: `spells_pretty` and `magnitude?_ofNat`.
-/

namespace StepFlow.Json

section Definitions

/-- The spelling of texts and of numbers, whatever their size. -/
def exactSpelling : Spelling String Numeral where
  string text := SpellsChars text.toList
  number := SpellsNumeral

/-- Reads a number without asking for its value. -/
def readExactly (text : List Char) : Except ReadError (Numeral × List Char) :=
  match scanNumeral text with
  | .error _ => .error .malformed
  | .ok scanned => .ok scanned

/-- Reads values as they are written, with numbers of any size and any nesting. -/
def exact : Reading String Numeral := ⟨readString, readExactly, none⟩

/-- The value is read from the text, and nothing but space follows it. -/
def ReadsWhole (reading : Reading String Numeral) (text : List Char) (value : Value) : Prop :=
  ∃ rest, reading.read text = .ok (value, rest) ∧ expectEnd rest = .ok ()

/-- At most `bound` containers inside each other, and only natural numbers, of a certain kind. -/
structure Nests (kind : Nat → Prop) (bound : Nat) (value : Value) : Prop where
  depth_le : value.depth ≤ bound
  numbers : ∀ numeral ∈ value.numbers, ∃ number, kind number ∧ numeral = .ofNat number

end Definitions

theorem exact_reads : exact.Reads exactSpelling where
  string hstring := readString_append hstring
  number hnumber rest hrest := by
    simp only [exact, readExactly, scanNumeral_append hnumber hrest]
  exists_cons hnumber := hnumber.exists_cons

theorem readsWhole_of_spells {reading : Reading String Numeral}
    {spelling : Spelling String Numeral} {value : Value} {text : List Char}
    (hreads : reading.Reads spelling) (htext : Spells spelling value text)
    (hroom : FitsInto value.depth reading.room) : ReadsWhole reading text value := by
  obtain ⟨gap, hgap, hread⟩ := read_of_spells hreads htext hroom
  exact ⟨gap, hread, expectEnd_of_isGap hgap⟩

/-! ## Space between tokens -/

section Printing

variable {spelling : Spelling String Numeral}

theorem isGap_lineBreak (depth : Nat) : IsGap (Tree.lineBreak depth) := by
  rintro char hchar
  rcases List.mem_cons.mp hchar with rfl | hchar
  · rfl
  · rw [List.eq_of_mem_replicate hchar]
    rfl

theorem isGap_blank : IsGap [' '] := List.forall_mem_singleton.mpr rfl

theorem Spells.gap_append {value : Value} {gap text : List Char} (hgap : IsGap gap)
    (htext : Spells spelling value text) : Spells spelling value (gap ++ text) := by
  have hspaced := Spells.spaced hgap htext isGap_nil
  rwa [List.append_nil] at hspaced

theorem spells_stringLiteral_of_spelling {text : String}
    (hstring : spelling.string text (text.toList.flatMap escapeChar)) :
    Spells spelling (.string text) (stringLiteral text) :=
  .string hstring

mutual

/-- A value is indented to one of its texts. -/
theorem spells_pretty
    (hstring : ∀ text, spelling.string text (text.toList.flatMap escapeChar)) :
    ∀ (depth : Nat) (value : Value),
      (∀ numeral ∈ value.numbers, spelling.number numeral numeral.text) →
      Spells spelling value (value.pretty depth)
  | _, .null, _ => .null
  | _, .boolean true, _ => .yes
  | _, .boolean false, _ => .no
  | _, .number numeral, hnumbers => .number (hnumbers numeral List.mem_cons_self)
  | _, .string text, _ => spells_stringLiteral_of_spelling (hstring text)
  | _, .array [], _ => .emptyArray isGap_nil
  | depth, .array (item :: items), hnumbers =>
      .array (spellsItems_pretty hstring (isGap_lineBreak depth) (depth + 1) (item :: items)
        (List.cons_ne_nil _ _) hnumbers)
  | _, .object [], _ => .emptyObject isGap_nil
  | depth, .object (member :: members), hnumbers =>
      .object (spellsMembers_pretty hstring (isGap_lineBreak depth) (depth + 1) (member :: members)
        (List.cons_ne_nil _ _) hnumbers)

theorem spellsItems_pretty
    (hstring : ∀ text, spelling.string text (text.toList.flatMap escapeChar)) {gap : List Char}
    (hgap : IsGap gap) (depth : Nat) :
    ∀ items : List Value, items ≠ [] →
      (∀ numeral ∈ Tree.itemsNumbers items, spelling.number numeral numeral.text) →
      SpellsItems spelling items (Tree.prettyItems depth items ++ gap)
  | [], hne, _ => absurd rfl hne
  | [item], _, hnumbers =>
      .last (.spaced (isGap_lineBreak depth)
        (spells_pretty hstring depth item (List.forall_mem_append.mp hnumbers).1) hgap)
  | item :: next :: items, _, hnumbers => by
      have hitem := spells_pretty hstring depth item (List.forall_mem_append.mp hnumbers).1
      have hlater := spellsItems_pretty hstring hgap depth (next :: items)
        (List.cons_ne_nil _ _) (List.forall_mem_append.mp hnumbers).2
      rw [Tree.prettyItems, List.append_assoc, List.cons_append]
      · exact .cons (hitem.gap_append (isGap_lineBreak depth)) hlater
      · exact List.cons_ne_nil _ _

theorem spellsMembers_pretty
    (hstring : ∀ text, spelling.string text (text.toList.flatMap escapeChar)) {gap : List Char}
    (hgap : IsGap gap) (depth : Nat) :
    ∀ members : List (String × Value), members ≠ [] →
      (∀ numeral ∈ Tree.membersNumbers members, spelling.number numeral numeral.text) →
      SpellsMembers spelling members (Tree.prettyMembers depth members ++ gap)
  | [], hne, _ => absurd rfl hne
  | [(name, value)], _, hnumbers => by
      have hname := spells_stringLiteral_of_spelling (hstring name)
      have hvalue := spells_pretty hstring depth value (List.forall_mem_append.mp hnumbers).1
      rw [Tree.prettyMembers, List.append_assoc]
      exact .last (hname.gap_append (isGap_lineBreak depth))
        (.spaced isGap_blank hvalue hgap)
  | (name, value) :: next :: members, _, hnumbers => by
      have hname := spells_stringLiteral_of_spelling (hstring name)
      have hvalue := spells_pretty hstring depth value (List.forall_mem_append.mp hnumbers).1
      have hlater := spellsMembers_pretty hstring hgap depth (next :: members)
        (List.cons_ne_nil _ _) (List.forall_mem_append.mp hnumbers).2
      rw [Tree.prettyMembers, List.append_assoc, List.cons_append]
      · exact .cons (hname.gap_append (isGap_lineBreak depth))
          (hvalue.gap_append isGap_blank) hlater
      · exact List.cons_ne_nil _ _

end

end Printing

/-! ## Natural numbers -/

section Numbers

variable {number : Nat}

theorem toDigits_eq_zero_of_head? (hhead : (Nat.toDigits 10 number).head? = some '0') :
    Nat.toDigits 10 number = ['0'] := by
  induction number using Nat.strongRecOn with
  | ind number ih =>
      by_cases hsmall : number < 10
      · rw [Nat.toDigits_of_lt_base hsmall] at hhead ⊢
        rw [Option.some.inj hhead]
      · rw [Nat.toDigits_of_base_le (by decide) (Nat.le_of_not_lt hsmall)] at hhead
        rw [List.head?_append_of_ne_nil _ Nat.toDigits_ne_nil] at hhead
        have hzero : Nat.toDigits 10 (number / 10) = Nat.toDigits 10 0 :=
          ih (number / 10) (by omega) hhead
        have hquotient := Text.toDigits_injective hzero
        omega

theorem isWhole_toDigits (number : Nat) : IsWhole (Nat.toDigits 10 number) where
  ne_nil := Nat.toDigits_ne_nil
  isDigit _ := Text.isDigit_of_mem_toDigits
  eq_zero := toDigits_eq_zero_of_head?

theorem whole_ofNat (number : Nat) : (Numeral.ofNat number).whole = Nat.toDigits 10 number := by
  simp [Numeral.ofNat]

theorem spellsNumeral_ofNat (number : Nat) :
    SpellsNumeral (Numeral.ofNat number) (Numeral.ofNat number).text := by
  have hwhole : IsWhole (Numeral.ofNat number).whole := by
    rw [whole_ofNat]
    exact isWhole_toDigits number
  exact .mk hwhole .none .none

theorem ofNat_injective : Function.Injective Numeral.ofNat := by
  intro left right heq
  have hwhole := congrArg Numeral.whole heq
  rw [whole_ofNat, whole_ofNat] at hwhole
  exact Text.toDigits_injective hwhole

end Numbers

/-! ### Their values -/

section Values

variable {number bound : Nat} {digits : List Char} {ratio : Ratio}

theorem le_ofDigitChars (digits : List Char) (number : Nat) :
    number ≤ Nat.ofDigitChars 10 digits number := by
  induction digits generalizing number with
  | nil => exact Nat.le_refl number
  | cons digit digits ih =>
      have hgrown : number ≤ 10 * number + digitValue digit := by omega
      exact hgrown.trans (ih _)

theorem addWhole_of_le {significand : Nat}
    (hfits : Nat.ofDigitChars 10 digits significand ≤ Scaled.limit) :
    Scaled.addWhole ⟨significand, 0⟩ digits = ⟨Nat.ofDigitChars 10 digits significand, 0⟩ := by
  induction digits generalizing significand with
  | nil => rfl
  | cons digit digits ih =>
      have hgrown : 10 * significand + digitValue digit ≤ Scaled.limit :=
        (le_ofDigitChars _ _).trans hfits
      rw [Scaled.addWhole]
      simp only [hgrown, if_true]
      exact ih hfits

namespace Ratio

theorem numerator_power_le {exponent : Int} (hexponent : exponent ≤ bound) :
    (power 2 exponent).numerator ≤ 2 ^ bound := by
  rw [power]
  split
  case isTrue => exact Nat.one_le_two_pow
  case isFalse => exact Nat.pow_le_pow_right (by decide) (by omega)

theorem log2_le (hnumerator : ratio.numerator < 2 ^ bound) : ratio.log2 ≤ bound := by
  have hlog : Nat.log2 ratio.numerator ≤ bound := by
    by_cases hzero : ratio.numerator = 0
    · simp [hzero]
    · exact Nat.le_of_lt ((Nat.log2_lt hzero).mpr hnumerator)
  simp only [log2]
  split <;> omega

theorem neg_one_le_log2_ofNat (number : Nat) : -1 ≤ (ofNat number).log2 := by
  have hone : Nat.log2 1 = 0 := by decide
  simp only [log2, ofNat, hone]
  split <;> omega

theorem round_le (ratio : Ratio) : ratio.round ≤ ratio.numerator + 1 := by
  have hfloor : ratio.floor ≤ ratio.numerator := Nat.div_le_self _ _
  simp only [round]
  split <;> omega

end Ratio

namespace Double

/-- The mantissa is rounded at the chosen exponent, which is raised by one if that makes the
mantissa too long. -/
theorem ofRatio_cases (ratio : Ratio) (hnonzero : ratio.numerator ≠ 0) :
    let exponent := max leastExponent (ratio.log2 - 52)
    ofRatio ratio = ⟨0x10000000000000, exponent + 1⟩ ∨
      ofRatio ratio = ⟨(ratio.mul (.power 2 (-exponent))).round, exponent⟩ := by
  have hexponent : (if ratio.log2 - 52 < leastExponent then leastExponent else ratio.log2 - 52) =
      max leastExponent (ratio.log2 - 52) := by
    split <;> omega
  intro exponent
  simp only [ofRatio, if_neg hnonzero, hexponent]
  split
  case isTrue => exact .inl rfl
  case isFalse => exact .inr rfl

theorem exponent_ofRatio_le (hnumerator : ratio.numerator < 2 ^ bound) :
    (ofRatio ratio).exponent ≤ bound := by
  have hleast : leastExponent = -1074 := rfl
  by_cases hzero : ratio.numerator = 0
  · rw [ofRatio, if_pos hzero]
    exact Int.le_trans (by decide) (Int.natCast_nonneg bound)
  · have hlog := Ratio.log2_le hnumerator
    rcases ofRatio_cases ratio hzero with hshape | hshape <;> rw [hshape] <;> simp only [] <;> omega

theorem mantissa_ofNat_le (hnumber : number < 2 ^ 64) :
    (ofRatio (.ofNat number)).mantissa ≤ 2 ^ 118 := by
  by_cases hzero : number = 0
  · subst hzero
    decide
  · rcases ofRatio_cases (.ofNat number) hzero with hshape | hshape
    · rw [hshape]
      show 0x10000000000000 ≤ 2 ^ 118
      decide
    · have hleast : leastExponent = -1074 := rfl
      have hlog := Ratio.neg_one_le_log2_ofNat number
      have hexponent : -max leastExponent ((Ratio.ofNat number).log2 - 52) ≤ (53 : Nat) := by
        omega
      rw [hshape]
      calc ((Ratio.ofNat number).mul (.power 2 _)).round
          ≤ number * (Ratio.power 2 _).numerator + 1 := Ratio.round_le _
        _ ≤ 2 ^ 64 * 2 ^ 53 + 1 := Nat.succ_le_succ
            (Nat.mul_le_mul (Nat.le_of_lt hnumber) (Ratio.numerator_power_le hexponent))
        _ ≤ 2 ^ 118 := by decide

/-- A number of 64 bits stays far below the largest double. -/
theorem isInfinite_mul_powerOfTen_zero (hnumber : number < 2 ^ 64) :
    ((ofRatio (.ofNat number)).mul (.powerOfTen 0)).isInfinite = false := by
  have hone : (powerOfTen 0).toRatio.numerator < 2 ^ 53 := by decide +kernel
  have hexponent : (ofRatio (.ofNat number)).exponent ≤ (64 : Nat) := exponent_ofRatio_le hnumber
  have hnumerator : ((ofRatio (.ofNat number)).toRatio.mul (powerOfTen 0).toRatio).numerator <
      2 ^ 236 :=
    calc (ofRatio (.ofNat number)).mantissa * (Ratio.power 2 _).numerator *
          (powerOfTen 0).toRatio.numerator
        ≤ 2 ^ 118 * 2 ^ 64 * 2 ^ 53 :=
          Nat.mul_le_mul (Nat.mul_le_mul (mantissa_ofNat_le hnumber)
            (Ratio.numerator_power_le hexponent)) (Nat.le_of_lt hone)
      _ < 2 ^ 236 := by decide
  have hbound := exponent_ofRatio_le hnumerator
  rw [isInfinite, mul, decide_eq_false_iff_not]
  omega

end Double

theorem scaled_ofNat (hnumber : number ≤ Scaled.limit) :
    (Numeral.ofNat number).scaled = ⟨number, 0⟩ := by
  have hvalue : Nat.ofDigitChars 10 (Nat.toDigits 10 number) 0 = number :=
    Nat.ofDigitChars_toDigits (by decide) (by decide)
  calc (Numeral.ofNat number).scaled
      = Scaled.addWhole ⟨0, 0⟩ (Nat.toDigits 10 number) := by rw [← whole_ofNat]; rfl
    _ = ⟨Nat.ofDigitChars 10 (Nat.toDigits 10 number) 0, 0⟩ := addWhole_of_le (by rwa [hvalue])
    _ = ⟨number, 0⟩ := by rw [hvalue]

/-- A number of 64 bits is not too large to be read. -/
theorem magnitude?_ofNat (hnumber : number ≤ Scaled.limit) :
    (Numeral.ofNat number).magnitude?.isSome = true := by
  have hmagnitude : (Numeral.ofNat number).magnitude? = (Numeral.ofNat number).scaled.value? := rfl
  have hlt : number < 2 ^ 64 := Nat.lt_of_le_of_lt hnumber (by decide)
  have hfinite := Double.isInfinite_mul_powerOfTen_zero hlt
  rw [hmagnitude, scaled_ofNat hnumber, Scaled.value?]
  by_cases hzero : number = 0
  · simp [hzero]
  · simp [hzero, hfinite]

theorem plain_ofNat (hnumber : number ≤ Scaled.limit) :
    plainSpelling.number (Numeral.ofNat number) (Numeral.ofNat number).text :=
  ⟨spellsNumeral_ofNat number, magnitude?_ofNat hnumber⟩

end Values

/-! ## Reading indented values -/

section Reading

variable {kind : Nat → Prop} {bound : Nat} {value : Value} {items : List Value}
  {members : List (String × Value)}

theorem nests_string (text : String) : Nests kind 0 (.string text) :=
  ⟨Nat.le_refl 0, List.forall_mem_nil _⟩

theorem nests_nat {number : Nat} (hnumber : kind number) : Nests kind 0 (.nat number) :=
  ⟨Nat.le_refl 0, List.forall_mem_singleton.mpr ⟨number, hnumber, rfl⟩⟩

theorem Nests.mono {larger : Nat} (hnests : Nests kind bound value) (hle : bound ≤ larger) :
    Nests kind larger value :=
  ⟨hnests.depth_le.trans hle, hnests.numbers⟩

theorem nests_array (hitems : ∀ item ∈ items, Nests kind bound item) :
    Nests kind (bound + 1) (.array items) := by
  induction items with
  | nil => exact ⟨Nat.succ_le_succ (Nat.zero_le bound), List.forall_mem_nil _⟩
  | cons item items ih =>
      obtain ⟨hitem, hitems⟩ := List.forall_mem_cons.mp hitems
      obtain ⟨hdepth, hnumbers⟩ := ih hitems
      exact ⟨Nat.succ_le_succ (max_le hitem.depth_le (Nat.le_of_succ_le_succ hdepth)),
        List.forall_mem_append.mpr ⟨hitem.numbers, hnumbers⟩⟩

theorem nests_object (hmembers : ∀ member ∈ members, Nests kind bound member.2) :
    Nests kind (bound + 1) (.object members) := by
  induction members with
  | nil => exact ⟨Nat.succ_le_succ (Nat.zero_le bound), List.forall_mem_nil _⟩
  | cons member members ih =>
      obtain ⟨hmember, hmembers⟩ := List.forall_mem_cons.mp hmembers
      obtain ⟨hdepth, hnumbers⟩ := ih hmembers
      exact ⟨Nat.succ_le_succ (max_le hmember.depth_le (Nat.le_of_succ_le_succ hdepth)),
        List.forall_mem_append.mpr ⟨hmember.numbers, hnumbers⟩⟩

/-- An indented value with a line feed behind it is read back, if the reader knows its numbers and
has room for it. -/
theorem readsWhole_pretty {reading : Reading String Numeral} {spelling : Spelling String Numeral}
    (hreads : reading.Reads spelling)
    (hstring : ∀ text, spelling.string text (text.toList.flatMap escapeChar))
    (hnumber : ∀ number, kind number →
      spelling.number (Numeral.ofNat number) (Numeral.ofNat number).text)
    (hnests : Nests kind bound value) (hroom : FitsInto bound reading.room) :
    ReadsWhole reading (value.pretty 0 ++ ['\n']) value := by
  have hnumbers : ∀ numeral ∈ value.numbers, spelling.number numeral numeral.text := by
    intro numeral hnumeral
    obtain ⟨number, hkind, rfl⟩ := hnests.numbers numeral hnumeral
    exact hnumber number hkind
  have hnewline : IsGap ['\n'] := List.forall_mem_singleton.mpr rfl
  have htext := Spells.spaced isGap_nil (spells_pretty hstring 0 value hnumbers) hnewline
  exact readsWhole_of_spells hreads htext (hroom.mono hnests.depth_le)

theorem exact_readsWhole_pretty (hnests : Nests kind bound value) :
    ReadsWhole exact (value.pretty 0 ++ ['\n']) value :=
  readsWhole_pretty exact_reads (fun text => spellsChars_escapeChar text.toList)
    (fun number _ => spellsNumeral_ofNat number) hnests
    fun _ hlimit => absurd hlimit (Option.not_mem_none _)

theorem strict_readsWhole_pretty (hnests : Nests (· ≤ Scaled.limit) bound value)
    (hbound : bound ≤ 127) : ReadsWhole strict (value.pretty 0 ++ ['\n']) value := by
  have hroom : FitsInto bound strict.room := by
    rintro limit ⟨⟩
    exact hbound
  exact readsWhole_pretty strict_reads (fun text => spellsChars_escapeChar text.toList)
    (fun _ => plain_ofNat) hnests hroom

end Reading

end StepFlow.Json
