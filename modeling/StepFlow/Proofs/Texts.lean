import Mathlib.Data.List.DropRight
import StepFlow.Text.Blank
import StepFlow.Text.Lines

/-!
# Texts

Texts of this library are put together from words, numbers and lines, and read again by cutting them
at separators.  This file holds what both directions have in common: a text is recovered from its
pieces if the separator does not occur in them, decimal numbers contain neither separators nor
blanks, and trimming leaves alone whatever has no blank at its ends.
-/

namespace StepFlow.Text

/-! ## Cutting at a separator -/

section Cutting

variable {β : Type} [DecidableEq β] {sep : β} {front other tail rest : List β}

theorem takeWhile_append_cons (hfront : sep ∉ front) :
    (front ++ sep :: tail).takeWhile (· ≠ sep) = front := by
  rw [List.takeWhile_append_of_pos]
  · simp
  · intro item hitem
    simpa using ne_of_mem_of_not_mem hitem hfront

/-- The part of a list behind its last separator. -/
def lastPart (sep : β) (items : List β) : List β := items.rtakeWhile (· ≠ sep)

@[simp]
theorem lastPart_append_cons (htail : sep ∉ tail) : lastPart sep (front ++ sep :: tail) = tail := by
  have hreverse : (front ++ sep :: tail).reverse = tail.reverse ++ sep :: front.reverse := by simp
  rw [lastPart, List.rtakeWhile, hreverse, takeWhile_append_cons (by simpa), List.reverse_reverse]

theorem append_cons_inj_of_first (hfront : sep ∉ front) (hother : sep ∉ other)
    (heq : front ++ sep :: tail = other ++ sep :: rest) : front = other ∧ tail = rest := by
  have htake := congrArg (List.takeWhile (· ≠ sep)) heq
  rw [takeWhile_append_cons hfront, takeWhile_append_cons hother] at htake
  subst htake
  simpa using heq

theorem append_cons_inj_of_last (htail : sep ∉ tail) (hrest : sep ∉ rest)
    (heq : front ++ sep :: tail = other ++ sep :: rest) : front = other ∧ tail = rest := by
  have hlast := congrArg (lastPart sep) heq
  rw [lastPart_append_cons htail, lastPart_append_cons hrest] at hlast
  subst hlast
  exact ⟨List.append_cancel_right heq, rfl⟩

end Cutting

/-! ## Decimal numbers -/

section Numbers

variable {char : Char} {number : Nat}

theorem isDigit_of_mem_toDigits (hmem : char ∈ Nat.toDigits 10 number) : char.isDigit = true :=
  Nat.isDigit_of_mem_toDigits (by decide) (by decide) hmem

theorem not_mem_toDigits (hchar : char.isDigit = false) : char ∉ Nat.toDigits 10 number := by
  intro hmem
  rw [isDigit_of_mem_toDigits hmem] at hchar
  contradiction

theorem toDigits_injective : Function.Injective (Nat.toDigits 10) := by
  intro left right heq
  have hread := congrArg (fun digits => Nat.ofDigitChars 10 digits 0) heq
  simpa using hread

end Numbers

/-! ## Lines -/

section Lines

variable {pieces others : List (List Char)}

theorem splitOn_unlines (hpieces : ∀ piece ∈ pieces, '\n' ∉ piece) (hnonempty : pieces ≠ []) :
    (unlines pieces).splitOn '\n' = pieces :=
  List.splitOn_intercalate '\n' hpieces hnonempty

theorem unlines_splitOn (text : List Char) : unlines (text.splitOn '\n') = text :=
  List.intercalate_splitOn '\n'

theorem unlines_eq_nil_iff (hpieces : ∀ piece ∈ pieces, piece ≠ []) :
    unlines pieces = [] ↔ pieces = [] := by
  cases pieces with
  | nil => simp [unlines]
  | cons piece later =>
      have hpiece := hpieces piece List.mem_cons_self
      cases later <;> simp [unlines, List.intercalate_cons_cons, hpiece]

/-- Lines that are not empty are recovered from the text that joins them. -/
theorem unlines_inj (hpieces : ∀ piece ∈ pieces, piece ≠ [] ∧ '\n' ∉ piece)
    (hothers : ∀ piece ∈ others, piece ≠ [] ∧ '\n' ∉ piece)
    (heq : unlines pieces = unlines others) : pieces = others := by
  by_cases hempty : pieces = []
  · rw [(unlines_eq_nil_iff fun piece hpiece => (hpieces piece hpiece).1).mpr hempty] at heq
    rw [hempty, (unlines_eq_nil_iff fun piece hpiece => (hothers piece hpiece).1).mp heq.symm]
  · have hempty' : others ≠ [] := by
      rintro rfl
      exact hempty ((unlines_eq_nil_iff fun piece hpiece => (hpieces piece hpiece).1).mp heq)
    rw [← splitOn_unlines (fun piece hpiece => (hpieces piece hpiece).2) hempty, heq,
      splitOn_unlines (fun piece hpiece => (hothers piece hpiece).2) hempty']

/-- Every line feed in front of the last one of a text divides its lines. -/
theorem linesFrom_append_newline {line : List Char} (text rest : List Char) (hline : '\n' ∉ line) :
    linesFrom line (text ++ '\n' :: rest) =
      ((line.reverse ++ text).splitOn '\n').map dropReturn ++ lines rest := by
  induction text generalizing line with
  | nil => simp [linesFrom, lines, List.splitOn_eq_singleton, hline]
  | cons char text ih =>
      by_cases hchar : char = '\n'
      · subst hchar
        simp [linesFrom, ih, List.splitOn_append_cons_self, List.splitOn_eq_singleton, hline]
      · have hlonger : '\n' ∉ char :: line :=
          List.not_mem_cons_of_ne_of_not_mem (Ne.symm hchar) hline
        simp [linesFrom, hchar, ih hlonger]

/-- The lines of texts of which each ends with a line feed. -/
theorem lines_join_append (texts : List String) (rest : List Char) :
    lines ((String.join (texts.map (· ++ "\n"))).toList ++ rest) =
      (texts.flatMap fun text => text.toList.splitOn '\n').map dropReturn ++ lines rest := by
  induction texts with
  | nil => simp
  | cons text later ih =>
      have hfirst := linesFrom_append_newline text.toList
        ((String.join (later.map (· ++ "\n"))).toList ++ rest) List.not_mem_nil
      rw [List.reverse_nil, List.nil_append, ih] at hfirst
      simpa [lines, String.toList_append] using hfirst

end Lines

/-! ## Blanks at the ends -/

/-- The text has no blank at its ends. -/
def Trimmed (text : List Char) : Prop := trim text = text

section Trimming

variable {text front back marker : List Char} {char : Char}

@[simp]
theorem trim_nil : trim [] = [] := rfl

theorem trimStart_eq_self_iff :
    trimStart text = text ↔ ∀ char ∈ text.head?, isBlank char = false := by
  rw [trimStart, List.dropWhile_eq_self_iff]
  cases text <;> simp

theorem trimEnd_eq_rdropWhile (text : List Char) : trimEnd text = text.rdropWhile isBlank := rfl

theorem trimEnd_eq_self_iff :
    trimEnd text = text ↔ ∀ char ∈ text.getLast?, isBlank char = false := by
  rw [trimEnd_eq_rdropWhile, List.rdropWhile_eq_self_iff]
  cases text <;> simp [List.getLast?_eq_some_getLast]

theorem trimmed_iff :
    Trimmed text ↔ (∀ char ∈ text.head?, isBlank char = false) ∧
      ∀ char ∈ text.getLast?, isBlank char = false := by
  rw [← trimStart_eq_self_iff, ← trimEnd_eq_self_iff, Trimmed, trim]
  constructor
  · intro htrim
    -- Trimming only shortens, so a text of the same length lost nothing on either side.
    have hlength : text.length ≤ (trimStart text).length := by
      conv_lhs => rw [← htrim]
      exact (List.rdropWhile_prefix isBlank (trimStart text)).length_le
    have hstart : trimStart text = text :=
      (List.dropWhile_suffix isBlank).eq_of_length_le hlength
    rw [hstart] at htrim
    exact ⟨hstart, htrim⟩
  · rintro ⟨hstart, hend⟩
    rw [hstart, hend]

theorem trimmed_of_forall (htext : ∀ char ∈ text, isBlank char = false) : Trimmed text :=
  trimmed_iff.mpr ⟨fun _ hchar => htext _ (List.mem_of_head? hchar),
    fun _ hchar => htext _ (List.mem_of_getLast? hchar)⟩

theorem isBlank_eq_false_of_isDigit (hdigit : char.isDigit = true) : isBlank char = false := by
  have hbounds : 48 ≤ char.toNat ∧ char.toNat ≤ 57 := by
    simpa [Char.isDigit, UInt32.le_iff_toNat_le] using hdigit
  simp [isBlank]
  omega

theorem trimmed_toDigits (number : Nat) : Trimmed (Nat.toDigits 10 number) :=
  trimmed_of_forall fun _ hchar => isBlank_eq_false_of_isDigit (isDigit_of_mem_toDigits hchar)

/-- What lies between two trimmed texts is not at an end. -/
theorem Trimmed.append (hfront : Trimmed front) (hback : Trimmed back) (hne : front ≠ [])
    (hne' : back ≠ []) (middle : List Char) : Trimmed (front ++ middle ++ back) := by
  rw [trimmed_iff] at hfront hback ⊢
  rw [List.append_assoc, List.head?_append_of_ne_nil _ hne, ← List.append_assoc,
    List.getLast?_append_of_ne_nil _ hne']
  exact ⟨hfront.1, hback.2⟩

theorem trim_append_blank (hblank : isBlank char = true) : trim (text ++ [char]) = trim text := by
  have hend : ∀ text : List Char, trimEnd (text ++ [char]) = trimEnd text := by
    intro text
    rw [trimEnd_eq_rdropWhile, List.rdropWhile_concat_pos _ _ _ hblank, trimEnd_eq_rdropWhile]
  rw [trim, trim, trimStart, trimStart, List.dropWhile_append]
  split
  · rename_i hnone
    rw [List.isEmpty_iff.mp hnone, List.dropWhile_cons_of_pos hblank, List.dropWhile_nil]
  · exact hend _

/-- The carriage return that ends a line is a blank. -/
theorem trim_dropReturn (line : List Char) : trim (dropReturn line) = trim line := by
  cases line using List.reverseRecOn with
  | nil => rfl
  | append_singleton front char =>
      by_cases hchar : char = '\r'
      · subst hchar
        rw [trim_append_blank rfl]
        simp [dropReturn]
      · simp [dropReturn, hchar]

theorem after?_append (marker text : List Char) : after? marker (marker ++ text) = some text := by
  induction marker with
  | nil => rfl
  | cons char marker ih => simp [after?, ih]

/-- Behind a marker and a blank, a trimmed text is found again after trimming. -/
theorem exists_trim_marker (hmarker : Trimmed marker) (hne : marker ≠ []) (htext : Trimmed text) :
    ∃ rest, trim (marker ++ ' ' :: text) = marker ++ rest ∧ trim rest = text := by
  by_cases hempty : text = []
  · refine ⟨[], ?_, hempty.symm⟩
    rw [hempty, trim_append_blank rfl, List.append_nil]
    exact hmarker
  · refine ⟨' ' :: text, ?_, htext⟩
    simpa [Trimmed] using hmarker.append htext hne hempty [' ']

end Trimming

/-! ## Trimmed lines -/

theorem trimmed_unlines {pieces : List (List Char)}
    (hpieces : ∀ piece ∈ pieces, piece ≠ [] ∧ Trimmed piece) : Trimmed (unlines pieces) := by
  induction pieces with
  | nil => rfl
  | cons piece later ih =>
      obtain ⟨hpiece, hlater⟩ := List.forall_mem_cons.mp hpieces
      cases later with
      | nil => simpa [unlines] using hpiece.2
      | cons second later =>
          have hne : unlines (second :: later) ≠ [] := by
            rw [Ne, unlines_eq_nil_iff fun piece hmem => (hlater piece hmem).1]
            exact List.cons_ne_nil second later
          simpa [unlines, List.intercalate_cons_cons] using
            hpiece.2.append (ih hlater) hpiece.1 hne ['\n']

end StepFlow.Text
