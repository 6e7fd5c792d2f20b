import StepFlow.CaseFile.Verdict
import StepFlow.Proofs.Texts

/-!
# Words and layout

Taking the layout off a text leaves its words: one blank between two words of a line, one line feed
between two lines that have words.  Nothing else of the text is kept, and nothing of the words is
lost, because a word has no blank in it, be it a space or the end of a line.  So the words are read
again from what is left, and two texts come to the same exactly when they have the same words on the
same lines.
Main statements: `wordLines_squash` and `squash_eq_iff`.
-/

namespace StepFlow

namespace Text

/-- Some characters, none of which is blank. -/
structure IsWord (word : List Char) : Prop where
  ne_nil : word ≠ []
  not_blank : ∀ char ∈ word, isBlank char = false

/-- Some words. -/
structure IsWordLine (line : List (List Char)) : Prop where
  ne_nil : line ≠ []
  isWord : ∀ word ∈ line, IsWord word

/-! ## Words between blanks -/

section Words

variable {word text front rest : List Char} {char : Char} {line : List (List Char)}

theorem wordsFrom_append (hfront : ∀ char ∈ front, isBlank char = false) (word rest : List Char) :
    wordsFrom word (front ++ rest) = wordsFrom (front.reverse ++ word) rest := by
  induction front generalizing word with
  | nil => rfl
  | cons char front ih =>
      obtain ⟨hchar, hfront⟩ := List.forall_mem_cons.mp hfront
      rw [List.cons_append, wordsFrom, hchar, if_neg Bool.false_ne_true, ih hfront,
        List.reverse_cons, List.append_assoc, List.singleton_append]

theorem IsWord.words_eq (hword : IsWord word) : words word = [word] := by
  have hread := wordsFrom_append hword.not_blank [] []
  rw [List.append_nil, List.append_nil] at hread
  rw [words, hread, wordsFrom]
  simp [hword.ne_nil]

theorem IsWord.words_append (hword : IsWord word) (hchar : isBlank char = true)
    (rest : List Char) : words (word ++ char :: rest) = word :: words rest := by
  rw [words, wordsFrom_append hword.not_blank, List.append_nil, wordsFrom, hchar]
  simp [hword.ne_nil, words]

/-- The words of a line are recovered from the text that joins them. -/
theorem words_intercalate (hline : ∀ word ∈ line, IsWord word) :
    words ([' '].intercalate line) = line := by
  induction line with
  | nil => rfl
  | cons word later ih =>
      obtain ⟨hword, hlater⟩ := List.forall_mem_cons.mp hline
      cases later with
      | nil => rw [List.intercalate_singleton, hword.words_eq]
      | cons next later =>
          rw [List.intercalate_cons_cons, List.append_assoc, List.singleton_append,
            hword.words_append rfl, ih hlater]

theorem isWord_reverse {carried : List Char} (hcarried : ∀ char ∈ carried, isBlank char = false)
    (hne : carried ≠ []) : IsWord carried.reverse :=
  ⟨by simpa using hne, fun char hchar => hcarried char (List.mem_reverse.mp hchar)⟩

theorem isWord_of_mem_wordsFrom {carried : List Char}
    (hcarried : ∀ char ∈ carried, isBlank char = false) (hmem : word ∈ wordsFrom carried text) :
    IsWord word := by
  induction text generalizing carried with
  | nil =>
      rw [wordsFrom] at hmem
      split at hmem
      case isTrue => contradiction
      case isFalse hne =>
        rw [List.mem_singleton.mp hmem]
        exact isWord_reverse hcarried (by simpa using hne)
  | cons char rest ih =>
      rw [wordsFrom] at hmem
      split at hmem
      case isTrue =>
        split at hmem
        case isTrue => exact ih (List.forall_mem_nil _) hmem
        case isFalse hne =>
          rcases List.mem_cons.mp hmem with rfl | hmem
          · exact isWord_reverse hcarried (by simpa using hne)
          · exact ih (List.forall_mem_nil _) hmem
      case isFalse hchar =>
        exact ih (List.forall_mem_cons.mpr ⟨by simpa using hchar, hcarried⟩) hmem

theorem isWord_of_mem_words (hmem : word ∈ words text) : IsWord word :=
  isWord_of_mem_wordsFrom (List.forall_mem_nil _) hmem

end Words

/-! ## Lines -/

section Lines

variable {text : List Char} {pieces : List (List Char)}

theorem linesFrom_of_not_mem (hnewline : '\n' ∉ text) (line : List Char) :
    linesFrom line text = linesFrom (text.reverse ++ line) [] := by
  induction text generalizing line with
  | nil => rfl
  | cons char text ih =>
      have hstep : linesFrom line (char :: text) = linesFrom (char :: line) text := by
        rw [linesFrom, if_neg (List.ne_of_not_mem_cons hnewline).symm]
      rw [hstep, ih (List.not_mem_of_not_mem_cons hnewline), List.reverse_cons, List.append_assoc,
        List.singleton_append]

theorem lines_of_not_mem (hnewline : '\n' ∉ text) (hne : text ≠ []) : lines text = [text] := by
  rw [lines, linesFrom_of_not_mem hnewline, List.append_nil, linesFrom]
  simp [hne]

theorem lines_append_newline {piece : List Char} (hpiece : '\n' ∉ piece)
    (hreturn : dropReturn piece = piece) (rest : List Char) :
    lines (piece ++ '\n' :: rest) = piece :: lines rest := by
  have hfirst := linesFrom_append_newline piece rest List.not_mem_nil
  rw [List.reverse_nil, List.nil_append, List.splitOn_eq_singleton hpiece, List.map_singleton,
    hreturn] at hfirst
  exact hfirst

theorem unlines_cons_cons (piece next : List Char) (later : List (List Char)) :
    unlines (piece :: next :: later) = piece ++ '\n' :: unlines (next :: later) := by
  rw [unlines, List.intercalate_cons_cons, List.append_assoc, List.singleton_append, ← unlines]

/-- Joined by line feeds, lines come back as they were if none of them is empty or ends with a
carriage return. -/
theorem lines_unlines (hpieces : ∀ piece ∈ pieces, piece ≠ [] ∧ '\n' ∉ piece)
    (hreturn : ∀ piece ∈ pieces, dropReturn piece = piece) : lines (unlines pieces) = pieces := by
  induction pieces with
  | nil => rfl
  | cons piece later ih =>
      obtain ⟨hpiece, hlater⟩ := List.forall_mem_cons.mp hpieces
      obtain ⟨hkept, hreturn⟩ := List.forall_mem_cons.mp hreturn
      cases later with
      | nil => rw [unlines, List.intercalate_singleton, lines_of_not_mem hpiece.2 hpiece.1]
      | cons next later =>
          rw [unlines_cons_cons, lines_append_newline hpiece.2 hkept, ih hlater hreturn]

/-- Without these conditions it is an empty line at the end that may be lost. -/
theorem mem_of_mem_lines_unlines {line : List Char} (hpieces : ∀ piece ∈ pieces, '\n' ∉ piece)
    (hreturn : ∀ piece ∈ pieces, dropReturn piece = piece) (hline : line ∈ lines (unlines pieces)) :
    line ∈ pieces := by
  induction pieces with
  | nil => contradiction
  | cons piece later ih =>
      obtain ⟨hpiece, hlater⟩ := List.forall_mem_cons.mp hpieces
      obtain ⟨hkept, hreturn⟩ := List.forall_mem_cons.mp hreturn
      cases later with
      | nil =>
          rw [unlines, List.intercalate_singleton] at hline
          by_cases hempty : piece = []
          · subst hempty
            contradiction
          · rwa [lines_of_not_mem hpiece hempty] at hline
      | cons next later =>
          rw [unlines_cons_cons, lines_append_newline hpiece hkept] at hline
          rcases List.mem_cons.mp hline with rfl | hline
          · exact List.mem_cons_self
          · exact List.mem_cons_of_mem _ (ih hlater hreturn hline)

theorem dropReturn_of_trimmed (htext : Trimmed text) : dropReturn text = text := by
  rw [dropReturn]
  split
  case h_1 hlast =>
    have hblank := (trimmed_iff.mp htext).2 '\r' hlast
    exact absurd hblank (by decide)
  case h_2 => rfl

theorem newline_not_mem_of_mem_linesFrom {line carried : List Char} (hcarried : '\n' ∉ carried)
    (hline : line ∈ linesFrom carried text) : '\n' ∉ line := by
  induction text generalizing carried with
  | nil =>
      rw [linesFrom] at hline
      split at hline
      case isTrue => contradiction
      case isFalse =>
        rw [List.mem_singleton.mp hline]
        simpa using hcarried
  | cons char text ih =>
      rw [linesFrom] at hline
      split at hline
      case isTrue =>
        rcases List.mem_cons.mp hline with rfl | hline
        · intro hmem
          have hbegins : dropReturn carried.reverse <+: carried.reverse := by
            rw [dropReturn]
            split
            · exact List.dropLast_prefix _
            · exact List.prefix_refl _
          exact hcarried (List.mem_reverse.mp (hbegins.subset hmem))
        · exact ih List.not_mem_nil hline
      case isFalse hchar =>
        exact ih (List.not_mem_cons_of_ne_of_not_mem (Ne.symm hchar) hcarried) hline

theorem newline_not_mem_of_mem_lines {line : List Char} (hline : line ∈ lines text) : '\n' ∉ line :=
  newline_not_mem_of_mem_linesFrom List.not_mem_nil hline

end Lines

/-! ## Trimmed lines -/

section Trimming

variable {pieces : List (List Char)}

theorem trim_subset (text : List Char) : trim text ⊆ text :=
  List.Subset.trans (List.rdropWhile_prefix isBlank (trimStart text)).subset
    (List.dropWhile_suffix isBlank).subset

theorem trimmed_trim (text : List Char) : Trimmed (trim text) := by
  rw [trimmed_iff]
  constructor
  · intro char hchar
    have hbegins : trim text <+: trimStart text := List.rdropWhile_prefix isBlank _
    obtain ⟨rest, hrest⟩ := hbegins
    have hhead : char ∈ (trimStart text).head? := by
      rw [← hrest, List.head?_append, Option.mem_def.mp hchar]
      rfl
    have hstart : trimStart (trimStart text) = trimStart text := List.dropWhile_idempotent ..
    exact trimStart_eq_self_iff.mp hstart char hhead
  · have hend : trimEnd (trim text) = trim text := List.rdropWhile_idempotent ..
    exact trimEnd_eq_self_iff.mp hend

theorem trimEnd_append (front back : List Char) :
    trimEnd (front ++ back) =
      if trimEnd back = [] then trimEnd front else front ++ trimEnd back := by
  rw [trimEnd, List.reverse_append, List.dropWhile_append]
  simp only [trimEnd, List.reverse_eq_nil_iff, List.isEmpty_iff]
  split
  · rfl
  · rw [List.reverse_append, List.reverse_reverse]

theorem exists_trimStart_unlines (hpieces : ∀ piece ∈ pieces, Trimmed piece) :
    ∃ kept, kept.Sublist pieces ∧ trimStart (unlines pieces) = unlines kept := by
  induction pieces with
  | nil => exact ⟨[], List.Sublist.refl _, rfl⟩
  | cons piece later ih =>
      obtain ⟨hpiece, hlater⟩ := List.forall_mem_cons.mp hpieces
      obtain ⟨kept, hkept, hunlines⟩ := ih hlater
      cases piece with
      | nil =>
          refine ⟨kept, hkept.cons _, ?_⟩
          rw [← hunlines]
          cases later <;> rfl
      | cons char piece =>
          refine ⟨_, List.Sublist.refl _, trimStart_eq_self_iff.mpr ?_⟩
          have hchar := (trimmed_iff.mp hpiece).1
          cases later <;> exact hchar

theorem exists_trimEnd_unlines (hpieces : ∀ piece ∈ pieces, Trimmed piece) :
    ∃ kept, kept.Sublist pieces ∧ trimEnd (unlines pieces) = unlines kept := by
  induction pieces with
  | nil => exact ⟨[], List.Sublist.refl _, rfl⟩
  | cons piece later ih =>
      obtain ⟨hpiece, hlater⟩ := List.forall_mem_cons.mp hpieces
      obtain ⟨kept, hkept, hunlines⟩ := ih hlater
      have hend : trimEnd piece = piece := trimEnd_eq_self_iff.mpr (trimmed_iff.mp hpiece).2
      cases later with
      | nil =>
          refine ⟨[piece], List.Sublist.refl _, ?_⟩
          rw [unlines, List.intercalate_singleton, hend]
      | cons next later =>
          rw [unlines_cons_cons, List.append_cons, trimEnd_append, hunlines]
          split
          case isTrue =>
            refine ⟨[piece], List.cons_sublist_cons.mpr (List.nil_sublist _), ?_⟩
            rw [trimEnd_append, if_pos (by rfl), hend, unlines, List.intercalate_singleton]
          case isFalse hne =>
            refine ⟨piece :: kept, List.cons_sublist_cons.mpr hkept, ?_⟩
            have hkept : kept ≠ [] := by
              rintro rfl
              exact hne rfl
            rw [unlines, unlines, List.intercalate_cons_of_ne_nil hkept]

/-- Trimming the text of trimmed lines takes away lines only. -/
theorem exists_trim_unlines (hpieces : ∀ piece ∈ pieces, Trimmed piece) :
    ∃ kept, kept.Sublist pieces ∧ trim (unlines pieces) = unlines kept := by
  obtain ⟨started, hstarted, hstart⟩ := exists_trimStart_unlines hpieces
  obtain ⟨kept, hkept, hend⟩ :=
    exists_trimEnd_unlines fun piece hpiece => hpieces piece (hstarted.subset hpiece)
  exact ⟨kept, hkept.trans hstarted, by rw [trim, hstart, hend]⟩

end Trimming

/-! ## Lines of words -/

section WordLines

variable {line : List (List Char)}

theorem IsWord.trimmed {word : List Char} (hword : IsWord word) : Trimmed word :=
  trimmed_of_forall hword.not_blank

theorem IsWord.newline_not_mem {word : List Char} (hword : IsWord word) : '\n' ∉ word := fun hmem =>
  absurd (hword.not_blank _ hmem) (by decide)

theorem newline_not_mem_intercalate (hline : ∀ word ∈ line, IsWord word) :
    '\n' ∉ [' '].intercalate line := by
  induction line with
  | nil => exact List.not_mem_nil
  | cons word later ih =>
      obtain ⟨hword, hlater⟩ := List.forall_mem_cons.mp hline
      cases later with
      | nil => simpa using hword.newline_not_mem
      | cons next later =>
          simpa [List.intercalate_cons_cons, hword.newline_not_mem] using ih hlater

theorem IsWordLine.intercalate_ne_nil (hline : IsWordLine line) : [' '].intercalate line ≠ [] := by
  obtain ⟨word, later, rfl⟩ := List.exists_cons_of_ne_nil hline.ne_nil
  have hword := (hline.isWord word List.mem_cons_self).ne_nil
  cases later <;> simp [List.intercalate_cons_cons, hword]

theorem IsWordLine.trimmed (hline : IsWordLine line) : Trimmed ([' '].intercalate line) := by
  obtain ⟨hne, hwords⟩ := hline
  induction line with
  | nil => exact absurd rfl hne
  | cons word later ih =>
      obtain ⟨hword, hlater⟩ := List.forall_mem_cons.mp hwords
      cases later with
      | nil => simpa using hword.trimmed
      | cons next later =>
          have hrest : IsWordLine (next :: later) := ⟨List.cons_ne_nil _ _, hlater⟩
          rw [List.intercalate_cons_cons]
          exact hword.trimmed.append (ih hrest.ne_nil hlater) hword.ne_nil
            hrest.intercalate_ne_nil [' ']

end WordLines

end Text

/-! ## Texts without layout -/

open Text

theorem isWordLine_of_mem_wordLines {text : List Char} {line : List (List Char)}
    (hmem : line ∈ wordLines text) : IsWordLine line := by
  obtain ⟨hmem, hne⟩ := List.mem_filter.mp hmem
  obtain ⟨source, _, rfl⟩ := List.mem_map.mp hmem
  exact ⟨by simpa using hne, fun word => isWord_of_mem_words⟩

/-- The lines that are left of a text are its words, joined by single blanks. -/
theorem lines_squash (text : String) :
    lines (squash text).toList = (wordLines text.toList).map [' '].intercalate := by
  rw [squash, String.toList_ofList]
  apply lines_unlines
  · rw [List.forall_mem_map]
    intro line hline
    have hwords := isWordLine_of_mem_wordLines hline
    exact ⟨hwords.intercalate_ne_nil, newline_not_mem_intercalate hwords.isWord⟩
  · rw [List.forall_mem_map]
    exact fun line hline => dropReturn_of_trimmed (isWordLine_of_mem_wordLines hline).trimmed

/-- The words stay on their lines. -/
theorem wordLines_squash (text : String) :
    wordLines (squash text).toList = wordLines text.toList := by
  have hwords : ((wordLines text.toList).map [' '].intercalate).map words =
      wordLines text.toList := by
    rw [List.map_map]
    exact (List.map_congr_left fun line hline =>
      words_intercalate (isWordLine_of_mem_wordLines hline).isWord).trans (List.map_id _)
  rw [wordLines, lines_squash, hwords, List.filter_eq_self]
  exact fun line hline => by simpa using (isWordLine_of_mem_wordLines hline).ne_nil

theorem squash_eq_of_wordLines_eq {left right : String}
    (hwords : wordLines left.toList = wordLines right.toList) : squash left = squash right := by
  rw [squash, squash, hwords]

/-- Two texts differ in layout only if and only if they have the same words on the same lines. -/
theorem squash_eq_iff {left right : String} :
    squash left = squash right ↔ wordLines left.toList = wordLines right.toList := by
  constructor
  · intro heq
    rw [← wordLines_squash left, heq, wordLines_squash]
  · exact squash_eq_of_wordLines_eq

/-- Taking the layout off a second time changes nothing. -/
theorem squash_squash (text : String) : squash (squash text) = squash text :=
  squash_eq_iff.mpr (wordLines_squash text)

/-- What is left of two texts is told apart by its lines. -/
theorem squash_eq_of_lines_eq {left right : String}
    (hlines : lines (squash left).toList = lines (squash right).toList) :
    squash left = squash right := by
  rw [← squash_squash left, ← squash_squash right, squash_eq_iff, wordLines, wordLines, hlines]

end StepFlow
