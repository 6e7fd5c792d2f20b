import StepFlow.Proofs.CaseSources
import StepFlow.Proofs.Words

/-!
# Verdicts and layout

A case that is run builds the graph of its commands, and its verdict compares two outcomes.  If
both are graphs or both are errors, the words of the two texts decide, line by line; how they are
laid out has no say, so the expected text of a case may be laid out in any way.  A mismatch names
the first line in which the texts disagree.  Since they do disagree, at least one of them has a line
of that number, and it is this line that a report points at.
Main statement: `verdict_depends_on_words`.
-/

namespace StepFlow

open Text (lines)

section Definitions

/-- Up to the line of this number two texts have the same lines, and in it they have different
lines, or only one of them has a line.  Numbers count from one. -/
structure DiffersFirst (left right : List CaseFile.Line) (number : Nat) : Prop where
  one_le : 1 ≤ number
  agree : ∀ place, place + 1 < number → left[place]? = right[place]?
  differ : left[number - 1]? ≠ right[number - 1]?

/-- A report shows some lines and points at the one with the given number, if there is one. -/
structure Shows (mark : Nat) (texts : List CaseFile.Line) (shown : List String) : Prop where
  length_eq : shown.length = texts.length
  shown : ∀ (place : Nat) (line : CaseFile.Line), texts[place]? = some line →
    shown[place]? =
      some ((if place + 1 = mark then "   > " else "     ") ++ String.ofList line)

/-- The report begins the line with a pointer. -/
def IsMarked (shown : String) : Prop := "   > ".toList <+: shown.toList

/-- The lines of a report about a mismatch that begins in the line of the given number. -/
def mismatchLines (failure : CaseFailure) (number : Nat) (expected actual : List String) :
    List String :=
  ["", failure.name ++ " (line " ++ toString failure.line ++ ")",
    "  output differs from line " ++ toString number, "  expected:"] ++ expected ++
    ["  actual:"] ++ actual

end Definitions

/-! ## The first difference -/

section Differences

variable {left right : List CaseFile.Line}

theorem one_le_firstDifference (left right : List CaseFile.Line) :
    1 ≤ firstDifference left right := by
  unfold firstDifference
  split
  · split <;> omega
  · exact Nat.le_refl 1

theorem getElem?_eq_of_lt_firstDifference {place : Nat}
    (hplace : place + 1 < firstDifference left right) : left[place]? = right[place]? := by
  induction left generalizing right place with
  | nil => simp [firstDifference] at hplace
  | cons line left ih =>
      cases right with
      | nil => simp [firstDifference] at hplace
      | cons other right =>
          rw [firstDifference] at hplace
          split at hplace
          case isTrue hsame =>
            cases place with
            | zero => simp [hsame]
            | succ place => exact ih (Nat.lt_of_succ_lt_succ hplace)
          case isFalse => omega

theorem getElem?_firstDifference_ne (hne : left ≠ right) :
    left[firstDifference left right - 1]? ≠ right[firstDifference left right - 1]? := by
  induction left generalizing right with
  | nil =>
      obtain ⟨other, right, rfl⟩ := List.exists_cons_of_ne_nil hne.symm
      simp [firstDifference]
  | cons line left ih =>
      cases right with
      | nil => simp [firstDifference]
      | cons other right =>
          rw [firstDifference]
          split
          case isTrue hsame =>
            have hone := one_le_firstDifference left right
            obtain ⟨later, hlater⟩ := Nat.exists_eq_add_of_le' hone
            have htails := ih fun heq => hne (by rw [hsame, heq])
            rw [hlater] at htails ⊢
            exact htails
          case isFalse hdiffer => simpa using hdiffer

theorem differsFirst_firstDifference (hne : left ≠ right) :
    DiffersFirst left right (firstDifference left right) where
  one_le := one_le_firstDifference left right
  agree _ := getElem?_eq_of_lt_firstDifference
  differ := getElem?_firstDifference_ne hne

/-- One of the texts is long enough to have the line in which they disagree. -/
theorem DiffersFirst.le_length {number : Nat} (hdiffers : DiffersFirst left right number) :
    number ≤ left.length ∨ number ≤ right.length := by
  have hone := hdiffers.one_le
  by_contra hlonger
  obtain ⟨hleft, hright⟩ := not_or.mp hlonger
  refine hdiffers.differ ?_
  rw [List.getElem?_eq_none (by omega), List.getElem?_eq_none (by omega)]

end Differences

/-! ## Pointing at a line -/

section Marks

variable {mark : Nat} {texts : List CaseFile.Line} {shown : List String}

theorem length_markedLines (mark number : Nat) (texts : List CaseFile.Line) :
    (markedLines mark number texts).length = texts.length := by
  induction texts generalizing number with
  | nil => rfl
  | cons line later ih => rw [markedLines, List.length_cons, ih, List.length_cons]

theorem getElem?_markedLines {place : Nat} {line : CaseFile.Line} (number : Nat)
    (hline : texts[place]? = some line) :
    (markedLines mark number texts)[place]? =
      some ((if number + place = mark then "   > " else "     ") ++ String.ofList line) := by
  induction texts generalizing number place with
  | nil => simp at hline
  | cons first later ih =>
      rw [markedLines]
      cases place with
      | zero =>
          obtain ⟨rfl⟩ := Option.some.inj hline
          rw [List.getElem?_cons_zero, Nat.add_zero]
          split <;> rfl
      | succ place =>
          rw [List.getElem?_cons_succ, ih (number + 1) hline, Nat.add_right_comm, Nat.add_assoc]

theorem shows_markedLines (mark : Nat) (texts : List CaseFile.Line) :
    Shows mark texts (markedLines mark 1 texts) where
  length_eq := length_markedLines mark 1 texts
  shown place line hline := by rw [getElem?_markedLines 1 hline, Nat.add_comm]

theorem isMarked_pointer_append (text : String) : IsMarked ("   > " ++ text) := by
  rw [IsMarked, String.toList_append]
  exact List.prefix_append _ _

theorem not_isMarked_blank_append (text : String) : ¬IsMarked ("     " ++ text) := by
  rw [IsMarked, String.toList_append]
  simp

/-- The report points at the line of the given number and at no other. -/
theorem Shows.isMarked_iff (hshows : Shows mark texts shown) {place : Nat} {text : String}
    (htext : shown[place]? = some text) : IsMarked text ↔ place + 1 = mark := by
  have hplace : place < texts.length := by
    rw [← hshows.length_eq]
    exact (List.getElem?_eq_some_iff.mp htext).1
  rw [hshows.shown place _ (List.getElem?_eq_getElem hplace), Option.some_inj] at htext
  rw [← htext]
  split
  case isTrue hmark => exact iff_of_true (isMarked_pointer_append _) hmark
  case isFalse hmark => exact iff_of_false (not_isMarked_blank_append _) hmark

theorem Shows.exists_isMarked (hshows : Shows mark texts shown) (hone : 1 ≤ mark)
    (hmark : mark ≤ texts.length) : ∃ text ∈ shown, IsMarked text := by
  have hlt : mark - 1 < shown.length := by
    rw [hshows.length_eq]
    omega
  have htext : shown[mark - 1]? = some shown[mark - 1] := List.getElem?_eq_getElem hlt
  exact ⟨_, List.getElem_mem hlt, (hshows.isMarked_iff htext).mpr (Nat.sub_add_cancel hone)⟩

end Marks

/-! ## What decides a verdict -/

section Verdicts

variable {case : Case} {cases : List Case} {expected actual : String} {number : Nat}

theorem isGraph_ofCommands (commands : List String) :
    (Expectation.ofCommands commands).isGraph = (Graph.build? commands).isOk := by
  rw [Expectation.ofCommands]
  cases Graph.build? commands <;> rfl

namespace Verdict

variable {expected actual other : Expectation}

theorem compare_of_isGraph_ne (houtcome : expected.isGraph ≠ actual.isGraph) :
    compare expected actual = .wrongOutcome (expected.map squash) (actual.map squash) := by
  cases expected with
  | graph listing =>
      cases actual with
      | graph found => exact absurd rfl houtcome
      | error found => rfl
  | error message =>
      cases actual with
      | graph found => rfl
      | error found => exact absurd rfl houtcome

theorem compare_of_isGraph_eq (houtcome : expected.isGraph = actual.isGraph) :
    compare expected actual = ofTexts (squash expected.text) (squash actual.text) := by
  cases expected with
  | graph listing =>
      cases actual with
      | graph found => rfl
      | error found => contradiction
  | error message =>
      cases actual with
      | graph found => contradiction
      | error found => rfl

theorem ofTexts_of_wordLines_eq {left right : String}
    (hwords : wordLines left.toList = wordLines right.toList) :
    ofTexts (squash left) (squash right) = .pass := by
  rw [ofTexts, if_pos (squash_eq_iff.mpr hwords)]

theorem ofTexts_of_wordLines_ne {left right : String}
    (hwords : wordLines left.toList ≠ wordLines right.toList) :
    ofTexts (squash left) (squash right) = .mismatch (squash left) (squash right)
      (firstDifference (lines (squash left).toList) (lines (squash right).toList)) := by
  rw [ofTexts, if_neg (mt squash_eq_iff.mp hwords)]

/-- Texts of the same kind that come to the same without their layout are compared alike. -/
theorem compare_congr (hsame : expected.map squash = other.map squash) :
    compare expected actual = compare other actual := by
  cases expected with
  | graph listing =>
      cases other with
      | graph text =>
          have htext : squash listing = squash text := Expectation.graph.inj hsame
          cases actual <;> simp only [compare, Expectation.map, htext]
      | error text => cases hsame
  | error message =>
      cases other with
      | graph text => cases hsame
      | error text =>
          have htext : squash message = squash text := Expectation.error.inj hsame
          cases actual <;> simp only [compare, Expectation.map, htext]

end Verdict

theorem Expectation.map_squash_squash (outcome : Expectation) :
    (outcome.map squash).map squash = outcome.map squash := by
  cases outcome <;> simp only [map, squash_squash]

theorem Case.run_of_not_skipped (hskip : case.skip = none) :
    case.run = .compare case.expected (.ofCommands case.commands) := by
  rw [run, hskip]

/-- A new layout of the expected text changes nothing about the verdict. -/
theorem Case.run_relayout {text : String}
    (hwords : wordLines text.toList = wordLines case.expected.text.toList) :
    { case with expected := case.expected.map fun _ => text }.run = case.run := by
  have hsame : (case.expected.map fun _ => text).map squash = case.expected.map squash := by
    have htext := squash_eq_of_wordLines_eq hwords
    cases hexpected : case.expected with
    | graph listing | error message =>
        rw [hexpected] at htext
        simp only [Expectation.map, htext]
        rfl
  simp only [run, Verdict.compare_congr hsame]

/-- The three verdicts on a case that is not skipped. -/
theorem Case.run_cases (hskip : case.skip = none) :
    let found := Expectation.ofCommands case.commands
    (case.expected.isGraph ≠ found.isGraph ∧
        case.run = .wrongOutcome (case.expected.map squash) (found.map squash)) ∨
      (case.expected.isGraph = found.isGraph ∧
        wordLines case.expected.text.toList = wordLines found.text.toList ∧ case.run = .pass) ∨
      case.expected.isGraph = found.isGraph ∧
        wordLines case.expected.text.toList ≠ wordLines found.text.toList ∧
        case.run = .mismatch (squash case.expected.text) (squash found.text)
          (firstDifference (Text.lines (squash case.expected.text).toList)
            (Text.lines (squash found.text).toList)) := by
  intro found
  rw [run_of_not_skipped hskip]
  by_cases houtcome : case.expected.isGraph = found.isGraph
  · rw [Verdict.compare_of_isGraph_eq houtcome]
    by_cases hwords : wordLines case.expected.text.toList = wordLines found.text.toList
    · exact .inr (.inl ⟨houtcome, hwords, Verdict.ofTexts_of_wordLines_eq hwords⟩)
    · exact .inr (.inr ⟨houtcome, hwords, Verdict.ofTexts_of_wordLines_ne hwords⟩)
  · exact .inl ⟨houtcome, Verdict.compare_of_isGraph_ne houtcome⟩

/-- The texts of a mismatch have different lines. -/
theorem Case.differsFirst_of_run_mismatch (hskip : case.skip = none)
    (hrun : case.run = .mismatch expected actual number) :
    DiffersFirst (Text.lines expected.toList) (Text.lines actual.toList) number := by
  rcases run_cases hskip with ⟨_, hwrong⟩ | ⟨_, _, hpass⟩ | ⟨_, hwords, hmismatch⟩
  · rw [hwrong] at hrun
    contradiction
  · rw [hpass] at hrun
    contradiction
  · rw [hmismatch] at hrun
    obtain ⟨hexpected, hactual, hnumber⟩ := Verdict.mismatch.inj hrun
    rw [← hnumber, ← hexpected, ← hactual]
    exact differsFirst_firstDifference (mt squash_eq_of_lines_eq (mt squash_eq_iff.mp hwords))

end Verdicts

/-! ## Reports about mismatches -/

section Reports

variable {tally : Tally} {failure : CaseFailure} {case : Case} {cases : List Case}
  {expected actual : String} {number : Nat}

/-- What a report says about one failure stands in it in one piece. -/
theorem Tally.exists_report_eq (hfailure : failure ∈ tally.failures) :
    ∃ before after, tally.report = before ++ CaseFile.written failure.report ++ after := by
  obtain ⟨earlier, later, hfailures⟩ := List.append_of_mem hfailure
  have hreport : tally.report = CaseFile.written tally.reportLines := rfl
  rw [hreport, reportLines, hfailures, List.flatMap_append, List.flatMap_cons,
    ← List.append_assoc, ← List.append_assoc, CaseFile.written_append, CaseFile.written_append]
  exact ⟨_, _, rfl⟩

theorem CaseFailure.report_of_mismatch
    (hverdict : failure.verdict = .mismatch expected actual number) :
    failure.report = mismatchLines failure number (markedLines number 1 (lines expected.toList))
      (markedLines number 1 (lines actual.toList)) := by
  rw [report, hverdict]
  rfl

/-- A case that fails is recorded with its name and its line. -/
theorem Tally.mem_failures_ofCases (hcase : case ∈ cases) (hfail : case.run.isFail = true) :
    ⟨case.name, case.line, case.run⟩ ∈ (ofCases cases).failures := by
  rw [ofCases_eq]
  exact List.mem_map_of_mem (List.mem_filter.mpr ⟨hcase, hfail⟩)

/-- The first line in which two texts disagree is a line of one of them, so that a report shows a
pointer. -/
theorem exists_isMarked {left right : List CaseFile.Line}
    (hdiffers : DiffersFirst left right number) :
    ∃ shown ∈ markedLines number 1 left ++ markedLines number 1 right, IsMarked shown := by
  rcases hdiffers.le_length with hleft | hright
  · obtain ⟨shown, hshown, hmarked⟩ :=
      (shows_markedLines number left).exists_isMarked hdiffers.one_le hleft
    exact ⟨shown, List.mem_append_left _ hshown, hmarked⟩
  · obtain ⟨shown, hshown, hmarked⟩ :=
      (shows_markedLines number right).exists_isMarked hdiffers.one_le hright
    exact ⟨shown, List.mem_append_right _ hshown, hmarked⟩

end Reports

/-- A case that is not skipped has the wrong outcome if it expects a graph and its commands are
rejected, or the other way round.  Otherwise it passes if the texts have the same words on the same
lines, and else is a mismatch.  Any layout of the expected text gives the same verdict.  A mismatch
names the first line in which the texts disagree; wherever it is recorded, the report shows all
lines of both texts and points at the lines of that number, of which there is at least one. -/
theorem verdict_depends_on_words (case : Case) (hskip : case.skip = none) :
    let actual := Expectation.ofCommands case.commands
    let sameOutcome := case.expected.isGraph = (Graph.build? case.commands).isOk
    let sameWords := wordLines case.expected.text.toList = wordLines actual.text.toList
    ((∃ expected found, case.run = .wrongOutcome expected found) ↔ ¬sameOutcome) ∧
      (case.run = .pass ↔ sameOutcome ∧ sameWords) ∧
      ((∃ number,
          case.run = .mismatch (squash case.expected.text) (squash actual.text) number) ↔
        sameOutcome ∧ ¬sameWords) ∧
      (∀ text, wordLines text.toList = wordLines case.expected.text.toList →
        { case with expected := case.expected.map fun _ => text }.run = case.run) ∧
      (∀ outcome : Expectation, (outcome.map squash).map squash = outcome.map squash) ∧
      ∀ expected found number, case.run = .mismatch expected found number →
        DiffersFirst (lines expected.toList) (lines found.toList) number ∧
          (∀ cases, case ∈ cases →
            ⟨case.name, case.line, case.run⟩ ∈ (Tally.ofCases cases).failures) ∧
          ∀ (tally : Tally) (failure : CaseFailure), failure ∈ tally.failures →
            failure.verdict = case.run →
            ∃ before after shownExpected shownActual,
              tally.report = before ++
                CaseFile.written (mismatchLines failure number shownExpected shownActual) ++
                after ∧
              Shows number (lines expected.toList) shownExpected ∧
              Shows number (lines found.toList) shownActual ∧
              ∃ shown ∈ shownExpected ++ shownActual, IsMarked shown := by
  intro actual sameOutcome sameWords
  have hcases := Case.run_cases hskip
  simp only [isGraph_ofCommands] at hcases
  refine ⟨?wrong, ?pass, ?mismatch, fun text => Case.run_relayout, Expectation.map_squash_squash,
    fun expected found number hfound => ⟨?first, ?recorded, ?reported⟩⟩
  case wrong =>
    rcases hcases with ⟨hne, hrun⟩ | ⟨heq, _, hrun⟩ | ⟨heq, _, hrun⟩
    · exact iff_of_true ⟨_, _, hrun⟩ hne
    · exact iff_of_false (by simp [hrun]) (not_not_intro heq)
    · exact iff_of_false (by simp [hrun]) (not_not_intro heq)
  case pass =>
    rcases hcases with ⟨hne, hrun⟩ | ⟨heq, hwords, hrun⟩ | ⟨_, hwords, hrun⟩
    · exact iff_of_false (by simp [hrun]) fun hboth => hne hboth.1
    · exact iff_of_true hrun ⟨heq, hwords⟩
    · exact iff_of_false (by simp [hrun]) fun hboth => hwords hboth.2
  case mismatch =>
    rcases hcases with ⟨hne, hrun⟩ | ⟨_, hwords, hrun⟩ | ⟨heq, hwords, hrun⟩
    · exact iff_of_false (by simp [hrun]) fun hboth => hne hboth.1
    · exact iff_of_false (by simp [hrun]) fun hboth => hboth.2 hwords
    · exact iff_of_true ⟨_, hrun⟩ ⟨heq, hwords⟩
  case first => exact Case.differsFirst_of_run_mismatch hskip hfound
  case recorded =>
    exact fun cases hcase => Tally.mem_failures_ofCases hcase (by rw [hfound]; rfl)
  case reported =>
    intro tally failure hfailure hverdict
    obtain ⟨before, after, hreport⟩ := Tally.exists_report_eq hfailure
    rw [CaseFailure.report_of_mismatch (hverdict.trans hfound)] at hreport
    exact ⟨before, after, _, _, hreport, shows_markedLines _ _, shows_markedLines _ _,
      exists_isMarked (Case.differsFirst_of_run_mismatch hskip hfound)⟩

/-- A case whose second line names the wrong command. -/
def sampleCase : Case := ⟨"two steps", 3, ["a", "b"], .graph "0  a L0\tnext=1\n\n1 c L0 ", none⟩

theorem sample_verdict_depends_on_words :
    sampleCase.skip = none ∧
      ∃ number, sampleCase.run = .mismatch (squash sampleCase.expected.text)
          (squash (Expectation.ofCommands sampleCase.commands).text) number ∧
        DiffersFirst (lines (squash sampleCase.expected.text).toList)
          (lines (squash (Expectation.ofCommands sampleCase.commands).text).toList) number := by
  obtain ⟨_, _, hmismatch, _, _, hpoints⟩ := verdict_depends_on_words sampleCase rfl
  obtain ⟨number, hrun⟩ := hmismatch.mpr (by decide +kernel)
  exact ⟨rfl, number, hrun, (hpoints _ _ _ hrun).1⟩

end StepFlow
