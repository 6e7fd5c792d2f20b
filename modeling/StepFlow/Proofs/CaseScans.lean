import StepFlow.Proofs.CaseSources
import StepFlow.Proofs.Words

/-!
# Scanning case files

A case file is scanned with a cursor.  From a title on, three sections are read, each up to a line
that marks its end, and behind the last mark the search for titles goes on.  Nothing is asked of the
file: a mark may be missing, so that a section takes in all that follows and the cursor runs past
the last line.  The cursor is compared with the number of lines before every look at a line, it
moves forward with every step, and in this way every title is found that does not stand inside of a
case.
Main statement: `scanning_loses_no_case`.
-/

namespace StepFlow

namespace CaseFile

open Text

section Definitions

variable (lines : List Line)

/-- The lines from the cursor on up to the mark, each of them trimmed. -/
def sectionFrom (mark : Line) (cursor : Nat) : List Line :=
  ((lines.drop cursor).map trim).takeWhile (· ≠ mark)

/-- The position behind a section: that of the mark, or the end of the file if there is none. -/
def markFrom (mark : Line) (cursor : Nat) : Nat := cursor + (sectionFrom lines mark cursor).length

def headerEnd (title : Nat) : Nat := markFrom lines "---".toList (title + 1)

def commandsEnd (title : Nat) : Nat := markFrom lines "---".toList (headerEnd lines title + 1)

/-- The position of the line that ends the case whose title is at the given position. -/
def caseEnd (title : Nat) : Nat := markFrom lines "===".toList (commandsEnd lines title + 1)

/-- The position belongs to the case: it lies between its title and its end. -/
def Extends (case : Case) (place : Nat) : Prop :=
  case.line ≤ place + 1 ∧ place ≤ caseEnd lines (case.line - 1)

/-- Reads a section into a draft and gives the position of the cursor behind it. -/
def readSection (mark : Line) (take : Draft → Line → Draft) (draft : Draft) (cursor : Nat) :
    Draft × Nat :=
  if hcursor : cursor < lines.length then
    if trim lines[cursor] = mark then (draft, cursor)
    else readSection mark take (take draft (trim lines[cursor])) (cursor + 1)
  else (draft, cursor)
termination_by lines.length - cursor

/-- Reads the case whose title is in front of the cursor. -/
def readCase (draft : Draft) (cursor : Nat) : Draft × Nat :=
  let (headed, first) := readSection lines "---".toList Draft.readHeader draft cursor
  let (listed, second) := readSection lines "---".toList Draft.readCommand headed (first + 1)
  readSection lines "===".toList Draft.readExpected listed (second + 1)

/-- What is read of the case whose title is at the given position. -/
def draftAt (title : Nat) (draft : Draft) : Draft :=
  (sectionFrom lines "===".toList (commandsEnd lines title + 1)).foldl Draft.readExpected
    ((sectionFrom lines "---".toList (headerEnd lines title + 1)).foldl Draft.readCommand
      ((sectionFrom lines "---".toList (title + 1)).foldl Draft.readHeader draft))

variable {lines} in
theorem sectionFrom_of_lt {mark : Line} {cursor : Nat} (hcursor : cursor < lines.length) :
    sectionFrom lines mark cursor =
      if trim lines[cursor] = mark then []
      else trim lines[cursor] :: sectionFrom lines mark (cursor + 1) := by
  rw [sectionFrom, List.drop_eq_getElem_cons hcursor, List.map_cons, List.takeWhile_cons]
  split <;> simp_all [sectionFrom]

variable {lines} in
theorem sectionFrom_of_le {mark : Line} {cursor : Nat} (hcursor : lines.length ≤ cursor) :
    sectionFrom lines mark cursor = [] := by
  rw [sectionFrom, List.drop_eq_nil_of_le hcursor]
  rfl

theorem readSection_eq (mark : Line) (take : Draft → Line → Draft) (draft : Draft) (cursor : Nat) :
    readSection lines mark take draft cursor =
      ((sectionFrom lines mark cursor).foldl take draft, markFrom lines mark cursor) := by
  fun_induction readSection lines mark take draft cursor with
  | case1 draft cursor hcursor hmark =>
      rw [markFrom, sectionFrom_of_lt hcursor, if_pos hmark]
      rfl
  | case2 draft cursor hcursor hmark ih =>
      rw [ih, markFrom, markFrom, sectionFrom_of_lt hcursor, if_neg hmark, List.foldl_cons,
        List.length_cons, Nat.add_right_comm, Nat.add_assoc]
  | case3 draft cursor hcursor =>
      rw [markFrom, sectionFrom_of_le (Nat.le_of_not_lt hcursor)]
      rfl

theorem readCase_eq (title : Nat) (draft : Draft) :
    readCase lines draft (title + 1) = (draftAt lines title draft, caseEnd lines title) := by
  simp only [readCase, readSection_eq]
  rfl

theorem le_markFrom (mark : Line) (cursor : Nat) : cursor ≤ markFrom lines mark cursor :=
  Nat.le_add_right _ _

/-- A case ends behind its title. -/
theorem lt_caseEnd (title : Nat) : title < caseEnd lines title := by
  have hheader : title + 1 ≤ headerEnd lines title := le_markFrom lines _ _
  have hcommands : headerEnd lines title + 1 ≤ commandsEnd lines title := le_markFrom lines _ _
  have hexpected : commandsEnd lines title + 1 ≤ caseEnd lines title := le_markFrom lines _ _
  omega

/-- The cases whose titles stand at the cursor or behind it. -/
def scanFrom (cursor : Nat) : List Case :=
  if hcursor : cursor < lines.length then
    match after? "# test:".toList (trim lines[cursor]) with
    | none => scanFrom (cursor + 1)
    | some name =>
        let draft : Draft := { name := String.ofList (trim name), line := cursor + 1 }
        (readCase lines draft (cursor + 1)).1.toCase ::
          scanFrom ((readCase lines draft (cursor + 1)).2 + 1)
  else []
termination_by lines.length - cursor
decreasing_by
  · omega
  · have hend := lt_caseEnd lines cursor
    rw [readCase_eq]
    omega

end Definitions

/-! ## The cursor and the line-by-line reading -/

section Scanning

variable {lines : List Line}

/-- Line by line, a section is read into a draft in the same way, whether or not its mark is there.
Where the mark is missing the reading ends as if the mark had been there. -/
theorem casesFrom_section {mark : Line} {inside : Draft → Place} {take : Draft → Line → Draft}
    (closed : Draft → Place × Option Case)
    (hread : ∀ draft number line, (inside draft).read number line =
      if line = mark then closed draft else (inside (take draft line), none))
    (hcut : ∀ draft, (inside draft).cutOff.toList =
      (closed draft).2.toList ++ (closed draft).1.cutOff.toList)
    (draft : Draft) (cursor : Nat) :
    casesFrom (cursor + 1) (inside draft) (lines.drop cursor) =
      (closed (readSection lines mark take draft cursor).1).2.toList ++
        casesFrom ((readSection lines mark take draft cursor).2 + 2)
          (closed (readSection lines mark take draft cursor).1).1
          (lines.drop ((readSection lines mark take draft cursor).2 + 1)) := by
  fun_induction readSection lines mark take draft cursor with
  | case1 draft cursor hcursor hmark =>
      rw [List.drop_eq_getElem_cons hcursor, casesFrom, hread, if_pos hmark]
  | case2 draft cursor hcursor hmark ih =>
      rw [List.drop_eq_getElem_cons hcursor, casesFrom, hread, if_neg hmark]
      exact ih
  | case3 draft cursor hcursor =>
      have hle : lines.length ≤ cursor := Nat.le_of_not_lt hcursor
      rw [List.drop_eq_nil_of_le hle, List.drop_eq_nil_of_le (Nat.le_add_right_of_le hle)]
      exact hcut draft

/-- From a title on, the case is read that the cursor reads there. -/
theorem casesFrom_header (draft : Draft) (cursor : Nat) :
    casesFrom (cursor + 1) (.header draft) (lines.drop cursor) =
      (readCase lines draft cursor).1.toCase ::
        casesFrom ((readCase lines draft cursor).2 + 2) .outside
          (lines.drop ((readCase lines draft cursor).2 + 1)) := by
  rw [casesFrom_section (fun draft => (.commands draft, none)) (fun _ _ _ => rfl) fun _ => rfl,
    casesFrom_section (fun draft => (.expected draft, none)) (fun _ _ _ => rfl) fun _ => rfl,
    casesFrom_section (fun draft => (.outside, some draft.toCase)) (fun _ _ _ => rfl)
      fun _ => rfl]
  rfl

theorem casesFrom_eq_scanFrom (cursor : Nat) :
    casesFrom (cursor + 1) .outside (lines.drop cursor) = scanFrom lines cursor := by
  fun_induction scanFrom lines cursor with
  | case1 cursor hcursor hname ih =>
      rw [List.drop_eq_getElem_cons hcursor, casesFrom, Place.read, hname]
      exact ih
  | case2 cursor hcursor name hname draft ih =>
      rw [List.drop_eq_getElem_cons hcursor, casesFrom, Place.read, hname]
      exact (casesFrom_header _ _).trans (congrArg _ ih)
  | case3 cursor hcursor =>
      rw [List.drop_eq_nil_of_le (Nat.le_of_not_lt hcursor)]
      rfl

/-- The cursor reads the cases that are read line by line. -/
theorem parse_eq_scanFrom (text : String) : parse text = scanFrom (Text.lines text.toList) 0 :=
  casesFrom_eq_scanFrom 0

end Scanning

/-! ## The contents of a case -/

section Contents

variable {lines sections : List Line} {mark line : Line} {cursor title : Nat} {case : Case}

theorem foldl_readHeader (draft : Draft) (sections : List Line) :
    ∃ expectsGraph skip,
      sections.foldl Draft.readHeader draft = { draft with expectsGraph, skip } := by
  induction sections generalizing draft with
  | nil => exact ⟨draft.expectsGraph, draft.skip, rfl⟩
  | cons line later ih =>
      obtain ⟨expectsGraph, skip, hlater⟩ := ih (draft.readHeader line)
      refine ⟨expectsGraph, skip, hlater.trans ?_⟩
      unfold Draft.readHeader
      split <;> [skip; split] <;> rfl

theorem foldl_readCommand (draft : Draft) (sections : List Line) :
    sections.foldl Draft.readCommand draft =
      { draft with commands :=
          draft.commands ++ (sections.filter fun line => !line.isEmpty).map String.ofList } := by
  induction sections generalizing draft with
  | nil => simp
  | cons line later ih =>
      rw [List.foldl_cons, ih, Draft.readCommand]
      split <;> simp_all

theorem foldl_readExpected (draft : Draft) (sections : List Line) :
    sections.foldl Draft.readExpected draft =
      { draft with expected := draft.expected ++ sections } := by
  induction sections generalizing draft with
  | nil => simp
  | cons line later ih => simp [ih, Draft.readExpected]

/-- The title of the case stands at the given position, and the case has what its sections hold. -/
structure IsReadAt (lines : List Line) (title : Nat) (case : Case) : Prop where
  lt_length : title < lines.length
  line : case.line = title + 1
  name : ∃ name, after? "# test:".toList (trim lines[title]) = some name ∧
    trim name = case.name.toList
  commands : case.commands =
    ((sectionFrom lines "---".toList (headerEnd lines title + 1)).filter fun line =>
      !line.isEmpty).map String.ofList
  expected : case.expected.text.toList =
    trim (unlines (sectionFrom lines "===".toList (commandsEnd lines title + 1)))

theorem isReadAt_readCase {name : Line} (htitle : title < lines.length)
    (hname : after? "# test:".toList (trim lines[title]) = some name) :
    IsReadAt lines title
      (readCase lines { name := String.ofList (trim name), line := title + 1 }
        (title + 1)).1.toCase := by
  rw [readCase_eq, draftAt, foldl_readExpected, foldl_readCommand]
  obtain ⟨expectsGraph, skip, hheader⟩ := foldl_readHeader
    { name := String.ofList (trim name), line := title + 1 }
    (sectionFrom lines "---".toList (title + 1))
  rw [hheader]
  refine ⟨htitle, rfl, ⟨name, hname, String.toList_ofList.symm⟩, rfl, ?_⟩
  cases expectsGraph <;> exact String.toList_ofList

theorem exists_isReadAt_of_mem (hcase : case ∈ scanFrom lines cursor) :
    ∃ title, cursor ≤ title ∧ IsReadAt lines title case := by
  fun_induction scanFrom lines cursor with
  | case1 cursor hcursor hname ih =>
      obtain ⟨title, hle, hread⟩ := ih hcase
      exact ⟨title, Nat.le_of_succ_le hle, hread⟩
  | case2 cursor hcursor name hname draft ih =>
      rcases List.mem_cons.mp hcase with rfl | hcase
      · exact ⟨cursor, Nat.le_refl cursor, isReadAt_readCase hcursor hname⟩
      · obtain ⟨title, hle, hread⟩ := ih hcase
        rw [readCase_eq] at hle
        have hend := lt_caseEnd lines cursor
        exact ⟨title, by omega, hread⟩
  | case3 cursor hcursor => contradiction

theorem mem_sectionFrom (hline : line ∈ sectionFrom lines mark cursor) :
    line ≠ mark ∧ ∃ source ∈ lines, trim source = line := by
  refine ⟨by simpa using List.mem_takeWhile_imp hline, ?_⟩
  obtain ⟨source, hsource, htrim⟩ :=
    List.mem_map.mp ((List.takeWhile_prefix _).subset hline)
  exact ⟨source, List.mem_of_mem_drop hsource, htrim⟩

theorem eq_append_of_after?_eq_some {marker text rest : List Char}
    (hrest : after? marker text = some rest) : text = marker ++ rest := by
  fun_induction after? marker text with
  | case1 text => exact Option.some.inj hrest
  | case2 => contradiction
  | case3 marker char text ih => rw [ih hrest, List.cons_append]
  | case4 => contradiction

/-- The title begins with the marker, and what follows it is the name. -/
theorem IsReadAt.exists_title (hread : IsReadAt lines title case) :
    ∃ line rest, lines[title]? = some line ∧ trim line = "# test:".toList ++ rest ∧
      trim rest = case.name.toList := by
  obtain ⟨rest, hrest, hname⟩ := hread.name
  exact ⟨_, rest, List.getElem?_eq_getElem hread.lt_length, eq_append_of_after?_eq_some hrest,
    hname⟩

theorem IsReadAt.isCommandLine (hread : IsReadAt lines title case)
    (hlines : ∀ line ∈ lines, '\n' ∉ line) {command : String} (hcommand : command ∈ case.commands) :
    IsCommandLine command := by
  rw [hread.commands] at hcommand
  obtain ⟨line, hline, rfl⟩ := List.mem_map.mp hcommand
  obtain ⟨hline, hnonempty⟩ := List.mem_filter.mp hline
  obtain ⟨hmark, source, hsource, rfl⟩ := mem_sectionFrom hline
  refine ⟨⟨?_, ?_⟩, ?_, ?_⟩
  · rw [String.toList_ofList]
    exact trimmed_trim source
  · rw [String.toList_ofList]
    exact fun hnewline => hlines source hsource (trim_subset source hnewline)
  · intro hempty
    have hnil : trim source = [] := by simpa using congrArg String.toList hempty
    rw [hnil] at hnonempty
    contradiction
  · intro hdivider
    exact hmark (by rw [← hdivider, String.toList_ofList])

theorem IsReadAt.end_not_mem (hread : IsReadAt lines title case)
    (hlines : ∀ line ∈ lines, '\n' ∉ line) :
    "===".toList ∉ Text.lines case.expected.text.toList := by
  have htrimmed : ∀ line ∈ sectionFrom lines "===".toList (commandsEnd lines title + 1),
      Trimmed line ∧ '\n' ∉ line := by
    intro line hline
    obtain ⟨_, source, hsource, rfl⟩ := mem_sectionFrom hline
    exact ⟨trimmed_trim source, fun hnewline =>
      hlines source hsource (trim_subset source hnewline)⟩
  obtain ⟨kept, hkept, hunlines⟩ := exists_trim_unlines fun line hline => (htrimmed line hline).1
  rw [hread.expected, hunlines]
  intro hend
  have hmem : "===".toList ∈ kept :=
    mem_of_mem_lines_unlines (fun line hline => (htrimmed line (hkept.subset hline)).2)
      (fun line hline => dropReturn_of_trimmed (htrimmed line (hkept.subset hline)).1) hend
  exact (mem_sectionFrom (hkept.subset hmem)).1 rfl

end Contents

/-! ## The extents of the cases -/

section Extents

variable {lines : List Line} {case : Case} {cursor place : Nat}

/-- A case ends in front of the next title. -/
theorem pairwise_scanFrom (lines : List Line) (cursor : Nat) :
    (scanFrom lines cursor).Pairwise fun earlier later =>
      caseEnd lines (earlier.line - 1) + 1 < later.line := by
  fun_induction scanFrom lines cursor with
  | case1 cursor hcursor hname ih => exact ih
  | case2 cursor hcursor name hname draft ih =>
      refine List.pairwise_cons.mpr ⟨fun later hlater => ?_, ih⟩
      obtain ⟨title, hle, hread⟩ := exists_isReadAt_of_mem hlater
      rw [readCase_eq] at hle
      rw [(isReadAt_readCase hcursor hname).line, hread.line]
      exact Nat.lt_succ_of_le hle
  | case3 => exact List.Pairwise.nil

theorem pairwise_line_scanFrom (lines : List Line) (cursor : Nat) :
    (scanFrom lines cursor).Pairwise fun earlier later => earlier.line < later.line := by
  apply (pairwise_scanFrom lines cursor).imp
  intro earlier later hend
  have hlt := lt_caseEnd lines (earlier.line - 1)
  omega

/-- No line belongs to two cases. -/
theorem pairwise_not_extends (lines : List Line) (cursor : Nat) :
    (scanFrom lines cursor).Pairwise fun earlier later => ∀ place,
      ¬(Extends lines earlier place ∧ Extends lines later place) := by
  apply (pairwise_scanFrom lines cursor).imp
  intro earlier later hend place hboth
  have hfirst : place ≤ caseEnd lines (earlier.line - 1) := hboth.1.2
  have hsecond : later.line ≤ place + 1 := hboth.2.1
  omega

/-- A title at the cursor or behind it is found, unless it stands inside of an earlier case. -/
theorem exists_mem_scanFrom (hcursor : cursor ≤ place) (hplace : place < lines.length)
    (htitle : "# test:".toList <+: trim lines[place])
    (houtside : ∀ case ∈ scanFrom lines cursor, case.line ≤ place → ¬Extends lines case place) :
    ∃ case ∈ scanFrom lines cursor, case.line = place + 1 := by
  fun_induction scanFrom lines cursor with
  | case1 cursor hlt hname ih =>
      refine ih (Nat.lt_of_le_of_ne hcursor ?_) houtside
      rintro rfl
      obtain ⟨rest, hrest⟩ := htitle
      rw [← hrest, after?_append] at hname
      contradiction
  | case2 cursor hlt name hname draft ih =>
      have hread : IsReadAt lines cursor (readCase lines draft (cursor + 1)).1.toCase :=
        isReadAt_readCase hlt hname
      obtain rfl | hbehind := Nat.eq_or_lt_of_le hcursor
      · exact ⟨_, List.mem_cons_self, hread.line⟩
      · have hend : caseEnd lines cursor < place := by
          have hline := hread.line
          have hnot := houtside _ List.mem_cons_self (by omega)
          rw [Extends, hline, Nat.add_sub_cancel] at hnot
          omega
        obtain ⟨case, hcase, hline⟩ := ih (by rw [readCase_eq]; exact hend) fun case hcase =>
          houtside case (List.mem_cons_of_mem _ hcase)
        exact ⟨case, List.mem_cons_of_mem _ hcase, hline⟩
  | case3 => omega

end Extents

end CaseFile

/-! ## Running the cases -/

section Runs

variable {cases : List Case}

theorem Tally.total_record (tally : Tally) (name : String) (line : Nat) (verdict : Verdict) :
    (tally.record name line verdict).total = tally.total + 1 := by
  cases verdict <;> simp [record, total, failed] <;> omega

theorem Tally.total_ofCases (cases : List Case) : (ofCases cases).total = cases.length := by
  induction cases using List.reverseRecOn with
  | nil => rfl
  | append_singleton cases case ih =>
      rw [ofCases_concat, total_record, ih, List.length_append, List.length_singleton]

theorem Tally.failures_ofCases (cases : List Case) :
    (ofCases cases).failures = (cases.filter fun case => case.run.isFail).map fun case =>
      ⟨case.name, case.line, case.run⟩ :=
  congrArg failures (ofCases_eq cases)

/-- The failures are recorded in the order of the cases. -/
theorem Tally.pairwise_line_failures
    (hordered : cases.Pairwise fun earlier later => earlier.line < later.line) :
    ((ofCases cases).failures.map CaseFailure.line).Pairwise (· < ·) := by
  rw [failures_ofCases, List.map_map, List.pairwise_map]
  exact hordered.filter _

end Runs

/-- Scanning a text, whatever it is, finds its cases in order and invents none.  A case begins with
the title that stands at its line; its commands and its expected text hold no mark.  It extends to
the line that ends it, or to the end of the text, and no line belongs to two cases.  Every title
that does not belong to an earlier case begins a case of its own.  Running the cases counts every
one of them once and records those that fail, in order. -/
theorem scanning_loses_no_case (text : String) :
    let lines := Text.lines text.toList
    let cases := CaseFile.parse text
    let tally := Tally.ofCases cases
    cases = CaseFile.scanFrom lines 0 ∧
      (cases.map Case.line).Pairwise (· < ·) ∧
      (∀ case ∈ cases, 1 ≤ case.line ∧ case.line ≤ lines.length) ∧
      (∀ case ∈ cases, ∃ line rest, lines[case.line - 1]? = some line ∧
        Text.trim line = "# test:".toList ++ rest ∧ Text.trim rest = case.name.toList) ∧
      (∀ case ∈ cases, ∀ command ∈ case.commands, IsCommandLine command) ∧
      (∀ case ∈ cases, "===".toList ∉ Text.lines case.expected.text.toList) ∧
      cases.Pairwise (fun earlier later => ∀ place,
        ¬(CaseFile.Extends lines earlier place ∧ CaseFile.Extends lines later place)) ∧
      (∀ place line, lines[place]? = some line → "# test:".toList <+: Text.trim line →
        (∀ case ∈ cases, case.line ≤ place → ¬CaseFile.Extends lines case place) →
        ∃ case ∈ cases, case.line = place + 1) ∧
      tally.passed + tally.skipped + tally.failed = cases.length ∧
      tally.failures = ((cases.filter fun case => case.run.isFail).map fun case =>
        ⟨case.name, case.line, case.run⟩) ∧
      (tally.failures.map CaseFailure.line).Pairwise (· < ·) := by
  intro lines cases tally
  have hscan : cases = CaseFile.scanFrom lines 0 := CaseFile.parse_eq_scanFrom text
  have hlines : ∀ line ∈ lines, '\n' ∉ line := fun line => Text.newline_not_mem_of_mem_lines
  have hread : ∀ case ∈ cases, ∃ title, CaseFile.IsReadAt lines title case := by
    intro case hcase
    obtain ⟨title, _, hread⟩ := CaseFile.exists_isReadAt_of_mem (hscan ▸ hcase)
    exact ⟨title, hread⟩
  have hordered : cases.Pairwise fun earlier later => earlier.line < later.line := by
    rw [hscan]
    exact CaseFile.pairwise_line_scanFrom lines 0
  refine ⟨hscan, List.pairwise_map.mpr hordered, ?bounds, ?titles, ?commands, ?expected, ?extents,
    ?found, ?total, Tally.failures_ofCases cases, Tally.pairwise_line_failures hordered⟩
  case bounds =>
    intro case hcase
    obtain ⟨title, hread⟩ := hread case hcase
    have hlt := hread.lt_length
    have hline := hread.line
    omega
  case titles =>
    intro case hcase
    obtain ⟨title, hread⟩ := hread case hcase
    rw [hread.line]
    exact hread.exists_title
  case commands =>
    intro case hcase command hcommand
    obtain ⟨title, hread⟩ := hread case hcase
    exact hread.isCommandLine hlines hcommand
  case expected =>
    intro case hcase
    obtain ⟨title, hread⟩ := hread case hcase
    exact hread.end_not_mem hlines
  case extents =>
    rw [hscan]
    exact CaseFile.pairwise_not_extends lines 0
  case found =>
    intro place line hline htitle houtside
    obtain ⟨hplace, rfl⟩ := List.getElem?_eq_some_iff.mp hline
    rw [hscan] at houtside ⊢
    exact CaseFile.exists_mem_scanFrom (Nat.zero_le place) hplace htitle houtside
  case total =>
    have htotal : tally.total = cases.length := Tally.total_ofCases cases
    rw [Tally.total] at htotal
    omega

/-- A title in the commands of a case that is cut off is one of these commands. -/
example :
    CaseFile.parse "# test: a\n---\n# test: b\n\n===" =
      [⟨"a", 1, ["# test: b", "==="], .graph "", none⟩] := by
  decide +kernel

end StepFlow
