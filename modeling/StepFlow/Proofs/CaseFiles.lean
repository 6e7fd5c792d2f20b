import StepFlow.CaseFile.Tally
import StepFlow.Proofs.Listings

/-!
# Case files are read back

A case is written as its headers, its commands and its expected text, with a fixed line after each
part.  Reading goes through these parts in the same order, so it gives back every case whose parts
contain nothing that would end them early.  Listings and messages are of that kind.  A file that is
written with the very outcomes that the commands have is therefore read back and passes.
Main statement: `blessed_file_passes`.
-/

namespace StepFlow

open Text

section Definitions

namespace Expectation

/-- The word by which a header names the outcome. -/
def word : Expectation → String
  | graph _ => "ok"
  | error _ => "error"

def isGraph : Expectation → Bool
  | graph _ => true
  | error _ => false

end Expectation

def Verdict.isSkip : Verdict → Bool
  | skip _ => true
  | _ => false

/-- A text that stands in the rest of a line and comes back from it. -/
structure IsPhrase (text : String) : Prop where
  trimmed : Trimmed text.toList
  newline_not_mem : '\n' ∉ text.toList

/-- A command that can have a line of its own. -/
structure IsCommandLine (command : String) : Prop extends IsPhrase command where
  ne_empty : command ≠ ""
  ne_divider : command ≠ "---"

instance (text : String) : Decidable (IsPhrase text) :=
  decidable_of_iff (trim text.toList = text.toList ∧ '\n' ∉ text.toList)
    ⟨fun ⟨htrimmed, hnewline⟩ => ⟨htrimmed, hnewline⟩, fun ⟨htrimmed, hnewline⟩ =>
      ⟨htrimmed, hnewline⟩⟩

instance (command : String) : Decidable (IsCommandLine command) :=
  decidable_of_iff (IsPhrase command ∧ command ≠ "" ∧ command ≠ "---")
    ⟨fun ⟨hphrase, hempty, hdivider⟩ => ⟨hphrase, hempty, hdivider⟩,
      fun ⟨hphrase, hempty, hdivider⟩ => ⟨hphrase, hempty, hdivider⟩⟩

/-- A text whose lines come back as they are, none of which ends a case. -/
structure IsExpectedText (text : String) : Prop where
  trimmed : Trimmed text.toList
  lines : ∀ line ∈ text.toList.splitOn '\n', Trimmed line ∧ line ≠ "===".toList

/-- A header line: a marker and a phrase. -/
def headerLine (marker phrase : String) : String := marker ++ " " ++ phrase

namespace Case

/-- Every part of the case can be written in a case file. -/
structure Writable (case : Case) : Prop where
  name : IsPhrase case.name
  skip : ∀ reason ∈ case.skip, IsPhrase reason
  commands : ∀ command ∈ case.commands, IsCommandLine command
  expected : IsExpectedText case.expected.text

/-- The parts of a written case, one below the other. -/
def parts (case : Case) : List String :=
  headerLine "# test:" case.name :: headerLine "# expect:" case.expected.word ::
    case.skip.toList.map (headerLine "# skip:") ++
    "---" :: case.commands ++ "---" :: case.expected.text :: ["==="]

/-- The text that writes a case: every part ends with a line feed. -/
def source (case : Case) : String := String.join (case.parts.map (· ++ "\n"))

/-- The lines of a written case. -/
def lines (case : Case) : List CaseFile.Line :=
  case.parts.flatMap fun part => part.toList.splitOn '\n'

/-- The lines of a written case between its title and its end, each part on lines of its own. -/
def inner (case : Case) : List CaseFile.Line :=
  [(headerLine "# expect:" case.expected.word).toList] ++
    ((case.skip.toList.map (headerLine "# skip:")).map String.toList ++
      (["---".toList] ++ (case.commands.map String.toList ++
        (["---".toList] ++ case.expected.text.toList.splitOn '\n'))))

/-- The case that expects of the commands what they give. -/
def blessed (name : String) (commands : List String) : Case where
  name := name
  line := 1
  commands := commands
  expected := .ofCommands commands
  skip := none

end Case

namespace CaseFile

/-- What has been read of a case before the line that ends it. -/
def Draft.ofCase (number : Nat) (case : Case) : Draft where
  name := case.name
  line := number
  expectsGraph := case.expected.isGraph
  skip := case.skip
  commands := case.commands
  expected := case.expected.text.toList.splitOn '\n'

/-- A line between two cases: it starts none. -/
def IsAside (line : Line) : Prop := '\n' ∉ line ∧ after? "# test:".toList (trim line) = none

/-- The text of a file: every case stands behind the lines that are given with it. -/
def source (entries : List (List String × Case)) : String :=
  String.join (entries.map fun entry =>
    String.join ((entry.1 ++ entry.2.parts).map (· ++ "\n")))

/-- The cases of a file with the numbers of the lines that name them.  The first of the lines in
front of the first case has the given number. -/
def numberedFrom (number : Nat) : List (List String × Case) → List Case
  | [] => []
  | (asides, case) :: rest =>
      { case with line := number + asides.length } ::
        numberedFrom (number + asides.length + case.lines.length) rest

/-- Reading the lines leads from one place to the other, and no case ends on the way. -/
def ReadsTo (before : Place) (lines : List Line) (after : Place) : Prop :=
  ∀ number rest,
    casesFrom number before (lines ++ rest) = casesFrom (number + lines.length) after rest

end CaseFile

end Definitions

/-! ## Reading a written case -/

namespace CaseFile

section Reading

variable {before between after : Place} {front back lines : List Line} {line : Line}
  {marker phrase name reason command : String} {commands : List String}

theorem ReadsTo.append (hfront : ReadsTo before front between)
    (hback : ReadsTo between back after) :
    ReadsTo before (front ++ back) after := by
  intro number rest
  rw [List.append_assoc, hfront, hback, List.length_append, Nat.add_assoc]

theorem readsTo_nil (place : Place) : ReadsTo place [] place := fun _ _ => rfl

theorem readsTo_line (hread : ∀ number, before.read number (trim line) = (after, none)) :
    ReadsTo before [line] after := by
  intro number rest
  simp [casesFrom, hread]

theorem readsTo_cons (hread : ∀ number, before.read number (trim line) = (between, none))
    (hlater : ReadsTo between lines after) : ReadsTo before (line :: lines) after :=
  (readsTo_line hread).append hlater

theorem casesFrom_map_dropReturn (number : Nat) (place : Place) (front back : List Line) :
    casesFrom number place (front.map dropReturn ++ back) =
      casesFrom number place (front ++ back) := by
  induction front generalizing number place with
  | nil => rfl
  | cons line front ih => simp [casesFrom, trim_dropReturn, ih]

/-- Trimmed, a header line is its marker and a text that is the phrase when it is trimmed. -/
theorem exists_trim_headerLine (marker : String) (hmarker : Trimmed marker.toList)
    (hne : marker.toList ≠ []) (hphrase : IsPhrase phrase) :
    ∃ rest, trim (headerLine marker phrase).toList = marker.toList ++ rest ∧
      trim rest = phrase.toList := by
  rw [headerLine, String.toList_append, String.toList_append, List.append_assoc]
  exact exists_trim_marker hmarker hne hphrase.trimmed

theorem isPhrase_word (expected : Expectation) : IsPhrase expected.word := by
  have hok : IsPhrase "ok" := ⟨rfl, by decide⟩
  have herror : IsPhrase "error" := ⟨rfl, by decide⟩
  cases expected with
  | graph listing => exact hok
  | error message => exact herror

theorem word_eq_ok (expected : Expectation) :
    (expected.word.toList == "ok".toList) = expected.isGraph := by
  cases expected <;> simp [Expectation.word, Expectation.isGraph]

theorem read_title (hname : IsPhrase name) (number : Nat) :
    Place.outside.read number (trim (headerLine "# test:" name).toList) =
      (.header { name, line := number }, none) := by
  obtain ⟨rest, htrim, hrest⟩ := exists_trim_headerLine "# test:" rfl (by decide) hname
  simp only [htrim, Place.read, after?_append, hrest, String.ofList_toList]

theorem casesFrom_title (hname : IsPhrase name) (number : Nat) (rest : List Line) :
    casesFrom number .outside ((headerLine "# test:" name).toList :: rest) =
      casesFrom (number + 1) (.header { name, line := number }) rest := by
  rw [casesFrom, read_title hname]
  rfl

theorem casesFrom_end (draft : Draft) (number : Nat) (rest : List Line) :
    casesFrom number (.expected draft) (["===".toList] ++ rest) =
      draft.toCase :: casesFrom (number + 1) .outside rest := rfl

theorem read_outcome (draft : Draft) (expected : Expectation) (number : Nat) :
    (Place.header draft).read number (trim (headerLine "# expect:" expected.word).toList) =
      (.header { draft with expectsGraph := expected.isGraph }, none) := by
  obtain ⟨rest, htrim, hrest⟩ :=
    exists_trim_headerLine "# expect:" rfl (by decide) (isPhrase_word expected)
  rw [htrim, Place.read, if_neg (by simp)]
  simp only [Draft.readHeader, after?_append, hrest, word_eq_ok]

theorem read_skip (draft : Draft) (hreason : IsPhrase reason) (number : Nat) :
    (Place.header draft).read number (trim (headerLine "# skip:" reason).toList) =
      (.header { draft with skip := some reason }, none) := by
  obtain ⟨rest, htrim, hrest⟩ := exists_trim_headerLine "# skip:" rfl (by decide) hreason
  have hother : after? "# expect:".toList ("# skip:".toList ++ rest) = none := rfl
  rw [htrim, Place.read, if_neg (by simp)]
  simp only [Draft.readHeader, hother, after?_append, hrest, String.ofList_toList]

theorem read_command (draft : Draft) (hcommand : IsCommandLine command) (number : Nat) :
    (Place.commands draft).read number (trim command.toList) =
      (.commands { draft with commands := draft.commands ++ [command] }, none) := by
  have htrim : trim command.toList = command.toList := hcommand.trimmed
  have hdivider : command.toList ≠ "---".toList := fun heq =>
    hcommand.ne_divider (String.toList_inj.mp heq)
  have hempty : command.toList.isEmpty = false := by
    simpa using hcommand.ne_empty
  rw [htrim, Place.read, if_neg hdivider, Draft.readCommand, hempty, String.ofList_toList]
  rfl

theorem read_expected (draft : Draft) (hline : Trimmed line) (hend : line ≠ "===".toList)
    (number : Nat) :
    (Place.expected draft).read number (trim line) =
      (.expected { draft with expected := draft.expected ++ [line] }, none) := by
  rw [Trimmed] at hline
  rw [hline, Place.read, if_neg hend, Draft.readExpected]

theorem readsTo_commands (draft : Draft)
    (hcommands : ∀ command ∈ commands, IsCommandLine command) :
    ReadsTo (.commands draft) (commands.map String.toList)
      (.commands { draft with commands := draft.commands ++ commands }) := by
  induction commands generalizing draft with
  | nil => simpa using readsTo_nil (.commands draft)
  | cons command later ih =>
      obtain ⟨hcommand, hlater⟩ := List.forall_mem_cons.mp hcommands
      simpa using readsTo_cons (read_command draft hcommand) (ih _ hlater)

theorem readsTo_expected (draft : Draft)
    (hlines : ∀ line ∈ lines, Trimmed line ∧ line ≠ "===".toList) :
    ReadsTo (.expected draft) lines
      (.expected { draft with expected := draft.expected ++ lines }) := by
  induction lines generalizing draft with
  | nil => simpa using readsTo_nil (.expected draft)
  | cons line later ih =>
      obtain ⟨hline, hlater⟩ := List.forall_mem_cons.mp hlines
      simpa using readsTo_cons (read_expected draft hline.1 hline.2) (ih _ hlater)

theorem readsTo_skip {skip : Option String} (hskip : ∀ reason ∈ skip, IsPhrase reason)
    (hdraft : draft.skip = none) :
    ReadsTo (.header draft) ((skip.toList.map (headerLine "# skip:")).map String.toList)
      (.header { draft with skip }) := by
  cases skip with
  | none =>
      cases draft
      cases hdraft
      exact readsTo_nil _
  | some reason => exact readsTo_line (read_skip draft (hskip reason rfl))

end Reading

section Files

variable {case : Case}

theorem newline_not_mem_headerLine {marker phrase : String} (hmarker : '\n' ∉ marker.toList)
    (hphrase : IsPhrase phrase) : '\n' ∉ (headerLine marker phrase).toList := by
  simp [headerLine, hmarker, hphrase.newline_not_mem]

/-- Texts that take one line each are their lines. -/
theorem flatMap_splitOn {texts : List String} (htexts : ∀ text ∈ texts, '\n' ∉ text.toList) :
    (texts.flatMap fun text => text.toList.splitOn '\n') = texts.map String.toList := by
  rw [List.map_eq_flatMap]
  exact List.flatMap_congr fun text htext => List.splitOn_eq_singleton (htexts text htext)

theorem lines_of_writable (hcase : case.Writable) :
    case.lines = (headerLine "# test:" case.name).toList :: case.inner ++ ["===".toList] := by
  have hname := newline_not_mem_headerLine (by decide : '\n' ∉ "# test:".toList) hcase.name
  have hword := newline_not_mem_headerLine (by decide : '\n' ∉ "# expect:".toList)
    (isPhrase_word case.expected)
  have hcommands := flatMap_splitOn fun command hcommand =>
    (hcase.commands command hcommand).newline_not_mem
  have hskip : ((case.skip.toList.map (headerLine "# skip:")).flatMap fun text =>
      text.toList.splitOn '\n') =
        (case.skip.toList.map (headerLine "# skip:")).map String.toList := by
    apply flatMap_splitOn
    rw [List.forall_mem_map]
    exact fun reason hreason =>
      newline_not_mem_headerLine (by decide) (hcase.skip reason (Option.mem_toList.mp hreason))
  have hdivider : "---".toList.splitOn '\n' = ["---".toList] := rfl
  have hend : "===".toList.splitOn '\n' = ["===".toList] := rfl
  simp only [Case.lines, Case.parts, Case.inner, List.flatMap_cons, List.flatMap_append,
    List.cons_append, hcommands, hskip, hdivider, hend, List.splitOn_eq_singleton hname,
    List.splitOn_eq_singleton hword]
  simp

theorem readsTo_inner (hcase : case.Writable) (number : Nat) :
    ReadsTo (.header { name := case.name, line := number }) case.inner
      (.expected (.ofCase number case)) := by
  apply (readsTo_line (read_outcome _ case.expected)).append
  apply (readsTo_skip hcase.skip rfl).append
  apply (readsTo_line fun _ => rfl).append
  apply (readsTo_commands _ hcase.commands).append
  apply (readsTo_line fun _ => rfl).append
  exact readsTo_expected _ hcase.expected.lines

theorem toCase_ofCase (hexpected : IsExpectedText case.expected.text) (number : Nat) :
    (Draft.ofCase number case).toCase = { case with line := number } := by
  have htext : trim case.expected.text.toList = case.expected.text.toList := hexpected.trimmed
  simp only [Draft.toCase, Draft.ofCase, unlines_splitOn, htext, String.ofList_toList]
  cases case with
  | mk _ _ _ expected _ => cases expected <;> rfl

/-- The lines of a case are read as that case, wherever they begin. -/
theorem casesFrom_lines (hcase : case.Writable) (number : Nat) (rest : List Line) :
    casesFrom number .outside (case.lines ++ rest) =
      { case with line := number } :: casesFrom (number + case.lines.length) .outside rest := by
  have hlength : number + 1 + case.inner.length + 1 = number + case.lines.length := by
    rw [lines_of_writable hcase, List.length_append, List.length_cons, List.length_singleton]
    omega
  rw [← hlength, lines_of_writable hcase, List.append_assoc, List.cons_append,
    casesFrom_title hcase.name, readsTo_inner hcase, casesFrom_end, toCase_ofCase hcase.expected]

theorem readsTo_asides {asides : List String} (hasides : ∀ line ∈ asides, IsAside line.toList) :
    ReadsTo .outside (asides.map String.toList) .outside := by
  induction asides with
  | nil => exact readsTo_nil _
  | cons line later ih =>
      obtain ⟨hline, hlater⟩ := List.forall_mem_cons.mp hasides
      refine readsTo_cons (fun number => ?_) (ih hlater)
      rw [Place.read, hline.2]

/-- The lines of a file that begins with the given entries. -/
theorem lines_source_cons (entry : List String × Case) (later : List (List String × Case))
    (rest : List Char) :
    Text.lines ((source (entry :: later)).toList ++ rest) =
      ((entry.1 ++ entry.2.parts).flatMap fun part => part.toList.splitOn '\n').map dropReturn ++
        Text.lines ((source later).toList ++ rest) := by
  rw [source, List.map_cons, String.join_cons, String.toList_append, List.append_assoc,
    lines_join_append]
  rfl

theorem casesFrom_source {entries : List (List String × Case)}
    (hasides : ∀ entry ∈ entries, ∀ line ∈ entry.1, IsAside line.toList)
    (hcases : ∀ entry ∈ entries, entry.2.Writable) (number : Nat) (rest : List Char) :
    ∃ next, casesFrom number .outside (Text.lines ((source entries).toList ++ rest)) =
      numberedFrom number entries ++ casesFrom next .outside (Text.lines rest) := by
  induction entries generalizing number with
  | nil => exact ⟨number, rfl⟩
  | cons entry later ih =>
      obtain ⟨hfirst, hlaterAsides⟩ := List.forall_mem_cons.mp hasides
      obtain ⟨hcase, hlater⟩ := List.forall_mem_cons.mp hcases
      have hlines : ((entry.1 ++ entry.2.parts).flatMap fun part => part.toList.splitOn '\n') =
          entry.1.map String.toList ++ entry.2.lines := by
        rw [List.flatMap_append, flatMap_splitOn fun line hline => (hfirst line hline).1]
        rfl
      obtain ⟨next, hnext⟩ :=
        ih hlaterAsides hlater (number + entry.1.length + entry.2.lines.length)
      refine ⟨next, ?_⟩
      rw [lines_source_cons, casesFrom_map_dropReturn, hlines, List.append_assoc,
        readsTo_asides hfirst, casesFrom_lines hcase, List.length_map, hnext, numberedFrom,
        List.cons_append]

/-- Written cases are read back, in order and with the numbers of their lines. -/
theorem parse_source {entries : List (List String × Case)}
    (hasides : ∀ entry ∈ entries, ∀ line ∈ entry.1, IsAside line.toList)
    (hcases : ∀ entry ∈ entries, entry.2.Writable) :
    parse (source entries) = numberedFrom 1 entries := by
  obtain ⟨next, hnext⟩ := casesFrom_source hasides hcases 1 []
  rw [List.append_nil] at hnext
  rw [parse, hnext]
  exact List.append_nil _

/-- What does not depend on the numbers of the lines is as it was written. -/
theorem map_numberedFrom {γ : Type} {read : Case → γ}
    (hread : ∀ (case : Case) (number : Nat), read { case with line := number } = read case)
    (number : Nat) (entries : List (List String × Case)) :
    (numberedFrom number entries).map read = entries.map fun entry => read entry.2 := by
  induction entries generalizing number with
  | nil => rfl
  | cons entry later ih => rw [numberedFrom, List.map_cons, hread, ih, List.map_cons]

end Files

end CaseFile

/-! ## Listings and messages as expected texts -/

section Texts

variable {commands : List String} {graph : Graph String}

theorem isExpectedText_of_lines {text : String} {lines : List CaseFile.Line}
    (htext : text.toList = unlines lines)
    (hlines : ∀ line ∈ lines, line ≠ [] ∧ '\n' ∉ line ∧ Trimmed line ∧ line ≠ "===".toList) :
    IsExpectedText text where
  trimmed := by
    rw [htext]
    exact trimmed_unlines fun line hline => ⟨(hlines line hline).1, (hlines line hline).2.2.1⟩
  lines := by
    rw [htext]
    by_cases hempty : lines = []
    · subst hempty
      simp [unlines, Trimmed]
    · rw [splitOn_unlines (fun line hline => (hlines line hline).2.1) hempty]
      exact fun line hline => (hlines line hline).2.2

theorem trimmed_append_pointerText {text : List Char} (htext : Trimmed text) (hne : text ≠ [])
    (label : String) (pointer : Option NodeId) :
    Trimmed (text ++ (pointerText label pointer).toList) := by
  cases pointer with
  | none => simpa using htext
  | some target =>
      have htarget := trimmed_toDigits target
      simpa using htext.append htarget hne Nat.toDigits_ne_nil (' ' :: label.toList)

/-- A line begins and ends with a number. -/
theorem NodeSummary.trimmed_line (summary : NodeSummary) : Trimmed summary.line.toList := by
  have hhead : Trimmed summary.head := by
    have hnumbers := (trimmed_toDigits summary.index).append (trimmed_toDigits summary.level)
      Nat.toDigits_ne_nil Nat.toDigits_ne_nil (' ' :: (summary.name.toList ++ [' ', 'L']))
    simpa [head] using hnumbers
  have hne : summary.head ≠ [] := by simp [head]
  rw [toList_line]
  apply trimmed_append_pointerText
  · apply trimmed_append_pointerText
    · exact trimmed_append_pointerText hhead hne _ _
    · exact List.append_ne_nil_of_left_ne_nil hne _
  · exact List.append_ne_nil_of_left_ne_nil (List.append_ne_nil_of_left_ne_nil hne _) _

theorem NodeSummary.space_mem_line (summary : NodeSummary) : ' ' ∈ summary.line.toList := by
  simp [toList_line, head]

theorem ne_end_of_space_mem {line : CaseFile.Line} (hspace : ' ' ∈ line) : line ≠ "===".toList := by
  rintro rfl
  exact absurd hspace (by decide)

theorem isExpectedText_listing (hcommands : ∀ command ∈ commands, '\n' ∉ command.toList)
    (hbuild : Graph.build? commands = .ok graph) : IsExpectedText graph.listing := by
  have hlines := forall_line_of_names hbuild hcommands
  have hlisting : graph.listing.toList =
      unlines ((graph.summary.nodes.map NodeSummary.line).map String.toList) := by
    rw [listing_eq_intercalate_line hbuild, String.toList_intercalate]
    rfl
  refine isExpectedText_of_lines hlisting fun line hline => ?_
  obtain ⟨hne, hnewline⟩ := hlines line hline
  rw [List.map_map] at hline
  obtain ⟨summary, _, rfl⟩ := List.mem_map.mp hline
  exact ⟨hne, hnewline, summary.trimmed_line, ne_end_of_space_mem summary.space_mem_line⟩

/-- Every message is a phrase, the position of the blamed command and a bracket. -/
theorem BuildError.exists_message_eq (error : BuildError) :
    ∃ phrase : String, error.message = phrase ++ toString error.index ++ ")" ∧
      (∀ char ∈ phrase.toList.head?, isBlank char = false) ∧ '\n' ∉ phrase.toList ∧
      ' ' ∈ phrase.toList := by
  cases error with
  | unclosedBlock keyword index =>
      have hname : '\n' ∉ keyword.name.toList := by cases keyword <;> decide
      refine ⟨"incomplete block at " ++ keyword.name ++ " (command ", rfl, ?_⟩
      simp [hname]
      rfl
  | misplacedKeyword keyword index reason =>
      refine ⟨reason.message ++ " (command ", rfl, ?_⟩
      cases reason <;> simp [Misplacement.message] <;> rfl
  | armDisorder index reason =>
      refine ⟨reason.message ++ " (block closed at command ", rfl, ?_⟩
      cases reason <;> simp [ArmDisorder.message] <;> rfl

theorem isExpectedText_message (error : BuildError) : IsExpectedText error.message := by
  obtain ⟨phrase, hmessage, hhead, hnewline, hspace⟩ := error.exists_message_eq
  have hchars : error.message.toList = phrase.toList ++ (Nat.toDigits 10 error.index ++ [')']) := by
    simp [hmessage]
  have hne : phrase.toList ≠ [] := List.ne_nil_of_mem hspace
  have htrimmed : Trimmed error.message.toList := by
    rw [trimmed_iff, hchars, List.head?_append_of_ne_nil _ hne, ← List.append_assoc,
      List.getLast?_concat]
    refine ⟨hhead, fun char hlast => ?_⟩
    rw [← Option.mem_some_iff.mp hlast]
    rfl
  have hline : '\n' ∉ error.message.toList := by
    simp [hchars, hnewline, not_mem_toDigits]
  have hmem : ' ' ∈ error.message.toList := by
    rw [hchars]
    exact List.mem_append_left _ hspace
  refine isExpectedText_of_lines (List.intercalate_singleton ..).symm fun line hsingle => ?_
  rw [List.mem_singleton.mp hsingle]
  exact ⟨List.ne_nil_of_mem hmem, hline, htrimmed, ne_end_of_space_mem hmem⟩

theorem isExpectedText_ofCommands (hcommands : ∀ command ∈ commands, '\n' ∉ command.toList) :
    IsExpectedText (Expectation.ofCommands commands).text := by
  rw [Expectation.ofCommands]
  cases hbuild : Graph.build? commands with
  | ok graph => exact isExpectedText_listing hcommands hbuild
  | error error => exact isExpectedText_message error

end Texts

/-! ## Running written cases -/

section Runs

variable {cases : List Case} {commands : List String} {name : String}

theorem Verdict.compare_self (outcome : Expectation) : compare outcome outcome = .pass := by
  cases outcome <;> simp [compare, ofTexts]

theorem Tally.ofCases_concat (cases : List Case) (case : Case) :
    ofCases (cases ++ [case]) = (ofCases cases).record case.name case.line case.run := by
  simp [ofCases]

/-- A tally counts the verdicts and keeps the failures in order. -/
theorem Tally.ofCases_eq (cases : List Case) :
    ofCases cases =
      { passed := cases.countP fun case => case.run.isPass
        skipped := cases.countP fun case => case.run.isSkip
        failures := (cases.filter fun case => case.run.isFail).map fun case =>
          ⟨case.name, case.line, case.run⟩ } := by
  induction cases using List.reverseRecOn with
  | nil => rfl
  | append_singleton cases case ih =>
      rw [ofCases_concat, ih]
      cases hrun : case.run <;>
        simp [record, hrun, List.countP_append, Verdict.isPass, Verdict.isSkip, Verdict.isFail]

theorem Tally.ofCases_of_pass (hpass : ∀ case ∈ cases, case.run = .pass) :
    ofCases cases = { passed := cases.length } := by
  have hpassed : cases.countP (fun case => case.run.isPass) = cases.length :=
    List.countP_eq_length.mpr fun case hcase => by rw [hpass case hcase]; rfl
  have hskipped : cases.countP (fun case => case.run.isSkip) = 0 :=
    List.countP_eq_zero.mpr fun case hcase => by rw [hpass case hcase]; decide
  have hfailed : cases.filter (fun case => case.run.isFail) = [] :=
    List.filter_eq_nil_iff.mpr fun case hcase => by rw [hpass case hcase]; decide
  rw [ofCases_eq, hpassed, hskipped, hfailed, List.map_nil]

theorem Case.writable_blessed (hname : IsPhrase name)
    (hcommands : ∀ command ∈ commands, IsCommandLine command) :
    (blessed name commands).Writable where
  name := hname
  skip := by simp [blessed]
  commands := hcommands
  expected := isExpectedText_ofCommands fun command hcommand =>
    (hcommands command hcommand).newline_not_mem

theorem Case.run_blessed (name : String) (commands : List String) :
    (blessed name commands).run = .pass :=
  Verdict.compare_self _

/-- A file in which every case expects what its commands give is read back, and every case of it
passes. -/
theorem blessed_file_passes (entries : List (String × List String))
    (hnames : ∀ entry ∈ entries, IsPhrase entry.1)
    (hcommands : ∀ entry ∈ entries, ∀ command ∈ entry.2, IsCommandLine command) :
    let cases := CaseFile.parse
      (String.join (entries.map fun entry => (Case.blessed entry.1 entry.2).source))
    (cases.map fun case => (case.name, case.commands)) = entries ∧
      (∀ case ∈ cases, case.run = .pass) ∧
      Tally.ofCases cases = { passed := entries.length } ∧
      (Tally.ofCases cases).allPassed = true := by
  intro cases
  have hcases : cases = CaseFile.numberedFrom 1
      (entries.map fun entry => ([], Case.blessed entry.1 entry.2)) := by
    rw [← CaseFile.parse_source, CaseFile.source, List.map_map]
    · rfl
    · rw [List.forall_mem_map]
      exact fun entry _ => List.forall_mem_nil _
    · rw [List.forall_mem_map]
      exact fun entry hentry => Case.writable_blessed (hnames entry hentry) (hcommands entry hentry)
  have hentries : (cases.map fun case => (case.name, case.commands)) = entries := by
    rw [hcases, CaseFile.map_numberedFrom fun _ _ => rfl, List.map_map]
    exact List.map_id' entries
  have hruns : cases.map Case.run = entries.map fun _ => .pass := by
    rw [hcases, CaseFile.map_numberedFrom fun _ _ => rfl, List.map_map]
    exact List.map_congr_left fun entry _ => Case.run_blessed entry.1 entry.2
  have hpass : ∀ case ∈ cases, case.run = .pass := by
    intro case hcase
    have hrun := List.mem_map_of_mem (f := Case.run) hcase
    rw [hruns] at hrun
    obtain ⟨_, _, heq⟩ := List.mem_map.mp hrun
    exact heq.symm
  have htally : Tally.ofCases cases = { passed := entries.length } := by
    rw [Tally.ofCases_of_pass hpass, ← hentries, List.length_map]
  exact ⟨hentries, hpass, htally, by rw [htally]; rfl⟩

/-- Two cases whose names and commands look like parts of a case file, of which the second one
expects an error. -/
def sampleEntries : List (String × List String) :=
  [("# expect: error", ["while", "# test: ===", "end"]), ("", ["===", "end"])]

theorem sample_blessed_file_passes :
    let cases := CaseFile.parse
      (String.join (sampleEntries.map fun entry => (Case.blessed entry.1 entry.2).source))
    (cases.map fun case => (case.name, case.commands)) = sampleEntries ∧
      Tally.ofCases cases = { passed := 2 } := by
  obtain ⟨hentries, _, htally, _⟩ := blessed_file_passes sampleEntries (by decide) (by decide)
  exact ⟨hentries, htally⟩

example : (Case.blessed "" ["===", "end"]).source =
    "# test: \n# expect: error\n---\n===\nend\n---\n" ++
      "use of end without an opening keyword (command 1)\n===\n" := by
  decide

end Runs

end StepFlow
