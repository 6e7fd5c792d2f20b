import StepFlow.Proofs.CaseFiles

/-!
# Cases keep their places in a file

A file of written cases may have blank lines and comments in front of its cases and behind the last
one.  Reading it gives back every case as it was written, in order, together with the number of the
line that names it.  Nothing is asked of the lines inside of a case beyond what keeps its parts
apart, so that a command or an expected line may well look like a header.
Main statement: `written_cases_are_read_back`.
-/

namespace StepFlow.CaseFile

open Text

/-- The text of some lines. -/
def written (lines : List String) : String := String.join (lines.map (· ++ "\n"))

instance (line : Line) : Decidable (IsAside line) :=
  inferInstanceAs (Decidable ('\n' ∉ line ∧ after? "# test:".toList (trim line) = none))

instance (text : String) : Decidable (IsExpectedText text) :=
  decidable_of_iff (trim text.toList = text.toList ∧
      ∀ line ∈ text.toList.splitOn '\n', trim line = line ∧ line ≠ "===".toList)
    ⟨fun ⟨htrimmed, hlines⟩ => ⟨htrimmed, hlines⟩, fun ⟨htrimmed, hlines⟩ => ⟨htrimmed, hlines⟩⟩

instance (case : Case) : Decidable case.Writable :=
  decidable_of_iff (IsPhrase case.name ∧ (∀ reason ∈ case.skip, IsPhrase reason) ∧
      (∀ command ∈ case.commands, IsCommandLine command) ∧ IsExpectedText case.expected.text)
    ⟨fun ⟨hname, hskip, hcommands, hexpected⟩ => ⟨hname, hskip, hcommands, hexpected⟩,
      fun ⟨hname, hskip, hcommands, hexpected⟩ => ⟨hname, hskip, hcommands, hexpected⟩⟩

variable {entries front back : List (List String × Case)} {asides : List String} {case : Case}

/-- A blank line stands between cases as a comment does. -/
theorem isAside_of_blank {line : Line} (hnewline : '\n' ∉ line)
    (hblank : ∀ char ∈ line, isBlank char = true) : IsAside line := by
  have htrim : trim line = [] := by
    rw [trim, trimStart, List.dropWhile_eq_nil_iff.mpr hblank]
    rfl
  rw [IsAside, htrim]
  exact ⟨hnewline, rfl⟩

/-! ## The lines of a file -/

theorem written_append (first later : List String) :
    written (first ++ later) = written first ++ written later := by
  rw [written, List.map_append, String.join_append]
  rfl

theorem lines_written (lines : List String) :
    Text.lines (written lines).toList =
      (lines.flatMap fun line => line.toList.splitOn '\n').map dropReturn := by
  have hlines := lines_join_append lines []
  rw [List.append_nil] at hlines
  exact hlines.trans (List.append_nil _)

theorem lines_written_append (lines : List String) (rest : List Char) :
    Text.lines ((written lines).toList ++ rest) =
      Text.lines (written lines).toList ++ Text.lines rest := by
  rw [lines_written]
  exact lines_join_append lines rest

/-- All lines of some entries. -/
def entryLines (entries : List (List String × Case)) : List String :=
  entries.flatMap fun entry => entry.1 ++ entry.2.parts

theorem source_eq_written (entries : List (List String × Case)) :
    source entries = written (entryLines entries) := by
  induction entries with
  | nil => rfl
  | cons entry later ih =>
      rw [entryLines, List.flatMap_cons, written_append, ← entryLines, ← ih, source, List.map_cons,
        String.join_cons]
      rfl

/-- How many lines stand in front of the title of the case that follows the given entries. -/
def linesBefore (front : List (List String × Case)) (asides : List String) : Nat :=
  (Text.lines (source front ++ written asides).toList).length

theorem linesBefore_eq (front : List (List String × Case)) (asides : List String) :
    linesBefore front asides =
      ((entryLines front ++ asides).flatMap fun line => line.toList.splitOn '\n').length := by
  rw [linesBefore, source_eq_written, ← written_append, lines_written, List.length_map]

theorem linesBefore_nil (hasides : ∀ line ∈ asides, IsAside line.toList) :
    linesBefore [] asides = asides.length := by
  rw [linesBefore_eq, entryLines, List.flatMap_nil, List.nil_append,
    flatMap_splitOn fun line hline => (hasides line hline).1, List.length_map]

theorem linesBefore_cons {entry : List String × Case}
    (hentry : ∀ line ∈ entry.1, IsAside line.toList) (front : List (List String × Case))
    (asides : List String) :
    linesBefore (entry :: front) asides =
      entry.1.length + entry.2.lines.length + linesBefore front asides := by
  rw [linesBefore_eq, linesBefore_eq, entryLines, List.flatMap_cons, ← entryLines,
    List.append_assoc, List.append_assoc, List.flatMap_append, List.flatMap_append,
    List.length_append, List.length_append, flatMap_splitOn fun line hline => (hentry line hline).1,
    List.length_map, ← Case.lines, Nat.add_assoc]

/-! ## Titles -/

/-- The number of a case counts the lines in front of its title. -/
theorem getElem?_numberedFrom (hfront : ∀ entry ∈ front, ∀ line ∈ entry.1, IsAside line.toList)
    (hasides : ∀ line ∈ asides, IsAside line.toList) (number : Nat) :
    (numberedFrom number (front ++ (asides, case) :: back))[front.length]? =
      some { case with line := number + linesBefore front asides } := by
  induction front generalizing number with
  | nil => simp [numberedFrom, linesBefore_nil hasides]
  | cons entry front ih =>
      obtain ⟨hentry, hlater⟩ := List.forall_mem_cons.mp hfront
      rw [List.cons_append, numberedFrom, List.length_cons, List.getElem?_cons_succ, ih hlater,
        linesBefore_cons hentry, Nat.add_assoc, Nat.add_assoc, Nat.add_assoc]

theorem length_numberedFrom (number : Nat) (entries : List (List String × Case)) :
    (numberedFrom number entries).length = entries.length := by
  induction entries generalizing number with
  | nil => rfl
  | cons entry later ih => rw [numberedFrom, List.length_cons, ih, List.length_cons]

/-- A title does not end with a carriage return. -/
theorem dropReturn_title {name : String} (hname : IsPhrase name) :
    dropReturn (headerLine "# test:" name).toList = (headerLine "# test:" name).toList := by
  have hlast : (headerLine "# test:" name).toList.getLast? ≠ some '\r' := by
    rw [headerLine, String.toList_append]
    by_cases hempty : name.toList = []
    · rw [hempty]
      decide
    · intro hreturn
      rw [List.getLast?_append_of_ne_nil _ hempty] at hreturn
      have hblank := (trimmed_iff.mp hname.trimmed).2 '\r' hreturn
      exact absurd hblank (by decide)
  rw [dropReturn]
  split
  · contradiction
  · rfl

/-- The lines in front of a title are followed by it. -/
theorem getElem?_lines_title (hname : IsPhrase case.name) (rest : String) :
    (Text.lines (source (front ++ (asides, case) :: back) ++ rest).toList)[
      linesBefore front asides]? = some (headerLine "# test:" case.name).toList := by
  have htitle := newline_not_mem_headerLine (by decide : '\n' ∉ "# test:".toList) hname
  have hsplit : entryLines (front ++ (asides, case) :: back) =
      (entryLines front ++ asides) ++ (case.parts ++ entryLines back) := by
    simp [entryLines]
  rw [source_eq_written, hsplit, written_append, String.append_assoc, String.toList_append,
    lines_written_append, linesBefore, source_eq_written, ← written_append,
    List.getElem?_append_right (Nat.le_refl _), Nat.sub_self, String.toList_append,
    lines_written_append, lines_written, Case.parts]
  simp [List.splitOn_eq_singleton htitle, dropReturn_title hname]

/-! ## Reading files -/

/-- Behind the last case there may be more lines that start none. -/
theorem parse_source_append {trailing : List String}
    (hentries : ∀ entry ∈ entries, ∀ line ∈ entry.1, IsAside line.toList)
    (htrailing : ∀ line ∈ trailing, IsAside line.toList)
    (hcases : ∀ entry ∈ entries, entry.2.Writable) :
    parse (source entries ++ written trailing) = numberedFrom 1 entries := by
  obtain ⟨next, hnext⟩ := casesFrom_source hentries hcases 1 (written trailing).toList
  have hlines := lines_written trailing
  rw [flatMap_splitOn fun line hline => (htrailing line hline).1] at hlines
  have hnone : casesFrom next .outside ((trailing.map String.toList).map dropReturn) = [] := by
    have hread := casesFrom_map_dropReturn next .outside (trailing.map String.toList) []
    rw [List.append_nil, readsTo_asides htrailing] at hread
    exact hread
  rw [parse, String.toList_append, hnext, hlines, hnone, List.append_nil]

/-- Written cases are read back in order and as they were written, each with the number of the line
that holds its title, whatever lines that start no case stand around them. -/
theorem written_cases_are_read_back (entries : List (List String × Case)) (trailing : List String)
    (hentries : ∀ entry ∈ entries, ∀ line ∈ entry.1, IsAside line.toList)
    (htrailing : ∀ line ∈ trailing, IsAside line.toList)
    (hcases : ∀ entry ∈ entries, entry.2.Writable) :
    let text := source entries ++ written trailing
    (parse text).length = entries.length ∧
      ∀ front asides case back, entries = front ++ (asides, case) :: back →
        (parse text)[front.length]? = some { case with line := linesBefore front asides + 1 } ∧
          (Text.lines text.toList)[linesBefore front asides]? =
            some (headerLine "# test:" case.name).toList := by
  intro text
  have hparse : parse text = numberedFrom 1 entries :=
    parse_source_append hentries htrailing hcases
  constructor
  · rw [hparse, length_numberedFrom]
  · rintro front asides case back rfl
    have hmem : (asides, case) ∈ front ++ (asides, case) :: back :=
      List.mem_append_right _ List.mem_cons_self
    have hfront : ∀ entry ∈ front, ∀ line ∈ entry.1, IsAside line.toList :=
      fun entry hentry => hentries entry (List.mem_append_left _ hentry)
    constructor
    · rw [hparse, getElem?_numberedFrom hfront (hentries _ hmem), Nat.add_comm]
    · exact getElem?_lines_title (hcases _ hmem).name _

/-- A skipped case without any text and one that is full of lines that look like headers, with
blank lines and a comment around them. -/
def sampleSource : List (List String × Case) :=
  [(["", " \t"], ⟨"", 0, [], .graph "", some "# test:"⟩),
    (["a comment", ""],
      ⟨"# expect: ok", 0, ["# test: a", "==="], .error "# test: b\n\n---\n# skip: c", none⟩)]

theorem sample_source_is_read_back :
    (∀ entry ∈ sampleSource, ∀ line ∈ entry.1, IsAside line.toList) ∧
      (∀ line ∈ ["", "  "], IsAside line.toList) ∧
      (∀ entry ∈ sampleSource, entry.2.Writable) ∧
      (parse (source sampleSource ++ written ["", "  "])).length = 2 ∧
      (parse (source sampleSource ++ written ["", "  "]))[1]? =
        some ⟨"# expect: ok", 12, ["# test: a", "==="], .error "# test: b\n\n---\n# skip: c",
          none⟩ := by
  have hentries : ∀ entry ∈ sampleSource, ∀ line ∈ entry.1, IsAside line.toList := by decide
  have htrailing : ∀ line ∈ ["", "  "], IsAside line.toList := by decide
  have hcases : ∀ entry ∈ sampleSource, entry.2.Writable := by decide
  have hbefore : linesBefore [sampleSource[0]] ["a comment", ""] = 11 := by decide +kernel
  obtain ⟨hlength, hread⟩ :=
    written_cases_are_read_back sampleSource ["", "  "] hentries htrailing hcases
  have hsecond := (hread [sampleSource[0]] ["a comment", ""] sampleSource[1].2 [] rfl).1
  rw [hbefore] at hsecond
  exact ⟨hentries, htrailing, hcases, hlength, hsecond⟩

end StepFlow.CaseFile
