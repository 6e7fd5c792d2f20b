import StepFlow.Proofs.CommandShapes
import StepFlow.Proofs.JsonAcceptance
import StepFlow.Proofs.StoredSuites

/-!
# A command alone and inside a file

A command may be read from a text of its own, from left to right, or it may be decoded from a value,
once the whole text around it was read.  Both say the same about every value.  So a text is that of
a command exactly if a file that lists nothing else is a bare list of that command.
Main statement: `command_is_read_alike`.
-/

namespace StepFlow

open Json

namespace Recording

variable {members : List (String × Value)} {names : List String} {command : Command}

theorem stringOf?_some : stringOf? some = text? := by
  funext value
  cases value <;> rfl

theorem optionalOf?_some : optionalOf? some = optionalText? := by
  funext value
  cases value <;> rfl

theorem storedValues_some (field : Field) :
    storedValues some field members = valuesOf field.keys members := rfl

theorem member?_of_cons_cons {value second : Value} {later : List Value}
    (hvalues : valuesOf names members = value :: second :: later) :
    member? names members = none := by
  have hlength := congrArg List.length hvalues
  rw [valuesOf, List.length_map] at hlength
  unfold member?
  split
  case h_1 heq => cases hlength.symm.trans (congrArg List.length heq)
  case h_2 heq => cases hlength.symm.trans (congrArg List.length heq)
  case h_3 => rfl

theorem member?_eq_some_iff {value? : Option Value} :
    member? names members = some value? ↔ valuesOf names members = value?.toList := by
  rcases hvalues : valuesOf names members with _ | ⟨value, _ | ⟨second, later⟩⟩
  · rw [member?_of_nil hvalues]
    cases value? <;> simp
  · rw [member?_of_singleton hvalues]
    cases value? <;> simp
  · rw [member?_of_cons_cons hvalues]
    cases value? <;> simp

theorem Holds.exists_toList {α : Type} {decode : Value → Option α} {default found : α}
    {values : List Value} (hholds : Holds decode default values found) :
    ∃ value? : Option Value, values = value?.toList := by
  cases hholds with
  | absent => exact ⟨none, rfl⟩
  | @present value _ _ => exact ⟨some value, rfl⟩

theorem decodeOr_eq_some_iff {α : Type} {decode : Value → Option α} {default found : α}
    {value? : Option Value} :
    decodeOr default decode value? = some found ↔ Holds decode default value?.toList found := by
  cases value? with
  | none =>
      refine ⟨?_, ?_⟩
      · rintro ⟨⟩
        exact .absent
      · rintro ⟨⟩
        rfl
  | some value =>
      refine ⟨.present, ?_⟩
      rintro (_ | hfound)
      exact hfound

theorem commandOf?_eq_some_iff {id name target value comment : Option Value} :
    commandOf? id name target value comment = some command ↔
      Holds optionalText? none id.toList command.id ∧
      (∃ found, name.toList = [found] ∧ text? found = some command.name) ∧
      Holds text? "" target.toList command.target ∧ Holds text? "" value.toList command.value ∧
      Holds text? "" comment.toList command.comment := by
  cases name with
  | none => simp [commandOf?]
  | some name =>
      simp only [commandOf?, Option.bind_eq_bind, Option.bind_eq_some_iff, ← decodeOr_eq_some_iff]
      obtain ⟨id', name', target', value', comment'⟩ := command
      simp

theorem command?_object_eq_some_iff :
    command? (.object members) = some command ↔ HoldsCommand some members command := by
  simp only [command?, Option.bind_eq_bind, Option.bind_eq_some_iff, member?_eq_some_iff,
    commandOf?_eq_some_iff]
  rw [← stringOf?_some, ← optionalOf?_some]
  constructor
  · rintro ⟨id, hid, name, hname, target, htarget, value, hvalue, comment, hcomment, hholds⟩
    rw [← hid, ← hname, ← htarget, ← hvalue, ← hcomment] at hholds
    obtain ⟨hid, hname, htarget, hvalue, hcomment⟩ := hholds
    exact ⟨fun _ _ => rfl, hid, hname, htarget, hvalue, hcomment⟩
  · rintro ⟨_, hid, ⟨name, hname, hfound⟩, htarget, hvalue, hcomment⟩
    rw [storedValues_some] at hid htarget hvalue hcomment hname
    obtain ⟨id?, hid?⟩ := hid.exists_toList
    obtain ⟨target?, htarget?⟩ := htarget.exists_toList
    obtain ⟨value?, hvalue?⟩ := hvalue.exists_toList
    obtain ⟨comment?, hcomment?⟩ := hcomment.exists_toList
    exact ⟨id?, hid?, some name, hname, target?, htarget?, value?, hvalue?, comment?, hcomment?,
      hid? ▸ hid, ⟨name, rfl, hfound⟩, htarget? ▸ htarget, hvalue? ▸ hvalue, hcomment? ▸ hcomment⟩

theorem command?_array (items : List Value) : command? (.array items) = listed? some items := by
  match items with
  | [] | [_] | [_, _] | [_, _, _] | [_, _, _, _] | [_, _, _, _, _]
  | _ :: _ :: _ :: _ :: _ :: _ :: _ =>
      simp [listed?, next?, command?, commandOf?, decodeOr, stringOf?_some, optionalOf?_some,
        Option.bind_assoc, Option.map_eq_bind]

/-- What is found by looking fields up is what is found by taking them in one after the other. -/
theorem meant?_eq_command? (value : Value) : meant? some value = command? value := by
  cases value with
  | object members =>
      ext command
      rw [meant?_object_eq_some_iff, command?_object_eq_some_iff]
  | array items => rw [command?_array, meant?]
  | null | boolean | number | string => rfl

/-! ## Texts -/

theorem legible_texts : Legible plainSpelling some where
  toIsGrammatical := plainSpelling_isGrammatical
  readString hstring rest := readString_append hstring rest

/-- A text between brackets is that of a list. -/
theorem exists_items_of_brackets {value : Value} {text : List Char}
    (htext : Spells plainSpelling value ('[' :: (text ++ [']']))) :
    ∃ items, value = .array items ∧
      (items = [] ∧ IsGap text ∨ SpellsItems plainSpelling items text) := by
  obtain ⟨before, bare, after, heq, hbefore, hafter, hbare⟩ := htext.spacedBare
  have hnil : before = [] := by
    cases before with
    | nil => rfl
    | cons char before =>
        obtain ⟨rfl, _⟩ := List.cons.inj heq
        exact absurd (hbefore '[' List.mem_cons_self) (by decide)
  have hnil' : after = [] := by
    rcases List.eq_nil_or_concat after with rfl | ⟨front, char, rfl⟩
    · rfl
    · have hlast := congrArg List.getLast? heq
      obtain rfl : ']' = char := by simpa [List.getLast?_cons] using hlast
      exact absurd (hafter ']' (by simp)) (by decide)
  rw [hnil, hnil', List.nil_append, List.append_nil] at heq
  cases hbare with
  | emptyArray hgap =>
      obtain ⟨rfl, _⟩ := List.append_inj' (List.cons.inj heq).2 rfl
      exact ⟨[], rfl, Or.inl ⟨rfl, hgap⟩⟩
  | array hitems =>
      obtain ⟨rfl, _⟩ := List.append_inj' (List.cons.inj heq).2 rfl
      exact ⟨_, rfl, Or.inr hitems⟩
  | number hnumber =>
      obtain ⟨char, later, rfl, _, _, hother⟩ := strict_reads.exists_number_cons hnumber
      exact absurd (List.cons.inj heq).1.symm (hother '[' (by decide) rfl)
  | null | yes | no | string | emptyObject | object => simp at heq

end Recording

/-- The text is that of a value that can be decoded: every string in it has a text, every number
fits into a double, and it is not nested too deeply. -/
def IsBuffered (text : String) : Prop :=
  ∃ value, Spells plainSpelling value text.toList ∧ value.depth ≤ 127

namespace Suite

open Recording

variable {text fallbackName : String}

theorem readBy_eq_ok_iff {decode : Value → Option (List RecordedTest)}
    {tests : List RecordedTest} :
    readBy decode text = .ok tests ↔
      ∃ value, (Spells plainSpelling value text.toList ∧ value.depth ≤ 127) ∧
        decode value = some tests := by
  simp only [← reads_strictly_iff]
  unfold readBy
  constructor
  · intro hread
    split at hread
    case h_1 => contradiction
    case h_2 value rest hvalue =>
        split at hread
        case h_1 => contradiction
        case h_2 found hdecode =>
            obtain ⟨_, hend, rfl⟩ := map_eq_ok_iff.mp hread
            exact ⟨value, ⟨rest, hvalue, hend⟩, hdecode⟩
  · rintro ⟨value, ⟨rest, hvalue, hend⟩, hdecode⟩
    simp only [hvalue, hdecode, hend]
    rfl

/-- The text is read as one test, which is a bare list of commands. -/
def ReadsBare (text fallbackName : String) (commands : List Command) : Prop :=
  read text fallbackName = .ok [{ name := fallbackName, commands }] ∧
    readBy (bareTest? fallbackName) text = .ok [{ name := fallbackName, commands }]

theorem readsBare_iff {commands : List Command} :
    ReadsBare text fallbackName commands ↔
      ∃ value, (Spells plainSpelling value text.toList ∧ value.depth ≤ 127) ∧
        list? command? value = some commands := by
  have hbare : ∀ value, bareTest? fallbackName value = some [{ name := fallbackName, commands }] ↔
      list? command? value = some commands := by
    intro value
    simp [bareTest?]
  rw [ReadsBare, ← readBy_ofValue?, readBy_eq_ok_iff, readBy_eq_ok_iff]
  simp only [hbare]
  refine ⟨And.right, ?_⟩
  rintro ⟨value, htext, hcommands⟩
  have hsuite := (suite?_or_commands value).resolve_right (by simp [hcommands])
  refine ⟨⟨value, htext, ?_⟩, value, htext, hcommands⟩
  rw [ofValue?, hsuite, Option.none_or, hbare, hcommands]

end Suite

namespace Command

open Recording

variable {text : String} {command : Command}

/-- No command is read from space. -/
theorem read_ne_ok_of_isGap (hgap : IsGap text.toList) : read text ≠ .ok command := by
  have hskip : skipSpace text.toList = [] := List.dropWhile_eq_nil_iff.mpr hgap
  rw [read, readCommand, hskip]
  rintro ⟨⟩

/-- No command is read from a text that goes on with a comma. -/
theorem read_ne_ok_of_comma {value : Value} {front later : List Char}
    (hfront : Spells plainSpelling value front) (htext : text.toList = front ++ ',' :: later) :
    read text ≠ .ok command := by
  have hfinds := reads_command legible_texts hfront (ends_comma later)
  rw [read, htext]
  generalize readCommand (front ++ ',' :: later) = result, meant? some value = expected at hfinds
  cases hfinds with
  | failed error => rintro ⟨⟩
  | found hgap =>
      have hskip := skipSpace_append_cons hgap (by rfl : isSpace ',' = false) later
      simp [expectEnd, hskip, Except.map]

theorem read_eq_ok_iff_of_items {items : List Value}
    (hitems : SpellsItems plainSpelling items text.toList) :
    read text = .ok command ↔ list? command? (.array items) = some [command] := by
  generalize htext : text.toList = chars at hitems
  cases hitems with
  | @last item _ hitem =>
      subst htext
      have hlist : list? command? (.array [item]) = some [command] ↔
          command? item = some command := by
        simp [list?_eq_some_iff]
      rw [hlist, ← meant?_eq_command?, ← read_of_spells legible_texts hitem, toOption_eq_some_iff]
  | cons hfront hlater =>
      refine iff_of_false (read_ne_ok_of_comma hfront htext) fun hlist => ?_
      obtain ⟨_, ⟨⟩, hdecoded⟩ := list?_eq_some_iff.mp hlist
      obtain _ | ⟨_, ⟨⟩⟩ := hdecoded
      nomatch hlater

/-- Between brackets stands a command alone exactly if it stands in a list of one. -/
theorem read_eq_ok_iff_of_brackets {value : Value}
    (hvalue : Spells plainSpelling value ("[" ++ text ++ "]").toList) :
    read text = .ok command ↔ list? command? value = some [command] := by
  have hbrackets : ("[" ++ text ++ "]").toList = '[' :: (text.toList ++ [']']) := by simp
  rw [hbrackets] at hvalue
  obtain ⟨items, rfl, ⟨rfl, hgap⟩ | hitems⟩ := exists_items_of_brackets hvalue
  · exact iff_of_false (read_ne_ok_of_isGap hgap) nofun
  · exact read_eq_ok_iff_of_items hitems

/-- A file that lists a single text is read as a bare list of one command exactly if the command is
read from that text alone and the file is that of a value that can be decoded. -/
theorem command_is_read_alike (text fallbackName : String) (command : Command) :
    Suite.ReadsBare ("[" ++ text ++ "]") fallbackName [command] ↔
      read text = .ok command ∧ IsBuffered ("[" ++ text ++ "]") := by
  rw [Suite.readsBare_iff, IsBuffered]
  constructor
  · rintro ⟨value, hvalue, hlist⟩
    exact ⟨(read_eq_ok_iff_of_brackets hvalue.1).mpr hlist, value, hvalue⟩
  · rintro ⟨hread, value, hvalue⟩
    exact ⟨value, hvalue, (read_eq_ok_iff_of_brackets hvalue.1).mp hread⟩

end Command

end StepFlow
