import StepFlow.Proofs.JsonReading
import StepFlow.Proofs.JsonWriting
import StepFlow.Proofs.SuiteFormat

/-!
# A stored command is read back

A command is read back from the text it is stored as, whichever of its fields are absent or empty
and whatever characters they hold.  Its text is read from left to right: each member adds one field,
and what is not written is what a command has by default.  The same value decodes to the command
when it is found inside a suite.
Main statements: `Command.read_json` and `Command.command?_stored`.
-/

namespace StepFlow

open Json

namespace Recording

/-! ## Reading fields -/

namespace Fields

/-- The fields after one more was read. -/
def take (fields : Fields) (entry : Field × String) : Fields :=
  match entry.1 with
  | .id => fields.setId (some entry.2)
  | .text field => fields.setText entry.2 field

theorem has_take (fields : Fields) (entry : Field × String) (field : Field) :
    (fields.take entry).has field = (decide (field = entry.1) || fields.has field) := by
  obtain ⟨taken, text⟩ := entry
  rcases taken with _ | taken
  · rcases field with _ | field
    · rfl
    · cases field <;> rfl
  · rcases field with _ | field
    · cases taken <;> rfl
    · cases taken <;> cases field <;> rfl

end Fields

theorem stringLiteral_append (text : String) (rest : List Char) :
    stringLiteral text ++ rest = '"' :: (text.toList.flatMap escapeChar ++ '"' :: rest) := by
  rw [stringLiteral, List.cons_append, List.cons_append, List.append_assoc, List.singleton_append]

theorem readName_stringLiteral (name : String) (rest : List Char) :
    readName strict (stringLiteral name ++ rest) = .ok (name, rest) := by
  rw [stringLiteral_append, readName, skipSpace_cons rfl]
  exact readString_append (spellsChars_escapeChar name.toList) rest

theorem readText_stringLiteral (text : String) (rest : List Char) :
    readText (stringLiteral text ++ rest) = .ok (text, rest) := by
  rw [stringLiteral_append, readText, skipSpace_cons rfl]
  exact readString_append (spellsChars_escapeChar text.toList) rest

theorem readOptionalText_stringLiteral (text : String) (rest : List Char) :
    readOptionalText (stringLiteral text ++ rest) = .ok (some text, rest) := by
  have hread := readText_stringLiteral text rest
  rw [stringLiteral_append] at hread ⊢
  rw [readOptionalText, skipSpace_cons rfl]
  simp only [hread]
  rfl

/-- A field that was not read before is read from its member. -/
theorem readMember_stringLiteral {fields : Fields} {entry : Field × String}
    (hnew : fields.has entry.1 = false) (rest : List Char) :
    readMember fields (some entry.1) (':' :: (stringLiteral entry.2 ++ rest)) =
      .ok (fields.take entry, rest) := by
  have hcolon : ∀ later, readColon (':' :: later) = .ok later := readColon_append isGap_nil
  obtain ⟨field, text⟩ := entry
  cases field with
  | id =>
      simp only [readMember, hnew, hcolon, Except.bind, readOptionalText_stringLiteral]
      rfl
  | text field =>
      simp only [readMember, hnew, hcolon, Except.bind, readText_stringLiteral]
      rfl

/-- The member that holds a field. -/
def memberOf (entry : Field × String) : String × Value := (entry.1.key, .string entry.2)

def memberText (entry : Field × String) : List Char :=
  stringLiteral entry.1.key ++ ':' :: stringLiteral entry.2

theorem readFields_last {fields : Fields} {entry : Field × String}
    (hnew : fields.has entry.1 = false) (fuel : Nat) (rest : List Char) :
    readFields (fuel + 1) fields (memberText entry ++ '\x7d' :: rest) =
      .ok (fields.take entry, rest) := by
  have hdone : readContinuation '\x7d' ('\x7d' :: rest) = .ok (.done, rest) := rfl
  rw [memberText, List.append_assoc, List.cons_append, readFields, readName_stringLiteral]
  simp only [Field.ofKey?_key, readMember_stringLiteral hnew, hdone]

theorem readFields_more {fields : Fields} {entry : Field × String}
    (hnew : fields.has entry.1 = false) (fuel : Nat) (later : List Char) :
    readFields (fuel + 1) fields (memberText entry ++ ',' :: later) =
      readFields fuel (fields.take entry) later := by
  have hmore : readContinuation '\x7d' (',' :: later) = .ok (.more, later) := rfl
  rw [memberText, List.append_assoc, List.cons_append, readFields, readName_stringLiteral]
  simp only [Field.ofKey?_key, readMember_stringLiteral hnew, hmore]

theorem compactMembers_singleton (entry : Field × String) :
    Tree.compactMembers ([entry].map memberOf) = memberText entry := rfl

theorem compactMembers_cons (entry next : Field × String) (entries : List (Field × String)) :
    Tree.compactMembers ((entry :: next :: entries).map memberOf) =
      memberText entry ++ ',' :: Tree.compactMembers ((next :: entries).map memberOf) := rfl

/-- Fields that are all different, and were not read before, are read from their members. -/
theorem readFields_compactMembers (rest : List Char) :
    ∀ (entries : List (Field × String)) {fields : Fields} {fuel : Nat}, entries ≠ [] →
      (Tree.compactMembers (entries.map memberOf)).length < fuel →
      (entries.map Prod.fst).Nodup → (∀ entry ∈ entries, fields.has entry.1 = false) →
      readFields fuel fields (Tree.compactMembers (entries.map memberOf) ++ '\x7d' :: rest) =
        .ok (entries.foldl Fields.take fields, rest)
  | [], _, _, hne, _, _, _ => absurd rfl hne
  | _, _, 0, _, hfuel, _, _ => absurd hfuel (Nat.not_lt_zero _)
  | [entry], fields, fuel + 1, _, _, _, hnew => by
      rw [compactMembers_singleton, readFields_last (hnew entry List.mem_cons_self)]
      rfl
  | entry :: next :: entries, fields, fuel + 1, _, hfuel, hnodup, hnew => by
      obtain ⟨hentry, hnodup⟩ := List.nodup_cons.mp hnodup
      have hlater : ∀ other ∈ next :: entries, (fields.take entry).has other.1 = false := by
        intro other hother
        have hne : other.1 ≠ entry.1 := fun heq => hentry (heq ▸ List.mem_map_of_mem hother)
        rw [Fields.has_take, decide_eq_false hne, hnew other (List.mem_cons_of_mem entry hother)]
        rfl
      have hshorter : (Tree.compactMembers ((next :: entries).map memberOf)).length < fuel := by
        rw [compactMembers_cons, List.length_append, List.length_cons] at hfuel
        omega
      rw [compactMembers_cons, List.append_assoc, List.cons_append,
        readFields_more (hnew entry List.mem_cons_self)]
      exact readFields_compactMembers rest (next :: entries) (by simp) hshorter hnodup hlater

/-- A written member begins with a quote. -/
theorem exists_compactMembers_eq_cons {entries : List (Field × String)} (hne : entries ≠ []) :
    ∃ later, Tree.compactMembers (entries.map memberOf) = '"' :: later := by
  match entries with
  | [] => exact absurd rfl hne
  | [_] => exact ⟨_, rfl⟩
  | _ :: _ :: _ => exact ⟨_, rfl⟩

theorem readAllFields_compactMembers {entries : List (Field × String)} (hne : entries ≠ [])
    (hnodup : (entries.map Prod.fst).Nodup) (rest : List Char) :
    readAllFields (Tree.compactMembers (entries.map memberOf) ++ '\x7d' :: rest) =
      .ok (entries.foldl Fields.take {}, rest) := by
  have hnew : ∀ entry ∈ entries, Fields.has {} entry.1 = false := by
    rintro ⟨_ | field, text⟩ _
    · rfl
    · cases field <;> rfl
  have hfuel : (Tree.compactMembers (entries.map memberOf)).length <
      (Tree.compactMembers (entries.map memberOf) ++ '\x7d' :: rest).length + 1 := by
    rw [List.length_append]
    omega
  have hread := readFields_compactMembers rest entries hne hfuel hnodup hnew
  obtain ⟨later, hlater⟩ := exists_compactMembers_eq_cons hne
  rw [hlater, List.cons_append] at hread ⊢
  rw [readAllFields, skipSpace_cons rfl]
  exact hread

end Recording

/-! ## Reading a command alone -/

namespace Command

open Recording

/-- The fields of a command that are written. -/
def entries (command : Command) : List (Field × String) :=
  command.id.toList.map (.id, ·) ++
    [(.text .name, command.name), (.text .target, command.target), (.text .value, command.value)] ++
    if command.comment.isEmpty then [] else [(.text .comment, command.comment)]

theorem stored_eq (command : Command) :
    command.stored = .object (command.entries.map memberOf) := by
  rw [stored, entries, List.map_append, List.map_append, List.map_map,
    apply_ite (List.map memberOf)]
  rfl

theorem nodup_entries (command : Command) : (command.entries.map Prod.fst).Nodup := by
  rw [entries]
  cases command.id <;> split <;> simp

/-- What is not written is what a command has by default. -/
theorem toCommand_entries (command : Command) :
    (command.entries.foldl Fields.take {}).toCommand = .ok command := by
  obtain ⟨id, name, target, value, comment⟩ := command
  rw [entries]
  split
  case isTrue hcomment =>
    obtain ⟨rfl⟩ := String.isEmpty_iff.mp hcomment
    cases id <;> rfl
  case isFalse => cases id <;> rfl

theorem read_json (command : Command) : read command.json = .ok command := by
  have hne : command.entries ≠ [] := by simp [entries]
  have htext : command.json.toList =
      '\x7b' :: (Tree.compactMembers (command.entries.map memberOf) ++ ['\x7d']) := by
    rw [json, String.toList_ofList, stored_eq, Tree.compact, List.cons_append]
  have hobject : readObject (Tree.compactMembers (command.entries.map memberOf) ++ ['\x7d']) =
      .ok (command, []) := by
    rw [readObject, readAllFields_compactMembers hne command.nodup_entries]
    simp only [command.toCommand_entries]
  rw [read, htext, readCommand, skipSpace_cons rfl]
  simp only [hobject]
  rfl

/-! ## Decoding stored commands -/

theorem command?_stored (command : Command) : command? command.stored = some command := by
  obtain ⟨id, name, target, value, comment⟩ := command
  rw [stored_eq, entries]
  split
  case isTrue hcomment =>
    obtain ⟨rfl⟩ := String.isEmpty_iff.mp hcomment
    cases id <;> rfl
  case isFalse => cases id <;> rfl

theorem list?_stored (commands : List Command) :
    list? command? (.array (commands.map stored)) = some commands := by
  apply list?_eq_some_iff.mpr
  refine ⟨_, rfl, List.forall₂_map_left_iff.mpr (List.forall₂_same.mpr fun command _ => ?_)⟩
  exact command.command?_stored

end Command

end StepFlow
