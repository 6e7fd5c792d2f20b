import StepFlow.Json.Printer
import StepFlow.Recording.Field

/-!
# Commands as JSON

A command is written as an object that leaves out an absent identifier and an empty comment.  It is
read from an object, or from a list that holds the fields in order.

Reading takes the text from left to right and reports whatever is wrong first, be it the grammar or
the shape.  Members under other names are passed over; only their grammar is checked.
Main definitions: `Command.json` and `Command.read`.
-/

namespace StepFlow

open Json

namespace Recording

/-- What a value is found to be whose first character is `char` and is followed by `rest`. -/
def findValue (char : Char) (rest : List Char) : Except ReadError Found :=
  if char = 'n' then (readWord ['u', 'l', 'l'] rest).map fun _ => .null
  else if char = 't' then (readWord ['r', 'u', 'e'] rest).map fun _ => .boolean true
  else if char = 'f' then (readWord ['a', 'l', 's', 'e'] rest).map fun _ => .boolean false
  else if char = '-' ∨ char.isDigit then
    (readNumeral (char :: rest)).map fun (numeral, _) => numeral.found
  else if char = '"' then (readString rest).map fun (text, _) => .string text
  else if char = '[' then .ok .sequence
  else if char = '\x7b' then .ok .map
  else .error .malformed

/-- The error about a value that is not what was expected. -/
def unexpected (expected : String) (char : Char) (rest : List Char) : ReadError :=
  match findValue char rest with
  | .error error => error
  | .ok found => .mismatch (.wrongType found expected)

/-- Reads a string. -/
def readText (text : List Char) : Except ReadError (String × List Char) :=
  match skipSpace text with
  | [] => .error .ended
  | '"' :: rest => readString rest
  | char :: rest => .error (unexpected "a string" char rest)

/-- Reads a string or `null`. -/
def readOptionalText (text : List Char) : Except ReadError (Option String × List Char) :=
  match skipSpace text with
  | 'n' :: rest => (readWord ['u', 'l', 'l'] rest).map (none, ·)
  | _ => (readText text).map fun (string, rest) => (some string, rest)

/-! ## Objects -/

/-- Reads the value of a member and takes it in if its name is that of a field. -/
def readMember (fields : Fields) (field? : Option Field) (text : List Char) :
    Except ReadError (Fields × List Char) :=
  match field? with
  | none => (readColon text).bind fun text => (skim.read text).map fun (_, rest) => (fields, rest)
  | some field =>
      if fields.has field then .error (.mismatch (.duplicateField field.key))
      else (readColon text).bind fun text =>
        match field with
        | .id => (readOptionalText text).map fun (id, rest) => (fields.setId id, rest)
        | .text field => (readText text).map fun (string, rest) =>
            (fields.setText string field, rest)

/-- Reads the members of an object, of which there is at least one, and the closing brace.  A step
of `fuel` is spent on every member. -/
def readFields (fuel : Nat) (fields : Fields) (text : List Char) :
    Except ReadError (Fields × List Char) :=
  match fuel with
  | 0 => .error .malformed
  | fuel + 1 =>
      match readName strict text with
      | .error error => .error error
      | .ok (name, text) =>
          match readMember fields (Field.ofKey? name) text with
          | .error error => .error error
          | .ok (fields, text) =>
              match readContinuation '\x7d' text with
              | .error error => .error error
              | .ok (.done, rest) => .ok (fields, rest)
              | .ok (.more, rest) => readFields fuel fields rest

/-- Reads the fields of an object after its opening brace. -/
def readAllFields (text : List Char) : Except ReadError (Fields × List Char) :=
  match skipSpace text with
  | '\x7d' :: rest => .ok ({}, rest)
  | _ => readFields (text.length + 1) {} text

/-- Reads a command after its opening brace. -/
def readObject (text : List Char) : Except ReadError (Command × List Char) :=
  match readAllFields text with
  | .error error => .error error
  | .ok (fields, rest) =>
      match fields.toCommand with
      | .error mismatch => .error (.mismatch mismatch)
      | .ok command => .ok (command, rest)

/-! ## Lists -/

/-- Reads the next item of a list with `read`, unless the list is at its end. -/
def readItem? {α : Type} (first : Bool) (read : List Char → Except ReadError (α × List Char))
    (text : List Char) : Except ReadError (Option α × List Char) :=
  match skipSpace text with
  | [] => .error .ended
  | char :: rest =>
      if char = ']' then .ok (none, char :: rest)
      else if first then (read (char :: rest)).map fun (item, rest) => (some item, rest)
      else if char = ',' then
        match skipSpace rest with
        | [] => .error .ended
        | ']' :: _ => .error .malformed
        | rest => (read rest).map fun (item, rest) => (some item, rest)
      else .error .malformed

/-- Reads the closing bracket of a list that may not go on. -/
def readClose (text : List Char) : Except ReadError (List Char) :=
  match skipSpace text with
  | [] => .error .ended
  | ']' :: rest => .ok rest
  | _ => .error .malformed

/-- Reads a command after its opening bracket. -/
def readList (text : List Char) : Except ReadError (Command × List Char) := do
  let (id, text) ← readItem? true readOptionalText text
  let (name, text) ← readItem? false readText text
  match name with
  | none => .error (.mismatch (.wrongLength 1 "struct Command with 5 elements"))
  | some name =>
      let (target, text) ← readItem? false readText text
      let (value, text) ← readItem? false readText text
      let (comment, text) ← readItem? false readText text
      let rest ← readClose text
      return ({
        id := id.getD none
        name
        target := target.getD ""
        value := value.getD ""
        comment := comment.getD "" }, rest)

/-- Reads a command at the beginning of a text. -/
def readCommand (text : List Char) : Except ReadError (Command × List Char) :=
  match skipSpace text with
  | [] => .error .ended
  | '\x7b' :: rest => readObject rest
  | '[' :: rest => readList rest
  | char :: rest => .error (unexpected "struct Command" char rest)

end Recording

namespace Command

/-- Reads a text that holds one command. -/
def read (text : String) : Except ReadError Command :=
  match Recording.readCommand text.toList with
  | .error error => .error error
  | .ok (command, rest) => (expectEnd rest).map fun _ => command

/-- The stored form of a command. -/
def stored (command : Command) : Value :=
  let member (field : Recording.Field) (text : String) := (field.key, Tree.string text)
  .object
    (command.id.toList.map (member .id) ++
      [member (.text .name) command.name,
        member (.text .target) command.target,
        member (.text .value) command.value] ++
      if command.comment.isEmpty then [] else [member (.text .comment) command.comment])

/-- The stored text of a command. -/
def json (command : Command) : String := String.ofList command.stored.compact

end Command

end StepFlow
