import StepFlow.Command
import StepFlow.Json.ReadError

/-!
# Fields of a stored command

A command is stored under five field names.  While its fields are being read they may come in any
order, each of them at most once; the name is the only one that has to come.
-/

namespace StepFlow.Recording

/-- The fields that hold a text. -/
inductive TextField where
  | name
  | target
  | value
  | comment
  deriving DecidableEq, Repr

inductive Field where
  | id
  | text (field : TextField)
  deriving DecidableEq, Repr

namespace Field

/-- The field stored under a key.  The name of a command may be stored under either of two keys. -/
def ofKey? (key : String) : Option Field :=
  match key with
  | "id" => some id
  | "command" => some (text .name)
  | "name" => some (text .name)
  | "target" => some (text .target)
  | "value" => some (text .value)
  | "comment" => some (text .comment)
  | _ => none

/-- The key under which a field is written. -/
def key : Field → String
  | id => "id"
  | text .name => "command"
  | text .target => "target"
  | text .value => "value"
  | text .comment => "comment"

@[simp]
theorem ofKey?_key (field : Field) : ofKey? field.key = some field := by
  rcases field with _ | field
  · rfl
  · cases field <;> rfl

end Field

/-- The fields that have been read so far. -/
structure Fields where
  id : Option (Option String) := none
  name : Option String := none
  target : Option String := none
  value : Option String := none
  comment : Option String := none
  deriving DecidableEq, Repr

namespace Fields

def has (fields : Fields) : Field → Bool
  | .id => fields.id.isSome
  | .text .name => fields.name.isSome
  | .text .target => fields.target.isSome
  | .text .value => fields.value.isSome
  | .text .comment => fields.comment.isSome

def setId (fields : Fields) (id : Option String) : Fields := { fields with id := some id }

def setText (fields : Fields) (text : String) : TextField → Fields
  | .name => { fields with name := some text }
  | .target => { fields with target := some text }
  | .value => { fields with value := some text }
  | .comment => { fields with comment := some text }

/-- The command with these fields.  Fields that were not read are empty. -/
def toCommand (fields : Fields) : Except Json.Mismatch Command :=
  match fields.name with
  | none => .error (.missingField (Field.text .name).key)
  | some name =>
      .ok {
        id := fields.id.getD none
        name
        target := fields.target.getD ""
        value := fields.value.getD ""
        comment := fields.comment.getD "" }

end Fields

end StepFlow.Recording
