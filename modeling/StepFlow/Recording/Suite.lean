import StepFlow.Recording.CommandText

/-!
# Recorded suites

A file holds either a suite, whose `tests` are named lists of commands, or a bare list of commands,
which makes one test.  The whole text is read as a value first and then decoded.  As with commands,
a list may stand for an object when it holds the fields in order, and members under other names are
passed over.  Main definition: `Suite.read`.
-/

namespace StepFlow

open Json

/-- One recorded test. -/
structure RecordedTest where
  id : Option String := none
  name : String
  commands : List Command := []
  deriving DecidableEq, Repr

namespace Recording

/-- The value of the one member with one of the given names, or nothing if there is no such member.
Fails if there are several. -/
def member? (names : List String) (members : List (String × Value)) : Option (Option Value) :=
  match members.filter fun (name, _) => names.contains name with
  | [] => some none
  | [(_, value)] => some (some value)
  | _ => none

def text? : Value → Option String
  | .string text => some text
  | _ => none

def optionalText? : Value → Option (Option String)
  | .null => some none
  | .string text => some (some text)
  | _ => none

/-- Decodes a value that may be absent. -/
def decodeOr {α : Type} (default : α) (decode : Value → Option α) : Option Value → Option α
  | none => some default
  | some value => decode value

/-- A list of values, each of which is decoded. -/
def list? {α : Type} (decode : Value → Option α) : Value → Option (List α)
  | .array items => items.mapM decode
  | _ => none

/-- The command with the given fields. -/
def commandOf? (id name target value comment : Option Value) : Option Command := do
  let name ← name
  return {
    id := ← decodeOr none optionalText? id
    name := ← text? name
    target := ← decodeOr "" text? target
    value := ← decodeOr "" text? value
    comment := ← decodeOr "" text? comment }

def command? : Value → Option Command
  | .object members => do
      commandOf? (← member? ["id"] members) (← member? ["command", "name"] members)
        (← member? ["target"] members) (← member? ["value"] members)
        (← member? ["comment"] members)
  | .array [id, name] => commandOf? id name none none none
  | .array [id, name, target] => commandOf? id name target none none
  | .array [id, name, target, value] => commandOf? id name target value none
  | .array [id, name, target, value, comment] => commandOf? id name target value comment
  | _ => none

/-- The test with the given fields. -/
def testOf? (id name commands : Option Value) : Option RecordedTest := do
  let name ← name
  return {
    id := ← decodeOr none optionalText? id
    name := ← text? name
    commands := ← decodeOr [] (list? command?) commands }

def test? : Value → Option RecordedTest
  | .object members => do
      testOf? (← member? ["id"] members) (← member? ["name"] members)
        (← member? ["commands"] members)
  | .array [id, name] => testOf? id name none
  | .array [id, name, commands] => testOf? id name commands
  | _ => none

/-- The tests of a suite. -/
def suite? : Value → Option (List RecordedTest)
  | .object members => do
      let tests ← member? ["tests"] members
      list? test? (← tests)
  | .array [tests] => list? test? tests
  | _ => none

/-- The one test that a bare list of commands makes. -/
def bareTest? (fallbackName : String) (value : Value) : Option (List RecordedTest) :=
  (list? command? value).map fun commands => [{ name := fallbackName, commands }]

end Recording

namespace Suite

/-- The tests in a value: those of a suite, or a single test with the fallback name. -/
def ofValue? (fallbackName : String) (value : Value) : Option (List RecordedTest) :=
  (Recording.suite? value).or (Recording.bareTest? fallbackName value)

/-- Reads the tests in a text. -/
def read (text fallbackName : String) : Except ReadError (List RecordedTest) :=
  match strict.read text.toList with
  | .error error => .error error
  | .ok (value, rest) =>
      match ofValue? fallbackName value with
      | none => .error (.mismatch (.noVariant "SuiteFile"))
      | some tests => (expectEnd rest).map fun _ => tests

end Suite

end StepFlow
