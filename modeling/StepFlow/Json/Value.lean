import StepFlow.Json.NumberLiteral
import StepFlow.Json.StringLiteral

/-!
# JSON values

The grammar of nested values is read once, over any way of reading the strings and numbers in it.
With `strict` reading a value is built from texts and numerals, and nesting is limited.  With
`skim` reading the grammar is all that counts.
-/

namespace StepFlow.Json

/-- A nested value whose strings are given as `Text` and whose numbers are given as `Number`. -/
inductive Tree (Text Number : Type) where
  | null
  | boolean (value : Bool)
  | number (number : Number)
  | string (text : Text)
  | array (items : List (Tree Text Number))
  | object (members : List (Text × Tree Text Number))
  deriving Repr

/-- A value.  Members keep their order, and names may repeat. -/
abbrev Value := Tree String Numeral

/-- How strings and numbers are read, and how deep values may nest. -/
structure Reading (Text Number : Type) where
  /-- Reads a string after its opening quote. -/
  string : List Char → Except ReadError (Text × List Char)
  number : List Char → Except ReadError (Number × List Char)
  /-- How many containers may be open at once, if there is a limit. -/
  room : Option Nat

def strict : Reading String Numeral := ⟨readString, readNumeral, some 127⟩

def skim : Reading Unit Unit := ⟨skimString, skimNumeral, none⟩

/-- The four characters that may stand between tokens. -/
def isSpace (char : Char) : Bool :=
  char == ' ' || char == '\t' || char == '\n' || char == '\r'

def skipSpace (text : List Char) : List Char := text.dropWhile isSpace

/-- Reads the rest of a word. -/
def readWord : (word text : List Char) → Except ReadError (List Char)
  | [], text => .ok text
  | _ :: _, [] => .error .ended
  | expected :: word, char :: text =>
      if char = expected then readWord word text else .error .malformed

/-- The room left inside one more container. -/
def enter : Option Nat → Except ReadError (Option Nat)
  | none => .ok none
  | some 0 => .error .malformed
  | some (room + 1) => .ok (some room)

/-- What follows an item of a list or an object. -/
inductive Continuation where
  | more
  | done
  deriving DecidableEq, Repr

/-- Reads a comma or the closing bracket `close`. -/
def readContinuation (close : Char) (text : List Char) :
    Except ReadError (Continuation × List Char) :=
  match skipSpace text with
  | [] => .error .ended
  | char :: rest =>
      if char = ',' then .ok (.more, rest)
      else if char = close then .ok (.done, rest)
      else .error .malformed

/-- Reads the colon after a member's name. -/
def readColon (text : List Char) : Except ReadError (List Char) :=
  match skipSpace text with
  | [] => .error .ended
  | ':' :: rest => .ok rest
  | _ => .error .malformed

section Reading

variable {Text Number : Type} (reading : Reading Text Number)

/-- Reads the name of a member. -/
def readName (text : List Char) : Except ReadError (Text × List Char) :=
  match skipSpace text with
  | [] => .error .ended
  | '"' :: rest => reading.string rest
  | _ => .error .malformed

mutual

/-- Reads one value.  A step of `fuel` is spent on every call. -/
def readTree (fuel : Nat) (room : Option Nat) (text : List Char) :
    Except ReadError (Tree Text Number × List Char) :=
  match fuel with
  | 0 => .error .malformed
  | fuel + 1 =>
      match skipSpace text with
      | [] => .error .ended
      | char :: rest =>
          if char = 'n' then (readWord ['u', 'l', 'l'] rest).map (.null, ·)
          else if char = 't' then (readWord ['r', 'u', 'e'] rest).map (.boolean true, ·)
          else if char = 'f' then (readWord ['a', 'l', 's', 'e'] rest).map (.boolean false, ·)
          else if char = '"' then
            (reading.string rest).map fun (string, rest) => (.string string, rest)
          else if char = '-' ∨ char.isDigit then
            (reading.number (char :: rest)).map fun (number, rest) => (.number number, rest)
          else if char = '[' then
            match enter room with
            | .error error => .error error
            | .ok room =>
                match skipSpace rest with
                | ']' :: rest => .ok (.array [], rest)
                | _ => (readItems fuel room rest).map fun (items, rest) => (.array items, rest)
          else if char = '\x7b' then
            match enter room with
            | .error error => .error error
            | .ok room =>
                match skipSpace rest with
                | '\x7d' :: rest => .ok (.object [], rest)
                | _ =>
                    (readMembers fuel room rest).map fun (members, rest) => (.object members, rest)
          else .error .malformed

/-- Reads the items of a list, of which there is at least one, and the closing bracket. -/
def readItems (fuel : Nat) (room : Option Nat) (text : List Char) :
    Except ReadError (List (Tree Text Number) × List Char) :=
  match fuel with
  | 0 => .error .malformed
  | fuel + 1 =>
      match readTree fuel room text with
      | .error error => .error error
      | .ok (item, text) =>
          match readContinuation ']' text with
          | .error error => .error error
          | .ok (.done, rest) => .ok ([item], rest)
          | .ok (.more, rest) =>
              (readItems fuel room rest).map fun (items, rest) => (item :: items, rest)

/-- Reads the members of an object, of which there is at least one, and the closing brace. -/
def readMembers (fuel : Nat) (room : Option Nat) (text : List Char) :
    Except ReadError (List (Text × Tree Text Number) × List Char) :=
  match fuel with
  | 0 => .error .malformed
  | fuel + 1 =>
      match readName reading text with
      | .error error => .error error
      | .ok (name, text) =>
          match readColon text with
          | .error error => .error error
          | .ok text =>
              match readTree fuel room text with
              | .error error => .error error
              | .ok (value, text) =>
                  match readContinuation '\x7d' text with
                  | .error error => .error error
                  | .ok (.done, rest) => .ok ([(name, value)], rest)
                  | .ok (.more, rest) =>
                      (readMembers fuel room rest).map fun (members, rest) =>
                        ((name, value) :: members, rest)

end

/-- Fuel that suffices for any value in the text: every call after the first two follows a
character that was read. -/
def fuelFor (text : List Char) : Nat := 2 * text.length + 2

/-- Reads the value at the beginning of a text. -/
def Reading.read (text : List Char) : Except ReadError (Tree Text Number × List Char) :=
  readTree reading (fuelFor text) reading.room text

end Reading

/-- Only space may follow the value of a text. -/
def expectEnd (text : List Char) : Except ReadError Unit :=
  if (skipSpace text).isEmpty then .ok () else .error .malformed

end StepFlow.Json
