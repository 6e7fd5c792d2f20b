import StepFlow.Toml.StringLiteral
import StepFlow.Toml.Table

/-!
# TOML documents

A document is read line by line: blank lines, comments, headers and assignments.  Between brackets
and between braces, comments and line breaks may stand wherever spaces may, except around the dots
of a key.  Headers of lists of tables and values other than strings, lists and tables are refused,
since no setting has them.
Main definition: `Document.read?`.
-/

namespace StepFlow.Toml

/-- A character of an unquoted key. -/
def isKeyChar (char : Char) : Bool := char.isAlphanum || char == '_' || char == '-'

def skipSpace (text : List Char) : List Char := text.dropWhile isSpace

/-- The rest of a text after a comment, if there is one; the comment ends where its line does. -/
def skipComment? : List Char → Option (List Char)
  | '#' :: rest =>
      let later := rest.dropWhile fun char => !isControl char
      if later.isEmpty || (afterBreak? later).isSome then some later else none
  | text => some text

/-- Reads the spaces, the comment and the line break that may end a line; `none` if something else
is left on it. -/
def endLine? (text : List Char) : Option (List Char) :=
  match skipComment? (skipSpace text) with
  | none => none
  | some [] => some []
  | some rest => afterBreak? rest

/-- Skips spaces, comments and line breaks.  A step of `fuel` is spent on every line. -/
def skipLinesFrom (fuel : Nat) (text : List Char) : List Char :=
  match fuel with
  | 0 => text
  | fuel + 1 =>
      match endLine? text with
      | none => skipSpace text
      | some [] => []
      | some rest => skipLinesFrom fuel rest

/-- Skips spaces, comments and line breaks. -/
def skipLines (text : List Char) : List Char := skipLinesFrom text.length text

/-- Reads one key. -/
def readSimpleKey? (text : List Char) : Option (String × List Char) :=
  match readShortString? text with
  | some key => some key
  | none =>
      let word := text.takeWhile isKeyChar
      if word.isEmpty then none else some (String.ofList word, text.dropWhile isKeyChar)

/-- Reads a key of one or more parts with dots between them.  A step of `fuel` is spent on every
part. -/
def readKey? (fuel : Nat) (text : List Char) : Option (List String × List Char) :=
  match fuel with
  | 0 => none
  | fuel + 1 =>
      match readSimpleKey? (skipSpace text) with
      | none => none
      | some (key, rest) =>
          match skipSpace rest with
          | '.' :: rest => (readKey? fuel rest).map fun (keys, rest) => (key :: keys, rest)
          | rest => some ([key], rest)

/-- Reads a key and the equals sign after it.  `skip` leaves out what may stand before and after
the equals sign. -/
def readAssigned? (skip : List Char → List Char) (text : List Char) :
    Option (List String × List Char) :=
  match readKey? (text.length + 1) text with
  | none => none
  | some (path, rest) =>
      match skip rest with
      | '=' :: rest => some (path, skip rest)
      | _ => none

mutual

/-- Reads a value.  A step of `fuel` is spent on every call. -/
def readNode? (fuel : Nat) (text : List Char) : Option (Node × List Char) :=
  match fuel with
  | 0 => none
  | fuel + 1 =>
      match text with
      | '[' :: rest => (readItems? fuel rest).map fun (items, rest) => (.array items, rest)
      | '\x7b' :: rest =>
          (readEntries? fuel [] rest).map fun (entries, rest) => (.table .inline entries, rest)
      | text => (readString? text).map fun (string, rest) => (.string string, rest)

/-- Reads the items of a list up to its closing bracket. -/
def readItems? (fuel : Nat) (text : List Char) : Option (List Node × List Char) :=
  match fuel with
  | 0 => none
  | fuel + 1 =>
      match skipLines text with
      | ']' :: rest => some ([], rest)
      | text =>
          match readNode? fuel text with
          | none => none
          | some (item, rest) =>
              match skipLines rest with
              | ',' :: rest => (readItems? fuel rest).map fun (items, rest) => (item :: items, rest)
              | ']' :: rest => some ([item], rest)
              | _ => none

/-- Reads the entries of a table between braces, after those in `entries`. -/
def readEntries? (fuel : Nat) (entries : Entries) (text : List Char) :
    Option (Entries × List Char) :=
  match fuel with
  | 0 => none
  | fuel + 1 =>
      match skipLines text with
      | '\x7d' :: rest => some (entries, rest)
      | text =>
          match readAssigned? skipLines text with
          | none => none
          | some (path, rest) =>
              match readNode? fuel rest with
              | none => none
              | some (value, rest) =>
                  match entries.assign? value path with
                  | none => none
                  | some entries =>
                      match skipLines rest with
                      | ',' :: rest => readEntries? fuel entries rest
                      | '\x7d' :: rest => some (entries, rest)
                      | _ => none

end

/-- A document that is being read: its table, and the header under which it goes on. -/
structure Document where
  entries : Entries := []
  header : List String := []

namespace Document

/-- Reads the header after its opening bracket. -/
def readHeader? (document : Document) (text : List Char) : Option (Document × List Char) :=
  match readKey? (text.length + 1) text with
  | some (path, ']' :: rest) =>
      (document.entries.declare? path).map fun entries => (⟨entries, path⟩, rest)
  | _ => none

def readAssignment? (document : Document) (text : List Char) : Option (Document × List Char) :=
  match readAssigned? skipSpace text with
  | none => none
  | some (path, rest) =>
      match readNode? (2 * rest.length + 1) rest with
      | none => none
      | some (value, rest) =>
          (document.entries.assignUnder? path value document.header).map fun entries =>
            ({ document with entries }, rest)

/-- Reads the rest of a document.  A step of `fuel` is spent on every line that is not blank. -/
def readFrom? (fuel : Nat) (document : Document) (text : List Char) : Option Entries :=
  match fuel with
  | 0 => none
  | fuel + 1 =>
      let line :=
        match skipLines text with
        | [] => none
        | '[' :: rest => some (document.readHeader? rest)
        | text => some (document.readAssignment? text)
      match line with
      | none => some document.entries
      | some none => none
      | some (some (document, rest)) => (endLine? rest).bind (readFrom? fuel document)

/-- The table that a text describes.  A byte order mark before it does not count. -/
def read? (text : String) : Option Entries :=
  let text :=
    match text.toList with
    | '\ufeff' :: rest => rest
    | text => text
  readFrom? (text.length + 1) {} text

end Document

end StepFlow.Toml
