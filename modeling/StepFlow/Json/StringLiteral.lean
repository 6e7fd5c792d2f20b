import StepFlow.Json.ReadError
import StepFlow.Text.Hexadecimal

/-!
# String literals

A string literal is scanned into pieces: characters, and numbers that stand for UTF-16 code units.
Scanning alone accepts any code units.  Reading also joins the surrogate pairs and refuses a
surrogate that stands alone.

Both work on what follows the opening quote and return what follows the closing one.
-/

namespace StepFlow.Json

/-- A part of a scanned string. -/
inductive Piece where
  | char (char : Char)
  | unit (code : Nat)
  deriving DecidableEq, Repr

/-- The character that a one-letter escape stands for. -/
def shortEscape? (letter : Char) : Option Char :=
  match letter with
  | '"' => some '"'
  | '\\' => some '\\'
  | '/' => some '/'
  | 'b' => some '\x08'
  | 'f' => some '\x0c'
  | 'n' => some '\n'
  | 'r' => some '\r'
  | 't' => some '\t'
  | _ => none

/-- The number of bytes in which characters are stored. -/
def storedSize (text : List Char) : Nat :=
  text.foldl (fun size char => size + char.utf8Size) 0

/-- The pieces up to the closing quote or to the first fault, and what comes of the rest.  The
four digits of a code unit are looked for in the next four bytes, so that too short a rest counts
as an early end. -/
def scanString : List Char → List Piece × Except ReadError (List Char)
  | [] => ([], .error .ended)
  | '"' :: rest => ([], .ok rest)
  | '\\' :: [] => ([], .error .ended)
  | '\\' :: 'u' :: rest =>
      match rest with
      | a :: b :: c :: d :: later =>
          match Text.hexNumber? [a, b, c, d] with
          | some code =>
              let scanned := scanString later
              (.unit code :: scanned.1, scanned.2)
          | none => ([], .error .malformed)
      | short => ([], .error (if storedSize short < 4 then .ended else .malformed))
  | '\\' :: letter :: rest =>
      match shortEscape? letter with
      | some char =>
          let scanned := scanString rest
          (.char char :: scanned.1, scanned.2)
      | none => ([], .error .malformed)
  | char :: rest =>
      if char.toNat < 0x20 then ([], .error .malformed)
      else
        let scanned := scanString rest
        (.char char :: scanned.1, scanned.2)

/-- How a surrogate can lack its partner. -/
inductive Lone where
  /-- The last piece is the first half of a pair. -/
  | pending
  | broken
  deriving DecidableEq, Repr

def isLead (code : Nat) : Bool := 0xd800 ≤ code && code < 0xdc00

def isTrail (code : Nat) : Bool := 0xdc00 ≤ code && code < 0xe000

/-- The character of a surrogate pair. -/
def joinPair (lead trail : Nat) : Char :=
  Char.ofNat (0x10000 + (lead - 0xd800) * 0x400 + (trail - 0xdc00))

/-- The text of scanned pieces. -/
def decode : List Piece → Except Lone (List Char)
  | [] => .ok []
  | .char char :: rest => (decode rest).map (char :: ·)
  | .unit code :: rest =>
      if isTrail code then .error .broken
      else if isLead code then
        match rest with
        | [] => .error .pending
        | .char _ :: _ => .error .broken
        | .unit trail :: later =>
            if isTrail trail then (decode later).map (joinPair code trail :: ·)
            else .error .broken
      else (decode rest).map (Char.ofNat code :: ·)

/-- Reads a string.  The first fault counts, be it one of the grammar or a lone surrogate. -/
def readString (text : List Char) : Except ReadError (String × List Char) :=
  let (pieces, scanned) := scanString text
  match decode pieces, scanned with
  | .error .broken, _ => .error .malformed
  | _, .error error => .error error
  | .error .pending, .ok _ => .error .malformed
  | .ok chars, .ok rest => .ok (String.ofList chars, rest)

/-- Scans a string without asking for its text. -/
def skimString (text : List Char) : Except ReadError (Unit × List Char) :=
  (scanString text).2.map ((), ·)

/-! ## Writing -/

/-- The two digits of a control character's number. -/
def controlDigits (code : Nat) : List Char := [Nat.digitChar (code / 16), Nat.digitChar (code % 16)]

/-- A character as it is written between quotes. -/
def escapeChar (char : Char) : List Char :=
  match char with
  | '"' => ['\\', '"']
  | '\\' => ['\\', '\\']
  | '\x08' => ['\\', 'b']
  | '\x0c' => ['\\', 'f']
  | '\n' => ['\\', 'n']
  | '\r' => ['\\', 'r']
  | '\t' => ['\\', 't']
  | _ =>
      if char.toNat < 0x20 then ['\\', 'u', '0', '0'] ++ controlDigits char.toNat
      else [char]

/-- The literal of a string, with both of its quotes. -/
def stringLiteral (text : String) : List Char :=
  '"' :: text.toList.flatMap escapeChar ++ ['"']

end StepFlow.Json
