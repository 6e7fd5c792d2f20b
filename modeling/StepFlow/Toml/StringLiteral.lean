import StepFlow.Text.Hexadecimal

/-!
# TOML strings

The four forms of a string: between double quotes, with escapes, or between single quotes, without
them; and either form between triple quotes, where it may span lines.

The readers work on what follows the opening quotes.
-/

namespace StepFlow.Toml

/-- Control characters, of which only the tab may stand in a text. -/
def isControl (char : Char) : Bool :=
  (char.toNat < 0x20 && char != '\t') || char == '\x7f'

def isSpace (char : Char) : Bool := char == ' ' || char == '\t'

/-- What follows the line break at the beginning of a text, if there is one. -/
def afterBreak? : List Char → Option (List Char)
  | '\n' :: rest => some rest
  | '\r' :: '\n' :: rest => some rest
  | _ => none

/-- The character that a one-letter escape stands for. -/
def shortEscape? (letter : Char) : Option Char :=
  match letter with
  | 'b' => some '\x08'
  | 't' => some '\t'
  | 'n' => some '\n'
  | 'f' => some '\x0c'
  | 'r' => some '\r'
  | 'e' => some '\x1b'
  | '"' => some '"'
  | '\\' => some '\\'
  | _ => none

/-- The character whose number is written with the given digits. -/
def charOfHex? (digits : List Char) : Option Char :=
  match Text.hexNumber? digits with
  | some code => if code.isValidChar then some (Char.ofNat code) else none
  | none => none

/-- How many digits follow the letter of an escape by number. -/
def hexLength? (letter : Char) : Option Nat :=
  match letter with
  | 'x' => some 2
  | 'u' => some 4
  | 'U' => some 8
  | _ => none

/-- The character that an escape stands for, and how many characters follow its letter.  `rest` is
what follows the backslash and the letter. -/
def escaped? (letter : Char) (rest : List Char) : Option (Char × Nat) :=
  match hexLength? letter with
  | some count =>
      if rest.length < count then none
      else (charOfHex? (rest.take count)).map (·, count)
  | none => (shortEscape? letter).map (·, 0)

/-- Reads a string up to its closing double quote.  The first `skipped` characters have been read
as part of an escape. -/
def readBasic (skipped : Nat) : List Char → Option (List Char × List Char)
  | [] => none
  | char :: rest =>
      match skipped, char, rest with
      | skipped + 1, _, _ => readBasic skipped rest
      | 0, '"', _ => some ([], rest)
      | 0, '\\', [] => none
      | 0, '\\', letter :: later =>
          match escaped? letter later with
          | some (char, count) =>
              (readBasic (count + 1) rest).map fun (text, rest) => (char :: text, rest)
          | none => none
      | 0, _, _ =>
          if isControl char then none
          else (readBasic 0 rest).map fun (text, rest) => (char :: text, rest)

/-- Reads a string up to its closing single quote. -/
def readLiteral : List Char → Option (List Char × List Char)
  | [] => none
  | char :: rest =>
      if char = '\'' then some ([], rest)
      else if isControl char then none
      else (readLiteral rest).map fun (text, rest) => (char :: text, rest)

/-- Splits a closing triple quote off: up to two more quotes before it belong to the string. -/
def splitClose? (quote : Char) (text : List Char) : Option (List Char × List Char) :=
  let quotes := text.takeWhile (· == quote)
  if quotes.length < 3 then none
  else
    let inside := min (quotes.length - 3) 2
    some (List.replicate inside quote, text.drop (inside + 3))

/-- Whether a line ends after the spaces at the beginning of a text. -/
def endsLine (text : List Char) : Bool := (afterBreak? (text.dropWhile isSpace)).isSome

/-- Reads a string up to its closing triple double quote.  A backslash at the end of a line joins
it to the next character that is no space and no line break; `joining` tells that this is going
on. -/
def readLongBasic (joining : Bool) (skipped : Nat) : List Char → Option (List Char × List Char)
  | [] => none
  | char :: rest =>
      match skipped with
      | skipped + 1 => readLongBasic joining skipped rest
      | 0 =>
          if joining && (isSpace char || (afterBreak? (char :: rest)).isSome) then
            readLongBasic true (if char = '\r' then 1 else 0) rest
          else if char = '\\' then
            match rest with
            | [] => none
            | letter :: later =>
                match escaped? letter later with
                | some (char, count) =>
                    (readLongBasic false (count + 1) rest).map fun (text, rest) =>
                      (char :: text, rest)
                | none => if endsLine rest then readLongBasic true 0 rest else none
          else
            match splitClose? '"' (char :: rest) with
            | some closed => some closed
            | none =>
                if isControl char && (afterBreak? (char :: rest)).isNone then none
                else if char = '\r' then
                  (readLongBasic false 1 rest).map fun (text, rest) => ('\r' :: '\n' :: text, rest)
                else (readLongBasic false 0 rest).map fun (text, rest) => (char :: text, rest)

/-- Reads a string up to its closing triple single quote. -/
def readLongLiteral : List Char → Option (List Char × List Char)
  | [] => none
  | char :: rest =>
      match splitClose? '\'' (char :: rest) with
      | some closed => some closed
      | none =>
          if isControl char && (afterBreak? (char :: rest)).isNone then none
          else (readLongLiteral rest).map fun (text, rest) => (char :: text, rest)

/-- Reads a string of one line with its quotes. -/
def readShortString? : List Char → Option (String × List Char)
  | '"' :: rest => (readBasic 0 rest).map fun (text, rest) => (String.ofList text, rest)
  | '\'' :: rest => (readLiteral rest).map fun (text, rest) => (String.ofList text, rest)
  | _ => none

/-- Reads a string of any form with its quotes.  A line break directly after an opening triple
quote does not count. -/
def readString? : List Char → Option (String × List Char)
  | '"' :: '"' :: '"' :: rest =>
      (readLongBasic false 0 ((afterBreak? rest).getD rest)).map fun (text, rest) =>
        (String.ofList text, rest)
  | '\'' :: '\'' :: '\'' :: rest =>
      (readLongLiteral ((afterBreak? rest).getD rest)).map fun (text, rest) =>
        (String.ofList text, rest)
  | text => readShortString? text

end StepFlow.Toml
