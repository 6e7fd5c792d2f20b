/-!
# Lines

A line ends with a line feed, and a carriage return directly before it belongs to the end of the
line.  The last line may lack its line feed; a carriage return at the end of it is kept.
-/

namespace StepFlow.Text

/-- A line without the one carriage return that may end it. -/
def dropReturn (line : List Char) : List Char :=
  match line.getLast? with
  | some '\r' => line.dropLast
  | _ => line

/-- The lines of a text whose first line continues `line`, which is held in reverse. -/
def linesFrom (line : List Char) : List Char → List (List Char)
  | [] => if line.isEmpty then [] else [line.reverse]
  | char :: rest =>
      if char = '\n' then dropReturn line.reverse :: linesFrom [] rest
      else linesFrom (char :: line) rest

/-- The lines of a text, without their ends. -/
def lines (text : List Char) : List (List Char) := linesFrom [] text

/-- Lines joined by line feeds, with none after the last. -/
def unlines (lines : List (List Char)) : List Char := ['\n'].intercalate lines

end StepFlow.Text
