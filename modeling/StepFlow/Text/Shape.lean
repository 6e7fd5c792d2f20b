/-!
# Shapes of inspected values

An inspection text shows a value either on one line or expanded: one item per line, four columns
deeper than what holds it, each followed by a comma.
-/

namespace StepFlow.Text

/-- A value as inspection sees it. -/
inductive Shape where
  | atom (text : String)
  /-- Items between square brackets. -/
  | list (items : List Shape)
  /-- Items between parentheses, after a name that may be empty. -/
  | tuple (name : String) (items : List Shape)
  /-- Named fields between braces, after a name. -/
  | record (name : String) (fields : List (String × Shape))

namespace Shape

def nat (number : Nat) : Shape := atom (toString number)

def option : Option Shape → Shape
  | none => atom "None"
  | some shape => tuple "Some" [shape]

mutual

/-- The text of a shape on one line. -/
def compact : Shape → String
  | atom text => text
  | list items => "[" ++ compactItems items ++ "]"
  | tuple name items => name ++ "(" ++ compactItems items ++ ")"
  | record name fields => name ++ " \x7b " ++ compactFields fields ++ " \x7d"

def compactItems : List Shape → String
  | [] => ""
  | [item] => compact item
  | item :: items => compact item ++ ", " ++ compactItems items

def compactFields : List (String × Shape) → String
  | [] => ""
  | [(label, item)] => label ++ ": " ++ compact item
  | (label, item) :: fields => label ++ ": " ++ compact item ++ ", " ++ compactFields fields

end

/-- A line break and the indentation of a nesting depth. -/
def lineBreak (depth : Nat) : String := "\n" ++ String.ofList (List.replicate (4 * depth) ' ')

mutual

/-- The expanded text of a shape whose first line stands at nesting depth `depth`. -/
def expanded (depth : Nat) : Shape → String
  | atom text => text
  | list [] => "[]"
  | list items => "[" ++ expandedItems (depth + 1) items ++ lineBreak depth ++ "]"
  | tuple name items => name ++ "(" ++ expandedItems (depth + 1) items ++ lineBreak depth ++ ")"
  | record name fields =>
      name ++ " \x7b" ++ expandedFields (depth + 1) fields ++ lineBreak depth ++ "\x7d"

def expandedItems (depth : Nat) : List Shape → String
  | [] => ""
  | item :: items =>
      lineBreak depth ++ expanded depth item ++ "," ++ expandedItems depth items

def expandedFields (depth : Nat) : List (String × Shape) → String
  | [] => ""
  | (label, item) :: fields =>
      lineBreak depth ++ label ++ ": " ++ expanded depth item ++ "," ++
        expandedFields depth fields

end

end Shape

end StepFlow.Text
