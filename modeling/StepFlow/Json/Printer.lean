import StepFlow.Json.Value

/-!
# Writing JSON

A value is written either without any space, or with one item per line, indented by two columns for
every container around it.
-/

namespace StepFlow.Json

namespace Tree

mutual

/-- The text of a value without any space. -/
def compact : Value → List Char
  | null => ['n', 'u', 'l', 'l']
  | boolean true => ['t', 'r', 'u', 'e']
  | boolean false => ['f', 'a', 'l', 's', 'e']
  | number numeral => numeral.text
  | string text => stringLiteral text
  | array items => '[' :: compactItems items ++ [']']
  | object members => '\x7b' :: compactMembers members ++ ['\x7d']

def compactItems : List Value → List Char
  | [] => []
  | [item] => compact item
  | item :: items => compact item ++ ',' :: compactItems items

def compactMembers : List (String × Value) → List Char
  | [] => []
  | [(name, value)] => stringLiteral name ++ ':' :: compact value
  | (name, value) :: members =>
      stringLiteral name ++ ':' :: compact value ++ ',' :: compactMembers members

end

/-- A line break and the indentation inside `depth` containers. -/
def lineBreak (depth : Nat) : List Char := '\n' :: List.replicate (2 * depth) ' '

mutual

/-- The indented text of a value inside `depth` containers. -/
def pretty (depth : Nat) : Value → List Char
  | null => ['n', 'u', 'l', 'l']
  | boolean true => ['t', 'r', 'u', 'e']
  | boolean false => ['f', 'a', 'l', 's', 'e']
  | number numeral => numeral.text
  | string text => stringLiteral text
  | array [] => ['[', ']']
  | array items => '[' :: prettyItems (depth + 1) items ++ lineBreak depth ++ [']']
  | object [] => ['\x7b', '\x7d']
  | object members => '\x7b' :: prettyMembers (depth + 1) members ++ lineBreak depth ++ ['\x7d']

def prettyItems (depth : Nat) : List Value → List Char
  | [] => []
  | [item] => lineBreak depth ++ pretty depth item
  | item :: items => lineBreak depth ++ pretty depth item ++ ',' :: prettyItems depth items

def prettyMembers (depth : Nat) : List (String × Value) → List Char
  | [] => []
  | [(name, value)] =>
      lineBreak depth ++ stringLiteral name ++ ':' :: ' ' :: pretty depth value
  | (name, value) :: members =>
      lineBreak depth ++ stringLiteral name ++ ':' :: ' ' :: pretty depth value ++
        ',' :: prettyMembers depth members

end

/-- The number `number` as a value. -/
def nat (number : Nat) : Value := .number (Numeral.ofNat number)

end Tree

end StepFlow.Json
