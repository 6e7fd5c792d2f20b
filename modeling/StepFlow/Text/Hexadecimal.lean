/-!
# Hexadecimal numbers

Code points are written by number in three of the formats of this library: in JSON, in TOML and in
inspection texts.
-/

namespace StepFlow.Text

/-- The lowercase hexadecimal digits of a number, without leading zeros. -/
def hexDigits (number : Nat) : List Char := Nat.toDigits 16 number

/-- The value of a hexadecimal digit. -/
def hexValue? (char : Char) : Option Nat :=
  if '0' ≤ char ∧ char ≤ '9' then some (char.toNat - '0'.toNat)
  else if 'a' ≤ char ∧ char ≤ 'f' then some (char.toNat - 'a'.toNat + 10)
  else if 'A' ≤ char ∧ char ≤ 'F' then some (char.toNat - 'A'.toNat + 10)
  else none

/-- The number that is written by `number` and then the given hexadecimal digits. -/
def hexNumberFrom? (number : Nat) : List Char → Option Nat
  | [] => some number
  | digit :: digits =>
      match hexValue? digit with
      | some value => hexNumberFrom? (16 * number + value) digits
      | none => none

/-- The number that the given hexadecimal digits write. -/
def hexNumber? (digits : List Char) : Option Nat := hexNumberFrom? 0 digits

end StepFlow.Text
