import StepFlow.Json.Printer
import StepFlow.Proofs.JsonTexts

/-!
# Written values

The compact text of a value is one of its texts, and so reading the text gives the value again.
Numbers need a word of their own: a numeral that was not read from a text may have no digits, or a
value that no double can hold.
Main statement: `spells_compact`.
-/

namespace StepFlow.Json

theorem hexNumber?_controlDigits :
    ∀ code < 0x20, Text.hexNumber? ('0' :: '0' :: controlDigits code) = some code := by decide

theorem spellsChar_escapeChar (char : Char) : SpellsChar char (escapeChar char) := by
  unfold escapeChar
  split
  case h_8 hquote hbackslash _ _ _ _ _ =>
    split
    case isTrue hcontrol => exact .unit (hexNumber?_controlDigits char.toNat hcontrol)
    case isFalse hplain => exact .plain (Nat.le_of_not_lt hplain) hquote hbackslash
  all_goals exact .short rfl

theorem spellsChars_escapeChar (chars : List Char) :
    SpellsChars chars (chars.flatMap escapeChar) := by
  induction chars with
  | nil => exact .nil
  | cons char chars ih => exact .cons (spellsChar_escapeChar char) ih

theorem spells_stringLiteral (text : String) :
    Spells plainSpelling (.string text) (stringLiteral text) :=
  .string (spellsChars_escapeChar text.toList)

namespace Tree

section Numbers

variable {Text Number : Type}

mutual

/-- The numbers in a value. -/
def numbers : Tree Text Number → List Number
  | null | boolean _ | string _ => []
  | number literal => [literal]
  | array items => itemsNumbers items
  | object members => membersNumbers members

def itemsNumbers : List (Tree Text Number) → List Number
  | [] => []
  | item :: items => numbers item ++ itemsNumbers items

def membersNumbers : List (Text × Tree Text Number) → List Number
  | [] => []
  | (_, value) :: members => numbers value ++ membersNumbers members

end

end Numbers

end Tree

/-- Every number is read from the text it is written as. -/
def Plain (numbers : List Numeral) : Prop :=
  ∀ numeral ∈ numbers, plainSpelling.number numeral numeral.text

theorem plain_nil : Plain [] := fun _ hnumeral => absurd hnumeral List.not_mem_nil

mutual

/-- A value is written as one of its texts. -/
theorem spells_compact :
    ∀ value : Value, Plain value.numbers → Spells plainSpelling value value.compact
  | .null, _ => .null
  | .boolean true, _ => .yes
  | .boolean false, _ => .no
  | .number numeral, hplain => .number (hplain numeral List.mem_cons_self)
  | .string text, _ => spells_stringLiteral text
  | .array [], _ => .emptyArray isGap_nil
  | .array (item :: items), hplain => .array (spellsItems_compact (item :: items) (by simp) hplain)
  | .object [], _ => .emptyObject isGap_nil
  | .object (member :: members), hplain =>
      .object (spellsMembers_compact (member :: members) (by simp) hplain)

theorem spellsItems_compact :
    ∀ items : List Value, items ≠ [] → Plain (Tree.itemsNumbers items) →
      SpellsItems plainSpelling items (Tree.compactItems items)
  | [], hne, _ => absurd rfl hne
  | [item], _, hplain => .last (spells_compact item (List.forall_mem_append.mp hplain).1)
  | item :: next :: items, _, hplain =>
      .cons (spells_compact item (List.forall_mem_append.mp hplain).1)
        (spellsItems_compact (next :: items) (by simp) (List.forall_mem_append.mp hplain).2)

theorem spellsMembers_compact :
    ∀ members : List (String × Value), members ≠ [] → Plain (Tree.membersNumbers members) →
      SpellsMembers plainSpelling members (Tree.compactMembers members)
  | [], hne, _ => absurd rfl hne
  | [(name, value)], _, hplain =>
      .last (spells_stringLiteral name) (spells_compact value (List.forall_mem_append.mp hplain).1)
  | (name, value) :: next :: members, _, hplain =>
      .cons (spells_stringLiteral name) (spells_compact value (List.forall_mem_append.mp hplain).1)
        (spellsMembers_compact (next :: members) (by simp) (List.forall_mem_append.mp hplain).2)

end

end StepFlow.Json
