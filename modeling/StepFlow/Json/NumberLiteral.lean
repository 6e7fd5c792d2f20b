import StepFlow.Json.Double
import StepFlow.Json.ReadError

/-!
# Number literals

A number literal is scanned into its digits.  Reading also asks for its value as a double-precision
number, which is computed from as many digits as fit into 64 bits and a decimal exponent for the
rest, and refuses a number whose value is too large.
-/

namespace StepFlow.Json

/-- A number as it is written. -/
structure Numeral where
  negative : Bool := false
  /-- The digits before the point. -/
  whole : List Char
  /-- The digits after the point, if there is one. -/
  fraction : Option (List Char) := none
  /-- Whether the exponent is negative, and its digits. -/
  exponent : Option (Bool × List Char) := none
  deriving DecidableEq, Repr

/-- The leading decimal digits and what follows them. -/
def splitDigits (text : List Char) : List Char × List Char :=
  (text.takeWhile Char.isDigit, text.dropWhile Char.isDigit)

/-- The digits before the point, of which there is at least one and no superfluous zero.
Otherwise, the place of the fault. -/
def scanWhole : List Char → Except (List Char) (List Char × List Char)
  | '0' :: rest =>
      match splitDigits rest with
      | ([], _) => .ok (['0'], rest)
      | _ => .error rest
  | text =>
      match splitDigits text with
      | ([], _) => .error text
      | split => .ok split

/-- The digits after a point, or the place where the first one is missing. -/
def scanFraction : List Char → Except (List Char) (Option (List Char) × List Char)
  | '.' :: text =>
      match splitDigits text with
      | ([], _) => .error text
      | (digits, rest) => .ok (some digits, rest)
  | text => .ok (none, text)

/-- The sign of an exponent. -/
def scanSign : List Char → Bool × List Char
  | '+' :: rest => (false, rest)
  | '-' :: rest => (true, rest)
  | text => (false, text)

/-- The exponent, or the place where its first digit is missing. -/
def scanExponent (text : List Char) : Except (List Char) (Option (Bool × List Char) × List Char) :=
  match text with
  | [] => .ok (none, [])
  | mark :: signed =>
      if mark = 'e' ∨ mark = 'E' then
        let (negative, unsigned) := scanSign signed
        match splitDigits unsigned with
        | ([], _) => .error unsigned
        | (digits, rest) => .ok (some (negative, digits), rest)
      else .ok (none, text)

/-- The sign of a number. -/
def scanMinus : List Char → Bool × List Char
  | '-' :: rest => (true, rest)
  | text => (false, text)

/-- Scans a number, or finds the place of its first fault. -/
def scanNumeral (text : List Char) : Except (List Char) (Numeral × List Char) := do
  let (negative, text) := scanMinus text
  let (whole, text) ← scanWhole text
  let (fraction, text) ← scanFraction text
  let (exponent, text) ← scanExponent text
  return ({ negative, whole, fraction, exponent }, text)

/-! ## The value of a numeral -/

def digitValue (digit : Char) : Nat := digit.toNat - '0'.toNat

/-- The number that decimal digits denote. -/
def natOfDigits (digits : List Char) : Nat :=
  digits.foldl (fun number digit => 10 * number + digitValue digit) 0

/-- A number `significand · 10 ^ exponent`. -/
structure Scaled where
  significand : Nat
  exponent : Int
  deriving DecidableEq, Repr

namespace Scaled

/-- The largest significand, which is the largest number of 64 bits. -/
def limit : Nat := 0xffffffffffffffff

/-- Collects the digits before the point.  From the first that does not fit on, they only raise
the exponent. -/
def addWhole (scaled : Scaled) : List Char → Scaled
  | [] => scaled
  | digit :: digits =>
      let grown := 10 * scaled.significand + digitValue digit
      if grown ≤ limit then addWhole { scaled with significand := grown } digits
      else { scaled with exponent := scaled.exponent + (digits.length + 1) }

/-- Collects the digits after the point, up to the first that does not fit. -/
def addFraction (scaled : Scaled) : List Char → Scaled
  | [] => scaled
  | digit :: digits =>
      let grown := 10 * scaled.significand + digitValue digit
      if grown ≤ limit then addFraction ⟨grown, scaled.exponent - 1⟩ digits
      else scaled

/-- Exponents are kept in 32 bits. -/
def clampExponent (exponent : Int) : Int :=
  if exponent < -0x80000000 then -0x80000000
  else if 0x7fffffff < exponent then 0x7fffffff
  else exponent

end Scaled

/-- The value of `scaled`, unless it overflows.  The significand and the power of ten are rounded
before they are combined, and the power is applied in two steps if it is below `10 ^ -308`. -/
def Scaled.value? (scaled : Scaled) : Option Double :=
  let significand := Double.ofRatio (.ofNat scaled.significand)
  if scaled.significand = 0 then some significand
  else if 308 < scaled.exponent then none
  else if 0 ≤ scaled.exponent then
    let value := significand.mul (.powerOfTen scaled.exponent.natAbs)
    if value.isInfinite then none else some value
  else if -308 ≤ scaled.exponent then
    some (significand.div (.powerOfTen scaled.exponent.natAbs))
  else if -616 ≤ scaled.exponent then
    some ((significand.div (.powerOfTen 308)).div (.powerOfTen (scaled.exponent.natAbs - 308)))
  else some (.ofRatio (.ofNat 0))

namespace Numeral

/-- The digits of a numeral before its written exponent is applied. -/
def scaled (numeral : Numeral) : Scaled :=
  let whole := Scaled.addWhole ⟨0, 0⟩ numeral.whole
  match numeral.fraction with
  | none => whole
  | some digits => whole.addFraction digits

/-- The value of a numeral without its sign, unless it is too large to be read.  A written exponent
of more than 32 bits is refused outright, unless it is negative or the digits are all zero. -/
def magnitude? (numeral : Numeral) : Option Double :=
  let scaled := numeral.scaled
  match numeral.exponent with
  | none => scaled.value?
  | some (negative, digits) =>
      let written : Int := natOfDigits digits
      if 0x80000000 ≤ written then
        if negative || scaled.significand == 0 then some (.ofRatio (.ofNat 0)) else none
      else
        let exponent := if negative then scaled.exponent - written else scaled.exponent + written
        Scaled.value? { scaled with exponent := Scaled.clampExponent exponent }

/-- Whether a numeral is an integer of 64 bits.  A negative zero is none. -/
def isInteger (numeral : Numeral) : Bool :=
  numeral.fraction.isNone && numeral.exponent.isNone &&
    (let value := natOfDigits numeral.whole
     if numeral.negative then 0 < value && value ≤ 0x8000000000000000
     else value ≤ Scaled.limit)

/-- The numeral of a natural number. -/
def ofNat (number : Nat) : Numeral := { whole := (toString number).toList }

/-- A numeral as it is written. -/
def text (numeral : Numeral) : List Char :=
  (if numeral.negative then ['-'] else []) ++ numeral.whole ++
    (match numeral.fraction with
      | none => []
      | some digits => '.' :: digits) ++
    match numeral.exponent with
      | none => []
      | some (negative, digits) => 'e' :: (if negative then ['-'] else []) ++ digits

end Numeral

/-- What a numeral is found to be where something else was expected. -/
def Numeral.found (numeral : Numeral) : Found :=
  if numeral.isInteger then .integer (String.ofList numeral.text)
  else
    let magnitude := (numeral.magnitude?.map Double.text).getD []
    .float (String.ofList ((if numeral.negative then ['-'] else []) ++ magnitude))

/-- Reads a number.  A digit that is missing where the text ends is an early end. -/
def readNumeral (text : List Char) : Except ReadError (Numeral × List Char) :=
  match scanNumeral text with
  | .error rest => .error (if rest.isEmpty then .ended else .malformed)
  | .ok (numeral, rest) =>
      if numeral.magnitude?.isSome then .ok (numeral, rest) else .error .malformed

/-- Scans a number without asking for its value. -/
def skimNumeral (text : List Char) : Except ReadError (Unit × List Char) :=
  match scanNumeral text with
  | .error _ => .error .malformed
  | .ok (_, rest) => .ok ((), rest)

end StepFlow.Json
