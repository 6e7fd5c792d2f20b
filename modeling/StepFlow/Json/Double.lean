/-!
# Double-precision numbers

Nonnegative numbers of 53 significant bits, in exact arithmetic: the nearest one to a ratio, and the
shortest decimal that reads back as a given one.
-/

namespace StepFlow.Json

/-- A positive ratio of natural numbers, or zero. -/
structure Ratio where
  numerator : Nat
  denominator : Nat
  deriving DecidableEq, Repr

namespace Ratio

def ofNat (number : Nat) : Ratio := ⟨number, 1⟩

def mul (left right : Ratio) : Ratio :=
  ⟨left.numerator * right.numerator, left.denominator * right.denominator⟩

def div (left right : Ratio) : Ratio :=
  ⟨left.numerator * right.denominator, left.denominator * right.numerator⟩

/-- The ratio `base ^ exponent`. -/
def power (base : Nat) (exponent : Int) : Ratio :=
  if exponent < 0 then ⟨1, Nat.pow base exponent.natAbs⟩ else ⟨Nat.pow base exponent.natAbs, 1⟩

def floor (ratio : Ratio) : Nat := ratio.numerator / ratio.denominator

/-- The nearest whole number; of two nearest ones, the even one. -/
def round (ratio : Ratio) : Nat :=
  let below := ratio.floor
  let rest := 2 * (ratio.numerator % ratio.denominator)
  if ratio.denominator < rest ∨ (rest = ratio.denominator ∧ below % 2 = 1) then below + 1
  else below

def lt (left right : Ratio) : Bool :=
  left.numerator * right.denominator < right.numerator * left.denominator

/-- The exponent of the largest power of two that is at most the given positive ratio. -/
def log2 (ratio : Ratio) : Int :=
  let estimate := (Nat.log2 ratio.numerator : Int) - Nat.log2 ratio.denominator
  if ratio.lt (power 2 estimate) then estimate - 1 else estimate

end Ratio

/-- The number `mantissa · 2 ^ exponent`. -/
structure Double where
  mantissa : Nat
  exponent : Int
  deriving DecidableEq, Repr

namespace Double

/-- The smallest exponent. -/
def leastExponent : Int := -1074

/-- The nearest double to a ratio, had doubles no largest exponent; a tie goes to the even
mantissa. -/
def ofRatio (ratio : Ratio) : Double :=
  if ratio.numerator = 0 then ⟨0, leastExponent⟩
  else
    let wanted := ratio.log2 - 52
    let exponent := if wanted < leastExponent then leastExponent else wanted
    let mantissa := (ratio.mul (.power 2 (-exponent))).round
    if mantissa = 0x20000000000000 then ⟨0x10000000000000, exponent + 1⟩ else ⟨mantissa, exponent⟩

def toRatio (double : Double) : Ratio :=
  (Ratio.ofNat double.mantissa).mul (.power 2 double.exponent)

/-- Whether the number lies beyond the largest double. -/
def isInfinite (double : Double) : Bool := 971 < double.exponent

/-- The nearest double to a power of ten. -/
def powerOfTen (exponent : Nat) : Double := ofRatio (.ofNat (Nat.pow 10 exponent))

def mul (left right : Double) : Double := ofRatio (left.toRatio.mul right.toRatio)

def div (left right : Double) : Double := ofRatio (left.toRatio.div right.toRatio)

/-! ## The shortest decimal -/

/-- The exponent of the largest power of ten that is at most a positive ratio, if it is at least
`-fuel`. -/
def tensBelow (fuel : Nat) (ratio : Ratio) : Int :=
  if ratio.denominator ≤ ratio.numerator then (toString ratio.floor).length - 1
  else
    match fuel with
    | 0 => 0
    | fuel + 1 => tensBelow fuel (ratio.mul (.ofNat 10)) - 1

/-- The number `digits · 10 ^ exponent`, if it reads back as the given double. -/
def readsBack? (double : Double) (digits : Nat) (exponent : Int) : Option (Nat × Int) :=
  if ofRatio ((Ratio.ofNat digits).mul (.power 10 exponent)) = double then some (digits, exponent)
  else none

/-- A decimal that reads back as the given positive double, with digits down to `10 ^ exponent`
only; of two, the nearer one. -/
def decimalAt? (double : Double) (exponent : Int) : Option (Nat × Int) :=
  let scaled := double.toRatio.mul (.power 10 (-exponent))
  let near := scaled.round
  let other := if near = scaled.floor then near + 1 else scaled.floor
  (double.readsBack? near exponent).or (double.readsBack? other exponent)

/-- The shortest of the decimals with digits from `10 ^ tens` down to `10 ^ (tens - used)` or
less. -/
def shortestFrom (double : Double) (tens : Int) (used : Nat) : (left : Nat) → Nat × Int
  | 0 => (double.toRatio.floor, 0)
  | left + 1 =>
      match double.decimalAt? (tens - used) with
      | some decimal => decimal
      | none => shortestFrom double tens (used + 1) left

/-- The shortest decimal `digits · 10 ^ exponent` that reads back as a positive double.  Seventeen
digits always suffice. -/
def shortest (double : Double) : Nat × Int :=
  shortestFrom double (tensBelow 400 double.toRatio) 0 17

/-- The digits of a number without the zeros at the end, of which the exponent takes account. -/
def dropZeros (digits : List Char) (exponent : Int) : List Char × Int :=
  let zeros := (digits.reverse.takeWhile (· == '0')).length
  (digits.take (digits.length - zeros), exponent + zeros)

/-- An exponent as it is written, always with its sign. -/
def exponentText (exponent : Int) : List Char :=
  if exponent < 0 then (toString exponent).toList else '+' :: (toString exponent).toList

/-- The text of a double: positional from `10 ^ -5` up to `10 ^ 16`, otherwise with an exponent. -/
def text (double : Double) : List Char :=
  if double.mantissa = 0 then ['0', '.', '0']
  else
    let (number, exponent) := double.shortest
    let (digits, exponent) := dropZeros (toString number).toList exponent
    let point := digits.length + exponent
    let zeros (count : Int) := List.replicate count.toNat '0'
    if 0 ≤ exponent ∧ point ≤ 16 then digits ++ zeros exponent ++ ['.', '0']
    else if 0 < point ∧ point ≤ 16 then
      digits.take point.toNat ++ ['.'] ++ digits.drop point.toNat
    else if -5 < point ∧ point ≤ 0 then ['0', '.'] ++ zeros (-point) ++ digits
    else
      digits.take 1 ++ (if digits.length = 1 then [] else '.' :: digits.drop 1) ++
        'e' :: exponentText (point - 1)

end Double

end StepFlow.Json
