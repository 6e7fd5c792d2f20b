/-!
# Reading errors

Why a JSON text could not be read: the text ends too early, it is not JSON, or it is JSON of
another shape than the one asked for.
-/

namespace StepFlow.Json

/-- What stands where something else was expected. -/
inductive Found where
  | null
  | boolean (value : Bool)
  /-- An integer, as it is written. -/
  | integer (text : String)
  /-- Any other number, as it is read. -/
  | float (text : String)
  | string (text : String)
  | sequence
  | map
  deriving DecidableEq, Repr

/-- How a text differs from the shape that was asked for. -/
inductive Mismatch where
  | wrongType (found : Found) (expected : String)
  | duplicateField (name : String)
  | missingField (name : String)
  | wrongLength (length : Nat) (expected : String)
  /-- None of the shapes allowed for `name` fits. -/
  | noVariant (name : String)
  deriving DecidableEq, Repr

inductive ReadError where
  | ended
  | malformed
  | mismatch (mismatch : Mismatch)
  deriving DecidableEq, Repr

end StepFlow.Json
