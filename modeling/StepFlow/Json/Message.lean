import StepFlow.Json.ReadError
import StepFlow.Text.Quoted

/-!
# Messages about mismatches

The wording of the errors about texts that are JSON but have another shape than the one asked for.
-/

namespace StepFlow.Json

def Found.message : Found → String
  | null => "null"
  | boolean true => "boolean `true`"
  | boolean false => "boolean `false`"
  | integer text => "integer `" ++ text ++ "`"
  | float text => "floating point `" ++ text ++ "`"
  | string text => "string " ++ Text.quote text
  | sequence => "sequence"
  | map => "map"

def Mismatch.message : Mismatch → String
  | wrongType found expected => "invalid type: " ++ found.message ++ ", expected " ++ expected
  | duplicateField name => "duplicate field `" ++ name ++ "`"
  | missingField name => "missing field `" ++ name ++ "`"
  | wrongLength length expected =>
      "invalid length " ++ toString length ++ ", expected " ++ expected
  | noVariant name => "data did not match any variant of untagged enum " ++ name

/-- The kind of a reading error. -/
def ReadError.title : ReadError → String
  | ended => "json_eof"
  | malformed => "json_syntax"
  | mismatch _ => "json_data"

end StepFlow.Json
