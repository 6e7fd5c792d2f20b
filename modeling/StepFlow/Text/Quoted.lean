import StepFlow.Text.Hexadecimal
import StepFlow.Text.Printable

/-!
# Quoted text

How inspection texts write a string: between double quotes, with the usual short escapes, and with
`\u{…}` around the hexadecimal number of any character that has no shape of its own.
-/

namespace StepFlow.Text

/-- One character as it stands between the quotes. -/
def quoteChar (char : Char) : List Char :=
  match char with
  | '"' => ['\\', '"']
  | '\\' => ['\\', '\\']
  | '\n' => ['\\', 'n']
  | '\r' => ['\\', 'r']
  | '\t' => ['\\', 't']
  | '\x00' => ['\\', '0']
  | _ =>
      if isShown char then [char]
      else ['\\', 'u', '\x7b'] ++ hexDigits char.toNat ++ ['\x7d']

def quote (text : String) : String :=
  String.ofList ('"' :: text.toList.flatMap quoteChar ++ ['"'])

end StepFlow.Text
