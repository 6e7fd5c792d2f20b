import StepFlow.Toml.Document

/-!
# Settings

What a user can settle in a configuration file: the form in which graphs are printed and the
filter for log messages.  Both have defaults, and no other key is allowed.
-/

namespace StepFlow

/-- How graphs are printed. -/
inductive OutputFormat where
  /-- One line per node. -/
  | text
  /-- Indented JSON. -/
  | json
  deriving DecidableEq, Repr

namespace OutputFormat

def name : OutputFormat → String
  | text => "text"
  | json => "json"

/-- The format with exactly this name. -/
def ofName? (name : String) : Option OutputFormat :=
  match name with
  | "text" => some text
  | "json" => some json
  | _ => none

/-- The format that a value names, either as a string or as the only key of a table, under which
nothing stands. -/
def ofNode? : Toml.Node → Option OutputFormat
  | .string name => ofName? name
  | .table _ [(name, .table _ [])] => ofName? name
  | .table _ [(name, .array [])] => ofName? name
  | _ => none

end OutputFormat

structure Settings where
  format : OutputFormat := .text
  logFilter : String := "warn"
  deriving DecidableEq, Repr

namespace Settings

/-- Takes in one entry of a configuration table. -/
def set? (settings : Settings) : String × Toml.Node → Option Settings
  | ("format", node) => (OutputFormat.ofNode? node).map fun format => { settings with format }
  | ("log_filter", .string logFilter) => some { settings with logFilter }
  | _ => none

/-- The settings in a configuration text, unless it is not one. -/
def read? (text : String) : Option Settings :=
  (Toml.Document.read? text).bind fun entries => entries.foldlM set? {}

end Settings

end StepFlow
