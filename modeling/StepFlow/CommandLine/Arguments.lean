import StepFlow.Settings

/-!
# Command-line arguments

A command line names a subcommand, `check` or `graph`, and the file that it works on.  The option
`--config` may stand before the subcommand or after it, and the later place wins; `--test` and
`--format` belong to `graph`.  An option's value follows it or is attached with an equals sign.
After `--` nothing is an option.

A value is examined when the next option, flag or file is taken in, or when the arguments end, so
an argument that is not understood at all is reported before a bad value that precedes it.
Main definition: `Arguments.parse`.
-/

namespace StepFlow

/-- What the program is asked to do. -/
inductive Task where
  /-- Validate every test in a file. -/
  | check (file : String)
  /-- Print the graphs of the tests in a file, or of those with one name. -/
  | graph (file : String) (test : Option String) (format : Option OutputFormat)
  deriving DecidableEq, Repr

structure Arguments where
  config : Option String
  task : Task
  deriving DecidableEq, Repr

/-- Why arguments do not lead to a task. -/
inductive ArgumentsError where
  | displayHelp
  | displayVersion
  /-- There are no arguments, which is answered with help. -/
  | nothingGiven
  | missingSubcommand
  | invalidSubcommand
  | missingFile
  | unknownArgument
  | invalidValue
  /-- An option is given twice in one place. -/
  | conflict
  /-- A flag is given a value. -/
  | tooManyValues
  deriving DecidableEq, Repr

namespace ArgumentsError

def title : ArgumentsError → String
  | displayHelp => "DisplayHelp"
  | displayVersion => "DisplayVersion"
  | nothingGiven => "DisplayHelpOnMissingArgumentOrSubcommand"
  | missingSubcommand => "MissingSubcommand"
  | invalidSubcommand => "InvalidSubcommand"
  | missingFile => "MissingRequiredArgument"
  | unknownArgument => "UnknownArgument"
  | invalidValue => "InvalidValue"
  | conflict => "ArgumentConflict"
  | tooManyValues => "TooManyValues"

/-- The exit status with which the program ends. -/
def exitCode : ArgumentsError → Nat
  | displayHelp | displayVersion => 0
  | _ => 2

end ArgumentsError

namespace Arguments

inductive Subcommand where
  | check
  | graph
  deriving DecidableEq, Repr

def Subcommand.ofName? (name : String) : Option Subcommand :=
  match name with
  | "check" => some check
  | "graph" => some graph
  | _ => none

/-- What a value is for. -/
inductive Slot where
  | config
  | test
  | format
  | file
  deriving DecidableEq, Repr

/-- The part of the command line that is being read: before the subcommand, or after it. -/
abbrev Place := Option Subcommand

/-- The option with a name. -/
def option? (place : Place) (name : String) : Option Slot :=
  match name with
  | "config" => some .config
  | "test" => if place = some .graph then some .test else none
  | "format" => if place = some .graph then some .format else none
  | _ => none

/-- The answer that a flag of one letter asks for. -/
def shortFlag? (place : Place) (letter : Char) : Option ArgumentsError :=
  match letter with
  | 'h' => some .displayHelp
  | 'V' => if place = none then some .displayVersion else none
  | _ => none

/-- The answer that a flag with a name asks for. -/
def longFlag? (place : Place) (name : String) : Option ArgumentsError :=
  match name with
  | "help" => shortFlag? place 'h'
  | "version" => shortFlag? place 'V'
  | _ => none

/-- The values that have been taken in at one place. -/
structure Values where
  config : Option String := none
  test : Option String := none
  format : Option OutputFormat := none
  file : Option String := none

namespace Values

def has (values : Values) : Slot → Bool
  | .config => values.config.isSome
  | .test => values.test.isSome
  | .format => values.format.isSome
  | .file => values.file.isSome

def isEmpty (values : Values) : Bool :=
  !(values.has .config || values.has .test || values.has .format || values.has .file)

/-- Takes in a value.  Paths are not empty, and a format is one of those there are. -/
def set (values : Values) (slot : Slot) (value : String) : Except ArgumentsError Values :=
  if values.has slot then .error .conflict
  else
    match slot with
    | .config => if value.isEmpty then .error .invalidValue else .ok { values with config := value }
    | .file => if value.isEmpty then .error .invalidValue else .ok { values with file := value }
    | .test => .ok { values with test := value }
    | .format =>
        match OutputFormat.ofName? value with
        | some format => .ok { values with format }
        | none => .error .invalidValue

end Values

/-- What is known while the arguments of one place are read. -/
structure Progress where
  values : Values := {}
  /-- What is to be taken in next, and its value, if that has come. -/
  pending : Option (Slot × Option String) := none
  /-- Whether `--` has been passed. -/
  trailing : Bool := false

namespace Progress

/-- Takes in what is pending. -/
def settle (progress : Progress) : Except ArgumentsError Progress :=
  match progress.pending with
  | none => .ok progress
  | some (_, none) => .error .invalidValue
  | some (slot, some value) =>
      (progress.values.set slot value).map fun values => { progress with values, pending := none }

/-- Whether the next argument can be the value of an option. -/
def awaitsValue (progress : Progress) : Bool :=
  match progress.pending with
  | some (_, none) => !progress.trailing
  | _ => false

/-- Reads a long option or flag, given without its dashes. -/
def readLong (place : Place) (progress : Progress) (text : List Char) :
    Except ArgumentsError Progress :=
  let name := String.ofList (text.takeWhile (· ≠ '='))
  let attached :=
    match text.dropWhile (· ≠ '=') with
    | [] => none
    | _ :: value => some (String.ofList value)
  match option? place name, longFlag? place name, attached with
  | some slot, _, none =>
      progress.settle.map fun progress => { progress with pending := some (slot, none) }
  | some slot, _, some value =>
      progress.settle.bind fun progress =>
        (progress.values.set slot value).map fun values => { progress with values }
  | none, some _, some _ => .error .tooManyValues
  | none, some answer, none => progress.settle.bind fun _ => .error answer
  | none, none, _ => .error .unknownArgument

/-- Reads a flag of one letter, which may be followed by others. -/
def readShort (place : Place) (progress : Progress) (letter : Char) :
    Except ArgumentsError Progress :=
  match shortFlag? place letter with
  | some answer => progress.settle.bind fun _ => .error answer
  | none => .error .unknownArgument

/-- Reads an argument that is neither an option nor the value of one.  Only a subcommand has a
place for it, and only for one. -/
def readPlain (place : Place) (progress : Progress) (argument : String) :
    Except ArgumentsError Progress :=
  match place with
  | none =>
      if progress.trailing ∧ (argument = "help" ∨ (Subcommand.ofName? argument).isSome) then
        .error .unknownArgument
      else .error .invalidSubcommand
  | some _ =>
      if progress.values.has .file ∨ (progress.pending.map Prod.fst) = some .file then
        .error .unknownArgument
      else progress.settle.map fun progress =>
        { progress with pending := some (.file, some argument) }

/-- Reads one argument. -/
def read (place : Place) (progress : Progress) (argument : String) :
    Except ArgumentsError Progress :=
  if progress.trailing then progress.readPlain place argument
  else
    match argument.toList with
    | ['-', '-'] => .ok { progress with trailing := true }
    | '-' :: '-' :: text => progress.readLong place text
    | '-' :: letter :: _ => progress.readShort place letter
    | _ =>
        match progress.pending with
        | some (slot, none) => .ok { progress with pending := some (slot, some argument) }
        | _ => progress.readPlain place argument

end Progress

/-- Reads the arguments after a subcommand. -/
def readAfter (subcommand : Subcommand) (progress : Progress) :
    List String → Except ArgumentsError Arguments
  | argument :: rest =>
      (progress.read (some subcommand) argument).bind fun progress =>
        readAfter subcommand progress rest
  | [] =>
      progress.settle.bind fun progress =>
        match progress.values.file with
        | none => .error .missingFile
        | some file =>
            .ok {
              config := progress.values.config
              task :=
                match subcommand with
                | .check => .check file
                | .graph => .graph file progress.values.test progress.values.format }

/-- The answer to `help` and the subcommands after it. -/
def help : List String → ArgumentsError
  | [] => .displayHelp
  | [name] =>
      if name = "help" ∨ (Subcommand.ofName? name).isSome then .displayHelp else .invalidSubcommand
  | _ => .invalidSubcommand

/-- Reads the arguments from before the subcommand on. -/
def readBefore (progress : Progress) : List String → Except ArgumentsError Arguments
  | [] =>
      progress.settle.bind fun progress =>
        if progress.values.isEmpty then .error .nothingGiven else .error .missingSubcommand
  | argument :: rest =>
      let command := if progress.trailing || progress.awaitsValue then none else some argument
      match command, command.bind Subcommand.ofName? with
      | some "help", _ => .error (help rest)
      | _, some subcommand =>
          (readAfter subcommand {} rest).bind fun arguments =>
            progress.settle.map fun progress =>
              { arguments with config := arguments.config.or progress.values.config }
      | _, none => (progress.read none argument).bind fun progress => readBefore progress rest

/-- The task that arguments ask for, or why they ask for none. -/
def parse (arguments : List String) : Except ArgumentsError Arguments := readBefore {} arguments

end Arguments

end StepFlow
