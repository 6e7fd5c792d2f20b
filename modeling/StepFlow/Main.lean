import StepFlow.CommandLine.Run

/-!
# The program

Reads the arguments, the configuration and the file, runs the task and writes what it reports.
The exit status is 0 when all is well, 1 when a test is invalid or the run fails, and 2 when the
arguments are not understood.
-/

namespace StepFlow

/-- The text of a file on disk. -/
def readTextFile (path : String) : IO (Except FileFault String) := do
  try
    let content ← IO.FS.readBinFile path
    match String.fromUTF8? content with
    | some text => return .ok text
    | none => return .error .invalidData
  catch error =>
    match error with
    | .noFileOrDirectory .. => return .error .notFound
    | .inappropriateType .. => return .error .isADirectory
    | .invalidArgument .. => return .error .invalidInput
    | _ => return .error .notFound

/-- Where the configuration of the user is looked for. -/
def defaultConfigPath : IO (Option String) := do
  match ← IO.getEnv "XDG_CONFIG_HOME" with
  | some directory => return some (directory ++ "/playback-tree/config.toml")
  | none =>
      match ← IO.getEnv "HOME" with
      | some home => return some (home ++ "/.config/playback-tree/config.toml")
      | none => return none

/-- The settings in the given file, or in the default file if there is one. -/
def loadSettings (path : Option String) : IO (Except Failure Settings) := do
  match path with
  | some path => return Settings.ofFile path (← readTextFile path)
  | none =>
      match ← defaultConfigPath with
      | none => return .ok {}
      | some path =>
          match ← readTextFile path with
          | .error .notFound => return .ok {}
          | content => return Settings.ofFile path content

def complain (failure : Failure) : IO UInt32 := do
  IO.eprintln ("Error: " ++ ": ".intercalate failure.messages)
  return 1

/-- Runs the task of parsed arguments. -/
def runArguments (arguments : Arguments) : IO UInt32 := do
  match ← loadSettings arguments.config with
  | .error failure => complain failure
  | .ok settings =>
      let report := arguments.task.run settings (← readTextFile arguments.task.file)
      IO.print report.out
      match report.result with
      | .error failure => complain failure
      | .ok true => return 0
      | .ok false => return 1

end StepFlow

def main (arguments : List String) : IO UInt32 := do
  match StepFlow.Arguments.parse arguments with
  | .ok arguments => StepFlow.runArguments arguments
  | .error error =>
      IO.eprintln error.title
      return error.exitCode.toUInt32
