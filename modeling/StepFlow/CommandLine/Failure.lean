import StepFlow.BuildError
import StepFlow.FileTree
import StepFlow.Json.Message

/-!
# Failures

Why a run comes to nothing, and the messages that tell it: what was attempted first, then the
reason.
-/

namespace StepFlow

inductive Failure where
  | configUnreadable (path : String) (fault : FileFault)
  | configInvalid (path : String)
  | fileUnreadable (path : String) (fault : FileFault)
  | fileInvalid (path : String) (error : Json.ReadError)
  | invalidFlow (test : String) (error : BuildError)
  | noSuchTest (test path : String)
  deriving DecidableEq, Repr

namespace Failure

def messages : Failure → List String
  | configUnreadable path fault => ["Failed to read config " ++ path, "io " ++ fault.title]
  | configInvalid path => ["Invalid config " ++ path, "toml"]
  | fileUnreadable path fault => ["Failed to read " ++ path, "io " ++ fault.title]
  | fileInvalid path error => ["Failed to parse " ++ path, error.title]
  | invalidFlow test error => ["Test '" ++ test ++ "' has invalid control flow", error.message]
  | noSuchTest test path => ["No test named '" ++ test ++ "' in " ++ path]

end Failure

end StepFlow
