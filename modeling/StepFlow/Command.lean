import StepFlow.Keyword

/-!
# Recorded commands

The structure of a test depends on command names only.  Anything that has a name can therefore be
arranged into a graph: a bare name, or a recorded command with its arguments.
-/

namespace StepFlow

/-- Whatever can take a place in a test. -/
class Step (α : Type) where
  name : α → String

/-- The structural role of a step. -/
def Step.role {α : Type} [Step α] (step : α) : Role :=
  Role.ofName (Step.name step)

/-- One recorded command. -/
structure Command where
  /-- The recorder's identifier, if it assigned one. -/
  id : Option String := none
  name : String
  /-- The primary argument: a locator or a condition. -/
  target : String := ""
  /-- The secondary argument. -/
  value : String := ""
  /-- The author's note. -/
  comment : String := ""
  deriving DecidableEq, Repr

instance : Step Command := ⟨Command.name⟩

instance : Step String := ⟨id⟩

namespace Command

def ofName (name : String) : Command := { name }

def withTarget (command : Command) (target : String) : Command := { command with target }

def withValue (command : Command) (value : String) : Command := { command with value }

end Command

end StepFlow
