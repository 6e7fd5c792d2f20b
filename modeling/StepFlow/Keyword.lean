/-!
# Control-flow keywords

A recorded test is a flat list of commands.  Its blocks are not nested in the data: eight reserved
command names mark where a block opens, where an arm of an `if` starts, where a loop is tested and
where a block ends.  Every other name is an ordinary step.  This file names the markers and the
structural role that each of them plays.
-/

namespace StepFlow

/-- A reserved command name. -/
inductive Keyword where
  | ifWord
  | elseIfWord
  | elseWord
  | endWord
  | whileWord
  | timesWord
  | doWord
  | repeatIfWord
  deriving DecidableEq, Repr

namespace Keyword

/-- Every keyword, in the order in which they are documented. -/
def all : List Keyword :=
  [ifWord, elseIfWord, elseWord, endWord, whileWord, timesWord, doWord, repeatIfWord]

/-- The keyword with exactly this name.  Case matters: `elseif` is an ordinary step. -/
def ofName? (name : String) : Option Keyword :=
  match name with
  | "if" => some ifWord
  | "elseIf" => some elseIfWord
  | "else" => some elseWord
  | "end" => some endWord
  | "while" => some whileWord
  | "times" => some timesWord
  | "do" => some doWord
  | "repeatIf" => some repeatIfWord
  | _ => none

/-- The command name of a keyword. -/
def name : Keyword → String
  | ifWord => "if"
  | elseIfWord => "elseIf"
  | elseWord => "else"
  | endWord => "end"
  | whileWord => "while"
  | timesWord => "times"
  | doWord => "do"
  | repeatIfWord => "repeatIf"

/-- The capitalised form of a keyword, which inspection texts show. -/
def title : Keyword → String
  | ifWord => "If"
  | elseIfWord => "ElseIf"
  | elseWord => "Else"
  | endWord => "End"
  | whileWord => "While"
  | timesWord => "Times"
  | doWord => "Do"
  | repeatIfWord => "RepeatIf"

/-- Keywords whose block repeats. -/
def isLoop : Keyword → Bool
  | whileWord | timesWord | doWord => true
  | _ => false

/-- The two keywords that start a further arm of an `if`. -/
def isBranchArm : Keyword → Bool
  | elseIfWord | elseWord => true
  | _ => false

@[simp]
theorem ofName?_name (keyword : Keyword) : ofName? keyword.name = some keyword := by
  cases keyword <;> rfl

theorem name_of_ofName?_eq_some {name : String} {keyword : Keyword}
    (hname : ofName? name = some keyword) : keyword.name = name := by
  unfold ofName? at hname
  split at hname <;> first | (cases hname; rfl) | contradiction

end Keyword

/-- Keywords that open a block wherever they stand. -/
inductive Opener where
  | ifBlock
  | doLoop
  | timesLoop
  deriving DecidableEq, Repr

/-- The further arms of an `if`. -/
inductive Arm where
  | elseIf
  | otherwise
  deriving DecidableEq, Repr

/-- Loop tests.  A `while` directly inside a `do` is the test of that loop; anywhere else it opens
a loop of its own. -/
inductive LoopTest where
  | whileTest
  | repeatIf
  deriving DecidableEq, Repr

/-- The structural role of a command, which depends on its name alone. -/
inductive Role where
  | opening (opener : Opener)
  | branchArm (arm : Arm)
  | loopTest (test : LoopTest)
  | blockEnd
  | ordinary
  deriving DecidableEq, Repr

def Opener.keyword : Opener → Keyword
  | .ifBlock => .ifWord
  | .doLoop => .doWord
  | .timesLoop => .timesWord

def Arm.keyword : Arm → Keyword
  | .elseIf => .elseIfWord
  | .otherwise => .elseWord

def LoopTest.keyword : LoopTest → Keyword
  | .whileTest => .whileWord
  | .repeatIf => .repeatIfWord

def Keyword.role : Keyword → Role
  | .ifWord => .opening .ifBlock
  | .doWord => .opening .doLoop
  | .timesWord => .opening .timesLoop
  | .elseIfWord => .branchArm .elseIf
  | .elseWord => .branchArm .otherwise
  | .whileWord => .loopTest .whileTest
  | .repeatIfWord => .loopTest .repeatIf
  | .endWord => .blockEnd

namespace Role

def ofName (name : String) : Role :=
  match Keyword.ofName? name with
  | some keyword => keyword.role
  | none => ordinary

/-- The keyword behind a role; an ordinary step has none. -/
def keyword? : Role → Option Keyword
  | opening opener => some opener.keyword
  | branchArm arm => some arm.keyword
  | loopTest test => some test.keyword
  | blockEnd => some .endWord
  | ordinary => none

def isControlFlow : Role → Bool
  | ordinary => false
  | _ => true

def isBranchArm : Role → Bool
  | branchArm _ => true
  | _ => false

def isEnd : Role → Bool
  | blockEnd => true
  | _ => false

def arm? : Role → Option Arm
  | branchArm arm => some arm
  | _ => none

@[simp]
theorem keyword?_role (keyword : Keyword) : keyword.role.keyword? = some keyword := by
  cases keyword <;> rfl

@[simp]
theorem ofName_name (keyword : Keyword) : ofName keyword.name = keyword.role := by
  simp [ofName]

@[simp]
theorem keyword?_ofName (name : String) : (ofName name).keyword? = Keyword.ofName? name := by
  unfold ofName
  split <;> rename_i hname <;> rw [hname]
  · exact keyword?_role _
  · rfl

end Role

end StepFlow
