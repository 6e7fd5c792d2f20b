import StepFlow.Proofs.Outlines

/-!
# Renumbered tests

Reading a test uses the positions of its commands as names only: for the opening command of an open
block, and for the command that an error blames.  So if the blocks that are open at a place of one
test are those at a place of another, under other numbers, then a command fits at both places or at
none, at the same level and with the same error.  This is how a test is compared with one in which
its commands stand elsewhere.
-/

namespace StepFlow

/-- The same block in a test where its opening command has another position. -/
def Bracket.renumber (position : Nat → Nat) (bracket : Bracket) : Bracket :=
  { bracket with opener := position bracket.opener }

/-- The same error about a command that has another position. -/
def BuildError.renumber (position : Nat → Nat) : BuildError → BuildError
  | unclosedBlock keyword index => unclosedBlock keyword (position index)
  | misplacedKeyword keyword index reason => misplacedKeyword keyword (position index) reason
  | armDisorder index reason => armDisorder (position index) reason

variable {roles other : List Role} {role : Role} {index place : Nat} {position : Nat → Nat}

@[simp]
theorem Bracket.renumber_block (position : Nat → Nat) (bracket : Bracket) :
    (bracket.renumber position).block = bracket.block := rfl

@[simp]
theorem Bracket.renumber_opener (position : Nat → Nat) (bracket : Bracket) :
    (bracket.renumber position).opener = position bracket.opener := rfl

theorem Bracket.map_block_renumber (position : Nat → Nat) (bracket? : Option Bracket) :
    (bracket?.map (Bracket.renumber position)).map Bracket.block = bracket?.map Bracket.block := by
  rw [Option.map_map]
  rfl

/-- Reading a command under another number. -/
theorem Bracket.advance_renumber (position : Nat → Nat) (index : Nat) (role : Role)
    (brackets : List Bracket) :
    advance (position index) role (brackets.map (Bracket.renumber position)) =
      (advance index role brackets).map (Bracket.renumber position) := by
  cases role with
  | opening opener => rfl
  | branchArm arm => rfl
  | blockEnd => rw [advance, advance, List.map_tail]
  | ordinary => rfl
  | loopTest test =>
      cases test with
      | repeatIf => rfl
      | whileTest =>
          simp only [advance, List.head?_map, map_block_renumber]
          split <;> rfl

theorem innermost?_renumber
    (hopen : openBefore other place = (openBefore roles index).map (Bracket.renumber position)) :
    innermost? other place = (innermost? roles index).map (Bracket.renumber position) := by
  rw [innermost?, hopen, List.head?_map, innermost?]

theorem levelAt_renumber (position : Nat → Nat) (hrole : other[place]? = roles[index]?)
    (hopen : openBefore other place = (openBefore roles index).map (Bracket.renumber position)) :
    levelAt other place = levelAt roles index := by
  rw [levelAt, levelAt, hrole, hopen, List.length_map]

/-- A command fits at both places or at neither, for the same reason. -/
theorem misfit?_renumber (position : Nat → Nat) (hopen : openBefore other (position index) =
      (openBefore roles index).map (Bracket.renumber position))
    (harms : ∀ bracket ∈ openBefore roles index,
      armsWithin other (position bracket.opener) (position index) =
        armsWithin roles bracket.opener index) :
    misfit? other (position index) role =
      (misfit? roles index role).map (BuildError.renumber position) := by
  unfold misfit?
  rw [innermost?_renumber hopen, Bracket.map_block_renumber]
  split
  · split <;> rfl
  · split <;> rfl
  · cases hinner : innermost? roles index with
    | none => rfl
    | some bracket =>
        simp only [Option.map_some, Bracket.renumber_block, Bracket.renumber_opener,
          harms bracket (mem_openBefore_of_innermost hinner)]
        split
        · rw [Option.map_map]
          rfl
        · rfl
  all_goals rfl

/-- The block to blame in the end is the same. -/
theorem finish_renumber (position : Nat → Nat) (brackets : List Bracket) :
    (nestingOf (brackets.map (Bracket.renumber position))).finish =
      (nestingOf brackets).finish.mapError (BuildError.renumber position) := by
  cases brackets <;> rfl

end StepFlow
