import StepFlow.Proofs.Outlines

/-!
# The grammar of tests

A test is a list of items: an ordinary step, or a block with its own body.  The two loop tests that
open no block, a bare `while` and a `repeatIf`, are items directly inside a `do` only, and there a
`while` cannot open a loop.  A derivation in this grammar is a tree, and which of the two kinds of
body an item may stand in is part of its type.

The grammar is unambiguous: a list of roles has at most one derivation.  The first role of an item
decides its rule, and neither an `end` nor an arm can start an item, so a body ends where it must.
-/

namespace StepFlow

section Definitions

mutual

/-- One item of a body; the parameter says whether the body is directly that of a `do`. -/
inductive Item : Bool → Type where
  | step {insideDo : Bool} : Item insideDo
  | timesLoop {insideDo : Bool} (body : Body false) : Item insideDo
  | doLoop {insideDo : Bool} (body : Body true) : Item insideDo
  | ifBlock {insideDo : Bool} (body : Body false) (arms : Arms) : Item insideDo
  | whileLoop (body : Body false) : Item false
  | whileTest : Item true
  | repeatIf : Item true

inductive Body : Bool → Type where
  | nil {insideDo : Bool} : Body insideDo
  | cons {insideDo : Bool} (item : Item insideDo) (rest : Body insideDo) : Body insideDo

/-- The further arms of an `if`, each with its body. -/
inductive Arms : Type where
  | nil
  | cons (arm : Arm) (body : Body false) (rest : Arms)

end

/-- A block: its opening command, what is inside, and its `end`. -/
def enclosed (opening : Role) (inside : List Role) : List Role :=
  opening :: (inside ++ [.blockEnd])

mutual

/-- The roles that an item derives. -/
def Item.roles {insideDo : Bool} : Item insideDo → List Role
  | .step => [.ordinary]
  | .timesLoop body => enclosed (.opening .timesLoop) body.roles
  | .doLoop body => enclosed (.opening .doLoop) body.roles
  | .ifBlock body arms => enclosed (.opening .ifBlock) (body.roles ++ arms.roles)
  | .whileLoop body => enclosed (.loopTest .whileTest) body.roles
  | .whileTest => [.loopTest .whileTest]
  | .repeatIf => [.loopTest .repeatIf]

def Body.roles {insideDo : Bool} : Body insideDo → List Role
  | .nil => []
  | .cons item rest => item.roles ++ rest.roles

def Arms.roles : Arms → List Role
  | .nil => []
  | .cons arm body rest => .branchArm arm :: (body.roles ++ rest.roles)

end

/-- There is at most one `else`, and if there is one it comes last. -/
def InOrder (arms : List Arm) : Prop :=
  arms.count .otherwise ≤ 1 ∧ (.otherwise ∈ arms → arms.getLast? = some .otherwise)

mutual

/-- In every `if` the arms are in order, those of the blocks nested in it included. -/
def Item.Ordered {insideDo : Bool} : Item insideDo → Prop
  | .timesLoop body | .whileLoop body => body.Ordered
  | .doLoop body => body.Ordered
  | .ifBlock body arms =>
      InOrder ((body.roles ++ arms.roles).filterMap Role.arm?) ∧ body.Ordered ∧ arms.Ordered
  | .step | .whileTest | .repeatIf => True

def Body.Ordered {insideDo : Bool} : Body insideDo → Prop
  | .nil => True
  | .cons item rest => item.Ordered ∧ rest.Ordered

def Arms.Ordered : Arms → Prop
  | .nil => True
  | .cons _ body rest => body.Ordered ∧ rest.Ordered

end

/-- `roles` is at an end or at an arm, where every body stops. -/
def Stops (roles : List Role) : Prop :=
  ∀ role ∈ roles.head?, role = .blockEnd ∨ role.isBranchArm = true

end Definitions

/-! ## Unambiguity -/

theorem stops_nil : Stops [] := by
  simp [Stops]

theorem stops_blockEnd (rest : List Role) : Stops (.blockEnd :: rest) := by
  simp [Stops]

/-- After an `if` body there is a further arm or the `end`. -/
theorem Arms.stops_roles (arms : Arms) (rest : List Role) :
    Stops (arms.roles ++ .blockEnd :: rest) := by
  cases arms with
  | nil => exact stops_blockEnd rest
  | cons arm body more => simp [Stops, Arms.roles, Role.isBranchArm]

theorem Item.not_stops_roles {insideDo : Bool} (item : Item insideDo) (rest : List Role) :
    ¬ Stops (item.roles ++ rest) := by
  cases item <;> simp [Stops, Item.roles, enclosed, Role.isBranchArm]

theorem enclosed_append (opening : Role) (inside rest : List Role) :
    enclosed opening inside ++ rest = opening :: (inside ++ .blockEnd :: rest) := by
  simp [enclosed]

/-- What two blocks with the same opening command have in common behind it. -/
theorem tail_eq_of_enclosed_append_eq {opening : Role}
    {inside other leftRest rightRest : List Role}
    (heq : enclosed opening inside ++ leftRest = enclosed opening other ++ rightRest) :
    inside ++ .blockEnd :: leftRest = other ++ .blockEnd :: rightRest := by
  rw [enclosed_append, enclosed_append, List.cons.injEq] at heq
  exact heq.2

mutual

/-- An item is determined by any list of roles that starts with its own. -/
theorem Item.eq_of_roles_append_eq : ∀ {insideDo : Bool} (left right : Item insideDo)
    {leftRest rightRest : List Role},
    left.roles ++ leftRest = right.roles ++ rightRest → left = right ∧ leftRest = rightRest
  | _, .step, right, _, _, heq => by
      cases right <;> simp_all [Item.roles, enclosed]
  | _, .whileTest, right, _, _, heq => by
      cases right <;> simp_all [Item.roles, enclosed]
  | _, .repeatIf, right, _, _, heq => by
      cases right <;> simp_all [Item.roles, enclosed]
  | _, .timesLoop body, right, _, _, heq => by
      cases right with
      | timesLoop other =>
          obtain ⟨hbody, hrest⟩ := Body.eq_of_roles_append_eq body other
            (tail_eq_of_enclosed_append_eq heq) (stops_blockEnd _) (stops_blockEnd _)
          exact ⟨congrArg Item.timesLoop hbody, (List.cons.inj hrest).2⟩
      | _ => simp [Item.roles, enclosed] at heq
  | _, .doLoop body, right, _, _, heq => by
      cases right with
      | doLoop other =>
          obtain ⟨hbody, hrest⟩ := Body.eq_of_roles_append_eq body other
            (tail_eq_of_enclosed_append_eq heq) (stops_blockEnd _) (stops_blockEnd _)
          exact ⟨congrArg Item.doLoop hbody, (List.cons.inj hrest).2⟩
      | _ => simp [Item.roles, enclosed] at heq
  | _, .whileLoop body, right, _, _, heq => by
      cases right with
      | whileLoop other =>
          obtain ⟨hbody, hrest⟩ := Body.eq_of_roles_append_eq body other
            (tail_eq_of_enclosed_append_eq heq) (stops_blockEnd _) (stops_blockEnd _)
          exact ⟨congrArg Item.whileLoop hbody, (List.cons.inj hrest).2⟩
      | _ => simp [Item.roles, enclosed] at heq
  | _, .ifBlock body arms, right, _, _, heq => by
      cases right with
      | ifBlock other others =>
          have hinside := tail_eq_of_enclosed_append_eq heq
          rw [List.append_assoc, List.append_assoc] at hinside
          obtain ⟨hbody, hrest⟩ := body.eq_of_roles_append_eq other hinside
            (arms.stops_roles _) (others.stops_roles _)
          obtain ⟨harms, hafter⟩ := arms.eq_of_roles_append_eq others hrest
          exact ⟨by rw [hbody, harms], hafter⟩
      | _ => simp [Item.roles, enclosed] at heq

theorem Body.eq_of_roles_append_eq : ∀ {insideDo : Bool} (left right : Body insideDo)
    {leftRest rightRest : List Role},
    left.roles ++ leftRest = right.roles ++ rightRest → Stops leftRest → Stops rightRest →
      left = right ∧ leftRest = rightRest
  | _, .nil, right, _, _, heq, hleft, _ => by
      cases right with
      | nil => exact ⟨rfl, heq⟩
      | cons item rest =>
          rw [Body.roles, Body.roles, List.nil_append, List.append_assoc] at heq
          exact absurd (heq ▸ hleft) (item.not_stops_roles _)
  | _, .cons item rest, right, _, _, heq, hleft, hright => by
      cases right with
      | nil =>
          rw [Body.roles, Body.roles, List.nil_append, List.append_assoc] at heq
          exact absurd (heq ▸ hright) (item.not_stops_roles _)
      | cons other others =>
          rw [Body.roles, Body.roles, List.append_assoc, List.append_assoc] at heq
          obtain ⟨hitem, hrest⟩ := item.eq_of_roles_append_eq other heq
          obtain ⟨hothers, hafter⟩ := rest.eq_of_roles_append_eq others hrest hleft hright
          exact ⟨by rw [hitem, hothers], hafter⟩

theorem Arms.eq_of_roles_append_eq : ∀ (left right : Arms) {leftRest rightRest : List Role},
    left.roles ++ .blockEnd :: leftRest = right.roles ++ .blockEnd :: rightRest →
      left = right ∧ leftRest = rightRest
  | .nil, right, _, _, heq => by
      cases right with
      | nil => exact ⟨rfl, (List.cons.inj heq).2⟩
      | cons arm body rest => simp [Arms.roles] at heq
  | .cons arm body rest, right, _, _, heq => by
      cases right with
      | nil => simp [Arms.roles] at heq
      | cons other others more =>
          rw [Arms.roles, Arms.roles, List.cons_append, List.cons_append, List.cons.injEq,
            Role.branchArm.injEq, List.append_assoc, List.append_assoc] at heq
          obtain ⟨hbody, hrest⟩ := body.eq_of_roles_append_eq others heq.2
            (rest.stops_roles _) (more.stops_roles _)
          obtain ⟨hmore, hafter⟩ := rest.eq_of_roles_append_eq more hrest
          exact ⟨by rw [heq.1, hbody, hmore], hafter⟩

end

/-- A list of roles has at most one derivation. -/
theorem Body.roles_injective {insideDo : Bool} :
    Function.Injective (Body.roles : Body insideDo → List Role) := by
  intro left right heq
  refine (Body.eq_of_roles_append_eq left right ?_ stops_nil stops_nil).1
  rw [heq]

end StepFlow
