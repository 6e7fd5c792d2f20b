import StepFlow.Proofs.Faults
import StepFlow.Proofs.Renumbering

/-!
# Tests one after the other

A test that is accepted leaves no block open, so a second test that follows it is read as if it
stood alone: its errors and its links are the same, only further on.  The first test keeps its
links too, except that its last step, which led nowhere, now goes on with the second test.
Main statement: `build?_append`.
-/

namespace StepFlow

section Definitions

/-- The same block `offset` positions further on. -/
def Bracket.shift (offset : Nat) (bracket : Bracket) : Bracket :=
  { bracket with opener := bracket.opener + offset }

def Link.shift (offset : Nat) : Link → Link
  | .next target => .next (target + offset)
  | .branch left right => .branch (left + offset) (right + offset)
  | .terminal => .terminal

def Wires.shift (offset : Nat) (wires : Wires) : Wires where
  next := wires.next.map (· + offset)
  left := wires.left.map (· + offset)
  right := wires.right.map (· + offset)

/-- The same error of a command `offset` positions further on. -/
def BuildError.shift (offset : Nat) : BuildError → BuildError
  | unclosedBlock keyword index => unclosedBlock keyword (index + offset)
  | misplacedKeyword keyword index reason => misplacedKeyword keyword (index + offset) reason
  | armDisorder index reason => armDisorder (index + offset) reason

/-- The test `inner` stands in `roles` from position `offset` on, and the brackets that are open in
it are its own. -/
structure Embedded (inner roles : List Role) (offset : Nat) : Prop where
  role : ∀ {index}, index < inner.length → roles[index + offset]? = inner[index]?
  brackets : ∀ {index}, index ≤ inner.length →
    openBefore roles (index + offset) = (openBefore inner index).map (Bracket.shift offset)

variable {α : Type}

def Node.shift (offset : Nat) (node : Node α) : Node α :=
  { node with toWires := node.toWires.shift offset }

variable [Step α]

/-- The node at `id` of a graph of `size` nodes behind which another graph stands: the last node, if
it is an ordinary step, goes on with that graph. -/
def Node.continued (size : Nat) (id : NodeId) (node : Node α) : Node α :=
  if id + 1 = size ∧ Step.role node.command = .ordinary then { node with next := some size }
  else node

/-- The graphs of two tests, one after the other. -/
def Graph.followedBy (front back : Graph α) : Graph α :=
  ⟨(if back.isEmpty then front.nodes else front.nodes.mapIdx (Node.continued front.size)) ++
    back.nodes.map (Node.shift front.size)⟩

end Definitions

variable {inner roles front back : List Role} {index offset target last : Nat}
variable {bracket : Bracket} {link : Link} {error : BuildError} {role : Role}

@[simp]
theorem Bracket.shift_block (offset : Nat) (bracket : Bracket) :
    (bracket.shift offset).block = bracket.block := rfl

@[simp]
theorem Bracket.shift_opener (offset : Nat) (bracket : Bracket) :
    (bracket.shift offset).opener = bracket.opener + offset := rfl

theorem Bracket.shift_injective (offset : Nat) : Function.Injective (Bracket.shift offset) := by
  rintro ⟨block, opener⟩ ⟨otherBlock, otherOpener⟩ heq
  simp only [Bracket.shift, Bracket.mk.injEq, Nat.add_right_cancel_iff] at heq
  rw [heq.1, heq.2]

theorem Link.wires_shift (offset : Nat) (link : Link) :
    (link.shift offset).wires = link.wires.shift offset := by
  cases link <;> rfl

@[simp]
theorem Link.shift_zero (link : Link) : link.shift 0 = link := by
  cases link <;> rfl

theorem Link.shift_next_succ (index offset : Nat) :
    (Link.next (index + 1)).shift offset = .next (index + offset + 1) := by
  rw [Link.shift, Nat.add_right_comm]

theorem Link.shift_branch_succ (left index offset : Nat) :
    (Link.branch left (index + 1)).shift offset = .branch (left + offset) (index + offset + 1) := by
  rw [Link.shift, Nat.add_right_comm]

theorem BuildError.shift_eq_renumber (offset : Nat) :
    BuildError.shift offset = BuildError.renumber (· + offset) := by
  funext error
  cases error <;> rfl

theorem BuildError.noticedAt_shift (size offset : Nat) (error : BuildError) :
    (error.shift offset).noticedAt (size + offset) = error.noticedAt size + offset := by
  cases error <;> rfl

/-! ## Where a test stands in another one -/

theorem Bracket.advance_shift (index offset : Nat) (role : Role) (brackets : List Bracket) :
    advance (index + offset) role (brackets.map (Bracket.shift offset)) =
      (advance index role brackets).map (Bracket.shift offset) :=
  advance_renumber (· + offset) index role brackets

/-- Where no bracket is open, a test is read as if it stood alone. -/
theorem embedded_of_closed (hrole : ∀ index, index < inner.length →
    roles[index + offset]? = inner[index]?) (hclosed : openBefore roles offset = []) :
    Embedded inner roles offset := by
  refine ⟨hrole _, fun {index} hindex => ?_⟩
  induction index with
  | zero => rw [Nat.zero_add, hclosed, openBefore_zero, List.map_nil]
  | succ index ih =>
      have hinner : inner[index]? = some inner[index] := List.getElem?_eq_getElem hindex
      have hroles : roles[index + offset]? = some inner[index] := (hrole index hindex).trans hinner
      rw [Nat.add_right_comm, openBefore_succ hroles, openBefore_succ hinner,
        ih (Nat.le_of_lt hindex), Bracket.advance_shift]

theorem embedded_front (front back : List Role) : Embedded front (front ++ back) 0 := by
  apply embedded_of_closed
  · intro index hindex
    rw [Nat.add_zero, List.getElem?_append_left hindex]
  · exact openBefore_zero _

theorem openBefore_append_of_le (back : List Role) (hindex : index ≤ front.length) :
    openBefore (front ++ back) index = openBefore front index := by
  have hbrackets := (embedded_front front back).brackets hindex
  have hid : Bracket.shift 0 = id := rfl
  rwa [hid, List.map_id] at hbrackets

theorem embedded_back (back : List Role) (hclosed : openBefore front front.length = []) :
    Embedded back (front ++ back) front.length := by
  apply embedded_of_closed
  · intro index hindex
    rw [List.getElem?_append_right (Nat.le_add_left _ _), Nat.add_sub_cancel]
  · rw [openBefore_append_of_le back (Nat.le_refl _), hclosed]

namespace Embedded

variable (hembedded : Embedded inner roles offset)

include hembedded

theorem role_eq_some (hrole : inner[index]? = some role) :
    roles[index + offset]? = some role :=
  (hembedded.role (List.getElem?_eq_some_iff.mp hrole).1).trans hrole

theorem lt_length (hindex : index < inner.length) : index + offset < roles.length :=
  (List.getElem?_eq_some_iff.mp
    (hembedded.role_eq_some (List.getElem?_eq_getElem hindex))).1

theorem innermost?_eq (hindex : index ≤ inner.length) :
    innermost? roles (index + offset) = (innermost? inner index).map (Bracket.shift offset) := by
  rw [innermost?, hembedded.brackets hindex, List.head?_map, innermost?]

theorem innermost?_eq_some_iff (hindex : index ≤ inner.length) :
    innermost? roles (index + offset) = some (bracket.shift offset) ↔
      innermost? inner index = some bracket := by
  rw [hembedded.innermost?_eq hindex, ← Option.map_some (f := Bracket.shift offset)]
  exact (Option.map_injective (Bracket.shift_injective offset)).eq_iff

theorem map_block_eq (hindex : index ≤ inner.length) :
    (innermost? roles (index + offset)).map Bracket.block =
      (innermost? inner index).map Bracket.block := by
  rw [hembedded.innermost?_eq hindex, Option.map_map]
  rfl

theorem closes_iff (hlast : last < inner.length) :
    Closes roles (bracket.shift offset) (last + offset) ↔ Closes inner bracket last := by
  rw [Closes, Closes, hembedded.role hlast, hembedded.innermost?_eq_some_iff (Nat.le_of_lt hlast)]

theorem closes (hcloses : Closes inner bracket last) :
    Closes roles (bracket.shift offset) (last + offset) :=
  (hembedded.closes_iff hcloses.lt_length).mpr hcloses

theorem marks_iff (hindex : index < inner.length) :
    Marks roles (bracket.shift offset) (index + offset) ↔ Marks inner bracket index := by
  rw [Marks, Marks, hembedded.closes_iff hindex, ArmOf, ArmOf, hembedded.role hindex,
    hembedded.innermost?_eq_some_iff (Nat.le_of_lt hindex)]

theorem chainGoesOn (hgoes : ChainGoesOn inner bracket index target) :
    ChainGoesOn roles (bracket.shift offset) (index + offset) (target + offset) := by
  have htarget := hgoes.marks.lt_length
  apply chainGoesOn_of_marks (Nat.add_lt_add_right hgoes.1 offset)
  · exact (hembedded.marks_iff htarget).mpr hgoes.marks
  · intro between hafter hbefore
    obtain ⟨position, rfl⟩ : ∃ position, between = position + offset :=
      ⟨between - offset, by omega⟩
    rw [hembedded.marks_iff (by omega)]
    exact hgoes.not_marks (by omega) (by omega)

theorem armsWithin_eq {first : Nat} (hlast : last ≤ inner.length) :
    armsWithin roles (first + offset) (last + offset) = armsWithin inner first last := by
  have hslice : (roles.take (last + offset)).drop (first + offset) =
      (inner.take last).drop first := by
    apply List.ext_getElem?
    intro position
    rw [List.getElem?_drop, List.getElem?_drop, List.getElem?_take, List.getElem?_take]
    by_cases hposition : first + position < last
    · rw [if_pos hposition, if_pos (by omega), Nat.add_right_comm,
        hembedded.role (Nat.lt_of_lt_of_le hposition hlast)]
    · rw [if_neg hposition, if_neg (by omega)]
  rw [armsWithin, armsWithin, hslice]

theorem levelAt_eq (hindex : index < inner.length) :
    levelAt roles (index + offset) = levelAt inner index :=
  levelAt_renumber (· + offset) (hembedded.role hindex)
    (hembedded.brackets (Nat.le_of_lt hindex))

theorem misfit?_eq (hindex : index ≤ inner.length) :
    misfit? roles (index + offset) role =
      (misfit? inner index role).map (BuildError.shift offset) := by
  rw [BuildError.shift_eq_renumber]
  exact misfit?_renumber (· + offset) (hembedded.brackets hindex)
    fun _ _ => hembedded.armsWithin_eq hindex

theorem fits_iff (hindex : index ≤ inner.length) :
    Fits roles (index + offset) role ↔ Fits inner index role := by
  rw [← misfit?_eq_none_iff, ← misfit?_eq_none_iff, hembedded.misfit?_eq hindex,
    Option.map_eq_none_iff]

theorem succ_lt_length (hnext : index + 1 < inner.length) : index + offset + 1 < roles.length := by
  have hlt := hembedded.lt_length hnext
  rwa [Nat.add_right_comm] at hlt

theorem coming_eq_some (hcoming : inner[index + 1]? = some role) :
    roles[index + offset + 1]? = some role := by
  have hroles := hembedded.role_eq_some hcoming
  rwa [Nat.add_right_comm] at hroles

theorem innermost?_eq_some (hindex : index < inner.length)
    (hinner : innermost? inner index = some bracket) :
    innermost? roles (index + offset) = some (bracket.shift offset) :=
  (hembedded.innermost?_eq_some_iff (Nat.le_of_lt hindex)).mpr hinner

theorem innermost?_succ_eq (hindex : index < inner.length) :
    innermost? roles (index + offset + 1) =
      (innermost? inner (index + 1)).map (Bracket.shift offset) := by
  rw [Nat.add_right_comm, hembedded.innermost?_eq hindex]

theorem innermost?_succ_eq_some (hindex : index < inner.length)
    (hinner : innermost? inner (index + 1) = some bracket) :
    innermost? roles (index + offset + 1) = some (bracket.shift offset) := by
  rw [hembedded.innermost?_succ_eq hindex, hinner, Option.map_some]

/-- A test that stands in another one has the same links there, except that its last command may go
on. -/
theorem linkRule (hrule : LinkRule inner index link) (hindex : index < inner.length)
    (hlast : index + 1 = inner.length → roles.length = inner.length + offset) :
    LinkRule roles (index + offset) (link.shift offset) := by
  cases hrule with
  | last hend =>
      refine .last ?_
      rw [hlast hend, ← hend, Nat.add_right_comm]
  | doBody hnext hrole =>
      rw [Link.shift_next_succ]
      exact .doBody (hembedded.succ_lt_length hnext) (hembedded.role_eq_some hrole)
  | elseBody hnext hrole =>
      rw [Link.shift_next_succ]
      exact .elseBody (hembedded.succ_lt_length hnext) (hembedded.role_eq_some hrole)
  | repeatIf hnext hrole =>
      rw [Link.shift_next_succ]
      exact .repeatIf (hembedded.succ_lt_length hnext) (hembedded.role_eq_some hrole)
  | ifTest hnext hrole hleft =>
      rw [Link.shift_branch_succ]
      exact .ifTest (hembedded.succ_lt_length hnext) (hembedded.role_eq_some hrole)
        (hembedded.chainGoesOn hleft)
  | elseIfTest hnext hrole hchain hleft =>
      rw [Link.shift_branch_succ]
      exact .elseIfTest (hembedded.succ_lt_length hnext) (hembedded.role_eq_some hrole)
        (hembedded.innermost?_eq_some hindex hchain) (hembedded.chainGoesOn hleft)
  | timesTest hnext hrole hclose =>
      rw [Link.shift_branch_succ]
      exact .timesTest (hembedded.succ_lt_length hnext) (hembedded.role_eq_some hrole)
        (hembedded.closes hclose)
  | whileTest hnext hrole hown hclose =>
      rw [Link.shift_branch_succ]
      refine .whileTest (hembedded.succ_lt_length hnext) (hembedded.role_eq_some hrole) ?_
        (hembedded.closes hclose)
      rwa [hembedded.map_block_eq (Nat.le_of_lt hindex)]
  | doTest hnext hrole hloop hdo hclose =>
      exact .doTest (hembedded.succ_lt_length hnext) (hembedded.role_eq_some hrole)
        (hembedded.innermost?_eq_some hindex hloop) hdo (hembedded.closes hclose)
  | outermostEnd hrole haround =>
      refine .outermostEnd (hembedded.role_eq_some hrole) ?_
      rw [hembedded.innermost?_succ_eq hindex, haround, Option.map_none]
  | endBeforeStep hrole haround hcoming =>
      rw [Link.shift_next_succ]
      exact .endBeforeStep (hembedded.role_eq_some hrole)
        (hembedded.innermost?_succ_eq_some hindex haround) (hembedded.coming_eq_some hcoming)
  | endBeforeKeyword hrole haround hcoming hkeyword hclose =>
      exact .endBeforeKeyword (hembedded.role_eq_some hrole)
        (hembedded.innermost?_succ_eq_some hindex haround) (hembedded.coming_eq_some hcoming)
        hkeyword (hembedded.closes hclose)
  | stepLeavesArm hrole hchain hif hcoming hmarker hclose =>
      exact .stepLeavesArm (hembedded.role_eq_some hrole)
        (hembedded.innermost?_eq_some hindex hchain) hif (hembedded.coming_eq_some hcoming) hmarker
        (hembedded.closes hclose)
  | stepRepeats hrole hloop hfirst hcoming hkeyword =>
      exact .stepRepeats (hembedded.role_eq_some hrole)
        (hembedded.innermost?_eq_some hindex hloop) hfirst (hembedded.coming_eq_some hcoming)
        hkeyword
  | stepContinues hrole hcoming hstays =>
      rw [Link.shift_next_succ]
      refine .stepContinues (hembedded.role_eq_some hrole) (hembedded.coming_eq_some hcoming) ?_
      intro around haround
      rw [hembedded.innermost?_eq (Nat.le_of_lt hindex), Option.map_eq_some_iff] at haround
      obtain ⟨own, hown, rfl⟩ := haround
      exact hstays own hown

end Embedded

/-! ## Faults of two tests -/

theorem fits_append {bound : Nat} (hfront : WellBracketed front)
    (hback : ∀ position role, position < bound → back[position]? = some role →
      Fits back position role)
    (hindex : index < bound + front.length) (hrole : (front ++ back)[index]? = some role) :
    Fits (front ++ back) index role := by
  by_cases hbefore : index < front.length
  · rw [List.getElem?_append_left hbefore] at hrole
    exact ((embedded_front front back).fits_iff (Nat.le_of_lt hbefore)).mpr
      (hfront.fits index role hrole)
  · obtain ⟨position, rfl⟩ : ∃ position, index = position + front.length :=
      ⟨index - front.length, by omega⟩
    rw [List.getElem?_append_right (Nat.le_add_left _ _), Nat.add_sub_cancel] at hrole
    have hposition := (List.getElem?_eq_some_iff.mp hrole).1
    exact ((embedded_back back hfront.closed).fits_iff (Nat.le_of_lt hposition)).mpr
      (hback position role (Nat.lt_of_add_lt_add_right hindex) hrole)

theorem WellBracketed.append (hfront : WellBracketed front) (hback : WellBracketed back) :
    WellBracketed (front ++ back) := by
  constructor
  · intro index role hrole
    have hindex := (List.getElem?_eq_some_iff.mp hrole).1
    rw [List.length_append, Nat.add_comm] at hindex
    exact fits_append hfront (fun position role _ => hback.fits position role) hindex hrole
  · rw [List.length_append, Nat.add_comm,
      (embedded_back back hfront.closed).brackets (Nat.le_refl _), hback.closed, List.map_nil]

/-- A fault of the second test is a fault of both together. -/
theorem Embedded.fault (hembedded : Embedded inner roles offset)
    (hlength : roles.length = inner.length + offset) (hfault : Fault inner error) :
    Fault roles (error.shift offset) := by
  rcases Nat.lt_or_eq_of_le hfault.noticedAt_le with hlt | hend
  · have hrole := List.getElem?_eq_getElem hlt
    have hmisfit := (misfit?_eq_some_iff hrole).mpr ⟨hfault, rfl⟩
    refine ((misfit?_eq_some_iff (hembedded.role_eq_some hrole)).mp ?_).1
    rw [hembedded.misfit?_eq (Nat.le_of_lt hlt), hmisfit, Option.map_some]
  · obtain ⟨bracket, hinner, rfl⟩ := hfault.eq_unclosedBlock hend
    refine fault_unclosedBlock_iff.mpr ⟨bracket.shift offset, ?_, rfl, rfl⟩
    rw [hlength, hembedded.innermost?_eq (Nat.le_refl _), hinner, Option.map_some]

/-! ## The last command of an accepted test -/

/-- An accepted test ends with a step outside every block or with the `end` of a block. -/
theorem WellBracketed.role_last (hwell : WellBracketed roles) (hlast : index + 1 = roles.length)
    (hrole : roles[index]? = some role) :
    role = .blockEnd ∨ role = .ordinary ∧ innermost? roles index = none := by
  have hclosed := hwell.closed
  have hfits := hwell.fits index role hrole
  rw [← hlast, openBefore_succ hrole] at hclosed
  cases role with
  | blockEnd => exact .inl rfl
  | ordinary =>
      rw [Bracket.advance] at hclosed
      exact .inr ⟨rfl, by rw [innermost?, hclosed, List.head?_nil]⟩
  | opening opener => cases hclosed
  | branchArm arm =>
      rw [Bracket.advance] at hclosed
      simp [Fits, innermost?, hclosed] at hfits
  | loopTest test =>
      cases test with
      | repeatIf =>
          rw [Bracket.advance] at hclosed
          simp [Fits, innermost?, hclosed] at hfits
      | whileTest =>
          rw [Bracket.advance] at hclosed
          split at hclosed
          next hdo =>
            rw [hclosed] at hdo
            cases hdo
          next => cases hclosed

section Commands

variable {α : Type} [Step α] {commands front back : List α} {command : α} {graph : Graph α}

theorem rolesOf_append (front back : List α) :
    rolesOf (front ++ back) = rolesOf front ++ rolesOf back :=
  List.map_append

@[simp]
theorem nodeAt_command (commands : List α) (index : Nat) (command : α) :
    (nodeAt commands index command).command = command := rfl

theorem WellBracketed.wiresAt_eq (hwell : WellBracketed (rolesOf commands))
    (hcommand : commands[index]? = some command) (hrule : LinkRule (rolesOf commands) index link) :
    wiresAt commands index = link.wires := by
  obtain ⟨other, hother, hwires⟩ := hwell.exists_linkRule hcommand
  rw [hwires, hrule.unique hother]

/-- The nodes of the second test are its own, only further on. -/
theorem nodeAt_append_right (hfront : WellBracketed (rolesOf front))
    (hback : WellBracketed (rolesOf back)) (hcommand : back[index]? = some command) :
    nodeAt (front ++ back) (index + front.length) command =
      (nodeAt back index command).shift front.length := by
  have hindex : index < (rolesOf back).length := by
    rw [length_rolesOf]
    exact (List.getElem?_eq_some_iff.mp hcommand).1
  have hembedded := embedded_back (rolesOf back) hfront.closed
  have hwell := hfront.append hback
  rw [← rolesOf_append, length_rolesOf] at hembedded
  rw [← rolesOf_append] at hwell
  obtain ⟨link, hrule, hwires⟩ := hback.exists_linkRule hcommand
  have hshifted := hembedded.linkRule hrule hindex fun _ => by
    simp [rolesOf_append, Nat.add_comm]
  have hcommandHere : (front ++ back)[index + front.length]? = some command := by
    rw [List.getElem?_append_right (Nat.le_add_left _ _), Nat.add_sub_cancel, hcommand]
  rw [nodeAt, nodeAt, hwell.wiresAt_eq hcommandHere hshifted, hembedded.levelAt_eq hindex,
    Node.shift, hwires, Link.wires_shift]

/-- Behind the first test, its last step goes on and nothing else changes. -/
theorem nodeAt_append_left (hfront : WellBracketed (rolesOf front))
    (hback : WellBracketed (rolesOf back)) (hnonempty : back ≠ [])
    (hcommand : front[index]? = some command) :
    nodeAt (front ++ back) index command =
      (nodeAt front index command).continued front.length index := by
  have hlt := (List.getElem?_eq_some_iff.mp hcommand).1
  have hindex : index < (rolesOf front).length := by rwa [length_rolesOf]
  have hrole := getElem?_rolesOf hcommand
  have hembedded := embedded_front (rolesOf front) (rolesOf back)
  have hwell := hfront.append hback
  rw [← rolesOf_append] at hembedded hwell
  have hcommandHere : (front ++ back)[index]? = some command := by
    rw [List.getElem?_append_left hlt, hcommand]
  have hroleHere := getElem?_rolesOf hcommandHere
  have hlevel : levelAt (rolesOf (front ++ back)) index = levelAt (rolesOf front) index :=
    hembedded.levelAt_eq hindex
  rw [Node.continued, nodeAt_command]
  by_cases hlast : index + 1 = front.length
  · have hunlinked := wiresAt_of_last hcommand hlast
    have hlastRole : index + 1 = (rolesOf front).length := by rw [hlast, length_rolesOf]
    rcases hfront.role_last hlastRole hrole with hend | ⟨hordinary, hinner⟩
    · have hrule : LinkRule (rolesOf (front ++ back)) index .terminal := by
        refine .outermostEnd (hend ▸ hroleHere) ?_
        rw [innermost?, rolesOf_append, openBefore_append_of_le _ (Nat.le_of_eq hlastRole),
          hlastRole, hfront.closed, List.head?_nil]
      rw [if_neg (by simp [hend]), nodeAt, nodeAt, hwell.wiresAt_eq hcommandHere hrule, hunlinked,
        hlevel]
      rfl
    · have hbehind : index + 1 < (front ++ back).length := by
        rw [hlast, List.length_append]
        exact Nat.lt_add_of_pos_right (List.length_pos_iff.mpr hnonempty)
      have hcoming := getElem?_rolesOf (List.getElem?_eq_getElem hbehind)
      have hinnerHere : innermost? (rolesOf (front ++ back)) index = none := by
        rw [innermost?, rolesOf_append, openBefore_append_of_le _ (Nat.le_of_lt hindex)]
        exact hinner
      have hrule : LinkRule (rolesOf (front ++ back)) index (.next (index + 1)) := by
        refine .stepContinues (hordinary ▸ hroleHere) hcoming ?_
        intro around haround
        rw [hinnerHere] at haround
        cases haround
      rw [if_pos ⟨hlast, hordinary⟩, nodeAt, nodeAt, hwell.wiresAt_eq hcommandHere hrule, hunlinked,
        hlevel, hlast]
      rfl
  · obtain ⟨link, hrule, hwires⟩ := hfront.exists_linkRule hcommand
    have hruleHere := hembedded.linkRule hrule hindex fun hend =>
      absurd (hend.trans (length_rolesOf front)) hlast
    rw [Link.shift_zero, Nat.add_zero] at hruleHere
    rw [if_neg (fun hboth => hlast hboth.1), nodeAt, nodeAt,
      hwell.wiresAt_eq hcommandHere hruleHere, hwires, hlevel]

/-- The graph of both tests is made of the graphs of each. -/
theorem graph_append (hfront : WellBracketed (rolesOf front))
    (hback : WellBracketed (rolesOf back)) :
    (⟨(front ++ back).mapIdx (nodeAt (front ++ back))⟩ : Graph α) =
      Graph.followedBy ⟨front.mapIdx (nodeAt front)⟩ ⟨back.mapIdx (nodeAt back)⟩ := by
  have hbehind : back.mapIdx (fun index => nodeAt (front ++ back) (index + front.length)) =
      (back.mapIdx (nodeAt back)).map (Node.shift front.length) := by
    apply List.ext_getElem?
    intro index
    rw [List.getElem?_map, List.getElem?_mapIdx, List.getElem?_mapIdx, Option.map_map]
    exact Option.map_congr fun command hcommand => nodeAt_append_right hfront hback hcommand
  by_cases hempty : back = []
  · subst hempty
    simp [Graph.followedBy, Graph.isEmpty]
  · have hbefore : front.mapIdx (nodeAt (front ++ back)) =
        (front.mapIdx (nodeAt front)).mapIdx (Node.continued front.length) := by
      rw [List.mapIdx_mapIdx, List.mapIdx_eq_mapIdx_iff]
      intro index hindex
      exact nodeAt_append_left hfront hback hempty (List.getElem?_eq_getElem hindex)
    rw [List.mapIdx_append, hbefore, hbehind, Graph.followedBy, Graph.size, List.length_mapIdx,
      if_neg (by simpa [Graph.isEmpty] using hempty)]

/-- The second of two tests decides whether both together are accepted: its error is reported, only
further on, or its graph is added behind that of the first. -/
theorem build?_append (hfront : Graph.build? front = .ok graph) (back : List α) :
    Graph.build? (front ++ back) =
      match Graph.build? back with
      | .error error => .error (error.shift front.length)
      | .ok later => .ok (graph.followedBy later) := by
  obtain ⟨hfrontWell, rfl⟩ := build?_eq_ok_iff.mp hfront
  cases hback : Graph.build? back with
  | ok later =>
      obtain ⟨hbackWell, rfl⟩ := build?_eq_ok_iff.mp hback
      refine build?_eq_ok_iff.mpr ⟨?_, (graph_append hfrontWell hbackWell).symm⟩
      rw [rolesOf_append]
      exact hfrontWell.append hbackWell
  | error error =>
      obtain ⟨hfault, hfirst⟩ := build?_eq_error_iff.mp hback
      have hembedded := embedded_back (rolesOf back) hfrontWell.closed
      rw [length_rolesOf] at hembedded
      refine build?_eq_error_iff.mpr ⟨?_, fun other hother => ?_⟩
      · rw [rolesOf_append]
        exact hembedded.fault (by simp [Nat.add_comm]) hfault
      -- Everything fits up to the error of the second test, so nothing is noticed before it.
      · have hle := hfault.noticedAt_le
        rw [length_rolesOf] at hle
        rw [rolesOf_append] at hother
        have hlater : error.noticedAt back.length + (rolesOf front).length ≤ _ :=
          hother.le_noticedAt (by simp [Nat.add_comm, hle]) fun position role hposition =>
            fits_append hfrontWell (fun _ _ => fits_of_forall_fault (by simpa using hfirst))
              hposition
        rw [List.length_append, Nat.add_comm, BuildError.noticedAt_shift]
        simpa [Nat.add_comm] using hlater

/-- A test that ends with a step is followed by a loop, and by a loop that is never closed. -/
theorem sample_build?_append :
    Graph.build? ["if", "a", "end", "b"] = .ok (Graph.ofOutline (leveled ["if", "a", "end", "b"])) ∧
      Graph.build? ["if", "a", "end", "b", "while", "c", "end"] =
        .ok ((Graph.ofOutline (leveled ["if", "a", "end", "b"])).followedBy
          (Graph.ofOutline (leveled ["while", "c", "end"]))) ∧
      Graph.build? ["if", "a", "end", "b", "c", "while"] =
        .error (.unclosedBlock .whileWord 5) := by
  have hfront : Graph.build? ["if", "a", "end", "b"] =
      .ok (Graph.ofOutline (leveled ["if", "a", "end", "b"])) := rfl
  exact ⟨hfront, build?_append hfront ["while", "c", "end"], build?_append hfront ["c", "while"]⟩

end Commands

end StepFlow
