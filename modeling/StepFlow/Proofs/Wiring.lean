import StepFlow.Proofs.Concatenation
import StepFlow.Proofs.Exit

/-!
# Wiring

A node stores three pointers, each of which may be missing, and a run sees them through the link,
which shows at most two of them and shows none that stands alone on one side of a branch.  In a
built graph nothing gets lost between the two: the pointers always have one of the three shapes that
a link can show, they stay inside the graph, and the name of a command tells which of the shapes its
node has.  Main statement: `built_wiring_is_well_formed`.
-/

namespace StepFlow

section Definitions

/-- One of the pointers leads to `id`. -/
def Wires.LeadTo (wires : Wires) (id : NodeId) : Prop :=
  wires.next = some id ∨ wires.left = some id ∨ wires.right = some id

/-- The pointers of a node in a graph of `size` nodes have a shape that the link shows in full. -/
structure Wires.WellFormed (size : Nat) (wires : Wires) : Prop where
  next_alone : wires.next.isSome → wires.left = none ∧ wires.right = none
  left_iff_right : wires.left.isSome ↔ wires.right.isSome
  inside : ∀ id, wires.LeadTo id → id < size
  shown : ∀ id, id ∈ wires.link.targets ↔ wires.LeadTo id

/-- A run evaluates a condition at a command with this role. -/
def Role.hasCondition : Role → Bool
  | opening .ifBlock | opening .timesLoop | branchArm .elseIf | loopTest .whileTest => true
  | _ => false

end Definitions

/-! ## Pointers and links -/

section Pointers

variable {α : Type} {graph : Graph α} {roles : List Role} {index : Nat} {link : Link}

theorem Link.mem_targets_iff (link : Link) (id : NodeId) :
    id ∈ link.targets ↔ link.wires.LeadTo id := by
  cases link with
  | next target => simp [targets, wires, Wires.continuing, Wires.LeadTo, eq_comm]
  | branch left right =>
      simp [targets, wires, Wires.branching, Wires.LeadTo, eq_comm, or_comm]
  | terminal => simp [targets, wires, Wires.LeadTo]

/-- The pointers that have exactly one link are well-formed wherever that link leads inside. -/
theorem Link.wellFormed_wires {size : Nat} (hinside : ∀ target ∈ link.targets, target < size) :
    link.wires.WellFormed size where
  next_alone := by cases link <;> simp [wires, Wires.continuing, Wires.branching]
  left_iff_right := by cases link <;> simp [wires, Wires.continuing, Wires.branching]
  inside id hlead := hinside id ((link.mem_targets_iff id).mpr hlead)
  shown id := by rw [link.link_wires, link.mem_targets_iff]

/-- Following a pointer that leads inside the graph reaches the node it names, and following no
pointer reaches nothing. -/
theorem map_id_bind_cursor? {pointer : Option NodeId}
    (hinside : ∀ id, pointer = some id → id < graph.size) :
    (pointer.bind graph.cursor?).map Cursor.id = pointer := by
  cases pointer with
  | none => rfl
  | some id => simp [Graph.cursor?, hinside id rfl]

theorem Cursor.node?_id (cursor : Cursor graph) : graph.node? cursor.id = some cursor.node :=
  List.getElem?_eq_getElem cursor.inside

theorem Wires.WellFormed.map_id_follow {cursor : Cursor graph}
    (hwires : cursor.node.WellFormed graph.size) :
    cursor.next?.map Cursor.id = cursor.node.next ∧
      cursor.left?.map Cursor.id = cursor.node.left ∧
      cursor.right?.map Cursor.id = cursor.node.right := by
  refine ⟨map_id_bind_cursor? ?_, map_id_bind_cursor? ?_, map_id_bind_cursor? ?_⟩
  · exact fun id hnext => hwires.inside id (.inl hnext)
  · exact fun id hleft => hwires.inside id (.inr (.inl hleft))
  · exact fun id hright => hwires.inside id (.inr (.inr hright))

/-! ## The shape of a link -/

/-- A run chooses exactly at the commands that have a condition. -/
theorem LinkRule.branch_iff {role : Role} (hrule : LinkRule roles index link)
    (hwell : WellBracketed roles) (hrole : roles[index]? = some role) :
    (∃ left right, link = .branch left right) ↔ role.hasCondition = true := by
  cases hrule with
  | last hlast =>
      -- An accepted test does not end with a condition.
      rcases hwell.role_last hlast hrole with rfl | ⟨rfl, _⟩ <;> simp [Role.hasCondition]
  | doBody _ hroleAt | elseBody _ hroleAt | repeatIf _ hroleAt
  | outermostEnd hroleAt | endBeforeStep hroleAt | endBeforeKeyword hroleAt
  | stepLeavesArm hroleAt | stepRepeats hroleAt | stepContinues hroleAt
  | ifTest _ hroleAt | elseIfTest _ hroleAt | timesTest _ hroleAt | whileTest _ hroleAt
  | doTest _ hroleAt =>
      rw [hrole, Option.some_inj] at hroleAt
      simp [hroleAt, Role.hasCondition]

/-- A run stops exactly at the last command and wherever an `end` closes the last open block. -/
theorem LinkRule.terminal_iff (hrule : LinkRule roles index link) :
    link = .terminal ↔ index + 1 = roles.length ∨ ClosesAll roles index := by
  constructor
  · rintro rfl
    cases hrule with
    | last hlast => exact .inl hlast
    | outermostEnd hrole haround => exact .inr ⟨hrole, List.head?_eq_none_iff.mp haround⟩
  · rintro (hlast | ⟨hrole, hclosed⟩)
    · exact hrule.unique (.last hlast)
    · exact hrule.unique (.outermostEnd hrole (by rw [innermost?, hclosed, List.head?_nil]))

theorem Link.exists_next_iff (link : Link) :
    (∃ target, link = .next target) ↔
      ¬(∃ left right, link = .branch left right) ∧ link ≠ .terminal := by
  cases link <;> simp

end Pointers

/-! ## Roles by name -/

theorem Role.ofName_eq_role_iff {name : String} {keyword : Keyword} :
    Role.ofName name = keyword.role ↔ name = keyword.name := by
  constructor
  · intro hrole
    have hkeyword := congrArg Role.keyword? hrole
    rw [Role.keyword?_ofName, Role.keyword?_role] at hkeyword
    exact (Keyword.name_of_ofName?_eq_some hkeyword).symm
  · rintro rfl
    exact Role.ofName_name keyword

theorem Role.hasCondition_iff {role : Role} :
    role.hasCondition = true ↔
      role ∈ [Keyword.ifWord, .elseIfWord, .whileWord, .timesWord].map Keyword.role := by
  cases role with
  | opening opener => cases opener <;> decide
  | branchArm arm => cases arm <;> decide
  | loopTest test => cases test <;> decide
  | blockEnd | ordinary => decide

section Built

variable {α : Type} [Step α] {commands : List α} {graph : Graph α}

theorem hasCondition_role_iff {command : α} :
    (Step.role command).hasCondition = true ↔
      Step.name command ∈ ["if", "elseIf", "while", "times"] := by
  rw [Role.hasCondition_iff, Step.role]
  simp [Role.ofName_eq_role_iff, Keyword.name]

theorem isEnd_role_iff {command : α} :
    (Step.role command).isEnd = true ↔ Step.name command = "end" := by
  have hend : (Step.role command).isEnd = true ↔ Step.role command = Keyword.endWord.role := by
    cases Step.role command <;> simp [Role.isEnd, Keyword.role]
  rw [hend, Step.role, Role.ofName_eq_role_iff]
  rfl

theorem map_command_of_build? (hbuild : Graph.build? commands = .ok graph) :
    graph.nodes.map Node.command = commands := by
  obtain ⟨_, rfl⟩ := build?_eq_ok_iff.mp hbuild
  apply List.ext_getElem?
  intro index
  rw [List.getElem?_map, List.getElem?_mapIdx, Option.map_map]
  exact Option.map_id'

/-- The pointers of a node in a built graph are those of its link and no others. -/
theorem toWires_of_node? {node : Node α} {index : Nat} (hbuild : Graph.build? commands = .ok graph)
    (hnode : graph.node? index = some node) : node.toWires = node.link.wires := by
  obtain ⟨command, hcommand, rfl⟩ := exists_command_of_node? hbuild hnode
  obtain ⟨link, _, hwires⟩ := (build?_eq_ok_iff.mp hbuild).1.exists_linkRule hcommand
  change wiresAt commands index = (wiresAt commands index).link.wires
  rw [hwires, link.link_wires]

theorem wellFormed_wires_of_node? {node : Node α} {index : Nat}
    (hbuild : Graph.build? commands = .ok graph) (hnode : graph.node? index = some node) :
    node.WellFormed commands.length := by
  obtain ⟨command, hcommand, _⟩ := exists_command_of_node? hbuild hnode
  have hindex : index < (rolesOf commands).length := by
    rw [length_rolesOf]
    exact (List.getElem?_eq_some_iff.mp hcommand).1
  rw [toWires_of_node? hbuild hnode, ← length_rolesOf commands]
  apply Link.wellFormed_wires
  exact fun target htarget => ((linkRule_of_node? hbuild hnode).hop htarget).lt_length hindex

/-- The graph of an accepted test has one node for each command, in order.  The pointers of every
node are well-formed, so following a pointer reaches a node exactly if the pointer is stored.  A
node is a branch if its command is an `if`, `elseIf`, `while` or `times`, it is terminal if it is
the last one or an `end` at the outermost level, and otherwise it has a single way on. -/
theorem built_wiring_is_well_formed (hbuild : Graph.build? commands = .ok graph) :
    graph.size = commands.length ∧ graph.nodes.map Node.command = commands ∧
      ∀ cursor : Cursor graph,
        cursor.node.WellFormed commands.length ∧
        (cursor.next?.map Cursor.id = cursor.node.next ∧
          cursor.left?.map Cursor.id = cursor.node.left ∧
          cursor.right?.map Cursor.id = cursor.node.right) ∧
        ((∃ left right, cursor.link = .branch left right) ↔
          Step.name cursor.node.command ∈ ["if", "elseIf", "while", "times"]) ∧
        (cursor.link = .terminal ↔
          cursor.id + 1 = commands.length ∨
            cursor.node.level = 0 ∧ Step.name cursor.node.command = "end") ∧
        ((∃ target, cursor.link = .next target) ↔
          Step.name cursor.node.command ∉ ["if", "elseIf", "while", "times"] ∧
            ¬(cursor.id + 1 = commands.length ∨
              cursor.node.level = 0 ∧ Step.name cursor.node.command = "end")) := by
  refine ⟨size_of_build? hbuild, map_command_of_build? hbuild, fun cursor => ?_⟩
  have hnode := cursor.node?_id
  have hwires := wellFormed_wires_of_node? hbuild hnode
  have hrule := linkRule_of_node? hbuild hnode
  have hrole : (rolesOf commands)[cursor.id]? = some (Step.role cursor.node.command) := by
    obtain ⟨command, hcommand, heq⟩ := exists_command_of_node? hbuild hnode
    rw [heq]
    exact getElem?_rolesOf hcommand
  have hbranch : (∃ left right, cursor.link = .branch left right) ↔
      Step.name cursor.node.command ∈ ["if", "elseIf", "while", "times"] := by
    rw [← hasCondition_role_iff]
    exact hrule.branch_iff (build?_eq_ok_iff.mp hbuild).1 hrole
  have hterminal : cursor.link = .terminal ↔ cursor.id + 1 = commands.length ∨
      cursor.node.level = 0 ∧ Step.name cursor.node.command = "end" := by
    have hcloses := closesAll_iff_of_node? hbuild hnode
    rw [Bool.and_eq_true, beq_iff_eq, isEnd_role_iff] at hcloses
    rw [hcloses, ← length_rolesOf commands]
    exact hrule.terminal_iff
  refine ⟨hwires, ?_, hbranch, hterminal, ?_⟩
  · rw [← size_of_build? hbuild] at hwires
    exact hwires.map_id_follow
  · rw [Link.exists_next_iff, hbranch, Ne, hterminal]

/-- In the sample, the `while` inside the `do` is a branch and the `end` behind it is not. -/
theorem sample_wiring_is_well_formed :
    Graph.build? sampleTest = .ok sampleGraph ∧
      (∀ cursor : Cursor sampleGraph, cursor.node.WellFormed 12) ∧
      ∃ test closing : Cursor sampleGraph, test.id = 6 ∧ closing.id = 7 ∧
        (∃ left right, test.link = .branch left right) ∧ ∃ target, closing.link = .next target := by
  have hbuild : Graph.build? sampleTest = .ok sampleGraph := rfl
  obtain ⟨_, _, hnodes⟩ := built_wiring_is_well_formed hbuild
  obtain ⟨_, _, hbranch, _⟩ := hnodes ⟨6, by decide⟩
  obtain ⟨_, _, _, _, hnext⟩ := hnodes ⟨7, by decide⟩
  exact ⟨hbuild, fun cursor => (hnodes cursor).1, _, _, rfl, rfl, hbranch.mpr (by decide),
    hnext.mpr (by decide)⟩

end Built

end StepFlow
