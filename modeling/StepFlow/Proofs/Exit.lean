import StepFlow.Proofs.Finishing

/-!
# Where a run stops

A link does not lead over a place where no block is open, and the `end` of a block that no other
block encloses leads nowhere.  So no run gets past the first such `end`, and a run of a test that
has none stops at the last command.  Whatever is recorded behind that place is never run.
-/

namespace StepFlow

/-- The place where a run from the first node stops: the first `end` at the outermost level, or the
last node if there is none. -/
def Graph.exit {α : Type} [Step α] (graph : Graph α) : NodeId :=
  (graph.nodes.findIdx? fun node => node.level == 0 && (Step.role node.command).isEnd).getD
    (graph.size - 1)

/-- The command at `index` closes the last open block. -/
def ClosesAll (roles : List Role) (index : Nat) : Prop :=
  roles[index]? = some .blockEnd ∧ openBefore roles (index + 1) = []

/-- Up to `exit` the blocks never close all, and there they do or the test is over. -/
structure IsExit (roles : List Role) (exit : Nat) : Prop where
  inside : exit < roles.length
  stops : ClosesAll roles exit ∨ exit + 1 = roles.length
  first : ∀ earlier, earlier < exit → ¬ClosesAll roles earlier

section Rule

variable {roles : List Role} {source target place exit index : Nat} {link : Link}

theorem IsExit.openBefore_succ_eq_nil (hexit : IsExit roles exit) (hwell : WellBracketed roles) :
    openBefore roles (exit + 1) = [] := by
  rcases hexit.stops with hcloses | hend
  · exact hcloses.2
  · rw [hend, hwell.closed]

theorem IsExit.terminal (hexit : IsExit roles exit) : LinkRule roles exit .terminal := by
  rcases hexit.stops with ⟨hrole, hclosed⟩ | hend
  · exact .outermostEnd hrole (by rw [innermost?, hclosed, List.head?_nil])
  · exact .last hend

theorem IsExit.eq_of_terminal (hexit : IsExit roles exit) (hrule : LinkRule roles place .terminal)
    (hle : place ≤ exit) : place = exit := by
  refine Nat.le_antisymm hle (Nat.le_of_not_lt fun hbefore => ?_)
  cases hrule with
  | last hend =>
      have hinside := hexit.inside
      omega
  | outermostEnd hrole haround =>
      exact hexit.first place hbefore ⟨hrole, List.head?_eq_none_iff.mp haround⟩

/-- No link leads over a place behind which no block is open. -/
theorem Hop.le_of_openBefore_eq_nil (hhop : Hop roles source target)
    (hclosed : openBefore roles (place + 1) = []) (hbefore : source < place) : target ≤ place := by
  cases hhop with
  | onward hnext => exact hbefore
  | back hloop hstays =>
      have hlt := opener_lt_of_mem (mem_openBefore_of_innermost hloop)
      omega
  | @ahead around _ haround hmarks hlt =>
      refine Nat.le_of_not_lt fun hover => ?_
      have hopener := opener_lt_of_mem (mem_openBefore_of_innermost haround)
      have hopen := mem_openBefore_of_le (mem_openBefore_of_innermost hmarks.innermost)
        (hopener.trans (Nat.succ_lt_succ hbefore)) hover
      rw [hclosed] at hopen
      contradiction

theorem levelAt_eq_zero_iff (hwell : WellBracketed roles)
    (hrole : roles[index]? = some .blockEnd) :
    levelAt roles index = 0 ↔ openBefore roles (index + 1) = [] := by
  obtain ⟨bracket, hinner, _⟩ := hwell.fits index _ hrole
  have hcloses : Closes roles bracket index := ⟨hrole, hinner⟩
  rw [levelAt_of_closes hcloses, hcloses.openBefore_succ_eq, List.length_eq_zero_iff]

end Rule

section Built

variable {α : Type} [Step α] {commands : List α} {graph : Graph α} {source target index : Nat}

theorem closesAll_iff_of_node? {node : Node α} (hbuild : Graph.build? commands = .ok graph)
    (hnode : graph.node? index = some node) :
    (node.level == 0 && (Step.role node.command).isEnd) = true ↔
      ClosesAll (rolesOf commands) index := by
  obtain ⟨command, hcommand, rfl⟩ := exists_command_of_node? hbuild hnode
  have hrole := getElem?_rolesOf hcommand
  rw [Bool.and_eq_true, beq_iff_eq, ClosesAll, hrole, Option.some_inj]
  change levelAt (rolesOf commands) index = 0 ∧ (Step.role command).isEnd = true ↔ _
  cases hkind : Step.role command with
  | blockEnd =>
      rw [hkind] at hrole
      simp [levelAt_eq_zero_iff (build?_eq_ok_iff.mp hbuild).1 hrole, Role.isEnd]
  | opening | branchArm | loopTest | ordinary => simp [Role.isEnd]

/-- The place that the levels of the nodes show is the place that the brackets show. -/
theorem isExit_exit (hbuild : Graph.build? commands = .ok graph) (hnonempty : commands ≠ []) :
    IsExit (rolesOf commands) graph.exit := by
  have hsize := size_of_build? hbuild
  have hpos := List.length_pos_iff.mpr hnonempty
  unfold Graph.exit
  cases hfind : graph.nodes.findIdx? fun node =>
      node.level == 0 && (Step.role node.command).isEnd with
  | some found =>
      obtain ⟨hlt, hfound, hfirst⟩ := List.findIdx?_eq_some_iff_getElem.mp hfind
      refine ⟨?_, .inl ?_, fun earlier hearlier hcloses => ?_⟩
      · rwa [length_rolesOf, ← hsize]
      · exact (closesAll_iff_of_node? hbuild (List.getElem?_eq_getElem hlt)).mp hfound
      · refine hfirst earlier hearlier ?_
        exact (closesAll_iff_of_node? hbuild (List.getElem?_eq_getElem _)).mpr hcloses
  | none =>
      rw [List.findIdx?_eq_none_iff] at hfind
      rw [Option.getD_none, hsize]
      refine ⟨?_, .inr ?_, fun earlier hearlier hcloses => ?_⟩
      · rw [length_rolesOf]
        omega
      · rw [length_rolesOf]
        omega
      · have hlt : earlier < graph.nodes.length := by
          rw [← Graph.size, hsize]
          omega
        have hnode : graph.node? earlier = some graph.nodes[earlier] := List.getElem?_eq_getElem hlt
        have hfound := (closesAll_iff_of_node? hbuild hnode).mpr hcloses
        rw [hfind _ (List.getElem_mem hlt)] at hfound
        contradiction

theorem node_of_exit (hbuild : Graph.build? commands = .ok graph) (hnonempty : commands ≠ []) :
    ∃ node, graph.node? graph.exit = some node ∧ node.link = .terminal := by
  have hexit := isExit_exit hbuild hnonempty
  have hinside : graph.exit < commands.length := length_rolesOf commands ▸ hexit.inside
  have hnode := node?_of_build? hbuild (List.getElem?_eq_getElem hinside)
  exact ⟨_, hnode, (linkRule_of_node? hbuild hnode).unique hexit.terminal⟩

theorem isExit_of_node? {node : Node α} (hbuild : Graph.build? commands = .ok graph)
    (hnode : graph.node? index = some node) : IsExit (rolesOf commands) graph.exit := by
  obtain ⟨command, hcommand, _⟩ := exists_command_of_node? hbuild hnode
  exact isExit_exit hbuild (List.ne_nil_of_mem (List.mem_of_getElem? hcommand))

theorem eq_exit_of_terminal {node : Node α} (hbuild : Graph.build? commands = .ok graph)
    (hnode : graph.node? index = some node) (hlink : node.link = .terminal)
    (hle : index ≤ graph.exit) : index = graph.exit :=
  (isExit_of_node? hbuild hnode).eq_of_terminal (hlink ▸ linkRule_of_node? hbuild hnode) hle

/-- No step of a run gets past the exit. -/
theorem Graph.Leads.le_exit (hleads : graph.Leads source target)
    (hbuild : Graph.build? commands = .ok graph) (hle : source ≤ graph.exit) :
    target ≤ graph.exit := by
  obtain ⟨node, hnode, htarget⟩ := hleads
  have hrule := linkRule_of_node? hbuild hnode
  have hexit := isExit_of_node? hbuild hnode
  rcases Nat.eq_or_lt_of_le hle with rfl | hbefore
  · rw [hrule.unique hexit.terminal] at htarget
    cases htarget
  · exact (hrule.hop htarget).le_of_openBefore_eq_nil
      (hexit.openBefore_succ_eq_nil (build?_eq_ok_iff.mp hbuild).1) hbefore

theorem Graph.IsRun.le_exit {visited : List NodeId} {time place : Nat} (hrun : graph.IsRun visited)
    (hbuild : Graph.build? commands = .ok graph) (hplace : visited[time]? = some place) :
    place ≤ graph.exit := by
  induction time generalizing place with
  | zero =>
      rw [hrun.starts, Option.some_inj] at hplace
      exact hplace ▸ Nat.zero_le _
  | succ time ih =>
      obtain ⟨before, hbefore, hleads⟩ := exists_before_of_succ hrun.follows hplace
      exact hleads.le_exit hbuild (ih hbefore)

theorem Graph.ExitWalk.getLast?_eq_exit {trace : List NodeId} (hwalk : graph.ExitWalk source trace)
    (hbuild : Graph.build? commands = .ok graph) (hle : source ≤ graph.exit) :
    trace.getLast? = some graph.exit := by
  induction hwalk with
  | stops hnode hlink => rw [List.getLast?_singleton, eq_exit_of_terminal hbuild hnode hlink hle]
  | goes hnode hexit hlater ih =>
      have hleads := leads_of_exit? hnode hexit
      rw [List.getLast?_cons, ih (hleads.le_exit hbuild hle), Option.getD_some]

/-- A run visits nothing behind the first `end` at the outermost level, or behind the last command
if there is no such `end`; that is the only place where it can stop, and by going left at every
branch it does stop there. -/
theorem runs_stop_at_exit (hbuild : Graph.build? commands = .ok graph) (hnonempty : commands ≠ []) :
    (∃ node, graph.node? graph.exit = some node ∧ node.link = .terminal) ∧
      (∀ visited, graph.IsRun visited → ∀ place ∈ visited, place ≤ graph.exit ∧
        ∀ node, graph.node? place = some node → node.link = .terminal → place = graph.exit) ∧
      ∃ trace, graph.play (2 * commands.length) graph.entry?
          (List.replicate (2 * commands.length) .left) = (trace, .finished) ∧
        trace.getLast? = some graph.exit := by
  refine ⟨node_of_exit hbuild hnonempty, ?_, ?_⟩
  · intro visited hrun place hmem
    obtain ⟨time, hplace⟩ := List.mem_iff_getElem?.mp hmem
    have hle := hrun.le_exit hbuild hplace
    exact ⟨hle, fun node hnode hlink => eq_exit_of_terminal hbuild hnode hlink hle⟩
  · obtain ⟨trace, hwalk, hlength⟩ := exists_exitWalk hbuild (List.length_pos_iff.mpr hnonempty)
    exact ⟨trace, hwalk.play _ _ hlength hlength, hwalk.getLast?_eq_exit hbuild (Nat.zero_le _)⟩

/-- A step behind a closed block is never run. -/
theorem sample_runs_stop_at_exit :
    ∃ graph : Graph String, Graph.build? ["if", "a", "end", "b"] = .ok graph ∧ graph.exit = 2 ∧
      ∀ visited, graph.IsRun visited → 3 ∉ visited := by
  have hbuild : Graph.build? ["if", "a", "end", "b"] =
      .ok (Graph.ofOutline (leveled ["if", "a", "end", "b"])) := rfl
  obtain ⟨_, hruns, _⟩ := runs_stop_at_exit hbuild (List.cons_ne_nil _ _)
  refine ⟨_, hbuild, rfl, fun visited hrun hmem => ?_⟩
  obtain ⟨hle, _⟩ := hruns visited hrun 3 hmem
  exact absurd hle (by decide)

end Built

end StepFlow
