import Mathlib.Logic.Relation
import StepFlow.Proofs.Repeats
import StepFlow.Proofs.Routes

/-!
# Every run can finish

A run that goes left at every branch moves on through the test, except that a step at the end of a
`while` or `times` leads back to the test of the loop.  The left link of that test is the `end` of
the loop, which lies behind the step.  Hence two visits are enough to move on by at least one
command, and a run that goes left stops after at most twice as many visits as there are commands.
-/

namespace StepFlow

/-- The link that a run follows if it goes left at every branch. -/
def Link.exit? : Link → Option NodeId
  | .next target => some target
  | .branch left _ => some left
  | .terminal => none

/-- A run that starts at `source` and goes left at every branch visits these nodes and stops. -/
inductive Graph.ExitWalk {α : Type} (graph : Graph α) : NodeId → List NodeId → Prop
  | stops {source : NodeId} {node : Node α} (hnode : graph.node? source = some node)
      (hlink : node.link = .terminal) : ExitWalk graph source [source]
  | goes {source target : NodeId} {node : Node α} {later : List NodeId}
      (hnode : graph.node? source = some node) (hexit : node.link.exit? = some target)
      (hlater : ExitWalk graph target later) : ExitWalk graph source (source :: later)

/-- The only way on from `source` is to `target`. -/
def Graph.Continues {α : Type} (graph : Graph α) (source target : NodeId) : Prop :=
  ∃ node, graph.node? source = some node ∧ node.link = .next target

section Rule

variable {roles : List Role} {source target last : Nat} {loop block : Bracket} {link : Link}

theorem Link.exit?_mem_targets (hexit : link.exit? = some target) : target ∈ link.targets := by
  cases link <;> simp_all [Link.exit?, Link.targets]

/-- Going left leads onward, unless a step repeats a loop that is tested first. -/
theorem LinkRule.exit_cases (hrule : LinkRule roles source link)
    (hexit : link.exit? = some target) :
    source < target ∨
      ∃ loop, innermost? roles source = some loop ∧ innermost? roles (source + 1) = some loop ∧
        loop.block.testsFirst ∧ target = loop.opener := by
  rcases hrule.lt_or_repeats (Link.exit?_mem_targets hexit) with honward | hrepeats
  · exact .inl honward
  · cases hrepeats with
    | step hrole hloop hfirst hcoming hkeyword =>
        have hstays := (innermost?_succ_of_ordinary hrole).trans hloop
        exact .inr ⟨_, hloop, hstays, hfirst, rfl⟩
    -- The `while` of a `do` goes right to the `do`, and left to its `end`.
    | test hrole hloop hdo hlast =>
        exact absurd (Option.some_inj.mp hexit) (Nat.ne_of_gt hlast.opener_lt)

/-- Inside a block only its `end` can be a place where a run stops. -/
theorem LinkRule.eq_last_of_terminal (hrule : LinkRule roles source .terminal)
    (hlast : Closes roles block last) (hinside : block.Holds last source) : source = last := by
  by_contra hne
  have hbefore : source < last := Nat.lt_of_le_of_ne hinside.2 hne
  have hopen := hlast.mem_openBefore_iff.mpr ⟨Nat.lt_succ_of_le hinside.1, hbefore⟩
  cases hrule with
  | last hend =>
      have hlength := hlast.lt_length
      omega
  | outermostEnd hrole haround =>
      rw [innermost?, List.head?_eq_none_iff] at haround
      rw [haround] at hopen
      contradiction

end Rule

section Walks

variable {α : Type} {graph : Graph α} {source : Nat} {trace : List NodeId}

theorem leads_of_exit? {node : Node α} {target : Nat} (hnode : graph.node? source = some node)
    (hexit : node.link.exit? = some target) : graph.Leads source target :=
  ⟨node, hnode, Link.exit?_mem_targets hexit⟩

/-- The walk that goes left is the route of a run with enough left choices. -/
theorem Graph.ExitWalk.route (hwalk : graph.ExitWalk source trace) :
    ∀ count, trace.length ≤ count →
      graph.Route source (List.replicate count .left) trace .finished := by
  induction hwalk with
  | stops hnode hlink => exact fun count _ => .finishes hnode hlink
  | @goes source target node later hnode hexit hlater ih =>
      intro count hcount
      rw [List.length_cons] at hcount
      cases hlink : node.link with
      | terminal =>
          rw [hlink] at hexit
          cases hexit
      | next onward =>
          rw [hlink, Link.exit?, Option.some_inj] at hexit
          exact .continues hnode (hexit ▸ hlink) (ih count (Nat.le_of_succ_le hcount))
      | branch left right =>
          rw [hlink, Link.exit?, Option.some_inj] at hexit
          subst hexit
          obtain ⟨count, rfl⟩ := Nat.exists_eq_add_of_le' hcount
          rw [← Nat.add_assoc, List.replicate_succ]
          exact .decides hnode hlink (ih _ (Nat.le_add_left _ _))

/-- Playing a graph with left choices only visits the nodes of the walk that goes left. -/
theorem Graph.ExitWalk.play (hwalk : graph.ExitWalk source trace) :
    ∀ room count, trace.length ≤ room → trace.length ≤ count →
      graph.play room (graph.cursor? source) (List.replicate count .left) = (trace, .finished) :=
  fun room count hroom hcount => (hwalk.route count hcount).play room hroom

/-- At a terminal node the walk is over. -/
theorem Graph.ExitWalk.eq_of_terminal {node : Node α} (hwalk : graph.ExitWalk source trace)
    (hnode : graph.node? source = some node) (hlink : node.link = .terminal) :
    trace = [source] := by
  cases hwalk with
  | stops => rfl
  | goes hnodeWalk hexit =>
      rw [hnode, Option.some_inj] at hnodeWalk
      rw [← hnodeWalk, hlink] at hexit
      cases hexit

/-- At any other node the walk goes left. -/
theorem Graph.ExitWalk.exists_later {node : Node α} {target : NodeId}
    (hwalk : graph.ExitWalk source trace) (hnode : graph.node? source = some node)
    (hexit : node.link.exit? = some target) :
    ∃ later, trace = source :: later ∧ graph.ExitWalk target later := by
  cases hwalk with
  | stops hnodeWalk hlink =>
      rw [hnode, Option.some_inj] at hnodeWalk
      rw [hnodeWalk, hlink] at hexit
      cases hexit
  | goes hnodeWalk hexitWalk hlater =>
      rw [hnode, Option.some_inj] at hnodeWalk
      rw [hnodeWalk, hexitWalk, Option.some_inj] at hexit
      exact ⟨_, rfl, hexit ▸ hlater⟩

/-- A walk that goes left visits the same nodes each time. -/
theorem Graph.ExitWalk.unique {other : List NodeId} (hwalk : graph.ExitWalk source trace)
    (hother : graph.ExitWalk source other) : trace = other := by
  induction hwalk generalizing other with
  | stops hnode hlink => exact (hother.eq_of_terminal hnode hlink).symm
  | goes hnode hexit hlater ih =>
      obtain ⟨later, rfl, hotherLater⟩ := hother.exists_later hnode hexit
      rw [ih hotherLater]

/-- The walk from a place further on is a part of the walk. -/
theorem Graph.ExitWalk.tail_of_continues {target : NodeId} (hwalk : graph.ExitWalk source trace)
    (hcontinues : graph.Continues source target) :
    ∃ later, graph.ExitWalk target later ∧ later.length < trace.length := by
  obtain ⟨node, hnode, hlink⟩ := hcontinues
  have hexit : node.link.exit? = some target := by rw [hlink, Link.exit?]
  obtain ⟨later, rfl, hlater⟩ := hwalk.exists_later hnode hexit
  exact ⟨later, hlater, Nat.lt_succ_self _⟩

theorem Graph.ExitWalk.tail_of_transGen {target : NodeId} (hwalk : graph.ExitWalk source trace)
    (hcontinues : Relation.TransGen graph.Continues source target) :
    ∃ later, graph.ExitWalk target later ∧ later.length < trace.length := by
  induction hcontinues with
  | single hstep => exact hwalk.tail_of_continues hstep
  | tail hsteps hstep ih =>
      obtain ⟨before, hbefore, hshort⟩ := ih
      obtain ⟨later, hlater, hshorter⟩ := hbefore.tail_of_continues hstep
      exact ⟨later, hlater, hshorter.trans hshort⟩

/-- Unconditional links alone never lead back to a place from which a run can finish. -/
theorem Graph.ExitWalk.not_cyclic (hwalk : graph.ExitWalk source trace) :
    ¬Relation.TransGen graph.Continues source source := by
  intro hcycle
  obtain ⟨later, hlater, hshorter⟩ := hwalk.tail_of_transGen hcycle
  rw [hwalk.unique hlater] at hshorter
  exact Nat.lt_irrefl _ hshorter

theorem Graph.ExitWalk.getLast?_terminal (hwalk : graph.ExitWalk source trace) :
    ∃ stop node, trace.getLast? = some stop ∧ graph.node? stop = some node ∧
      node.link = .terminal := by
  induction hwalk with
  | stops hnode hlink => exact ⟨_, _, rfl, hnode, hlink⟩
  | goes hnode hexit hlater ih =>
      obtain ⟨stop, node, hstop, hnode, hlink⟩ := ih
      exact ⟨stop, node, by rw [List.getLast?_cons, hstop]; rfl, hnode, hlink⟩

end Walks

section Built

variable {α : Type} [Step α] {commands : List α} {graph : Graph α} {source last : Nat}
  {trace : List NodeId} {block : Bracket}

theorem link_of_exit?_eq_none {link : Link} (hexit : link.exit? = none) : link = .terminal := by
  cases link with
  | terminal => rfl
  | next target => cases hexit
  | branch left right => cases hexit

/-- From every node the walk that goes left stops, after at most two visits for each command from
that node on. -/
theorem exists_exitWalk (hbuild : Graph.build? commands = .ok graph)
    (hsource : source < commands.length) :
    ∃ trace, graph.ExitWalk source trace ∧ trace.length ≤ 2 * (commands.length - source) := by
  induction hrest : commands.length - source using Nat.strongRecOn generalizing source with
  | ind rest ih =>
      have hnode := node?_of_build? hbuild (List.getElem?_eq_getElem hsource)
      have hrule := linkRule_of_node? hbuild hnode
      cases hexit : (nodeAt commands source commands[source]).link.exit? with
      | none =>
          refine ⟨[source], .stops hnode (link_of_exit?_eq_none hexit), ?_⟩
          rw [List.length_singleton]
          omega
      | some target =>
          have htarget := (leads_of_exit? hnode hexit).lt_length hbuild
          rcases hrule.exit_cases hexit with hafter | ⟨loop, hloop, hstays, hfirst, rfl⟩
          · obtain ⟨later, hlater, hlength⟩ :=
              ih (commands.length - target) (by omega) htarget rfl
            refine ⟨source :: later, .goes hnode hexit hlater, ?_⟩
            rw [List.length_cons]
            omega
          -- The step repeats its loop, and the test of the loop leads left behind the step.
          · have hopen := mem_openBefore_of_innermost hloop
            have hnext : loop.opener + 1 < (rolesOf commands).length := by
              have hopener := opener_lt_of_mem hopen
              rw [length_rolesOf]
              omega
            have hheader := node?_of_build? hbuild (List.getElem?_eq_getElem htarget)
            obtain ⟨last, hlast, hheaderLink⟩ :=
              (linkRule_of_node? hbuild hheader).of_loop hopen hnext hfirst
            have hheaderExit := congrArg Link.exit? hheaderLink
            have hlastLength := (leads_of_exit? hheader hheaderExit).lt_length hbuild
            have hafter := hlast.lt_of_innermost_succ hstays
            obtain ⟨later, hlater, hlength⟩ :=
              ih (commands.length - last) (by omega) hlastLength rfl
            refine ⟨source :: loop.opener :: later,
              .goes hnode hexit (.goes hheader hheaderExit hlater), ?_⟩
            rw [List.length_cons, List.length_cons]
            omega

/-- From inside a block the walk that goes left comes to the `end` of the block. -/
theorem Graph.ExitWalk.last_mem (hwalk : graph.ExitWalk source trace)
    (hbuild : Graph.build? commands = .ok graph) (hlast : Closes (rolesOf commands) block last)
    (hinside : block.Holds last source) : last ∈ trace := by
  induction hwalk with
  | stops hnode hlink =>
      have hrule := linkRule_of_node? hbuild hnode
      rw [hlink] at hrule
      rw [hrule.eq_last_of_terminal hlast hinside]
      exact List.mem_cons_self
  | @goes source target node later hnode hexit hlater ih =>
      rcases Nat.eq_or_lt_of_le hinside.2 with rfl | hbefore
      · exact List.mem_cons_self
      · have hhop := hop_of_leads hbuild (leads_of_exit? hnode hexit)
        exact List.mem_cons_of_mem _ (ih (hhop.confined hlast hinside.1 hbefore))

theorem size_of_build? (hbuild : Graph.build? commands = .ok graph) :
    graph.size = commands.length := by
  obtain ⟨_, rfl⟩ := build?_eq_ok_iff.mp hbuild
  rw [Graph.size, List.length_mapIdx]

/-- The `end` of a block leads out of it. -/
theorem lt_of_leads_of_closes {target : Nat} (hbuild : Graph.build? commands = .ok graph)
    (hlast : Closes (rolesOf commands) block last) (hleads : graph.Leads last target) :
    last < target := by
  obtain ⟨node, hnode, htarget⟩ := hleads
  rcases (linkRule_of_node? hbuild hnode).of_blockEnd hlast.1 with hlink | ⟨onward, hlink, hlt⟩
  · rw [hlink] at htarget
    cases htarget
  · rw [hlink] at htarget
    rwa [List.mem_singleton.mp htarget]

/-- Playback can always finish: from every node, going left at every branch stops at a terminal
node after at most `2 * N` visits.  Hence no cycle consists of unconditional links only, and from
every place in a block, a loop in particular, that way comes to the `end` and so out of the
block. -/
theorem play_left_finishes (hbuild : Graph.build? commands = .ok graph) :
    (∀ cursor : Cursor graph, ∃ trace,
      graph.play (2 * commands.length) (some cursor)
          (List.replicate (2 * commands.length) .left) = (trace, .finished) ∧
        trace.length ≤ 2 * commands.length ∧
        (∃ stop node, trace.getLast? = some stop ∧ graph.node? stop = some node ∧
          node.link = .terminal) ∧
        ∀ block last, Closes (rolesOf commands) block last → block.Holds last cursor.id →
          last ∈ trace ∧ ∀ target, graph.Leads last target → last < target) ∧
      ∀ source, ¬Relation.TransGen graph.Continues source source := by
  constructor
  · intro cursor
    have hsource : cursor.id < commands.length := size_of_build? hbuild ▸ cursor.inside
    obtain ⟨trace, hwalk, hlength⟩ := exists_exitWalk hbuild hsource
    have hbound : trace.length ≤ 2 * commands.length := by omega
    have hcursor : graph.cursor? cursor.id = some cursor := dif_pos cursor.inside
    refine ⟨trace, hcursor ▸ hwalk.play _ _ hbound hbound, hbound, hwalk.getLast?_terminal, ?_⟩
    intro block last hlast hinside
    exact ⟨hwalk.last_mem hbuild hlast hinside, fun target => lt_of_leads_of_closes hbuild hlast⟩
  · intro source hcycle
    obtain ⟨_, ⟨node, hnode, _⟩, _⟩ := Relation.TransGen.head'_iff.mp hcycle
    obtain ⟨command, hcommand, _⟩ := exists_command_of_node? hbuild hnode
    obtain ⟨trace, hwalk, _⟩ :=
      exists_exitWalk hbuild (List.getElem?_eq_some_iff.mp hcommand).1
    exact hwalk.not_cyclic hcycle

/-- From the step at the end of the outer loop of the sample, the way left leads through the test of
that loop. -/
theorem sample_play_left_finishes :
    Graph.build? sampleTest = .ok sampleGraph ∧
      ∃ trace, sampleGraph.play 24 (sampleGraph.cursor? 10) (List.replicate 24 .left) =
          (trace, .finished) ∧
        trace.length ≤ 24 ∧ 11 ∈ trace := by
  obtain ⟨hplay, _⟩ := play_left_finishes (rfl : Graph.build? sampleTest = .ok sampleGraph)
  obtain ⟨trace, htrace, hlength, _, hblocks⟩ := hplay ⟨10, by decide⟩
  have hcloses : Closes (rolesOf sampleTest) ⟨.timesLoop, 0⟩ 11 := by decide
  exact ⟨rfl, trace, htrace, hlength, (hblocks _ _ hcloses ⟨by decide, by decide⟩).1⟩

end Built

end StepFlow
