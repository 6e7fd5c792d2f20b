import Mathlib.Data.List.Perm.Subperm
import StepFlow.Proofs.Finishing

/-!
# Decisions bound the length of a run

Between two branches a run has no choice, and it does not go round in circles either: it moves
forward through the test, or goes back to the test of a loop, and that is a branch.  So it visits no
node twice before it comes to a branch, and every decision lets it visit each node at most once
more, whatever loops it decides to repeat.  Main statement: `decisions_bound_play`.
-/

namespace StepFlow

variable {α : Type}

theorem Wires.isBranch_iff (wires : Wires) :
    wires.isBranch = true ↔ ∃ left right, wires.link = .branch left right := by
  rw [isBranch]
  cases wires.link <;> simp

theorem Graph.mem_branches_iff {graph : Graph α} {place : NodeId} :
    place ∈ graph.branches ↔
      ∃ node left right, graph.node? place = some node ∧ node.link = .branch left right := by
  simp only [branches, List.mem_map, List.mem_filter, Prod.exists, exists_eq_right,
    List.mem_zipIdx_iff_getElem?, Wires.isBranch_iff, exists_and_left, node?]

section Routes

variable {graph : Graph α} {source : Nat} {choices : List Choice} {trace : List Nat}
  {stop : Stop}

theorem not_mem_branches {node : Node α} (hnode : graph.node? source = some node)
    (hlink : ∀ left right, node.link ≠ .branch left right) : source ∉ graph.branches := by
  rw [Graph.mem_branches_iff]
  rintro ⟨other, left, right, hother, hbranch⟩
  rw [hnode, Option.some_inj] at hother
  exact hlink left right (hother ▸ hbranch)

/-- A route ends at a terminal node, or at a branch for which no choice is left.  Every other visit
of a branch has taken a choice. -/
theorem Graph.Route.exists_last (hroute : graph.Route source choices trace stop) :
    ∃ last node, trace.getLast? = some last ∧ graph.node? last = some node ∧
      (stop = .finished ∧ node.link = .terminal ∧
          trace.countP (· ∈ graph.branches) ≤ choices.length ∨
        stop = .undecided ∧ (∃ left right, node.link = .branch left right) ∧
          trace.countP (· ∈ graph.branches) = choices.length + 1) := by
  induction hroute with
  | @finishes source node choices hnode hlink =>
      have hnot := not_mem_branches hnode fun left right => by simp [hlink]
      exact ⟨source, node, rfl, hnode, .inl ⟨rfl, hlink, by simp [hnot]⟩⟩
  | @waits source left right node hnode hlink =>
      have hmem : source ∈ graph.branches := mem_branches_iff.mpr ⟨_, _, _, hnode, hlink⟩
      exact ⟨source, node, rfl, hnode, .inr ⟨rfl, ⟨_, _, hlink⟩, by simp [hmem]⟩⟩
  | continues hnode hlink hlater ih =>
      have hnot := not_mem_branches hnode fun left right => by simp [hlink]
      obtain ⟨last, node, hlast, hlastNode, hend⟩ := ih
      refine ⟨last, node, by rw [List.getLast?_cons, hlast]; rfl, hlastNode, ?_⟩
      rwa [List.countP_cons_of_neg (by simpa using hnot)]
  | decides hnode hlink hlater ih =>
      have hmem := mem_branches_iff.mpr ⟨_, _, _, hnode, hlink⟩
      obtain ⟨last, node, hlast, hlastNode, hend⟩ := ih
      refine ⟨last, node, by rw [List.getLast?_cons, hlast]; rfl, hlastNode, ?_⟩
      rw [List.countP_cons_of_pos (by simpa using hmem), List.length_cons]
      simpa only [Nat.add_le_add_iff_right, Nat.add_right_cancel_iff] using hend

theorem length_le_of_nodup {places : List Nat} {size : Nat} (hnodup : places.Nodup)
    (hinside : ∀ place ∈ places, place < size) : places.length ≤ size := by
  have hsubset : places ⊆ List.range size := fun place hplace =>
    List.mem_range.mpr (hinside place hplace)
  simpa using (hnodup.subperm hsubset).length_le

/-- From `source` a run passes the nodes `front`, none of which is a branch, and comes to `place`,
which is a branch or a terminal node. -/
structure Graph.Stretch (graph : Graph α) (source : Nat) (front : List Nat) (place : Nat) :
    Prop where
  free : ∀ before ∈ front, before ∉ graph.branches
  stays : ∃ node, graph.node? place = some node ∧ ∀ target, node.link ≠ .next target
  goesOn : ∀ choices later stop, graph.Route place choices later stop →
    graph.Route source choices (front ++ later) stop

/-- Without a choice a run stops where there is no single way on. -/
theorem Graph.Stretch.exists_route {front : List Nat} {place : Nat}
    (hstretch : graph.Stretch source front place) :
    ∃ stop, graph.Route source [] (front ++ [place]) stop := by
  obtain ⟨node, hnode, hstays⟩ := hstretch.stays
  cases hlink : node.link with
  | next target => exact absurd hlink (hstays target)
  | terminal => exact ⟨_, hstretch.goesOn _ _ _ (.finishes hnode hlink)⟩
  | branch left right => exact ⟨_, hstretch.goesOn _ _ _ (.waits hnode hlink)⟩

end Routes

section Built

variable [Step α] {commands : List α} {graph : Graph α} {source target : Nat}

theorem Graph.Leads.lt_size (hleads : graph.Leads source target)
    (hbuild : Graph.build? commands = .ok graph) : target < graph.size := by
  rw [size_of_build? hbuild]
  exact hleads.lt_length hbuild

/-- A link between two nodes that are no branches leads forward. -/
theorem Graph.Leads.lt_of_not_mem_branches (hleads : graph.Leads source target)
    (hbuild : Graph.build? commands = .ok graph) (hsource : source ∉ graph.branches)
    (htarget : target ∉ graph.branches) : source < target := by
  obtain ⟨node, hnode, htargets⟩ := hleads
  refine ((linkRule_of_node? hbuild hnode).lt_or_repeats htargets).resolve_right fun hrepeats => ?_
  generalize hlink : node.link = link at hrepeats
  cases hrepeats with
  | test hrole hloop hdo hlast =>
      exact hsource (mem_branches_iff.mpr ⟨_, _, _, hnode, hlink⟩)
  | @step loop _ hrole hloop hfirst hcoming hkeyword =>
      -- The step goes back to the test of its loop.
      have hmem := mem_openBefore_of_innermost hloop
      have hcomingLt := (List.getElem?_eq_some_iff.mp hcoming).1
      have hnext : loop.opener + 1 < (rolesOf commands).length :=
        Nat.lt_of_le_of_lt (Nat.succ_le_succ (Nat.le_of_lt (opener_lt_of_mem hmem))) hcomingLt
      have hheader := node?_of_build? hbuild (List.getElem?_eq_getElem
        (Nat.lt_of_succ_lt (length_rolesOf commands ▸ hnext)))
      obtain ⟨last, _, hbranch⟩ := (linkRule_of_node? hbuild hheader).of_loop hmem hnext hfirst
      exact htarget (mem_branches_iff.mpr ⟨_, _, _, hheader, hbranch⟩)

/-- Up to the next branch, and with it, a run visits no node twice. -/
theorem nodup_of_forall_not_mem_branches {front : List Nat} {place : Nat}
    (hbuild : Graph.build? commands = .ok graph)
    (hplaces : (front ++ [place]).IsChain graph.Leads)
    (hfront : ∀ before ∈ front, before ∉ graph.branches) : (front ++ [place]).Nodup := by
  have hforward : ∀ {places : List Nat}, places.IsChain graph.Leads →
      (∀ before ∈ places, before ∉ graph.branches) → places.Nodup := by
    intro places hchain hnone
    have hlt : places.IsChain (· < ·) := hchain.imp_of_mem_imp fun source target hsource htarget
      hleads => hleads.lt_of_not_mem_branches hbuild (hnone source hsource) (hnone target htarget)
    exact hlt.pairwise.imp fun hbefore => Nat.ne_of_lt hbefore
  by_cases hplace : place ∈ graph.branches
  · refine List.nodup_append.mpr ⟨hforward hplaces.left_of_append hfront,
      List.nodup_singleton place, fun before hbefore other hother => ?_⟩
    rw [List.mem_singleton.mp hother]
    rintro rfl
    exact hfront before hbefore hplace
  · exact hforward hplaces (List.forall_mem_append.mpr
      ⟨hfront, List.forall_mem_singleton.mpr hplace⟩)

theorem Graph.Stretch.length_le {front : List Nat} {place : Nat}
    (hstretch : graph.Stretch source front place) (hbuild : Graph.build? commands = .ok graph) :
    (front ++ [place]).length ≤ graph.size := by
  obtain ⟨stop, hroute⟩ := hstretch.exists_route
  have hnodup := nodup_of_forall_not_mem_branches hbuild hroute.isChain hstretch.free
  exact length_le_of_nodup hnodup hroute.lt_size

/-- Every node has a stretch in front of it. -/
theorem exists_stretch (hbuild : Graph.build? commands = .ok graph)
    (hsource : source < graph.size) :
    ∃ front place, graph.Stretch source front place := by
  induction hrest : graph.size - source using Nat.strongRecOn generalizing source with
  | ind rest ih =>
      obtain ⟨node, hnode⟩ : ∃ node, graph.node? source = some node :=
        ⟨_, List.getElem?_eq_getElem hsource⟩
      cases hlink : node.link with
      | terminal =>
          exact ⟨[], source, by simp, ⟨node, hnode, by simp [hlink]⟩, fun _ _ _ hlater => hlater⟩
      | branch left right =>
          exact ⟨[], source, by simp, ⟨node, hnode, by simp [hlink]⟩, fun _ _ _ hlater => hlater⟩
      | next target =>
          have hleads : graph.Leads source target :=
            ⟨node, hnode, by rw [hlink]; exact List.mem_singleton_self target⟩
          have hsourceNot := not_mem_branches hnode fun left right => by simp [hlink]
          by_cases htarget : target ∈ graph.branches
          · obtain ⟨branch, left, right, hbranch, hbranchLink⟩ := Graph.mem_branches_iff.mp htarget
            exact ⟨[source], target, by simpa using hsourceNot,
              ⟨branch, hbranch, by simp [hbranchLink]⟩,
              fun _ _ _ hlater => .continues hnode hlink hlater⟩
          · have hlt := hleads.lt_of_not_mem_branches hbuild hsourceNot htarget
            obtain ⟨front, place, hstretch⟩ :=
              ih (graph.size - target) (by omega) (hleads.lt_size hbuild) rfl
            exact ⟨source :: front, place, List.forall_mem_cons.mpr ⟨hsourceNot, hstretch.free⟩,
              hstretch.stays, fun choices later stop hlater =>
                .continues hnode hlink (hstretch.goesOn choices later stop hlater)⟩

/-- Every sequence of choices has a route, which is a stretch for each choice and one more. -/
theorem exists_route (hbuild : Graph.build? commands = .ok graph) (hsource : source < graph.size)
    (choices : List Choice) :
    ∃ trace stop, graph.Route source choices trace stop ∧
      trace.length ≤ (choices.length + 1) * graph.size := by
  induction choices generalizing source with
  | nil =>
      obtain ⟨front, place, hstretch⟩ := exists_stretch hbuild hsource
      obtain ⟨stop, hroute⟩ := hstretch.exists_route
      refine ⟨front ++ [place], stop, hroute, ?_⟩
      simpa only [List.length_nil, Nat.zero_add, Nat.one_mul] using hstretch.length_le hbuild
  | cons choice choices ih =>
      obtain ⟨front, place, hstretch⟩ := exists_stretch hbuild hsource
      have hfront := hstretch.length_le hbuild
      obtain ⟨node, hnode, hstays⟩ := hstretch.stays
      cases hlink : node.link with
      | next target => exact absurd hlink (hstays target)
      | terminal =>
          refine ⟨front ++ [place], _, hstretch.goesOn _ _ _ (.finishes hnode hlink), ?_⟩
          exact Nat.le_trans hfront (Nat.le_mul_of_pos_left _ (Nat.succ_pos _))
      | branch left right =>
          have hleads : graph.Leads place (choice.pick left right) :=
            ⟨node, hnode, by rw [hlink]; exact choice.pick_mem_targets left right⟩
          obtain ⟨later, stop, hlater, hlength⟩ := ih (hleads.lt_size hbuild)
          refine ⟨front ++ place :: later, stop,
            hstretch.goesOn _ _ _ (.decides hnode hlink hlater), ?_⟩
          calc (front ++ place :: later).length
              = (front ++ [place]).length + later.length := by
                rw [← List.length_append, List.append_assoc, List.singleton_append]
            _ ≤ graph.size + (choices.length + 1) * graph.size := Nat.add_le_add hfront hlength
            _ = ((choice :: choices).length + 1) * graph.size := by
                rw [List.length_cons, Nat.succ_mul (choices.length + 1), Nat.add_comm]

/-- A run that is given `k` choices stops after at most `(k + 1) * N` visits, wherever it starts in
a test of `N` commands: at a terminal node, or at a branch when it has used all choices, one at each
branch before.  Up to the next branch, and with it, it visits no node twice. -/
theorem decisions_bound_play (hbuild : Graph.build? commands = .ok graph) (cursor : Cursor graph)
    (choices : List Choice) :
    ∃ trace stop,
      (∀ room, (choices.length + 1) * commands.length ≤ room →
        graph.play room (some cursor) choices = (trace, stop)) ∧
      trace.length ≤ (choices.length + 1) * commands.length ∧
      (∃ last node, trace.getLast? = some last ∧ graph.node? last = some node ∧
        (stop = .finished ∧ node.link = .terminal ∧
            trace.countP (· ∈ graph.branches) ≤ choices.length ∨
          stop = .undecided ∧ (∃ left right, node.link = .branch left right) ∧
            trace.countP (· ∈ graph.branches) = choices.length + 1)) ∧
      ∀ front place, front ++ [place] <:+: trace →
        (∀ before ∈ front, before ∉ graph.branches) → (front ++ [place]).Nodup := by
  obtain ⟨trace, stop, hroute, hlength⟩ := exists_route hbuild cursor.inside choices
  rw [size_of_build? hbuild] at hlength
  have hcursor : graph.cursor? cursor.id = some cursor := dif_pos cursor.inside
  refine ⟨trace, stop, fun room hroom => ?_, hlength, hroute.exists_last, ?_⟩
  · exact hcursor ▸ hroute.play room (Nat.le_trans hlength hroom)
  · rintro front place ⟨earlier, later, rfl⟩
    exact nodup_of_forall_not_mem_branches hbuild hroute.isChain.left_of_append.right_of_append

/-- Three choices let a run of the sample stop within `4 * 12` visits, also from the step at the end
of the loop. -/
theorem sample_decisions_bound_play :
    Graph.build? sampleTest = .ok sampleGraph ∧
      ∃ trace stop, sampleGraph.play 48 (sampleGraph.cursor? 10) [.right, .left, .right] =
          (trace, stop) ∧
        trace.length ≤ 48 ∧ stop = .undecided := by
  obtain ⟨trace, stop, hplay, hlength, _⟩ :=
    decisions_bound_play (rfl : Graph.build? sampleTest = .ok sampleGraph) ⟨10, by decide⟩
      [.right, .left, .right]
  have hstop : (sampleGraph.play 48 (sampleGraph.cursor? 10) [.right, .left, .right]).2 =
      .undecided := by decide
  have hroom := hplay 48 (by decide)
  exact ⟨rfl, trace, stop, hroom, hlength, (congrArg Prod.snd hroom).symm.trans hstop⟩

end Built

end StepFlow
