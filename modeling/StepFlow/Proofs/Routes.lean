import StepFlow.Graph.Walk
import StepFlow.Proofs.Confinement

/-!
# Routes

Playing a graph needs a bound on the number of visits.  A route is the same run without the bound:
the nodes that a run visits from some node on if it decides as the choices say, up to a terminal
node or to the first branch without a choice.  Given room for all of these visits, playing follows
the route (`Graph.Route.play`).
-/

namespace StepFlow

/-- Where a decision leads at a branch with these targets. -/
def Choice.pick (choice : Choice) (left right : NodeId) : NodeId :=
  match choice with
  | .left => left
  | .right => right

/-- From `source` on, a run that decides as the choices say visits these nodes and stops for this
reason. -/
inductive Graph.Route {α : Type} (graph : Graph α) :
    NodeId → List Choice → List NodeId → Stop → Prop
  | finishes {source : NodeId} {node : Node α} {choices : List Choice}
      (hnode : graph.node? source = some node) (hlink : node.link = .terminal) :
      Route graph source choices [source] .finished
  | waits {source left right : NodeId} {node : Node α}
      (hnode : graph.node? source = some node) (hlink : node.link = .branch left right) :
      Route graph source [] [source] .undecided
  | continues {source target : NodeId} {node : Node α} {choices : List Choice}
      {later : List NodeId} {stop : Stop}
      (hnode : graph.node? source = some node) (hlink : node.link = .next target)
      (hlater : Route graph target choices later stop) :
      Route graph source choices (source :: later) stop
  | decides {source left right : NodeId} {node : Node α} {choice : Choice} {choices : List Choice}
      {later : List NodeId} {stop : Stop}
      (hnode : graph.node? source = some node) (hlink : node.link = .branch left right)
      (hlater : Route graph (choice.pick left right) choices later stop) :
      Route graph source (choice :: choices) (source :: later) stop

variable {α : Type} {graph : Graph α} {source : NodeId} {choices : List Choice}
variable {trace : List NodeId} {stop : Stop}

theorem Choice.pick_mem_targets (choice : Choice) (left right : NodeId) :
    choice.pick left right ∈ (Link.branch left right).targets := by
  cases choice with
  | left => exact List.mem_cons_of_mem _ (List.mem_singleton_self left)
  | right => exact List.mem_cons_self

theorem cursor?_of_node? {node : Node α} (hnode : graph.node? source = some node) :
    ∃ cursor, graph.cursor? source = some cursor ∧ cursor.id = source ∧
      cursor.link = node.link := by
  obtain ⟨hlt, hget⟩ := List.getElem?_eq_some_iff.mp hnode
  refine ⟨⟨source, hlt⟩, dif_pos hlt, rfl, ?_⟩
  rw [Cursor.link, Cursor.node, List.get_eq_getElem, hget]

/-! ## Playing at a node -/

section Playing

variable {cursor : Cursor graph} {room : Nat} {left right target : NodeId}

theorem play_terminal (hlink : cursor.link = .terminal) :
    graph.play (room + 1) (some cursor) choices = ([cursor.id], .finished) := by
  rw [Graph.play.eq_def]
  simp only [hlink]

theorem play_undecided (hlink : cursor.link = .branch left right) :
    graph.play (room + 1) (some cursor) [] = ([cursor.id], .undecided) := by
  rw [Graph.play.eq_def]
  simp only [hlink]

theorem play_next (hlink : cursor.link = .next target) :
    graph.play (room + 1) (some cursor) choices =
      Graph.play.visit graph cursor (graph.play room (graph.cursor? target) choices) := by
  rw [Graph.play.eq_def]
  simp only [hlink]

theorem play_decided (hlink : cursor.link = .branch left right) (choice : Choice) :
    graph.play (room + 1) (some cursor) (choice :: choices) =
      Graph.play.visit graph cursor
        (graph.play room (graph.cursor? (choice.pick left right)) choices) := by
  rw [Graph.play.eq_def]
  cases choice <;> simp only [hlink, Choice.pick]

end Playing

namespace Graph.Route

/-- Playing with room for all visits follows the route. -/
theorem play (hroute : graph.Route source choices trace stop) :
    ∀ room, trace.length ≤ room →
      graph.play room (graph.cursor? source) choices = (trace, stop) := by
  induction hroute with
  | finishes hnode hlink =>
      intro room hroom
      obtain ⟨cursor, hcursor, rfl, hcursorLink⟩ := cursor?_of_node? hnode
      obtain ⟨room, rfl⟩ := Nat.exists_eq_add_of_le' hroom
      rw [hcursor]
      exact play_terminal (hcursorLink.trans hlink)
  | waits hnode hlink =>
      intro room hroom
      obtain ⟨cursor, hcursor, rfl, hcursorLink⟩ := cursor?_of_node? hnode
      obtain ⟨room, rfl⟩ := Nat.exists_eq_add_of_le' hroom
      rw [hcursor]
      exact play_undecided (hcursorLink.trans hlink)
  | continues hnode hlink hlater ih =>
      intro room hroom
      obtain ⟨cursor, hcursor, rfl, hcursorLink⟩ := cursor?_of_node? hnode
      rw [List.length_cons] at hroom
      obtain ⟨room, rfl⟩ := Nat.exists_eq_add_of_le' hroom
      rw [hcursor, ← Nat.add_assoc, play_next (hcursorLink.trans hlink),
        ih _ (Nat.le_add_left _ _)]
      rfl
  | decides hnode hlink hlater ih =>
      intro room hroom
      obtain ⟨cursor, hcursor, rfl, hcursorLink⟩ := cursor?_of_node? hnode
      rw [List.length_cons] at hroom
      obtain ⟨room, rfl⟩ := Nat.exists_eq_add_of_le' hroom
      rw [hcursor, ← Nat.add_assoc, play_decided (hcursorLink.trans hlink),
        ih _ (Nat.le_add_left _ _)]
      rfl

theorem head?_eq (hroute : graph.Route source choices trace stop) : trace.head? = some source := by
  cases hroute <;> rfl

/-- One visit leads to the next. -/
theorem isChain (hroute : graph.Route source choices trace stop) : trace.IsChain graph.Leads := by
  induction hroute with
  | finishes | waits => exact List.isChain_singleton _
  | @continues source target _ _ _ _ hnode hlink hlater ih =>
      refine List.isChain_cons.mpr ⟨fun next hnext => ⟨_, hnode, ?_⟩, ih⟩
      rw [hlink, ← Option.some_inj.mp (hlater.head?_eq.symm.trans hnext)]
      exact List.mem_singleton_self target
  | decides hnode hlink hlater ih =>
      refine List.isChain_cons.mpr ⟨fun next hnext => ⟨_, hnode, ?_⟩, ih⟩
      rw [hlink, ← Option.some_inj.mp (hlater.head?_eq.symm.trans hnext)]
      exact Choice.pick_mem_targets _ _ _

theorem lt_size (hroute : graph.Route source choices trace stop) :
    ∀ place ∈ trace, place < graph.size := by
  have hinside : ∀ {place : NodeId} {node : Node α}, graph.node? place = some node →
      place < graph.size := fun hnode => (List.getElem?_eq_some_iff.mp hnode).1
  induction hroute with
  | finishes hnode | waits hnode =>
      intro place hplace
      exact List.mem_singleton.mp hplace ▸ hinside hnode
  | continues hnode hlink hlater ih | decides hnode hlink hlater ih =>
      intro place hplace
      rcases List.mem_cons.mp hplace with rfl | hlaterPlace
      · exact hinside hnode
      · exact ih place hlaterPlace

end Graph.Route

end StepFlow
