import StepFlow.Graph.Listing
import StepFlow.Graph.Summary
import StepFlow.Proofs.Texts
import StepFlow.Proofs.Wiring

/-!
# Listings carry what summaries carry

A listing shows the link of each node, and a summary holds the pointers as they are stored.  In a
built graph the one is determined by the other: each line of the listing is written from one node of
the summary alone, and the listing determines the summary.  Names stand in a line as they are and
may look like a level or a link themselves.  That is no ambiguity, since what follows the name
consists of words of a known form, which are read from the end of the line.
Main statement: `listing_carries_summary`.
-/

namespace StepFlow

open Text

section Definitions

/-- The part of a line that shows a pointer, if there is one. -/
def pointerText (label : String) : Option NodeId → String
  | none => ""
  | some target => " " ++ label ++ toString target

/-- The line of a listing that shows a node of a summary. -/
def NodeSummary.line (summary : NodeSummary) : String :=
  toString summary.index ++ " " ++ summary.name ++ " L" ++ toString summary.level ++
    pointerText "next=" summary.wires.next ++ pointerText "right=" summary.wires.right ++
    pointerText "left=" summary.wires.left

/-- The part of a line in front of the pointers. -/
def NodeSummary.head (summary : NodeSummary) : List Char :=
  Nat.toDigits 10 summary.index ++
    ' ' :: (summary.name.toList ++ ' ' :: 'L' :: Nat.toDigits 10 summary.level)

/-- The last word of the text begins with the label. -/
def EndsIn (label : String) (text : List Char) : Prop := label.toList <+: lastPart ' ' text

end Definitions

/-! ## Reading a line from its end -/

section Pointers

variable {label written : String} {text left right : List Char} {pointer other : Option NodeId}

@[simp]
theorem toList_pointerText_none (label : String) : (pointerText label none).toList = [] := rfl

@[simp]
theorem toList_pointerText_some (label : String) (target : NodeId) :
    (pointerText label (some target)).toList = ' ' :: (label.toList ++ Nat.toDigits 10 target) := by
  simp [pointerText]

/-- A labelled pointer is one word. -/
theorem space_not_mem_pointer (hlabel : ' ' ∉ label.toList) (target : NodeId) :
    ' ' ∉ label.toList ++ Nat.toDigits 10 target :=
  List.not_mem_append hlabel (not_mem_toDigits rfl)

theorem endsIn_pointerText (hlabel : ' ' ∉ label.toList) (text : List Char) (target : NodeId) :
    EndsIn label (text ++ (pointerText label (some target)).toList) := by
  rw [EndsIn, toList_pointerText_some, lastPart_append_cons (space_not_mem_pointer hlabel target)]
  exact List.prefix_append _ _

/-- A pointer behind a text brings in no label but its own. -/
theorem not_endsIn_pointerText (hwritten : ' ' ∉ written.toList)
    (hdiffer : ∀ digits, ¬label.toList <+: written.toList ++ digits) (htext : ¬EndsIn label text) :
    ¬EndsIn label (text ++ (pointerText written pointer).toList) := by
  cases pointer with
  | none => simpa using htext
  | some target =>
      rw [EndsIn, toList_pointerText_some,
        lastPart_append_cons (space_not_mem_pointer hwritten target)]
      exact hdiffer _

/-- Behind texts that do not end in the label, a labelled pointer is recovered together with the
text before it. -/
theorem append_pointerText_inj (hlabel : ' ' ∉ label.toList) (hleft : ¬EndsIn label left)
    (hright : ¬EndsIn label right)
    (heq : left ++ (pointerText label pointer).toList =
      right ++ (pointerText label other).toList) : left = right ∧ pointer = other := by
  cases pointer with
  | none =>
      cases other with
      | none => exact ⟨by simpa using heq, rfl⟩
      | some target =>
          rw [toList_pointerText_none, List.append_nil] at heq
          exact absurd (heq ▸ endsIn_pointerText hlabel right target) hleft
  | some target =>
      cases other with
      | none =>
          rw [toList_pointerText_none, List.append_nil] at heq
          exact absurd (heq ▸ endsIn_pointerText hlabel left target) hright
      | some otherTarget =>
          rw [toList_pointerText_some, toList_pointerText_some] at heq
          obtain ⟨hbefore, hwords⟩ := append_cons_inj_of_last (space_not_mem_pointer hlabel target)
            (space_not_mem_pointer hlabel otherTarget) heq
          rw [toDigits_injective (List.append_cancel_left hwords)]
          exact ⟨hbefore, rfl⟩

end Pointers

namespace NodeSummary

variable {summary other : NodeSummary}

theorem toList_line (summary : NodeSummary) :
    summary.line.toList = summary.head ++ (pointerText "next=" summary.wires.next).toList ++
      (pointerText "right=" summary.wires.right).toList ++
      (pointerText "left=" summary.wires.left).toList := by
  simp [line, head]

/-- The last word in front of the pointers is the level, whatever the name looks like. -/
theorem lastPart_head (summary : NodeSummary) :
    lastPart ' ' summary.head = 'L' :: Nat.toDigits 10 summary.level := by
  have hlevel : ' ' ∉ 'L' :: Nat.toDigits 10 summary.level :=
    List.not_mem_cons_of_ne_of_not_mem (by decide) (not_mem_toDigits rfl)
  rw [head, ← List.cons_append, ← List.append_assoc, lastPart_append_cons hlevel]

theorem not_endsIn_head {label : String} (hlabel : ∀ digits, ¬label.toList <+: 'L' :: digits) :
    ¬EndsIn label summary.head := by
  rw [EndsIn, lastPart_head]
  exact hlabel _

theorem head_inj (heq : summary.head = other.head) :
    summary.index = other.index ∧ summary.name = other.name ∧ summary.level = other.level := by
  obtain ⟨hindex, hrest⟩ :=
    append_cons_inj_of_first (not_mem_toDigits rfl) (not_mem_toDigits rfl) heq
  have hlevels := congrArg (lastPart ' ') heq
  rw [lastPart_head, lastPart_head, List.cons_inj_right] at hlevels
  rw [hlevels] at hrest
  exact ⟨toDigits_injective hindex, String.toList_inj.mp (List.append_cancel_right hrest),
    toDigits_injective hlevels⟩

/-- A line determines everything that it was written from. -/
theorem line_injective : Function.Injective line := by
  intro summary other heq
  replace heq := congrArg String.toList heq
  rw [toList_line, toList_line] at heq
  have hnext : ∀ summary : NodeSummary, ¬EndsIn "next=" summary.head :=
    fun summary => not_endsIn_head (by simp)
  have hright : ∀ summary : NodeSummary,
      ¬EndsIn "right=" (summary.head ++ (pointerText "next=" summary.wires.next).toList) :=
    fun summary => not_endsIn_pointerText (by decide) (by simp) (not_endsIn_head (by simp))
  have hleft : ∀ summary : NodeSummary,
      ¬EndsIn "left=" (summary.head ++ (pointerText "next=" summary.wires.next).toList ++
        (pointerText "right=" summary.wires.right).toList) :=
    fun summary => not_endsIn_pointerText (by decide) (by simp)
      (not_endsIn_pointerText (by decide) (by simp) (not_endsIn_head (by simp)))
  obtain ⟨heq, hlefts⟩ := append_pointerText_inj (by decide) (hleft _) (hleft _) heq
  obtain ⟨heq, hrights⟩ := append_pointerText_inj (by decide) (hright _) (hright _) heq
  obtain ⟨heq, hnexts⟩ := append_pointerText_inj (by decide) (hnext _) (hnext _) heq
  obtain ⟨hindex, hname, hlevel⟩ := head_inj heq
  have hwires : summary.wires = other.wires := by
    rw [Wires.mk.injEq]
    exact ⟨hnexts, hlefts, hrights⟩
  rw [mk.injEq]
  exact ⟨hindex, hname, hlevel, hwires⟩

theorem newline_not_mem_line (hname : '\n' ∉ summary.name.toList) :
    '\n' ∉ summary.line.toList := by
  have hpointer : ∀ label pointer, '\n' ∉ label.toList →
      '\n' ∉ (pointerText label pointer).toList := by
    intro label pointer hlabel
    cases pointer <;> simp [hlabel, not_mem_toDigits]
  rw [toList_line]
  simp [head, hname, hpointer, not_mem_toDigits]

theorem toList_line_ne_nil (summary : NodeSummary) : summary.line.toList ≠ [] := by
  simp [toList_line, head]

end NodeSummary

/-! ## The listing of a built graph -/

theorem Link.listing_eq (link : Link) :
    link.listing = pointerText "next=" link.wires.next ++ pointerText "right=" link.wires.right ++
      pointerText "left=" link.wires.left := by
  cases link <;>
    simp [listing, wires, Wires.continuing, Wires.branching, pointerText, String.append_assoc]

section Built

variable {α β : Type} [Step α] [Step β] {commands : List α} {others : List β} {graph : Graph α}
  {other : Graph β}

/-- A summary is read node by node. -/
theorem map_nodes_summary {γ : Type} {read : NodeSummary → γ} {readNode : Node α → γ}
    (hread : ∀ node id, read (node.summary id) = readNode node) (graph : Graph α) :
    graph.summary.nodes.map read = graph.nodes.map readNode := by
  conv_rhs => rw [← List.zipIdx_map_fst 0 graph.nodes, List.map_map]
  rw [Graph.summary, List.map_map]
  exact List.map_congr_left fun item _ => hread item.1 item.2

theorem map_nodes_eq_of_summary_eq {γ : Type} {readNode : Node α → γ} {readOther : Node β → γ}
    (read : NodeSummary → γ) (hread : ∀ node id, read (Node.summary id node) = readNode node)
    (hreadOther : ∀ node id, read (Node.summary id node) = readOther node)
    (hsummary : graph.summary = other.summary) :
    graph.nodes.map readNode = other.nodes.map readOther := by
  rw [← map_nodes_summary hread, hsummary, map_nodes_summary hreadOther]

theorem map_name_summary (hbuild : Graph.build? commands = .ok graph) :
    graph.summary.nodes.map NodeSummary.name = commands.map Step.name := by
  rw [map_nodes_summary (fun _ _ => rfl), ← map_command_of_build? hbuild, List.map_map]
  rfl

/-- Each line is written from one node of the summary. -/
theorem listing_eq_intercalate_line (hbuild : Graph.build? commands = .ok graph) :
    graph.listing = "\n".intercalate (graph.summary.nodes.map NodeSummary.line) := by
  rw [Graph.listing, Graph.summary, List.map_map]
  congr 1
  apply List.map_congr_left
  rintro ⟨node, id⟩ hmem
  have hwires := toWires_of_node? hbuild (List.mem_zipIdx_iff_getElem?.mp hmem)
  simp [Node.listing, NodeSummary.line, Node.summary, Link.listing_eq, ← hwires,
    String.append_assoc]

theorem forall_line_of_names (hbuild : Graph.build? commands = .ok graph)
    (hnames : ∀ command ∈ commands, '\n' ∉ (Step.name command).toList) :
    ∀ line ∈ (graph.summary.nodes.map NodeSummary.line).map String.toList,
      line ≠ [] ∧ '\n' ∉ line := by
  simp only [List.mem_map, forall_exists_index, and_imp, forall_apply_eq_imp_iff₂]
  intro summary hmem
  have hname : summary.name ∈ commands.map Step.name := by
    rw [← map_name_summary hbuild]
    exact List.mem_map_of_mem hmem
  obtain ⟨command, hcommand, heq⟩ := List.mem_map.mp hname
  refine ⟨summary.toList_line_ne_nil, NodeSummary.newline_not_mem_line ?_⟩
  rw [← heq]
  exact hnames command hcommand

/-- If no name holds a line feed, the listing determines the summary. -/
theorem summary_eq_of_listing_eq (hbuild : Graph.build? commands = .ok graph)
    (hother : Graph.build? others = .ok other)
    (hnames : ∀ command ∈ commands, '\n' ∉ (Step.name command).toList)
    (hotherNames : ∀ command ∈ others, '\n' ∉ (Step.name command).toList)
    (hlisting : graph.listing = other.listing) : graph.summary = other.summary := by
  rw [listing_eq_intercalate_line hbuild, listing_eq_intercalate_line hother,
    ← String.toList_inj, String.toList_intercalate, String.toList_intercalate] at hlisting
  have hlines := unlines_inj (forall_line_of_names hbuild hnames)
    (forall_line_of_names hother hotherNames) hlisting
  have hnodes := List.map_injective_iff.mpr NodeSummary.line_injective
    (List.map_injective_iff.mpr (fun _ _ => String.toList_inj.mp) hlines)
  rw [GraphSummary.mk.injEq]
  exact hnodes

/-- The listing of a built graph joins one line for each node, which is written from that node of
the summary alone.  If no name holds a line feed, nothing is lost: two tests with the same listing
have the same summary, so the same names, levels and links. -/
theorem listing_carries_summary (hbuild : Graph.build? commands = .ok graph) :
    (graph.summary.nodes.length = graph.size ∧
      (∀ node ∈ graph.summary.nodes, node.wires.WellFormed graph.size) ∧
      graph.listing = "\n".intercalate (graph.summary.nodes.map NodeSummary.line)) ∧
    ∀ (others : List β) (other : Graph β), Graph.build? others = .ok other →
      (∀ command ∈ commands, '\n' ∉ (Step.name command).toList) →
      (∀ command ∈ others, '\n' ∉ (Step.name command).toList) →
      graph.listing = other.listing →
      graph.summary = other.summary ∧ commands.map Step.name = others.map Step.name ∧
        graph.nodes.map Node.level = other.nodes.map Node.level ∧
        (graph.nodes.map fun node => node.link) = other.nodes.map fun node => node.link := by
  refine ⟨⟨?_, ?_, listing_eq_intercalate_line hbuild⟩, ?_⟩
  · rw [Graph.summary, List.length_map, List.length_zipIdx, Graph.size]
  · intro summary hmem
    obtain ⟨⟨node, id⟩, hnode, rfl⟩ := List.mem_map.mp hmem
    rw [size_of_build? hbuild]
    exact wellFormed_wires_of_node? hbuild (List.mem_zipIdx_iff_getElem?.mp hnode)
  · intro others other hother hnames hotherNames hlisting
    have hsummary := summary_eq_of_listing_eq hbuild hother hnames hotherNames hlisting
    refine ⟨hsummary, ?_, ?_, ?_⟩
    · rw [← map_name_summary hbuild, ← map_name_summary hother, hsummary]
    · exact map_nodes_eq_of_summary_eq NodeSummary.level (fun _ _ => rfl) (fun _ _ => rfl) hsummary
    · exact map_nodes_eq_of_summary_eq (fun summary => summary.wires.link) (fun _ _ => rfl)
        (fun _ _ => rfl) hsummary

/-- A test with a name that imitates a level and a link. -/
def imitatingTest : List String := ["if", "a L1 next=2", "end"]

/-- The graph of that test, whatever carries the names. -/
def imitatingGraph (command : String → α) : Graph α where
  nodes :=
    [{ command := command "if", level := 0, left := some 2, right := some 1 },
      { command := command "a L1 next=2", level := 1, next := some 2 },
      { command := command "end", level := 0 }]

end Built

/-- The bare names and the recorded commands have the same listing, so the same summary. -/
theorem imitating_listing_carries_summary :
    Graph.build? imitatingTest = .ok (imitatingGraph id) ∧
      Graph.build? (imitatingTest.map Command.ofName) = .ok (imitatingGraph Command.ofName) ∧
      (imitatingGraph id).listing = (imitatingGraph Command.ofName).listing ∧
      (imitatingGraph id).summary = (imitatingGraph Command.ofName).summary := by
  have hbuild : Graph.build? imitatingTest = .ok (imitatingGraph id) := rfl
  have hother : Graph.build? (imitatingTest.map Command.ofName) =
      .ok (imitatingGraph Command.ofName) := rfl
  have hsame := (listing_carries_summary hbuild).2 _ _ hother (by decide) (by decide) rfl
  exact ⟨hbuild, hother, rfl, hsame.1⟩

end StepFlow
