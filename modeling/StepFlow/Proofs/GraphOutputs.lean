import StepFlow.Proofs.JsonPretty
import StepFlow.Proofs.Levels
import StepFlow.Proofs.Listings
import StepFlow.Proofs.Reports
import StepFlow.Proofs.StoredSuites

/-!
# Two forms of the same graphs

The graphs of tests are printed as text or as JSON.  The text is written while the graphs are built,
and the JSON from their summaries when all of them are built.  Both go through the same tests in the
same order, so they fail alike, and what they write of a test can be written from its name and the
summary of its graph.  A reader of JSON gets exactly these back.
Main statement: `formats_carry_same_graphs`.
-/

namespace StepFlow

open Json Recording

section Definitions

/-- The tests that are asked for: those with the given name, or all of them. -/
def selectedTests (name : Option String) (tests : List RecordedTest) : List RecordedTest :=
  tests.filter fun test => name.all (test.name == ·)

/-- What is reported when the graphs of a file's tests are asked for in one of the two forms. -/
def graphReport (settings : Settings) (path : String) (content : Except FileFault String)
    (name : Option String) (format : OutputFormat) : Report :=
  (Task.graph path name (some format)).run settings content

/-- The members of the object that is written for a node. -/
def NodeSummary.members (node : NodeSummary) : List (String × Value) :=
  let pointer (name : String) (target : Option NodeId) : List (String × Value) :=
    target.toList.map fun id => (name, .nat id)
  [("index", .nat node.index), ("name", .string node.name), ("level", .nat node.level)] ++
    pointer "next" node.wires.next ++ pointer "left" node.wires.left ++
    pointer "right" node.wires.right

/-- What is exported of a test: its name and the summary of its graph. -/
structure GraphExport where
  name : String
  summary : GraphSummary
  deriving DecidableEq, Repr

namespace GraphExport

/-- The export of a test whose commands have a graph.  The listing of the graph has one line for
each node of the summary. -/
structure IsOf (entry : GraphExport) (test : RecordedTest) : Prop where
  name : entry.name = test.name
  graph : ∃ graph, Graph.build? test.commands = .ok graph ∧ graph.summary = entry.summary ∧
    graph.listing = "\n".intercalate (entry.summary.nodes.map NodeSummary.line)

/-- The name as a heading, and the lines of the listing. -/
def text (entry : GraphExport) : String :=
  "# " ++ entry.name ++ "\n" ++ String.join (entry.summary.nodes.map fun node => node.line ++ "\n")

/-- The members of the object that is written for a test. -/
def members (entry : GraphExport) : List (String × Value) :=
  [("name", .string entry.name), ("nodes", .array (entry.summary.nodes.map NodeSummary.json))]

end GraphExport

/-- The members of an object that stores a node.  A link that the node does not have is left
out. -/
structure StoresNode (members : List (String × Value)) (node : NodeSummary) : Prop where
  names : ∀ member ∈ members, member.1 ∈ ["index", "name", "level", "next", "left", "right"]
  index : valuesOf ["index"] members = [.nat node.index]
  name : valuesOf ["name"] members = [.string node.name]
  level : valuesOf ["level"] members = [.nat node.level]
  next : valuesOf ["next"] members = node.wires.next.toList.map .nat
  left : valuesOf ["left"] members = node.wires.left.toList.map .nat
  right : valuesOf ["right"] members = node.wires.right.toList.map .nat

/-- The members of an object that stores the export of a test. -/
structure StoresExport (members : List (String × Value)) (entry : GraphExport) : Prop where
  names : ∀ member ∈ members, member.1 ∈ ["name", "nodes"]
  name : valuesOf ["name"] members = [.string entry.name]
  nodes : ∃ objects, valuesOf ["nodes"] members = [.array (objects.map Tree.object)] ∧
    List.Forall₂ StoresNode objects entry.summary.nodes

end Definitions

/-! ## Objects and what they store -/

section Storing

variable {objects : List (List (String × Value))} {stored : List (String × Value)}
  {node other : NodeSummary} {entry second : GraphExport}

theorem NodeSummary.json_eq (node : NodeSummary) : node.json = .object node.members := rfl

theorem storesNode_members (node : NodeSummary) : StoresNode node.members node := by
  obtain ⟨index, name, level, next, left, right⟩ := node
  cases next <;> cases left <;> cases right <;>
    exact ⟨by simp [NodeSummary.members], rfl, rfl, rfl, rfl, rfl, rfl⟩

theorem storesExport_members (entry : GraphExport) : StoresExport entry.members entry where
  names := by simp [GraphExport.members]
  name := rfl
  nodes := by
    refine ⟨entry.summary.nodes.map NodeSummary.members, ?_, ?_⟩
    · rw [List.map_map]
      rfl
    · exact List.forall₂_map_left_iff.mpr (List.forall₂_same.mpr fun node _ =>
        storesNode_members node)

theorem nat_injective : Function.Injective Tree.nat := fun _ _ heq =>
  ofNat_injective (Tree.number.inj heq)

theorem pointer_inj {left right : Option NodeId}
    (heq : left.toList.map Tree.nat = right.toList.map Tree.nat) : left = right := by
  have hlists : left.toList = right.toList := List.map_injective_iff.mpr nat_injective heq
  cases left <;> cases right <;> simp_all

/-- An object stores no more than one node. -/
theorem StoresNode.unique (hnode : StoresNode stored node) (hother : StoresNode stored other) :
    node = other := by
  have hindex : node.index = other.index :=
    nat_injective (List.singleton_inj.mp (hnode.index.symm.trans hother.index))
  have hname : node.name = other.name :=
    Tree.string.inj (List.singleton_inj.mp (hnode.name.symm.trans hother.name))
  have hlevel : node.level = other.level :=
    nat_injective (List.singleton_inj.mp (hnode.level.symm.trans hother.level))
  have hwires : node.wires = other.wires := by
    rw [Wires.mk.injEq]
    exact ⟨pointer_inj (hnode.next.symm.trans hother.next),
      pointer_inj (hnode.left.symm.trans hother.left),
      pointer_inj (hnode.right.symm.trans hother.right)⟩
  rw [NodeSummary.mk.injEq]
  exact ⟨hindex, hname, hlevel, hwires⟩

theorem object_injective : Function.Injective
    (Tree.object : List (String × Value) → Value) := fun _ _ => Tree.object.inj

/-- An object stores the export of no more than one test. -/
theorem StoresExport.unique (hentry : StoresExport stored entry)
    (hsecond : StoresExport stored second) : entry = second := by
  have hname : entry.name = second.name :=
    Tree.string.inj (List.singleton_inj.mp (hentry.name.symm.trans hsecond.name))
  obtain ⟨objects, hobjects, hnodes⟩ := hentry.nodes
  obtain ⟨others, hothers, hsecondNodes⟩ := hsecond.nodes
  have hsame : objects = others := List.map_injective_iff.mpr object_injective
    (Tree.array.inj (List.singleton_inj.mp (hobjects.symm.trans hothers)))
  subst hsame
  have hunique : Relator.RightUnique StoresNode := fun _ _ _ => StoresNode.unique
  have hsummary : entry.summary.nodes = second.summary.nodes :=
    List.right_unique_forall₂' hunique hnodes hsecondNodes
  rw [GraphExport.mk.injEq, GraphSummary.mk.injEq]
  exact ⟨hname, hsummary⟩

end Storing

/-! ## What is written of one test -/

section Exports

variable {test : RecordedTest} {tests : List RecordedTest} {entry : GraphExport}
  {entries : List GraphExport} {graph : Graph Command} {kind : Nat → Prop}

theorem isOf_of_build? (hbuild : Graph.build? test.commands = .ok graph) :
    GraphExport.IsOf ⟨test.name, graph.summary⟩ test where
  name := rfl
  graph := ⟨graph, hbuild, rfl, listing_eq_intercalate_line hbuild⟩

theorem exists_exports (hvalid : tests.all RecordedTest.isValid = true) :
    ∃ entries, List.Forall₂ GraphExport.IsOf entries tests := by
  induction tests with
  | nil => exact ⟨[], .nil⟩
  | cons test tests ih =>
      rw [List.all_cons, Bool.and_eq_true] at hvalid
      obtain ⟨graph, hbuild⟩ := RecordedTest.isValid_eq_true_iff.mp hvalid.1
      obtain ⟨entries, hentries⟩ := ih hvalid.2
      exact ⟨_ :: entries, .cons (isOf_of_build? hbuild) hentries⟩

theorem exists_isOf_of_mem (hentries : List.Forall₂ GraphExport.IsOf entries tests)
    (hmem : entry ∈ entries) : ∃ test ∈ tests, entry.IsOf test := by
  induction hentries with
  | nil => contradiction
  | @cons first test entries tests hfirst _ ih =>
      rcases List.mem_cons.mp hmem with rfl | hmem
      · exact ⟨test, List.mem_cons_self, hfirst⟩
      · obtain ⟨test, htest, hentry⟩ := ih hmem
        exact ⟨test, List.mem_cons_of_mem _ htest, hentry⟩

theorem intercalate_append_newline {lines : List String} (hne : lines ≠ []) :
    "\n".intercalate lines ++ "\n" = String.join (lines.map (· ++ "\n")) := by
  induction lines with
  | nil => exact absurd rfl hne
  | cons line later ih =>
      cases later with
      | nil => simp
      | cons next later =>
          rw [String.intercalate_cons_cons, List.map_cons, String.join_cons,
            ← ih (List.cons_ne_nil _ _), String.append_assoc]

/-- The listing has no line only if the graph has no node. -/
theorem intercalate_line_eq_empty_iff {nodes : List NodeSummary} :
    "\n".intercalate (nodes.map NodeSummary.line) = "" ↔ nodes = [] := by
  have hlines : ∀ line ∈ (nodes.map NodeSummary.line).map String.toList, line ≠ [] := by
    simp only [List.forall_mem_map]
    exact fun node _ => node.toList_line_ne_nil
  have hempty := Text.unlines_eq_nil_iff hlines
  rw [List.map_eq_nil_iff, List.map_eq_nil_iff] at hempty
  rw [← String.toList_inj, String.toList_intercalate]
  exact hempty

theorem graphText_eq (hname : entry.name = test.name)
    (hlisting : graph.listing = "\n".intercalate (entry.summary.nodes.map NodeSummary.line)) :
    graphText test.name graph = entry.text := by
  rw [graphText, GraphExport.text, hname, hlisting]
  congr 1
  by_cases hnodes : entry.summary.nodes = []
  · rw [hnodes]
    rfl
  · have hnonempty : ¬("\n".intercalate (entry.summary.nodes.map NodeSummary.line)).isEmpty :=
      fun hempty => hnodes (intercalate_line_eq_empty_iff.mp (String.isEmpty_iff.mp hempty))
    rw [if_neg hnonempty, intercalate_append_newline (mt List.map_eq_nil_iff.mp hnodes),
      List.map_map]
    rfl

/-- The text form writes the exports of the tests one after the other. -/
theorem graphTexts_of_exports (hentries : List.Forall₂ GraphExport.IsOf entries tests)
    (out : String) :
    graphTexts out tests = ⟨out ++ String.join (entries.map GraphExport.text), .ok true⟩ := by
  induction hentries generalizing out with
  | nil => simp [graphTexts]
  | @cons entry test entries tests hentry _ ih =>
      obtain ⟨hname, graph, hbuild, _, hlisting⟩ := hentry
      rw [graphTexts, hbuild]
      simp only [graphText_eq hname hlisting, ih, List.map_cons, String.join_cons,
        String.append_assoc]

/-- The JSON form collects an object for each of them. -/
theorem graphJsons_of_exports (hentries : List.Forall₂ GraphExport.IsOf entries tests) :
    graphJsons tests = .ok ((entries.map GraphExport.members).map Tree.object) := by
  induction hentries with
  | nil => rfl
  | @cons entry test entries tests hentry _ ih =>
      obtain ⟨hname, graph, hbuild, hsummary, _⟩ := hentry
      simp only [graphJsons, hbuild, ih, graphJson, ← hname, hsummary]
      rfl

/-! ### Its numbers -/

theorem length_openBefore_le (roles : List Role) (index : Nat) :
    (openBefore roles index).length ≤ index := by
  induction index with
  | zero => exact Nat.le_refl 0
  | succ index ih =>
      rcases openBefore_succ_cases roles index with ⟨block, hopen⟩ | hsame | ⟨_, htail⟩
      · rw [hopen, List.length_cons]
        exact Nat.succ_le_succ ih
      · rw [hsame]
        exact Nat.le_succ_of_le ih
      · rw [htail, List.length_tail]
        omega

/-- The number stands in the summary of the node. -/
def NodeSummary.Mentions (node : NodeSummary) (number : Nat) : Prop :=
  number = node.index ∨ number = node.level ∨ node.wires.LeadTo number

/-- Positions and levels are smaller than the number of commands. -/
theorem lt_length_of_mentions (hbuild : Graph.build? test.commands = .ok graph) {node : NodeSummary}
    (hnode : node ∈ graph.summary.nodes) {number : Nat} (hnumber : node.Mentions number) :
    number < test.commands.length := by
  obtain ⟨⟨node, index⟩, hmem, rfl⟩ := List.mem_map.mp hnode
  have hnode : graph.node? index = some node := List.mem_zipIdx_iff_getElem?.mp hmem
  obtain ⟨hindex, hlevel⟩ := level_of_node? hbuild hnode
  have hle : node.level ≤ index := by
    rw [hlevel]
    exact (levelAt_le _ _).1.trans (length_openBefore_le _ _)
  rw [length_rolesOf] at hindex
  rcases hnumber with rfl | rfl | hlead
  · exact hindex
  · exact Nat.lt_of_le_of_lt hle hindex
  · exact (wellFormed_wires_of_node? hbuild hnode).inside number hlead

theorem nests_node {node : NodeSummary} (hkind : ∀ number, node.Mentions number → kind number) :
    Nests kind 1 node.json := by
  rw [node.json_eq]
  apply nests_object
  have hindex : kind node.index := hkind _ (.inl rfl)
  have hlevel : kind node.level := hkind _ (.inr (.inl rfl))
  have hpointer : ∀ (name : String) (target : Option NodeId),
      (∀ id, target = some id → kind id) →
      ∀ member ∈ target.toList.map fun id => (name, Tree.nat id), Nests kind 0 member.2 := by
    intro name target htarget member hmember
    obtain ⟨id, hid, rfl⟩ := List.mem_map.mp hmember
    exact nests_nat (htarget id (Option.mem_toList.mp hid))
  simp only [NodeSummary.members, List.forall_mem_append]
  refine ⟨⟨⟨?_, hpointer _ _ fun id hid => hkind id (.inr (.inr (.inl hid)))⟩,
    hpointer _ _ fun id hid => hkind id (.inr (.inr (.inr (.inl hid))))⟩,
    hpointer _ _ fun id hid => hkind id (.inr (.inr (.inr (.inr hid))))⟩
  simp only [List.forall_mem_cons]
  exact ⟨nests_nat hindex, nests_string _, nests_nat hlevel, List.forall_mem_nil _⟩

/-- What is written of tests nests four containers. -/
theorem nests_exports
    (hkind : ∀ entry ∈ entries, ∀ node ∈ entry.summary.nodes, ∀ number,
      node.Mentions number → kind number) :
    Nests kind 4 (.array ((entries.map GraphExport.members).map Tree.object)) := by
  apply nests_array
  simp only [List.forall_mem_map]
  intro entry hentry
  apply nests_object
  simp only [GraphExport.members, List.forall_mem_cons]
  refine ⟨(nests_string _).mono (Nat.zero_le 2), ?_, List.forall_mem_nil _⟩
  apply nests_array
  simp only [List.forall_mem_map]
  exact fun node hnode => nests_node (hkind entry hentry node hnode)

end Exports

/-! ## Runs -/

section Runs

variable {name : Option String} {tests others selected : List RecordedTest} {path : String}
  {content : Except FileFault String} {entries : List GraphExport}

/-- Only the tests that are asked for count, and a name that no test has is a failure. -/
theorem selectTests_eq (path : String) (name : Option String) (tests : List RecordedTest) :
    selectTests path name tests =
      match name, selectedTests name tests with
      | some wanted, [] => .error (.noSuchTest wanted path)
      | _, selected => .ok selected := by
  cases name with
  | none => simp [selectTests, selectedTests]
  | some wanted =>
      have hselected : selectedTests (some wanted) tests =
          tests.filter fun test => test.name == wanted := rfl
      rw [selectTests, hselected]
      cases tests.filter fun test => test.name == wanted <;> rfl

theorem selectTests_congr (path : String)
    (hsame : selectedTests name others = selectedTests name tests) :
    selectTests path name others = selectTests path name tests := by
  rw [selectTests_eq, selectTests_eq, hsame]

theorem selectTests_eq_ok_iff :
    selectTests path name tests = .ok selected ↔
      selectedTests name tests = selected ∧
        ∀ wanted ∈ name, ∃ test ∈ tests, test.name = wanted := by
  rw [selectTests_eq]
  cases name with
  | none => simp
  | some wanted =>
      have hfound : (∃ test ∈ tests, test.name = wanted) ↔
          selectedTests (some wanted) tests ≠ [] := by
        simp [selectedTests, List.filter_eq_nil_iff]
      simp only [Option.mem_some_iff, forall_eq', hfound]
      cases selectedTests (some wanted) tests with
      | nil => simp
      | cons test later => simp

theorem run_graph_of_read (hread : Suite.ofFile path content = .ok tests) (settings : Settings)
    (format : Option OutputFormat) :
    (Task.graph path name format).run settings content =
      match selectTests path name tests with
      | .error failure => ⟨"", .error failure⟩
      | .ok selected => graphTests (format.getD settings.format) selected := by
  cases hselect : selectTests path name tests <;>
    simp only [Task.run, Task.file, hread, hselect]

theorem isOk_run_graph_iff (hread : Suite.ofFile path content = .ok tests) (settings : Settings)
    (format : Option OutputFormat) :
    ((Task.graph path name format).run settings content).result.isOk = true ↔
      (∀ test ∈ selectedTests name tests, ∃ graph, Graph.build? test.commands = .ok graph) ∧
        ∀ wanted ∈ name, ∃ test ∈ tests, test.name = wanted := by
  rw [run_graph_of_read hread]
  cases hselect : selectTests path name tests with
  | error failure =>
      refine iff_of_false Bool.false_ne_true fun hboth => ?_
      have hok : selectTests path name tests = .ok (selectedTests name tests) :=
        selectTests_eq_ok_iff.mpr ⟨rfl, hboth.2⟩
      rw [hselect] at hok
      contradiction
  | ok selected =>
      obtain ⟨rfl, hnamed⟩ := selectTests_eq_ok_iff.mp hselect
      simp only [isOk_graphTests_iff, result_checkTests_eq_ok_true_iff, List.all_eq_true,
        RecordedTest.isValid_eq_true_iff]
      exact (and_iff_left hnamed).symm

theorem ofFile_of_read {text : String}
    (hread : Suite.read text ((fileStem? path).getD "commands") = .ok tests) :
    Suite.ofFile path (.ok text) = .ok tests := by
  simp only [Suite.ofFile, hread]

theorem exact_readsWhole_exports (entries : List GraphExport) :
    ReadsWhole exact
      (String.ofList (Tree.pretty 0 (.array ((entries.map GraphExport.members).map .object))) ++
        "\n").toList
      (.array ((entries.map GraphExport.members).map .object)) := by
  rw [String.toList_append, String.toList_ofList]
  have hnests : Nests (fun _ => True) 4 (.array ((entries.map GraphExport.members).map .object)) :=
    nests_exports fun _ _ _ _ _ _ => trivial
  exact exact_readsWhole_pretty hnests

theorem strict_readsWhole_exports (hentries : List.Forall₂ GraphExport.IsOf entries selected)
    (hlimit : ∀ test ∈ selected, test.commands.length ≤ Scaled.limit) :
    ReadsWhole strict
      (String.ofList (Tree.pretty 0 (.array ((entries.map GraphExport.members).map .object))) ++
        "\n").toList
      (.array ((entries.map GraphExport.members).map .object)) := by
  rw [String.toList_append, String.toList_ofList]
  refine strict_readsWhole_pretty (nests_exports fun entry hentry node hnode number hnumber => ?_)
    (by decide)
  obtain ⟨test, htest, _, graph, hbuild, hsummary, _⟩ := exists_isOf_of_mem hentries hentry
  have hlt := lt_length_of_mentions hbuild (hsummary ▸ hnode) hnumber
  exact (Nat.le_of_lt hlt).trans (hlimit test htest)

end Runs

/-- Whether the graphs of a file's tests can be printed does not depend on the form: the tests that
are asked for must have graphs, and there must be one if a name is given.  Other tests have no
influence.  What is printed as JSON is read back, by a reader without limits and, for tests of a
size that is counted in 64 bits, by the strict one, as one object for each of these tests, which
stores its name and the summary of its graph and nothing else.  What is printed as text is written
from these names and summaries, in the same order. -/
theorem formats_carry_same_graphs {path : String} {content : Except FileFault String}
    {tests : List RecordedTest} (hread : Suite.ofFile path content = .ok tests)
    (name : Option String) (settings : Settings) :
    let selected := selectedTests name tests
    let report := graphReport settings path content name
    (∀ format, (Task.graph path name format).run settings content =
        report (format.getD settings.format)) ∧
      ((report .text).result.isOk = true ↔ (report .json).result.isOk = true) ∧
      (∀ format, (report format).result.isOk = true ↔
        (∀ test ∈ selected, ∃ graph, Graph.build? test.commands = .ok graph) ∧
          ∀ wanted ∈ name, ∃ test ∈ tests, test.name = wanted) ∧
      (∀ otherContent others, Suite.ofFile path otherContent = .ok others →
        selectedTests name others = selected →
          graphReport settings path otherContent name = report) ∧
      ((report .json).result.isOk = true →
        ∃ (entries : List GraphExport) (objects : List (List (String × Value))),
          List.Forall₂ GraphExport.IsOf entries selected ∧
          List.Forall₂ StoresExport objects entries ∧
          (∀ second, List.Forall₂ StoresExport objects second → second = entries) ∧
          ReadsWhole exact (report .json).out.toList (.array (objects.map .object)) ∧
          ((∀ test ∈ selected, test.commands.length ≤ Scaled.limit) →
            ReadsWhole strict (report .json).out.toList (.array (objects.map .object))) ∧
          (report .text).out = String.join (entries.map GraphExport.text)) := by
  intro selected report
  have hok : ∀ format, (report format).result.isOk = true ↔
      (∀ test ∈ selected, ∃ graph, Graph.build? test.commands = .ok graph) ∧
        ∀ wanted ∈ name, ∃ test ∈ tests, test.name = wanted := fun format =>
    isOk_run_graph_iff hread settings (some format)
  refine ⟨fun format => ?_, (hok .text).trans (hok .json).symm, hok, ?_, fun hsuccess => ?_⟩
  case refine_1 =>
    rw [run_graph_of_read hread]
    exact (run_graph_of_read hread settings (some _)).symm
  case refine_2 =>
    intro otherContent others hother hsame
    funext format
    rw [graphReport, run_graph_of_read hother, selectTests_congr path hsame]
    exact (run_graph_of_read hread settings (some format)).symm
  case refine_3 =>
    obtain ⟨hbuilt, hnamed⟩ := (hok .json).mp hsuccess
    have hselect : selectTests path name tests = .ok selected :=
      selectTests_eq_ok_iff.mpr ⟨rfl, hnamed⟩
    have hreport : ∀ format, report format = graphTests format selected := by
      intro format
      show graphReport settings path content name format = _
      rw [graphReport, run_graph_of_read hread, hselect]
      rfl
    have hvalid : selected.all RecordedTest.isValid = true := by
      simpa only [List.all_eq_true, RecordedTest.isValid_eq_true_iff] using hbuilt
    obtain ⟨entries, hentries⟩ := exists_exports hvalid
    have hjson : (report .json).out = String.ofList
        (Tree.pretty 0 (.array ((entries.map GraphExport.members).map .object))) ++ "\n" := by
      simp only [hreport, graphTests, graphJsons_of_exports hentries]
    have htext : (report .text).out = String.join (entries.map GraphExport.text) := by
      simp only [hreport, graphTests, graphTexts_of_exports hentries, String.empty_append]
    have hstored : List.Forall₂ StoresExport (entries.map GraphExport.members) entries :=
      List.forall₂_map_left_iff.mpr (List.forall₂_same.mpr fun entry _ =>
        storesExport_members entry)
    have hunique : Relator.RightUnique StoresExport := fun _ _ _ => StoresExport.unique
    rw [hjson]
    exact ⟨entries, entries.map GraphExport.members, hentries, hstored,
      fun second hsecond => List.right_unique_forall₂' hunique hsecond hstored,
      exact_readsWhole_exports entries, strict_readsWhole_exports hentries, htext⟩

/-- Two tests of one name and a test between them that has no graph. -/
def sampleExportTests : List RecordedTest :=
  [{ name := "a\"", commands := [.ofName "echo"] }, { name := "b", commands := [.ofName "if"] },
    { name := "a\"" }]

/-- A file in which these tests are stored. -/
def sampleExportFile : String := String.ofList (Suite.stored sampleExportTests).compact

theorem sample_formats_carry_same_graphs :
    Suite.ofFile "shop.json" (.ok sampleExportFile) = .ok sampleExportTests ∧
      ∃ (entries : List GraphExport) (objects : List (List (String × Value))),
        List.Forall₂ GraphExport.IsOf entries
          [{ name := "a\"", commands := [.ofName "echo"] }, { name := "a\"" }] ∧
        List.Forall₂ StoresExport objects entries ∧
        ReadsWhole exact
          (graphReport {} "shop.json" (.ok sampleExportFile) (some "a\"") .json).out.toList
          (.array (objects.map .object)) ∧
        (graphReport {} "shop.json" (.ok sampleExportFile) (some "a\"") .text).out =
          String.join (entries.map GraphExport.text) := by
  have hread : Suite.ofFile "shop.json" (.ok sampleExportFile) = .ok sampleExportTests :=
    ofFile_of_read (Suite.read_stored _ _)
  have hselected : selectedTests (some "a\"") sampleExportTests =
      [{ name := "a\"", commands := [.ofName "echo"] }, { name := "a\"" }] := by decide
  obtain ⟨_, _, hok, _, hsuccess⟩ := formats_carry_same_graphs hread (some "a\"") {}
  rw [hselected] at hok hsuccess
  have hbuilt : (graphReport {} "shop.json" (.ok sampleExportFile) (some "a\"")
      .json).result.isOk = true := by
    refine (hok .json).mpr ⟨?_, by decide⟩
    simp only [List.forall_mem_cons]
    exact ⟨⟨_, rfl⟩, ⟨_, rfl⟩, List.forall_mem_nil _⟩
  obtain ⟨entries, objects, hentries, hobjects, _, hexact, _, htext⟩ := hsuccess hbuilt
  exact ⟨hread, entries, objects, hentries, hobjects, hexact, htext⟩

end StepFlow
