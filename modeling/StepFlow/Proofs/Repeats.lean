import StepFlow.Proofs.Confinement
import StepFlow.Proofs.Enclosure

/-!
# Only loops lead back

Links lead forward, with two exceptions: in a loop that is tested first, a step before a keyword
leads back to the test, and the `while` of a `do` leads right to the `do`.  Both lead to the opening
command of the block directly around them.  As a block is entered at its opening command only, a run
that goes back has been there before: the opening command dominates everything in its loop, and the
graph is reducible.  Main statement: `backward_links_repeat_loops`.
-/

namespace StepFlow

/-- The command at `source` repeats the loop around it: it has this link, which leads back to
`target`. -/
inductive Repeats (roles : List Role) (source : Nat) : Link → Nat → Prop
  /-- In a `while` or `times`, a step before a keyword goes on with the test. -/
  | step {loop : Bracket} {coming : Role} (hrole : roles[source]? = some .ordinary)
      (hloop : innermost? roles source = some loop) (hfirst : loop.block.testsFirst)
      (hcoming : roles[source + 1]? = some coming) (hkeyword : coming ≠ .ordinary) :
      Repeats roles source (.next loop.opener) loop.opener
  /-- The `while` of a `do` goes right to the `do`. -/
  | test {loop : Bracket} {last : Nat} (hrole : roles[source]? = some (.loopTest .whileTest))
      (hloop : innermost? roles source = some loop) (hdo : loop.block = .doLoop)
      (hlast : Closes roles loop last) :
      Repeats roles source (.branch last loop.opener) loop.opener

section Rule

variable {roles : List Role} {source target last : Nat} {link : Link}

theorem Repeats.exists_innermost (hrepeats : Repeats roles source link target) :
    ∃ loop, innermost? roles source = some loop ∧ innermost? roles (source + 1) = some loop ∧
      loop.block ≠ .ifBlock ∧ target = loop.opener := by
  cases hrepeats with
  | @step loop _ hrole hloop hfirst hcoming hkeyword =>
      refine ⟨loop, hloop, (innermost?_succ_of_ordinary hrole).trans hloop, ?_, rfl⟩
      intro hif
      rw [hif] at hfirst
      contradiction
  | @test loop _ hrole hloop hdo hlast =>
      have hsame := innermost?_succ_of_doTest hrole (by rw [hloop, Option.map_some, hdo])
      exact ⟨loop, hloop, hsame.trans hloop, by rw [hdo]; nofun, rfl⟩

theorem Repeats.lt (hrepeats : Repeats roles source link target) : target < source := by
  obtain ⟨loop, hloop, _, _, rfl⟩ := hrepeats.exists_innermost
  exact opener_lt_of_mem (mem_openBefore_of_innermost hloop)

theorem Repeats.mem_targets (hrepeats : Repeats roles source link target) :
    target ∈ link.targets := by
  cases hrepeats with
  | step => exact List.mem_singleton_self _
  | test => exact List.mem_cons_self

theorem Repeats.linkRule (hrepeats : Repeats roles source link target) :
    LinkRule roles source link := by
  obtain ⟨loop, hloop, hstays, _, _⟩ := hrepeats.exists_innermost
  cases hrepeats with
  | step hrole hloop hfirst hcoming hkeyword =>
      exact .stepRepeats hrole hloop hfirst hcoming hkeyword
  | test hrole hloopTest hdo hlast =>
      obtain rfl := Option.some_inj.mp (hloop.symm.trans hloopTest)
      have hnext := Nat.lt_of_le_of_lt (hlast.lt_of_innermost_succ hstays) hlast.lt_length
      exact .doTest hnext hrole hloop hdo hlast

/-- The test of a loop that is tested first leads right into the loop and left to its `end`. -/
theorem LinkRule.of_loop {loop : Bracket} (hrule : LinkRule roles loop.opener link)
    (hopen : loop ∈ openBefore roles source) (hnext : loop.opener + 1 < roles.length)
    (hfirst : loop.block.testsFirst) :
    ∃ last, Closes roles loop last ∧ link = .branch last (loop.opener + 1) := by
  obtain ⟨block, opener⟩ := loop
  rcases role_opener hopen with ⟨keyword, hrole, rfl⟩ | ⟨hrole, rfl, hown⟩
  · cases keyword with
    | ifBlock | doLoop => contradiction
    | timesLoop => exact hrule.of_times hrole hnext
  · exact hrule.of_while hrole hown hnext

/-- A link leads forward or repeats a loop. -/
theorem LinkRule.lt_or_repeats (hrule : LinkRule roles source link)
    (htarget : target ∈ link.targets) : source < target ∨ Repeats roles source link target := by
  cases hrule with
  | last hend => cases htarget
  | outermostEnd hrole haround => cases htarget
  | doBody hnext hrole | elseBody hnext hrole | repeatIf hnext hrole
  | endBeforeStep hrole haround hcoming | stepContinues hrole hcoming hstays =>
      rw [List.mem_singleton.mp htarget]
      exact .inl (Nat.lt_succ_self _)
  | ifTest hnext hrole hleft | elseIfTest hnext hrole hchain hleft =>
      rcases List.mem_pair.mp htarget with rfl | rfl
      · exact .inl (Nat.lt_succ_self _)
      · exact .inl hleft.1
  | timesTest hnext hrole hlast | whileTest hnext hrole hown hlast =>
      rcases List.mem_pair.mp htarget with rfl | rfl
      · exact .inl (Nat.lt_succ_self _)
      · exact .inl hlast.opener_lt
  | doTest hnext hrole hloop hdo hlast =>
      have hsame := innermost?_succ_of_doTest hrole (by rw [hloop, Option.map_some, hdo])
      rcases List.mem_pair.mp htarget with rfl | rfl
      · exact .inr (.test hrole hloop hdo hlast)
      · exact .inl (hlast.lt_of_innermost_succ (hsame.trans hloop))
  | endBeforeKeyword hrole haround hcoming hkeyword hlast =>
      rw [List.mem_singleton.mp htarget]
      exact .inl (hlast.lt_of_innermost_succ haround)
  | stepLeavesArm hrole hchain hif hcoming hmarker hlast =>
      have hsame := innermost?_succ_of_ordinary hrole
      rw [List.mem_singleton.mp htarget]
      exact .inl (hlast.lt_of_innermost_succ (hsame.trans hchain))
  | stepRepeats hrole hloop hfirst hcoming hkeyword =>
      rw [List.mem_singleton.mp htarget]
      exact .inr (.step hrole hloop hfirst hcoming hkeyword)

/-- The rule links a command backward exactly if the command repeats a loop. -/
theorem LinkRule.repeats_iff {other : Link} (hrule : LinkRule roles source link) :
    Repeats roles source other target ↔ link = other ∧ target ∈ link.targets ∧ target ≤ source := by
  constructor
  · intro hrepeats
    obtain rfl := hrule.unique hrepeats.linkRule
    exact ⟨rfl, hrepeats.mem_targets, Nat.le_of_lt hrepeats.lt⟩
  · rintro ⟨rfl, htarget, hback⟩
    exact (hrule.lt_or_repeats htarget).resolve_left (Nat.not_lt_of_le hback)

/-- What is repeated is the block directly around the command. -/
theorem Repeats.exists_enclosesDirectly (hrepeats : Repeats roles source link target)
    (hwell : WellBracketed roles) :
    ∃ loop last, innermost? roles source = some loop ∧
      EnclosesDirectly roles loop last source ∧ target = loop.opener := by
  obtain ⟨loop, hloop, _, _, htarget⟩ := hrepeats.exists_innermost
  have hrole : ∃ role, roles[source]? = some role ∧ role ≠ .blockEnd := by
    cases hrepeats with
    | step hrole => exact ⟨_, hrole, nofun⟩
    | test hrole => exact ⟨_, hrole, nofun⟩
  obtain ⟨role, hrole, hnotEnd⟩ := hrole
  obtain ⟨last, hlast⟩ := hwell.exists_enclosesDirectly hrole hnotEnd hloop
  exact ⟨loop, last, hloop, hlast, htarget⟩

end Rule

section Built

variable {α : Type} [Step α] {commands : List α} {graph : Graph α}

/-- A run that stands strictly inside a block has visited the opening command of the block. -/
theorem Graph.IsRun.exists_earlier_of_encloses {visited : List NodeId} {block : Bracket}
    {time place last : Nat} (hrun : graph.IsRun visited)
    (hbuild : Graph.build? commands = .ok graph)
    (hencloses : Encloses (rolesOf commands) block last place)
    (hplace : visited[time]? = some place) :
    ∃ earlier, earlier < time ∧ visited[earlier]? = some block.opener := by
  have hinside : block.Holds last place :=
    ⟨Nat.le_of_lt hencloses.opener_lt, Nat.le_of_lt hencloses.lt_last⟩
  obtain ⟨entry, hle, hentry, _⟩ := exists_entry_of_holds hrun.starts (hrun.isChain_hop hbuild)
    hencloses.closes hplace hinside
  refine ⟨entry, Nat.lt_of_le_of_ne hle ?_, hentry⟩
  rintro rfl
  rw [hplace, Option.some_inj] at hentry
  exact Nat.ne_of_gt hencloses.opener_lt hentry

/-- Backward links are the repeats of loops: from a step before a keyword to the test of the `while`
or `times` around it, and from the `while` of a `do` to the `do`.  They lead to the opening command
of the block directly around them, never to themselves, and a run that takes one has visited its
target before. -/
theorem backward_links_repeat_loops (hbuild : Graph.build? commands = .ok graph) :
    (∀ source node link target, graph.node? source = some node →
      (Repeats (rolesOf commands) source link target ↔
        node.link = link ∧ target ∈ node.link.targets ∧ target ≤ source)) ∧
      (∀ source target, graph.Leads source target → target ≤ source →
        target ≠ source ∧ ∃ loop last, innermost? (rolesOf commands) source = some loop ∧
          EnclosesDirectly (rolesOf commands) loop last source ∧ target = loop.opener) ∧
      ∀ visited, graph.IsRun visited → ∀ time source target, visited[time]? = some source →
        visited[time + 1]? = some target → target ≤ source →
          ∃ earlier, earlier < time ∧ visited[earlier]? = some target := by
  have hback : ∀ source target, graph.Leads source target → target ≤ source →
      target ≠ source ∧ ∃ loop last, innermost? (rolesOf commands) source = some loop ∧
        EnclosesDirectly (rolesOf commands) loop last source ∧ target = loop.opener := by
    rintro source target ⟨node, hnode, htarget⟩ hle
    have hrepeats := (linkRule_of_node? hbuild hnode).repeats_iff.mpr ⟨rfl, htarget, hle⟩
    exact ⟨Nat.ne_of_lt hrepeats.lt,
      hrepeats.exists_enclosesDirectly (build?_eq_ok_iff.mp hbuild).1⟩
  refine ⟨fun source node link target hnode => (linkRule_of_node? hbuild hnode).repeats_iff,
    hback, fun visited hrun time source target hsource htarget hle => ?_⟩
  obtain ⟨before, hbefore, hleads⟩ := exists_before_of_succ hrun.follows htarget
  obtain rfl := Option.some_inj.mp (hsource.symm.trans hbefore)
  obtain ⟨_, loop, last, _, hencloses, rfl⟩ := hback source target hleads hle
  exact hrun.exists_earlier_of_encloses hbuild hencloses.toEncloses hsource

/-- A run of the sample that goes back from the last step of the `times` has come through its
test, and the `while` in the second arm goes back to the `do`. -/
theorem sample_backward_links_repeat_loops :
    Graph.build? sampleTest = .ok sampleGraph ∧
      Repeats (rolesOf sampleTest) 6 (.branch 7 4) 4 ∧
      ∀ visited : List NodeId, sampleGraph.IsRun visited → ∀ time : Nat,
        visited[time]? = some 10 → visited[time + 1]? = some 0 →
          ∃ earlier : Nat, earlier < time ∧ visited[earlier]? = some 0 := by
  obtain ⟨hlinks, _, hruns⟩ :=
    backward_links_repeat_loops (rfl : Graph.build? sampleTest = .ok sampleGraph)
  refine ⟨rfl, (hlinks 6 _ _ 4 rfl).mpr ⟨rfl, by decide, by decide⟩, ?_⟩
  intro visited hrun time hsource htarget
  exact hruns visited hrun time 10 0 hsource htarget (by decide)

end Built

end StepFlow
