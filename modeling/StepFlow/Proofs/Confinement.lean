import Mathlib.Data.List.Chain
import StepFlow.Proofs.Links

/-!
# Blocks have one entry and one exit

Whatever its kind, a link leads to the next command, to an arm or the `end` of the innermost open
block, or back to the opening command of that block.  In all three cases the blocks around the
target are the blocks that are open behind the source, up to the block that is repeated.  From
this alone it follows that a run enters a block at its opening command and leaves it at its `end`.
-/

namespace StepFlow

/-- The ways in which a link can lead from `source` to another command. -/
inductive Hop (roles : List Role) (source : Nat) : Nat → Prop
  | onward (hnext : source + 1 < roles.length) : Hop roles source (source + 1)
  /-- Forward to an arm or the `end` of the block around the next command. -/
  | ahead {around : Bracket} {target : Nat} (haround : innermost? roles (source + 1) = some around)
      (hmarks : Marks roles around target) (hlt : source < target) : Hop roles source target
  /-- Back to the opening command of the block around both the command and the next one. -/
  | back {loop : Bracket} (hloop : innermost? roles source = some loop)
      (hstays : innermost? roles (source + 1) = some loop) : Hop roles source loop.opener

/-- The command at `index` belongs to the block that ends at `last`: its opening command and its
`end` included. -/
def Bracket.Holds (block : Bracket) (last index : Nat) : Prop :=
  block.opener ≤ index ∧ index ≤ last

/-- A run can go from `source` to `target` in one step. -/
def Graph.Leads {α : Type} (graph : Graph α) (source target : NodeId) : Prop :=
  ∃ node, graph.node? source = some node ∧ target ∈ node.link.targets

/-- The nodes that a run from the first one visits, in order, whatever its choices are. -/
structure Graph.IsRun {α : Type} (graph : Graph α) (visited : List NodeId) : Prop where
  starts : visited[0]? = some 0
  follows : visited.IsChain graph.Leads

variable {roles : List Role} {source target last : Nat} {block : Bracket} {link : Link}

theorem Hop.toEnd {around : Bracket} (haround : innermost? roles (source + 1) = some around)
    (hlast : Closes roles around last) : Hop roles source last :=
  .ahead haround (.inr hlast) (hlast.lt_of_innermost_succ haround)

theorem Hop.next (hcoming : source + 1 < roles.length)
    (htarget : target ∈ (Link.next (source + 1)).targets) : Hop roles source target := by
  rw [List.mem_singleton.mp htarget]
  exact .onward hcoming

/-- A test leads right into its body and left to wherever the other way goes. -/
theorem Hop.branch {left right : Nat} (hright : Hop roles source right)
    (hleft : Hop roles source left) (htarget : target ∈ (Link.branch left right).targets) :
    Hop roles source target := by
  rcases List.mem_pair.mp htarget with rfl | rfl
  · exact hright
  · exact hleft

/-- Each rule of linking is one of the three ways. -/
theorem LinkRule.hop (hrule : LinkRule roles source link) (htarget : target ∈ link.targets) :
    Hop roles source target := by
  cases hrule with
  | last hlast => simp [Link.targets] at htarget
  | doBody hnext hrole => exact .next hnext htarget
  | elseBody hnext hrole => exact .next hnext htarget
  | repeatIf hnext hrole => exact .next hnext htarget
  | ifTest hnext hrole hleft =>
      have hinner := innermost?_succ_of_opening hrole
      exact .branch (.onward hnext) (.ahead hinner hleft.marks hleft.1) htarget
  | elseIfTest hnext hrole hchain hleft =>
      have hinner := (innermost?_succ_of_branchArm hrole).trans hchain
      exact .branch (.onward hnext) (.ahead hinner hleft.marks hleft.1) htarget
  | timesTest hnext hrole hlast =>
      exact .branch (.onward hnext) (.toEnd (innermost?_succ_of_opening hrole) hlast) htarget
  | whileTest hnext hrole hown hlast =>
      exact .branch (.onward hnext) (.toEnd (innermost?_succ_of_while hrole hown) hlast) htarget
  | doTest hnext hrole hloop hdo hlast =>
      have hsame := innermost?_succ_of_doTest hrole (by rw [hloop, Option.map_some, hdo])
      have hinner := hsame.trans hloop
      exact .branch (.back hloop hinner) (.toEnd hinner hlast) htarget
  | outermostEnd hrole haround => simp [Link.targets] at htarget
  | endBeforeStep hrole haround hcoming =>
      exact .next (List.getElem?_eq_some_iff.mp hcoming).1 htarget
  | endBeforeKeyword hrole haround hcoming hkeyword hlast =>
      rw [List.mem_singleton.mp htarget]
      exact .toEnd haround hlast
  | stepLeavesArm hrole hchain hif hcoming hmarker hlast =>
      rw [List.mem_singleton.mp htarget]
      exact .toEnd ((innermost?_succ_of_ordinary hrole).trans hchain) hlast
  | stepRepeats hrole hloop hfirst hcoming hkeyword =>
      rw [List.mem_singleton.mp htarget]
      exact .back hloop ((innermost?_succ_of_ordinary hrole).trans hloop)
  | stepContinues hrole hcoming hstays =>
      exact .next (List.getElem?_eq_some_iff.mp hcoming).1 htarget

/-! ## The blocks around the target -/

/-- Whatever is open at the target is open behind the source. -/
theorem Hop.mem_of_mem_target (hhop : Hop roles source target)
    (hmem : block ∈ openBefore roles target) : block ∈ openBefore roles (source + 1) := by
  cases hhop with
  | onward hnext => exact hmem
  | ahead haround hmarks hlt =>
      rw [openBefore_eq_of_innermost hmarks.innermost] at hmem
      rwa [openBefore_eq_of_innermost haround]
  | back hloop hstays =>
      rw [openBefore_eq_of_innermost hstays]
      exact List.mem_cons_of_mem _ hmem

/-- Whatever is open behind the source is open at the target, unless the link repeats it. -/
theorem Hop.mem_target_or_eq (hhop : Hop roles source target)
    (hmem : block ∈ openBefore roles (source + 1)) :
    block ∈ openBefore roles target ∨ block.opener = target := by
  cases hhop with
  | onward hnext => exact .inl hmem
  | ahead haround hmarks hlt =>
      rw [openBefore_eq_of_innermost haround] at hmem
      rw [openBefore_eq_of_innermost hmarks.innermost]
      exact .inl hmem
  | back hloop hstays =>
      rw [openBefore_eq_of_innermost hstays, List.mem_cons] at hmem
      rcases hmem with rfl | houter
      · exact .inr rfl
      · exact .inl houter

/-- A command that lies in a block before its `end` leads to a command of that block. -/
theorem Hop.confined (hhop : Hop roles source target) (hlast : Closes roles block last)
    (hfrom : block.opener ≤ source) (hto : source < last) : block.Holds last target := by
  have hopen := hlast.mem_openBefore_iff.mpr ⟨Nat.lt_succ_of_le hfrom, hto⟩
  rcases hhop.mem_target_or_eq hopen with hmem | heq
  · have hinside := hlast.mem_openBefore_iff.mp hmem
    exact ⟨Nat.le_of_lt hinside.1, hinside.2⟩
  · have hlt := hlast.opener_lt
    exact ⟨Nat.le_of_eq heq, heq ▸ Nat.le_of_lt hlt⟩

/-- From outside, a link into a block leads to its opening command. -/
theorem Hop.enters_at_opener (hhop : Hop roles source target) (hlast : Closes roles block last)
    (houtside : ¬block.Holds last source) (hinside : block.Holds last target) :
    target = block.opener := by
  rcases Nat.eq_or_lt_of_le hinside.1 with heq | hlt
  · exact heq.symm
  · have hopen := hhop.mem_of_mem_target (hlast.mem_openBefore_iff.mpr ⟨hlt, hinside.2⟩)
    have hbehind := hlast.mem_openBefore_iff.mp hopen
    exact absurd ⟨Nat.le_of_lt_succ hbehind.1, Nat.le_of_lt hbehind.2⟩ houtside

theorem Hop.lt_length (hhop : Hop roles source target) (hsource : source < roles.length) :
    target < roles.length := by
  cases hhop with
  | onward hnext => exact hnext
  | ahead haround hmarks hlt => exact hmarks.lt_length
  | back hloop hstays =>
      exact (opener_lt_of_mem (mem_openBefore_of_innermost hloop)).trans hsource

/-- The `end` of a block leads nowhere or onward. -/
theorem LinkRule.of_blockEnd (hrule : LinkRule roles source link)
    (hend : roles[source]? = some .blockEnd) :
    link = .terminal ∨ ∃ target, link = .next target ∧ source < target := by
  cases hrule with
  | last hlast => exact .inl rfl
  | outermostEnd hrole haround => exact .inl rfl
  | endBeforeStep hrole haround hcoming => exact .inr ⟨_, rfl, Nat.lt_succ_self _⟩
  | endBeforeKeyword hrole haround hcoming hkeyword hlast =>
      exact .inr ⟨_, rfl, hlast.lt_of_innermost_succ haround⟩
  | _ => simp_all

/-! ## Runs -/

variable {visited : List Nat} {time place : Nat}

theorem exists_before_of_succ {step : Nat → Nat → Prop} (hvisited : visited.IsChain step)
    (hplace : visited[time + 1]? = some place) :
    ∃ before, visited[time]? = some before ∧ step before place := by
  obtain ⟨hlt, rfl⟩ := List.getElem?_eq_some_iff.mp hplace
  exact ⟨visited[time], List.getElem?_eq_getElem _, hvisited.getElem time hlt⟩

/-- A run that stands in a block has entered it at its opening command and stayed in it since. -/
theorem exists_entry_of_holds (hstart : visited[0]? = some 0)
    (hvisited : visited.IsChain (Hop roles)) (hlast : Closes roles block last)
    (hplace : visited[time]? = some place) (hinside : block.Holds last place) :
    ∃ entry, entry ≤ time ∧ visited[entry]? = some block.opener ∧
      ∀ between later, entry ≤ between → between ≤ time → visited[between]? = some later →
        block.Holds last later := by
  induction time generalizing place with
  | zero =>
      rw [hstart, Option.some_inj] at hplace
      subst hplace
      refine ⟨0, Nat.le_refl _, by rw [hstart, Nat.le_zero.mp hinside.1], ?_⟩
      intro between later _ hle hlater
      rw [Nat.le_zero.mp hle, hstart, Option.some_inj] at hlater
      exact hlater ▸ hinside
  | succ time ih =>
      obtain ⟨before, hbefore, hhop⟩ := exists_before_of_succ hvisited hplace
      by_cases hbeforeInside : block.Holds last before
      · obtain ⟨entry, hle, hentry, hsince⟩ := ih hbefore hbeforeInside
        refine ⟨entry, Nat.le_succ_of_le hle, hentry, ?_⟩
        intro between later hfrom hto hlater
        rcases Nat.le_or_eq_of_le_succ hto with hearlier | rfl
        · exact hsince between later hfrom hearlier hlater
        · rw [hplace, Option.some_inj] at hlater
          exact hlater ▸ hinside
      · have hopener := hhop.enters_at_opener hlast hbeforeInside hinside
        refine ⟨time + 1, Nat.le_refl _, by rw [hplace, hopener], ?_⟩
        intro between later hfrom hto hlater
        rw [Nat.le_antisymm hto hfrom, hplace, Option.some_inj] at hlater
        exact hlater ▸ hinside

section Built

variable {α : Type} [Step α] {commands : List α} {graph : Graph α}

theorem hop_of_leads (hbuild : Graph.build? commands = .ok graph)
    (hleads : graph.Leads source target) : Hop (rolesOf commands) source target := by
  obtain ⟨node, hnode, htarget⟩ := hleads
  exact (linkRule_of_node? hbuild hnode).hop htarget

theorem Graph.Leads.lt_length (hleads : graph.Leads source target)
    (hbuild : Graph.build? commands = .ok graph) : target < commands.length := by
  obtain ⟨node, hnode, _⟩ := id hleads
  obtain ⟨command, hcommand, _⟩ := exists_command_of_node? hbuild hnode
  have hsource := (List.getElem?_eq_some_iff.mp hcommand).1
  rw [← length_rolesOf commands] at hsource ⊢
  exact (hop_of_leads hbuild hleads).lt_length hsource

theorem Graph.IsRun.isChain_hop {visited : List NodeId} (hrun : graph.IsRun visited)
    (hbuild : Graph.build? commands = .ok graph) : visited.IsChain (Hop (rolesOf commands)) :=
  hrun.follows.imp fun _ _ => hop_of_leads hbuild

/-- The `end` of a block leads nowhere, or onward to a place that no block around it has left. -/
theorem link_of_closes (hbuild : Graph.build? commands = .ok graph)
    (hlast : Closes (rolesOf commands) block last) :
    ∃ node, graph.node? last = some node ∧
      (node.link = .terminal ∨ ∃ target, node.link = .next target ∧ last < target ∧
        ∀ around aroundLast, Closes (rolesOf commands) around aroundLast →
          around.opener < block.opener → last < aroundLast → target ≤ aroundLast) := by
  have hlt : last < commands.length := by simpa using hlast.lt_length
  have hnode := node?_of_build? hbuild (List.getElem?_eq_getElem hlt)
  have hrule := linkRule_of_node? hbuild hnode
  refine ⟨_, hnode, ?_⟩
  rcases hrule.of_blockEnd hlast.1 with hterminal | ⟨target, htarget, hafter⟩
  · exact .inl hterminal
  · refine .inr ⟨target, htarget, hafter, fun around aroundLast haround hopener hwithin => ?_⟩
    have hhop : Hop (rolesOf commands) last target := by
      apply hrule.hop
      rw [htarget]
      exact List.mem_singleton_self target
    have hfrom : around.opener ≤ last := Nat.le_of_lt (hopener.trans hlast.opener_lt)
    exact (hhop.confined haround hfrom hwithin).2

/-- Every block of a built graph is entered at its opening command and left at its `end`: its own
links stay inside, links from elsewhere lead to its opening command, its `end` leads onward but
not out of any block around, and so every run passes through it from one to the other. -/
theorem blocks_have_one_entry_and_one_exit (hbuild : Graph.build? commands = .ok graph)
    (hlast : Closes (rolesOf commands) block last) :
    (∀ source target, graph.Leads source target → block.opener ≤ source → source < last →
        block.Holds last target) ∧
      (∀ source target, graph.Leads source target → ¬block.Holds last source →
        block.Holds last target → target = block.opener) ∧
      (∃ node, graph.node? last = some node ∧
        (node.link = .terminal ∨ ∃ target, node.link = .next target ∧ last < target ∧
          ∀ around aroundLast, Closes (rolesOf commands) around aroundLast →
            around.opener < block.opener → last < aroundLast → target ≤ aroundLast)) ∧
      ∀ visited, graph.IsRun visited → ∀ time place, visited[time]? = some place →
        block.Holds last place →
          (∃ entry, entry ≤ time ∧ visited[entry]? = some block.opener ∧
            ∀ between later, entry ≤ between → between ≤ time → visited[between]? = some later →
              block.Holds last later) ∧
          ∀ following, visited[time + 1]? = some following → ¬block.Holds last following →
            place = last := by
  refine ⟨?_, ?_, link_of_closes hbuild hlast, ?_⟩
  · intro source target hleads
    exact (hop_of_leads hbuild hleads).confined hlast
  · intro source target hleads
    exact (hop_of_leads hbuild hleads).enters_at_opener hlast
  · intro visited hrun time place hplace hinside
    have hhops := hrun.isChain_hop hbuild
    refine ⟨exists_entry_of_holds hrun.starts hhops hlast hplace hinside, ?_⟩
    intro following hfollowing houtside
    obtain ⟨before, hbefore, hhop⟩ := exists_before_of_succ hhops hfollowing
    rw [hplace, Option.some_inj] at hbefore
    subst hbefore
    -- A command before the `end` would lead to a command of the block.
    by_contra hne
    have hbeforeEnd : place < last := Nat.lt_of_le_of_ne hinside.2 hne
    exact houtside (hhop.confined hlast hinside.1 hbeforeEnd)

/-- A run of the sample that tests the `do` inside the second arm has come through the `if`. -/
theorem sample_runs_enter_at_if :
    Graph.build? sampleTest = .ok sampleGraph ∧
      Closes (rolesOf sampleTest) ⟨.ifBlock, 1⟩ 9 ∧
      ∀ visited : List NodeId, sampleGraph.IsRun visited → ∀ time : Nat, visited[time]? = some 6 →
        ∃ entry : Nat, entry ≤ time ∧ visited[entry]? = some 1 := by
  have hcloses : Closes (rolesOf sampleTest) ⟨.ifBlock, 1⟩ 9 := by decide
  obtain ⟨_, _, _, hruns⟩ := blocks_have_one_entry_and_one_exit (rfl :
    Graph.build? sampleTest = .ok sampleGraph) hcloses
  refine ⟨rfl, hcloses, fun visited hrun time hplace => ?_⟩
  obtain ⟨⟨entry, hle, hentry, _⟩, _⟩ := hruns visited hrun time 6 hplace ⟨by decide, by decide⟩
  exact ⟨entry, hle, hentry⟩

end Built

end StepFlow
