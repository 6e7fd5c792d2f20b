import StepFlow.Graph.Walk
import StepFlow.Proofs.Faults
import StepFlow.Proofs.Repeats

/-!
# A chain runs one of its arms

The arms of an `if` chain stand one after the other between the `if` and its `end`.  A run comes to
an arm only from another marker of the chain, and goes back only to the opening command of a loop,
which a chain is not.  So the body of an arm leads nowhere but to itself and to the `end` of the
chain, and a run that has entered a body does not come to a later arm.

There is one way around this.  A test leads right to the command behind it, and if the arm has no
body then that command is the marker of the next arm (`empty_arm_runs_into_next`).  Main statement:
`arm_runs_alone_iff`.
-/

namespace StepFlow

/-- The command at `marker` starts an arm of the chain: it is the `if` itself, or an `elseIf` or
`else` of its own. -/
def StartsArm (roles : List Role) (chain : Bracket) (marker : Nat) : Prop :=
  marker = chain.opener ∨ ArmOf roles chain marker

/-- One arm of an `if` chain: it starts at `marker`, and at `stop` the next arm starts or, if there
is none, the chain ends. -/
structure ArmSpan (roles : List Role) (chain : Bracket) (marker stop : Nat) : Prop where
  isIf : chain.block = .ifBlock
  starts : StartsArm roles chain marker
  stops : ChainGoesOn roles chain marker stop

/-- Where a run goes from a node whose condition, if it has one, holds. -/
def Link.taken? : Link → Option NodeId
  | .next target => some target
  | .branch _ right => some right
  | .terminal => none

namespace Graph

variable {α : Type} (graph : Graph α)

/-- A run goes from `source` to `target` if the condition at `source`, if there is one, holds. -/
def Takes (source target : NodeId) : Prop :=
  ∃ node, graph.node? source = some node ∧ node.link.taken? = some target

/-- Every link of an arm leads to the arm or to the `end` of the chain, except the one that skips
the arm at its marker. -/
def ArmConfined (marker stop last : Nat) : Prop :=
  ∀ source target : Nat, marker ≤ source → source < stop →
    graph.Takes source target ∨ source ≠ marker ∧ graph.Leads source target →
    marker ≤ target ∧ target < stop ∨ target = last

/-- Once a run has entered an arm it visits nothing but the body of that arm before it comes to the
`end` of the chain. -/
def ArmRunsAlone (marker stop last : Nat) : Prop :=
  ∀ visited : List NodeId, visited.IsChain graph.Leads →
    ∀ time first : Nat, visited[time]? = some marker → visited[time + 1]? = some first →
      graph.Takes marker first →
      ∀ later place : Nat, time < later → visited[later]? = some place →
        (∀ between, time < between → between ≤ later → visited[between]? ≠ some last) →
        marker < place ∧ place < stop

end Graph

variable {roles : List Role} {chain inner loop : Bracket} {link : Link}
variable {source target marker stop last index : Nat}

theorem Graph.Takes.leads {α : Type} {graph : Graph α} (htakes : graph.Takes source target) :
    graph.Leads source target := by
  obtain ⟨node, hnode, htaken⟩ := htakes
  refine ⟨node, hnode, ?_⟩
  cases hlink : node.link with
  | terminal =>
      rw [hlink] at htaken
      cases htaken
  | next onward | branch left right =>
      rw [hlink, Link.taken?, Option.some_inj] at htaken
      simp [Link.targets, htaken]

/-! ## Nothing comes after an `else` -/

theorem armsWithin_split {first middle : Nat} (hfirst : first ≤ middle) (hlast : middle ≤ last) :
    armsWithin roles first last =
      armsWithin roles first middle ++ armsWithin roles middle last := by
  have hlength : last - first = (middle - first) + (last - middle) := by omega
  simp only [armsWithin, List.drop_take]
  rw [hlength, List.take_add, List.filterMap_append, List.drop_drop, Nat.add_sub_cancel' hfirst]

theorem armsWithin_of_arm {arm : Arm} (hrole : roles[index]? = some (.branchArm arm))
    (hlast : index < last) :
    armsWithin roles index last = arm :: armsWithin roles (index + 1) last := by
  obtain ⟨hlt, hget⟩ := List.getElem?_eq_some_iff.mp hrole
  have hlength : last - index = last - (index + 1) + 1 := by omega
  rw [armsWithin, armsWithin, List.drop_take, List.drop_take, List.drop_eq_getElem_cons hlt, hget,
    hlength, List.take_succ_cons]
  rfl

/-- In an accepted test an `else` is the last arm of its chain. -/
theorem WellBracketed.not_armOf_after_else (hwell : WellBracketed roles)
    (hif : chain.block = .ifBlock) (hlast : Closes roles chain last)
    (helse : roles[marker]? = some (.branchArm .otherwise)) (hmarker : ArmOf roles chain marker)
    (hlt : marker < index) : ¬ArmOf roles chain index := by
  rintro ⟨⟨arm, hrole⟩, hinner⟩
  have hopener := opener_lt_of_mem (mem_openBefore_of_innermost hmarker.2)
  have hindex := hlast.mem_openBefore_iff.mp (mem_openBefore_of_innermost hinner)
  have hbefore : index < last := by
    refine Nat.lt_of_le_of_ne hindex.2 ?_
    rintro rfl
    exact hlast.not_armOf ⟨⟨arm, hrole⟩, hinner⟩
  have hsplit : armsWithin roles chain.opener last =
      armsWithin roles chain.opener marker ++
        .otherwise :: armsWithin roles (marker + 1) last := by
    rw [armsWithin_split (Nat.le_of_lt hopener) (Nat.le_of_lt (hlt.trans hbefore)),
      armsWithin_of_arm helse (hlt.trans hbefore)]
  have hafter : armsWithin roles (marker + 1) last ≠ [] := by
    rw [armsWithin_split hlt (Nat.le_of_lt hbefore), armsWithin_of_arm hrole hbefore]
    simp
  obtain ⟨reason, hdisordered⟩ := exists_disordered_of_after_else hafter
  exact hwell.not_fault (.armDisorder hlast hif (hsplit ▸ hdisordered))

/-! ## How an arm is entered -/

theorem Opens.unique (hopens : Opens roles inner) (hother : Opens roles loop)
    (hsame : inner.opener = loop.opener) : inner = loop := by
  rw [Opens, hsame] at hopens
  exact Option.some_inj.mp (hopens.symm.trans hother)

/-- The opening command of a block is no arm. -/
theorem not_armOf_opener (hmem : loop ∈ openBefore roles index) :
    ¬ArmOf roles chain loop.opener := by
  rintro ⟨⟨arm, harm⟩, _⟩
  rcases role_opener hmem with ⟨opener, hrole, _⟩ | ⟨hrole, _⟩
  · cases harm.symm.trans hrole
  · cases harm.symm.trans hrole

theorem ArmOf.eq_of_innermost (harm : ArmOf roles chain index)
    (hinner : innermost? roles index = some inner) : chain = inner :=
  Option.some_inj.mp (harm.2.symm.trans hinner)

/-- A run comes to an arm of a chain only from another marker of the chain. -/
theorem LinkRule.startsArm_of_armOf (hrule : LinkRule roles source link)
    (hwell : WellBracketed roles) (hif : chain.block = .ifBlock)
    (htarget : target ∈ link.targets) (harm : ArmOf roles chain target) :
    StartsArm roles chain source := by
  have hnotEnd : ∀ {block : Bracket} {last : Nat}, Closes roles block last → target ≠ last := by
    rintro block last hlast rfl
    obtain ⟨⟨arm, hrole⟩, _⟩ := harm
    cases hlast.1.symm.trans hrole
  cases hrule with
  | last hend => simp [Link.targets] at htarget
  | outermostEnd hrole haround => simp [Link.targets] at htarget
  | doBody hnext hrole =>
      obtain rfl := List.mem_singleton.mp htarget
      obtain rfl := harm.eq_of_innermost (innermost?_succ_of_opening hrole)
      cases hif
  | elseBody hnext hrole =>
      obtain rfl := List.mem_singleton.mp htarget
      exact .inr ⟨⟨_, hrole⟩, (innermost?_succ_of_branchArm hrole).symm.trans harm.2⟩
  | repeatIf hnext hrole =>
      obtain rfl := List.mem_singleton.mp htarget
      have hfits := hwell.fits _ _ hrole
      rw [Fits, ← innermost?_succ_of_repeatIf hrole, harm.2, Option.map_some, hif] at hfits
      cases hfits
  | ifTest hnext hrole hleft =>
      refine .inl ?_
      rcases List.mem_pair.mp htarget with rfl | rfl
      · rw [harm.eq_of_innermost (innermost?_succ_of_opening hrole)]
      · rw [harm.eq_of_innermost hleft.marks.innermost]
  | elseIfTest hnext hrole hchain hleft =>
      refine .inr ⟨⟨_, hrole⟩, ?_⟩
      rcases List.mem_pair.mp htarget with rfl | rfl
      · exact (innermost?_succ_of_branchArm hrole).symm.trans harm.2
      · rw [hchain, harm.eq_of_innermost hleft.marks.innermost]
  | timesTest hnext hrole hlast =>
      rcases List.mem_pair.mp htarget with rfl | rfl
      · obtain rfl := harm.eq_of_innermost (innermost?_succ_of_opening hrole)
        cases hif
      · exact absurd rfl (hnotEnd hlast)
  | whileTest hnext hrole hown hlast =>
      rcases List.mem_pair.mp htarget with rfl | rfl
      · obtain rfl := harm.eq_of_innermost (innermost?_succ_of_while hrole hown)
        cases hif
      · exact absurd rfl (hnotEnd hlast)
  | doTest hnext hrole hloop hdo hlast =>
      rcases List.mem_pair.mp htarget with rfl | rfl
      · exact absurd harm (not_armOf_opener (mem_openBefore_of_innermost hloop))
      · exact absurd rfl (hnotEnd hlast)
  | endBeforeStep hrole haround hcoming =>
      obtain rfl := List.mem_singleton.mp htarget
      obtain ⟨⟨arm, harm⟩, _⟩ := harm
      cases hcoming.symm.trans harm
  | endBeforeKeyword hrole haround hcoming hkeyword hlast =>
      exact absurd (List.mem_singleton.mp htarget) (hnotEnd hlast)
  | stepLeavesArm hrole hchain hif hcoming hmarker hlast =>
      exact absurd (List.mem_singleton.mp htarget) (hnotEnd hlast)
  | stepRepeats hrole hloop hfirst hcoming hkeyword =>
      obtain rfl := List.mem_singleton.mp htarget
      exact absurd harm (not_armOf_opener (mem_openBefore_of_innermost hloop))
  | stepContinues hrole hcoming hstays =>
      obtain rfl := List.mem_singleton.mp htarget
      obtain ⟨⟨arm, harm⟩, hinner⟩ := harm
      obtain rfl := Option.some_inj.mp (hcoming.symm.trans harm)
      -- In the chain itself the step would have left the arm.
      have hhere := (innermost?_succ_of_ordinary hrole).symm.trans hinner
      exact absurd ⟨hif, .inl rfl⟩ (hstays chain hhere).1

/-- A run goes back only to the opening command of the loop around. -/
theorem LinkRule.exists_loop_of_back (hrule : LinkRule roles source link)
    (htarget : target ∈ link.targets) (hback : target ≤ source) :
    ∃ loop ∈ openBefore roles source, loop.block ≠ .ifBlock ∧ loop.opener = target := by
  have hrepeats := (hrule.lt_or_repeats htarget).resolve_left (Nat.not_lt_of_le hback)
  obtain ⟨loop, hloop, _, hblock, htarget⟩ := hrepeats.exists_innermost
  exact ⟨loop, mem_openBefore_of_innermost hloop, hblock, htarget.symm⟩

/-! ## The body of an arm -/

/-- No block inside a chain is open where the chain has an arm or its `end`. -/
theorem Marks.opener_le (hmarks : Marks roles chain index)
    (hmem : inner ∈ openBefore roles index) : inner.opener ≤ chain.opener := by
  rw [openBefore_eq_of_innermost hmarks.innermost, List.mem_cons] at hmem
  rcases hmem with rfl | houter
  · exact Nat.le_refl _
  · exact Nat.le_of_lt (opener_lt_of_mem houter)

theorem StartsArm.opener_le (hstarts : StartsArm roles chain marker) : chain.opener ≤ marker := by
  rcases hstarts with rfl | harm
  · exact Nat.le_refl _
  · exact Nat.le_of_lt (opener_lt_of_mem (mem_openBefore_of_innermost harm.2))

namespace ArmSpan

variable (hspan : ArmSpan roles chain marker stop)

include hspan

theorem stop_le_last (hlast : Closes roles chain last) : stop ≤ last :=
  (hlast.mem_openBefore_iff.mp (mem_openBefore_of_innermost hspan.stops.marks.innermost)).2

theorem mem_openBefore (hafter : marker < index) (hbefore : index ≤ stop) :
    chain ∈ openBefore roles index :=
  mem_openBefore_of_le (mem_openBefore_of_innermost hspan.stops.marks.innermost)
    (Nat.lt_of_le_of_lt hspan.starts.opener_le hafter) hbefore

/-- No link from the body leads to an arm of the chain. -/
theorem not_armOf_target (hrule : LinkRule roles source link) (hwell : WellBracketed roles)
    (htarget : target ∈ link.targets) (hafter : marker < source) (hbefore : source < stop) :
    ¬ArmOf roles chain target := by
  intro harm
  rcases hrule.startsArm_of_armOf hwell hspan.isIf htarget harm with rfl | hsource
  · exact Nat.not_lt_of_le hspan.starts.opener_le hafter
  · exact hspan.stops.not_marks hafter hbefore (.inl hsource)

/-- A loop around a command of the body is a loop in the body, or a loop around the chain. -/
theorem marker_lt_or_opener_lt (hmem : loop ∈ openBefore roles source)
    (hloop : loop.block ≠ .ifBlock) (hafter : marker < source) (hbefore : source < stop) :
    marker < loop.opener ∨ loop.opener < chain.opener := by
  rcases Nat.lt_trichotomy loop.opener chain.opener with hlt | heq | hgt
  · exact .inr hlt
  · have hsame := (opens_of_mem hmem).unique
      (opens_of_mem (hspan.mem_openBefore hafter (Nat.le_of_lt hbefore))) heq
    exact absurd (hsame ▸ hspan.isIf) hloop
  · refine .inl (Nat.lt_of_not_le fun hle => ?_)
    rcases hspan.starts with rfl | harm
    · exact Nat.not_lt_of_le hle hgt
    rcases Nat.eq_or_lt_of_le hle with rfl | hlt
    · exact not_armOf_opener hmem harm
    -- The loop would be open at the marker.
    · have hopen := mem_openBefore_of_le hmem hlt (Nat.le_of_lt hafter)
      exact Nat.not_lt_of_le (Marks.opener_le (.inl harm) hopen) hgt

theorem marker_lt_target (hrule : LinkRule roles source link) (hlast : Closes roles chain last)
    (htarget : target ∈ link.targets) (hafter : marker < source) (hbefore : source < stop) :
    marker < target := by
  rcases Nat.lt_or_ge source target with hforward | hback
  · exact hafter.trans hforward
  · obtain ⟨loop, hmem, hloop, rfl⟩ := hrule.exists_loop_of_back htarget hback
    have hconfined := (hrule.hop htarget).confined hlast
      (Nat.le_of_lt (Nat.lt_of_le_of_lt hspan.starts.opener_le hafter))
      (Nat.lt_of_lt_of_le hbefore (hspan.stop_le_last hlast))
    rcases hspan.marker_lt_or_opener_lt hmem hloop hafter hbefore with hinside | houtside
    · exact hinside
    · exact absurd hconfined.1 (Nat.not_le_of_lt houtside)

/-- A link from the body that does not lead to an arm or the `end` of the chain stays before the
next arm. -/
theorem target_lt_stop (hhop : Hop roles source target) (hafter : marker < source)
    (hbefore : source < stop) (hmarks : ¬Marks roles chain target) : target < stop := by
  refine Nat.lt_of_not_le fun hle => ?_
  cases hhop with
  | onward hnext =>
      obtain rfl : source + 1 = stop := Nat.le_antisymm hbefore hle
      exact hmarks hspan.stops.marks
  | back hloop hstays =>
      have hback := opener_lt_of_mem (mem_openBefore_of_innermost hloop)
      omega
  | @ahead around _ haround haroundMarks hlt =>
      have hchain := hspan.mem_openBefore (Nat.lt_succ_of_lt hafter) hbefore
      rw [openBefore_eq_of_innermost haround, List.mem_cons] at hchain
      rcases hchain with rfl | houter
      · exact hmarks haroundMarks
      -- The block around is inside the chain and would be open at the next arm.
      · have hopen := mem_openBefore_of_le
          (mem_openBefore_of_innermost haroundMarks.innermost)
          (Nat.lt_of_lt_of_le (opener_lt_of_mem (mem_openBefore_of_innermost haround)) hbefore) hle
        exact Nat.not_lt_of_le (hspan.stops.marks.opener_le hopen) (opener_lt_of_mem houter)

/-- The body of an arm leads to itself and to the `end` of the chain. -/
theorem confined (hrule : LinkRule roles source link) (hwell : WellBracketed roles)
    (hlast : Closes roles chain last) (htarget : target ∈ link.targets)
    (hafter : marker < source) (hbefore : source < stop) :
    marker < target ∧ target < stop ∨ target = last := by
  by_cases heq : target = last
  · exact .inr heq
  · refine .inl ⟨hspan.marker_lt_target hrule hlast htarget hafter hbefore, ?_⟩
    refine hspan.target_lt_stop (hrule.hop htarget) hafter hbefore ?_
    rintro (harm | hcloses)
    · exact hspan.not_armOf_target hrule hwell htarget hafter hbefore harm
    · exact heq (hcloses.unique hlast)

/-- An `else` is the last arm. -/
theorem stop_eq_last (hwell : WellBracketed roles) (hlast : Closes roles chain last)
    (hmarker : ArmOf roles chain marker) (helse : roles[marker]? = some (.branchArm .otherwise)) :
    stop = last := by
  rcases hspan.stops.marks with harm | hcloses
  · have hlt := hspan.stops.1
    exact absurd harm (hwell.not_armOf_after_else hspan.isIf hlast helse hmarker hlt)
  · exact hcloses.unique hlast

/-- The test of an arm leads left to the next arm, and every arm starts with the command behind its
marker. -/
theorem link_of_marker (hrule : LinkRule roles marker link) (hwell : WellBracketed roles)
    (hlast : Closes roles chain last) :
    link = .branch stop (marker + 1) ∨ stop = last ∧ link = .next (marker + 1) := by
  have hopen := mem_openBefore_of_innermost hlast.2
  have helse := hspan.stop_eq_last hwell hlast
  have hnext : marker + 1 < roles.length :=
    Nat.lt_of_le_of_lt hspan.stops.1 hspan.stops.marks.lt_length
  obtain ⟨hif, rfl | harm, hstops⟩ := hspan
  · obtain ⟨block, opener⟩ := chain
    subst hif
    rcases role_opener hopen with ⟨keyword, hrole, hblock⟩ | ⟨_, hblock, _⟩
    · cases keyword with
      | doLoop | timesLoop => cases hblock
      | ifBlock =>
          cases hrule with
          | last hend => omega
          | ifTest _ _ hleft => exact .inl (by rw [hleft.unique hstops])
          | _ => simp_all
    · cases hblock
  · obtain ⟨⟨arm, hrole⟩, hinner⟩ := harm
    cases arm with
    | elseIf =>
        cases hrule with
        | last hend => omega
        | elseIfTest _ _ hchain hleft =>
            rw [hinner, Option.some_inj] at hchain
            exact .inl (by rw [hleft.unique (hchain ▸ hstops)])
        | _ => simp_all
    | otherwise =>
        cases hrule with
        | last hend => omega
        | elseBody => exact .inr ⟨helse ⟨⟨_, hrole⟩, hinner⟩ hrole, rfl⟩
        | _ => simp_all

end ArmSpan

/-! ## Runs -/

section Built

variable {α : Type} [Step α] {commands : List α} {graph : Graph α} {visited : List Nat}
  {time later place : Nat}

namespace ArmSpan

variable (hspan : ArmSpan (rolesOf commands) chain marker stop)
  (hbuild : Graph.build? commands = .ok graph) (hlast : Closes (rolesOf commands) chain last)

include hspan hbuild hlast

theorem node_of_marker :
    ∃ node, graph.node? marker = some node ∧
      (node.link = .branch stop (marker + 1) ∨ stop = last ∧ node.link = .next (marker + 1)) := by
  have hmarker : marker < commands.length := by
    have hlt := hspan.stops.1.trans hspan.stops.marks.lt_length
    rwa [length_rolesOf] at hlt
  have hnode := node?_of_build? hbuild (List.getElem?_eq_getElem hmarker)
  exact ⟨_, hnode, hspan.link_of_marker (linkRule_of_node? hbuild hnode)
    (build?_eq_ok_iff.mp hbuild).1 hlast⟩

theorem takes_iff : graph.Takes marker target ↔ target = marker + 1 := by
  obtain ⟨node, hnode, hlink⟩ := hspan.node_of_marker hbuild hlast
  have htaken : node.link.taken? = some (marker + 1) := by
    rcases hlink with hlink | ⟨_, hlink⟩ <;> rw [hlink, Link.taken?]
  constructor
  · rintro ⟨other, hother, htarget⟩
    obtain rfl := Option.some_inj.mp (hnode.symm.trans hother)
    exact Option.some_inj.mp (htarget.symm.trans htaken)
  · rintro rfl
    exact ⟨node, hnode, htaken⟩

theorem leads_confined (hleads : graph.Leads source target) (hafter : marker < source)
    (hbefore : source < stop) : marker < target ∧ target < stop ∨ target = last := by
  obtain ⟨node, hnode, htarget⟩ := hleads
  exact hspan.confined (linkRule_of_node? hbuild hnode) (build?_eq_ok_iff.mp hbuild).1 hlast
    htarget hafter hbefore

/-- A run in the body of an arm stays there until it comes to the `end` of the chain. -/
theorem run_confined (hvisited : visited.IsChain graph.Leads) (hle : time ≤ later)
    (hinside : ∀ place, visited[time]? = some place → marker < place ∧ place < stop)
    (hnot : ∀ between, time ≤ between → between ≤ later → visited[between]? ≠ some last)
    (hplace : visited[later]? = some place) : marker < place ∧ place < stop := by
  induction hle generalizing place with
  | refl => exact hinside place hplace
  | @step later hle ih =>
      obtain ⟨before, hbefore, hleads⟩ := exists_before_of_succ hvisited hplace
      have hearlier := ih (fun between hfrom hto => hnot between hfrom (Nat.le_succ_of_le hto))
        hbefore
      rcases hspan.leads_confined hbuild hlast hleads hearlier.1 hearlier.2 with hstays | rfl
      · exact hstays
      · exact absurd hplace (hnot _ (Nat.le_succ_of_le hle) (Nat.le_refl _))

theorem armConfined_iff : graph.ArmConfined marker stop last ↔ marker + 1 < stop ∨ stop = last := by
  have hstop := hspan.stops.1
  have hle := hspan.stop_le_last hlast
  constructor
  · intro hconfined
    have hfirst := hconfined marker (marker + 1) (Nat.le_refl _) hstop
      (.inl ((hspan.takes_iff hbuild hlast).mpr rfl))
    omega
  · intro hbody source target hfrom hto hlink
    rcases Nat.eq_or_lt_of_le hfrom with rfl | hafter
    · rcases hlink with htakes | ⟨hne, _⟩
      · have htarget := (hspan.takes_iff hbuild hlast).mp htakes
        omega
      · exact absurd rfl hne
    · have hleads : graph.Leads source target := by
        rcases hlink with htakes | ⟨_, hleads⟩
        · exact htakes.leads
        · exact hleads
      have hstays := hspan.leads_confined hbuild hlast hleads hafter hto
      omega

theorem armRunsAlone_iff :
    graph.ArmRunsAlone marker stop last ↔ marker + 1 < stop ∨ stop = last := by
  have hstop := hspan.stops.1
  have htakes : graph.Takes marker (marker + 1) := (hspan.takes_iff hbuild hlast).mpr rfl
  constructor
  · intro halone
    by_contra hempty
    have hinside := halone [marker, marker + 1] (by simpa using htakes.leads) 0 (marker + 1) rfl rfl
      htakes 1 (marker + 1) (Nat.lt_succ_self _) rfl
    have hnot : ∀ between, 0 < between → between ≤ 1 →
        [marker, marker + 1][between]? ≠ some last := by
      intro between hfrom hto
      obtain rfl : between = 1 := Nat.le_antisymm hto hfrom
      simp
      omega
    have hbody := hinside hnot
    omega
  · intro hbody visited hvisited time first _ hentered hfirst later place hlater hplace hnot
    obtain rfl := (hspan.takes_iff hbuild hlast).mp hfirst
    refine hspan.run_confined hbuild hlast hvisited hlater ?_ hnot hplace
    intro entered hsame
    obtain rfl := Option.some_inj.mp (hentered.symm.trans hsame)
    rcases hbody with hbody | rfl
    · exact ⟨Nat.lt_succ_self _, hbody⟩
    -- The last arm may have no body: then it is left at the `end` of the chain.
    · refine ⟨Nat.lt_succ_self _, Nat.lt_of_le_of_ne hstop ?_⟩
      rintro rfl
      exact hnot (time + 1) (Nat.le_refl _) hlater hentered

end ArmSpan

/-- A chain runs one of its arms.  An arm is entered behind its marker, and if it has a body or is
the last arm of its chain then all its links stay in it or lead to the `end` of the chain: a run
that has entered it comes to no other arm before that `end`.  An arm without a body is entered at
the marker of the arm that follows it, and so a run goes on through that arm as well. -/
theorem arm_runs_alone_iff (hbuild : Graph.build? commands = .ok graph)
    (hspan : ArmSpan (rolesOf commands) chain marker stop)
    (hlast : Closes (rolesOf commands) chain last) :
    (∃ node, graph.node? marker = some node ∧
        (node.link = .branch stop (marker + 1) ∨
          stop = last ∧ node.link = .next (marker + 1))) ∧
      (graph.ArmConfined marker stop last ↔ marker + 1 < stop ∨ stop = last) ∧
      (graph.ArmRunsAlone marker stop last ↔ marker + 1 < stop ∨ stop = last) :=
  ⟨hspan.node_of_marker hbuild hlast, hspan.armConfined_iff hbuild hlast,
    hspan.armRunsAlone_iff hbuild hlast⟩

/-- In the sample the second arm holds a loop of its own. -/
theorem sample_arm_runs_alone :
    Graph.build? sampleTest = .ok sampleGraph ∧
      ArmSpan (rolesOf sampleTest) ⟨.ifBlock, 1⟩ 3 8 ∧
      Closes (rolesOf sampleTest) ⟨.ifBlock, 1⟩ 9 ∧
      sampleGraph.ArmConfined 3 8 9 ∧ sampleGraph.ArmRunsAlone 3 8 9 := by
  have hcloses : Closes (rolesOf sampleTest) ⟨.ifBlock, 1⟩ 9 := by decide
  have hmarker : ArmOf (rolesOf sampleTest) ⟨.ifBlock, 1⟩ 3 := ⟨⟨.elseIf, by decide⟩, by decide⟩
  have hstop : ArmOf (rolesOf sampleTest) ⟨.ifBlock, 1⟩ 8 := ⟨⟨.otherwise, by decide⟩, by decide⟩
  have hspan : ArmSpan (rolesOf sampleTest) ⟨.ifBlock, 1⟩ 3 8 := by
    refine ⟨rfl, .inr hmarker, by decide, .inl ⟨hstop, ?_⟩⟩
    rintro between hafter hbefore ⟨⟨arm, hrole⟩, _⟩
    obtain rfl | rfl | rfl | rfl : between = 4 ∨ between = 5 ∨ between = 6 ∨ between = 7 := by omega
    all_goals cases hrole
  obtain ⟨_, hconfined, halone⟩ := arm_runs_alone_iff
    (rfl : Graph.build? sampleTest = .ok sampleGraph) hspan hcloses
  exact ⟨rfl, hspan, hcloses, hconfined.mpr (.inl (by decide)), halone.mpr (.inl (by decide))⟩

/-- An `if` without a body runs the `else` although its condition holds. -/
theorem empty_arm_runs_into_next :
    ∃ graph : Graph String, Graph.build? ["if", "else", "a", "end"] = .ok graph ∧
      ArmSpan (rolesOf ["if", "else", "a", "end"]) ⟨.ifBlock, 0⟩ 0 1 ∧
      Closes (rolesOf ["if", "else", "a", "end"]) ⟨.ifBlock, 0⟩ 3 ∧
      graph.Takes 0 1 ∧ ¬graph.ArmConfined 0 1 3 ∧ ¬graph.ArmRunsAlone 0 1 3 ∧
      graph.play 4 graph.entry? [.right] = ([0, 1, 2, 3], .finished) := by
  have hcloses : Closes (rolesOf ["if", "else", "a", "end"]) ⟨.ifBlock, 0⟩ 3 := by decide
  have hstop : ArmOf (rolesOf ["if", "else", "a", "end"]) ⟨.ifBlock, 0⟩ 1 :=
    ⟨⟨.otherwise, by decide⟩, by decide⟩
  have hspan : ArmSpan (rolesOf ["if", "else", "a", "end"]) ⟨.ifBlock, 0⟩ 0 1 := by
    refine ⟨rfl, .inl rfl, by decide, .inl ⟨hstop, fun between hafter hbefore => ?_⟩⟩
    omega
  have hbuild : Graph.build? ["if", "else", "a", "end"] =
      .ok (Graph.ofOutline (leveled ["if", "else", "a", "end"])) := rfl
  refine ⟨_, hbuild, hspan, hcloses, (hspan.takes_iff hbuild hcloses).mpr rfl, ?_, ?_, rfl⟩
  · rw [hspan.armConfined_iff hbuild hcloses]
    decide
  · rw [hspan.armRunsAlone_iff hbuild hcloses]
    decide

end Built

end StepFlow
