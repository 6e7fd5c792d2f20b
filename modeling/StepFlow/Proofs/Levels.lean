import StepFlow.Proofs.Enclosure
import StepFlow.Proofs.Links

/-!
# Levels are nesting depths

An outline raises its level where a block opens, takes the level of the block back where one ends
and lets an arm stand at the level of its `if`.  Nothing in this counts blocks, but the result does:
the level of a command is the number of blocks around it, where an arm does not count its own chain.
Main statement: `levels_are_nesting_depths`.
-/

namespace StepFlow

section Roles

variable {roles : List Role} {role : Role} {block chain : Bracket} {index last : Nat}

/-! ## Levels and open brackets -/

theorem Marks.levelAt_eq (hmarks : Marks roles block index) :
    levelAt roles index = (openBefore roles block.opener).length := by
  rcases hmarks with harm | hcloses
  · exact levelAt_of_armOf harm
  · exact levelAt_of_closes hcloses

theorem levelAt_le (roles : List Role) (index : Nat) :
    levelAt roles index ≤ (openBefore roles index).length ∧
      (openBefore roles index).length ≤ levelAt roles index + 1 := by
  unfold levelAt
  split <;> omega

/-- Behind a command the next one lies at its level or one deeper. -/
theorem levelAt_le_succ (roles : List Role) (index : Nat) :
    levelAt roles index ≤ (openBefore roles (index + 1)).length ∧
      (openBefore roles (index + 1)).length ≤ levelAt roles index + 1 := by
  cases hrole : roles[index]? with
  | none =>
      rw [openBefore_succ_of_none hrole]
      exact levelAt_le roles index
  | some role =>
      rw [openBefore_succ hrole, levelAt, hrole]
      cases role with
      | opening opener => simp [Bracket.advance]
      | branchArm arm | ordinary =>
          simp only [Bracket.advance]
          omega
      | blockEnd =>
          simp only [Bracket.advance, List.length_tail]
          omega
      | loopTest test =>
          cases test with
          | repeatIf => simp [Bracket.advance]
          | whileTest =>
              simp only [Bracket.advance]
              split <;> simp

/-- Levels of neighbours differ by one at most. -/
theorem levelAt_succ_le (roles : List Role) (index : Nat) :
    levelAt roles (index + 1) ≤ levelAt roles index + 1 ∧
      levelAt roles index ≤ levelAt roles (index + 1) + 1 := by
  obtain ⟨hup, hdown⟩ := levelAt_le_succ roles index
  obtain ⟨hnextUp, hnextDown⟩ := levelAt_le roles (index + 1)
  exact ⟨Nat.le_trans hnextUp hdown, Nat.le_trans hup hnextDown⟩

theorem exists_role_of_opener (hmem : block ∈ openBefore roles index) :
    ∃ role, roles[block.opener]? = some role ∧ role ≠ .blockEnd ∧
      levelAt roles block.opener = (openBefore roles block.opener).length := by
  rcases role_opener hmem with ⟨opener, hrole, _⟩ | ⟨hrole, _⟩
  · exact ⟨_, hrole, by simp, by rw [levelAt, hrole]⟩
  · exact ⟨_, hrole, by simp, by rw [levelAt, hrole]⟩

/-- Whatever lies in a block and does not mark it lies deeper than its opening command. -/
theorem lt_levelAt_of_not_marks (hmem : block ∈ openBefore roles index)
    (hnot : ¬Marks roles block index) :
    (openBefore roles block.opener).length < levelAt roles index := by
  have hdepth := (exists_suffix_of_mem hmem).length_le
  rw [List.length_cons] at hdepth
  have hle := (levelAt_le roles index).2
  have hne := mt (levelAt_eq_iff_marks hmem).mp hnot
  omega

/-! ## Levels count blocks -/

/-- The level counts the open brackets that the command does not mark as an arm or as an `end`. -/
theorem WellBracketed.levelAt_eq_length_filter (hwell : WellBracketed roles)
    (hrole : roles[index]? = some role) :
    levelAt roles index =
      ((openBefore roles index).filter fun block => ¬Marks roles block index).length := by
  by_cases hmarks : ∃ block, Marks roles block index
  · obtain ⟨block, hmarks⟩ := hmarks
    -- Only the innermost bracket can be marked.
    have houter : ∀ outer ∈ openBefore roles block.opener, ¬Marks roles outer index := by
      intro outer hmem houterMarks
      have heq := Option.some_inj.mp (hmarks.innermost.symm.trans houterMarks.innermost)
      exact Nat.lt_irrefl _ (heq ▸ opener_lt_of_mem hmem)
    rw [hmarks.levelAt_eq, openBefore_eq_of_innermost hmarks.innermost,
      List.filter_cons_of_neg (by simpa using hmarks),
      List.filter_eq_self.mpr fun outer hmem => decide_eq_true (houter outer hmem)]
  · rw [not_exists] at hmarks
    rw [List.filter_eq_self.mpr fun block _ => decide_eq_true (hmarks block), levelAt, hrole]
    have hfits := hwell.fits index role hrole
    cases role with
    | branchArm arm =>
        obtain ⟨chain, hchain, _⟩ := Option.map_eq_some_iff.mp hfits
        exact absurd (.inl ⟨⟨arm, hrole⟩, hchain⟩) (hmarks chain)
    | blockEnd =>
        obtain ⟨block, hblock, _⟩ := hfits
        exact absurd (.inr ⟨hrole, hblock⟩) (hmarks block)
    | opening opener | loopTest test | ordinary => rfl

/-- The level of a command is the number of blocks around it. -/
theorem WellBracketed.levelAt_eq_length_blocksAround (hwell : WellBracketed roles)
    (hindex : index < roles.length) :
    levelAt roles index = (blocksAround roles index).length := by
  rw [hwell.levelAt_eq_length_filter (List.getElem?_eq_getElem hindex),
    ← (hwell.map_fst_blocksAround_perm (Nat.le_of_lt hindex)).length_eq, List.length_map]

/-! ## The outermost level -/

/-- No block lies around a command exactly if no bracket is open before it. -/
theorem WellBracketed.openBefore_eq_nil_iff (hwell : WellBracketed roles)
    (hrole : roles[index]? = some role) (hnotEnd : role ≠ .blockEnd) :
    openBefore roles index = [] ↔ ∀ block last, ¬Encloses roles block last index := by
  rw [List.eq_nil_iff_forall_not_mem]
  refine forall_congr' fun block => ?_
  rw [← hwell.exists_encloses_iff_mem hrole hnotEnd, not_exists]

/-- At the outermost level stand the commands that no block has inside, and the arms of the chains
that no block has inside. -/
theorem WellBracketed.levelAt_eq_zero_iff_outermost (hwell : WellBracketed roles)
    (hindex : index < roles.length) :
    levelAt roles index = 0 ↔
      (∀ block last, ¬Encloses roles block last index) ∨
        ∃ chain, ArmOf roles chain index ∧
          ∀ block last, ¬Encloses roles block last chain.opener := by
  by_cases harm : ∃ chain, ArmOf roles chain index
  · obtain ⟨chain, harm⟩ := harm
    have hmem := mem_openBefore_of_innermost harm.2
    obtain ⟨role, hrole, hnotEnd, _⟩ := exists_role_of_opener hmem
    rw [levelAt_of_armOf harm, List.length_eq_zero_iff, hwell.openBefore_eq_nil_iff hrole hnotEnd]
    constructor
    · exact fun hnone => .inr ⟨chain, harm, hnone⟩
    · rintro (hnone | ⟨other, hother, hnone⟩)
      · obtain ⟨arm, hroleArm⟩ := harm.1
        obtain ⟨last, hlast⟩ := (hwell.exists_encloses_iff_mem hroleArm nofun).mpr hmem
        exact absurd hlast (hnone chain last)
      · rwa [Option.some_inj.mp (harm.2.symm.trans hother.2)]
  · rw [not_exists] at harm
    rw [hwell.levelAt_eq_length_blocksAround hindex, List.length_eq_zero_iff,
      List.eq_nil_iff_forall_not_mem, Prod.forall, or_iff_left fun ⟨chain, hchain, _⟩ =>
        harm chain hchain]
    simp only [mem_blocksAround, harm, not_false_iff, and_true]

end Roles

section Built

variable {α : Type} [Step α] {commands : List α} {graph : Graph α} {index last : Nat}
variable {block : Bracket}

theorem level_of_node? {node : Node α} (hbuild : Graph.build? commands = .ok graph)
    (hnode : graph.node? index = some node) :
    index < (rolesOf commands).length ∧ node.level = levelAt (rolesOf commands) index := by
  obtain ⟨command, hcommand, rfl⟩ := exists_command_of_node? hbuild hnode
  exact ⟨(List.getElem?_eq_some_iff.mp (getElem?_rolesOf hcommand)).1, rfl⟩

theorem exists_node?_level (hbuild : Graph.build? commands = .ok graph)
    (hindex : index < (rolesOf commands).length) :
    ∃ node, graph.node? index = some node ∧ node.level = levelAt (rolesOf commands) index := by
  rw [length_rolesOf] at hindex
  have hnode := node?_of_build? hbuild (List.getElem?_eq_getElem hindex)
  exact ⟨_, hnode, (level_of_node? hbuild hnode).2⟩

/-- The level of a node is the number of blocks around its command, without the chain that the
command is an arm of; it is zero for a command in no block and for an arm of a chain in no block,
and it changes by one at most from a node to the next.  The opening command of a block, its arms and
its `end` have the same level, and everything else between them has a greater one. -/
theorem levels_are_nesting_depths (hbuild : Graph.build? commands = .ok graph) :
    (∀ index node, graph.node? index = some node →
      node.level = (blocksAround (rolesOf commands) index).length ∧
        (node.level = 0 ↔
          (∀ block last, ¬Encloses (rolesOf commands) block last index) ∨
            ∃ chain, ArmOf (rolesOf commands) chain index ∧
              ∀ block last, ¬Encloses (rolesOf commands) block last chain.opener) ∧
        ∀ following, graph.node? (index + 1) = some following →
          following.level ≤ node.level + 1 ∧ node.level ≤ following.level + 1) ∧
      ∀ block last, Closes (rolesOf commands) block last →
        ∃ opening closing, graph.node? block.opener = some opening ∧
          graph.node? last = some closing ∧ opening.level = closing.level ∧
          ∀ index node, block.opener < index → index < last → graph.node? index = some node →
            (ArmOf (rolesOf commands) block index → node.level = closing.level) ∧
              (¬ArmOf (rolesOf commands) block index → closing.level < node.level) := by
  have hwell := (build?_eq_ok_iff.mp hbuild).1
  constructor
  · intro index node hnode
    obtain ⟨hindex, hlevel⟩ := level_of_node? hbuild hnode
    rw [hlevel]
    refine ⟨hwell.levelAt_eq_length_blocksAround hindex,
      hwell.levelAt_eq_zero_iff_outermost hindex, fun following hfollowing => ?_⟩
    rw [(level_of_node? hbuild hfollowing).2]
    exact levelAt_succ_le _ index
  · intro block last hlast
    have hmem := mem_openBefore_of_innermost hlast.2
    obtain ⟨role, _, _, hopener⟩ := exists_role_of_opener hmem
    obtain ⟨opening, hopening, hopeningLevel⟩ :=
      exists_node?_level hbuild (Nat.lt_trans hlast.opener_lt hlast.lt_length)
    obtain ⟨closing, hclosing, hclosingLevel⟩ := exists_node?_level hbuild hlast.lt_length
    rw [levelAt_of_closes hlast] at hclosingLevel
    refine ⟨opening, closing, hopening, hclosing, ?_, fun index node hafter hbefore hnode => ?_⟩
    · rw [hopeningLevel, hopener, hclosingLevel]
    rw [(level_of_node? hbuild hnode).2, hclosingLevel]
    refine ⟨levelAt_of_armOf, fun hnotArm => lt_levelAt_of_not_marks ?_ ?_⟩
    · exact hlast.mem_openBefore_iff.mpr ⟨hafter, Nat.le_of_lt hbefore⟩
    · rintro (harm | hcloses)
      · exact hnotArm harm
      · exact Nat.ne_of_lt hbefore (hcloses.unique hlast)

/-- In the sample, the step inside the `do` has three blocks around it, and the `else` counts only
the `times` and not its own chain. -/
theorem sample_levels_are_nesting_depths :
    Graph.build? sampleTest = .ok sampleGraph ∧
      (∃ node, sampleGraph.node? 5 = some node ∧
        node.level = (blocksAround (rolesOf sampleTest) 5).length ∧ node.level = 3) ∧
      blocksAround (rolesOf sampleTest) 8 = [(⟨.timesLoop, 0⟩, 11)] := by
  obtain ⟨hnodes, _⟩ := levels_are_nesting_depths (rfl : Graph.build? sampleTest = .ok sampleGraph)
  exact ⟨rfl, ⟨_, rfl, (hnodes 5 _ rfl).1, rfl⟩, by decide⟩

end Built

end StepFlow
