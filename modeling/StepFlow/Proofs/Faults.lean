import StepFlow.Proofs.Links

/-!
# Faults

What can be wrong with a test, said by bracket matching alone: a keyword stands where the open
brackets do not allow it, the arms of an `if` are out of order at its `end`, or a block is never
closed.  A test can have any number of faults.  Building reports the first of them in reading
order, where an unclosed block is noticed only behind the last command.  Main statement:
`build?_reports_first_fault`.
-/

namespace StepFlow

/-- The command at the opening position of `bracket` opens it. -/
def Opens (roles : List Role) (bracket : Bracket) : Prop :=
  innermost? roles (bracket.opener + 1) = some bracket

/-- A sequence of arms is out of order in this way. -/
inductive Disordered (arms : List Arm) : ArmDisorder → Prop
  | tooManyElse (hcount : 2 ≤ arms.count .otherwise) : Disordered arms .tooManyElse
  | elseIfAfterElse {before after : List Arm} (hcount : arms.count .otherwise = 1)
      (hsplit : arms = before ++ .otherwise :: after) (hafter : .elseIf ∈ after) :
      Disordered arms .elseIfAfterElse

/-- A test with these roles deserves this error. -/
inductive Fault (roles : List Role) : BuildError → Prop
  /-- The innermost block around an `elseIf` or `else` is not an `if`. -/
  | elseOutsideIf {arm : Arm} {index : Nat} (hrole : roles[index]? = some (.branchArm arm))
      (haround : (innermost? roles index).map Bracket.block ≠ some .ifBlock) :
      Fault roles (.misplacedKeyword arm.keyword index .elseOutsideIf)
  /-- The innermost block around a `repeatIf` is not a `do`. -/
  | repeatIfWithoutDo {index : Nat} (hrole : roles[index]? = some (.loopTest .repeatIf))
      (haround : (innermost? roles index).map Bracket.block ≠ some .doLoop) :
      Fault roles (.misplacedKeyword .repeatIfWord index .repeatIfWithoutDo)
  /-- There is no block around an `end`. -/
  | endWithoutOpening {index : Nat} (hrole : roles[index]? = some .blockEnd)
      (haround : innermost? roles index = none) :
      Fault roles (.misplacedKeyword .endWord index .endWithoutOpening)
  /-- The arms between an `if` and its `end`, nested blocks included, are out of order. -/
  | armDisorder {chain : Bracket} {index : Nat} {reason : ArmDisorder}
      (hend : Closes roles chain index) (hif : chain.block = .ifBlock)
      (hdisordered : Disordered (armsWithin roles chain.opener index) reason) :
      Fault roles (.armDisorder index reason)
  /-- A block is never closed, and every block that is opened later is. -/
  | unclosedBlock {bracket : Bracket} (hopens : Opens roles bracket)
      (hnever : ∀ last, ¬Closes roles bracket last)
      (hlater : ∀ other, Opens roles other → bracket.opener < other.opener →
        ∃ last, Closes roles other last) :
      Fault roles (.unclosedBlock bracket.block.keyword bracket.opener)

/-- The position at which someone who reads a test of `size` commands notices the error. -/
def BuildError.noticedAt (size : Nat) : BuildError → Nat
  | unclosedBlock _ _ => size
  | misplacedKeyword _ index _ | armDisorder index _ => index

variable {roles : List Role} {role : Role} {index last : Nat} {bracket : Bracket}
variable {error other : BuildError}

/-! ## Arms out of order -/

theorem count_otherwise_eq_one_iff {before after : List Arm} :
    (before ++ .otherwise :: after).count .otherwise = 1 ↔
      .otherwise ∉ before ∧ .otherwise ∉ after := by
  rw [List.count_append, List.count_cons_self, ← List.count_eq_zero, ← List.count_eq_zero]
  omega

/-- With a single `else`, some arm comes after it exactly if the last arm is not the `else`. -/
theorem getLast?_ne_otherwise_iff {before after : List Arm} (hafter : .otherwise ∉ after) :
    (before ++ .otherwise :: after).getLast? ≠ some .otherwise ↔ .elseIf ∈ after := by
  rw [List.getLast?_append, List.getLast?_cons, Option.some_or]
  cases after with
  | nil => simp
  | cons arm rest =>
      have hall : ∀ other ∈ arm :: rest, other = .elseIf := by
        intro other hother
        cases other with
        | elseIf => rfl
        | otherwise => exact absurd hother hafter
      have hlast : (arm :: rest).getLast (List.cons_ne_nil _ _) = .elseIf :=
        hall _ (List.getLast_mem _)
      rw [List.getLast?_eq_some_getLast (List.cons_ne_nil _ _), hlast]
      exact iff_of_true (by simp) (hall arm List.mem_cons_self ▸ List.mem_cons_self)

theorem armDisorder?_eq_some_iff {arms : List Arm} {reason : ArmDisorder} :
    armDisorder? arms = some reason ↔ Disordered arms reason := by
  unfold armDisorder?
  constructor
  · intro hsome
    split at hsome
    next hcount =>
      cases hsome
      exact .tooManyElse hcount
    next =>
      split at hsome
      next hlast =>
        cases hsome
        have hmem : .otherwise ∈ arms := List.count_pos_iff.mp (by omega)
        obtain ⟨before, after, rfl⟩ := List.append_of_mem hmem
        obtain ⟨_, hafter⟩ := count_otherwise_eq_one_iff.mp hlast.1
        exact .elseIfAfterElse hlast.1 rfl ((getLast?_ne_otherwise_iff hafter).mp hlast.2)
      next => contradiction
  · rintro (hcount | ⟨hcount, rfl, hmem⟩)
    · rw [if_pos (by omega)]
    · obtain ⟨_, hafter⟩ := count_otherwise_eq_one_iff.mp hcount
      rw [if_neg (by omega), if_pos ⟨hcount, (getLast?_ne_otherwise_iff hafter).mpr hmem⟩]

/-- Nothing may come after an `else`. -/
theorem exists_disordered_of_after_else {before after : List Arm} (hafter : after ≠ []) :
    ∃ reason, Disordered (before ++ .otherwise :: after) reason := by
  by_cases hcount : 2 ≤ (before ++ .otherwise :: after).count .otherwise
  · exact ⟨_, .tooManyElse hcount⟩
  · have hone : (before ++ .otherwise :: after).count .otherwise = 1 := by
      rw [List.count_append, List.count_cons_self] at hcount ⊢
      omega
    obtain ⟨arm, harm⟩ := List.exists_mem_of_ne_nil after hafter
    cases arm with
    | elseIf => exact ⟨_, .elseIfAfterElse hone rfl harm⟩
    | otherwise => exact absurd harm (count_otherwise_eq_one_iff.mp hone).2

/-! ## Misfits are faults -/

/-- What bracket matching objects to at `index` is the fault that is noticed there. -/
theorem misfit?_eq_some_iff (hrole : roles[index]? = some role) :
    misfit? roles index role = some error ↔
      Fault roles error ∧ error.noticedAt roles.length = index := by
  constructor
  · intro hmisfit
    cases role with
    | branchArm arm =>
        simp only [misfit?, Option.ite_none_left_eq_some, Option.some_inj] at hmisfit
        obtain ⟨haround, rfl⟩ := hmisfit
        exact ⟨.elseOutsideIf hrole haround, rfl⟩
    | loopTest test =>
        cases test with
        | whileTest => cases hmisfit
        | repeatIf =>
            simp only [misfit?, Option.ite_none_left_eq_some, Option.some_inj] at hmisfit
            obtain ⟨haround, rfl⟩ := hmisfit
            exact ⟨.repeatIfWithoutDo hrole haround, rfl⟩
    | blockEnd =>
        simp only [misfit?] at hmisfit
        split at hmisfit
        next haround =>
          cases hmisfit
          exact ⟨.endWithoutOpening hrole haround, rfl⟩
        next chain hchain =>
          simp only [Option.ite_none_right_eq_some, Option.map_eq_some_iff] at hmisfit
          obtain ⟨hif, reason, hreason, rfl⟩ := hmisfit
          exact ⟨.armDisorder ⟨hrole, hchain⟩ hif (armDisorder?_eq_some_iff.mp hreason), rfl⟩
    | opening opener => cases hmisfit
    | ordinary => cases hmisfit
  · rintro ⟨hfault, rfl⟩
    cases hfault with
    | elseOutsideIf hroleFault haround =>
        obtain rfl := Option.some_inj.mp (hroleFault.symm.trans hrole)
        rw [BuildError.noticedAt, misfit?, if_neg haround]
    | repeatIfWithoutDo hroleFault haround =>
        obtain rfl := Option.some_inj.mp (hroleFault.symm.trans hrole)
        rw [BuildError.noticedAt, misfit?, if_neg haround]
    | endWithoutOpening hroleFault haround =>
        obtain rfl := Option.some_inj.mp (hroleFault.symm.trans hrole)
        simp only [BuildError.noticedAt, misfit?, haround]
    | armDisorder hend hif hdisordered =>
        obtain rfl := Option.some_inj.mp (hend.1.symm.trans hrole)
        simp only [BuildError.noticedAt, misfit?, hend.2, hif, if_true,
          armDisorder?_eq_some_iff.mpr hdisordered, Option.map_some]
    | unclosedBlock hopens hnever hlater =>
        exact absurd (List.getElem?_eq_some_iff.mp hrole).1 (Nat.lt_irrefl _)

/-! ## Unclosed blocks -/

theorem opens_of_mem (hmem : bracket ∈ openBefore roles index) : Opens roles bracket := by
  rw [Opens, innermost?, (openBefore_opener (exists_suffix_of_mem hmem)).2, List.head?_cons]

theorem Opens.lt_length (hopens : Opens roles bracket) : bracket.opener < roles.length := by
  rcases role_opener (mem_openBefore_of_innermost hopens) with ⟨_, hrole, _⟩ | ⟨hrole, _⟩
  · exact (List.getElem?_eq_some_iff.mp hrole).1
  · exact (List.getElem?_eq_some_iff.mp hrole).1

/-- A block is closed or still open in the end. -/
theorem Opens.exists_closes_or_mem (hopens : Opens roles bracket) :
    (∃ last, Closes roles bracket last) ∨ bracket ∈ openBefore roles roles.length := by
  by_cases hmem : bracket ∈ openBefore roles roles.length
  · exact .inr hmem
  · have hsuffix := exists_suffix_of_mem (mem_openBefore_of_innermost hopens)
    obtain ⟨last, _, _, hlast⟩ := exists_closes hsuffix hopens.lt_length fun hstill =>
      hmem (hstill.mem List.mem_cons_self)
    exact .inl ⟨last, hlast⟩

theorem Closes.not_mem_length (hcloses : Closes roles bracket last) :
    bracket ∉ openBefore roles roles.length := fun hmem =>
  Nat.not_le_of_lt hcloses.lt_length (hcloses.mem_openBefore_iff.mp hmem).2

/-- The unclosed block to blame is the innermost one that is open in the end. -/
theorem fault_unclosedBlock_iff {keyword : Keyword} :
    Fault roles (.unclosedBlock keyword index) ↔
      ∃ bracket, innermost? roles roles.length = some bracket ∧
        bracket.block.keyword = keyword ∧ bracket.opener = index := by
  constructor
  · rintro (_ | _ | _ | _ | ⟨hopens, hnever, hlater⟩)
    have hmem := hopens.exists_closes_or_mem.resolve_left fun ⟨last, hlast⟩ => hnever last hlast
    obtain ⟨top, outer, htop⟩ := List.exists_cons_of_ne_nil (List.ne_nil_of_mem hmem)
    have hinner : innermost? roles roles.length = some top := by
      rw [innermost?, htop, List.head?_cons]
    rw [openBefore_eq_of_innermost hinner, List.mem_cons] at hmem
    rcases hmem with rfl | hbelow
    · exact ⟨_, hinner, rfl, rfl⟩
    -- A block further in would have been opened later, and closed.
    · have htopMem := mem_openBefore_of_innermost hinner
      obtain ⟨last, hlast⟩ := hlater top (opens_of_mem htopMem) (opener_lt_of_mem hbelow)
      exact absurd htopMem hlast.not_mem_length
  · rintro ⟨bracket, hinner, rfl, rfl⟩
    have hmem := mem_openBefore_of_innermost hinner
    refine .unclosedBlock (opens_of_mem hmem) (fun last hlast => hlast.not_mem_length hmem) ?_
    intro later hopens hlt
    refine hopens.exists_closes_or_mem.resolve_right fun hlaterMem => ?_
    rw [openBefore_eq_of_innermost hinner, List.mem_cons] at hlaterMem
    rcases hlaterMem with rfl | houter
    · exact Nat.lt_irrefl _ hlt
    · exact Nat.lt_asymm hlt (opener_lt_of_mem houter)

/-! ## Where a fault is noticed -/

theorem Fault.noticedAt_le (hfault : Fault roles error) :
    error.noticedAt roles.length ≤ roles.length := by
  cases hfault with
  | elseOutsideIf hrole haround | repeatIfWithoutDo hrole haround
  | endWithoutOpening hrole haround =>
      exact Nat.le_of_lt (List.getElem?_eq_some_iff.mp hrole).1
  | armDisorder hend hif hdisordered => exact Nat.le_of_lt hend.lt_length
  | unclosedBlock hopens hnever hlater => exact Nat.le_refl _

/-- Only an unclosed block is noticed behind the last command. -/
theorem Fault.eq_unclosedBlock (hfault : Fault roles error)
    (hend : error.noticedAt roles.length = roles.length) :
    ∃ bracket, innermost? roles roles.length = some bracket ∧
      error = .unclosedBlock bracket.block.keyword bracket.opener := by
  cases hfault with
  | elseOutsideIf hrole haround | repeatIfWithoutDo hrole haround
  | endWithoutOpening hrole haround =>
      exact absurd hend (Nat.ne_of_lt (List.getElem?_eq_some_iff.mp hrole).1)
  | armDisorder hend' hif hdisordered => exact absurd hend (Nat.ne_of_lt hend'.lt_length)
  | unclosedBlock hopens hnever hlater =>
      obtain ⟨bracket, hinner, hkeyword, hopener⟩ :=
        fault_unclosedBlock_iff.mp (.unclosedBlock hopens hnever hlater)
      exact ⟨bracket, hinner, by rw [hkeyword, hopener]⟩

/-- At most one fault is noticed at each position. -/
theorem Fault.eq_of_noticedAt_eq (hfault : Fault roles error) (hother : Fault roles other)
    (hsame : error.noticedAt roles.length = other.noticedAt roles.length) : error = other := by
  rcases Nat.lt_or_eq_of_le hfault.noticedAt_le with hlt | hend
  · have hrole := List.getElem?_eq_getElem hlt
    have hmisfit := (misfit?_eq_some_iff hrole).mpr ⟨hfault, rfl⟩
    have hmisfitOther := (misfit?_eq_some_iff hrole).mpr ⟨hother, hsame.symm⟩
    exact Option.some_inj.mp (hmisfit.symm.trans hmisfitOther)
  · obtain ⟨bracket, hinner, rfl⟩ := hfault.eq_unclosedBlock hend
    obtain ⟨bracketOther, hinnerOther, rfl⟩ := hother.eq_unclosedBlock (hsame.symm.trans hend)
    rw [hinner, Option.some_inj] at hinnerOther
    rw [hinnerOther]

/-- No fault is noticed where everything fits. -/
theorem Fault.le_noticedAt {bound : Nat} (hfault : Fault roles error)
    (hbound : bound ≤ roles.length)
    (hfits : ∀ position role, position < bound → roles[position]? = some role →
      Fits roles position role) : bound ≤ error.noticedAt roles.length := by
  refine Nat.le_of_not_lt fun hlt => ?_
  have hrole := List.getElem?_eq_getElem (Nat.lt_of_lt_of_le hlt hbound)
  have hmisfit := (misfit?_eq_some_iff hrole).mpr ⟨hfault, rfl⟩
  rw [misfit?_eq_none_iff.mpr (hfits _ _ hlt hrole)] at hmisfit
  contradiction

/-- Before the first fault everything fits. -/
theorem fits_of_forall_fault {bound : Nat}
    (hbound : ∀ other, Fault roles other → bound ≤ other.noticedAt roles.length)
    (hindex : index < bound) (hrole : roles[index]? = some role) : Fits roles index role := by
  rw [← misfit?_eq_none_iff, Option.eq_none_iff_forall_ne_some]
  intro error hmisfit
  obtain ⟨hfault, hnoticed⟩ := (misfit?_eq_some_iff hrole).mp hmisfit
  have hle := hbound error hfault
  omega

theorem WellBracketed.not_fault (hwell : WellBracketed roles) : ¬Fault roles error := by
  intro hfault
  have hle := hfault.le_noticedAt (Nat.le_refl _) fun position role _ => hwell.fits position role
  obtain ⟨bracket, hinner, _⟩ := hfault.eq_unclosedBlock (Nat.le_antisymm hfault.noticedAt_le hle)
  rw [innermost?, hwell.closed] at hinner
  contradiction

theorem Fault.index_lt (hfault : Fault roles error) : error.index < roles.length := by
  cases hfault with
  | elseOutsideIf hrole haround | repeatIfWithoutDo hrole haround
  | endWithoutOpening hrole haround => exact (List.getElem?_eq_some_iff.mp hrole).1
  | armDisorder hend hif hdisordered => exact hend.lt_length
  | unclosedBlock hopens hnever hlater => exact hopens.lt_length

/-- The command that a block is blamed on is the keyword that opens such blocks. -/
theorem Opens.keyword_eq (hopens : Opens roles bracket) :
    ∃ role, roles[bracket.opener]? = some role ∧ role.keyword? = some bracket.block.keyword := by
  rcases role_opener (mem_openBefore_of_innermost hopens) with
    ⟨opener, hrole, hblock⟩ | ⟨hrole, hblock, _⟩
  · refine ⟨_, hrole, ?_⟩
    rw [hblock]
    cases opener <;> rfl
  · exact ⟨_, hrole, by rw [hblock]; rfl⟩

theorem Fault.keyword_eq {keyword : Keyword} (hfault : Fault roles error)
    (hkeyword : error.keyword? = some keyword) :
    ∃ role, roles[error.index]? = some role ∧ role.keyword? = some keyword := by
  cases hfault with
  | elseOutsideIf hrole haround | repeatIfWithoutDo hrole haround
  | endWithoutOpening hrole haround => exact ⟨_, hrole, hkeyword⟩
  | armDisorder hend hif hdisordered => cases hkeyword
  | unclosedBlock hopens hnever hlater =>
      obtain ⟨role, hrole, hblock⟩ := hopens.keyword_eq
      exact ⟨role, hrole, hblock.trans hkeyword⟩

/-! ## The reported fault -/

section Commands

variable {α : Type} [Step α] {commands : List α}

theorem finish_nestingOf_eq_error_iff {brackets : List Bracket} :
    (nestingOf brackets).finish = .error error ↔
      ∃ bracket, brackets.head? = some bracket ∧
        error = .unclosedBlock bracket.block.keyword bracket.opener := by
  cases brackets <;> simp [Nesting.finish, nestingOf, openBlocks, eq_comm]

/-- If everything fits up to `index` and outlining fails from there on, then the error is a fault
and everything fits up to the place where it is noticed. -/
theorem fault_of_outlineFrom (hindex : index ≤ commands.length)
    (hfits : ∀ position role, position < index → (rolesOf commands)[position]? = some role →
      Fits (rolesOf commands) position role)
    (herror : outlineFrom commands index (nestingOf (openBefore (rolesOf commands) index))
      (commands.drop index) = .error error) :
    Fault (rolesOf commands) error ∧ ∀ position role,
      position < error.noticedAt (rolesOf commands).length →
        (rolesOf commands)[position]? = some role → Fits (rolesOf commands) position role := by
  induction hindex using Nat.decreasingInduction with
  | self =>
      rw [List.drop_length, outlineFrom, map_eq_error_iff, finish_nestingOf_eq_error_iff] at herror
      obtain ⟨bracket, hinner, rfl⟩ := herror
      refine ⟨fault_unclosedBlock_iff.mpr ⟨bracket, ?_, rfl, rfl⟩, ?_⟩
      · rwa [length_rolesOf]
      · rwa [BuildError.noticedAt, length_rolesOf]
  | of_succ index hlt ih =>
      have hcommand : commands[index]? = some commands[index] := List.getElem?_eq_getElem hlt
      have hrole := getElem?_rolesOf hcommand
      rw [List.drop_eq_getElem_cons hlt, outlineFrom, read_nestingOf hcommand] at herror
      cases hmisfit : misfit? (rolesOf commands) index (Step.role commands[index]) with
      | some found =>
          simp only [hmisfit, Except.error.injEq] at herror
          subst herror
          obtain ⟨hfault, hnoticed⟩ := (misfit?_eq_some_iff hrole).mp hmisfit
          exact ⟨hfault, by rwa [hnoticed]⟩
      | none =>
          simp only [hmisfit, map_eq_error_iff] at herror
          refine ih ?_ herror
          intro position role hposition hroleAt
          rcases Nat.lt_succ_iff_lt_or_eq.mp hposition with hbefore | rfl
          · exact hfits position role hbefore hroleAt
          · rw [hrole, Option.some_inj] at hroleAt
            exact misfit?_eq_none_iff.mp (hroleAt ▸ hmisfit)

theorem build?_eq_error_iff_outline? :
    Graph.build? commands = .error error ↔ outline? commands = .error error :=
  map_eq_error_iff

/-- Building fails with the fault that is noticed first. -/
theorem build?_eq_error_iff :
    Graph.build? commands = .error error ↔
      Fault (rolesOf commands) error ∧
        ∀ other, Fault (rolesOf commands) other →
          error.noticedAt commands.length ≤ other.noticedAt commands.length := by
  have hreported : ∀ {error : BuildError}, Graph.build? commands = .error error →
      Fault (rolesOf commands) error ∧
        ∀ other, Fault (rolesOf commands) other →
          error.noticedAt commands.length ≤ other.noticedAt commands.length := by
    intro error herror
    obtain ⟨hfault, hfits⟩ := fault_of_outlineFrom (Nat.zero_le _)
      (fun position role hlt => absurd hlt (Nat.not_lt_zero _))
      (build?_eq_error_iff_outline?.mp herror)
    refine ⟨hfault, fun other hother => ?_⟩
    rw [← length_rolesOf commands]
    exact hother.le_noticedAt hfault.noticedAt_le hfits
  refine ⟨hreported, fun ⟨hfault, hfirst⟩ => ?_⟩
  cases hbuild : Graph.build? commands with
  | ok graph => exact absurd hfault (build?_eq_ok_iff.mp hbuild).1.not_fault
  | error first =>
      obtain ⟨hfirstFault, hle⟩ := hreported hbuild
      have hsame := Nat.le_antisymm (hfirst first hfirstFault) (hle error hfault)
      rw [← length_rolesOf commands] at hsame
      rw [hfault.eq_of_noticedAt_eq hfirstFault hsame]

theorem exists_name_of_keyword {keyword : Keyword}
    (hrole : ∃ role, (rolesOf commands)[index]? = some role ∧ role.keyword? = some keyword) :
    ∃ command, commands[index]? = some command ∧ Step.name command = keyword.name := by
  obtain ⟨role, hrole, hkeyword⟩ := hrole
  rw [rolesOf, List.getElem?_map, Option.map_eq_some_iff] at hrole
  obtain ⟨command, hcommand, rfl⟩ := hrole
  rw [Step.role, Role.keyword?_ofName] at hkeyword
  exact ⟨command, hcommand, (Keyword.name_of_ofName?_eq_some hkeyword).symm⟩

/-- A test is rejected exactly with the first of its faults in reading order.  Every fault leads to
a rejection and names a position of the test, and the keyword that it names stands there. -/
theorem build?_reports_first_fault (commands : List α) (error : BuildError) :
    (Graph.build? commands = .error error ↔
      Fault (rolesOf commands) error ∧
        ∀ other, Fault (rolesOf commands) other →
          error.noticedAt commands.length ≤ other.noticedAt commands.length) ∧
    (Fault (rolesOf commands) error →
      (∃ first, Graph.build? commands = .error first) ∧ error.index < commands.length ∧
        ∀ keyword, error.keyword? = some keyword →
          ∃ command, commands[error.index]? = some command ∧
            Step.name command = keyword.name) := by
  refine ⟨build?_eq_error_iff, fun hfault => ⟨?_, ?_, ?_⟩⟩
  · cases hbuild : Graph.build? commands with
    | ok graph => exact absurd hfault (build?_eq_ok_iff.mp hbuild).1.not_fault
    | error first => exact ⟨first, rfl⟩
  · rw [← length_rolesOf commands]
    exact hfault.index_lt
  · intro keyword hkeyword
    exact exists_name_of_keyword (hfault.keyword_eq hkeyword)

/-- The stray `else` is noticed before the two unclosed blocks are. -/
example :
    Graph.build? ["while", "else", "do"] = .error (.misplacedKeyword .elseWord 1 .elseOutsideIf) :=
  rfl

end Commands

end StepFlow
