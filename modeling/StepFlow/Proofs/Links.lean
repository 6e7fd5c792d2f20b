import StepFlow.Proofs.Searches

/-!
# Links by bracket matching

Linking walks the levels of an outline with a stack of frames.  This file states the same wiring
without levels and without frames, as a rule on the open brackets (`LinkRule`), and proves that
every node of a built graph is linked by that rule: the frames are the open brackets, and each
search by level finds the closing position, or the next arm, of the bracket it is meant for.
-/

namespace StepFlow

/-- How the blocks around the command at `index` determine the way it is left. -/
inductive LinkRule (roles : List Role) (index : Nat) : Link → Prop
  /-- The last command leads nowhere. -/
  | last (hlast : index + 1 = roles.length) : LinkRule roles index .terminal
  | doBody (hnext : index + 1 < roles.length)
      (hrole : roles[index]? = some (.opening .doLoop)) :
      LinkRule roles index (.next (index + 1))
  | elseBody (hnext : index + 1 < roles.length)
      (hrole : roles[index]? = some (.branchArm .otherwise)) :
      LinkRule roles index (.next (index + 1))
  | repeatIf (hnext : index + 1 < roles.length)
      (hrole : roles[index]? = some (.loopTest .repeatIf)) :
      LinkRule roles index (.next (index + 1))
  | ifTest {left : Nat} (hnext : index + 1 < roles.length)
      (hrole : roles[index]? = some (.opening .ifBlock))
      (hleft : ChainGoesOn roles ⟨.ifBlock, index⟩ index left) :
      LinkRule roles index (.branch left (index + 1))
  | elseIfTest {chain : Bracket} {left : Nat} (hnext : index + 1 < roles.length)
      (hrole : roles[index]? = some (.branchArm .elseIf))
      (hchain : innermost? roles index = some chain)
      (hleft : ChainGoesOn roles chain index left) :
      LinkRule roles index (.branch left (index + 1))
  | timesTest {last : Nat} (hnext : index + 1 < roles.length)
      (hrole : roles[index]? = some (.opening .timesLoop))
      (hlast : Closes roles ⟨.timesLoop, index⟩ last) :
      LinkRule roles index (.branch last (index + 1))
  /-- A `while` that opens its own loop. -/
  | whileTest {last : Nat} (hnext : index + 1 < roles.length)
      (hrole : roles[index]? = some (.loopTest .whileTest))
      (hown : (innermost? roles index).map Bracket.block ≠ some .doLoop)
      (hlast : Closes roles ⟨.whileLoop, index⟩ last) :
      LinkRule roles index (.branch last (index + 1))
  /-- A `while` that stands directly in a `do` repeats that loop or leaves it. -/
  | doTest {loop : Bracket} {last : Nat} (hnext : index + 1 < roles.length)
      (hrole : roles[index]? = some (.loopTest .whileTest))
      (hloop : innermost? roles index = some loop) (hdo : loop.block = .doLoop)
      (hlast : Closes roles loop last) :
      LinkRule roles index (.branch last loop.opener)
  /-- An `end` that no block encloses leads nowhere. -/
  | outermostEnd (hrole : roles[index]? = some .blockEnd)
      (haround : innermost? roles (index + 1) = none) :
      LinkRule roles index .terminal
  | endBeforeStep {around : Bracket} (hrole : roles[index]? = some .blockEnd)
      (haround : innermost? roles (index + 1) = some around)
      (hcoming : roles[index + 1]? = some .ordinary) :
      LinkRule roles index (.next (index + 1))
  | endBeforeKeyword {around : Bracket} {coming : Role} {last : Nat}
      (hrole : roles[index]? = some .blockEnd)
      (haround : innermost? roles (index + 1) = some around)
      (hcoming : roles[index + 1]? = some coming) (hkeyword : coming ≠ .ordinary)
      (hlast : Closes roles around last) :
      LinkRule roles index (.next last)
  /-- The last step of an arm skips the other arms. -/
  | stepLeavesArm {chain : Bracket} {coming : Role} {last : Nat}
      (hrole : roles[index]? = some .ordinary)
      (hchain : innermost? roles index = some chain) (hif : chain.block = .ifBlock)
      (hcoming : roles[index + 1]? = some coming)
      (hmarker : coming.isBranchArm ∨ coming.isEnd)
      (hlast : Closes roles chain last) :
      LinkRule roles index (.next last)
  /-- In a loop that is tested first, a step before a keyword leads back to the test. -/
  | stepRepeats {loop : Bracket} {coming : Role} (hrole : roles[index]? = some .ordinary)
      (hloop : innermost? roles index = some loop) (hfirst : loop.block.testsFirst)
      (hcoming : roles[index + 1]? = some coming) (hkeyword : coming ≠ .ordinary) :
      LinkRule roles index (.next loop.opener)
  /-- Any other step leads on to the next command. -/
  | stepContinues {coming : Role} (hrole : roles[index]? = some .ordinary)
      (hcoming : roles[index + 1]? = some coming)
      (hstays : ∀ around, innermost? roles index = some around →
        ¬(around.block = .ifBlock ∧ (coming.isBranchArm ∨ coming.isEnd)) ∧
          ¬(around.block.testsFirst ∧ coming ≠ .ordinary)) :
      LinkRule roles index (.next (index + 1))

/-- The pointers that have exactly this link. -/
def Link.wires : Link → Wires
  | .next target => .continuing (some target)
  | .branch left right => .branching right (some left)
  | .terminal => {}

@[simp]
theorem Link.link_wires (link : Link) : link.wires.link = link := by
  cases link <;> rfl

/-- Open brackets as linking sees them. -/
def framesOf : List Bracket → List Frame
  | [] => []
  | bracket :: outer => ⟨bracket.block, outer.length, bracket.opener⟩ :: framesOf outer

section Rule

variable {roles : List Role} {index : Nat} {link other : Link}

/-- The rule leaves no choice: the roles of the command and of the next one, and the block around
them, decide which case applies, and a chain or a block has one place where it goes on. -/
theorem LinkRule.unique (hlink : LinkRule roles index link) (hother : LinkRule roles index other) :
    link = other := by
  cases hlink with
  | last hlast =>
      cases hother with
      | last | outermostEnd => rfl
      | _ => simp_all
  | doBody hnext hrole | elseBody hnext hrole | repeatIf hnext hrole =>
      cases hother with
      | doBody | elseBody | repeatIf => rfl
      | _ => simp_all
  | ifTest hnext hrole hleft =>
      cases hother with
      | ifTest _ _ hleftOther => rw [hleft.unique hleftOther]
      | _ => simp_all
  | elseIfTest hnext hrole hchain hleft =>
      cases hother with
      | elseIfTest _ _ hchainOther hleftOther =>
          rw [hchain, Option.some_inj] at hchainOther
          rw [hleft.unique (hchainOther ▸ hleftOther)]
      | _ => simp_all
  | timesTest hnext hrole hlast =>
      cases hother with
      | timesTest _ _ hlastOther => rw [hlast.unique hlastOther]
      | _ => simp_all
  | whileTest hnext hrole hown hlast =>
      cases hother with
      | whileTest _ _ _ hlastOther => rw [hlast.unique hlastOther]
      | _ => simp_all
  | doTest hnext hrole hloop hdo hlast =>
      cases hother with
      | doTest _ _ hloopOther _ hlastOther =>
          rw [hloop, Option.some_inj] at hloopOther
          subst hloopOther
          rw [hlast.unique hlastOther]
      | _ => simp_all
  | outermostEnd hrole haround =>
      cases hother with
      | last | outermostEnd => rfl
      | _ => simp_all
  | endBeforeStep hrole haround hcoming =>
      cases hother with
      | endBeforeStep => rfl
      | _ => simp_all
  | endBeforeKeyword hrole haround hcoming hkeyword hlast =>
      cases hother with
      | endBeforeKeyword _ haroundOther _ _ hlastOther =>
          rw [haround, Option.some_inj] at haroundOther
          subst haroundOther
          rw [hlast.unique hlastOther]
      | _ => simp_all
  | stepLeavesArm hrole hchain hif hcoming hmarker hlast =>
      cases hother with
      | stepLeavesArm _ hchainOther _ _ _ hlastOther =>
          rw [hchain, Option.some_inj] at hchainOther
          subst hchainOther
          rw [hlast.unique hlastOther]
      | stepRepeats _ hloop hfirst =>
          -- An `if` is not a loop that is tested first.
          rw [hchain, Option.some_inj] at hloop
          rw [← hloop, hif] at hfirst
          contradiction
      | _ => simp_all
  | stepRepeats hrole hloop hfirst hcoming hkeyword =>
      cases hother with
      | stepRepeats _ hloopOther =>
          rw [hloop, Option.some_inj] at hloopOther
          rw [hloopOther]
      | stepLeavesArm _ hchain hif =>
          rw [hloop, Option.some_inj] at hchain
          rw [hchain, hif] at hfirst
          contradiction
      | _ => simp_all
  | stepContinues hrole hcoming hstays =>
      cases hother with
      | stepContinues => rfl
      | _ => simp_all

theorem LinkRule.of_times (hlink : LinkRule roles index link)
    (hrole : roles[index]? = some (.opening .timesLoop)) (hnext : index + 1 < roles.length) :
    ∃ last, Closes roles ⟨.timesLoop, index⟩ last ∧ link = .branch last (index + 1) := by
  cases hlink with
  | timesTest _ _ hlast => exact ⟨_, hlast, rfl⟩
  | last hlast => omega
  | _ => simp_all

theorem LinkRule.of_while (hlink : LinkRule roles index link)
    (hrole : roles[index]? = some (.loopTest .whileTest))
    (hown : (innermost? roles index).map Bracket.block ≠ some .doLoop)
    (hnext : index + 1 < roles.length) :
    ∃ last, Closes roles ⟨.whileLoop, index⟩ last ∧ link = .branch last (index + 1) := by
  cases hlink with
  | whileTest _ _ _ hlast => exact ⟨_, hlast, rfl⟩
  | last hlast => omega
  | _ => simp_all

end Rule

section Linking

variable {α : Type} [Step α] {commands : List α} {command coming : α} {index : Nat}

theorem tail_framesOf (brackets : List Bracket) :
    (framesOf brackets).tail = framesOf brackets.tail := by
  cases brackets <;> rfl

/-- Linking keeps the open brackets as its frames. -/
theorem wire_framesOf (hcommand : commands[index]? = some command) (following : Entry α)
    (rest : List (Entry α)) :
    (wire index (framesOf (openBefore (rolesOf commands) index))
        ⟨command, levelAt (rolesOf commands) index⟩ following rest).2 =
      framesOf (openBefore (rolesOf commands) (index + 1)) := by
  have hrole := getElem?_rolesOf hcommand
  rw [openBefore_succ hrole, levelAt, hrole]
  unfold wire Bracket.advance
  generalize Step.role command = role
  generalize openBefore (rolesOf commands) index = brackets
  cases role with
  | opening opener => cases opener <;> rfl
  | branchArm arm => cases arm <;> rfl
  | loopTest test =>
      cases test with
      | whileTest =>
          cases brackets with
          | nil => rfl
          | cons bracket outer =>
              obtain ⟨block, opener⟩ := bracket
              cases block <;> rfl
      | repeatIf =>
          cases brackets with
          | nil => rfl
          | cons bracket outer =>
              simp only [framesOf]
              split
              · rfl
              · split <;> rfl
  | blockEnd =>
      simp only [tail_framesOf]
      cases brackets.tail with
      | nil => rfl
      | cons bracket outer =>
          simp only [framesOf]
          split <;> rfl
  | ordinary =>
      cases brackets with
      | nil => rfl
      | cons bracket outer =>
          simp only [framesOf]
          split
          · rfl
          · split <;> rfl

/-- The pointers that linking gives to the node at `index`. -/
def wiresAt (commands : List α) (index : Nat) : Wires :=
  match (leveled commands).drop index with
  | entry :: following :: rest =>
      (wire index (framesOf (openBefore (rolesOf commands) index)) entry following rest).1
  | _ => {}

def nodeAt (commands : List α) (index : Nat) (command : α) : Node α :=
  { wiresAt commands index with command, level := levelAt (rolesOf commands) index }

theorem wiresAt_of_coming (hcommand : commands[index]? = some command)
    (hcoming : commands[index + 1]? = some coming) :
    wiresAt commands index =
      (wire index (framesOf (openBefore (rolesOf commands) index))
        ⟨command, levelAt (rolesOf commands) index⟩
        ⟨coming, levelAt (rolesOf commands) (index + 1)⟩
        ((leveled commands).drop (index + 2))).1 := by
  rw [wiresAt, drop_leveled hcommand, drop_leveled hcoming]

theorem wiresAt_of_last (hcommand : commands[index]? = some command)
    (hlast : index + 1 = commands.length) : wiresAt commands index = {} := by
  have hdrop : (leveled commands).drop (index + 1) = [] := by
    rw [hlast, List.drop_eq_nil_iff, length_leveled]
  rw [wiresAt, drop_leveled hcommand, hdrop]

theorem linkFrom_leveled_cons (hcommand : commands[index]? = some command) :
    linkFrom index (framesOf (openBefore (rolesOf commands) index))
        ((leveled commands).drop index) =
      nodeAt commands index command ::
        linkFrom (index + 1) (framesOf (openBefore (rolesOf commands) (index + 1)))
          ((leveled commands).drop (index + 1)) := by
  rw [nodeAt, wiresAt, drop_leveled hcommand]
  cases (leveled commands).drop (index + 1) with
  | nil => rfl
  | cons following rest => rw [linkFrom, wire_framesOf hcommand]

theorem linkFrom_leveled (hindex : index ≤ commands.length) :
    linkFrom index (framesOf (openBefore (rolesOf commands) index))
        ((leveled commands).drop index) =
      (commands.drop index).mapIdx fun offset command =>
        nodeAt commands (index + offset) command := by
  induction hindex using Nat.decreasingInduction with
  | self =>
      have hdrop : (leveled commands).drop commands.length = [] := by simp
      rw [hdrop, List.drop_length]
      rfl
  | of_succ index hlt ih =>
      have hshift : (fun offset => nodeAt commands (index + (offset + 1))) =
          fun offset => nodeAt commands (index + 1 + offset) := by
        funext offset
        rw [Nat.add_right_comm, Nat.add_assoc]
      rw [List.drop_eq_getElem_cons hlt, List.mapIdx_cons, hshift, ← ih]
      exact linkFrom_leveled_cons (List.getElem?_eq_getElem hlt)

theorem nodes_ofOutline (commands : List α) :
    (Graph.ofOutline (leveled commands)).nodes = commands.mapIdx (nodeAt commands) := by
  change linkFrom 0 (framesOf (openBefore (rolesOf commands) 0))
    ((leveled commands).drop 0) = _
  rw [linkFrom_leveled (Nat.zero_le _)]
  simp

/-- A graph can be built exactly from the well-bracketed tests. -/
theorem build?_eq_ok_iff {graph : Graph α} :
    Graph.build? commands = .ok graph ↔
      WellBracketed (rolesOf commands) ∧ graph = ⟨commands.mapIdx (nodeAt commands)⟩ := by
  rw [Graph.build?, map_eq_ok_iff, ← nodes_ofOutline]
  constructor
  · rintro ⟨entries, hentries, rfl⟩
    obtain ⟨hwell, rfl⟩ := outline?_eq_ok_iff.mp hentries
    exact ⟨hwell, rfl⟩
  · rintro ⟨hwell, rfl⟩
    exact ⟨_, outline?_eq_ok_iff.mpr ⟨hwell, rfl⟩, rfl⟩

end Linking

/-! ## The pointers follow the rule -/

section Opened

variable {roles : List Role} {index : Nat}

theorem isControlFlow_iff {role : Role} : role.isControlFlow = true ↔ role ≠ .ordinary := by
  cases role <;> simp [Role.isControlFlow]

theorem innermost?_succ_of_opening {opener : Opener}
    (hrole : roles[index]? = some (.opening opener)) :
    innermost? roles (index + 1) = some ⟨opener.block, index⟩ := by
  rw [innermost?, openBefore_succ hrole]
  rfl

theorem innermost?_succ_of_while (hrole : roles[index]? = some (.loopTest .whileTest))
    (hown : (innermost? roles index).map Bracket.block ≠ some .doLoop) :
    innermost? roles (index + 1) = some ⟨.whileLoop, index⟩ := by
  rw [innermost?] at hown ⊢
  rw [openBefore_succ hrole, Bracket.advance, if_neg hown, List.head?_cons]

theorem innermost?_succ_of_doTest (hrole : roles[index]? = some (.loopTest .whileTest))
    (hdo : (innermost? roles index).map Bracket.block = some .doLoop) :
    innermost? roles (index + 1) = innermost? roles index := by
  rw [innermost?] at hdo
  rw [innermost?, innermost?, openBefore_succ hrole, Bracket.advance, if_pos hdo]

theorem innermost?_succ_of_branchArm {arm : Arm}
    (hrole : roles[index]? = some (.branchArm arm)) :
    innermost? roles (index + 1) = innermost? roles index := by
  rw [innermost?, innermost?, openBefore_succ hrole, Bracket.advance]

theorem innermost?_succ_of_repeatIf (hrole : roles[index]? = some (.loopTest .repeatIf)) :
    innermost? roles (index + 1) = innermost? roles index := by
  rw [innermost?, innermost?, openBefore_succ hrole, Bracket.advance]

theorem innermost?_succ_of_ordinary (hrole : roles[index]? = some .ordinary) :
    innermost? roles (index + 1) = innermost? roles index := by
  rw [innermost?, innermost?, openBefore_succ hrole, Bracket.advance]

theorem framesOf_eq_of_innermost {bracket : Bracket}
    (hinner : innermost? roles index = some bracket) :
    framesOf (openBefore roles index) =
      ⟨bracket.block, (openBefore roles bracket.opener).length, bracket.opener⟩ ::
        framesOf (openBefore roles bracket.opener) := by
  rw [openBefore_eq_of_innermost hinner, framesOf]

theorem framesOf_eq_nil (hinner : innermost? roles index = none) :
    framesOf (openBefore roles index) = [] := by
  rw [innermost?, List.head?_eq_none_iff] at hinner
  rw [hinner, framesOf]

end Opened

section Following

variable {α : Type} [Step α] {commands : List α} {command coming : α} {index : Nat}

-- The command at `index` belongs to a valid test and is followed by `coming`.
variable (hwell : WellBracketed (rolesOf commands)) (hcommand : commands[index]? = some command)
  (hcoming : commands[index + 1]? = some coming)

include hwell hcommand hcoming

theorem exists_linkRule_of_opening {opener : Opener}
    (hrole : Step.role command = .opening opener) :
    ∃ link, LinkRule (rolesOf commands) index link ∧ wiresAt commands index = link.wires := by
  have hroles := hrole ▸ getElem?_rolesOf hcommand
  have hnext := (List.getElem?_eq_some_iff.mp (getElem?_rolesOf hcoming)).1
  have hinner := innermost?_succ_of_opening hroles
  have hlevel : levelAt (rolesOf commands) index =
      (openBefore (rolesOf commands) index).length := by
    rw [levelAt, hroles]
  rw [wiresAt_of_coming hcommand hcoming]
  simp only [wire, hrole, ← drop_leveled hcoming, hlevel]
  cases opener with
  | ifBlock =>
      obtain ⟨left, hleft, hfound⟩ := hwell.exists_firstAt? hinner (Nat.le_of_lt hnext)
      exact ⟨.branch left (index + 1), .ifTest hnext hroles hleft, by rw [hfound]; rfl⟩
  | doLoop => exact ⟨.next (index + 1), .doBody hnext hroles, rfl⟩
  | timesLoop =>
      obtain ⟨last, hlast, hfound⟩ := hwell.exists_firstEndAt? hinner (Nat.le_of_lt hnext)
      exact ⟨.branch last (index + 1), .timesTest hnext hroles hlast, by rw [hfound]; rfl⟩

theorem exists_linkRule_of_branchArm {arm : Arm} (hrole : Step.role command = .branchArm arm) :
    ∃ link, LinkRule (rolesOf commands) index link ∧ wiresAt commands index = link.wires := by
  have hroles := hrole ▸ getElem?_rolesOf hcommand
  have hnext := (List.getElem?_eq_some_iff.mp (getElem?_rolesOf hcoming)).1
  obtain ⟨chain, hchain, _⟩ := Option.map_eq_some_iff.mp (hwell.fits index _ hroles)
  have hlevel := levelAt_of_armOf ⟨⟨arm, hroles⟩, hchain⟩
  rw [wiresAt_of_coming hcommand hcoming]
  simp only [wire, hrole, ← drop_leveled hcoming, hlevel]
  cases arm with
  | elseIf =>
      obtain ⟨left, hleft, hfound⟩ := hwell.exists_firstAt?
        ((innermost?_succ_of_branchArm hroles).trans hchain) (Nat.le_of_lt hnext)
      exact ⟨.branch left (index + 1), .elseIfTest hnext hroles hchain hleft,
        by rw [hfound]; rfl⟩
  | otherwise => exact ⟨.next (index + 1), .elseBody hnext hroles, rfl⟩

theorem exists_linkRule_of_loopTest {test : LoopTest} (hrole : Step.role command = .loopTest test) :
    ∃ link, LinkRule (rolesOf commands) index link ∧ wiresAt commands index = link.wires := by
  have hroles := hrole ▸ getElem?_rolesOf hcommand
  have hnext := (List.getElem?_eq_some_iff.mp (getElem?_rolesOf hcoming)).1
  rw [wiresAt_of_coming hcommand hcoming]
  simp only [wire, hrole, ← drop_leveled hcoming]
  cases test with
  | repeatIf =>
      obtain ⟨loop, hloop, hdo⟩ := Option.map_eq_some_iff.mp (hwell.fits index _ hroles)
      rw [framesOf_eq_of_innermost hloop, hdo]
      exact ⟨.next (index + 1), .repeatIf hnext hroles, rfl⟩
  | whileTest =>
      by_cases hdo : (innermost? (rolesOf commands) index).map Bracket.block = some .doLoop
      · have hsame := innermost?_succ_of_doTest hroles hdo
        obtain ⟨loop, hloop, hdo⟩ := Option.map_eq_some_iff.mp hdo
        obtain ⟨last, hlast, hfound⟩ :=
          hwell.exists_firstEndAt? (hsame.trans hloop) (Nat.le_of_lt hnext)
        refine ⟨.branch last loop.opener, .doTest hnext hroles hloop hdo hlast, ?_⟩
        rw [framesOf_eq_of_innermost hloop, hdo]
        simp only [hfound]
        rfl
      · obtain ⟨last, hlast, hfound⟩ :=
          hwell.exists_firstEndAt? (innermost?_succ_of_while hroles hdo) (Nat.le_of_lt hnext)
        refine ⟨.branch last (index + 1), .whileTest hnext hroles hdo hlast, ?_⟩
        have hlevel : levelAt (rolesOf commands) index =
            (openBefore (rolesOf commands) index).length := by
          rw [levelAt, hroles]
        cases hinner : innermost? (rolesOf commands) index with
        | none =>
            rw [framesOf_eq_nil hinner]
            simp only [hlevel, hfound]
            rfl
        | some around =>
            obtain ⟨block, opener⟩ := around
            rw [framesOf_eq_of_innermost hinner]
            cases block with
            | doLoop => exact absurd (by rw [hinner]; rfl) hdo
            | ifBlock | timesLoop | whileLoop =>
                simp only [hlevel, hfound]
                rfl

theorem exists_linkRule_of_blockEnd (hrole : Step.role command = .blockEnd) :
    ∃ link, LinkRule (rolesOf commands) index link ∧ wiresAt commands index = link.wires := by
  have hroles := hrole ▸ getElem?_rolesOf hcommand
  have hnext := (List.getElem?_eq_some_iff.mp (getElem?_rolesOf hcoming)).1
  have htail : (framesOf (openBefore (rolesOf commands) index)).tail =
      framesOf (openBefore (rolesOf commands) (index + 1)) := by
    rw [tail_framesOf, openBefore_succ hroles, Bracket.advance]
  rw [wiresAt_of_coming hcommand hcoming]
  simp only [wire, hrole, ← drop_leveled hcoming, htail]
  cases haround : innermost? (rolesOf commands) (index + 1) with
  | none =>
      rw [framesOf_eq_nil haround]
      exact ⟨.terminal, .outermostEnd hroles haround, rfl⟩
  | some around =>
      rw [framesOf_eq_of_innermost haround]
      by_cases hordinary : Step.role coming = .ordinary
      · refine ⟨.next (index + 1), .endBeforeStep hroles haround ?_, ?_⟩
        · rw [getElem?_rolesOf hcoming, hordinary]
        · rw [hordinary]
          rfl
      · obtain ⟨last, hlast, hfound⟩ := hwell.exists_firstEndAt? haround (Nat.le_of_lt hnext)
        refine ⟨.next last,
          .endBeforeKeyword hroles haround (getElem?_rolesOf hcoming) hordinary hlast, ?_⟩
        simp only [isControlFlow_iff.mpr hordinary, hfound]
        rfl

theorem exists_linkRule_of_ordinary (hrole : Step.role command = .ordinary) :
    ∃ link, LinkRule (rolesOf commands) index link ∧ wiresAt commands index = link.wires := by
  have hroles := hrole ▸ getElem?_rolesOf hcommand
  have hnext := (List.getElem?_eq_some_iff.mp (getElem?_rolesOf hcoming)).1
  have hrolesNext := getElem?_rolesOf hcoming
  rw [wiresAt_of_coming hcommand hcoming]
  simp only [wire, hrole, ← drop_leveled hcoming]
  cases haround : innermost? (rolesOf commands) index with
  | none =>
      rw [framesOf_eq_nil haround]
      refine ⟨.next (index + 1), .stepContinues hroles hrolesNext ?_, rfl⟩
      intro around hinner
      rw [haround] at hinner
      contradiction
  | some around =>
      rw [framesOf_eq_of_innermost haround]
      simp only [isControlFlow_iff]
      by_cases hleaves : around.block = .ifBlock ∧
          ((Step.role coming).isBranchArm ∨ (Step.role coming).isEnd)
      · obtain ⟨last, hlast, hfound⟩ := hwell.exists_firstEndAt?
          ((innermost?_succ_of_ordinary hroles).trans haround) (Nat.le_of_lt hnext)
        refine ⟨.next last,
          .stepLeavesArm hroles haround hleaves.1 hrolesNext hleaves.2 hlast, ?_⟩
        rw [if_pos hleaves, hfound]
        rfl
      · by_cases hrepeats : around.block.testsFirst ∧ Step.role coming ≠ .ordinary
        · refine ⟨.next around.opener,
            .stepRepeats hroles haround hrepeats.1 hrolesNext hrepeats.2, ?_⟩
          rw [if_neg hleaves, if_pos hrepeats]
          rfl
        · refine ⟨.next (index + 1), .stepContinues hroles hrolesNext ?_, ?_⟩
          · intro other hother
            rw [haround, Option.some_inj] at hother
            exact hother ▸ ⟨hleaves, hrepeats⟩
          · rw [if_neg hleaves, if_neg hrepeats]
            rfl

end Following

section Built

variable {α : Type} [Step α] {commands : List α} {command : α} {index : Nat} {graph : Graph α}

/-- In a valid test the pointers of every node are those of the one link that the rule allows. -/
theorem WellBracketed.exists_linkRule (hwell : WellBracketed (rolesOf commands))
    (hcommand : commands[index]? = some command) :
    ∃ link, LinkRule (rolesOf commands) index link ∧ wiresAt commands index = link.wires := by
  cases hcoming : commands[index + 1]? with
  | none =>
      have hlt := (List.getElem?_eq_some_iff.mp hcommand).1
      have hlast : index + 1 = commands.length :=
        Nat.le_antisymm hlt (List.getElem?_eq_none_iff.mp hcoming)
      refine ⟨.terminal, .last (by rw [length_rolesOf, hlast]), ?_⟩
      exact wiresAt_of_last hcommand hlast
  | some coming =>
      cases hrole : Step.role command with
      | opening opener => exact exists_linkRule_of_opening hwell hcommand hcoming hrole
      | branchArm arm => exact exists_linkRule_of_branchArm hwell hcommand hcoming hrole
      | loopTest test => exact exists_linkRule_of_loopTest hwell hcommand hcoming hrole
      | blockEnd => exact exists_linkRule_of_blockEnd hwell hcommand hcoming hrole
      | ordinary => exact exists_linkRule_of_ordinary hwell hcommand hcoming hrole

theorem node?_of_build? (hbuild : Graph.build? commands = .ok graph)
    (hcommand : commands[index]? = some command) :
    graph.node? index = some (nodeAt commands index command) := by
  obtain ⟨_, rfl⟩ := build?_eq_ok_iff.mp hbuild
  rw [Graph.node?, List.getElem?_mapIdx, hcommand, Option.map_some]

theorem exists_command_of_node? {node : Node α} (hbuild : Graph.build? commands = .ok graph)
    (hnode : graph.node? index = some node) :
    ∃ command, commands[index]? = some command ∧ node = nodeAt commands index command := by
  obtain ⟨_, rfl⟩ := build?_eq_ok_iff.mp hbuild
  rw [Graph.node?, List.getElem?_mapIdx, Option.map_eq_some_iff] at hnode
  obtain ⟨command, hcommand, hnode⟩ := hnode
  exact ⟨command, hcommand, hnode.symm⟩

/-- Every node of a built graph is linked by the rule. -/
theorem linkRule_of_node? {node : Node α} (hbuild : Graph.build? commands = .ok graph)
    (hnode : graph.node? index = some node) : LinkRule (rolesOf commands) index node.link := by
  obtain ⟨command, hcommand, rfl⟩ := exists_command_of_node? hbuild hnode
  obtain ⟨link, hrule, hwires⟩ := (build?_eq_ok_iff.mp hbuild).1.exists_linkRule hcommand
  change LinkRule _ _ (wiresAt commands index).link
  rwa [hwires, Link.link_wires]

/-- Every node of a built graph has exactly the link that the blocks around its command
determine. -/
theorem built_links_follow_blocks (hbuild : Graph.build? commands = .ok graph)
    (hindex : index < commands.length) :
    ∃ node, graph.node? index = some node ∧
      ∀ link, LinkRule (rolesOf commands) index link ↔ node.link = link := by
  have hnode := node?_of_build? hbuild (List.getElem?_eq_getElem hindex)
  have hrule := linkRule_of_node? hbuild hnode
  refine ⟨_, hnode, fun link => ⟨hrule.unique, ?_⟩⟩
  rintro rfl
  exact hrule

/-- A chain inside a loop, with a loop of its own inside one arm and nothing inside another. -/
def sampleTest : List String :=
  ["times", "if", "a", "elseIf", "do", "b", "while", "end", "else", "end", "c", "end"]

def sampleGraph : Graph String := Graph.ofOutline (leveled sampleTest)

/-- The `end` of the `do` stands before an `else`, so it leads to the `end` of the chain. -/
theorem sample_links_follow_blocks :
    Graph.build? sampleTest = .ok sampleGraph ∧ 7 < sampleTest.length ∧
      ∃ node, sampleGraph.node? 7 = some node ∧
        ∀ link, LinkRule (rolesOf sampleTest) 7 link ↔ node.link = link :=
  ⟨rfl, by decide, built_links_follow_blocks rfl (by decide)⟩

example : sampleGraph.nodes.map (Wires.link ∘ Node.toWires) =
    [.branch 11 1, .branch 3 2, .next 9, .branch 8 4, .next 5, .next 6, .branch 7 4, .next 9,
      .next 9, .next 10, .next 0, .terminal] := by
  decide

end Built

end StepFlow
