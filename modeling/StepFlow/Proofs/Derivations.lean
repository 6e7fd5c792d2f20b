import StepFlow.Proofs.Grammar
import StepFlow.Proofs.Links

/-!
# Derivable tests are the accepted ones

Outlining reads a test from left to right with a stack, and the grammar derives it as a tree.  One
direction follows the tree: what an item derives leaves the open brackets as they were, and all of
it fits exactly if the item is ordered.  The other direction follows the stack from the last
command back to the first: behind every position stands a body for each open bracket, with the arms
and the `end` that belong to it.
-/

namespace StepFlow

section Definitions

/-- `segment` is what is read from `index` on. -/
def ReadsAt (roles : List Role) (index : Nat) (segment : List Role) : Prop :=
  segment <+: roles.drop index

/-- All commands from position `first` up to, but not including, `last` stand where they may. -/
def FitsWithin (roles : List Role) (first last : Nat) : Prop :=
  ∀ index role, first ≤ index → index < last → roles[index]? = some role → Fits roles index role

/-- The innermost open bracket is a `do`. -/
def insideDo : List Bracket → Bool
  | ⟨.doLoop, _⟩ :: _ => true
  | _ => false

/-- What is left of a test when `brackets` are open: for each of them, innermost first, the rest of
a body, further arms if it is an `if`, and its `end`; and then the rest of the outermost body. -/
def Completes : List Bracket → List Role → Prop
  | [], rest => ∃ body : Body false, rest = body.roles
  | bracket :: outer, rest =>
      ∃ (body : Body (insideDo (bracket :: outer))) (arms : Arms) (later : List Role),
        rest = body.roles ++ (arms.roles ++ .blockEnd :: later) ∧
        (bracket.block ≠ .ifBlock → arms = .nil) ∧ Completes outer later

end Definitions

variable {roles segment inside rest : List Role} {role opening : Role} {index first last : Nat}
variable {block : Block} {brackets : List Bracket}

/-! ## Reading a segment -/

theorem readsAt_cons :
    ReadsAt roles index (role :: segment) ↔
      roles[index]? = some role ∧ ReadsAt roles (index + 1) segment := by
  unfold ReadsAt
  constructor
  · rintro ⟨after, hafter⟩
    have hrole : roles[index]? = some role := by
      rw [← Nat.add_zero index, ← List.getElem?_drop, ← hafter]
      rfl
    refine ⟨hrole, after, ?_⟩
    rw [← List.drop_drop, ← hafter]
    rfl
  · rintro ⟨hrole, after, hafter⟩
    obtain ⟨hlt, hget⟩ := List.getElem?_eq_some_iff.mp hrole
    refine ⟨after, ?_⟩
    rw [List.drop_eq_getElem_cons hlt, hget, ← hafter]
    rfl

theorem readsAt_append {later : List Role} :
    ReadsAt roles index (segment ++ later) ↔
      ReadsAt roles index segment ∧ ReadsAt roles (index + segment.length) later := by
  induction segment generalizing index with
  | nil => simp [ReadsAt]
  | cons role segment ih =>
      rw [List.cons_append, readsAt_cons, readsAt_cons, ih, and_assoc, List.length_cons,
        Nat.add_assoc, Nat.add_comm 1]

theorem ReadsAt.openBefore_succ (hreads : ReadsAt roles index (role :: segment)) :
    openBefore roles (index + 1) = Bracket.advance index role (openBefore roles index) :=
  StepFlow.openBefore_succ (readsAt_cons.mp hreads).1

theorem fitsWithin_self : FitsWithin roles index index := by
  intro position role hfirst hlast
  omega

theorem fitsWithin_succ (hrole : roles[index]? = some role) :
    FitsWithin roles index (index + 1) ↔ Fits roles index role := by
  constructor
  · intro hfits
    exact hfits index role (Nat.le_refl _) (Nat.lt_succ_self _) hrole
  · intro hfits position other hfirst hlast hother
    obtain rfl : position = index := by omega
    rw [hrole, Option.some_inj] at hother
    exact hother ▸ hfits

theorem fitsWithin_split {middle : Nat} (hfirst : first ≤ middle) (hlast : middle ≤ last) :
    FitsWithin roles first last ↔
      FitsWithin roles first middle ∧ FitsWithin roles middle last := by
  constructor
  · intro hfits
    constructor
    · intro index role hge hlt
      exact hfits index role hge (by omega)
    · intro index role hge hlt
      exact hfits index role (by omega) hlt
  · rintro ⟨hbefore, hafter⟩ index role hge hlt
    by_cases hmiddle : index < middle
    · exact hbefore index role hge hmiddle
    · exact hafter index role (by omega) hlt

/-! ## Blocks as segments -/

/-- Only an opening keyword or a `while` opens a bracket; neither is an arm and both fit. -/
theorem fits_of_advance_eq_cons
    (hopens : Bracket.advance index opening brackets = ⟨block, index⟩ :: brackets) :
    opening.arm? = none ∧ Fits roles index opening := by
  cases opening with
  | opening opener => exact ⟨rfl, trivial⟩
  | loopTest test =>
      cases test with
      | whileTest => exact ⟨rfl, trivial⟩
      | repeatIf => simp [Bracket.advance] at hopens
  | blockEnd =>
      have hlength := congrArg List.length hopens
      simp only [Bracket.advance, List.length_tail, List.length_cons] at hlength
      omega
  | branchArm arm => simp [Bracket.advance] at hopens
  | ordinary => simp [Bracket.advance] at hopens

theorem add_length_enclosed (opening : Role) (inside : List Role) (index : Nat) :
    index + (enclosed opening inside).length = index + 1 + inside.length + 1 := by
  simp only [enclosed, List.length_cons, List.length_append, List.length_nil]
  omega

/-- A block leaves the brackets around it as they were, if its inside does. -/
theorem openBefore_enclosed (hreads : ReadsAt roles index (enclosed opening inside))
    (hopens : openBefore roles (index + 1) = ⟨block, index⟩ :: openBefore roles index)
    (hinside : openBefore roles (index + 1 + inside.length) = openBefore roles (index + 1)) :
    Closes roles ⟨block, index⟩ (index + 1 + inside.length) ∧
      openBefore roles (index + (enclosed opening inside).length) = openBefore roles index := by
  obtain ⟨_, hrest⟩ := readsAt_append.mp (readsAt_cons.mp hreads).2
  have hcloses : Closes roles ⟨block, index⟩ (index + 1 + inside.length) := by
    refine ⟨(readsAt_cons.mp hrest).1, ?_⟩
    rw [innermost?, hinside, hopens, List.head?_cons]
  exact ⟨hcloses, by rw [add_length_enclosed, hcloses.openBefore_succ_eq]⟩

theorem armsWithin_of_readsAt (hreads : ReadsAt roles index segment) :
    armsWithin roles index (index + segment.length) = segment.filterMap Role.arm? := by
  rw [armsWithin, List.drop_take, Nat.add_sub_cancel_left, ← List.prefix_iff_eq_take.mp hreads]

/-- A block fits if its inside does and, in an `if`, the arms in it are in order. -/
theorem fitsWithin_enclosed (hreads : ReadsAt roles index (enclosed opening inside))
    (hopens : openBefore roles (index + 1) = ⟨block, index⟩ :: openBefore roles index)
    (hinside : openBefore roles (index + 1 + inside.length) = openBefore roles (index + 1)) :
    FitsWithin roles index (index + (enclosed opening inside).length) ↔
      FitsWithin roles (index + 1) (index + 1 + inside.length) ∧
        (block = .ifBlock → armDisorder? (inside.filterMap Role.arm?) = none) := by
  obtain ⟨hcloses, _⟩ := openBefore_enclosed hreads hopens hinside
  have hopening := (readsAt_cons.mp hreads).1
  rw [openBefore_succ hopening] at hopens
  obtain ⟨harm, hfits⟩ : opening.arm? = none ∧ Fits roles index opening :=
    fits_of_advance_eq_cons hopens
  have harms : armsWithin roles index (index + 1 + inside.length) =
      inside.filterMap Role.arm? := by
    have hopened : ReadsAt roles index (opening :: inside) :=
      readsAt_cons.mpr ⟨hopening, (readsAt_append.mp (readsAt_cons.mp hreads).2).1⟩
    have hwithin := armsWithin_of_readsAt hopened
    rw [List.filterMap_cons_none harm, List.length_cons, Nat.add_comm inside.length,
      ← Nat.add_assoc] at hwithin
    exact hwithin
  have hend : Fits roles (index + 1 + inside.length) .blockEnd ↔
      (block = .ifBlock → armDisorder? (inside.filterMap Role.arm?) = none) := by
    simp [Fits, hcloses.2, harms]
  -- The opening command, the inside and the `end` are judged one after the other.
  rw [add_length_enclosed, fitsWithin_split (Nat.le_succ index) (by omega),
    fitsWithin_succ hopening,
    fitsWithin_split (Nat.le_add_right (index + 1) inside.length) (Nat.le_succ _),
    fitsWithin_succ hcloses.1, hend]
  exact and_iff_right hfits

/-! ## From a derivation to the brackets -/

theorem insideDo_eq_true_iff :
    insideDo brackets = true ↔ brackets.head?.map Bracket.block = some .doLoop := by
  rcases brackets with _ | ⟨⟨block, opener⟩, outer⟩
  · simp [insideDo]
  · cases block <;> simp [insideDo]

/-- A `while` outside a `do` opens its own loop. -/
theorem ReadsAt.openBefore_succ_of_while
    (hreads : ReadsAt roles index (.loopTest .whileTest :: segment))
    (hdo : insideDo (openBefore roles index) = false) :
    openBefore roles (index + 1) = ⟨.whileLoop, index⟩ :: openBefore roles index := by
  rw [hreads.openBefore_succ, Bracket.advance, if_neg]
  rw [← insideDo_eq_true_iff, hdo]
  exact Bool.false_ne_true

/-- A `while` directly in a `do` opens nothing. -/
theorem ReadsAt.openBefore_succ_of_test
    (hreads : ReadsAt roles index (.loopTest .whileTest :: segment))
    (hdo : insideDo (openBefore roles index) = true) :
    openBefore roles (index + 1) = openBefore roles index := by
  rw [hreads.openBefore_succ, Bracket.advance, if_pos (insideDo_eq_true_iff.mp hdo)]

theorem reads_inside (hreads : ReadsAt roles index (enclosed opening inside)) :
    ReadsAt roles (index + 1) inside :=
  (readsAt_append.mp (readsAt_cons.mp hreads).2).1

theorem Arms.add_length_cons (arm : Arm) (body : Body false) (rest : Arms) (index : Nat) :
    index + (Arms.cons arm body rest).roles.length =
      index + 1 + body.roles.length + rest.roles.length := by
  simp only [Arms.roles, List.length_cons, List.length_append]
  omega

mutual

/-- Whatever an item derives, the same brackets are open behind it as before it. -/
theorem Item.openBefore_add : ∀ {inDo : Bool} (item : Item inDo) {roles : List Role} {index : Nat},
    ReadsAt roles index item.roles → insideDo (openBefore roles index) = inDo →
      openBefore roles (index + item.roles.length) = openBefore roles index
  | _, .step, _, _, hreads, _ => hreads.openBefore_succ
  | _, .whileTest, _, _, hreads, hdo => hreads.openBefore_succ_of_test hdo
  | _, .repeatIf, _, _, hreads, _ => hreads.openBefore_succ
  | _, .timesLoop body, _, _, hreads, _ => by
      have hopens := ReadsAt.openBefore_succ hreads
      have hinside := body.openBefore_add (reads_inside hreads) (by rw [hopens]; rfl)
      exact (openBefore_enclosed hreads hopens hinside).2
  | _, .doLoop body, _, _, hreads, _ => by
      have hopens := ReadsAt.openBefore_succ hreads
      have hinside := body.openBefore_add (reads_inside hreads) (by rw [hopens]; rfl)
      exact (openBefore_enclosed hreads hopens hinside).2
  | _, .whileLoop body, _, _, hreads, hdo => by
      have hopens := ReadsAt.openBefore_succ_of_while hreads hdo
      have hinside := body.openBefore_add (reads_inside hreads) (by rw [hopens]; rfl)
      exact (openBefore_enclosed hreads hopens hinside).2
  | _, .ifBlock body arms, _, _, hreads, _ => by
      have hopens := ReadsAt.openBefore_succ hreads
      obtain ⟨hfirst, hmore⟩ := readsAt_append.mp (reads_inside hreads)
      have hbody := body.openBefore_add hfirst (by rw [hopens]; rfl)
      have harms := arms.openBefore_add hmore (by rw [hbody, hopens]; rfl)
      rw [hbody, Nat.add_assoc, ← List.length_append] at harms
      exact (openBefore_enclosed hreads hopens harms).2

theorem Body.openBefore_add : ∀ {inDo : Bool} (body : Body inDo) {roles : List Role} {index : Nat},
    ReadsAt roles index body.roles → insideDo (openBefore roles index) = inDo →
      openBefore roles (index + body.roles.length) = openBefore roles index
  | _, .nil, _, _, _, _ => rfl
  | _, .cons item rest, roles, index, hreads, hdo => by
      obtain ⟨hitem, hrest⟩ := readsAt_append.mp hreads
      have hkeeps := item.openBefore_add hitem hdo
      calc
        openBefore roles (index + (Body.cons item rest).roles.length) =
            openBefore roles (index + item.roles.length + rest.roles.length) := by
          rw [Body.roles, List.length_append, Nat.add_assoc]
        _ = openBefore roles (index + item.roles.length) :=
          rest.openBefore_add hrest (by rw [hkeeps, hdo])
        _ = openBefore roles index := hkeeps

theorem Arms.openBefore_add : ∀ (arms : Arms) {roles : List Role} {index : Nat},
    ReadsAt roles index arms.roles → insideDo (openBefore roles index) = false →
      openBefore roles (index + arms.roles.length) = openBefore roles index
  | .nil, _, _, _, _ => rfl
  | .cons arm body rest, roles, index, hreads, hdo => by
      obtain ⟨hbody, hrest⟩ := readsAt_append.mp (readsAt_cons.mp hreads).2
      have harm : openBefore roles (index + 1) = openBefore roles index :=
        ReadsAt.openBefore_succ hreads
      have hkeeps := body.openBefore_add hbody (by rw [harm, hdo])
      calc
        openBefore roles (index + (Arms.cons arm body rest).roles.length) =
            openBefore roles (index + 1 + body.roles.length + rest.roles.length) := by
          rw [Arms.add_length_cons]
        _ = openBefore roles (index + 1 + body.roles.length) :=
          rest.openBefore_add hrest (by rw [hkeeps, harm, hdo])
        _ = openBefore roles (index + 1) := hkeeps
        _ = openBefore roles index := harm

end

theorem armDisorder?_eq_none_iff {arms : List Arm} : armDisorder? arms = none ↔ InOrder arms := by
  unfold armDisorder? InOrder
  constructor
  · intro hnone
    split at hnone
    · contradiction
    · split at hnone
      · contradiction
      · rename_i hmany hlast
        refine ⟨by omega, fun hmem => ?_⟩
        have hpos := List.count_pos_iff.mpr hmem
        exact Decidable.not_not.mp fun hne => hlast ⟨by omega, hne⟩
  · rintro ⟨hcount, hlast⟩
    rw [if_neg (by omega), if_neg]
    rintro ⟨hone, hne⟩
    exact hne (hlast (List.count_pos_iff.mp (by omega)))

theorem insideDo_eq_false_of_ifBlock
    (hif : (innermost? roles index).map Bracket.block = some .ifBlock) :
    insideDo (openBefore roles index) = false := by
  rw [← Bool.not_eq_true, insideDo_eq_true_iff, ← innermost?, hif]
  simp

/-- A loop fits if its body does. -/
theorem Body.fitsWithin_loop {inDo : Bool} (body : Body inDo)
    (hreads : ReadsAt roles index (enclosed opening body.roles))
    (hopens : openBefore roles (index + 1) = ⟨block, index⟩ :: openBefore roles index)
    (hloop : block ≠ .ifBlock) (hdo : insideDo (⟨block, index⟩ :: openBefore roles index) = inDo) :
    FitsWithin roles index (index + (enclosed opening body.roles).length) ↔
      FitsWithin roles (index + 1) (index + 1 + body.roles.length) := by
  have hinside := body.openBefore_add (reads_inside hreads) (by rw [hopens, hdo])
  rw [fitsWithin_enclosed hreads hopens hinside]
  exact and_iff_left fun hif => absurd hif hloop

mutual

/-- What an item derives fits exactly if the arms are in order everywhere in it. -/
theorem Item.fitsWithin_iff : ∀ {inDo : Bool} (item : Item inDo) {roles : List Role} {index : Nat},
    ReadsAt roles index item.roles → insideDo (openBefore roles index) = inDo →
      (FitsWithin roles index (index + item.roles.length) ↔ item.Ordered)
  | _, .step, _, _, hreads, _ => fitsWithin_succ (readsAt_cons.mp hreads).1
  | _, .whileTest, _, _, hreads, _ => fitsWithin_succ (readsAt_cons.mp hreads).1
  | _, .repeatIf, _, _, hreads, hdo => by
      have hfits := fitsWithin_succ (readsAt_cons.mp hreads).1
      exact hfits.trans (iff_of_true (insideDo_eq_true_iff.mp hdo) trivial)
  | _, .timesLoop body, _, _, hreads, _ => by
      have hopens := ReadsAt.openBefore_succ hreads
      have hbody := body.fitsWithin_iff (reads_inside hreads) (by rw [hopens]; rfl)
      exact (body.fitsWithin_loop hreads hopens nofun rfl).trans hbody
  | _, .doLoop body, _, _, hreads, _ => by
      have hopens := ReadsAt.openBefore_succ hreads
      have hbody := body.fitsWithin_iff (reads_inside hreads) (by rw [hopens]; rfl)
      exact (body.fitsWithin_loop hreads hopens nofun rfl).trans hbody
  | _, .whileLoop body, _, _, hreads, hdo => by
      have hopens := ReadsAt.openBefore_succ_of_while hreads hdo
      have hbody := body.fitsWithin_iff (reads_inside hreads) (by rw [hopens]; rfl)
      exact (body.fitsWithin_loop hreads hopens nofun rfl).trans hbody
  | _, .ifBlock body arms, roles, index, hreads, _ => by
      have hopens := ReadsAt.openBefore_succ hreads
      obtain ⟨hbody, harms⟩ := readsAt_append.mp (reads_inside hreads)
      have hkeeps := body.openBefore_add hbody (by rw [hopens]; rfl)
      have hif : (innermost? roles (index + 1 + body.roles.length)).map Bracket.block =
          some .ifBlock := by rw [innermost?, hkeeps, hopens]; rfl
      have hinside := arms.openBefore_add harms (insideDo_eq_false_of_ifBlock hif)
      rw [hkeeps, Nat.add_assoc, ← List.length_append] at hinside
      have hfits := fitsWithin_enclosed hreads hopens hinside
      rw [List.length_append, ← Nat.add_assoc,
        fitsWithin_split (Nat.le_add_right _ _) (Nat.le_add_right _ _),
        body.fitsWithin_iff hbody (by rw [hopens]; rfl), arms.fitsWithin_iff harms hif,
        armDisorder?_eq_none_iff] at hfits
      exact hfits.trans ⟨fun ⟨hordered, horder⟩ => ⟨horder rfl, hordered⟩,
        fun ⟨horder, hordered⟩ => ⟨hordered, fun _ => horder⟩⟩

theorem Body.fitsWithin_iff : ∀ {inDo : Bool} (body : Body inDo) {roles : List Role} {index : Nat},
    ReadsAt roles index body.roles → insideDo (openBefore roles index) = inDo →
      (FitsWithin roles index (index + body.roles.length) ↔ body.Ordered)
  | _, .nil, _, _, _, _ => iff_of_true fitsWithin_self trivial
  | _, .cons item rest, _, _, hreads, hdo => by
      obtain ⟨hitem, hrest⟩ := readsAt_append.mp hreads
      have hkeeps := item.openBefore_add hitem hdo
      rw [Body.roles, List.length_append, ← Nat.add_assoc,
        fitsWithin_split (Nat.le_add_right _ _) (Nat.le_add_right _ _),
        item.fitsWithin_iff hitem hdo, rest.fitsWithin_iff hrest (by rw [hkeeps, hdo])]
      rfl

theorem Arms.fitsWithin_iff : ∀ (arms : Arms) {roles : List Role} {index : Nat},
    ReadsAt roles index arms.roles →
      (innermost? roles index).map Bracket.block = some .ifBlock →
      (FitsWithin roles index (index + arms.roles.length) ↔ arms.Ordered)
  | .nil, _, _, _, _ => iff_of_true fitsWithin_self trivial
  | .cons arm body rest, roles, index, hreads, hif => by
      obtain ⟨harm, hmore⟩ := readsAt_cons.mp hreads
      obtain ⟨hbody, hrest⟩ := readsAt_append.mp hmore
      have hopen : openBefore roles (index + 1) = openBefore roles index :=
        ReadsAt.openBefore_succ hreads
      have hdo : insideDo (openBefore roles (index + 1)) = false := by
        rw [hopen, insideDo_eq_false_of_ifBlock hif]
      have hnext : (innermost? roles (index + 1 + body.roles.length)).map Bracket.block =
          some .ifBlock := by rw [innermost?, body.openBefore_add hbody hdo, hopen]; exact hif
      rw [Arms.add_length_cons, fitsWithin_split (Nat.le_add_right index 1) (by omega),
        fitsWithin_succ harm, fitsWithin_split (Nat.le_add_right _ _) (Nat.le_add_right _ _),
        body.fitsWithin_iff hbody hdo, rest.fitsWithin_iff hrest hnext]
      exact and_iff_right hif

end

/-! ## From the brackets to a derivation -/

theorem Completes.cons {inDo : Bool} (item : Item inDo) (hdo : insideDo brackets = inDo)
    (hrest : Completes brackets rest) : Completes brackets (item.roles ++ rest) := by
  subst hdo
  cases brackets with
  | nil =>
      obtain ⟨body, rfl⟩ := hrest
      exact ⟨.cons item body, rfl⟩
  | cons bracket outer =>
      obtain ⟨body, arms, later, rfl, hloop, hlater⟩ := hrest
      refine ⟨.cons item body, arms, later, ?_, hloop, hlater⟩
      rw [Body.roles, List.append_assoc]

theorem Completes.exists_arms {bracket : Bracket}
    (hrest : Completes (bracket :: brackets) rest) (inDo : Bool)
    (hdo : insideDo (bracket :: brackets) = inDo) :
    ∃ (body : Body inDo) (arms : Arms) (later : List Role),
      rest = body.roles ++ (arms.roles ++ .blockEnd :: later) ∧
      (bracket.block ≠ .ifBlock → arms = .nil) ∧ Completes brackets later := by
  subst hdo
  exact hrest

/-- What is left inside a loop is a body, its `end`, and what is left around the loop. -/
theorem Completes.exists_body {bracket : Bracket}
    (hrest : Completes (bracket :: brackets) rest) (inDo : Bool)
    (hdo : insideDo (bracket :: brackets) = inDo) (hloop : bracket.block ≠ .ifBlock) :
    ∃ (body : Body inDo) (later : List Role),
      rest = body.roles ++ .blockEnd :: later ∧ Completes brackets later := by
  obtain ⟨body, arms, later, hsplit, hnil, hlater⟩ := hrest.exists_arms inDo hdo
  rw [hnil hloop] at hsplit
  exact ⟨body, later, hsplit, hlater⟩

/-- One command further back: it starts an item, starts an arm or ends a body. -/
theorem Completes.of_succ (hrole : roles[index]? = some role) (hfits : Fits roles index role)
    (hrest : Completes (openBefore roles (index + 1)) rest) :
    Completes (openBefore roles index) (role :: rest) := by
  rw [openBefore_succ hrole] at hrest
  cases role with
  | ordinary => exact hrest.cons .step rfl
  | opening opener =>
      change Completes (⟨opener.block, index⟩ :: openBefore roles index) rest at hrest
      cases opener with
      | ifBlock =>
          -- The rest of the new bracket is the item's inside, and the rest around it stays.
          obtain ⟨body, arms, later, rfl, _, hlater⟩ := hrest.exists_arms false rfl
          have hitem := hlater.cons (.ifBlock body arms) rfl
          rwa [Item.roles, enclosed_append, List.append_assoc] at hitem
      | doLoop =>
          obtain ⟨body, later, rfl, hlater⟩ := hrest.exists_body true rfl (by simp [Opener.block])
          have hitem := hlater.cons (.doLoop body) rfl
          rwa [Item.roles, enclosed_append] at hitem
      | timesLoop =>
          obtain ⟨body, later, rfl, hlater⟩ := hrest.exists_body false rfl (by simp [Opener.block])
          have hitem := hlater.cons (.timesLoop body) rfl
          rwa [Item.roles, enclosed_append] at hitem
  | loopTest test =>
      cases test with
      | repeatIf => exact hrest.cons .repeatIf (insideDo_eq_true_iff.mpr hfits)
      | whileTest =>
          rw [Bracket.advance] at hrest
          split at hrest
          · rename_i hdo
            exact hrest.cons .whileTest (insideDo_eq_true_iff.mpr hdo)
          · rename_i hdo
            obtain ⟨body, later, rfl, hlater⟩ := hrest.exists_body false rfl (by simp)
            rw [← insideDo_eq_true_iff, Bool.not_eq_true] at hdo
            have hitem := hlater.cons (.whileLoop body) hdo
            rwa [Item.roles, enclosed_append] at hitem
  | branchArm arm =>
      obtain ⟨⟨block, opener⟩, hinner, hif⟩ := Option.map_eq_some_iff.mp hfits
      obtain rfl : block = .ifBlock := hif
      rw [Bracket.advance, openBefore_eq_of_innermost hinner] at hrest
      rw [openBefore_eq_of_innermost hinner]
      obtain ⟨body, arms, later, rfl, _, hlater⟩ := hrest.exists_arms false rfl
      refine ⟨.nil, .cons arm body arms, later, ?_, fun hne => absurd rfl hne, hlater⟩
      rw [Body.roles, Arms.roles, List.nil_append, List.cons_append, List.append_assoc]
  | blockEnd =>
      obtain ⟨bracket, hinner, _⟩ := hfits
      rw [openBefore_eq_of_innermost hinner] at hrest ⊢
      exact ⟨.nil, .nil, rest, rfl, fun _ => rfl, hrest⟩

theorem WellBracketed.completes (hwell : WellBracketed roles) (hindex : index ≤ roles.length) :
    Completes (openBefore roles index) (roles.drop index) := by
  induction hindex using Nat.decreasingInduction with
  | self =>
      rw [hwell.closed, List.drop_length]
      exact ⟨.nil, rfl⟩
  | of_succ index hlt ih =>
      have hrole : roles[index]? = some roles[index] := List.getElem?_eq_getElem hlt
      rw [List.drop_eq_getElem_cons hlt]
      exact ih.of_succ hrole (hwell.fits index _ hrole)

/-- The well-bracketed lists of roles are those with an ordered derivation. -/
theorem wellBracketed_iff_exists_derivation :
    WellBracketed roles ↔ ∃ body : Body false, body.Ordered ∧ body.roles = roles := by
  have hreads : ReadsAt roles 0 roles := List.prefix_rfl
  constructor
  · intro hwell
    obtain ⟨body, rfl⟩ : Completes [] roles := hwell.completes (Nat.zero_le _)
    refine ⟨body, (body.fitsWithin_iff hreads rfl).mp ?_, rfl⟩
    intro index role _ _ hrole
    exact hwell.fits index role hrole
  · rintro ⟨body, hordered, rfl⟩
    refine ⟨fun index role hrole => ?_, ?_⟩
    · have hlt := (List.getElem?_eq_some_iff.mp hrole).1
      exact (body.fitsWithin_iff hreads rfl).mpr hordered index role (Nat.zero_le _) (by omega)
        hrole
    · have hkeeps := body.openBefore_add hreads rfl
      rwa [Nat.zero_add] at hkeeps

section Commands

variable {α : Type} [Step α]

/-- A graph is built exactly for the tests that the grammar derives, and each of them has one
derivation only. -/
theorem build?_ok_iff_derivable (commands : List α) :
    ((∃ graph, Graph.build? commands = .ok graph) ↔
      ∃ body : Body false, body.Ordered ∧ body.roles = rolesOf commands) ∧
    ∀ left right : Body false, left.roles = rolesOf commands → right.roles = rolesOf commands →
      left = right := by
  constructor
  · rw [← wellBracketed_iff_exists_derivation]
    constructor
    · rintro ⟨graph, hbuild⟩
      exact (build?_eq_ok_iff.mp hbuild).1
    · intro hwell
      exact ⟨_, build?_eq_ok_iff.mpr ⟨hwell, rfl⟩⟩
  · intro left right hleft hright
    exact Body.roles_injective (hleft.trans hright.symm)

/-- The arms of a nested `if` count for the outer one too. -/
example :
    Graph.build? ["if", "if", "else", "end", "else", "end"] =
      .error (.armDisorder 5 .tooManyElse) := by rfl

end Commands

end StepFlow
