import StepFlow.Proofs.Unclosed

/-!
# Wrapped tests

An accepted test never closes a block that it has not opened itself.  So it can be put inside a
block: it is read as if it stood alone, with one more open block around everything.  What is open
around a test matters to the `while`s outside its own blocks only, which would become tests of a
`do`; and what is inside a block matters at its `end` only, where the arms of an `if` are looked at,
those of the wrapped test included.  Main statement: `wrapped_test_keeps_structure`.
-/

namespace StepFlow

/-- All the arms in a test, whichever chains they belong to. -/
def armsOf (roles : List Role) : List Arm := roles.filterMap Role.arm?

section Roles

variable {front inner roles : List Role} {role opening : Role} {brackets outer : List Bracket}
variable {bracket : Bracket} {block : Block} {index : Nat}

/-! ## Reading inside other blocks -/

/-- Brackets further out do not matter, unless an `end` would close one of them or a `while` would
be the test of a `do` among them. -/
theorem Bracket.advance_append (index : Nat) (role : Role)
    (hend : role = .blockEnd → brackets ≠ [])
    (houter : outer.head?.map Bracket.block ≠ some .doLoop) :
    advance index role (brackets ++ outer) = advance index role brackets ++ outer := by
  cases role with
  | opening | branchArm | ordinary => rfl
  | blockEnd => rw [advance, advance, List.tail_append_of_ne_nil (hend rfl)]
  | loopTest test =>
      cases test with
      | repeatIf => rfl
      | whileTest =>
          cases brackets with
          | nil => simp [advance, houter]
          | cons bracket brackets =>
              have hhead : (bracket :: brackets ++ outer).head? = (bracket :: brackets).head? := rfl
              simp only [advance]
              rw [hhead]
              split <;> rfl

/-- Behind other commands a test is read as if it stood alone, inside the blocks that they leave
open. -/
theorem openBefore_append (hfits : FitsBefore inner inner.length)
    (houter : (unclosed front).head?.map Bracket.block ≠ some .doLoop)
    (hindex : index ≤ inner.length) :
    openBefore (front ++ inner) (index + front.length) =
      (openBefore inner index).map (Bracket.shift front.length) ++ unclosed front := by
  induction index with
  | zero =>
      rw [Nat.zero_add, openBefore_append_of_le _ (Nat.le_refl _)]
      rfl
  | succ index ih =>
      have hinner : inner[index]? = some inner[index] := List.getElem?_eq_getElem hindex
      have hrole : (front ++ inner)[index + front.length]? = some inner[index] := by
        rw [List.getElem?_append_right (Nat.le_add_left _ _), Nat.add_sub_cancel, hinner]
      have hend : inner[index] = .blockEnd →
          (openBefore inner index).map (Bracket.shift front.length) ≠ [] := by
        intro hend hnil
        obtain ⟨block, hblock, _⟩ := hend ▸ hfits index _ hindex hinner
        rw [innermost?, List.map_eq_nil_iff.mp hnil] at hblock
        cases hblock
      rw [Nat.add_right_comm, openBefore_succ hrole, openBefore_succ hinner,
        ih (Nat.le_of_lt hindex), Bracket.advance_append _ _ hend houter, Bracket.advance_shift]

theorem armsWithin_append_right (front inner : List Role) (first last : Nat) :
    armsWithin (front ++ inner) (first + front.length) (last + front.length) =
      armsWithin inner first last := by
  rw [armsWithin, Nat.add_comm last, List.take_length_add_append, Nat.add_comm first,
    List.drop_length_add_append, armsWithin]

/-- What fits in a test fits there, too. -/
theorem fits_append_of_fits (hfits : FitsBefore inner inner.length)
    (houter : (unclosed front).head?.map Bracket.block ≠ some .doLoop)
    (hindex : index ≤ inner.length) (hrole : Fits inner index role) :
    Fits (front ++ inner) (index + front.length) role := by
  have hinnermost : ∀ {bracket}, innermost? inner index = some bracket →
      innermost? (front ++ inner) (index + front.length) = some (bracket.shift front.length) := by
    intro bracket hbracket
    rw [innermost?, openBefore_append hfits houter hindex, List.head?_append, List.head?_map,
      ← innermost?, hbracket, Option.map_some, Option.some_or]
  have hblock : ∀ {block}, (innermost? inner index).map Bracket.block = some block →
      (innermost? (front ++ inner) (index + front.length)).map Bracket.block = some block := by
    intro block hblock
    obtain ⟨bracket, hbracket, rfl⟩ := Option.map_eq_some_iff.mp hblock
    rw [hinnermost hbracket, Option.map_some, Bracket.shift_block]
  cases role with
  | opening | ordinary => trivial
  | branchArm arm => exact hblock hrole
  | loopTest test =>
      cases test with
      | whileTest => trivial
      | repeatIf => exact hblock hrole
  | blockEnd =>
      obtain ⟨bracket, hbracket, harms⟩ := hrole
      refine ⟨_, hinnermost hbracket, fun hif => ?_⟩
      rw [Bracket.shift_opener, armsWithin_append_right]
      exact harms hif

theorem fitsBefore_append_of_fits (hfront : FitsBefore front front.length)
    (hinner : FitsBefore inner inner.length)
    (houter : (unclosed front).head?.map Bracket.block ≠ some .doLoop) :
    FitsBefore (front ++ inner) (front ++ inner).length := by
  intro index role hindex hrole
  by_cases hbefore : index < front.length
  · exact (fitsBefore_append inner (Nat.le_refl _)).mpr hfront index role hbefore hrole
  · obtain ⟨position, rfl⟩ := Nat.exists_eq_add_of_le' (Nat.le_of_not_lt hbefore)
    rw [List.getElem?_append_right (Nat.le_add_left _ _), Nat.add_sub_cancel] at hrole
    have hposition := (List.getElem?_eq_some_iff.mp hrole).1
    exact fits_append_of_fits hinner houter (Nat.le_of_lt hposition)
      (hinner position role hposition hrole)

theorem levelAt_append_of_fits (hfits : FitsBefore inner inner.length)
    (houter : (unclosed front).head?.map Bracket.block ≠ some .doLoop)
    (hindex : index < inner.length) :
    levelAt (front ++ inner) (index + front.length) =
      levelAt inner index + (unclosed front).length := by
  have hinner : inner[index]? = some inner[index] := List.getElem?_eq_getElem hindex
  have hrole : (front ++ inner)[index + front.length]? = some inner[index] := by
    rw [List.getElem?_append_right (Nat.le_add_left _ _), Nat.add_sub_cancel, hinner]
  have hdepth : (openBefore (front ++ inner) (index + front.length)).length =
      (openBefore inner index).length + (unclosed front).length := by
    rw [openBefore_append hfits houter (Nat.le_of_lt hindex), List.length_append, List.length_map]
  have hfit := hfits index _ hindex hinner
  rw [levelAt, levelAt, hrole, hinner, hdepth]
  generalize inner[index] = role at hfit
  cases role with
  | opening | loopTest | ordinary => rfl
  | branchArm arm =>
      obtain ⟨chain, hchain, _⟩ := Option.map_eq_some_iff.mp hfit
      simp only [openBefore_eq_of_innermost hchain, List.length_cons]
      omega
  | blockEnd =>
      obtain ⟨block, hblock, _⟩ := hfit
      simp only [openBefore_eq_of_innermost hblock, List.length_cons]
      omega

theorem unclosed_append (hfits : FitsBefore inner inner.length)
    (houter : (unclosed front).head?.map Bracket.block ≠ some .doLoop) :
    unclosed (front ++ inner) =
      (unclosed inner).map (Bracket.shift front.length) ++ unclosed front := by
  rw [unclosed, List.length_append, Nat.add_comm, openBefore_append hfits houter (Nat.le_refl _),
    ← unclosed]

theorem armsWithin_length (roles : List Role) : armsWithin roles 0 roles.length = armsOf roles := by
  rw [armsWithin, List.take_length, List.drop_zero, armsOf]

theorem levelAt_zero (roles : List Role) : levelAt roles 0 = 0 := by
  unfold levelAt
  split <;> rfl

theorem levelAt_append_of_lt (back : List Role) (hindex : index < front.length) :
    levelAt (front ++ back) index = levelAt front index :=
  (embedded_front front back).levelAt_eq hindex

/-- A further `end` stands at the level of the block that it closes. -/
theorem levelAt_append_end (roles : List Role) :
    levelAt (roles ++ [.blockEnd]) roles.length = (unclosed roles).length - 1 := by
  have hrole : (roles ++ [.blockEnd])[roles.length]? = some .blockEnd := by simp
  rw [levelAt, hrole, openBefore_append_of_le _ (Nat.le_refl _), unclosed]

/-! ## Inside one block -/

/-- These keywords open a block in which a `while` opens a block of its own. -/
def wrappers : List Keyword := [.ifWord, .whileWord, .timesWord]

theorem fitsBefore_wrapper {keyword : Keyword} (hkeyword : keyword ∈ wrappers) :
    FitsBefore [keyword.role] [keyword.role].length := by
  intro index role hindex hrole
  obtain rfl : index = 0 := by simpa using hindex
  obtain rfl : keyword.role = role := by simpa using hrole
  simp only [wrappers, List.mem_cons, List.not_mem_nil, or_false] at hkeyword
  rcases hkeyword with rfl | rfl | rfl <;> trivial

theorem exists_unclosed_wrapper {keyword : Keyword} (hkeyword : keyword ∈ wrappers) :
    ∃ block : Block, block.keyword = keyword ∧ block ≠ .doLoop ∧ keyword.role.arm? = none ∧
      unclosed [keyword.role] = [⟨block, 0⟩] := by
  simp only [wrappers, List.mem_cons, List.not_mem_nil, or_false] at hkeyword
  rcases hkeyword with rfl | rfl | rfl
  · exact ⟨.ifBlock, rfl, nofun, rfl, rfl⟩
  · exact ⟨.whileLoop, rfl, nofun, rfl, rfl⟩
  · exact ⟨.timesLoop, rfl, nofun, rfl, rfl⟩

theorem head?_unclosed_wrapper {keyword : Keyword} (hkeyword : keyword ∈ wrappers) :
    (unclosed [keyword.role]).head?.map Bracket.block ≠ some .doLoop := by
  obtain ⟨block, _, hdo, _, hopen⟩ := exists_unclosed_wrapper hkeyword
  simpa [hopen] using hdo

theorem armDisorder?_of_not_inOrder {arms : List Arm} (hdisorder : ¬InOrder arms) :
    armDisorder? arms =
      some (if 1 < arms.count .otherwise then .tooManyElse else .elseIfAfterElse) := by
  rw [← armDisorder?_eq_none_iff] at hdisorder
  unfold armDisorder? at hdisorder ⊢
  split
  · rfl
  · rw [if_neg ‹_›] at hdisorder
    split
    · rfl
    · rw [if_neg ‹_›] at hdisorder
      exact absurd rfl hdisorder

end Roles

section Commands

variable {α : Type} [Step α] {commands : List α} {graph wrapped : Graph α} {opening closing : α}
variable {keyword : Keyword} {index : Nat}

theorem rolesOf_cons (command : α) (later : List α) :
    rolesOf (command :: later) = Step.role command :: rolesOf later := rfl

theorem levels_of_build? (hbuild : Graph.build? commands = .ok graph) :
    graph.nodes.map Node.level = (List.range commands.length).map (levelAt (rolesOf commands)) := by
  obtain ⟨_, rfl⟩ := build?_eq_ok_iff.mp hbuild
  apply List.ext_getElem
  · simp
  · intro index hindex _
    simp [nodeAt]

/-- In a block everything fits, and only that block is open in the end. -/
theorem fits_and_unclosed_wrapped (hbuild : Graph.build? commands = .ok graph)
    (hkeyword : keyword ∈ wrappers) :
    FitsBefore ([keyword.role] ++ rolesOf commands) ([keyword.role] ++ rolesOf commands).length ∧
      unclosed ([keyword.role] ++ rolesOf commands) = unclosed [keyword.role] := by
  obtain ⟨hfits, hclosed⟩ := exists_build?_eq_ok_iff.mp ⟨graph, hbuild⟩
  have houter := head?_unclosed_wrapper hkeyword
  refine ⟨fitsBefore_append_of_fits (fitsBefore_wrapper hkeyword) hfits houter, ?_⟩
  rw [unclosed_append hfits houter, hclosed, List.map_nil, List.nil_append]

/-- In a block every command lies one level deeper. -/
theorem levelAt_wrapped (hbuild : Graph.build? commands = .ok graph) (hkeyword : keyword ∈ wrappers)
    (hindex : index < (rolesOf commands).length) :
    levelAt ([keyword.role] ++ rolesOf commands ++ [.blockEnd]) (index + 1) =
      levelAt (rolesOf commands) index + 1 := by
  obtain ⟨hfits, _⟩ := exists_build?_eq_ok_iff.mp ⟨graph, hbuild⟩
  obtain ⟨block, _, _, _, hopen⟩ := exists_unclosed_wrapper hkeyword
  have hlevel := levelAt_append_of_fits hfits (head?_unclosed_wrapper hkeyword) hindex
  rw [hopen] at hlevel
  rw [levelAt_append_of_lt _ (by simpa using hindex)]
  exact hlevel

theorem levels_of_wrapped (hbuild : Graph.build? commands = .ok graph)
    (hkeyword : keyword ∈ wrappers) (hopening : Step.role opening = keyword.role)
    (hclosing : Step.role closing = .blockEnd)
    (hwrapped : Graph.build? (opening :: commands ++ [closing]) = .ok wrapped) :
    wrapped.nodes.map Node.level = 0 :: graph.nodes.map (fun node => node.level + 1) ++ [0] := by
  have hroles : rolesOf (opening :: commands ++ [closing]) =
      [keyword.role] ++ rolesOf commands ++ [.blockEnd] := by
    rw [rolesOf_append_end hclosing, rolesOf_cons, hopening, List.singleton_append]
  have hinside : (List.range commands.length).map
      (levelAt ([keyword.role] ++ rolesOf commands ++ [.blockEnd]) ∘ Nat.succ) =
        graph.nodes.map fun node => node.level + 1 := by
    have hlevels := congrArg (List.map (· + 1)) (levels_of_build? hbuild)
    rw [List.map_map, List.map_map] at hlevels
    refine Eq.trans (List.map_congr_left fun index hindex => ?_) hlevels.symm
    exact levelAt_wrapped hbuild hkeyword (by simpa using hindex)
  have hend : levelAt ([keyword.role] ++ rolesOf commands ++ [.blockEnd])
      (commands.length + 1) = 0 := by
    obtain ⟨block, _, _, _, hopen⟩ := exists_unclosed_wrapper hkeyword
    have hlevel := levelAt_append_end ([keyword.role] ++ rolesOf commands)
    rw [(fits_and_unclosed_wrapped hbuild hkeyword).2, hopen] at hlevel
    simpa using hlevel
  rw [levels_of_build? hwrapped, hroles, List.length_append, List.length_cons,
    List.length_singleton, List.range_succ, List.map_append, List.range_succ_eq_map,
    List.map_cons, List.map_map, levelAt_zero, hinside, List.map_singleton, hend]

/-- An accepted test inside a block.  Without the `end` of the block, the block is reported.  With
it, a loop that a `while` is no test of is accepted around every test, and an `if` around those in
which all arms together are in order; the block then has level zero, and the test inside lies one
level deeper than it did alone.  Otherwise the `end` is reported, with the reason that the arms of
the test give. -/
theorem wrapped_test_keeps_structure (hbuild : Graph.build? commands = .ok graph)
    (hkeyword : keyword ∈ wrappers) (hopening : Step.role opening = keyword.role)
    (hclosing : Step.role closing = .blockEnd) :
    Graph.build? (opening :: commands) = .error (.unclosedBlock keyword 0) ∧
    ((∃ wrapped, Graph.build? (opening :: commands ++ [closing]) = .ok wrapped) ↔
      (keyword = .ifWord → InOrder (armsOf (rolesOf commands)))) ∧
    (∀ wrapped, Graph.build? (opening :: commands ++ [closing]) = .ok wrapped →
      wrapped.nodes.map Node.level = 0 :: graph.nodes.map (fun node => node.level + 1) ++ [0]) ∧
    (keyword = .ifWord → ¬InOrder (armsOf (rolesOf commands)) →
      Graph.build? (opening :: commands ++ [closing]) =
        .error (.armDisorder (commands.length + 1)
          (if 1 < (armsOf (rolesOf commands)).count .otherwise then .tooManyElse
            else .elseIfAfterElse))) := by
  obtain ⟨hfits, hunclosed⟩ := fits_and_unclosed_wrapped hbuild hkeyword
  obtain ⟨block, hblock, _, harm, hopen⟩ := exists_unclosed_wrapper hkeyword
  have hroles : rolesOf (opening :: commands) = [keyword.role] ++ rolesOf commands := by
    rw [rolesOf_cons, hopening, List.singleton_append]
  have harms : armsWithin (rolesOf (opening :: commands)) 0 (opening :: commands).length =
      armsOf (rolesOf commands) := by
    rw [← length_rolesOf (opening :: commands), armsWithin_length, hroles, armsOf, armsOf,
      List.singleton_append, List.filterMap_cons_none harm]
  rw [hopen] at hunclosed
  rw [← hroles] at hfits hunclosed
  have hif : keyword = .ifWord ↔ block = .ifBlock := by
    rw [← hblock, keyword_eq_ifWord_iff]
  refine ⟨?_, ?_, fun _ => levels_of_wrapped hbuild hkeyword hopening hclosing, ?_⟩
  · exact build?_eq_unclosedBlock_iff.mpr ⟨hfits, _, [], hunclosed, hblock, rfl⟩
  · rw [exists_build?_append_end_iff hclosing hfits hunclosed, and_iff_right rfl, harms, hif]
  · intro hword hdisorder
    refine (build?_append_end_eq_armDisorder_iff hclosing hfits hunclosed).mpr ⟨hif.mp hword, ?_⟩
    rw [harms, ← armDisorder?_eq_some_iff]
    exact armDisorder?_of_not_inOrder hdisorder

/-- Each of two chains is in order, and so is a `times` around them, but not an `if`: its `end`
finds the `elseIf` of the second chain behind the `else` of the first. -/
theorem sample_wrapped_test_keeps_structure :
    Graph.build? ["if", "else", "end", "if", "elseIf", "end"] =
        .ok (Graph.ofOutline (leveled ["if", "else", "end", "if", "elseIf", "end"])) ∧
      (∃ wrapped, Graph.build? ["times", "if", "else", "end", "if", "elseIf", "end", "end"] =
        .ok wrapped ∧ wrapped.nodes.map Node.level = [0, 1, 1, 1, 1, 1, 1, 0]) ∧
      Graph.build? ["if", "if", "else", "end", "if", "elseIf", "end", "end"] =
        .error (.armDisorder 7 .elseIfAfterElse) := by
  have hbuild : Graph.build? ["if", "else", "end", "if", "elseIf", "end"] =
      .ok (Graph.ofOutline (leveled ["if", "else", "end", "if", "elseIf", "end"])) := rfl
  obtain ⟨_, haccepted, hlevels, _⟩ := wrapped_test_keeps_structure hbuild
    (by decide : Keyword.timesWord ∈ wrappers) (rfl : Step.role "times" = _)
    (rfl : Step.role "end" = _)
  obtain ⟨_, _, _, hdisorder⟩ := wrapped_test_keeps_structure hbuild
    (by decide : Keyword.ifWord ∈ wrappers) (rfl : Step.role "if" = _) (rfl : Step.role "end" = _)
  obtain ⟨wrapped, hwrapped⟩ := haccepted.mpr nofun
  refine ⟨hbuild, ⟨wrapped, hwrapped, hlevels wrapped hwrapped⟩, hdisorder rfl ?_⟩
  rintro ⟨_, hlast⟩
  exact absurd (hlast (by decide)) (by decide)

end Commands

end StepFlow
