import StepFlow.Proofs.JsonTexts

/-!
# Values are read from their texts

A reader that reads strings and numbers from their spellings reads every value from each of its
texts, as long as the value does not nest too deeply.  It stops behind the last token of the value,
so that only space can be left of the text.
Main statement: `read_of_spells`.
-/

namespace StepFlow.Json

variable {Text Number : Type}

/-- Strings and numbers are read from the way they are spelled. -/
structure Reading.Reads (reading : Reading Text Number) (spelling : Spelling Text Number) :
    Prop where
  string : ∀ {string text}, spelling.string string text → ∀ rest,
    reading.string (text ++ '"' :: rest) = .ok (string, rest)
  number : ∀ {number text}, spelling.number number text → ∀ {rest}, Ends rest →
    reading.number (text ++ rest) = .ok (number, rest)
  exists_cons : ∀ {number text}, spelling.number number text →
    ∃ char later, text = char :: later ∧ (char = '-' ∨ char.isDigit = true)

theorem strict_reads : strict.Reads plainSpelling where
  string hstring := readString_append hstring
  number hnumber _ hrest := readNumeral_append hnumber.1 hnumber.2 hrest
  exists_cons hnumber := hnumber.1.exists_cons

variable {reading : Reading Text Number} {spelling : Spelling Text Number}
  {tree value : Tree Text Number} {items : List (Tree Text Number)}
  {members : List (Text × Tree Text Number)} {name : Text} {gap text label rest : List Char}

/-! ## Space -/

theorem skipSpace_append (hgap : IsGap gap) (rest : List Char) :
    skipSpace (gap ++ rest) = skipSpace rest :=
  List.dropWhile_append_of_pos hgap

theorem skipSpace_cons {char : Char} (hchar : isSpace char = false) (rest : List Char) :
    skipSpace (char :: rest) = char :: rest :=
  List.dropWhile_cons_of_neg (by simp [hchar])

theorem skipSpace_append_cons {char : Char} (hgap : IsGap gap) (hchar : isSpace char = false)
    (rest : List Char) : skipSpace (gap ++ char :: rest) = char :: rest := by
  rw [skipSpace_append hgap, skipSpace_cons hchar]

theorem ends_cons {char : Char}
    (hchar : char.isDigit = false ∧ char ≠ '.' ∧ char ≠ 'e' ∧ char ≠ 'E') (rest : List Char) :
    Ends (char :: rest) := by
  rintro first ⟨⟩
  exact hchar

/-- Space does not continue a number. -/
theorem Ends.gap_append (hgap : IsGap gap) (hrest : Ends rest) : Ends (gap ++ rest) := by
  cases gap with
  | nil => exact hrest
  | cons char gap =>
      have hchar : isSpace char = true := hgap char List.mem_cons_self
      simp only [isSpace, Bool.or_eq_true, beq_iff_eq] at hchar
      rcases hchar with ((rfl | rfl) | rfl) | rfl <;> exact ends_cons (by decide) _

theorem readContinuation_more (close : Char) (hgap : IsGap gap) (rest : List Char) :
    readContinuation close (gap ++ ',' :: rest) = .ok (.more, rest) := by
  rw [readContinuation, skipSpace_append_cons hgap rfl]
  rfl

theorem readContinuation_done {close : Char} (hspace : isSpace close = false) (hcomma : close ≠ ',')
    (hgap : IsGap gap) (rest : List Char) :
    readContinuation close (gap ++ close :: rest) = .ok (.done, rest) := by
  rw [readContinuation, skipSpace_append_cons hgap hspace]
  simp [hcomma]

theorem readColon_append (hgap : IsGap gap) (rest : List Char) :
    readColon (gap ++ ':' :: rest) = .ok rest := by
  rw [readColon, skipSpace_append_cons hgap rfl]
  rfl

/-! ## Room -/

/-- A value of the given depth fits into the room. -/
def FitsInto (depth : Nat) (room : Option Nat) : Prop := ∀ limit ∈ room, depth ≤ limit

theorem FitsInto.mono {depth smaller : Nat} {room : Option Nat} (hfits : FitsInto depth room)
    (hle : smaller ≤ depth) : FitsInto smaller room :=
  fun limit hlimit => hle.trans (hfits limit hlimit)

theorem FitsInto.exists_enter {depth : Nat} {room : Option Nat}
    (hfits : FitsInto (depth + 1) room) :
    ∃ inner, enter room = .ok inner ∧ FitsInto depth inner := by
  cases room with
  | none => exact ⟨none, rfl, fun limit hlimit => absurd hlimit (Option.not_mem_none limit)⟩
  | some limit =>
      cases limit with
      | zero => exact absurd (hfits 0 rfl) (Nat.not_succ_le_zero depth)
      | succ limit =>
          refine ⟨some limit, rfl, ?_⟩
          rintro _ ⟨⟩
          exact Nat.le_of_succ_le_succ (hfits _ rfl)

/-! ## Reading one value -/

/-- Given enough fuel and room, the value is read from the text, up to space behind it. -/
def ReadsTree (reading : Reading Text Number) (tree : Tree Text Number) (text : List Char) : Prop :=
  ∀ {fuel room rest}, 2 * text.length ≤ fuel → FitsInto tree.depth room → Ends rest →
    ∃ gap, IsGap gap ∧ readTree reading fuel room (text ++ rest) = .ok (tree, gap ++ rest)

/-- Given enough fuel and room, the items are read from the text and a closing bracket. -/
def ReadsItems (reading : Reading Text Number) (items : List (Tree Text Number))
    (text : List Char) : Prop :=
  ∀ {fuel room rest}, 2 * text.length + 1 ≤ fuel → FitsInto (Tree.itemsDepth items) room →
    readItems reading fuel room (text ++ ']' :: rest) = .ok (items, rest)

/-- Given enough fuel and room, the members are read from the text and a closing brace. -/
def ReadsMembers (reading : Reading Text Number) (members : List (Text × Tree Text Number))
    (text : List Char) : Prop :=
  ∀ {fuel room rest}, 2 * text.length + 1 ≤ fuel → FitsInto (Tree.membersDepth members) room →
    readMembers reading fuel room (text ++ '\x7d' :: rest) = .ok (members, rest)

/-- A text that is read up to its last character has no space left behind it. -/
theorem readsTree_of_cons {char : Char}
    (hread : ∀ {fuel room rest}, 2 * text.length + 1 ≤ fuel → FitsInto tree.depth room →
      Ends rest → readTree reading (fuel + 1) room (char :: (text ++ rest)) = .ok (tree, rest)) :
    ReadsTree reading tree (char :: text) := by
  intro fuel room rest hfuel hroom hrest
  rw [List.length_cons] at hfuel
  obtain ⟨fuel, rfl⟩ : ∃ less, fuel = less + 1 := Nat.exists_eq_add_one.mpr (by omega)
  exact ⟨[], isGap_nil, hread (by omega) hroom hrest⟩

theorem readsTree_null : ReadsTree reading .null ['n', 'u', 'l', 'l'] := by
  apply readsTree_of_cons
  intro fuel room rest _ _ _
  rw [readTree, skipSpace_cons rfl]
  rfl

theorem readsTree_true : ReadsTree reading (.boolean true) ['t', 'r', 'u', 'e'] := by
  apply readsTree_of_cons
  intro fuel room rest _ _ _
  rw [readTree, skipSpace_cons rfl]
  rfl

theorem readsTree_false : ReadsTree reading (.boolean false) ['f', 'a', 'l', 's', 'e'] := by
  apply readsTree_of_cons
  intro fuel room rest _ _ _
  rw [readTree, skipSpace_cons rfl]
  rfl

/-- A number begins with none of the characters that begin other values, and not with space. -/
theorem Reading.Reads.exists_number_cons (hreads : reading.Reads spelling) {number : Number}
    (hnumber : spelling.number number text) :
    ∃ char later, text = char :: later ∧ (char = '-' ∨ char.isDigit = true) ∧
      isSpace char = false ∧ ∀ other, other ≠ '-' → other.isDigit = false → char ≠ other := by
  obtain ⟨char, later, htext, hchar⟩ := hreads.exists_cons hnumber
  have hother : ∀ other, other ≠ '-' → other.isDigit = false → char ≠ other := by
    rintro other hminus hdigit rfl
    simp [hminus, hdigit] at hchar
  have hspace : isSpace char = false := by
    simp [isSpace, hother ' ', hother '\t', hother '\n', hother '\r']
  exact ⟨char, later, htext, hchar, hspace, hother⟩

theorem readsTree_number (hreads : reading.Reads spelling) {number : Number}
    (hnumber : spelling.number number text) : ReadsTree reading (.number number) text := by
  obtain ⟨char, later, rfl, hchar, hspace, hother⟩ := hreads.exists_number_cons hnumber
  apply readsTree_of_cons
  intro fuel room rest _ _ hrest
  have hread := hreads.number hnumber hrest
  rw [List.cons_append] at hread
  rw [readTree, skipSpace_cons hspace]
  simp [hother 'n', hother 't', hother 'f', hother '"', hchar, hread, Except.map]

theorem readsTree_string (hreads : reading.Reads spelling) {string : Text}
    (hstring : spelling.string string text) :
    ReadsTree reading (.string string) ('"' :: (text ++ ['"'])) := by
  apply readsTree_of_cons
  intro fuel room rest _ _ _
  rw [readTree, skipSpace_cons rfl, List.append_assoc]
  simp [hreads.string hstring, Except.map]

/-! ## Reading containers -/

theorem readTree_gap_append (hgap : IsGap gap) (fuel : Nat) (room : Option Nat) (rest : List Char) :
    readTree reading fuel room (gap ++ rest) = readTree reading fuel room rest := by
  cases fuel with
  | zero => rfl
  | succ fuel => rw [readTree, readTree, skipSpace_append hgap]

theorem readsTree_spaced {before after : List Char} (hbefore : IsGap before) (hafter : IsGap after)
    (hread : ReadsTree reading tree text) : ReadsTree reading tree (before ++ text ++ after) := by
  intro fuel room rest hfuel hroom hrest
  have htext : 2 * text.length ≤ fuel := by
    rw [List.length_append, List.length_append] at hfuel
    omega
  obtain ⟨gap, hgap, heq⟩ := hread htext hroom (hrest.gap_append hafter)
  refine ⟨gap ++ after, List.forall_mem_append.mpr ⟨hgap, hafter⟩, ?_⟩
  simp only [List.append_assoc, readTree_gap_append hbefore, heq]

theorem readTree_bracket {fuel : Nat} {room inner : Option Nat} (henter : enter room = .ok inner) :
    readTree reading (fuel + 1) room ('[' :: text) =
      match skipSpace text with
      | ']' :: rest => .ok (.array [], rest)
      | _ => (readItems reading fuel inner text).map fun (items, rest) => (.array items, rest) := by
  rw [readTree, skipSpace_cons rfl]
  simp only [henter]
  rfl

theorem readTree_brace {fuel : Nat} {room inner : Option Nat} (henter : enter room = .ok inner) :
    readTree reading (fuel + 1) room ('\x7b' :: text) =
      match skipSpace text with
      | '\x7d' :: rest => .ok (.object [], rest)
      | _ =>
          (readMembers reading fuel inner text).map fun (members, rest) =>
            (.object members, rest) := by
  rw [readTree, skipSpace_cons rfl]
  simp only [henter]
  rfl

theorem readsTree_emptyArray (hgap : IsGap gap) :
    ReadsTree reading (.array []) ('[' :: (gap ++ [']'])) := by
  apply readsTree_of_cons
  intro fuel room rest _ hroom _
  obtain ⟨inner, henter, _⟩ := hroom.exists_enter
  rw [readTree_bracket henter, List.append_assoc, List.singleton_append,
    skipSpace_append_cons hgap rfl]
  rfl

theorem readsTree_emptyObject (hgap : IsGap gap) :
    ReadsTree reading (.object []) ('\x7b' :: (gap ++ ['\x7d'])) := by
  apply readsTree_of_cons
  intro fuel room rest _ hroom _
  obtain ⟨inner, henter, _⟩ := hroom.exists_enter
  rw [readTree_brace henter, List.append_assoc, List.singleton_append,
    skipSpace_append_cons hgap rfl]
  rfl

/-- A text begins, behind space, with a character that closes no container. -/
def BeginsToken (text : List Char) : Prop :=
  ∃ gap char later, text = gap ++ char :: later ∧ IsGap gap ∧ isSpace char = false ∧
    char ≠ ']' ∧ char ≠ '\x7d'

theorem beginsToken_cons {char : Char} (hspace : isSpace char = false) (hbracket : char ≠ ']')
    (hbrace : char ≠ '\x7d') : BeginsToken (char :: rest) :=
  ⟨[], char, rest, rfl, isGap_nil, hspace, hbracket, hbrace⟩

theorem BeginsToken.append (hbegins : BeginsToken text) (rest : List Char) :
    BeginsToken (text ++ rest) := by
  obtain ⟨gap, char, later, rfl, hchar⟩ := hbegins
  exact ⟨gap, char, later ++ rest, List.append_assoc _ _ _, hchar⟩

theorem BeginsToken.gap_append (hbegins : BeginsToken text) (hgap : IsGap gap) :
    BeginsToken (gap ++ text) := by
  obtain ⟨inner, char, later, rfl, hinner, hchar⟩ := hbegins
  exact ⟨gap ++ inner, char, later, (List.append_assoc _ _ _).symm,
    List.forall_mem_append.mpr ⟨hgap, hinner⟩, hchar⟩

theorem Spells.beginsToken (hreads : reading.Reads spelling) :
    ∀ {tree text}, Spells spelling tree text → BeginsToken text
  | _, _, .null => beginsToken_cons rfl (by decide) (by decide)
  | _, _, .yes => beginsToken_cons rfl (by decide) (by decide)
  | _, _, .no => beginsToken_cons rfl (by decide) (by decide)
  | _, _, .string _ => beginsToken_cons rfl (by decide) (by decide)
  | _, _, .number hnumber => by
      obtain ⟨char, later, rfl, _, hspace, hother⟩ := hreads.exists_number_cons hnumber
      exact beginsToken_cons hspace (hother ']' (by decide) rfl) (hother '\x7d' (by decide) rfl)
  | _, _, .emptyArray _ => beginsToken_cons rfl (by decide) (by decide)
  | _, _, .array _ => beginsToken_cons rfl (by decide) (by decide)
  | _, _, .emptyObject _ => beginsToken_cons rfl (by decide) (by decide)
  | _, _, .object _ => beginsToken_cons rfl (by decide) (by decide)
  | _, _, .spaced hbefore htext _ => ((htext.beginsToken hreads).gap_append hbefore).append _

theorem readsTree_array (hbegins : BeginsToken text) (hitems : ReadsItems reading items text) :
    ReadsTree reading (.array items) ('[' :: (text ++ [']'])) := by
  apply readsTree_of_cons
  intro fuel room rest hfuel hroom _
  obtain ⟨inner, henter, hinner⟩ := hroom.exists_enter
  have hread : readItems reading fuel inner (text ++ ']' :: rest) = .ok (items, rest) := by
    rw [List.length_append] at hfuel
    exact hitems (by omega) hinner
  obtain ⟨gap, char, later, htext, hgap, hspace, hbracket, _⟩ := hbegins.append (']' :: rest)
  rw [readTree_bracket henter, List.append_assoc, List.singleton_append, hread, htext,
    skipSpace_append_cons hgap hspace]
  simp [hbracket, Except.map]

theorem readsTree_object (hbegins : BeginsToken text)
    (hmembers : ReadsMembers reading members text) :
    ReadsTree reading (.object members) ('\x7b' :: (text ++ ['\x7d'])) := by
  apply readsTree_of_cons
  intro fuel room rest hfuel hroom _
  obtain ⟨inner, henter, hinner⟩ := hroom.exists_enter
  have hread : readMembers reading fuel inner (text ++ '\x7d' :: rest) = .ok (members, rest) := by
    rw [List.length_append] at hfuel
    exact hmembers (by omega) hinner
  obtain ⟨gap, char, later, htext, hgap, hspace, _, hbrace⟩ := hbegins.append ('\x7d' :: rest)
  rw [readTree_brace henter, List.append_assoc, List.singleton_append, hread, htext,
    skipSpace_append_cons hgap hspace]
  simp [hbrace, Except.map]

/-! ## Reading what containers hold -/

theorem ends_comma (rest : List Char) : Ends (',' :: rest) := ends_cons (by decide) rest

theorem ends_bracket (rest : List Char) : Ends (']' :: rest) := ends_cons (by decide) rest

theorem ends_brace (rest : List Char) : Ends ('\x7d' :: rest) := ends_cons (by decide) rest

theorem readsItems_last {item : Tree Text Number} (hitem : ReadsTree reading item text) :
    ReadsItems reading [item] text := by
  intro fuel room rest hfuel hroom
  obtain ⟨fuel, rfl⟩ : ∃ less, fuel = less + 1 := Nat.exists_eq_add_one.mpr (by omega)
  have hfits : FitsInto item.depth room := hroom.mono (le_max_left _ _)
  obtain ⟨gap, hgap, hread⟩ := hitem (Nat.le_of_succ_le_succ hfuel) hfits (ends_bracket rest)
  rw [readItems, hread]
  simp only [readContinuation_done (by rfl : isSpace ']' = false) (by decide) hgap]

theorem readsItems_cons {item : Tree Text Number} {later : List Char}
    (hitem : ReadsTree reading item text) (hlater : ReadsItems reading items later) :
    ReadsItems reading (item :: items) (text ++ ',' :: later) := by
  intro fuel room rest hfuel hroom
  rw [List.length_append, List.length_cons] at hfuel
  obtain ⟨fuel, rfl⟩ : ∃ less, fuel = less + 1 := Nat.exists_eq_add_one.mpr (by omega)
  have hfirst : 2 * text.length ≤ fuel := by omega
  have hothers : 2 * later.length + 1 ≤ fuel := by omega
  obtain ⟨gap, hgap, hread⟩ :=
    hitem hfirst (hroom.mono (le_max_left _ _)) (ends_comma (later ++ ']' :: rest))
  rw [readItems, List.append_assoc, List.cons_append, hread]
  simp only [readContinuation_more _ hgap, hlater hothers (hroom.mono (le_max_right _ _))]
  rfl

/-- Given a name, the name is read from the text, up to space behind it. -/
def ReadsName (reading : Reading Text Number) (name : Text) (label : List Char) : Prop :=
  ∀ rest, ∃ gap, IsGap gap ∧ readName reading (label ++ rest) = .ok (name, gap ++ rest)

/-- The name of a member may have space around it, like any other string. -/
theorem Spells.readsName (hreads : reading.Reads spelling) :
    ∀ {tree label}, Spells spelling tree label → tree = .string name →
      ReadsName reading name label
  | _, _, .string hstring, rfl => by
      intro rest
      refine ⟨[], isGap_nil, ?_⟩
      rw [readName, List.cons_append, skipSpace_cons rfl, List.append_assoc]
      exact hreads.string hstring rest
  | _, _, .spaced hbefore hlabel hafter, htree => by
      intro rest
      obtain ⟨gap, hgap, hread⟩ := hlabel.readsName hreads htree (_ ++ rest)
      refine ⟨gap ++ _, List.forall_mem_append.mpr ⟨hgap, hafter⟩, ?_⟩
      rw [List.append_assoc, List.append_assoc, List.append_assoc, ← hread, readName, readName,
        skipSpace_append hbefore]

theorem readsMembers_last {label : List Char} (hname : ReadsName reading name label)
    (hvalue : ReadsTree reading value text) :
    ReadsMembers reading [(name, value)] (label ++ ':' :: text) := by
  intro fuel room rest hfuel hroom
  rw [List.length_append, List.length_cons] at hfuel
  obtain ⟨fuel, rfl⟩ : ∃ less, fuel = less + 1 := Nat.exists_eq_add_one.mpr (by omega)
  have htext : 2 * text.length ≤ fuel := by omega
  obtain ⟨behind, hbehind, hreadName⟩ := hname (':' :: (text ++ '\x7d' :: rest))
  obtain ⟨gap, hgap, hread⟩ :=
    hvalue htext (hroom.mono (le_max_left _ _)) (ends_brace rest)
  rw [readMembers, List.append_assoc, List.cons_append, hreadName]
  simp only [readColon_append hbehind, hread,
    readContinuation_done (by rfl : isSpace '\x7d' = false) (by decide) hgap]

theorem readsMembers_cons {label later : List Char} (hname : ReadsName reading name label)
    (hvalue : ReadsTree reading value text) (hlater : ReadsMembers reading members later) :
    ReadsMembers reading ((name, value) :: members) (label ++ ':' :: text ++ ',' :: later) := by
  intro fuel room rest hfuel hroom
  simp only [List.length_append, List.length_cons] at hfuel
  obtain ⟨fuel, rfl⟩ : ∃ less, fuel = less + 1 := Nat.exists_eq_add_one.mpr (by omega)
  have htext : 2 * text.length ≤ fuel := by omega
  have hothers : 2 * later.length + 1 ≤ fuel := by omega
  obtain ⟨behind, hbehind, hreadName⟩ := hname (':' :: (text ++ ',' :: (later ++ '\x7d' :: rest)))
  obtain ⟨gap, hgap, hread⟩ :=
    hvalue htext (hroom.mono (le_max_left _ _)) (ends_comma (later ++ '\x7d' :: rest))
  rw [readMembers, List.append_assoc, List.append_assoc, List.cons_append, List.cons_append,
    hreadName]
  simp only [readColon_append hbehind, hread, readContinuation_more _ hgap,
    hlater hothers (hroom.mono (le_max_right _ _))]
  rfl

/-! ## Reading whole texts -/

theorem SpellsItems.beginsToken (hreads : reading.Reads spelling) :
    SpellsItems spelling items text → BeginsToken text
  | .last hitem => hitem.beginsToken hreads
  | .cons hitem _ => (hitem.beginsToken hreads).append _

theorem SpellsMembers.beginsToken (hreads : reading.Reads spelling) :
    SpellsMembers spelling members text → BeginsToken text
  | .last hname _ => (hname.beginsToken hreads).append _
  | .cons hname _ _ => ((hname.beginsToken hreads).append _).append _

mutual

theorem Spells.reads (hreads : reading.Reads spelling) :
    ∀ {tree text}, Spells spelling tree text → ReadsTree reading tree text
  | _, _, .null => readsTree_null
  | _, _, .yes => readsTree_true
  | _, _, .no => readsTree_false
  | _, _, .number hnumber => readsTree_number hreads hnumber
  | _, _, .string hstring => readsTree_string hreads hstring
  | _, _, .emptyArray hgap => readsTree_emptyArray hgap
  | _, _, .array hitems => readsTree_array (hitems.beginsToken hreads) (hitems.reads hreads)
  | _, _, .emptyObject hgap => readsTree_emptyObject hgap
  | _, _, .object hmembers => readsTree_object (hmembers.beginsToken hreads) (hmembers.reads hreads)
  | _, _, .spaced hbefore htext hafter => readsTree_spaced hbefore hafter (htext.reads hreads)

theorem SpellsItems.reads (hreads : reading.Reads spelling) :
    ∀ {items text}, SpellsItems spelling items text → ReadsItems reading items text
  | _, _, .last hitem => readsItems_last (hitem.reads hreads)
  | _, _, .cons hitem hlater => readsItems_cons (hitem.reads hreads) (hlater.reads hreads)

theorem SpellsMembers.reads (hreads : reading.Reads spelling) :
    ∀ {members text}, SpellsMembers spelling members text → ReadsMembers reading members text
  | _, _, .last hname hvalue =>
      readsMembers_last (hname.readsName hreads rfl) (hvalue.reads hreads)
  | _, _, .cons hname hvalue hlater =>
      readsMembers_cons (hname.readsName hreads rfl) (hvalue.reads hreads) (hlater.reads hreads)

end

/-- A value is read from each of its texts, up to space behind it. -/
theorem read_of_spells (hreads : reading.Reads spelling) (htext : Spells spelling tree text)
    (hroom : FitsInto tree.depth reading.room) :
    ∃ gap, IsGap gap ∧ reading.read text = .ok (tree, gap) := by
  have hfuel : 2 * text.length ≤ fuelFor text := Nat.le_add_right _ 2
  have hends : Ends [] := fun char hchar => absurd hchar (Option.not_mem_none char)
  have hread := htext.reads hreads hfuel hroom hends
  simpa only [Reading.read, List.append_nil] using hread

theorem expectEnd_of_isGap (hgap : IsGap gap) : expectEnd gap = .ok () := by
  rw [expectEnd, skipSpace, List.dropWhile_eq_nil_iff.mpr hgap]
  rfl

end StepFlow.Json
