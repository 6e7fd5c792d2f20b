import StepFlow.Proofs.CommandReading

/-!
# The shapes of a command

Which values are commands, said without an order of reading.  In an object every field may be stored
once, under one of its keys, and the name has to be; members under other keys do not count, whatever
they hold.  A list holds the fields in their order, the last three of which may be missing.
Main statement: `command_is_read_by_shape`.
-/

namespace StepFlow

open Json

namespace Recording

/-! ## Keys -/

/-- The keys under which a field may be stored. -/
def Field.keys : Field → List String
  | .id => ["id"]
  | .text .name => ["command", "name"]
  | .text .target => ["target"]
  | .text .value => ["value"]
  | .text .comment => ["comment"]

/-- The keys of all fields. -/
def fieldKeys : List String := ["id", "command", "name", "target", "value", "comment"]

theorem Field.ofKey?_eq_some_iff {key : String} {field : Field} :
    Field.ofKey? key = some field ↔ key ∈ field.keys := by
  constructor
  · intro hfield
    unfold ofKey? at hfield
    split at hfield
    case h_7 => contradiction
    all_goals
      cases hfield
      decide
  · intro hkey
    obtain _ | field := field
    · rw [List.mem_singleton.mp hkey]
      rfl
    · cases field with
      | name => rcases List.mem_pair.mp hkey with rfl | rfl <;> rfl
      | target | value | comment =>
          rw [List.mem_singleton.mp hkey]
          rfl

theorem Field.keys_subset (field : Field) : field.keys ⊆ fieldKeys := by
  rcases field with _ | field
  · decide
  · cases field <;> decide

/-! ## Fields that were read -/

/-- What was read of a field that holds a text. -/
def Fields.readOf (fields : Fields) : TextField → Option String
  | .name => fields.name
  | .target => fields.target
  | .value => fields.value
  | .comment => fields.comment

namespace Fields

variable {fields filled : Fields}

theorem has_text (fields : Fields) (field : TextField) :
    fields.has (.text field) = (fields.readOf field).isSome := by
  cases field <;> rfl

theorem readOf_setText (fields : Fields) (string : String) (field other : TextField) :
    (fields.setText string field).readOf other =
      if other = field then some string else fields.readOf other := by
  cases field <;> cases other <;> rfl

theorem id_setText (fields : Fields) (string : String) (field : TextField) :
    (fields.setText string field).id = fields.id := by
  cases field <;> rfl

theorem readOf_setId (fields : Fields) (id : Option String) :
    (fields.setId id).readOf = fields.readOf := by
  funext field
  cases field <;> rfl

theorem eq_iff_readOf :
    fields = filled ↔ fields.id = filled.id ∧ fields.readOf = filled.readOf := by
  refine ⟨by rintro rfl; exact ⟨rfl, rfl⟩, fun ⟨hid, htext⟩ => ?_⟩
  have hname : fields.name = filled.name := congrFun htext .name
  have htarget : fields.target = filled.target := congrFun htext .target
  have hvalue : fields.value = filled.value := congrFun htext .value
  have hcomment : fields.comment = filled.comment := congrFun htext .comment
  cases fields
  cases filled
  simp_all

end Fields

/-! ## Objects -/

section Shapes

variable {Text Number α : Type} (text? : Text → Option String)

/-- The member is stored under one of the keys. -/
def isUnder (keys : List String) (member : Text × Tree Text Number) : Bool :=
  (text? member.1).any keys.contains

/-- The values that are stored under the keys of a field. -/
def storedValues (field : Field) (members : List (Text × Tree Text Number)) :
    List (Tree Text Number) :=
  (members.filter (isUnder text? field.keys)).map Prod.snd

/-- The members that are stored under the key of any field. -/
def storedFields (members : List (Text × Tree Text Number)) : List (Text × Tree Text Number) :=
  members.filter (isUnder text? fieldKeys)

/-- The values hold what was found if there is one value and it is decoded to that, or if there is
no value and it is the default. -/
inductive Holds (decode : Tree Text Number → Option α) (default : α) :
    List (Tree Text Number) → α → Prop
  | absent : Holds decode default [] default
  | present {value : Tree Text Number} {found : α} (hfound : decode value = some found) :
      Holds decode default [value] found

/-- The members of an object hold the fields of a command. -/
structure HoldsCommand (members : List (Text × Tree Text Number)) (command : Command) : Prop where
  named : ∀ member ∈ members, (text? member.1).isSome = true
  id : Holds (optionalOf? text?) none (storedValues text? .id members) command.id
  name : ∃ value, storedValues text? (.text .name) members = [value] ∧
    stringOf? text? value = some command.name
  target : Holds (stringOf? text?) "" (storedValues text? (.text .target) members) command.target
  value : Holds (stringOf? text?) "" (storedValues text? (.text .value) members) command.value
  comment : Holds (stringOf? text?) "" (storedValues text? (.text .comment) members) command.comment

variable {text?} {members : List (Text × Tree Text Number)} {name : Text}
  {value : Tree Text Number} {key : String} {field : Field} {command : Command}

theorem storedValues_cons_of_mem (hname : text? name = some key) (hkey : key ∈ field.keys) :
    storedValues text? field ((name, value) :: members) =
      value :: storedValues text? field members := by
  simp [storedValues, isUnder, hname, hkey]

theorem storedValues_cons_of_not_mem (hname : text? name = some key) (hkey : key ∉ field.keys) :
    storedValues text? field ((name, value) :: members) = storedValues text? field members := by
  simp [storedValues, isUnder, hname, hkey]

/-! ### Filling the fields -/

/-- A slot after values were put into it.  It has room for one. -/
def fillSlot? (decode : Tree Text Number → Option α) :
    Option α → List (Tree Text Number) → Option (Option α)
  | slot, [] => some slot
  | none, value :: values => (decode value).bind fun found => fillSlot? decode (some found) values
  | some _, _ :: _ => none

theorem fillSlot?_cons_eq_some_iff {decode : Tree Text Number → Option α} {slot final : Option α}
    {values : List (Tree Text Number)} :
    fillSlot? decode slot (value :: values) = some final ↔ slot = none ∧
      ∃ found, decode value = some found ∧ fillSlot? decode (some found) values = some final := by
  cases slot with
  | none => simp [fillSlot?, Option.bind_eq_some_iff]
  | some found => simp [fillSlot?]

/-- An empty slot is filled by one value. -/
theorem fillSlot?_eq_some_some_iff {decode : Tree Text Number → Option α} {found : α}
    {values : List (Tree Text Number)} :
    fillSlot? decode none values = some (some found) ↔
      ∃ value, values = [value] ∧ decode value = some found := by
  match values with
  | [] => exact iff_of_false nofun nofun
  | [value] => simp [fillSlot?, Option.bind_eq_some_iff]
  | value :: second :: values => simp [fillSlot?]

theorem fillSlot?_eq_some_none_iff {decode : Tree Text Number → Option α}
    {values : List (Tree Text Number)} :
    fillSlot? decode none values = some none ↔ values = [] := by
  match values with
  | [] => exact iff_of_true rfl rfl
  | [value] => simp [fillSlot?, Option.bind_eq_some_iff]
  | value :: second :: values => simp [fillSlot?]

theorem holds_iff {decode : Tree Text Number → Option α} {default found : α}
    {values : List (Tree Text Number)} :
    Holds decode default values found ↔
      ∃ slot, fillSlot? decode none values = some slot ∧ slot.getD default = found := by
  constructor
  · rintro (_ | hfound)
    · exact ⟨none, rfl, rfl⟩
    · exact ⟨some found, fillSlot?_eq_some_some_iff.mpr ⟨_, rfl, hfound⟩, rfl⟩
  · rintro ⟨_ | slot, hslot, rfl⟩
    · rw [fillSlot?_eq_some_none_iff.mp hslot]
      exact .absent
    · obtain ⟨value, rfl, hfound⟩ := fillSlot?_eq_some_some_iff.mp hslot
      exact .present hfound

variable (text?) in
/-- The fields that were read, together with the values that are stored for each of them, make the
filled fields. -/
structure Fills (fields : Fields) (members : List (Text × Tree Text Number)) (filled : Fields) :
    Prop where
  named : ∀ member ∈ members, (text? member.1).isSome = true
  id : fillSlot? (optionalOf? text?) fields.id (storedValues text? .id members) = some filled.id
  text : ∀ field, fillSlot? (stringOf? text?) (fields.readOf field)
    (storedValues text? (.text field) members) = some (filled.readOf field)

section Filling

variable {fields filled : Fields}

theorem fills_nil_iff :
    Fills text? fields ([] : List (Text × Tree Text Number)) filled ↔ fields = filled := by
  rw [Fields.eq_iff_readOf, funext_iff]
  refine ⟨fun ⟨_, hid, htext⟩ => ⟨Option.some.inj hid, fun field => Option.some.inj (htext field)⟩,
    fun ⟨hid, htext⟩ => ⟨nofun, congrArg some hid, fun field => congrArg some (htext field)⟩⟩

theorem named_cons (hname : text? name = some key)
    (hnamed : ∀ member ∈ members, (text? member.1).isSome = true) :
    ∀ member ∈ (name, value) :: members, (text? member.1).isSome = true :=
  List.forall_mem_cons.mpr ⟨by simp [hname], hnamed⟩

theorem storedValues_cons (hname : text? name = some key) (field : Field) :
    storedValues text? field ((name, value) :: members) =
      if Field.ofKey? key = some field then value :: storedValues text? field members
      else storedValues text? field members := by
  split
  case isTrue hkey => exact storedValues_cons_of_mem hname (Field.ofKey?_eq_some_iff.mp hkey)
  case isFalse hkey =>
      exact storedValues_cons_of_not_mem hname fun hmem => hkey (Field.ofKey?_eq_some_iff.mpr hmem)

/-- A member under no known key fills nothing. -/
theorem fills_cons_none_iff (hname : text? name = some key) (hkey : Field.ofKey? key = none) :
    Fills text? fields ((name, value) :: members) filled ↔ Fills text? fields members filled := by
  constructor
  · rintro ⟨hnamed, hid, htext⟩
    simp only [storedValues_cons hname, hkey, reduceCtorEq, if_false] at hid htext
    exact ⟨(List.forall_mem_cons.mp hnamed).2, hid, htext⟩
  · rintro ⟨hnamed, hid, htext⟩
    refine ⟨named_cons hname hnamed, ?_, ?_⟩
    all_goals simpa only [storedValues_cons hname, hkey, reduceCtorEq, if_false]

theorem fills_cons_id_iff (hname : text? name = some key) (hkey : Field.ofKey? key = some .id) :
    Fills text? fields ((name, value) :: members) filled ↔ fields.id = none ∧
      ∃ id, optionalOf? text? value = some id ∧ Fills text? (fields.setId id) members filled := by
  constructor
  · rintro ⟨hnamed, hid, htext⟩
    simp only [storedValues_cons hname, hkey, if_true, fillSlot?_cons_eq_some_iff] at hid
    simp only [storedValues_cons hname, hkey, Option.some.injEq, reduceCtorEq, if_false] at htext
    obtain ⟨hslot, id, hvalue, hid⟩ := hid
    rw [← Fields.readOf_setId fields id] at htext
    exact ⟨hslot, id, hvalue, (List.forall_mem_cons.mp hnamed).2, hid, htext⟩
  · rintro ⟨hslot, id, hvalue, hnamed, hid, htext⟩
    rw [Fields.readOf_setId] at htext
    refine ⟨named_cons hname hnamed, ?_, ?_⟩
    · simp only [storedValues_cons hname, hkey, if_true, fillSlot?_cons_eq_some_iff]
      exact ⟨hslot, id, hvalue, hid⟩
    · simpa only [storedValues_cons hname, hkey, Option.some.injEq, reduceCtorEq, if_false]
        using htext

theorem fills_cons_text_iff {field : TextField} (hname : text? name = some key)
    (hkey : Field.ofKey? key = some (.text field)) :
    Fills text? fields ((name, value) :: members) filled ↔ fields.readOf field = none ∧
      ∃ string, stringOf? text? value = some string ∧
        Fills text? (fields.setText string field) members filled := by
  have hother : ∀ other, Field.ofKey? key = some (.text other) ↔ other = field := by
    intro other
    rw [hkey, Option.some.injEq, Field.text.injEq, eq_comm]
  constructor
  · rintro ⟨hnamed, hid, htext⟩
    simp only [storedValues_cons hname, hkey, Option.some.injEq, reduceCtorEq, if_false] at hid
    simp only [storedValues_cons hname, hother] at htext
    have hfield := htext field
    simp only [if_true, fillSlot?_cons_eq_some_iff] at hfield
    obtain ⟨hslot, string, hvalue, hfield⟩ := hfield
    refine ⟨hslot, string, hvalue, (List.forall_mem_cons.mp hnamed).2, ?_, fun other => ?_⟩
    · rwa [Fields.id_setText]
    · rw [Fields.readOf_setText]
      split
      case isTrue heq =>
          rw [heq]
          exact hfield
      case isFalse hne => simpa only [hne, if_false] using htext other
  · rintro ⟨hslot, string, hvalue, hnamed, hid, htext⟩
    rw [Fields.id_setText] at hid
    refine ⟨named_cons hname hnamed, ?_, fun other => ?_⟩
    · simpa only [storedValues_cons hname, hkey, Option.some.injEq, reduceCtorEq, if_false]
        using hid
    · have hfield := htext other
      rw [Fields.readOf_setText] at hfield
      simp only [storedValues_cons hname, hother]
      split
      case isTrue heq =>
          rw [if_pos heq, heq] at hfield
          rw [heq]
          exact fillSlot?_cons_eq_some_iff.mpr ⟨hslot, string, hvalue, hfield⟩
      case isFalse hne => rwa [if_neg hne] at hfield

theorem fill?_id_eq_some_iff :
    fields.fill? text? (some .id) value = some filled ↔
      fields.id = none ∧ ∃ id, optionalOf? text? value = some id ∧ fields.setId id = filled := by
  have hhas : fields.has .id = fields.id.isSome := rfl
  rw [Fields.fill?]
  cases hslot : fields.id <;> simp [hhas, hslot]

theorem fill?_text_eq_some_iff {field : TextField} :
    fields.fill? text? (some (.text field)) value = some filled ↔
      fields.readOf field = none ∧
        ∃ string, stringOf? text? value = some string ∧ fields.setText string field = filled := by
  rw [Fields.fill?]
  cases hslot : fields.readOf field <;> simp [Fields.has_text, hslot]

/-- Taking in the members one after the other fills every field with the values stored for it. -/
theorem fillAll?_eq_some_iff :
    fields.fillAll? text? members = some filled ↔ Fills text? fields members filled := by
  induction members generalizing fields with
  | nil => rw [Fields.fillAll?, Option.some.injEq, fills_nil_iff]
  | cons member members ih =>
      obtain ⟨name, value⟩ := member
      rw [Fields.fillAll?]
      cases hname : text? name with
      | none =>
          refine iff_of_false (by simp) fun hfills => ?_
          have hnamed := hfills.named (name, value) List.mem_cons_self
          simp [hname] at hnamed
      | some key =>
          simp only [Option.bind_some, Option.bind_eq_some_iff, ih]
          rcases hkey : Field.ofKey? key with _ | _ | field
          · simp only [Fields.fill?, Option.some.injEq, exists_eq_left',
              fills_cons_none_iff hname hkey]
          · rw [fills_cons_id_iff hname hkey]
            simp only [fill?_id_eq_some_iff]
            constructor
            · rintro ⟨_, ⟨hslot, id, hvalue, rfl⟩, hfills⟩
              exact ⟨hslot, id, hvalue, hfills⟩
            · rintro ⟨hslot, id, hvalue, hfills⟩
              exact ⟨_, ⟨hslot, id, hvalue, rfl⟩, hfills⟩
          · rw [fills_cons_text_iff hname hkey]
            simp only [fill?_text_eq_some_iff]
            constructor
            · rintro ⟨_, ⟨hslot, text, hvalue, rfl⟩, hfills⟩
              exact ⟨hslot, text, hvalue, hfills⟩
            · rintro ⟨hslot, text, hvalue, hfills⟩
              exact ⟨_, ⟨hslot, text, hvalue, rfl⟩, hfills⟩

end Filling

/-! ### Commands in objects -/

theorem toCommand_eq_some_iff {fields : Fields} :
    fields.toCommand.toOption = some command ↔ fields.name = some command.name ∧
      fields.id.getD none = command.id ∧ fields.target.getD "" = command.target ∧
      fields.value.getD "" = command.value ∧ fields.comment.getD "" = command.comment := by
  rw [Fields.toCommand]
  cases hname : fields.name with
  | none => simp [Except.toOption]
  | some name =>
      obtain ⟨id, name', target, value, comment⟩ := command
      simp [Except.toOption]
      tauto

/-- The members of an object make a command exactly if they hold its fields. -/
theorem meant?_object_eq_some_iff :
    meant? text? (.object members) = some command ↔ HoldsCommand text? members command := by
  simp only [meant?, Option.bind_eq_some_iff, fillAll?_eq_some_iff, toCommand_eq_some_iff]
  constructor
  · rintro ⟨filled, ⟨hnamed, hid, htext⟩, hname, hcommand⟩
    have hfilled := htext .name
    obtain ⟨hid', htarget, hvalue, hcomment⟩ := hcommand
    exact ⟨hnamed, holds_iff.mpr ⟨_, hid, hid'⟩,
      fillSlot?_eq_some_some_iff.mp (hfilled.trans (congrArg some hname)),
      holds_iff.mpr ⟨_, htext .target, htarget⟩, holds_iff.mpr ⟨_, htext .value, hvalue⟩,
      holds_iff.mpr ⟨_, htext .comment, hcomment⟩⟩
  · rintro ⟨hnamed, hid, hname, htarget, hvalue, hcomment⟩
    obtain ⟨id, hid, hid'⟩ := holds_iff.mp hid
    obtain ⟨target, htarget, htarget'⟩ := holds_iff.mp htarget
    obtain ⟨value, hvalue, hvalue'⟩ := holds_iff.mp hvalue
    obtain ⟨comment, hcomment, hcomment'⟩ := holds_iff.mp hcomment
    refine ⟨⟨id, some command.name, target, value, comment⟩, ⟨hnamed, hid, fun field => ?_⟩,
      rfl, hid', htarget', hvalue', hcomment'⟩
    cases field with
    | name => exact fillSlot?_eq_some_some_iff.mpr hname
    | target => exact htarget
    | value => exact hvalue
    | comment => exact hcomment

/-! ### The order of the members -/

theorem Holds.perm {decode : Tree Text Number → Option α} {default found : α}
    {values others : List (Tree Text Number)} (hholds : Holds decode default values found)
    (hperm : values.Perm others) : Holds decode default others found := by
  cases hholds with
  | absent =>
      rw [List.nil_perm.mp hperm]
      exact .absent
  | present hfound =>
      rw [← List.singleton_perm.mp hperm]
      exact .present hfound

theorem storedValues_storedFields (field : Field) :
    storedValues text? field (storedFields text? members) = storedValues text? field members := by
  rw [storedValues, storedFields, List.filter_filter, storedValues]
  congr 2
  funext ⟨name, value⟩
  cases hname : text? name with
  | none => simp [isUnder, hname]
  | some key =>
      have hsubset : key ∈ field.keys → key ∈ fieldKeys := fun hkey => field.keys_subset hkey
      simpa [isUnder, hname] using hsubset

/-- Commands are held whatever the order of the members is, and whatever is stored under other
keys. -/
theorem HoldsCommand.of_perm {others : List (Text × Tree Text Number)}
    (hholds : HoldsCommand text? members command)
    (hnamed : ∀ member ∈ others, (text? member.1).isSome = true)
    (hperm : (storedFields text? members).Perm (storedFields text? others)) :
    HoldsCommand text? others command := by
  have hvalues (field : Field) :
      (storedValues text? field members).Perm (storedValues text? field others) := by
    have hstored := (hperm.filter (isUnder text? field.keys)).map Prod.snd
    rwa [← storedValues, ← storedValues, storedValues_storedFields, storedValues_storedFields]
      at hstored
  obtain ⟨value, hmembers, hname⟩ := hholds.name
  have hothers : storedValues text? (.text .name) others = [value] :=
    List.singleton_perm.mp (hmembers ▸ hvalues _) |>.symm
  exact ⟨hnamed, hholds.id.perm (hvalues _), ⟨value, hothers, hname⟩,
    hholds.target.perm (hvalues _), hholds.value.perm (hvalues _),
    hholds.comment.perm (hvalues _)⟩

/-! ## Lists -/

/-- The fields in the order in which a list holds them. -/
def listedFields : List Field :=
  [.id, .text .name, .text .target, .text .value, .text .comment]

variable (text?) in
/-- The fields after the items of a list were taken in, each as the next field of an order. -/
def Fields.fillNext? (fields : Fields) : List Field → List (Tree Text Number) → Option Fields
  | _, [] => some fields
  | [], _ :: _ => none
  | field :: order, item :: items =>
      (fields.fill? text? (some field) item).bind fun fields => fields.fillNext? order items

theorem listed?_eq (items : List (Tree Text Number)) :
    listed? text? items =
      (Fields.fillNext? text? {} listedFields items).bind fun fields =>
        fields.toCommand.toOption := by
  match items with
  | [] | [_] | [_, _] | [_, _, _] | [_, _, _, _] | [_, _, _, _, _]
  | _ :: _ :: _ :: _ :: _ :: _ :: _ =>
      simp only [listed?, next?, Fields.fillNext?, listedFields, Fields.fill?, Fields.has,
        Fields.setId, Fields.setText, Fields.toCommand, Except.toOption, Option.bind_eq_bind,
        Option.bind_assoc, Option.map_eq_bind, Function.comp_def, Option.bind_some,
        Option.bind_none, Option.bind_fun_none, Option.isSome_none, Option.getD_none,
        Option.getD_some, List.isEmpty_nil, List.isEmpty_cons, Bool.false_eq_true, if_false,
        if_true]

/-- Items fill the same fields when they are stored under keys. -/
theorem fillAll?_zip :
    ∀ {order : List Field} {items : List (Tree Text Number)} {names : List Text} {fields : Fields},
      items.length ≤ order.length →
      names.map text? = (order.take items.length).map (some ∘ Field.key) →
      fields.fillAll? text? (names.zip items) = fields.fillNext? text? order items
  | order, [], names, fields, _, _ => by
      cases order <;> rw [List.zip_nil_right] <;> rfl
  | [], _ :: _, _, _, hlength, _ => absurd hlength (Nat.not_succ_le_zero _)
  | field :: order, item :: items, names, fields, hlength, hnames => by
      rw [List.length_cons, List.take_succ_cons, List.map_cons, List.map_eq_cons_iff] at hnames
      obtain ⟨name, names, rfl, hname, hnames⟩ := hnames
      have hlater : items.length ≤ order.length := Nat.le_of_succ_le_succ hlength
      rw [List.zip_cons_cons, Fields.fillAll?, hname, Function.comp_apply, Option.bind_some,
        Field.ofKey?_key, Fields.fillNext?]
      congr 1
      funext fields
      exact fillAll?_zip hlater hnames

/-- A list of the fields in their order is the command that an object of them is. -/
theorem meant?_object_zip {items : List (Tree Text Number)} {names : List Text}
    (hlength : items.length ≤ 5)
    (hnames : names.map text? = (listedFields.take items.length).map (some ∘ Field.key)) :
    meant? text? (.object (names.zip items)) = meant? text? (.array items) := by
  rw [meant?, fillAll?_zip hlength hnames, meant?, listed?_eq]

theorem isSome_listed?_iff {items : List (Tree Text Number)} :
    (listed? text? items).isSome = true ↔ 2 ≤ items.length ∧ items.length ≤ 5 ∧
      (∀ item ∈ items.head?, (optionalOf? text? item).isSome = true) ∧
        ∀ item ∈ items.tail, (stringOf? text? item).isSome = true := by
  match items with
  | [] | [_] | [_, _] | [_, _, _] | [_, _, _, _] | [_, _, _, _, _]
  | _ :: _ :: _ :: _ :: _ :: _ :: _ =>
      simp [listed?, next?, Option.isSome_iff_exists, Option.bind_eq_some_iff]

end Shapes

/-! ## Values that are strings -/

section Literals

/-- Values as they are written. -/
abbrev Written := Tree (List Piece) Numeral

variable {members others : List (List Piece × Written)} {items : List Written} {tree : Written}

/-- The value is a string. -/
def IsText (tree : Written) : Prop := ∃ string, tree = .string string

/-- The value is a string or `null`. -/
def IsOptionalText (tree : Written) : Prop := tree = .null ∨ IsText tree

/-- The value is no string in which a surrogate lacks its partner. -/
def HasText (tree : Written) : Prop := ∀ pieces, tree = .string pieces → Paired pieces

/-- The strings that a command is read from, which are the names of all members and the values of
those that hold fields, have every surrogate paired. -/
structure HasTexts (members : List (List Piece × Written)) : Prop where
  name : ∀ member ∈ members, Paired member.1
  value : ∀ member ∈ storedFields textOf? members, HasText member.2

/-- There is exactly one name, which is a string, and at most one value of every other field.  The
identifier may be `null`, and is a string otherwise, like all other fields. -/
structure IsCommandObject (members : List (List Piece × Written)) : Prop where
  name : (storedValues textOf? (.text .name) members).length = 1
  once : ∀ field, (storedValues textOf? field members).length ≤ 1
  id : ∀ value ∈ storedValues textOf? .id members, IsOptionalText value
  text : ∀ field, ∀ value ∈ storedValues textOf? (.text field) members, IsText value

/-- There are two to five items, of which the first is a string or `null` and the others are
strings. -/
structure IsCommandList (items : List Written) : Prop where
  two_le : 2 ≤ items.length
  le_five : items.length ≤ 5
  id : ∀ item ∈ items.head?, IsOptionalText item
  text : ∀ item ∈ items.tail, IsText item

theorem named_iff :
    (∀ member ∈ members, (textOf? member.1).isSome = true) ↔
      ∀ member ∈ members, Paired member.1 :=
  forall₂_congr fun _ _ => isSome_textOf?_iff

theorem isSome_stringOf?_iff (htext : HasText tree) :
    (stringOf? textOf? tree).isSome = true ↔ IsText tree := by
  cases tree with
  | string pieces => exact iff_of_true (isSome_textOf?_iff.mpr (htext pieces rfl)) ⟨pieces, rfl⟩
  | null | boolean | number | array | object => exact iff_of_false nofun nofun

theorem isSome_optionalOf?_iff (htext : HasText tree) :
    (optionalOf? textOf? tree).isSome = true ↔ IsOptionalText tree := by
  cases tree with
  | null => exact iff_of_true rfl (Or.inl rfl)
  | string pieces =>
      rw [optionalOf?, Option.isSome_map]
      exact iff_of_true (isSome_textOf?_iff.mpr (htext pieces rfl)) (Or.inr ⟨pieces, rfl⟩)
  | boolean | number | array | object => exact iff_of_false nofun (by rintro (⟨⟨⟩⟩ | ⟨_, ⟨⟩⟩))

theorem HasTexts.storedValues {field : Field} {value : Written} (htexts : HasTexts members)
    (hvalue : value ∈ storedValues textOf? field members) : HasText value := by
  rw [← storedValues_storedFields] at hvalue
  obtain ⟨member, hmember, rfl⟩ := List.mem_map.mp hvalue
  exact htexts.value member (List.mem_filter.mp hmember).1

/-- The values of a field that may be stored. -/
theorem exists_holds_iff {α : Type} {decode : Written → Option α} {default : α}
    {values : List Written} {IsGood : Written → Prop}
    (hdecode : ∀ value ∈ values, ((decode value).isSome = true ↔ IsGood value)) :
    (∃ found, Holds decode default values found) ↔
      values.length ≤ 1 ∧ ∀ value ∈ values, IsGood value := by
  match values with
  | [] => exact iff_of_true ⟨default, .absent⟩ ⟨Nat.zero_le 1, nofun⟩
  | [value] =>
      rw [List.forall_mem_singleton, ← hdecode value List.mem_cons_self, Option.isSome_iff_exists]
      refine ⟨fun ⟨found, hholds⟩ => ?_, fun ⟨_, found, hfound⟩ => ⟨found, .present hfound⟩⟩
      cases hholds with
      | present hfound => exact ⟨Nat.le_refl 1, found, hfound⟩
  | value :: second :: values =>
      refine iff_of_false (fun ⟨found, hholds⟩ => nomatch hholds) fun ⟨hlength, _⟩ => ?_
      simp at hlength

theorem exists_holdsCommand_iff (htexts : HasTexts members) :
    (∃ command, HoldsCommand textOf? members command) ↔ IsCommandObject members := by
  have hid : (∃ id, Holds (optionalOf? textOf?) none (storedValues textOf? .id members) id) ↔ _ :=
    exists_holds_iff fun value hvalue => isSome_optionalOf?_iff (htexts.storedValues hvalue)
  have htext : ∀ field, (∃ text, Holds (stringOf? textOf?) ""
      (storedValues textOf? (.text field) members) text) ↔ _ := fun field =>
    exists_holds_iff fun value hvalue => isSome_stringOf?_iff (htexts.storedValues hvalue)
  constructor
  · rintro ⟨command, hcommand⟩
    obtain ⟨value, hvalue, hname⟩ := hcommand.name
    have hshapes := fun field => (htext field).mp <|
      match field with
      | .name => ⟨command.name, hvalue ▸ .present hname⟩
      | .target => ⟨_, hcommand.target⟩
      | .value => ⟨_, hcommand.value⟩
      | .comment => ⟨_, hcommand.comment⟩
    have hshape := hid.mp ⟨_, hcommand.id⟩
    refine ⟨congrArg List.length hvalue, fun field => ?_, hshape.2, fun field => (hshapes field).2⟩
    cases field with
    | id => exact hshape.1
    | text field => exact (hshapes field).1
  · intro hshape
    obtain ⟨id, hid⟩ := hid.mpr ⟨hshape.once .id, hshape.id⟩
    have hfields := fun field => (htext field).mpr ⟨hshape.once (.text field), hshape.text field⟩
    choose text htext using hfields
    obtain ⟨value, hvalue⟩ := List.length_eq_one_iff.mp hshape.name
    have hname := htext .name
    rw [hvalue] at hname
    cases hname with
    | present hname =>
        exact ⟨⟨id, text .name, text .target, text .value, text .comment⟩,
          named_iff.mpr htexts.name, hid, ⟨value, hvalue, hname⟩, htext .target, htext .value,
          htext .comment⟩

theorem isSome_listed?_iff_isCommandList (htexts : ∀ item ∈ items, HasText item) :
    (listed? textOf? items).isSome = true ↔ IsCommandList items := by
  have hid : (∀ item ∈ items.head?, (optionalOf? textOf? item).isSome = true) ↔
      ∀ item ∈ items.head?, IsOptionalText item :=
    forall₂_congr fun item hitem =>
      isSome_optionalOf?_iff (htexts item (List.mem_of_mem_head? hitem))
  have htext : (∀ item ∈ items.tail, (stringOf? textOf? item).isSome = true) ↔
      ∀ item ∈ items.tail, IsText item :=
    forall₂_congr fun item hitem => isSome_stringOf?_iff (htexts item (List.mem_of_mem_tail hitem))
  rw [isSome_listed?_iff, hid, htext]
  exact ⟨fun ⟨htwo, hfive, hid, htext⟩ => ⟨htwo, hfive, hid, htext⟩,
    fun ⟨htwo, hfive, hid, htext⟩ => ⟨htwo, hfive, hid, htext⟩⟩

/-- Strings are read up to their first surrogate that lacks its partner. -/
theorem legible_literals : Legible literalSpelling textOf? where
  toIsGrammatical := literalSpelling_isGrammatical
  readString hstring rest := readString_of_pieces hstring rest

end Literals

end Recording

namespace Command

open Recording

/-- A command is read from the text of an object exactly if all but the members under other keys
have the shape of a command, and it has the values of those members, whatever their order is.  It
is read from the text of a list exactly if the list has the shape of a command, and is then the one
that is read from an object with the items of the list in their order. -/
theorem command_is_read_by_shape :
    (∀ {members : List (List Piece × Written)} {text : String},
      Spells literalSpelling (.object members) text.toList → HasTexts members →
      ((∃ command, read text = .ok command) ↔ IsCommandObject members) ∧
      (∀ command, read text = .ok command ↔ HoldsCommand textOf? members command) ∧
      ∀ {others : List (List Piece × Written)} {other : String},
        Spells literalSpelling (.object others) other.toList →
        (∀ member ∈ others, Paired member.1) →
        (storedFields textOf? members).Perm (storedFields textOf? others) →
        (read other).toOption = (read text).toOption) ∧
    ∀ {items : List Written} {text : String},
      Spells literalSpelling (.array items) text.toList → (∀ item ∈ items, HasText item) →
      ((∃ command, read text = .ok command) ↔ IsCommandList items) ∧
      (IsCommandList items → ∀ {names : List (List Piece)} {other : String},
        names.map textOf? =
          (["id", "command", "target", "value", "comment"].take items.length).map some →
        Spells literalSpelling (.object (names.zip items)) other.toList →
        read other = read text) := by
  constructor
  · intro members text htext htexts
    have hread : (read text).toOption = meant? textOf? (.object members) :=
      read_of_spells legible_literals htext
    have hholds : ∀ command, read text = .ok command ↔ HoldsCommand textOf? members command := by
      intro command
      rw [← toOption_eq_some_iff, hread, meant?_object_eq_some_iff]
    refine ⟨(exists_congr hholds).trans (exists_holdsCommand_iff htexts), hholds, ?_⟩
    intro others other hother hnames hperm
    rw [read_of_spells legible_literals hother, hread]
    ext command
    simp only [meant?_object_eq_some_iff]
    exact ⟨fun hothers => hothers.of_perm (named_iff.mpr htexts.name) hperm.symm,
      fun hmembers => hmembers.of_perm (named_iff.mpr hnames) hperm⟩
  · intro items text htext htexts
    have hread : (read text).toOption = listed? textOf? items :=
      read_of_spells legible_literals htext
    have hshape : (∃ command, read text = .ok command) ↔ IsCommandList items := by
      simp only [← isSome_listed?_iff_isCommandList htexts, Option.isSome_iff_exists, ← hread,
        toOption_eq_some_iff]
    refine ⟨hshape, fun hlist names other hnames hother => ?_⟩
    obtain ⟨command, hcommand⟩ := hshape.mpr hlist
    have hkeys : names.map textOf? =
        (listedFields.take items.length).map (some ∘ Field.key) := by
      rw [hnames, List.map_take, List.map_take]
      rfl
    rw [hcommand, ← toOption_eq_some_iff, read_of_spells legible_literals hother,
      meant?_object_zip hlist.le_five hkeys, meant?, ← hread, hcommand]
    rfl

/-! ### A command next to what cannot be read -/

/-- A surrogate that stands alone and a number that is too large. -/
def unreadable : Written :=
  .array [.string [.unit 0xd800],
    .number { whole := ['1'], exponent := some (false, ['9', '9', '9']) }]

def openName : Written := .string (plainPieces "open")

def mixedMembers : List (List Piece × Written) :=
  [(plainPieces "id", .null), (plainPieces "x", unreadable), (plainPieces "name", openName)]

def mixedObject : String := "\x7b\"id\":null,\"x\":[\"\\ud800\",1e999],\"name\":\"open\"\x7d"

theorem spells_plainPieces (text : String) (hplain : text.toList.all isPlain = true) :
    Spells literalSpelling (.string (plainPieces text)) ('"' :: (text.toList ++ ['"'])) :=
  .string (spellsPieces_plainPieces hplain)

theorem spells_mixedObject :
    Spells literalSpelling (.object mixedMembers) mixedObject.toList := by
  have hlone : SpellsPieces [.unit 0xd800] _ :=
    .cons (.unit (by rfl : Text.hexNumber? ['d', '8', '0', '0'] = some 0xd800)) .nil
  have hlarge : SpellsNumeral { whole := ['1'], exponent := some (false, ['9', '9', '9']) } _ :=
    .mk ⟨⟨nofun, List.all_eq_true.mp rfl⟩, nofun⟩ .none
      (.some (Or.inl (Eq.refl 'e')) .none ⟨nofun, List.all_eq_true.mp rfl⟩)
  have hunreadable : Spells literalSpelling unreadable _ :=
    .array (.cons (.string hlone) (.last (.number hlarge)))
  have htext := Spells.object (.cons (spells_plainPieces "id" rfl) .null
    (.cons (spells_plainPieces "x" rfl) hunreadable
      (.last (spells_plainPieces "name" rfl) (spells_plainPieces "open" rfl))))
  convert htext using 1
  · rfl
  · decide +kernel

theorem hasText_openName : HasText openName := by
  rintro _ ⟨⟩
  exact isSome_textOf?_iff.mp (by decide)

theorem hasTexts_mixedMembers : HasTexts mixedMembers := by
  constructor
  · exact named_iff.mp (by decide)
  · show ∀ member ∈ [(plainPieces "id", Tree.null), (plainPieces "name", openName)],
      HasText member.2
    rw [List.forall_mem_cons, List.forall_mem_singleton]
    exact ⟨nofun, hasText_openName⟩

theorem mixed_command_is_read_by_shape :
    Spells literalSpelling (.object mixedMembers) mixedObject.toList ∧ HasTexts mixedMembers ∧
    read mixedObject = .ok (.ofName "open") ∧
    read "\x7b\"name\":\"open\",\"id\":null\x7d" = .ok (.ofName "open") ∧
    IsCommandList [.null, openName] ∧
    read "\x7b\"id\":null,\"command\":\"open\"\x7d" = read "[null,\"open\"]" := by
  have hopen := spells_plainPieces "open" rfl
  have hreordered : Spells literalSpelling
      (.object [(plainPieces "name", openName), (plainPieces "id", .null)])
      "\x7b\"name\":\"open\",\"id\":null\x7d".toList :=
    Spells.object (.cons (spells_plainPieces "name" rfl) hopen
      (.last (spells_plainPieces "id" rfl) .null))
  have hlist : Spells literalSpelling (.array [.null, openName]) "[null,\"open\"]".toList :=
    Spells.array (.cons .null (.last hopen))
  have hobject : Spells literalSpelling
      (.object ([plainPieces "id", plainPieces "command"].zip [.null, openName]))
      "\x7b\"id\":null,\"command\":\"open\"\x7d".toList :=
    Spells.object (.cons (spells_plainPieces "id" rfl) .null
      (.last (spells_plainPieces "command" rfl) hopen))
  have hmixed := command_is_read_by_shape.1 spells_mixedObject hasTexts_mixedMembers
  have hread : read mixedObject = .ok (.ofName "open") :=
    (hmixed.2.1 _).mpr ⟨by decide, .present rfl, ⟨_, rfl, rfl⟩, .absent, .absent, .absent⟩
  have hsame := hmixed.2.2 hreordered (named_iff.mp (by decide)) (.swap _ _ _)
  have hitems : ∀ item ∈ [Tree.null, openName], HasText item := by
    rw [List.forall_mem_cons, List.forall_mem_singleton]
    exact ⟨nofun, hasText_openName⟩
  have hshape : IsCommandList [.null, openName] := by
    refine ⟨Nat.le_refl 2, by decide, ?_, ?_⟩
    · rintro _ ⟨⟩
      exact Or.inl rfl
    · intro item hitem
      obtain ⟨rfl⟩ := List.mem_singleton.mp hitem
      exact ⟨_, rfl⟩
  refine ⟨spells_mixedObject, hasTexts_mixedMembers, hread, ?_, hshape,
    (command_is_read_by_shape.2 hlist hitems).2 hshape rfl hobject⟩
  rw [← toOption_eq_some_iff, hsame, hread]
  rfl

end Command

end StepFlow
