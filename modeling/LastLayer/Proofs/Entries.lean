import LastLayer.Case.Reader
import Mathlib.Data.List.Nodup

/-!
# Which entries are cases

A case is read from an object or from an array. What the value says of a field is the value of the
field's key or the item in the field's place (`Case.held?`), and `Json.ReadsAsText` and
`Json.ReadsAsNumber` say what is read of it. A value can be read just if it has one of the two forms
and holds no array and no object in a field (`Case.ofJson_eq_ok_iff`).

So nothing else of a value counts: not its form, not the order of its keys, and not what its other
keys hold (`Case.entries_read_field_by_field`).
-/

namespace LastLayer

/-! ## Members of an object -/

namespace Json

variable {key : String} {members : List (String × Json)}

theorem member?_eq_none_iff : member? key members = none ↔ ∀ member ∈ members, member.1 ≠ key := by
  induction members with
  | nil => simp
  | cons member members ih =>
    obtain ⟨name, value⟩ := member
    simp [member?_cons, ih, and_comm]

/-- If no key stands twice, a member need not be the last one with its key. -/
theorem member?_eq_some_iff_mem (h : (members.map Prod.fst).Nodup) {value : Json} :
    member? key members = some value ↔ (key, value) ∈ members := by
  induction members with
  | nil => simp
  | cons member members ih =>
    obtain ⟨name, first⟩ := member
    rw [List.map_cons, List.nodup_cons] at h
    rw [member?_cons, List.mem_cons, Prod.mk.injEq, ← ih h.2]
    by_cases hkey : name = key
    · -- the key stands here and nowhere else
      subst hkey
      have hnone : member? name members = none :=
        member?_eq_none_iff.2 fun other hother hsame => h.1 (List.mem_map.2 ⟨other, hother, hsame⟩)
      simp [hnone, eq_comm]
    · simp [hkey, Ne.symm hkey]

/-- The order of members with different keys counts for nothing. -/
theorem member?_eq_of_perm {others : List (String × Json)} (hperm : members.Perm others)
    (h : (members.map Prod.fst).Nodup) (key : String) :
    member? key members = member? key others := by
  have hothers : (others.map Prod.fst).Nodup := (hperm.map Prod.fst).nodup_iff.1 h
  refine Option.ext fun value => ?_
  rw [member?_eq_some_iff_mem h, member?_eq_some_iff_mem hothers, hperm.mem_iff]

/-- Members with other keys can be left out. -/
theorem member?_filter (condition : String → Bool) (h : condition key = true)
    (members : List (String × Json)) :
    member? key (members.filter fun member => condition member.1) = member? key members := by
  induction members with
  | nil => rfl
  | cons member members ih =>
    obtain ⟨name, value⟩ := member
    rw [List.filter_cons, member?_cons]
    split
    next => rw [member?_cons, ih]
    next hname =>
      have hkey : name ≠ key := by
        rintro rfl
        exact hname h
      rw [ih, if_neg hkey, Option.or_none]

/-! ## What is read of a field -/

/-- The text that is read of what a field holds, if it holds anything. Nothing is read of arrays and
objects. -/
inductive ReadsAsText : Option Json → Option String → Prop
  | missing : ReadsAsText none none
  | null : ReadsAsText (some .null) none
  | string (value : String) : ReadsAsText (some (.string value)) (some value)
  | ofTrue : ReadsAsText (some (.bool true)) (some "true")
  | ofFalse : ReadsAsText (some (.bool false)) (some "false")
  | number (value : Json.Number) :
      ReadsAsText (some (.number value)) (some (render (.number value)))

/-- The case number that is read of what a field holds, if it holds anything: a whole number without
sign that fits in 64 bits is a number, and everything else is what it is as a text. -/
inductive ReadsAsNumber : Option Json → Option CaseNumber → Prop
  | missing : ReadsAsNumber none none
  | null : ReadsAsNumber (some .null) none
  | number {value : Nat} (h : value < UInt64.size) :
      ReadsAsNumber (some (ofInt value)) (some (.number value))
  | text {held : Json} {text : String} (hnumber : ∀ value < UInt64.size, held ≠ ofInt value)
      (htext : ReadsAsText (some held) (some text)) :
      ReadsAsNumber (some held) (some (.text text))

theorem readsAsText_iff {held : Option Json} {text : Option String} :
    ReadsAsText held text ↔
      (held.getD .null).isScalar = true ∧ (held.getD .null).scalarText? = text := by
  constructor
  · intro h
    cases h with
    | number value => exact ⟨rfl, by rw [render]; rfl⟩
    | _ => exact ⟨rfl, rfl⟩
  · rintro ⟨hscalar, rfl⟩
    cases held with
    | none => exact .missing
    | some value =>
      cases value with
      | null => exact .null
      | bool value => cases value with
        | true => exact .ofTrue
        | false => exact .ofFalse
      | number value =>
        have h := ReadsAsText.number value
        rw [render] at h
        exact h
      | string value => exact .string value
      | array items => cases hscalar
      | object members => cases hscalar

theorem caseNumber?_ofInt_of_lt {value : Nat} (h : value < UInt64.size) :
    (ofInt value).caseNumber? = some (.number value) := by
  have hfits : (0 : Int) ≤ value ∧ (value : Int) < UInt64.size :=
    ⟨Int.natCast_nonneg value, Int.ofNat_lt.2 h⟩
  rw [ofInt, caseNumber?, if_pos hfits, Int.toNat_natCast]

/-- A scalar that is no number of 64 bits is numbered by its text. -/
theorem caseNumber?_eq_map_text {held : Json} (h : ∀ value < UInt64.size, held ≠ ofInt value) :
    held.caseNumber? = held.scalarText?.map .text := by
  cases held with
  | number held =>
    cases held with
    | integer value =>
      have hfits : ¬ (0 ≤ value ∧ value < UInt64.size) := by
        rintro ⟨hnonneg, hlt⟩
        refine h value.toNat ((Int.toNat_lt hnonneg).2 hlt) ?_
        rw [Int.toNat_of_nonneg hnonneg, ofInt]
      rw [caseNumber?, if_neg hfits]
      rfl
    | real value => rfl
  | _ => rfl

theorem readsAsNumber_iff {held : Option Json} {number : Option CaseNumber} :
    ReadsAsNumber held number ↔
      (held.getD .null).isScalar = true ∧ (held.getD .null).caseNumber? = number := by
  constructor
  · intro h
    cases h with
    | number h => exact ⟨rfl, caseNumber?_ofInt_of_lt h⟩
    | @text held text hnumber htext =>
      obtain ⟨hscalar, htext⟩ := readsAsText_iff.1 htext
      change held.scalarText? = some text at htext
      refine ⟨hscalar, ?_⟩
      rw [Option.getD_some, caseNumber?_eq_map_text hnumber, htext, Option.map_some]
    | _ => exact ⟨rfl, rfl⟩
  · rintro ⟨hscalar, rfl⟩
    cases held with
    | none => exact .missing
    | some held =>
      rw [Option.getD_some] at hscalar ⊢
      by_cases hnumber : ∃ value < UInt64.size, held = ofInt (value : Nat)
      · obtain ⟨value, hlt, rfl⟩ := hnumber
        rw [caseNumber?_ofInt_of_lt hlt]
        exact .number hlt
      · have hother : ∀ value < UInt64.size, held ≠ ofInt (value : Nat) :=
          fun value hlt heq => hnumber ⟨value, hlt, heq⟩
        rw [caseNumber?_eq_map_text hother]
        have htext : ReadsAsText (some held) held.scalarText? := readsAsText_iff.2 ⟨hscalar, rfl⟩
        cases hscalarText : held.scalarText? with
        | none =>
          -- the only scalar without a text is null
          rw [hscalarText] at htext
          cases htext
          exact .null
        | some text => exact .text hother (hscalarText ▸ htext)

end Json

namespace Case

/-- What a value says of a field, if it says anything of it. -/
def held? : Json → Field → Option Json
  | .object members, field => Json.member? field.key members
  | .array items, field => items[field.place]?
  | _, _ => none

/-- A case is what is read of all fields. -/
structure IsReadFrom (entry : Case) (held : Field → Option Json) : Prop where
  number : Json.ReadsAsNumber (held .number) entry.number
  setup : Json.ReadsAsText (held .setup) entry.setup
  rotations : Json.ReadsAsText (held .rotations) entry.rotations
  algorithm : Json.ReadsAsText (held .algorithm) entry.algorithm
  auf : Json.ReadsAsText (held .auf) entry.auf
  code : Json.ReadsAsText (held .code) entry.code
  probability : Json.ReadsAsText (held .probability) entry.probability
  category : Json.ReadsAsText (held .category) entry.category

theorem isReadFrom_iff {entry : Case} {held : Field → Option Json} :
    entry.IsReadFrom held ↔
      (∀ field, ((held field).getD .null).isScalar = true) ∧
        ofFields (fun field => (held field).getD .null) = entry := by
  constructor
  · intro h
    refine ⟨fun field => ?_, ?_⟩
    · cases field with
      | number => exact (Json.readsAsNumber_iff.1 h.number).1
      | setup => exact (Json.readsAsText_iff.1 h.setup).1
      | rotations => exact (Json.readsAsText_iff.1 h.rotations).1
      | algorithm => exact (Json.readsAsText_iff.1 h.algorithm).1
      | auf => exact (Json.readsAsText_iff.1 h.auf).1
      | code => exact (Json.readsAsText_iff.1 h.code).1
      | probability => exact (Json.readsAsText_iff.1 h.probability).1
      | category => exact (Json.readsAsText_iff.1 h.category).1
    · exact Case.ext (Json.readsAsNumber_iff.1 h.number).2 (Json.readsAsText_iff.1 h.setup).2
        (Json.readsAsText_iff.1 h.rotations).2 (Json.readsAsText_iff.1 h.algorithm).2
        (Json.readsAsText_iff.1 h.auf).2 (Json.readsAsText_iff.1 h.code).2
        (Json.readsAsText_iff.1 h.probability).2 (Json.readsAsText_iff.1 h.category).2
  · rintro ⟨hscalar, rfl⟩
    have htext : ∀ field, Json.ReadsAsText (held field) ((held field).getD .null).scalarText? :=
      fun field => Json.readsAsText_iff.2 ⟨hscalar field, rfl⟩
    exact ⟨Json.readsAsNumber_iff.2 ⟨hscalar .number, rfl⟩, htext .setup, htext .rotations,
      htext .algorithm, htext .auf, htext .code, htext .probability, htext .category⟩

/-! ## Which values are cases -/

/-- Whether a value has one of the two forms of a case: an object, or an array with no more items
than there are fields. -/
def IsForm : Json → Prop
  | .object _ => True
  | .array items => items.length ≤ Field.byPlace.length
  | _ => False

theorem ofJson_eq_ok_iff {value : Json} {entry : Case} :
    ofJson value = .ok entry ↔ IsForm value ∧ entry.IsReadFrom (held? value) := by
  cases value with
  | object members =>
    rw [ofJson, read_eq_ok_iff, isReadFrom_iff, IsForm, true_and]
    simp only [Field.mem_byKey, forall_true_left]
    rfl
  | array items =>
    have hheld : arrayField items = fun field => (held? (.array items) field).getD .null :=
      funext fun field => List.getD_eq_getElem?_getD
    have hread : read Field.byPlace (arrayField items) = .ok entry ↔
        entry.IsReadFrom (held? (.array items)) := by
      rw [read_eq_ok_iff, isReadFrom_iff, hheld]
      simp only [Field.mem_byPlace, forall_true_left]
    rw [← hread, ofJson, IsForm]
    cases read Field.byPlace (arrayField items) with
    | error error => exact iff_of_false (by rintro ⟨⟩) (by rintro ⟨-, ⟨⟩⟩)
    | ok other =>
      -- the length is looked at when the items have been read
      change (if _ then Except.ok other else Except.error _) = Except.ok entry ↔ _
      split
      next hlength => exact (and_iff_right hlength).symm
      next hlength => exact iff_of_false (by rintro ⟨⟩) fun h => hlength h.1
  | _ => exact iff_of_false (by rintro ⟨⟩) And.left

theorem isScalar_getD_iff {held : Option Json} :
    (held.getD .null).isScalar = true ↔ ∀ value, held = some value → value.isScalar = true := by
  cases held with
  | none => exact iff_of_true rfl fun _ h => by cases h
  | some value => simp

theorem exists_ofJson_eq_ok_iff {value : Json} :
    (∃ entry, ofJson value = .ok entry) ↔
      IsForm value ∧ ∀ field held, held? value field = some held → held.isScalar = true := by
  simp only [ofJson_eq_ok_iff, isReadFrom_iff, exists_and_left, exists_eq', and_true,
    isScalar_getD_iff]

/-- There is a field for every place of an array that is not too long. -/
theorem Field.exists_place_eq {place : Nat} (h : place < byPlace.length) :
    ∃ field : Field, field.place = place := by
  have hplaces : ∀ place : Fin byPlace.length, (byPlace.get place).place = place := by decide
  exact ⟨byPlace.get ⟨place, h⟩, hplaces ⟨place, h⟩⟩

/-- In an array that is not too long all items belong to fields. -/
theorem forall_held?_array_iff {items : List Json} (h : items.length ≤ Field.byPlace.length) :
    (∀ field held, held? (.array items) field = some held → held.isScalar = true) ↔
      ∀ item ∈ items, item.isScalar = true := by
  constructor
  · intro hfields item hitem
    obtain ⟨place, hplace⟩ := List.mem_iff_getElem?.1 hitem
    have hlt : place < items.length := (List.getElem?_eq_some_iff.1 hplace).1
    obtain ⟨field, rfl⟩ := Field.exists_place_eq (Nat.lt_of_lt_of_le hlt h)
    exact hfields field item hplace
  · intro hitems field held hheld
    exact hitems held (List.mem_of_getElem? hheld)

/-- An object is a case just if its known keys hold scalars, an array if it is not too long and
holds nothing but scalars, and no other value is one. -/
theorem exists_ofJson_eq_ok_iff_forms {value : Json} :
    (∃ entry, ofJson value = .ok entry) ↔
      (∃ members, value = .object members ∧ ∀ field held,
        Json.member? (Field.key field) members = some held → held.isScalar = true) ∨
      ∃ items, value = .array items ∧ items.length ≤ Field.byPlace.length ∧
        ∀ item ∈ items, item.isScalar = true := by
  rw [exists_ofJson_eq_ok_iff]
  constructor
  · rintro ⟨hform, hscalar⟩
    cases value with
    | object members => exact .inl ⟨members, rfl, hscalar⟩
    | array items => exact .inr ⟨items, rfl, hform, (forall_held?_array_iff hform).1 hscalar⟩
    | _ => cases hform
  · rintro (⟨members, rfl, hscalar⟩ | ⟨items, rfl, hlength, hscalar⟩)
    · exact ⟨trivial, hscalar⟩
    · exact ⟨hlength, (forall_held?_array_iff hlength).2 hscalar⟩

/-! ## What does not count -/

/-- The members of an object whose keys are those of fields. -/
def knownMembers (members : List (String × Json)) : List (String × Json) :=
  members.filter fun member => Field.byKey.any (·.key = member.1)

theorem held?_knownMembers (members : List (String × Json)) (field : Field) :
    held? (.object (knownMembers members)) field = held? (.object members) field := by
  have hknown : Field.byKey.any (·.key = field.key) = true :=
    List.any_eq_true.2 ⟨field, field.mem_byKey, decide_eq_true rfl⟩
  exact Json.member?_filter (fun key => Field.byKey.any (·.key = key)) hknown members

/-- An object is read by what its known keys hold, whatever their order. -/
theorem ofJson_object_congr {members others : List (String × Json)}
    (h : ∀ field, held? (.object members) field = held? (.object others) field) :
    ofJson (.object members) = ofJson (.object others) := by
  have hfields : objectField members = objectField others :=
    funext fun field => congrArg (fun held => held.getD .null) (h field)
  rw [ofJson, ofJson, hfields]

theorem ofJson_eq_of_perm {members others : List (String × Json)}
    (hperm : (knownMembers members).Perm (knownMembers others))
    (h : ((knownMembers members).map Prod.fst).Nodup) :
    ofJson (.object members) = ofJson (.object others) := by
  refine ofJson_object_congr fun field => ?_
  rw [← held?_knownMembers members, ← held?_knownMembers others]
  exact Json.member?_eq_of_perm hperm h field.key

/-- An object and an array that say the same of every field are read as the same case. -/
theorem exists_ofJson_eq_of_held?_eq {members : List (String × Json)} {items : List Json}
    (hlength : items.length ≤ Field.byPlace.length) (hscalar : ∀ item ∈ items, item.isScalar = true)
    (hsame : ∀ field, (held? (.object members) field).getD .null =
      (held? (.array items) field).getD .null) :
    ∃ entry, ofJson (.object members) = .ok entry ∧ ofJson (.array items) = .ok entry := by
  have hform : IsForm (.array items) := hlength
  obtain ⟨entry, hentry⟩ :=
    exists_ofJson_eq_ok_iff.2 ⟨hform, (forall_held?_array_iff hlength).2 hscalar⟩
  refine ⟨entry, ?_, hentry⟩
  have hread := (ofJson_eq_ok_iff.1 hentry).2
  rw [isReadFrom_iff] at hread
  simp only [← hsame] at hread
  exact ofJson_eq_ok_iff.2 ⟨trivial, isReadFrom_iff.2 hread⟩

/-- An entry is a case just if it is an object in which no known key holds an array or an object, or
an array of at most eight items, none of them an array or an object. It is read field by field. An
object and an array that say the same of every field, null being the same as nothing, are the same
case, and so are two objects that differ in the order of their keys and in what unknown keys
hold. -/
theorem entries_read_field_by_field :
    (∀ value, (∃ entry, ofJson value = .ok entry) ↔
      (∃ members, value = .object members ∧ ∀ field held,
        Json.member? (Field.key field) members = some held → held.isScalar = true) ∨
      ∃ items, value = .array items ∧ items.length ≤ 8 ∧ ∀ item ∈ items, item.isScalar = true) ∧
    (∀ value entry, ofJson value = .ok entry → entry.IsReadFrom (held? value)) ∧
    (∀ members items, items.length ≤ 8 → (∀ item ∈ items, item.isScalar = true) →
      (∀ field, (held? (.object members) field).getD .null =
        (held? (.array items) field).getD .null) →
      ∃ entry, ofJson (.object members) = .ok entry ∧ ofJson (.array items) = .ok entry) ∧
    ∀ members others, (knownMembers members).Perm (knownMembers others) →
      ((knownMembers members).map Prod.fst).Nodup →
      ofJson (.object members) = ofJson (.object others) := by
  refine ⟨fun value => exists_ofJson_eq_ok_iff_forms, ?_, ?_, ?_⟩
  · intro value entry h
    exact (ofJson_eq_ok_iff.1 h).2
  · intro members items hlength hscalar hsame
    exact exists_ofJson_eq_of_held?_eq hlength hscalar hsame
  · intro members others hperm hnodup
    exact ofJson_eq_of_perm hperm hnodup

/-- An array with gaps and an object with its keys in another order and with a key that is unknown,
under which values are nested, are the same case. A negative number is read as its text. -/
theorem entries_read_field_by_field_in_two_forms :
    let items : List Json := [.ofInt (-2), .null, .null, .string "R U", .null, .bool true]
    let members : List (String × Json) :=
      [("code", .bool true), ("notes", .array [.object [], .null]), ("algorithm", .string "R U"),
        ("number", .ofInt (-2))]
    ∃ entry, ofJson (.array items) = .ok entry ∧ ofJson (.object members) = .ok entry ∧
      ofJson (.object members.reverse) = .ok entry ∧ entry.number = some (.text "-2") ∧
      entry.algorithm = some "R U" ∧ entry.code = some "true" ∧ entry.auf = none := by
  intro items members
  obtain ⟨-, hread, hforms, horder⟩ := entries_read_field_by_field
  have hscalar : ∀ item ∈ items, item.isScalar = true := List.all_eq_true.1 rfl
  have hsame : ∀ field, (held? (.object members) field).getD .null =
      (held? (.array items) field).getD .null := by
    intro field
    cases field <;> rfl
  have hperm : (knownMembers members).Perm (knownMembers members.reverse) :=
    (List.reverse_perm members).symm.filter _
  obtain ⟨entry, hobject, harray⟩ := hforms members items (by decide) hscalar hsame
  have hentry : entry.IsReadFrom (held? (.array items)) := hread _ entry harray
  refine ⟨entry, harray, hobject, ?_, ?_, ?_, ?_, ?_⟩
  · rw [← horder members members.reverse hperm (by decide)]
    exact hobject
  · exact (Json.readsAsNumber_iff.1 hentry.number).2.symm
  · exact (Json.readsAsText_iff.1 hentry.algorithm).2.symm
  · exact (Json.readsAsText_iff.1 hentry.code).2.symm
  · exact (Json.readsAsText_iff.1 hentry.auf).2.symm

end Case

end LastLayer
