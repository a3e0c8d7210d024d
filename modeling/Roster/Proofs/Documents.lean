import Roster.Proofs.Attributes
import Roster.Proofs.Values

/-!
What documents say of resources.

A document says something of the attributes of a resource, of its status and, for a group, of its members. What it
says is found at fixed places in it, whatever else stands there.
-/

set_option autoImplicit false

namespace Roster

variable {k : Kind}

/-! ## Attributes -/

namespace Json

/-- The value is a text, torn or not. -/
def isText : Json → Bool
  | .str _ | .torn _ => true
  | _ => false

theorem isNull_of_isText {text : Json} (htext : text.isText = true) : text.isNull = false := by
  cases text
  case str | torn => rfl
  all_goals cases htext

/-- The first item of an array, where null stands for an absent one. -/
def firstOrNull : Json → Json
  | .arr (item :: _) => item
  | _ => .null

/-- What a document says of the attributes that a client writes, in the order of the schema. -/
def attributes (document : Json) : (k : Kind) → List (Column k × Json)
  | .user => [
    (.firstName, (document.fieldOrNull "name").fieldOrNull "givenName"),
    (.lastName, (document.fieldOrNull "name").fieldOrNull "familyName"),
    (.email, (document.fieldOrNull "emails").firstOrNull.fieldOrNull "value")]
  | .group => [
    (.displayName, document.fieldOrNull "displayName"),
    (.email, document.fieldOrNull "email")]

/-- The names of the attributes that a document leaves out or leaves empty, in the order of the schema. -/
def missing (document : Json) (k : Kind) : List String :=
  ((document.attributes k).filter fun p => p.2 = .null ∨ p.2 = .str "").map fun p => p.1.name

theorem isProfile_attributes (document : Json) : ∀ p ∈ document.attributes k, p.1.isProfile = true := by
  cases k <;> simp [attributes, Column.isProfile]

theorem nodup_attributes (document : Json) : ((document.attributes k).map Prod.fst).Nodup := by
  cases k <;> simp [attributes]

theorem nodup_names_attributes (document : Json) : ((document.attributes k).map fun p => p.1.name).Nodup := by
  cases k <;> simp [attributes, Column.name]

private theorem getD_bind_field? (value : Option Json) (name : String) :
    (value.bind (field? name)).getD .null = (value.getD .null).fieldOrNull name := by
  cases value <;> rfl

end Json

namespace Schema

private theorem note_of_isNull {value : Json} (hnull : value.isNull = true) (name : String) (found : Values) :
    note name (some value) found = found := by
  cases value
  case null => rfl
  all_goals cases hnull

private theorem note_of_value {value : Json} (hnull : value.isNull = false) (name : String) (found : Values) :
    note name (some value) found =
      match found.lookup name with
      | none => found ++ [(name, value)]
      | some _ => found := by
  cases value
  case null => cases hnull
  all_goals
    rw [note.eq_def]
    cases found.lookup name <;> rfl

/-- A value is noted for its own field, unless that has one. -/
theorem lookup_note (name other : String) (value : Option Json) (found : Values) :
    (note name value found).lookup other =
      (found.lookup other).or (if other = name then value.filter fun v => !v.isNull else none) := by
  cases value with
  | none => simp [note]
  | some v =>
    cases hnull : v.isNull with
    | true => rw [note_of_isNull hnull, Option.filter_some, hnull, Bool.not_true, if_neg Bool.false_ne_true, ite_self,
        Option.or_none]
    | false =>
      rw [note_of_value hnull, Option.filter_some, hnull, Bool.not_false, if_pos rfl]
      by_cases hname : other = name
      · subst hname
        cases hfound : found.lookup other with
        | none => simp [List.lookup_append, hfound]
        | some _ => simp [hfound]
      · have hne : (other == name) = false := beq_eq_false_iff_ne.2 hname
        rw [if_neg hname, Option.or_none]
        split
        · rw [List.lookup_append, List.lookup_cons, hne, List.lookup_nil, Option.or_none]
        · rfl

/-- What a client writes of a resource stands at a fixed place for each attribute. -/
theorem extract_writable (k : Kind) (document : Json) :
    (writable k).extract document = (document.attributes k).map fun p => (p.1.name, p.2) := by
  have hvalue (value : Option Json) : (value.filter fun v => !v.isNull).getD .null = value.getD .null := by
    cases value with
    | none => rfl
    | some v => cases v <;> rfl
  have hfirst (value : Option Json) : (item? 0 value).getD .null = (value.getD .null).firstOrNull := by
    cases value with
    | none => rfl
    | some v =>
      cases v
      case arr items => cases items <;> rfl
      all_goals rfl
  cases k with
  | user =>
    have hnames : (writable .user).fields.eraseDups = ["first_name", "last_name", "email"] := by decide +kernel
    have hcollect : (writable .user).collect (some document) [] =
        note "email" ((item? 0 (document.field? "emails")).bind (Json.field? "value"))
          (note "last_name" ((document.field? "name").bind (Json.field? "familyName"))
            (note "first_name" ((document.field? "name").bind (Json.field? "givenName")) [])) := rfl
    rw [extract, hnames, hcollect]
    simp [lookup_note, hvalue, hfirst, Json.getD_bind_field?, Json.attributes, Column.name, Json.fieldOrNull]
  | group =>
    have hnames : (writable .group).fields.eraseDups = ["display_name", "email"] := by decide +kernel
    have hcollect : (writable .group).collect (some document) [] =
        note "email" (document.field? "email") (note "display_name" (document.field? "displayName") []) := rfl
    rw [extract, hnames, hcollect]
    simp [lookup_note, hvalue, Json.attributes, Column.name, Json.fieldOrNull]

end Schema

private theorem isMissing_some (value : Json) :
    isMissing (some value) = decide (value = .null ∨ value = .str "") := by
  by_cases hnull : value = .null
  · rw [hnull]
    rfl
  · by_cases hempty : value = .str ""
    · rw [hempty]
      rfl
    · rw [decide_eq_false (not_or.2 ⟨hnull, hempty⟩), isMissing]
      · rintro ⟨⟩
        exact hnull rfl
      · rintro ⟨⟩
        exact hempty rfl

/-- A document says all that a resource has to have, unless it leaves an attribute out or leaves it empty. -/
theorem Config.IsStandard.complete_eq {c : Config} (h : c.IsStandard) {document : Json}
    (hobject : document.isObject = true) :
    (c.resource k).complete document =
      match document.missing k with
      | [] => .ok ((Schema.writable k).extract document)
      | names => .error (.missingAttributes names) := by
  have hnames : (Schema.writable k).fields.eraseDups = (document.attributes k).map fun p => p.1.name := by
    cases k with
    | user =>
      have huser : (Schema.writable .user).fields.eraseDups = ["first_name", "last_name", "email"] := by decide +kernel
      exact huser
    | group =>
      have hgroup : (Schema.writable .group).fields.eraseDups = ["display_name", "email"] := by decide +kernel
      exact hgroup
  have hmissing : ((Schema.writable k).fields.eraseDups.filter fun name =>
      isMissing (((Schema.writable k).extract document).lookup name)) = document.missing k := by
    rw [hnames, Schema.extract_writable, List.filter_map, Json.missing]
    congr 1
    refine List.filter_congr fun p hp => ?_
    have hlookup : ((document.attributes k).map fun p => (p.1.name, p.2)).lookup p.1.name = some p.2 := by
      refine lookup_eq_some_of_mem ?_ (List.mem_map_of_mem hp)
      rw [List.map_map]
      exact document.nodup_names_attributes
    rw [Function.comp_apply, hlookup, isMissing_some]
  cases hnone : document.missing k with
  | nil => simp only [ResourceConfig.complete, hobject, if_true, h.mutableSchema, h.required, hmissing.trans hnone]
  | cons name names =>
    simp only [ResourceConfig.complete, hobject, if_true, h.mutableSchema, h.required, hmissing.trans hnone]

/-! ## Status -/

/-- The status that a value asks for, or null asks for none; other values ask for nothing that makes sense. -/
def Json.status? (value : Json) : Option (Option Bool) :=
  if value = .null then some none
  else if value ∈ [.bool true, .str "true", .int 1] then some (some true)
  else if value ∈ [.bool false, .str "false", .int 0] then some (some false)
  else none

theorem parseActive_eq (value : Json) :
    parseActive value =
      match value.status? with
      | some status => .ok status
      | none => .error (.active value) := by
  unfold parseActive
  split
  case h_7 hnull hbool hone hzero htrue hfalse =>
    have hstatus : value.status? = none := by
      rw [Json.status?, if_neg hnull, if_neg, if_neg]
      · simp only [List.mem_cons, List.not_mem_nil, or_false, not_or]
        exact ⟨hbool false, hfalse, hzero⟩
      · simp only [List.mem_cons, List.not_mem_nil, or_false, not_or]
        exact ⟨hbool true, htrue, hone⟩
    rw [hstatus]
  case h_2 b => cases b <;> rfl
  all_goals rfl

/-! ## Members -/

namespace Members

/-- The values that the members of a list give for users, if it is an array of objects with a value each. -/
def values? : Json → Option (List Json)
  | .arr members =>
    if members.all fun m => m.fieldOrNull "value" ≠ .null then some (members.map (Json.fieldOrNull "value")) else none
  | _ => none

private theorem identifier?_eq (member : Json) :
    identifier? member =
      if member.fieldOrNull "value" = .null then none else some (member.fieldOrNull "value") := by
  rw [identifier?, Json.fieldOrNull]
  split
  next hnull =>
    rw [hnull]
    rfl
  next hnull =>
    cases hvalue : member.field? "value" with
    | none => rfl
    | some value =>
      rw [Option.getD_some, if_neg]
      rintro rfl
      exact hnull hvalue

private theorem mapM_identifier?_eq (members : List Json) : members.mapM identifier? = values? (.arr members) := by
  induction members with
  | nil => rfl
  | cons m rest ih =>
    rw [List.mapM_cons, ih, identifier?_eq, values?, values?, List.all_cons]
    by_cases hm : m.fieldOrNull "value" = .null
    · simp [hm]
    · cases rest.all fun m => decide (m.fieldOrNull "value" ≠ .null) <;> simp [hm]

private theorem foldl_addIdentifier_eq (identifiers listed : List Json) :
    identifiers.foldl addIdentifier listed.reverse = List.eraseDupsBy.loop Json.same identifiers listed := by
  induction identifiers generalizing listed with
  | nil => rfl
  | cons identifier rest ih =>
    rw [List.foldl_cons, addIdentifier, List.any_reverse, List.eraseDupsBy.loop]
    cases listed.any (Json.same identifier) with
    | true => exact ih listed
    | false =>
      rw [if_neg Bool.false_ne_true, ← List.reverse_cons]
      exact ih (identifier :: listed)

/-- The identifiers in a list of members are what its members give for users, each that counts as the same as one
before it left out. -/
theorem identifiers?_eq_values? (members : Json) :
    identifiers? members = (values? members).map (List.eraseDupsBy Json.same) := by
  cases members
  case arr members =>
    rw [identifiers?, mapM_identifier?_eq]
    congr 1
    funext identifiers
    exact foldl_addIdentifier_eq identifiers []
  all_goals rfl

end Members

end Roster
