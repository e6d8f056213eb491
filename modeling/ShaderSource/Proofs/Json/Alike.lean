import Mathlib.Data.List.Forall2
import ShaderSource.Json.Basic

/-!
# JSON values up to the order of members

The members of an object are written in some order, which says nothing. Two
values that differ in nothing else are alike. If the members of an object have
different names, all that is alike to it has a member with each of these names,
which is alike to the member of the object.
-/

namespace ShaderSource

namespace Json

/-- Two values that differ in nothing but the order of the members of their objects. -/
inductive Alike : Json → Json → Prop
  | same (json : Json) : Alike json json
  | array {items others : List Json} (each : List.Forall₂ Alike items others) :
      Alike (.array items) (.array others)
  | object {members ordered others : List (String × Json)} (order : members.Perm ordered)
      (names : ordered.map Prod.fst = others.map Prod.fst)
      (values : List.Forall₂ Alike (ordered.map Prod.snd) (others.map Prod.snd)) :
      Alike (.object members) (.object others)

/-- A value has a member with a name, and it is alike to a form. -/
def Holds (json : Json) (name : String) (form : Json) : Prop :=
  ∃ value, json.member? name = some value ∧ value.1.Alike form

/-- A name that is not among some members is not found. -/
theorem lookup?_eq_none {name : String} {members : List (String × Json)}
    (absent : name ∉ members.map Prod.fst) : lookup? name members = none := by
  induction members with
  | nil => rfl
  | cons first rest inductionHypothesis =>
    rw [List.map_cons, List.mem_cons, not_or] at absent
    simp [lookup?, inductionHypothesis absent.2, Ne.symm absent.1]

/-- A member whose name no other member has is found. -/
theorem lookup?_of_mem {name : String} {value : Json} {members : List (String × Json)}
    (distinct : (members.map Prod.fst).Nodup) (member : (name, value) ∈ members) :
    ∃ found, lookup? name members = some found ∧ found.1 = value := by
  induction members with
  | nil => simp at member
  | cons first rest inductionHypothesis =>
    rw [List.map_cons, List.nodup_cons] at distinct
    rcases List.mem_cons.mp member with rfl | later
    · simp [lookup?, lookup?_eq_none distinct.1]
    · obtain ⟨found, known, same⟩ := inductionHypothesis distinct.2 later
      simp only [lookup?, known]
      exact ⟨_, rfl, same⟩

/-- A member stands at the place of each one that it is alike to. -/
theorem exists_of_forall₂ {members others : List (String × Json)}
    (names : members.map Prod.fst = others.map Prod.fst)
    (values : List.Forall₂ Alike (members.map Prod.snd) (others.map Prod.snd)) :
    ∀ entry ∈ others, ∃ value, (entry.1, value) ∈ members ∧ value.Alike entry.2 := by
  induction others generalizing members with
  | nil => simp
  | cons other others inductionHypothesis =>
    cases members with
    | nil => simp at names
    | cons member members =>
      obtain ⟨name, value⟩ := member
      obtain ⟨rfl, further⟩ := List.cons.inj names
      obtain ⟨alike, later⟩ := List.forall₂_cons.mp values
      intro entry known
      rcases List.mem_cons.mp known with rfl | known
      · exact ⟨value, List.mem_cons_self, alike⟩
      · obtain ⟨found, stands, alike⟩ := inductionHypothesis further later entry known
        exact ⟨found, List.mem_cons_of_mem _ stands, alike⟩

namespace Alike

variable {json : Json}

/-- Only a text is alike to itself. -/
theorem eq_string {text : String} (alike : json.Alike (.string text)) : json = .string text := by
  cases alike
  rfl

/-- Only a truth value is alike to itself. -/
theorem eq_bool {value : Bool} (alike : json.Alike (.bool value)) : json = .bool value := by
  cases alike
  rfl

/-- Only null is alike to itself. -/
theorem eq_null (alike : json.Alike .null) : json = .null := by
  cases alike
  rfl

/-- What is alike to an array is one, with alike items in their order. -/
theorem eq_array {others : List Json} (alike : json.Alike (.array others)) :
    ∃ items, json = .array items ∧ List.Forall₂ Alike items others := by
  cases alike with
  | same => exact ⟨others, rfl, List.forall₂_same.mpr fun item _ => .same item⟩
  | array each => exact ⟨_, rfl, each⟩

/-- What is alike to an object whose members have different names has a member for each of them. -/
theorem holds {members : List (String × Json)} (alike : json.Alike (.object members))
    (distinct : (members.map Prod.fst).Nodup) :
    ∀ entry ∈ members, json.Holds entry.1 entry.2 := by
  have found : ∀ {given : List (String × Json)} {name : String} {value form : Json},
      (given.map Prod.fst).Nodup → (name, value) ∈ given → value.Alike form →
        (Json.object given).Holds name form := by
    intro given name value form distinct stands alike
    obtain ⟨found, known, rfl⟩ := lookup?_of_mem distinct stands
    exact ⟨_, by simp only [member?, known]; rfl, alike⟩
  intro entry member
  cases alike with
  | same => exact found distinct member (.same _)
  | object order names values =>
    obtain ⟨value, stands, alike⟩ := exists_of_forall₂ names values entry member
    have distinct' := (order.map Prod.fst).nodup_iff.mpr (names ▸ distinct)
    exact found distinct' (order.mem_iff.mpr stands) alike

/-- What is alike to an object with a single member is such an object. -/
theorem eq_single {name : String} {form : Json} (alike : json.Alike (.object [(name, form)])) :
    ∃ value, json = .object [(name, value)] ∧ value.Alike form := by
  cases alike with
  | same => exact ⟨form, rfl, .same form⟩
  | @object members ordered _ order names values =>
    match ordered, names, values with
    | [(key, value)], names, values =>
      obtain ⟨rfl, _⟩ := List.cons.inj names
      rw [List.perm_singleton.mp order]
      exact ⟨value, rfl, (List.forall₂_cons.mp values).1⟩

end Alike

namespace Holds

variable {json : Json} {name : String}

/-- A member with a text is found as it. -/
theorem stringMember? {text : String} (holds : json.Holds name (.string text)) :
    json.stringMember? name = some text := by
  obtain ⟨value, found, alike⟩ := holds
  simp [Json.stringMember?, found, alike.eq_string, string?]

/-- A member with a truth value is found as it. -/
theorem boolMember? {truth : Bool} (holds : json.Holds name (.bool truth)) :
    json.boolMember? name = some truth := by
  obtain ⟨value, found, alike⟩ := holds
  simp [Json.boolMember?, found, alike.eq_bool, bool?]

end Holds

/-- Values keep everything in their JSON form, and reading forms makes nothing of the order of
    members. -/
structure Lossless {α : Type} (encode : α → Json) (decode : Json → Option α) : Prop where
  /-- A value is decoded from its form. -/
  decoded : ∀ value, decode (encode value) = some value
  injective : Function.Injective encode
  /-- What is the form of some value is the form of what it is decoded to. -/
  encoded : ∀ json value, json.Alike (encode value) →
    ∃ again, decode json = some again ∧ json.Alike (encode again)

/-- Values that are decoded from all that is alike to their forms lose nothing. -/
theorem Lossless.of_alike {α : Type} {encode : α → Json} {decode : Json → Option α}
    (read : ∀ json value, json.Alike (encode value) → decode json = some value) :
    Lossless encode decode where
  decoded value := read _ value (.same _)
  injective value other same := by
    have first := read _ value (.same _)
    rw [same, read _ other (.same _)] at first
    exact (Option.some.inj first).symm
  encoded json value alike := ⟨value, read json value alike, alike⟩

end Json

end ShaderSource
