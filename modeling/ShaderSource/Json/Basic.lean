import ShaderSource.Number.Binary64

/-!
# JSON values

The values of JSON, with the members of an object in the order in which they
are written. A member is looked up by name; of several with one name the last
one counts.
-/

namespace ShaderSource

inductive Json where
  | null
  | bool (value : Bool)
  | number (value : Binary64)
  | string (text : String)
  | array (items : List Json)
  | object (members : List (String × Json))

namespace Json

instance : Inhabited Json := ⟨null⟩

/-- A member of a list of members, with the fact that it is smaller than the list. -/
def lookup? (name : String) :
    (members : List (String × Json)) → Option { member : Json // sizeOf member < sizeOf members }
  | [] => none
  | (key, value) :: rest =>
    match lookup? name rest with
    | some ⟨member, smaller⟩ =>
      some ⟨member, by simp only [List.cons.sizeOf_spec]; omega⟩
    | none =>
      if key = name then
        some ⟨value, by simp only [List.cons.sizeOf_spec, Prod.mk.sizeOf_spec]; omega⟩
      else none

/-- A member of an object, with the fact that it is smaller than the object. -/
def member? (json : Json) (name : String) :
    Option { member : Json // sizeOf member < sizeOf json } :=
  match json with
  | object members =>
    (lookup? name members).map fun ⟨member, smaller⟩ =>
      ⟨member, by simp only [object.sizeOf_spec]; omega⟩
  | _ => none

/-- The text of a string. -/
def string? : Json → Option String
  | string text => some text
  | _ => none

/-- The truth value of a Boolean. -/
def bool? : Json → Option Bool
  | bool value => some value
  | _ => none

/-- The items of an array. -/
def array? : Json → Option (List Json)
  | array items => some items
  | _ => none

/-- The text of a member that is a string. -/
def stringMember? (json : Json) (name : String) : Option String := do
  let ⟨member, _⟩ ← json.member? name
  member.string?

/-- The truth value of a member that is a Boolean. -/
def boolMember? (json : Json) (name : String) : Option Bool := do
  let ⟨member, _⟩ ← json.member? name
  member.bool?

end Json

end ShaderSource
