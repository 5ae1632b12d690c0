import ColumnFilter.Json.Basic

/-!
# Records in JSON

A record with named fields is written as an object, or as an array of its fields
in their order.  In an object a field may be absent but not repeated, and other
names are passed over; in an array fields may be absent at the end only.
-/

namespace ColumnFilter.Json

/-- The fields of an array, of which there are at most as many as there are names. -/
def fieldsInOrder? : List String → List Json → Option (List (Option Json))
  | [], [] => some []
  | [], _ :: _ => none
  | _ :: names, [] => (fieldsInOrder? names []).map (none :: ·)
  | _ :: names, v :: vs => (fieldsInOrder? names vs).map (some v :: ·)

/-- The members with a name. -/
def membersNamed (name : String) (members : List (String × Json)) : List Json :=
  (members.filter (·.1 == name)).map (·.2)

/-- The fields of an object, each of which is there at most once. -/
def fieldsByName? (members : List (String × Json)) : List String → Option (List (Option Json))
  | [] => some []
  | name :: names =>
    match membersNamed name members with
    | [] => (fieldsByName? members names).map (none :: ·)
    | [v] => (fieldsByName? members names).map (some v :: ·)
    | _ => none

/-- The fields of a record, in the order of their names. -/
def fields? (names : List String) : Json → Option (List (Option Json))
  | object members => fieldsByName? members names
  | array items => fieldsInOrder? names items
  | _ => none

/-- The name of a case without data: a text, or an object whose one member is `null`. -/
def caseName? : Json → Option String
  | text s => some s
  | object [(s, null)] => some s
  | _ => none

/-- What a field holds, or what it stands for when it is absent. -/
def fieldOr {α : Type} (absent : Option α) (read : Json → Option α) : Option Json → Option α
  | none => absent
  | some v => read v

/-- What the items of an array hold. -/
def list? {α : Type} (read : Json → Option α) : Json → Option (List α)
  | array items => items.mapM read
  | _ => none

end ColumnFilter.Json
