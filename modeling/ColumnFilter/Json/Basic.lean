import ColumnFilter.Number.Basic

/-!
# JSON values

The members of an object are kept in order and with repeated names, because
readers differ in what a repeated name means to them.  A part that has the form
of JSON but stands for nothing is kept as well, because some readers pass it over.
-/

namespace ColumnFilter

/-- A JSON value. -/
inductive Json where
  | null
  | boolean (value : Bool)
  | number (value : Number)
  | text (value : String)
  | array (items : List Json)
  | object (members : List (String × Json))
  /-- What stands for nothing: a number out of range, a text with half a pair in it, or an
  object with such a text as a name. -/
  | unreadable

namespace Json

/-- The text of a JSON text. -/
def text? : Json → Option String
  | text s => some s
  | _ => none

/-- The items of an array. -/
def array? : Json → Option (List Json)
  | array items => some items
  | _ => none

/-- The object of some members, unless one of the names stands for nothing. -/
def ofMembers (members : List (Option String × Json)) : Json :=
  match members.mapM fun m => m.1.map (·, m.2) with
  | some members => object members
  | none => unreadable

/-- The last member with a name, if the value is an object that has one. -/
def member? (name : String) : Json → Option Json
  | object members => (members.reverse.find? (·.1 == name)).map (·.2)
  | _ => none

end Json

end ColumnFilter
