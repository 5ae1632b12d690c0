import ColumnFilter.Filter.Basic
import ColumnFilter.Json.Parse
import ColumnFilter.Json.Print
import ColumnFilter.Json.Record

/-!
# Stored filters

A filter is stored as JSON.  There are two ways back.  The strict one accepts
what has the form of a stored filter, with absent fields filled in.  The lenient
one takes any value: what does not fit becomes empty, `null` or `eq`, and
unknown connectors are dropped.
-/

namespace ColumnFilter

namespace Scalar

/-- The stored form of a literal. -/
def toJson : Scalar → Json
  | null => .null
  | boolean b => .boolean b
  | number x => .number x
  | text s => .text s

/-- The literal of a stored form. -/
def ofJson? : Json → Option Scalar
  | .null => some null
  | .boolean b => some (boolean b)
  | .number x => some (number x)
  | .text s => some (text s)
  | _ => none

/-- The literal of any value; what is none becomes `null`. -/
def ofAnyJson : Json → Scalar
  | .boolean b => boolean b
  | .number x => number x
  | .text s => text s
  | .null | .array _ | .object _ | .unreadable => null

theorem ofJson?_toJson (s : Scalar) : ofJson? s.toJson = some s := by
  cases s <;> rfl

end Scalar

namespace Value

/-- The stored form of a value. -/
def toJson : Value → Json
  | single item => item.toJson
  | list items => .array (items.map Scalar.toJson)

/-- The value of a stored form. -/
def ofJson? : Json → Option Value
  | .array items => (items.mapM Scalar.ofJson?).map list
  | v => (Scalar.ofJson? v).map single

/-- The value of any value. -/
def ofAnyJson : Json → Value
  | .array items => list (items.map Scalar.ofAnyJson)
  | v => single (Scalar.ofAnyJson v)

end Value

namespace Condition

/-- The names of the fields of a condition. -/
def fieldNames : List String :=
  ["variable", "operator", "value"]

/-- The stored form of a condition. -/
def toJson (c : Condition) : Json :=
  .object [("variable", .text c.column), ("operator", .text c.operator.tag),
    ("value", c.value.toJson)]

/-- The operator whose tag a stored text is. -/
def operatorOfJson? (v : Json) : Option Operator :=
  v.text?.map Operator.ofTag

/-- The condition of a stored form. -/
def ofJson? (v : Json) : Option Condition :=
  match v.fields? fieldNames with
  | some [column, operator, value] =>
    match Json.fieldOr (some "") Json.text? column,
        Json.fieldOr (some .equal) operatorOfJson? operator,
        Json.fieldOr (some .default) Value.ofJson? value with
    | some column, some operator, some value => some ⟨column, operator, value⟩
    | _, _, _ => none
  | _ => none

/-- The condition of any value. -/
def ofAnyJson (v : Json) : Condition where
  column := ((v.member? "variable").bind Json.text?).getD ""
  operator := ((v.member? "operator").bind operatorOfJson?).getD .equal
  value := ((v.member? "value").map Value.ofAnyJson).getD .default

end Condition

namespace Connector

/-- The stored form of a connector. -/
def toJson (k : Connector) : Json :=
  .text k.keyword

/-- The connector of a stored form, whose spelling must be exact. -/
def ofJson? (v : Json) : Option Connector :=
  v.caseName?.bind fun name => [and, or].find? (·.keyword == name)

/-- The connector of any value, if it is a keyword in any case. -/
def ofAnyJson? (v : Json) : Option Connector :=
  v.text?.bind ofKeyword?

end Connector

namespace Filter

/-- The names of the fields of a filter. -/
def fieldNames : List String :=
  ["conditions", "connectors"]

/-- The stored form of a filter. -/
def toJson (f : Filter) : Json :=
  .object [("conditions", .array (f.conditions.map Condition.toJson)),
    ("connectors", .array (f.connectors.map Connector.toJson))]

/-- The filter of a stored form. -/
def ofJson? (v : Json) : Option Filter :=
  match v.fields? fieldNames with
  | some [conditions, connectors] =>
    match Json.fieldOr (some []) (Json.list? Condition.ofJson?) conditions,
        Json.fieldOr (some []) (Json.list? Connector.ofJson?) connectors with
    | some conditions, some connectors => some ⟨conditions, connectors⟩
    | _, _ => none
  | _ => none

/-- The filter of any value. -/
def ofAnyJson (v : Json) : Filter where
  conditions := (((v.member? "conditions").bind Json.array?).getD []).map Condition.ofAnyJson
  connectors := (((v.member? "connectors").bind Json.array?).getD []).filterMap
    Connector.ofAnyJson?

/-- The text in which a filter is stored. -/
def stored (f : Filter) : String :=
  f.toJson.compact

/-- The filter of a stored text. -/
def ofStored? (text : String) : Option Filter :=
  (Json.parseForm? text).bind ofJson?

/-- The filter of any JSON text. -/
def ofAnyStored? (text : String) : Option Filter :=
  (Json.parse? text).map ofAnyJson

end Filter

end ColumnFilter
