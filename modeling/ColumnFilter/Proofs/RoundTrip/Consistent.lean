import ColumnFilter.Reading

/-!
# Filters that fit a schema

A filter is consistent with a schema if it could have been built for it: there
is one connector in every gap, and every condition asks of a declared column
what its type allows.  It is plain if the notation has a text for each of its
literals.  Only infinities, what is no number, and texts with both quotes in
them have none.
-/

namespace ColumnFilter

/-- Can the text be the name of a column in filter text? -/
def Text.isWord (s : String) : Bool :=
  !s.toList.isEmpty && s.toList.all isWordChar

namespace Scalar

/-- Does filter text have a literal for the value? -/
def isPlain : Scalar → Bool
  | number x => x.isFinite
  | text s => !(s.toList.contains '"' && s.toList.contains '\'')
  | _ => true

/-- May a single value of a column of the type be this one? -/
def fits : ColumnType → Scalar → Bool
  | _, null => true
  | .string, text _ => true
  | .number, number _ => true
  | .boolean, boolean _ => true
  | _, _ => false

/-- May a list on a column of the type have this element? -/
def fitsList : ColumnType → Scalar → Bool
  | .string, null => true
  | .string, text _ => true
  | .number, _ => true
  | _, _ => false

end Scalar

namespace Value

/-- The literals of a value. -/
def items : Value → List Scalar
  | single x => [x]
  | list xs => xs

end Value

/-- May a column of the type be compared with the value by the operator? -/
def ColumnType.admits (type : ColumnType) (op : Operator) : Value → Bool
  | .single x => type.allowsSingle op && x.fits type
  | .list xs => type.allowsList op && !xs.isEmpty && xs.all (·.fitsList type)

namespace Condition

/-- The condition asks of a declared column what its type allows. -/
structure Consistent (s : Schema) (c : Condition) : Prop where
  isWord : Text.isWord c.column = true
  resolve_eq : s.resolve c.column = some c.column
  admits : ∃ type, s.typeOf c.column = some type ∧ type.admits c.operator c.value = true

/-- Does filter text have a literal for every value in the condition? -/
def isPlain (c : Condition) : Bool :=
  c.value.items.all Scalar.isPlain

end Condition

namespace Filter

/-- There is a condition, a connector in every gap, and every condition is consistent. -/
structure Consistent (s : Schema) (f : Filter) : Prop where
  length_connectors : f.connectors.length + 1 = f.conditions.length
  conditions : ∀ c ∈ f.conditions, c.Consistent s

/-- Does filter text have a literal for every value in the filter? -/
def isPlain (f : Filter) : Bool :=
  f.conditions.all Condition.isPlain

end Filter

end ColumnFilter
