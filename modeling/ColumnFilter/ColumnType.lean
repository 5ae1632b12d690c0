import ColumnFilter.Operator

/-!
# Column types

A column holds text, numbers or truth values.  Its type decides which operators
it may be compared with.
-/

namespace ColumnFilter

/-- What a column holds. -/
inductive ColumnType where
  | string
  | number
  | boolean
deriving DecidableEq, Repr

namespace ColumnType

/-- Every column type. -/
def all : List ColumnType :=
  [string, number, boolean]

/-- The name of a type. -/
def name : ColumnType → String
  | string => "string"
  | number => "number"
  | boolean => "boolean"

/-- Text takes every operator, numbers those of order and lists, truth values equality only. -/
def allows : ColumnType → Operator → Bool
  | string, _ => true
  | number, op => op ∈ [.equal, .notEqual, .less, .lessOrEqual, .greater, .greaterOrEqual,
      .oneOf, .noneOf]
  | boolean, op => op ∈ [.equal, .notEqual]

/-- The operators that a type allows, in the order in which they are offered. -/
def operators (type : ColumnType) : List Operator :=
  Operator.all.filter type.allows

/-- What may be written as a single value of a type. -/
def expectedValue : ColumnType → String
  | string => "a quoted string or null"
  | number => "a number or null"
  | boolean => "true, false or null"

/-- The type with exactly this name. -/
def ofName? (text : String) : Option ColumnType :=
  all.find? (·.name == text)

/-- The names that a declaration may use for a type. -/
def synonyms : ColumnType → List String
  | string => ["string", "str", "text"]
  | number => ["number", "num", "numeric"]
  | boolean => ["boolean", "bool"]

/-- The type that a declaration names, in any ASCII case and with white space around it. -/
def ofSynonym? (text : String) : Option ColumnType :=
  let word := String.ofList (Text.asciiLower (Text.trimChars text.toList))
  all.find? (·.synonyms.contains word)

/-- What is said about a name that no type has. -/
def unknownNameMessage (text : String) : String :=
  s!"unknown column type '{text}', expected one of: string, number, boolean"

theorem mem_operators {type : ColumnType} {op : Operator} :
    op ∈ type.operators ↔ type.allows op = true := by
  simp [operators, Operator.mem_all]

end ColumnType

end ColumnFilter
