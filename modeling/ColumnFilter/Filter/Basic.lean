import ColumnFilter.Number.Basic
import ColumnFilter.Operator

/-!
# Filters

A filter is a row of conditions with connectors between them, to be read from
left to right.  A well-formed filter has one connector in every gap; the type
admits any number of them, because stored filters may lack some or have too
many.  Filters grow at the end, by `push`.
-/

namespace ColumnFilter

/-- A single literal. -/
inductive Scalar where
  /-- The absence of a value. -/
  | null
  /-- A truth value. -/
  | boolean (value : Bool)
  /-- A number. -/
  | number (value : Number)
  /-- A text. -/
  | text (value : String)
deriving DecidableEq, Repr

/-- What a column is compared with. -/
inductive Value where
  /-- One literal. -/
  | single (item : Scalar)
  /-- The literals of a list. -/
  | list (items : List Scalar)
deriving DecidableEq, Repr

/-- A column, an operator and a value. -/
structure Condition where
  /-- The name of the column. -/
  column : String
  /-- What is asked of the column. -/
  operator : Operator
  /-- What the column is compared with. -/
  value : Value
deriving DecidableEq, Repr

/-- How a condition is joined to those before it. -/
inductive Connector where
  | and
  | or
deriving DecidableEq, Repr

/-- Conditions and the connectors between them. -/
structure Filter where
  /-- The conditions, from left to right. -/
  conditions : List Condition
  /-- The connectors, the one after the first condition first. -/
  connectors : List Connector
deriving DecidableEq, Repr

namespace Scalar

/-- Equality of values, with numbers compared as numbers. -/
def sameValue : Scalar → Scalar → Bool
  | number x, number y => x.sameValue y
  | number _, _ => false
  | x, y => x == y

end Scalar

namespace Value

/-- The value of a condition that has none. -/
def default : Value :=
  single .null

/-- Is the value a list? -/
def isList : Value → Bool
  | single _ => false
  | list _ => true

/-- Equality of values, with numbers compared as numbers. -/
def sameValue : Value → Value → Bool
  | single x, single y => x.sameValue y
  | list xs, list ys => xs.length == ys.length && (xs.zip ys).all fun p => p.1.sameValue p.2
  | _, _ => false

end Value

namespace Condition

/-- Equality of conditions, with numbers compared as numbers. -/
def sameValue (a b : Condition) : Bool :=
  a.column == b.column && a.operator == b.operator && a.value.sameValue b.value

end Condition

namespace Connector

/-- The keyword of a connector. -/
def keyword : Connector → String
  | and => "and"
  | or => "or"

/-- The connector of a keyword in any ASCII case. -/
def ofKeyword? (text : String) : Option Connector :=
  let word := String.ofList (Text.asciiLower text.toList)
  [and, or].find? (·.keyword == word)

theorem ofKeyword?_keyword (k : Connector) : ofKeyword? k.keyword = some k := by
  cases k <;> decide

end Connector

namespace Filter

/-- The filter without conditions, which lets everything pass. -/
def empty : Filter :=
  ⟨[], []⟩

/-- The filter of one condition. -/
def single (condition : Condition) : Filter :=
  ⟨[condition], []⟩

/-- A filter with one more condition; the connector is dropped if there was none before. -/
def push (f : Filter) (connector : Connector) (condition : Condition) : Filter where
  conditions := f.conditions ++ [condition]
  connectors := if f.conditions.isEmpty then f.connectors else f.connectors ++ [connector]

/-- Is there no condition? -/
def isEmpty (f : Filter) : Bool :=
  f.conditions.isEmpty

/-- Equality of filters, with numbers compared as numbers. -/
def sameValue (f g : Filter) : Bool :=
  f.conditions.length == g.conditions.length &&
    ((f.conditions.zip g.conditions).all fun p => p.1.sameValue p.2) &&
    f.connectors == g.connectors

end Filter

end ColumnFilter
