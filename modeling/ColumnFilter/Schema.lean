import ColumnFilter.ColumnType
import ColumnFilter.Text.EditDistance
import ColumnFilter.Text.LowerCase

/-!
# Schemas

The declared columns of a data set: their names, in the order and spelling of
their declaration, and their types.  Columns are found without regard to case.
A type is looked up under the lower-case name first and then under any key of
the same lower case, because a schema may be given with keys in any spelling.
-/

namespace ColumnFilter

/-- Declared names, and types under keys of their own. -/
structure Schema where
  /-- The names of the columns. -/
  names : List String
  /-- The types of the columns, each key once. -/
  types : List (String × ColumnType)
deriving DecidableEq, Repr

/-- A column as a schema file or a command line declares it. -/
structure Column where
  /-- The name in the spelling to be kept. -/
  name : String
  /-- What the column holds. -/
  type : ColumnType
deriving DecidableEq, Repr

namespace Schema

/-- The schema without columns. -/
def empty : Schema :=
  ⟨[], []⟩

/-- The declared spelling of a column. -/
def resolve (s : Schema) (column : String) : Option String :=
  s.names.find? (Text.sameIgnoringCase · column)

/-- The declared type of a column. -/
def typeOf (s : Schema) (column : String) : Option ColumnType :=
  (s.types.lookup (Text.lower column)).or
    ((s.types.find? fun entry => Text.sameIgnoringCase entry.1 column).map (·.2))

/-- Types with one of them set: in place if its key is there, at the end otherwise. -/
def setType (key : String) (type : ColumnType) :
    List (String × ColumnType) → List (String × ColumnType)
  | [] => [(key, type)]
  | entry :: rest =>
    if entry.1 = key then (key, type) :: rest else entry :: setType key type rest

/-- A schema with one more declaration; the first spelling and the last type count. -/
def insert (s : Schema) (column : Column) : Schema where
  names := if (s.resolve column.name).isSome then s.names else s.names ++ [column.name]
  types := setType (Text.lower column.name) column.type s.types

/-- The schema of some declarations, one after the other. -/
def ofColumns (columns : List Column) : Schema :=
  columns.foldl insert empty

theorem lookup_setType_self (key : String) (type : ColumnType)
    (types : List (String × ColumnType)) :
    (setType key type types).lookup key = some type := by
  induction types with
  | nil => simp [setType]
  | cons entry rest ih =>
    by_cases h : entry.1 = key
    · simp [setType, h]
    · have h' : (key == entry.1) = false := by simpa using fun e => h e.symm
      rw [setType, if_neg h, List.lookup_cons, h', ih]

/-- A declared type is found again. -/
theorem typeOf_insert_self (s : Schema) (column : Column) :
    (s.insert column).typeOf column.name = some column.type := by
  rw [typeOf, insert, lookup_setType_self, Option.some_or]

end Schema

/-- The known names within two edits of a word, both taken in lower case. -/
def similarNames (word : String) (known : List String) : List String :=
  known.filter fun name =>
    Text.editDistance (Text.lower word).toList (Text.lower name).toList ≤ 2

end ColumnFilter
