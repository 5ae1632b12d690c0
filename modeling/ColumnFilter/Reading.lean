import ColumnFilter.Schema
import ColumnFilter.Typing

/-!
# Reading filter text

A text is a filter over some columns if it follows the grammar and every
condition names a declared column with a type, uses an operator that the type
allows and a value that fits it.  These are asked in this order, condition by
condition, and the first that fails is the fault of the whole text.  A text of
white space alone is the filter without conditions.

The literals of a list are not asked to fit, but the list as it stands in the text is
matched once more with the grammar.
-/

namespace ColumnFilter

namespace Schema

/-- What a list is expected to be. -/
def expectedList : String :=
  "a parenthesized list"

/-- The value of a condition on a column that is declared as `name` with a type. -/
def readValue (name : String) (type : ColumnType) (c : Written.Condition) :
    Except Cause Value :=
  let incompatible := Cause.incompatibleOperator name type c.comparator c.column
  match c.value with
  | .list whole items =>
    if type.allowsList c.operator then
      if Fragment.itemList.accepts whole.text then .ok (.list (items.map type.listItem))
      else .error (.invalidValue expectedList whole)
    else .error incompatible
  | .single item =>
    if type.allowsSingle c.operator then
      match if type.accepts item then type.scalar? item else none with
      | some scalar => .ok (.single scalar)
      | none => .error (.invalidValue type.expectedValue item.lexeme)
    else .error incompatible

/-- The condition that a written one stands for, with the declared spelling of its column. -/
def readCondition (s : Schema) (c : Written.Condition) : Except Cause Condition :=
  let column := Text.lower c.column.text
  match s.resolve column with
  | none => .error (.unknownColumn c.column (similarNames column s.names))
  | some name =>
    match s.typeOf column with
    | none => .error (.untypedColumn name c.column)
    | some type =>
      match readValue name type c with
      | .error cause => .error cause
      | .ok value => .ok ⟨name, c.operator, value⟩

/-- The conditions that written ones stand for, or the first cause that one of them gives. -/
def readConditions (s : Schema) : List Written.Condition → Except Cause (List Condition)
  | [] => .ok []
  | c :: cs =>
    match s.readCondition c with
    | .error cause => .error cause
    | .ok condition =>
      match s.readConditions cs with
      | .error cause => .error cause
      | .ok conditions => .ok (condition :: conditions)

/-- The filter that a text without white space around it stands for. -/
def readTrimmed (s : Schema) (source : String) : Except Fault Filter :=
  match Written.readFilter source with
  | .error fault => .error (fault.withSource source)
  | .ok written =>
    match s.readConditions written.conditions with
    | .error cause => .error ⟨cause, source⟩
    | .ok conditions => .ok ⟨conditions, written.connectors⟩

/-- The filter that a text stands for; white space alone is the filter without conditions. -/
def parse (s : Schema) (text : String) : Except Fault Filter :=
  let source := Text.trim text
  if source.isEmpty then .ok .empty else s.readTrimmed source

/-- The fault of a text, if it has one. -/
def check (s : Schema) (text : String) : Except Fault Unit :=
  (s.parse text).map fun _ => ()

/-- Is the text a filter over these columns? -/
def accepts (s : Schema) (text : String) : Bool :=
  (s.check text).toBool

end Schema

end ColumnFilter
