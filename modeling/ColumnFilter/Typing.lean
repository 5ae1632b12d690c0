import ColumnFilter.Filter.Basic
import ColumnFilter.Grammar.Fragment
import ColumnFilter.Number.Literal
import ColumnFilter.Text.Digit
import ColumnFilter.Written

/-!
# Typing of values

What each column type makes of the literals of a condition.  A single value has
to be of the type of its column, or `null`.  The literals of a list are never
refused: each becomes the value it looks like, and a text otherwise.
-/

namespace ColumnFilter

namespace Written.Item

/-- Does the text have the shape of a number, with the digits of any script? -/
def isNumeric (i : Item) : Bool :=
  (Literal.read? Text.isDecimalDigit i.chars).isSome

/-- The number that the text stands for. -/
def number? (i : Item) : Option Number :=
  Number.read? i.chars

/-- The truth value that the text stands for, in any ASCII case. -/
def boolean? (i : Item) : Option Bool :=
  if Text.sameIgnoringAsciiCase i.chars "true".toList then some true
  else if Text.sameIgnoringAsciiCase i.chars "false".toList then some false
  else none

/-- Is the text exactly `null`? -/
def isPlainNull (i : Item) : Bool :=
  i.lexeme.text == "null"

end Written.Item

namespace ColumnType

/-- Is the operator one that the type allows and that takes a single value? -/
def allowsSingle (type : ColumnType) (op : Operator) : Bool :=
  !op.takesList && type.allows op

/-- Is the operator one that the type allows and that takes a list? -/
def allowsList (type : ColumnType) (op : Operator) : Bool :=
  op.takesList && type.allows op

/-- May the literal be a single value of the type? -/
def accepts : ColumnType → Written.Item → Bool
  | string, item => Fragment.itemString.accepts item.lexeme.text
  | number, item => item.isPlainNull || item.isNumeric
  | boolean, item => Fragment.itemBoolean.accepts item.lexeme.text

/-- A literal as a single value of the type, if it has a value there. -/
def scalar? : ColumnType → Written.Item → Option Scalar
  | string, item =>
    if item.isQuoted then some (.text item.unquoted)
    else if item.isPlainNull then some .null
    else none
  | number, item =>
    if item.isPlainNull then some .null else item.number?.map .number
  | boolean, item =>
    if item.isNull then some .null else item.boolean?.map .boolean

/-- A literal of a list on a column of numbers. -/
def numberListItem (item : Written.Item) : Scalar :=
  if item.isQuoted then .text item.unquoted
  else if item.isNull then .null
  else match item.boolean? with
    | some b => .boolean b
    | none =>
      match if item.isNumeric then item.number? else none with
      | some x => .number x
      | none => .text item.lexeme.text

/-- A literal of a list on a column of the type. -/
def listItem : ColumnType → Written.Item → Scalar
  | string, item => if item.isNull then .null else .text item.unquoted
  | number, item => numberListItem item
  | boolean, item => (scalar? boolean item).getD (.text item.unquoted)

end ColumnType

end ColumnFilter
