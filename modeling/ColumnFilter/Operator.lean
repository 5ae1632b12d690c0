import ColumnFilter.Text.Ascii
import ColumnFilter.Text.Blank

/-!
# Operators

What a condition may ask of a column.  Each operator has a symbol for filter
text, a tag for stored filters and a label for people.  A symbol or tag that
names no operator stands for `equal`, so that reading one never fails.
-/

namespace ColumnFilter

/-- A comparison between a column and a value. -/
inductive Operator where
  | equal
  | notEqual
  | less
  | lessOrEqual
  | greater
  | greaterOrEqual
  | oneOf
  | noneOf
  | contains
  | notContains
  | startsWith
  | endsWith
  | matchesRegex
deriving DecidableEq, Repr, Inhabited

namespace Operator

/-- Every operator, in the order in which they are offered. -/
def all : List Operator :=
  [equal, notEqual, less, lessOrEqual, greater, greaterOrEqual, oneOf, noneOf, contains,
    notContains, startsWith, endsWith, matchesRegex]

/-- The spelling in filter text. -/
def symbol : Operator → String
  | equal => "="
  | notEqual => "!="
  | less => "<"
  | lessOrEqual => "<="
  | greater => ">"
  | greaterOrEqual => ">="
  | oneOf => "in"
  | noneOf => "not in"
  | contains => "?"
  | notContains => "!?"
  | startsWith => "=:"
  | endsWith => ":="
  | matchesRegex => "=~"

/-- The wording for people. -/
def label : Operator → String
  | equal => "equals"
  | notEqual => "does not equal"
  | less => "less than"
  | lessOrEqual => "less than or equal to"
  | greater => "greater than"
  | greaterOrEqual => "greater than or equal to"
  | oneOf => "is one of"
  | noneOf => "is not one of"
  | contains => "contains"
  | notContains => "does not contain"
  | startsWith => "starts with"
  | endsWith => "ends with"
  | matchesRegex => "matches regex"

/-- The name in a stored filter. -/
def tag : Operator → String
  | equal => "eq"
  | notEqual => "ne"
  | less => "lt"
  | lessOrEqual => "le"
  | greater => "gt"
  | greaterOrEqual => "ge"
  | oneOf => "in"
  | noneOf => "notin"
  | contains => "contains"
  | notContains => "notcontains"
  | startsWith => "starts"
  | endsWith => "ends"
  | matchesRegex => "regex"

/-- The operators that are compared with a list. -/
def takesList : Operator → Bool
  | oneOf | noneOf => true
  | _ => false

/-- A symbol in lower case, with one space for every run of white space inside. -/
def normalSymbol (text : String) : String :=
  String.ofList (Text.asciiLower ([' '].intercalate (Text.words text.toList)))

/-- The operator of a symbol, in any ASCII case and spacing; `equal` if there is none. -/
def ofSymbol (text : String) : Operator :=
  (all.find? (·.symbol == normalSymbol text)).getD equal

/-- The operator of a tag, in any ASCII case; `equal` if there is none. -/
def ofTag (text : String) : Operator :=
  let tag := String.ofList (Text.asciiLower (Text.trimChars text.toList))
  (all.find? (·.tag == tag)).getD equal

theorem mem_all (op : Operator) : op ∈ all := by
  cases op <;> simp [all]

end Operator

end ColumnFilter
