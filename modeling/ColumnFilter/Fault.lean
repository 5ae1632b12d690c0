import ColumnFilter.ColumnType
import ColumnFilter.Grammar.Rejection

/-!
# Faults

Why a filter text is refused.  A fault keeps its cause and the text it speaks
of; message, help, code and the labels in the text are functions of them.
-/

namespace ColumnFilter

/-- What is wrong with a filter text. -/
inductive Cause where
  /-- The text does not follow the grammar. -/
  | malformed (shown : Span) (atEnd : Bool) (position : Position) (complaint : Complaint)
  /-- A column is not declared; `similar` lists declared names that may have been meant. -/
  | unknownColumn (column : Lexeme) (similar : List String)
  /-- A column is declared under `name` without a type. -/
  | untypedColumn (name : String) (column : Lexeme)
  /-- The type of a column does not allow an operator. -/
  | incompatibleOperator (name : String) (type : ColumnType) (operator column : Lexeme)
  /-- A value is not what is expected of it. -/
  | invalidValue (expected : String) (found : Lexeme)
  /-- Something is wrong with the program itself. -/
  | internal (message : String)
deriving DecidableEq, Repr

/-- A cause and the text in which it was found. -/
structure Fault where
  /-- What is wrong. -/
  cause : Cause
  /-- The text that the places of the cause refer to. -/
  source : String
deriving DecidableEq, Repr

namespace Rule

/-- What people call a rule. -/
def friendlyName : Rule → String
  | filter => "filter"
  | condition | conditionOnly => "condition"
  | column | columnOnly => "column name"
  | connector | connectorOnly => "connector (and/or)"
  | comparatorSingle | comparatorSingleOnly => "comparator"
  | comparatorMultiple | comparatorMultipleOnly => "in / not in"
  | comparatorNumeric | comparatorNumericOnly => "numeric comparator"
  | comparatorBoolean | comparatorBooleanOnly => "= or !="
  | comparatorString | comparatorStringOnly => "string comparator"
  | quotedString | itemString | itemStringOnly => "quoted string"
  | itemBoolean | itemBooleanOnly => "true, false or null"
  | itemNumber | itemNumberOnly => "value"
  | itemList | itemListOnly => "parenthesized list"
  | itemOnly => "value"
  | endOfInput => "end of input"
  | _ => "token"

end Rule

namespace Complaint

/-- A list without elements that repeat the one before them. -/
def withoutRepeats : List String → List String
  | [] => []
  | [s] => [s]
  | s :: t :: rest =>
    if s = t then withoutRepeats (t :: rest) else s :: withoutRepeats (t :: rest)

/-- A sentence that lists what was expected, up to three names. -/
def expectedSentence : List String → String
  | [] => "Unexpected input"
  | [name] => s!"Expected {name}"
  | names =>
    let more := if names.length ≤ 3 then "" else ", ..."
    "Expected one of: " ++ ", ".intercalate (names.take 3) ++ more

/-- The text that stands at the place of a complaint. -/
def label : Complaint → String
  | expected rules => expectedSentence (withoutRepeats (rules.map Rule.friendlyName))
  | remark message => message

/-- What people are told to do about expected rules. -/
def helpForRules (rules : List Rule) (atEnd : Bool) : Option String :=
  if rules.any (· ∈ [.itemString, .itemBoolean, .itemNumber]) then
    if atEnd then some "Add a value after the comparator, like: age > 30"
    else some "Expected a value here (a \"quoted string\", number, true/false or null)"
  else if rules.contains .itemList then
    some "in / not in take a list, like: race in (\"A\", \"B\")"
  else if rules.contains .comparatorSingle || rules.contains .comparatorMultiple then
    some "Expected a comparator: = != < <= > >= ? !? =: := =~ in, not in"
  else if rules.contains .condition && atEnd then
    some "Filter is incomplete. Add a condition after the connector."
  else if rules.contains .endOfInput || rules.contains .connector then
    some "Join conditions with 'and' or 'or'. Nested parentheses are not supported."
  else none

/-- What people are told to do about a complaint. -/
def help (c : Complaint) (atEnd : Bool) : Option String :=
  match c with
  | expected rules => helpForRules rules atEnd
  | remark _ => none

end Complaint

namespace Cause

/-- The sentence that says what is wrong. -/
def message : Cause → String
  | malformed _ _ position _ =>
    s!"Syntax error at line {position.line}, column {position.column}"
  | unknownColumn column _ => s!"Unknown column: {column.text}"
  | untypedColumn name _ => s!"No type declared for column: {name}"
  | incompatibleOperator name type operator _ =>
    s!"Operator '{operator.text}' is not compatible with {type.name} column '{name}'"
  | invalidValue expected found => s!"Expected {expected}, found: {found.text}"
  | internal message => s!"Internal parser error: {message}"

/-- The stable name of the kind of fault. -/
def code : Cause → String
  | malformed .. => "filtertext::syntax"
  | unknownColumn .. => "filtertext::unknown_column"
  | untypedColumn .. => "filtertext::missing_column_type"
  | incompatibleOperator .. => "filtertext::incompatible_operator"
  | invalidValue .. => "filtertext::invalid_value"
  | internal _ => "filtertext::internal"

/-- What people are told to do about it. -/
def help : Cause → Option String
  | malformed _ atEnd _ complaint => complaint.help atEnd
  | unknownColumn _ similar =>
    if similar.isEmpty then none
    else some ("Did you mean: " ++ ", ".intercalate similar ++ "?")
  | untypedColumn .. => some "Every known column needs a string, number or boolean type"
  | incompatibleOperator _ type _ _ =>
    some (s!"{type.name} columns accept: " ++
      " ".intercalate (type.operators.map Operator.symbol))
  | invalidValue .. => some "Check the value type for this column"
  | internal _ => none

/-- The places in the text that are pointed at, each with what is said there. -/
def labels : Cause → List (String × Span)
  | malformed shown _ _ complaint => [(complaint.label, shown)]
  | unknownColumn column _ => [("not a known column", column.span)]
  | untypedColumn _ column => [("column has no type", column.span)]
  | incompatibleOperator _ _ operator column =>
    [("incompatible operator", operator.span), ("for this column", column.span)]
  | invalidValue _ found => [("invalid value", found.span)]
  | internal _ => []

end Cause

namespace Fault

/-- The fault of a rejection of `source`. -/
def ofRejection (r : Rejection) (source : String) : Fault :=
  let length := Text.size source
  ⟨.malformed (r.place.shown length) (length ≤ r.place.stop) r.position r.complaint, source⟩

/-- A fault of the program itself. -/
def ofInternal (message : String) : Fault :=
  ⟨.internal message, ""⟩

/-- The same cause, said of another text. -/
def withSource (f : Fault) (source : String) : Fault :=
  ⟨f.cause, source⟩

end Fault

end ColumnFilter
