/-!
# The rules of filter text

The names of the rules.  Their order matters: a report of what was expected
lists them in it, the end of the input first.  Rules whose name ends in `Only`
stand for a text that is matched as a whole.
-/

namespace ColumnFilter

/-- A rule of filter text. -/
inductive Rule where
  | endOfInput
  | blank
  | column
  | bareChar
  | quotedString
  | nullWord
  | nullWordAnyCase
  | trueWord
  | falseWord
  | itemString
  | itemBoolean
  | itemNumber
  | item
  | itemList
  | comparatorSingle
  | comparatorMultiple
  | comparatorNumeric
  | comparatorBoolean
  | comparatorString
  | singleValue
  | multiValue
  | condition
  | connector
  | filter
  | columnOnly
  | itemStringOnly
  | itemNumberOnly
  | itemBooleanOnly
  | itemOnly
  | itemListOnly
  | comparatorSingleOnly
  | comparatorMultipleOnly
  | comparatorNumericOnly
  | comparatorBooleanOnly
  | comparatorStringOnly
  | connectorOnly
  | conditionOnly
deriving DecidableEq, Repr

namespace Rule

/-- Every rule, in the order of reports. -/
def all : List Rule :=
  [endOfInput, blank, column, bareChar, quotedString, nullWord, nullWordAnyCase, trueWord,
    falseWord, itemString, itemBoolean, itemNumber, item, itemList, comparatorSingle,
    comparatorMultiple, comparatorNumeric, comparatorBoolean, comparatorString, singleValue,
    multiValue, condition, connector, filter, columnOnly, itemStringOnly, itemNumberOnly,
    itemBooleanOnly, itemOnly, itemListOnly, comparatorSingleOnly, comparatorMultipleOnly,
    comparatorNumericOnly, comparatorBooleanOnly, comparatorStringOnly, connectorOnly,
    conditionOnly]

/-- The name of a rule. -/
def name : Rule → String
  | endOfInput => "EOI"
  | blank => "ws"
  | column => "variable"
  | bareChar => "bare_char"
  | quotedString => "quoted_string"
  | nullWord => "null_word"
  | nullWordAnyCase => "null_word_ci"
  | trueWord => "true_word"
  | falseWord => "false_word"
  | itemString => "item_string"
  | itemBoolean => "item_boolean"
  | itemNumber => "item_number"
  | item => "item"
  | itemList => "item_multiple"
  | comparatorSingle => "comparator_single"
  | comparatorMultiple => "comparator_multiple"
  | comparatorNumeric => "comparator_numeric"
  | comparatorBoolean => "comparator_boolean"
  | comparatorString => "comparator_string"
  | singleValue => "single_value"
  | multiValue => "multi_value"
  | condition => "condition"
  | connector => "connector"
  | filter => "filter"
  | columnOnly => "variable_only"
  | itemStringOnly => "item_string_only"
  | itemNumberOnly => "item_number_only"
  | itemBooleanOnly => "item_boolean_only"
  | itemOnly => "item_only"
  | itemListOnly => "item_multiple_only"
  | comparatorSingleOnly => "comparator_single_only"
  | comparatorMultipleOnly => "comparator_multiple_only"
  | comparatorNumericOnly => "comparator_numeric_only"
  | comparatorBooleanOnly => "comparator_boolean_only"
  | comparatorStringOnly => "comparator_string_only"
  | connectorOnly => "connector_only"
  | conditionOnly => "condition_only"

/-- The rule with a name. -/
def ofName? (text : String) : Option Rule :=
  all.find? (·.name == text)

/-- Rules without repetition, in the order of reports. -/
def inOrder (rules : List Rule) : List Rule :=
  all.filter rules.contains

theorem mem_all (r : Rule) : r ∈ all := by
  cases r <;> simp [all]

theorem mem_inOrder {r : Rule} {rules : List Rule} : r ∈ inOrder rules ↔ r ∈ rules := by
  simp [inOrder, mem_all]

end Rule

end ColumnFilter
