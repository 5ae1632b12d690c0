import ColumnFilter.Grammar.RulePattern

/-!
# Fragments

The parts of filter text that may be asked for on their own.  Whether a text is
a fragment and what it then consists of come from one and the same rule.
-/

namespace ColumnFilter

/-- A part of filter text with a name of its own. -/
inductive Fragment where
  | column
  | itemString
  | itemNumber
  | itemBoolean
  | item
  | itemList
  | comparatorSingle
  | comparatorMultiple
  | comparatorNumeric
  | comparatorBoolean
  | comparatorString
  | connector
  | condition
  | filter
deriving DecidableEq, Repr

namespace Fragment

/-- Every fragment. -/
def all : List Fragment :=
  [column, itemString, itemNumber, itemBoolean, item, itemList, comparatorSingle,
    comparatorMultiple, comparatorNumeric, comparatorBoolean, comparatorString, connector,
    condition, filter]

/-- The rule that matches a fragment as a whole text. -/
def rule : Fragment → Rule
  | column => .columnOnly
  | itemString => .itemStringOnly
  | itemNumber => .itemNumberOnly
  | itemBoolean => .itemBooleanOnly
  | item => .itemOnly
  | itemList => .itemListOnly
  | comparatorSingle => .comparatorSingleOnly
  | comparatorMultiple => .comparatorMultipleOnly
  | comparatorNumeric => .comparatorNumericOnly
  | comparatorBoolean => .comparatorBooleanOnly
  | comparatorString => .comparatorStringOnly
  | connector => .connectorOnly
  | condition => .conditionOnly
  | filter => .filter

/-- The match of a fragment with a text. -/
def run (f : Fragment) (text : String) : Option Match :=
  (Grammar.pattern f.rule).run 0 text.toList

/-- Is the text as a whole this fragment? -/
def accepts (f : Fragment) (text : String) : Bool :=
  (f.run text).isSome

/-- The marked stretch of a fragment: a filter is marked itself, all else inside its rule. -/
def capture (f : Fragment) (text : String) : Option Tree :=
  match f, (f.run text).bind (·.trees.head?) with
  | filter, tree => tree
  | _, tree => tree.bind (·.children.head?)

end Fragment

end ColumnFilter
