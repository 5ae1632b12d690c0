import ColumnFilter.Grammar.Pattern
import ColumnFilter.Text.Ascii

/-!
# The grammar of filter text

The pattern of every rule.  White space is written out where it may stand:
connectors need it on both sides, comparators do not.  Every fragment has a
rule that matches it as a whole text.
-/

namespace ColumnFilter.Grammar

open Pattern

/-- The white space of filter text: space, tab and the two line ends. -/
def isBlank (c : Char) : Bool :=
  c == ' ' || c == '\t' || c == '\r' || c == '\n'

/-- A character of a word without quotes. -/
def isBare (c : Char) : Bool :=
  !(isBlank c || c == ',' || c == '(' || c == ')')

/-- One blank. -/
def blank : Pattern :=
  one isBlank

/-- Blanks, possibly none. -/
def blanks : Pattern :=
  star blank

/-- At least one blank. -/
def blanks1 : Pattern :=
  plus blank

/-- The name of a column. -/
def column : Pattern :=
  leaf .column (plus (one Text.isWordChar))

/-- One character of a word without quotes. -/
def bareChar : Pattern :=
  one isBare

/-- The place where a word ends. -/
def wordEnd : Pattern :=
  notAhead bareChar

/-- A text between two quotes of one kind. -/
def between (quote : Char) : Pattern :=
  sequence [one (· == quote), star (one (· != quote)), one (· == quote)]

/-- A text between double or single quotes. -/
def quotedString : Pattern :=
  leaf .quotedString (alt (between '"') (between '\''))

/-- The word `null` in lower case. -/
def nullWord : Pattern :=
  seq (exactly "null") wordEnd

/-- The word `null` in any case. -/
def nullWordAnyCase : Pattern :=
  seq (anyCase "null") wordEnd

/-- The word `true` in any case. -/
def trueWord : Pattern :=
  seq (anyCase "true") wordEnd

/-- The word `false` in any case. -/
def falseWord : Pattern :=
  seq (anyCase "false") wordEnd

/-- A quoted text, or `null`. -/
def itemString : Pattern :=
  leaf .itemString (alt quotedString nullWord)

/-- A truth value, or `null` in any case. -/
def itemBoolean : Pattern :=
  leaf .itemBoolean (firstOf [trueWord, falseWord, nullWordAnyCase])

/-- Any other word. -/
def itemNumber : Pattern :=
  leaf .itemNumber (seq (notAhead (one fun c => c == '"' || c == '\'')) (plus bareChar))

/-- A literal of any kind. -/
def item : Pattern :=
  firstOf [itemString, itemBoolean, itemNumber]

/-- A further literal of a list. -/
def nextItem : Pattern :=
  sequence [blanks, exactly ",", blanks, item]

/-- Literals between parentheses with commas between them. -/
def itemList : Pattern :=
  node .itemList
    (sequence [exactly "(", blanks, item, star nextItem, blanks, exactly ")"])

/-- The first of some symbols that fits, so longer ones come first. -/
def symbols (ss : List String) : Pattern :=
  firstOf (ss.map exactly)

/-- A comparator of one literal. -/
def comparatorSingle : Pattern :=
  leaf .comparatorSingle
    (symbols ["!=", "!?", "<=", ">=", "=:", "=~", ":=", "=", "<", ">", "?"])

/-- A comparator of a list. -/
def comparatorMultiple : Pattern :=
  leaf .comparatorMultiple
    (alt (sequence [anyCase "not", blanks1, anyCase "in"]) (anyCase "in"))

/-- A comparator that numbers admit. -/
def comparatorNumeric : Pattern :=
  leaf .comparatorNumeric (symbols ["!=", "<=", ">=", "=", "<", ">"])

/-- A comparator that truth values admit. -/
def comparatorBoolean : Pattern :=
  leaf .comparatorBoolean (symbols ["!=", "="])

/-- A comparator that texts admit. -/
def comparatorString : Pattern :=
  leaf .comparatorString comparatorSingle

/-- A comparator and one literal. -/
def singleValue : Pattern :=
  sequence [comparatorSingle, blanks, item]

/-- A comparator and a list. -/
def multiValue : Pattern :=
  sequence [comparatorMultiple, blanks, itemList]

/-- A column and what is asked of it. -/
def condition : Pattern :=
  node .condition (sequence [column, blanks, alt singleValue multiValue])

/-- A connector. -/
def connector : Pattern :=
  leaf .connector (seq (alt (anyCase "and") (anyCase "or")) wordEnd)

/-- The end of the text. -/
def endOfInput : Pattern :=
  leaf .endOfInput finish

/-- A connector and a further condition. -/
def nextCondition : Pattern :=
  sequence [blanks1, connector, blanks1, condition]

/-- Conditions with connectors between them. -/
def filter : Pattern :=
  node .filter (sequence [blanks, condition, star nextCondition, blanks, endOfInput])

/-- A pattern that is matched by a text as a whole. -/
def only (rule : Rule) (p : Pattern) : Pattern :=
  node rule (seq p endOfInput)

/-- The pattern of a rule. -/
def pattern : Rule → Pattern
  | .endOfInput => endOfInput
  | .blank => blank
  | .column => column
  | .bareChar => bareChar
  | .quotedString => quotedString
  | .nullWord => nullWord
  | .nullWordAnyCase => nullWordAnyCase
  | .trueWord => trueWord
  | .falseWord => falseWord
  | .itemString => itemString
  | .itemBoolean => itemBoolean
  | .itemNumber => itemNumber
  | .item => item
  | .itemList => itemList
  | .comparatorSingle => comparatorSingle
  | .comparatorMultiple => comparatorMultiple
  | .comparatorNumeric => comparatorNumeric
  | .comparatorBoolean => comparatorBoolean
  | .comparatorString => comparatorString
  | .singleValue => singleValue
  | .multiValue => multiValue
  | .condition => condition
  | .connector => connector
  | .filter => filter
  | .columnOnly => only .columnOnly column
  | .itemStringOnly => only .itemStringOnly itemString
  | .itemNumberOnly => only .itemNumberOnly itemNumber
  | .itemBooleanOnly => only .itemBooleanOnly itemBoolean
  | .itemOnly => only .itemOnly item
  | .itemListOnly => only .itemListOnly itemList
  | .comparatorSingleOnly => only .comparatorSingleOnly comparatorSingle
  | .comparatorMultipleOnly => only .comparatorMultipleOnly comparatorMultiple
  | .comparatorNumericOnly => only .comparatorNumericOnly comparatorNumeric
  | .comparatorBooleanOnly => only .comparatorBooleanOnly comparatorBoolean
  | .comparatorStringOnly => only .comparatorStringOnly comparatorString
  | .connectorOnly => only .connectorOnly connector
  | .conditionOnly => only .conditionOnly condition

end ColumnFilter.Grammar
