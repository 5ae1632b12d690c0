import ColumnFilter.Written

/-!
# Spellings

All that a filter text consists of, blanks and letter case included.  A spelling
keeps every choice that the notation leaves open: the blanks in each gap, the
quote and the case of each word, and which of them are there at all.  What the
notation forbids cannot be built, so every spelling has a text, and that text
has a meaning of its own: `Filter.text` puts the parts together, and
`Filter.written` says at which byte each of them then stands.  Every part comes
with its `chars`, with the `tree` that the grammar makes of them where they
begin at byte `start`, and with what is `written` there.

`Filter.outline` is what is left without blanks, case and places: the columns,
operators, literals and connectors.
-/

namespace ColumnFilter

namespace Operator

/-- Does the first of some characters turn the symbol into that of another operator? -/
def isLengthened (op : Operator) : List Char → Bool
  | [] => false
  | c :: _ => all.any fun other => other.symbol.toList == op.symbol.toList ++ [c]

/-- Only the first of the characters counts. -/
theorem isLengthened_append {op : Operator} {cs rest : List Char} (h : cs ≠ []) :
    op.isLengthened (cs ++ rest) = op.isLengthened cs := by
  cases cs with
  | nil => exact absurd rfl h
  | cons c cs => rfl

end Operator

/-- What a condition says, without the places where it says it. -/
structure Outline where
  column : String
  operator : Operator
  isList : Bool
  items : List String
deriving DecidableEq, Repr

namespace Written.ItemKind

/-- The rule that matches the literals of a class. -/
def rule : ItemKind → Rule
  | string => .itemString
  | boolean => .itemBoolean
  | number => .itemNumber

end Written.ItemKind

namespace Written.Condition

/-- What a written condition says. -/
def outline (c : Condition) : Outline :=
  ⟨c.column.text, c.operator, c.value.isList, c.value.items.map (·.lexeme.text)⟩

end Written.Condition

namespace Spelling

/-- One of the two characters that a text may be put between. -/
def isQuote (c : Char) : Bool :=
  c == '"' || c == '\''

/-- A row of pieces, each put down at the byte where those before it end. -/
def layOut {α β : Type} (chars : α → List Char) (put : Nat → α → β) : Nat → List α → List β
  | _, [] => []
  | start, a :: as =>
    put start a :: layOut chars put (start + Text.byteLength (chars a)) as

/-- Blanks, possibly none. -/
structure Gap where
  chars : List Char
  blank : ∀ c ∈ chars, Grammar.isBlank c = true

/-- A literal. -/
inductive Item where
  /-- A text between two quotes of a kind that does not occur in it. -/
  | quoted (quote : Char) (inside : List Char) (isQuote : isQuote quote = true)
      (apart : quote ∉ inside)
  /-- A word without blanks, commas and parentheses that does not begin with a quote. -/
  | bare (word : List Char) (nonempty : word ≠ []) (isBare : ∀ c ∈ word, Grammar.isBare c = true)
      (unquoted : ∀ c, word.head? = some c → isQuote c = false)

namespace Item

def chars : Item → List Char
  | quoted quote inside _ _ => quote :: (inside ++ [quote])
  | bare word _ _ _ => word

/-- The lexical class of a word that does not begin with a quote. -/
def kindOfWord (word : List Char) : Written.ItemKind :=
  if word = "null".toList then .string
  else if Text.asciiLower word ∈ ["true".toList, "false".toList, "null".toList] then .boolean
  else .number

/-- The lexical class of a literal. -/
def kind : Item → Written.ItemKind
  | quoted .. => .string
  | bare word _ _ _ => kindOfWord word

def tree (start : Nat) (i : Item) : Tree :=
  .mk i.kind.rule start i.chars []

def written (start : Nat) (i : Item) : Written.Item :=
  ⟨i.kind, ⟨String.ofList i.chars, start⟩⟩

end Item

/-- A further literal of a list, with the comma before it. -/
structure NextItem where
  before : Gap
  after : Gap
  item : Item

namespace NextItem

def chars (n : NextItem) : List Char :=
  n.before.chars ++ ([','] ++ (n.after.chars ++ n.item.chars))

/-- The byte at which the literal stands if its gap begins at `start`. -/
def itemStart (start : Nat) (n : NextItem) : Nat :=
  start + Text.byteLength n.before.chars + Text.byteLength [','] + Text.byteLength n.after.chars

end NextItem

/-- A list of literals between parentheses. -/
structure ItemList where
  opening : Gap
  first : Item
  others : List NextItem
  closing : Gap

namespace ItemList

def chars (l : ItemList) : List Char :=
  ['('] ++ (l.opening.chars ++ (l.first.chars ++ (l.others.flatMap NextItem.chars ++
    (l.closing.chars ++ [')']))))

def items (l : ItemList) : List Item :=
  l.first :: l.others.map (·.item)

/-- The literals put down where they stand in a list that begins at `start`. -/
def putItems {β : Type} (put : Nat → Item → β) (start : Nat) (l : ItemList) : List β :=
  let first := start + Text.byteLength ['('] + Text.byteLength l.opening.chars
  put first l.first ::
    layOut NextItem.chars (fun start n => put (n.itemStart start) n.item)
      (first + Text.byteLength l.first.chars) l.others

def tree (start : Nat) (l : ItemList) : Tree :=
  .mk .itemList start l.chars (l.putItems Item.tree start)

def written (start : Nat) (l : ItemList) : Written.Value :=
  .list ⟨String.ofList l.chars, start⟩ (l.putItems Item.written start)

end ItemList

/-- A comparator of a list, in any case. -/
inductive Keyword where
  /-- The word `in`. -/
  | oneOf (word : List Char) (isIn : Text.asciiLower word = "in".toList)
  /-- The word `not`, blanks and the word `in`. -/
  | noneOf (negation : List Char) (gap : Gap) (word : List Char)
      (isNot : Text.asciiLower negation = "not".toList) (apart : gap.chars ≠ [])
      (isIn : Text.asciiLower word = "in".toList)

namespace Keyword

def chars : Keyword → List Char
  | oneOf word _ => word
  | noneOf negation gap word _ _ _ => negation ++ (gap.chars ++ word)

def operator : Keyword → Operator
  | oneOf .. => .oneOf
  | noneOf .. => .noneOf

end Keyword

/-- What is asked of a column: a comparator, a gap and a value. -/
inductive Comparison where
  /-- A symbol and one literal, the symbol not being the beginning of a longer one. -/
  | single (operator : Operator) (gap : Gap) (item : Item) (takesOne : operator.takesList = false)
      (whole : operator.isLengthened (gap.chars ++ item.chars) = false)
  /-- A keyword and a list. -/
  | list (keyword : Keyword) (gap : Gap) (list : ItemList)

namespace Comparison

def operator : Comparison → Operator
  | single op _ _ _ _ => op
  | list keyword _ _ => keyword.operator

/-- The characters of the comparator. -/
def comparator : Comparison → List Char
  | single op _ _ _ _ => op.symbol.toList
  | list keyword _ _ => keyword.chars

/-- The blanks between comparator and value. -/
def gap : Comparison → Gap
  | single _ gap _ _ _ => gap
  | list _ gap _ => gap

/-- The characters of the value. -/
def valueChars : Comparison → List Char
  | single _ _ item _ _ => item.chars
  | list _ _ l => l.chars

def chars (c : Comparison) : List Char :=
  c.comparator ++ (c.gap.chars ++ c.valueChars)

/-- Is the value a list? -/
def isList : Comparison → Bool
  | single .. => false
  | list .. => true

def items : Comparison → List Item
  | single _ _ item _ _ => [item]
  | list _ _ l => l.items

/-- The stretch of a comparator that begins at a byte. -/
def comparatorTree (start : Nat) (c : Comparison) : Tree :=
  .mk (if c.isList then .comparatorMultiple else .comparatorSingle) start c.comparator []

/-- The stretch of a value that begins at a byte. -/
def valueTree (start : Nat) : Comparison → Tree
  | single _ _ item _ _ => item.tree start
  | list _ _ l => l.tree start

/-- The value that stands at a byte. -/
def value (start : Nat) : Comparison → Written.Value
  | single _ _ item _ _ => .single (item.written start)
  | list _ _ l => l.written start

end Comparison

/-- A condition. -/
structure Condition where
  column : List Char
  gap : Gap
  comparison : Comparison
  column_ne_nil : column ≠ []
  column_isWord : ∀ c ∈ column, Text.isWordChar c = true
  apart : comparison.isList = true → gap.chars ≠ []

namespace Condition

def chars (c : Condition) : List Char :=
  c.column ++ (c.gap.chars ++ c.comparison.chars)

/-- The byte at which the comparator stands in a condition that begins at `start`. -/
def comparatorStart (start : Nat) (c : Condition) : Nat :=
  start + Text.byteLength c.column + Text.byteLength c.gap.chars

/-- The byte at which the value stands in a condition that begins at `start`. -/
def valueStart (start : Nat) (c : Condition) : Nat :=
  c.comparatorStart start + Text.byteLength c.comparison.comparator +
    Text.byteLength c.comparison.gap.chars

def tree (start : Nat) (c : Condition) : Tree :=
  .mk .condition start c.chars
    [.mk .column start c.column [], c.comparison.comparatorTree (c.comparatorStart start),
      c.comparison.valueTree (c.valueStart start)]

def written (start : Nat) (c : Condition) : Written.Condition where
  whole := ⟨String.ofList c.chars, start⟩
  column := ⟨String.ofList c.column, start⟩
  comparator := ⟨String.ofList c.comparison.comparator, c.comparatorStart start⟩
  value := c.comparison.value (c.valueStart start)

/-- What a condition says. -/
def outline (c : Condition) : Outline :=
  ⟨String.ofList c.column, c.comparison.operator, c.comparison.isList,
    c.comparison.items.map fun i => String.ofList i.chars⟩

end Condition

/-- A further condition, with the connector before it. -/
structure NextCondition where
  before : Gap
  connector : Connector
  keyword : List Char
  after : Gap
  condition : Condition
  before_ne_nil : before.chars ≠ []
  isKeyword : Text.asciiLower keyword = connector.keyword.toList
  after_ne_nil : after.chars ≠ []

namespace NextCondition

def chars (n : NextCondition) : List Char :=
  n.before.chars ++ (n.keyword ++ (n.after.chars ++ n.condition.chars))

/-- The byte at which the connector stands if its gap begins at `start`. -/
def keywordStart (start : Nat) (n : NextCondition) : Nat :=
  start + Text.byteLength n.before.chars

/-- The byte at which the condition stands if the gap before its connector begins at `start`. -/
def conditionStart (start : Nat) (n : NextCondition) : Nat :=
  n.keywordStart start + Text.byteLength n.keyword + Text.byteLength n.after.chars

/-- The stretches of a further condition. -/
def trees (start : Nat) (n : NextCondition) : List Tree :=
  [.mk .connector (n.keywordStart start) n.keyword [],
    n.condition.tree (n.conditionStart start)]

def written (start : Nat) (n : NextCondition) : Connector × Written.Condition :=
  (n.connector, n.condition.written (n.conditionStart start))

end NextCondition

/-- A filter. -/
structure Filter where
  opening : Gap
  first : Condition
  others : List NextCondition
  closing : Gap

namespace Filter

def chars (f : Filter) : List Char :=
  f.opening.chars ++ (f.first.chars ++ (f.others.flatMap NextCondition.chars ++ f.closing.chars))

/-- The text of a filter. -/
def text (f : Filter) : String :=
  String.ofList f.chars

/-- The conditions, from left to right. -/
def conditions (f : Filter) : List Condition :=
  f.first :: f.others.map (·.condition)

/-- The connectors, from left to right. -/
def connectors (f : Filter) : List Connector :=
  f.others.map (·.connector)

/-- The byte at which the gap after the first condition begins. -/
def othersStart (f : Filter) : Nat :=
  Text.byteLength f.opening.chars + Text.byteLength f.first.chars

def tree (f : Filter) : Tree :=
  .mk .filter 0 f.chars
    (f.first.tree (Text.byteLength f.opening.chars) ::
      ((layOut NextCondition.chars NextCondition.trees f.othersStart f.others).flatten ++
        [.mk .endOfInput (Text.byteLength f.chars) [] []]))

def written (f : Filter) : Written.Filter where
  first := f.first.written (Text.byteLength f.opening.chars)
  others := layOut NextCondition.chars NextCondition.written f.othersStart f.others

end Filter

end Spelling

end ColumnFilter
