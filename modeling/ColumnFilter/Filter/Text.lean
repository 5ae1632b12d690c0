import ColumnFilter.Filter.Basic
import ColumnFilter.Number.Layout

/-!
# Filter text

Every filter has a canonical text.  A condition is its column, the symbol of
its operator and its value with single spaces between them, and the connectors
stand between conditions with a space on both sides.  The notation has no
escapes: a text value is put between double quotes, or between single ones if
only that keeps it apart from its own quotes.  White space at both ends of the
whole is dropped.
-/

namespace ColumnFilter

/-- The quote around a text: single if the text has double quotes and no single one. -/
def quoteFor (cs : List Char) : Char :=
  if cs.contains '"' && !cs.contains '\'' then '\'' else '"'

/-- A text between quotes. -/
def quoted (cs : List Char) : List Char :=
  quoteFor cs :: (cs ++ [quoteFor cs])

namespace Scalar

/-- A literal as written in filter text. -/
def chars : Scalar → List Char
  | null => "null".toList
  | boolean true => "true".toList
  | boolean false => "false".toList
  | number x => x.plainChars
  | text s => quoted s.toList

end Scalar

namespace Value

/-- A literal, or literals between parentheses with commas between them. -/
def chars : Value → List Char
  | single item => item.chars
  | list items => '(' :: ([',', ' '].intercalate (items.map Scalar.chars) ++ [')'])

end Value

namespace Condition

/-- A condition as written in filter text. -/
def chars (c : Condition) : List Char :=
  c.column.toList ++ ' ' :: (c.operator.symbol.toList ++ ' ' :: c.value.chars)

/-- The text of one condition, with nothing trimmed. -/
def text (c : Condition) : String :=
  String.ofList c.chars

end Condition

namespace Connector

/-- A connector with the spaces around it. -/
def spaced (k : Connector) : List Char :=
  ' ' :: (k.keyword.toList ++ [' '])

end Connector

namespace Filter

/-- Conditions and the connectors between them; a gap without a connector stays empty. -/
def joined : List Condition → List Connector → List Char
  | [], _ => []
  | [c], _ => c.chars
  | c :: cs, [] => c.chars ++ joined cs []
  | c :: cs, k :: ks => c.chars ++ k.spaced ++ joined cs ks

/-- The characters of the canonical text. -/
def chars (f : Filter) : List Char :=
  Text.trimChars (joined f.conditions f.connectors)

/-- The canonical text of a filter. -/
def text (f : Filter) : String :=
  String.ofList f.chars

end Filter

end ColumnFilter
