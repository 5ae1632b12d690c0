import ColumnFilter.Json.Basic
import ColumnFilter.Number.Layout

/-!
# JSON texts

Two layouts of a value: a compact one without blanks, and one with a line for
every item and member, indented by two spaces a level.  Only quotes,
backslashes and control characters are escaped in a text.  What stands for
nothing has no form of its own and becomes `null`.
-/

namespace ColumnFilter.Json

/-- A lower-case hexadecimal digit. -/
def hexDigit (n : Nat) : Char :=
  Nat.digitChar (n % 16)

/-- A character inside a JSON text. -/
def escape (c : Char) : List Char :=
  if c == '"' then ['\\', '"']
  else if c == '\\' then ['\\', '\\']
  else if c == '\x08' then ['\\', 'b']
  else if c == '\x0c' then ['\\', 'f']
  else if c == '\n' then ['\\', 'n']
  else if c == '\r' then ['\\', 'r']
  else if c == '\t' then ['\\', 't']
  else if c.toNat < 0x20 then
    ['\\', 'u', '0', '0', hexDigit (c.toNat / 16), hexDigit c.toNat]
  else [c]

/-- A text between quotes, with what needs it escaped. -/
def quoteText (s : String) : List Char :=
  '"' :: (s.toList.flatMap escape ++ ['"'])

/-- The JSON form of a number; what is not finite has none and becomes `null`. -/
def numberChars (x : Number) : List Char :=
  x.jsonChars?.getD "null".toList

/-- A truth value. -/
def booleanChars (b : Bool) : List Char :=
  if b then "true".toList else "false".toList

mutual

/-- A value without blanks. -/
def compactChars : Json → List Char
  | null => "null".toList
  | boolean b => booleanChars b
  | number x => numberChars x
  | text s => quoteText s
  | array items => '[' :: (compactItems items ++ [']'])
  | object members => '\x7b' :: (compactMembers members ++ ['\x7d'])
  | unreadable => "null".toList

/-- Items with commas between them. -/
def compactItems : List Json → List Char
  | [] => []
  | [v] => compactChars v
  | v :: vs => compactChars v ++ ',' :: compactItems vs

/-- Members with commas between them. -/
def compactMembers : List (String × Json) → List Char
  | [] => []
  | [(s, v)] => quoteText s ++ ':' :: compactChars v
  | (s, v) :: rest => quoteText s ++ ':' :: (compactChars v ++ ',' :: compactMembers rest)

end

/-- The start of a line at a level. -/
def newLine (level : Nat) : List Char :=
  '\n' :: List.replicate (2 * level) ' '

/-- Lines at a level inside brackets, which stay together if there is nothing inside. -/
def bracketed (opening closing : Char) (level : Nat) (lines : List Char) : List Char :=
  if lines.isEmpty then [opening, closing]
  else opening :: (lines ++ newLine level ++ [closing])

mutual

/-- A value with a line for every item and member, inside `level` others. -/
def indentedChars (level : Nat) : Json → List Char
  | null => "null".toList
  | boolean b => booleanChars b
  | number x => numberChars x
  | text s => quoteText s
  | array items => bracketed '[' ']' level (indentedItems (level + 1) items)
  | object members => bracketed '\x7b' '\x7d' level (indentedMembers (level + 1) members)
  | unreadable => "null".toList

/-- Items on lines of their own. -/
def indentedItems (level : Nat) : List Json → List Char
  | [] => []
  | [v] => newLine level ++ indentedChars level v
  | v :: vs => newLine level ++ indentedChars level v ++ ',' :: indentedItems level vs

/-- Members on lines of their own. -/
def indentedMembers (level : Nat) : List (String × Json) → List Char
  | [] => []
  | [(s, v)] => newLine level ++ quoteText s ++ ':' :: ' ' :: indentedChars level v
  | (s, v) :: rest =>
    newLine level ++ quoteText s ++ ':' :: ' ' :: indentedChars level v ++
      ',' :: indentedMembers level rest

end

/-- A value without blanks. -/
def compact (v : Json) : String :=
  String.ofList (compactChars v)

/-- A value with a line for every item and member. -/
def indented (v : Json) : String :=
  String.ofList (indentedChars 0 v)

end ColumnFilter.Json
