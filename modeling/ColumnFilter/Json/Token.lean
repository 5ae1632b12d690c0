import ColumnFilter.Json.Piece
import ColumnFilter.Number.Stepwise

/-!
# JSON tokens

A JSON text is cut into tokens; blanks between them are dropped.  A text or a
number that is well formed is a token, but it may stand for nothing: a text with
half a pair in it, or a number out of the range of doubles.
-/

namespace ColumnFilter

namespace Json

/-- The smallest parts of a JSON text. -/
inductive Token where
  | openArray
  | closeArray
  | openObject
  | closeObject
  | comma
  | colon
  | null
  | boolean (value : Bool)
  /-- A number, with its value if that is finite. -/
  | number (value : Option Number)
  /-- A text, with what it stands for. -/
  | text (value : Option String)
deriving DecidableEq, Repr

namespace Token

/-- The blanks that may stand between tokens. -/
def isBlank (c : Char) : Bool :=
  c == ' ' || c == '\t' || c == '\n' || c == '\r'

/-- The characters that a number may consist of. -/
def isNumberChar (c : Char) : Bool :=
  c.isDigit || c == '-' || c == '+' || c == '.' || c == 'e' || c == 'E'

/-- JSON numbers have no plus sign, no idle zero in front and a digit on both sides of a point. -/
def isStrict (l : Literal) : Bool :=
  l.sign != some .plus && l.fraction != some [] &&
    match l.whole with
    | [] => false
    | c :: cs => c != '0' || cs.isEmpty

/-- The value of a number, if it is finite. -/
def finiteValue? (l : Literal) : Option Number :=
  let x := l.stepwiseValue
  if x.isFinite then some x else none

/-- The token of the characters of a number. -/
def ofNumberChars? (cs : List Char) : Option Token :=
  match Literal.read? Char.isDigit cs with
  | none => none
  | some l => if isStrict l then some (number (finiteValue? l)) else none

/-- The token of a word. -/
def ofWord? (cs : List Char) : Option Token :=
  let word := String.ofList cs
  if word == "null" then some null
  else if word == "true" then some (boolean true)
  else if word == "false" then some (boolean false)
  else none

/-- The token of a single character. -/
def ofMark? : Char → Option Token
  | '[' => some openArray
  | ']' => some closeArray
  | '\x7b' => some openObject
  | '\x7d' => some closeObject
  | ',' => some comma
  | ':' => some colon
  | _ => none

/-- The token that begins with a character, and what follows it. -/
def readFirst (c : Char) (cs : List Char) : Option (Token × List Char) :=
  match ofMark? c with
  | some token => some (token, cs)
  | none =>
    if c == '"' then (Piece.read cs).map fun read => (text (Piece.text? read.1), read.2)
    else if c.isAlpha then
      (ofWord? (c :: cs.takeWhile Char.isAlpha)).map (·, cs.dropWhile Char.isAlpha)
    else
      (ofNumberChars? (c :: cs.takeWhile isNumberChar)).map (·, cs.dropWhile isNumberChar)

/-- Does the token stand for something? -/
def isReadable : Token → Bool
  | number value => value.isSome
  | text value => value.isSome
  | _ => true

/-- At most `bound` tokens and blanks of a text. -/
def readWithin : Nat → List Char → Option (List Token)
  | _, [] => some []
  | 0, _ :: _ => none
  | bound + 1, c :: cs =>
    if isBlank c then readWithin bound cs
    else match readFirst c cs with
      | none => none
      | some (token, rest) => (readWithin bound rest).map (token :: ·)

/-- The tokens of a text; every token or blank takes at least one character. -/
def readAll (cs : List Char) : Option (List Token) :=
  readWithin cs.length cs

end Token

end Json

end ColumnFilter
