/-!
# The pieces of a JSON text

A JSON text stands between quotes.  Each of its pieces is a character, plain or
escaped, or the escape of one half of a pair, which is no character by itself.
Telling the pieces apart and joining the halves are two steps: a text can be well
formed although it stands for nothing, and then it may be passed over but not
read.
-/

namespace ColumnFilter.Json

/-- What stands at one place of a text. -/
inductive Piece where
  /-- A character. -/
  | char (c : Char)
  /-- One half of a pair, with its code. -/
  | half (code : Nat)
deriving DecidableEq, Repr

namespace Piece

/-- The value of a hexadecimal digit. -/
def hexValue? (c : Char) : Option Nat :=
  if '0' ≤ c && c ≤ '9' then some (c.toNat - '0'.toNat)
  else if 'a' ≤ c && c ≤ 'f' then some (c.toNat - 'a'.toNat + 10)
  else if 'A' ≤ c && c ≤ 'F' then some (c.toNat - 'A'.toNat + 10)
  else none

/-- The value of four hexadecimal digits. -/
def hexValue4? (a b c d : Char) : Option Nat :=
  match hexValue? a, hexValue? b, hexValue? c, hexValue? d with
  | some x, some y, some z, some w => some (((x * 16 + y) * 16 + z) * 16 + w)
  | _, _, _, _ => none

/-- Is the code the first half of a pair? -/
def isHighHalf (n : Nat) : Bool :=
  0xD800 ≤ n && n < 0xDC00

/-- Is the code the second half of a pair? -/
def isLowHalf (n : Nat) : Bool :=
  0xDC00 ≤ n && n < 0xE000

/-- The character that two halves stand for. -/
def joinHalves (high low : Nat) : Char :=
  Char.ofNat (0x10000 + (high - 0xD800) * 0x400 + (low - 0xDC00))

/-- The piece that a code stands for. -/
def ofCode (code : Nat) : Piece :=
  if isHighHalf code || isLowHalf code then half code else char (Char.ofNat code)

/-- The character that a backslash and one other character stand for. -/
def escaped? : Char → Option Char
  | '"' => some '"'
  | '\\' => some '\\'
  | '/' => some '/'
  | 'b' => some '\x08'
  | 'f' => some '\x0c'
  | 'n' => some '\n'
  | 'r' => some '\r'
  | 't' => some '\t'
  | _ => none

/-- A reading with one more piece in front. -/
def cons (piece : Piece) (read : List Piece × List Char) : List Piece × List Char :=
  (piece :: read.1, read.2)

/-- The pieces up to the closing quote, and what follows it; control characters are no pieces. -/
def read : List Char → Option (List Piece × List Char)
  | [] => none
  | '"' :: cs => some ([], cs)
  | '\\' :: 'u' :: a :: b :: c :: d :: cs =>
    match hexValue4? a b c d with
    | none => none
    | some code => (read cs).map (cons (ofCode code))
  | '\\' :: c :: cs =>
    match escaped? c with
    | none => none
    | some d => (read cs).map (cons (char d))
  | c :: cs => if c.toNat < 0x20 then none else (read cs).map (cons (char c))

/-- The characters that pieces stand for, if the halves among them come in pairs. -/
def join? : List Piece → Option (List Char)
  | [] => some []
  | char c :: pieces => (join? pieces).map (c :: ·)
  | half high :: half low :: pieces =>
    if isHighHalf high && isLowHalf low then (join? pieces).map (joinHalves high low :: ·)
    else none
  | half _ :: _ => none

/-- The text that pieces stand for. -/
def text? (pieces : List Piece) : Option String :=
  (join? pieces).map String.ofList

end Piece

end ColumnFilter.Json
