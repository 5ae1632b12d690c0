import ColumnFilter.Number.Rounding

/-!
# Numeric literals

The written form of a number: an optional sign, digits with an optional point
among them, and an optional exponent.  What counts as a digit is a parameter,
because the shape of a literal is also asked for with the digits of every
script, while only those of the ASCII range have a value.
-/

namespace ColumnFilter

/-- A sign as written. -/
inductive Sign where
  | plus
  | minus
deriving DecidableEq, Repr

/-- The sign that a text may begin with, and what follows it. -/
def Sign.read : List Char → Option Sign × List Char
  | '+' :: cs => (some .plus, cs)
  | '-' :: cs => (some .minus, cs)
  | cs => (none, cs)

/-- A number as written. -/
structure Literal where
  /-- The sign, if one is written. -/
  sign : Option Sign
  /-- The digits before the point. -/
  whole : List Char
  /-- The digits after the point, if there is a point. -/
  fraction : Option (List Char)
  /-- The sign and the digits of the exponent, if there is one. -/
  exponent : Option (Option Sign × List Char)
deriving DecidableEq, Repr

namespace Literal

/-- The digits after a point, and what follows them. -/
def readFraction (isDigit : Char → Bool) : List Char → Option (List Char) × List Char
  | '.' :: cs => (some (cs.takeWhile isDigit), cs.dropWhile isDigit)
  | cs => (none, cs)

/-- The exponent that makes up the whole text; no text is no exponent. -/
def readExponent (isDigit : Char → Bool) :
    List Char → Option (Option (Option Sign × List Char))
  | [] => some none
  | c :: cs =>
    let (sign, digits) := Sign.read cs
    if (c == 'e' || c == 'E') && !digits.isEmpty && digits.all isDigit then
      some (some (sign, digits))
    else none

/-- The literal that makes up the whole text; it has a digit before or after the point. -/
def read? (isDigit : Char → Bool) (cs : List Char) : Option Literal :=
  let (sign, unsigned) := Sign.read cs
  let whole := unsigned.takeWhile isDigit
  let (fraction, rest) := readFraction isDigit (unsigned.dropWhile isDigit)
  if whole.isEmpty && (fraction.getD []).isEmpty then none
  else (readExponent isDigit rest).map fun exponent => ⟨sign, whole, fraction, exponent⟩

/-- The power of ten that an exponent stands for. -/
def scale : Option (Option Sign × List Char) → Int
  | none => 0
  | some (some .minus, digits) => -(Nat.ofDigitChars 10 digits 0 : Int)
  | some (_, digits) => (Nat.ofDigitChars 10 digits 0 : Int)

/-- The decimal that a literal stands for, its sign apart. -/
def decimal (l : Literal) : Decimal :=
  let fraction := l.fraction.getD []
  ⟨Nat.ofDigitChars 10 (l.whole ++ fraction) 0, scale l.exponent - fraction.length⟩

/-- The double nearest to a literal. -/
def value (l : Literal) : Number :=
  l.decimal.toNumber (l.sign == some .minus)

end Literal

namespace Number

/-- An infinity or no number, written as a word in any case. -/
def readWord? (cs : List Char) : Option Number :=
  let (sign, word) := Sign.read cs
  let word := String.ofList (word.map Char.toLower)
  if word == "inf" || word == "infinity" then some (infinite (sign == some .minus))
  else if word == "nan" then some notANumber
  else none

/-- The number that a text stands for: a literal with ASCII digits, or a word. -/
def read? (cs : List Char) : Option Number :=
  match Literal.read? Char.isDigit cs with
  | some l => some l.value
  | none => readWord? cs

end Number

end ColumnFilter
