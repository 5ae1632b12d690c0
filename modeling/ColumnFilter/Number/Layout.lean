import ColumnFilter.Number.Shortest

/-!
# Written numbers

Two layouts of the shortest decimal.  Filter text writes every number with all
its places, without an exponent and without an idle point.  JSON does so only
where the leading digit stands for `10 ^ (-5)` to `10 ^ 15`, always with a
fraction, and uses an exponent with a sign elsewhere.
-/

namespace ColumnFilter

namespace Decimal

/-- The digits of a decimal. -/
def digitChars (d : Decimal) : List Char :=
  Nat.toDigits 10 d.digits

/-- All places of a decimal, with a point only if a digit follows it. -/
def places (d : Decimal) : List Char :=
  let digits := d.digitChars
  if 0 ≤ d.exponent then digits ++ List.replicate d.exponent.toNat '0'
  else
    let after := (-d.exponent).toNat
    let padded := List.replicate (after + 1 - digits.length) '0' ++ digits
    padded.take (padded.length - after) ++ '.' :: padded.drop (padded.length - after)

/-- The power of ten of the leading digit. -/
def leadingPower (d : Decimal) : Int :=
  d.exponent + d.digitChars.length - 1

/-- A power of ten with its sign. -/
def signedPower (e : Int) : List Char :=
  (if e < 0 then '-' else '+') :: Nat.toDigits 10 e.natAbs

/-- One digit, the others after a point if there are any, and the power of ten. -/
def scientific (d : Decimal) : List Char :=
  (match d.digitChars with
    | [] => []
    | [c] => [c]
    | c :: cs => c :: '.' :: cs) ++ 'e' :: signedPower d.leadingPower

/-- All places and always a fraction. -/
def placesWithFraction (d : Decimal) : List Char :=
  if 0 ≤ d.exponent then d.places ++ ['.', '0'] else d.places

end Decimal

namespace Number

/-- The minus sign of a negative number. -/
def signChars (negative : Bool) : List Char :=
  if negative then ['-'] else []

/-- A number in filter text. -/
def plainChars : Number → List Char
  | finite negative magnitude _ =>
    signChars negative ++ (Decimal.shortest .up magnitude).places
  | infinite negative => signChars negative ++ ['i', 'n', 'f']
  | notANumber => ['N', 'a', 'N']

/-- A finite number in JSON, which has no other numbers. -/
def jsonChars? : Number → Option (List Char)
  | finite negative magnitude _ =>
    let d := Decimal.shortest .toEven magnitude
    let positional := -5 ≤ d.leadingPower && d.leadingPower ≤ 15
    some (signChars negative ++ if positional then d.placesWithFraction else d.scientific)
  | _ => none

end Number

end ColumnFilter
