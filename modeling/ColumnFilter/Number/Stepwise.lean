import ColumnFilter.Number.Literal

/-!
# Reading a literal in steps

A literal can be read with the arithmetic of doubles alone.  As many digits as
fit into 64 bits are gathered into a natural number, which is rounded to a
double; that is then multiplied or divided by the power of ten that is left, and
the result is rounded again.  A literal whose digits and power of ten are
doubles themselves is rounded once, and so has the value nearest to it.  For
longer digits and greater powers the roundings add up, and the double that is
read can be a neighbour of the nearest one.
-/

namespace ColumnFilter

namespace Stepwise

/-- The greatest number that digits are gathered into. -/
def maxGathered : Nat :=
  18446744073709551615

/-- A number with digits put behind its own as long as it fits, and the digits that are left. -/
def gather (n : Nat) : List Char → Nat × List Char
  | [] => (n, [])
  | c :: cs =>
    let next := n * 10 + (c.toNat - '0'.toNat)
    if next ≤ maxGathered then gather next cs else (n, c :: cs)

/-- The decimal that a literal is taken for, its sign apart.

Digits before the point that do not fit count as zeros, and the first digit
after the point that does not fit ends the literal's digits. -/
def kept (l : Literal) : Decimal :=
  let (whole, idle) := gather 0 l.whole
  let fraction := l.fraction.getD []
  let (digits, lost) := gather whole fraction
  ⟨digits, Literal.scale l.exponent + idle.length - (fraction.length - lost.length : Nat)⟩

/-- The magnitude nearest to a natural number. -/
def ofNat (n : Nat) : Nat :=
  nearestMagnitude (n * unitsOfOne) 1

/-- The magnitude nearest to a product. -/
def product (m n : Nat) : Nat :=
  nearestMagnitude (m * n) unitsOfOne

/-- The magnitude nearest to a quotient. -/
def quotient (m n : Nat) : Nat :=
  nearestMagnitude (m * unitsOfOne) n

/-- The magnitude nearest to a power of ten. -/
def powerOfTen (k : Nat) : Nat :=
  Decimal.magnitude ⟨1, k⟩

/-- The exponent of the greatest power of ten that is finite. -/
def maxPower : Nat :=
  308

/-- A magnitude divided by the greatest power of ten a number of times; zero stays zero. -/
def divideByGreatest : Nat → Nat → Nat
  | 0, m => m
  | times + 1, m =>
    if m = 0 then 0 else divideByGreatest times (quotient m (powerOfTen maxPower))

/-- A magnitude divided by a power of ten, the greatest one first as often as it is exceeded. -/
def divide (m k : Nat) : Nat :=
  let times := (k - 1) / maxPower
  quotient (divideByGreatest times m) (powerOfTen (k - times * maxPower))

/-- A magnitude multiplied by a power of ten. -/
def scale (m : Nat) (e : Int) : Nat :=
  if 0 ≤ e then product m (powerOfTen e.toNat) else divide m (-e).toNat

end Stepwise

/-- The double that is read from a literal in steps. -/
def Literal.stepwiseValue (l : Literal) : Number :=
  let d := Stepwise.kept l
  Number.ofMagnitude (l.sign == some .minus) (Stepwise.scale (Stepwise.ofNat d.digits) d.exponent)

end ColumnFilter
