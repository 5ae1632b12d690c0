import ColumnFilter.Number.Rounding

/-!
# The shortest decimal of a double

Of all decimals that round to a double, the one with the fewest digits is
written, and of several with that many digits the nearest.  For a given number
of digits only the two decimals next to the double come into question, so each
count from one to seventeen is tried in turn.  Where the double lies exactly
between the two, the place of use decides.
-/

namespace ColumnFilter

/-- What is done with a double that lies exactly between two decimals. -/
inductive Tie where
  /-- The greater one is taken. -/
  | up
  /-- The one with the even last digit is taken. -/
  | toEven
deriving DecidableEq, Repr

namespace Decimal

/-- The number of units of `10 ^ (-1074)` in one of `2 ^ (-1074)`. -/
def decimalUnits : Nat :=
  Nat.pow 5 1074

/-- A magnitude in units of `10 ^ (-1074)`, in which it is a whole number. -/
def exactDigits (magnitude : Nat) : Nat :=
  magnitude * decimalUnits

/-- A magnitude without any rounding. -/
def exact (magnitude : Nat) : Decimal :=
  ⟨exactDigits magnitude, -1074⟩

/-- Does the decimal round to the magnitude? -/
def reads (magnitude : Nat) (d : Decimal) : Bool :=
  d.magnitude == magnitude

/-- Is the upper of the two decimals around a magnitude the better one? -/
def upperIsBetter (tie : Tie) (below remainder step : Nat) : Bool :=
  step < 2 * remainder ||
    (2 * remainder == step && match tie with
      | .up => true
      | .toEven => below % 2 == 1)

/-- The two decimals around `whole * 10 ^ (-1074)` that lack its last `dropped` digits,
the better one first. -/
def neighbours (tie : Tie) (whole dropped : Nat) : List Decimal :=
  let step := tenTo dropped
  let below := whole / step
  let exponent := (dropped : Int) - 1074
  let lower : Decimal := ⟨below, exponent⟩
  let upper : Decimal := ⟨below + 1, exponent⟩
  if upperIsBetter tie below (whole % step) step then [upper, lower] else [lower, upper]

/-- The same decimal without zeros at the end of its digits. -/
def strip (d : Decimal) : Decimal :=
  let zeros := ((Nat.toDigits 10 d.digits).reverse.takeWhile (· == '0')).length
  ⟨d.digits / tenTo zeros, d.exponent + zeros⟩

/-- The decimal with the fewest digits that rounds to a magnitude; seventeen always do. -/
def shortest (tie : Tie) (magnitude : Nat) : Decimal :=
  if magnitude = 0 then ⟨0, 0⟩
  else
    let whole := exactDigits magnitude
    let length := (Nat.toDigits 10 whole).length
    let found := (List.range 17).findSome? fun count =>
      (neighbours tie whole (length - (count + 1))).find? (reads magnitude)
    (found.getD (exact magnitude)).strip

end Decimal

end ColumnFilter
