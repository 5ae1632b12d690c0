import ColumnFilter.Number.Basic

/-!
# Rounding to a double

A decimal is rounded to the nearest double, and of two nearest ones to the one
with the even last bit.  The rounding happens on magnitudes: a quotient of
natural numbers is rounded to 53 bits, or to a whole number of units if it has
fewer, and the bound on magnitudes then tells a finite number from an infinite
one.
-/

namespace ColumnFilter

/-- The natural number nearest to `num / den`, the even one of two. -/
def roundHalfEven (num den : Nat) : Nat :=
  let q := num / den
  let r := num % den
  if 2 * r < den then q
  else if den < 2 * r then q + 1
  else q + q % 2

/-- The magnitude with at most 53 leading bits that is nearest to `num / den`. -/
def nearestMagnitude (num den : Nat) : Nat :=
  let e := (num / den).log2 - 52
  roundHalfEven num (den * twoTo e) * twoTo e

/-- The decimal `digits * 10 ^ exponent`. -/
structure Decimal where
  /-- The digits, read as one natural number. -/
  digits : Nat
  /-- The power of ten that scales them. -/
  exponent : Int
deriving DecidableEq, Repr

namespace Decimal

/-- The exponent, brought near enough to zero to compute with.

Beyond the upper bound every positive decimal is infinite, and below the lower
one every decimal is zero, so a moved exponent stands for the same double. -/
def nearExponent (d : Decimal) : Int :=
  max (-(400 + d.digits.log2 : Nat)) (min d.exponent 400)

/-- The nearest magnitude, in units of `2 ^ (-1074)`. -/
def magnitude (d : Decimal) : Nat :=
  let e := d.nearExponent
  nearestMagnitude (d.digits * tenTo e.toNat * unitsOfOne) (tenTo (-e).toNat)

/-- The nearest double with a sign of its own. -/
def toNumber (negative : Bool) (d : Decimal) : Number :=
  Number.ofMagnitude negative d.magnitude

end Decimal

/-- A whole number is its own rounding. -/
theorem roundHalfEven_mul_self (n : Nat) {den : Nat} (h : 0 < den) :
    roundHalfEven (n * den) den = n := by
  simp [roundHalfEven, Nat.mul_div_cancel n h, h]

/-- Rounding moves a quotient by half a unit at most. -/
theorem roundHalfEven_close (num : Nat) {den : Nat} (h : 0 < den) :
    2 * (roundHalfEven num den * den) ≤ 2 * num + den ∧
      2 * num ≤ 2 * (roundHalfEven num den * den) + den := by
  have hq := Nat.div_add_mod' num den
  have hr := Nat.mod_lt num h
  have hs : (num / den + 1) * den = num / den * den + den := Nat.succ_mul _ _
  unfold roundHalfEven
  dsimp only
  split
  · omega
  split
  · rw [hs]
    omega
  · rcases Nat.mod_two_eq_zero_or_one (num / den) with he | he
    · rw [he, Nat.add_zero]
      omega
    · rw [he, hs]
      omega

/-- Half a unit is rounded to an even number. -/
theorem roundHalfEven_of_half {num den : Nat} (h : 2 * (num % den) = den) :
    roundHalfEven num den % 2 = 0 := by
  unfold roundHalfEven
  dsimp only
  rw [if_neg (by omega), if_neg (by omega)]
  omega

/-- What a double holds is its own nearest magnitude. -/
theorem nearestMagnitude_of_isDouble {n den : Nat} (h : 0 < den) (hn : IsDouble n) :
    nearestMagnitude (n * den) den = n := by
  obtain ⟨k, hk⟩ := hn.2
  have hp : 0 < den * twoTo (n.log2 - 52) := Nat.mul_pos h (twoTo_pos _)
  have he : n * den = k * (den * twoTo (n.log2 - 52)) := by
    rw [Nat.mul_left_comm, Nat.mul_comm k, ← hk, Nat.mul_comm]
  rw [nearestMagnitude, Nat.mul_div_cancel n h, he, roundHalfEven_mul_self k hp, Nat.mul_comm, ← hk]

end ColumnFilter
