import ColumnFilter.Number.Stepwise
import ColumnFilter.Proofs.Number.Rounding

/-!
# When reading in steps rounds once

Reading a literal in steps rounds its digits, then a power of ten, and then what
the two make together.  Digits with 53 bits and powers up to `10 ^ 22` are doubles
themselves, so the first two roundings change nothing and the third one sees the
exact quotient (`scale_ofNat`).  The literal then has the value nearest to it
(`stepwiseValue_eq_value`).
-/

namespace ColumnFilter

namespace Stepwise

/-! ### Gathered digits -/

theorem le_ofDigitChars (cs : List Char) (n : Nat) : n ≤ Nat.ofDigitChars 10 cs n := by
  induction cs generalizing n with
  | nil => exact Nat.le_refl n
  | cons c cs ih =>
    rw [Nat.ofDigitChars_cons]
    have := ih (10 * n + (c.toNat - '0'.toNat))
    omega

/-- Digits that fit are all gathered. -/
theorem gather_of_le {cs : List Char} {n : Nat} (h : Nat.ofDigitChars 10 cs n ≤ maxGathered) :
    gather n cs = (Nat.ofDigitChars 10 cs n, []) := by
  induction cs generalizing n with
  | nil => rfl
  | cons c cs ih =>
    rw [Nat.ofDigitChars_cons, Nat.mul_comm] at h ⊢
    have hnext := Nat.le_trans (le_ofDigitChars cs _) h
    rw [gather, if_pos hnext]
    exact ih h

/-- A literal whose digits fit is taken for the decimal it stands for. -/
theorem kept_of_le {l : Literal} (h : l.decimal.digits ≤ maxGathered) : kept l = l.decimal := by
  have hdigits : Nat.ofDigitChars 10 (l.fraction.getD []) (Nat.ofDigitChars 10 l.whole 0) =
      l.decimal.digits := by
    rw [Literal.decimal, Nat.ofDigitChars_append]
  have hfraction := gather_of_le (hdigits ▸ h)
  have hwhole := gather_of_le (Nat.le_trans (le_ofDigitChars (l.fraction.getD []) _) (hdigits ▸ h))
  rw [kept, hwhole]
  dsimp only
  rw [hfraction, hdigits, Literal.decimal]
  simp

/-! ### Exact steps -/

theorem unitsOfOne_eq_twoTo : unitsOfOne = twoTo 1074 :=
  rfl

theorem unitsOfOne_pos : 0 < unitsOfOne :=
  twoTo_pos 1074

theorem twoTo_dvd_twoTo {m n : Nat} (h : m ≤ n) : twoTo m ∣ twoTo n :=
  Nat.pow_dvd_pow 2 h

/-- Whole numbers of at most 53 bits are doubles. -/
theorem isDouble_mul_unitsOfOne {n : Nat} (h : n < twoTo 53) : IsDouble (n * unitsOfOne) := by
  have hlt : n * unitsOfOne < twoTo (53 + 1074) := by
    rw [twoTo_add, ← unitsOfOne_eq_twoTo]
    exact Nat.mul_lt_mul_of_pos_right h unitsOfOne_pos
  refine ⟨Nat.lt_of_lt_of_le hlt (twoTo_le_twoTo (by decide)), ?_⟩
  by_cases hn : n = 0
  · rw [hn, Nat.zero_mul]
    exact Nat.dvd_zero _
  · have hne : n * unitsOfOne ≠ 0 := Nat.mul_ne_zero hn (Nat.ne_of_gt unitsOfOne_pos)
    have hlog : (n * unitsOfOne).log2 < 53 + 1074 := by
      refine Nat.lt_of_not_le fun hge => ?_
      have hle := Nat.le_trans (twoTo_le_twoTo hge) (twoTo_log2_le hne)
      exact Nat.not_lt.2 hle hlt
    have hdvd : twoTo ((n * unitsOfOne).log2 - 52) ∣ unitsOfOne := by
      rw [unitsOfOne_eq_twoTo] at hlog ⊢
      exact twoTo_dvd_twoTo (by omega)
    exact Nat.dvd_trans hdvd (Nat.dvd_mul_left _ n)

theorem ofNat_of_lt {n : Nat} (h : n < twoTo 53) : ofNat n = n * unitsOfOne := by
  have hone := nearestMagnitude_of_isDouble Nat.one_pos (isDouble_mul_unitsOfOne h)
  rw [Nat.mul_one] at hone
  exact hone

/-- Powers of ten up to `10 ^ 22` are doubles: what is odd in them has 53 bits at most. -/
theorem powerOfTen_of_le {k : Nat} (h : k ≤ 22) : powerOfTen k = tenTo k * unitsOfOne := by
  have hall : ∀ k < 23, powerOfTen k = tenTo k * unitsOfOne := by decide +kernel
  exact hall k (by omega)

/-- **Exact digits and an exact power of ten are rounded once.** -/
theorem scale_ofNat {d : Decimal} (hdigits : d.digits < twoTo 53)
    (hexponent : d.exponent.natAbs ≤ 22) : scale (ofNat d.digits) d.exponent = d.nearest := by
  rw [ofNat_of_lt hdigits, scale]
  split
  next h =>
    have hneg : (-d.exponent).toNat = 0 := by omega
    have hone : tenTo 0 = 1 := rfl
    rw [powerOfTen_of_le (by omega), product, Decimal.nearest, hneg, hone]
    refine nearestMagnitude_congr unitsOfOne_pos Nat.one_pos ?_
    simp only [Nat.mul_one, Nat.mul_assoc, Nat.mul_left_comm, Nat.mul_comm]
  next h =>
    have hpos : d.exponent.toNat = 0 := by omega
    have hone : tenTo 0 = 1 := rfl
    -- so small a power of ten is divided by at once
    have htimes : ((-d.exponent).toNat - 1) / maxPower = 0 :=
      Nat.div_eq_of_lt (by show _ < 308; omega)
    rw [divide, htimes, divideByGreatest, Nat.zero_mul, Nat.sub_zero,
      powerOfTen_of_le (by omega), quotient, Decimal.nearest, hpos, hone, Nat.mul_one,
      nearestMagnitude_mul_right _ _ unitsOfOne_pos]

end Stepwise

/-- **A literal with exact digits and an exact power of ten has its nearest value.** -/
theorem Literal.stepwiseValue_eq_value {l : Literal} (hdigits : l.decimal.digits < twoTo 53)
    (hexponent : l.decimal.exponent.natAbs ≤ 22) : l.stepwiseValue = l.value := by
  have hkept : Stepwise.kept l = l.decimal :=
    Stepwise.kept_of_le (Nat.le_trans (Nat.le_of_lt hdigits) (by decide))
  rw [stepwiseValue, hkept, Stepwise.scale_ofNat hdigits hexponent, value,
    Decimal.toNumber_eq_nearest]

end ColumnFilter
