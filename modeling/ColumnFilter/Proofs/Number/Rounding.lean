import ColumnFilter.Number.Rounding

/-!
# Rounding depends on the value alone

One and the same value can be written as a decimal in many ways, and one and the
same quotient with many denominators.  `nearestMagnitude_congr` says that the
nearest magnitude is that of the quotient.  A decimal whose exponent is too far
from zero is rounded with another exponent; `toNumber_eq_nearest` says that the
result is the same as without that detour, and `toNumber_shift` that zeros may
be moved between digits and exponent.
-/

namespace ColumnFilter

theorem tenTo_add (m n : Nat) : tenTo (m + n) = tenTo m * tenTo n :=
  Nat.pow_add 10 m n

theorem twoTo_add (m n : Nat) : twoTo (m + n) = twoTo m * twoTo n :=
  Nat.pow_add 2 m n

theorem twoTo_le_twoTo {m n : Nat} (h : m ≤ n) : twoTo m ≤ twoTo n :=
  Nat.pow_le_pow_right (by decide) h

theorem twoTo_le_tenTo (n : Nat) : twoTo (3 * n) ≤ tenTo n := by
  have hpow : twoTo (3 * n) = Nat.pow 8 n := Nat.pow_mul 2 3 n
  rw [hpow]
  exact Nat.pow_le_pow_left (by decide) n

theorem twoTo_log2_le {n : Nat} (h : n ≠ 0) : twoTo n.log2 ≤ n :=
  Nat.log2_self_le h

theorem lt_twoTo_log2_add_one (n : Nat) : n < twoTo (n.log2 + 1) :=
  Nat.lt_log2_self

/-! ### Quotients -/

theorem roundHalfEven_mul_right (num den : Nat) {k : Nat} (h : 0 < k) :
    roundHalfEven (num * k) (den * k) = roundHalfEven num den := by
  have hlt : ∀ m n, m * k < n * k ↔ m < n := fun m n => Nat.mul_lt_mul_right h
  rw [roundHalfEven, roundHalfEven, Nat.mul_div_mul_right num den h, Nat.mul_mod_mul_right,
    ← Nat.mul_assoc]
  simp only [hlt]

theorem nearestMagnitude_mul_right (num den : Nat) {k : Nat} (h : 0 < k) :
    nearestMagnitude (num * k) (den * k) = nearestMagnitude num den := by
  rw [nearestMagnitude, nearestMagnitude, Nat.mul_div_mul_right num den h, Nat.mul_right_comm den,
    roundHalfEven_mul_right _ _ h]

/-- **Equal quotients are rounded alike.** -/
theorem nearestMagnitude_congr {num den num' den' : Nat} (h : 0 < den) (h' : 0 < den')
    (heq : num * den' = num' * den) : nearestMagnitude num den = nearestMagnitude num' den' := by
  rw [← nearestMagnitude_mul_right num den h', heq, Nat.mul_comm den den',
    nearestMagnitude_mul_right num' den' h]

/-- What is less than half a unit is rounded to zero. -/
theorem nearestMagnitude_eq_zero {num den : Nat} (h : 2 * num < den) :
    nearestMagnitude num den = 0 := by
  have hdiv : num / den = 0 := Nat.div_eq_of_lt (by omega)
  have hlog : Nat.log2 0 - 52 = 0 := by decide
  have hround : roundHalfEven num den = 0 := by
    rw [roundHalfEven, hdiv, Nat.mod_eq_of_lt (by omega : num < den)]
    exact if_pos h
  have hone : twoTo 0 = 1 := rfl
  rw [nearestMagnitude, hdiv, hlog, hone, Nat.mul_one, Nat.mul_one, hround]

theorem le_roundHalfEven (num den : Nat) : num / den ≤ roundHalfEven num den := by
  unfold roundHalfEven
  dsimp only
  split
  · exact Nat.le_refl _
  split <;> omega

/-- Rounding does not fall below a power of two. -/
theorem twoTo_le_nearestMagnitude {num den k : Nat} (hk : 52 ≤ k)
    (h : twoTo k ≤ num / den) : twoTo k ≤ nearestMagnitude num den := by
  have hne : num / den ≠ 0 := by
    have := twoTo_pos k
    omega
  have hle : k ≤ (num / den).log2 := (Nat.le_log2 hne).2 h
  have he : (num / den).log2 - 52 + 52 = (num / den).log2 :=
    Nat.sub_add_cancel (Nat.le_trans hk hle)
  calc twoTo k ≤ twoTo (num / den).log2 := twoTo_le_twoTo hle
    _ = twoTo 52 * twoTo ((num / den).log2 - 52) := by rw [← twoTo_add, Nat.add_comm, he]
    _ ≤ roundHalfEven num (den * twoTo ((num / den).log2 - 52)) *
        twoTo ((num / den).log2 - 52) := by
      refine Nat.mul_le_mul_right _ (Nat.le_trans ?_ (le_roundHalfEven ..))
      rw [← Nat.div_div_eq_div_mul, Nat.le_div_iff_mul_le (twoTo_pos _), ← twoTo_add,
        Nat.add_comm, he]
      exact twoTo_log2_le hne

/-! ### Decimals -/

namespace Decimal

/-- The magnitude of a decimal if nothing is done about its exponent. -/
def nearest (d : Decimal) : Nat :=
  nearestMagnitude (d.digits * tenTo d.exponent.toNat * unitsOfOne) (tenTo (-d.exponent).toNat)

theorem magnitude_eq_nearest (d : Decimal) :
    d.magnitude = nearest ⟨d.digits, d.nearExponent⟩ := rfl

theorem nearest_zero (e : Int) : nearest ⟨0, e⟩ = 0 := by
  refine nearestMagnitude_eq_zero ?_
  simp [tenTo_pos]

/-- A decimal that is not zero and has a great exponent is out of reach. -/
theorem magnitudeBound_le_nearest {d : Decimal} (hd : d.digits ≠ 0) (h : 400 ≤ d.exponent) :
    magnitudeBound ≤ d.nearest := by
  refine twoTo_le_nearestMagnitude (by decide) ?_
  have hneg : (-d.exponent).toNat = 0 := by omega
  have hone : tenTo 0 = 1 := rfl
  rw [hneg, hone, Nat.div_one]
  calc twoTo 2098 = twoTo 1024 * twoTo 1074 := twoTo_add 1024 1074
    _ ≤ tenTo d.exponent.toNat * twoTo 1074 := by
      refine Nat.mul_le_mul_right _ (Nat.le_trans ?_ (twoTo_le_tenTo _))
      exact twoTo_le_twoTo (by omega)
    _ ≤ d.digits * tenTo d.exponent.toNat * unitsOfOne :=
      Nat.mul_le_mul_right _ (Nat.le_mul_of_pos_left _ (Nat.pos_of_ne_zero hd))

/-- A decimal with a small exponent for its digits is nearest to zero. -/
theorem nearest_eq_zero {d : Decimal} (h : d.exponent ≤ -(400 + d.digits.log2 : Nat)) :
    d.nearest = 0 := by
  refine nearestMagnitude_eq_zero ?_
  have hexponent : d.exponent.toNat = 0 := by omega
  have hone : tenTo 0 = 1 := rfl
  rw [hexponent, hone, Nat.mul_one]
  calc 2 * (d.digits * unitsOfOne)
      < 2 * (twoTo (d.digits.log2 + 1) * unitsOfOne) := by
        refine Nat.mul_lt_mul_of_pos_left ?_ (by decide)
        exact Nat.mul_lt_mul_of_pos_right (lt_twoTo_log2_add_one _) (twoTo_pos _)
    _ = twoTo (1 + (d.digits.log2 + 1 + 1074)) := by
        have htwo : twoTo 1 = 2 := rfl
        rw [twoTo_add 1, twoTo_add _ 1074, htwo, unitsOfOne]
    _ ≤ twoTo (3 * (-d.exponent).toNat) := twoTo_le_twoTo (by omega)
    _ ≤ tenTo (-d.exponent).toNat := twoTo_le_tenTo _

end Decimal

namespace Number

theorem sameValue_ofMagnitude_self (negative : Bool) (n : Nat) :
    (ofMagnitude negative n).sameValue (ofMagnitude negative n) = true := by
  by_cases h : IsDouble n
  · have hfinite := ofMagnitude_of_isDouble negative h
    rw [hfinite]
    exact sameValue_self rfl
  · have hinfinite : ofMagnitude negative n = infinite negative := dif_neg h
    rw [hinfinite]
    exact beq_self_eq_true negative

theorem ofMagnitude_of_le (negative : Bool) {n : Nat} (h : magnitudeBound ≤ n) :
    ofMagnitude negative n = infinite negative :=
  dif_neg fun hd => Nat.not_lt.2 h hd.1

end Number

namespace Decimal

/-- **The bounds on the exponent are not felt.** -/
theorem toNumber_eq_nearest (d : Decimal) (negative : Bool) :
    d.toNumber negative = Number.ofMagnitude negative d.nearest := by
  rw [toNumber, magnitude_eq_nearest]
  have hnear : d.nearExponent =
      max (-((400 + d.digits.log2 : Nat) : Int)) (min d.exponent 400) := rfl
  by_cases hd : d.digits = 0
  · have hzero : ∀ e, nearest ⟨d.digits, e⟩ = 0 := by
      intro e
      rw [hd]
      exact nearest_zero e
    rw [hzero, ← hzero d.exponent]
  by_cases hgreat : 400 ≤ d.exponent
  · have hbound : magnitudeBound ≤ nearest ⟨d.digits, d.nearExponent⟩ :=
      magnitudeBound_le_nearest hd (by change 400 ≤ d.nearExponent; omega)
    rw [Number.ofMagnitude_of_le negative hbound,
      Number.ofMagnitude_of_le negative (magnitudeBound_le_nearest hd hgreat)]
  by_cases hsmall : d.exponent ≤ -(400 + d.digits.log2 : Nat)
  · have hzero : nearest ⟨d.digits, d.nearExponent⟩ = 0 :=
      nearest_eq_zero (by change d.nearExponent ≤ -(400 + d.digits.log2 : Nat); omega)
    rw [hzero, nearest_eq_zero hsmall]
  · have heq : d.nearExponent = d.exponent := by omega
    rw [heq]

/-- **Zeros may be moved from the exponent to the digits.** -/
theorem toNumber_shift (n k : Nat) (e : Int) (negative : Bool) :
    toNumber negative ⟨n * tenTo k, e - k⟩ = toNumber negative ⟨n, e⟩ := by
  rw [toNumber_eq_nearest, toNumber_eq_nearest]
  refine congrArg (Number.ofMagnitude negative)
    (nearestMagnitude_congr (tenTo_pos _) (tenTo_pos _) ?_)
  have hpowers : tenTo k * tenTo (e - k).toNat * tenTo (-e).toNat =
      tenTo e.toNat * tenTo (-(e - k)).toNat := by
    rw [← tenTo_add, ← tenTo_add, ← tenTo_add]
    exact congrArg tenTo (by omega)
  calc n * tenTo k * tenTo (e - k).toNat * unitsOfOne * tenTo (-e).toNat
      = n * (tenTo k * tenTo (e - k).toNat * tenTo (-e).toNat) * unitsOfOne := by
        simp only [Nat.mul_assoc, Nat.mul_left_comm, Nat.mul_comm]
    _ = n * tenTo e.toNat * unitsOfOne * tenTo (-(e - k)).toNat := by
        rw [hpowers]
        simp only [Nat.mul_assoc, Nat.mul_left_comm, Nat.mul_comm]

end Decimal

end ColumnFilter
