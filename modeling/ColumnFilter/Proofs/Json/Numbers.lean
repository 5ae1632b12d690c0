import ColumnFilter.Proofs.Json.Reading
import ColumnFilter.Proofs.Number.Stepwise

/-!
# Short numbers are read back

Not every double is read back from its JSON form, because the reader computes in
steps (`exists_not_readsBack`).  If the digits that are printed fit into 53 bits
and the power of ten is small, all steps but the last are exact, and then the
double that was printed is the nearest one.  `readsBack_of_isShort` says so for
numbers that are written with all their places: their literal has the digits of
the decimal (`decimal_fractionLiteral`) and is one that JSON admits
(`isStrict_fractionLiteral`).
-/

namespace ColumnFilter

open Number

theorem digitChar_ne_zero {n : Nat} (h : n < 10) : n ≠ 0 → Nat.digitChar n ≠ '0' := by
  revert n
  decide

/-- No idle zero stands in front of the digits of a number. -/
theorem exists_toDigits_eq_cons {n : Nat} (h : n ≠ 0) :
    ∃ c cs, Nat.toDigits 10 n = c :: cs ∧ c ≠ '0' := by
  induction n using Nat.strong_induction_on with
  | _ n ih =>
    rw [Nat.toDigits_eq_if (by decide)]
    by_cases hlt : n < 10
    · rw [if_pos hlt]
      exact ⟨_, [], rfl, digitChar_ne_zero hlt h⟩
    · rw [if_neg hlt]
      obtain ⟨c, cs, heq, hc⟩ := ih (n / 10) (by omega) (by omega)
      exact ⟨c, _, by rw [heq, List.cons_append], hc⟩

namespace Decimal

/-- The digits fit into 53 bits, with one more place for the fraction of a whole number, and the
leading one is not far behind the point. -/
def IsShort (d : Decimal) : Prop :=
  -5 ≤ d.leadingPower ∧ d.digits * tenTo (d.exponent + 1).toNat < twoTo 53

instance (d : Decimal) : Decidable d.IsShort :=
  inferInstanceAs (Decidable (_ ∧ _))

/-- The literal with all places of a decimal and always a fraction. -/
def fractionLiteral (negative : Bool) (d : Decimal) : Literal :=
  { d.plainLiteral negative with
    fraction := if 0 ≤ d.exponent then some ['0'] else (d.plainLiteral negative).fraction }

variable {d : Decimal} {negative : Bool}

theorem plainChars_fractionLiteral (d : Decimal) (negative : Bool) :
    (d.fractionLiteral negative).plainChars = d.placesWithFraction := by
  have hplain := d.plainChars_plainLiteral negative
  rw [Literal.plainChars] at hplain
  rw [Literal.plainChars, fractionLiteral, placesWithFraction, ← hplain]
  by_cases h : 0 ≤ d.exponent
  · have hfraction : (d.plainLiteral negative).fraction = none := if_pos h
    rw [if_pos h, if_pos h, hfraction, Option.map_none, Option.getD_none, List.append_nil]
    rfl
  · rw [if_neg h, if_neg h]

theorem isDigit_fractionLiteral (d : Decimal) (negative : Bool) :
    ∀ cs, (d.fractionLiteral negative).fraction = some cs → ∀ c ∈ cs, c.isDigit = true := by
  intro cs hcs
  rw [fractionLiteral] at hcs
  dsimp only at hcs
  split at hcs
  · obtain rfl := Option.some.inj hcs
    exact List.forall_mem_singleton.2 rfl
  · exact d.isDigit_fraction negative cs hcs

/-- What JSON has for a number with all its places is a literal of JSON. -/
theorem read?_placesWithFraction (d : Decimal) (negative : Bool) :
    Literal.read? Char.isDigit (signChars negative ++ d.placesWithFraction) =
      some (d.fractionLiteral negative) := by
  rw [← d.plainChars_fractionLiteral negative]
  exact Literal.read?_plainChars (fun _ hc => hc) (by decide) rfl (d.whole_ne_nil negative)
    (d.isDigit_whole negative) (d.isDigit_fractionLiteral negative) rfl

theorem exists_whole_eq_cons (negative : Bool) (h : d.digits ≠ 0 ∨ d.exponent = 0) :
    ∃ c cs, (d.plainLiteral negative).whole = c :: cs ∧ (c ≠ '0' ∨ cs = []) := by
  rw [plainLiteral]
  dsimp only
  by_cases hdigits : d.digits = 0
  · have hexponent : d.exponent = 0 := h.resolve_left (not_not.2 hdigits)
    refine ⟨'0', [], ?_, .inr rfl⟩
    rw [if_pos (Int.le_of_eq hexponent.symm), digitChars, hdigits, hexponent]
    rfl
  · obtain ⟨c, cs, heq, hc⟩ := exists_toDigits_eq_cons hdigits
    have hlength : d.digitChars.length = cs.length + 1 := by
      rw [digitChars, heq, List.length_cons]
    split
    · exact ⟨c, _, by rw [digitChars, heq, List.cons_append], .inl hc⟩
    · by_cases hlong : (-d.exponent).toNat < d.digitChars.length
      · have hpadded : d.padded = c :: cs := by
          rw [padded, Nat.sub_eq_zero_of_le hlong, List.replicate_zero, List.nil_append, digitChars,
            heq]
        obtain ⟨k, hk⟩ : ∃ k, d.padded.length - (-d.exponent).toNat = k + 1 :=
          ⟨_, (Nat.sub_add_cancel (Nat.sub_pos_of_lt d.length_padded)).symm⟩
        rw [hk, hpadded, List.take_succ_cons]
        exact ⟨c, _, rfl, .inl hc⟩
      · -- the only digit before the point is the zero that was put there
        have hzeros : (-d.exponent).toNat + 1 - d.digitChars.length =
            (-d.exponent).toNat - d.digitChars.length + 1 := by omega
        have htake : d.padded.length - (-d.exponent).toNat = 1 := by
          rw [padded, List.length_append, List.length_replicate]
          omega
        rw [htake, padded, hzeros, List.replicate_succ, List.cons_append, List.take_succ_cons,
          List.take_zero]
        exact ⟨'0', [], rfl, .inr rfl⟩

theorem isStrict_fractionLiteral (h : d.digits ≠ 0 ∨ d.exponent = 0) :
    Json.Token.isStrict (d.fractionLiteral negative) = true := by
  have hsign : (d.fractionLiteral negative).sign ≠ some .plus := by
    cases negative <;> exact nofun
  have hfraction : (d.fractionLiteral negative).fraction ≠ some [] := by
    rw [fractionLiteral, plainLiteral]
    dsimp only
    split
    · simp
    next hneg =>
      intro hnil
      have hlength := congrArg List.length (Option.some.inj hnil)
      have hpadded := d.length_padded
      rw [List.length_drop, List.length_nil] at hlength
      omega
  obtain ⟨c, cs, hwhole, hc⟩ := exists_whole_eq_cons negative h
  have hwhole' : (d.fractionLiteral negative).whole = c :: cs := hwhole
  rw [Json.Token.isStrict, hwhole']
  simp [hsign, hfraction, hc]

/-- The digits of the literal are those of the decimal, and a zero where the fraction is idle. -/
theorem decimal_fractionLiteral (d : Decimal) (negative : Bool) :
    (d.fractionLiteral negative).decimal =
      ⟨d.digits * tenTo (d.exponent + 1).toNat, d.exponent - (d.exponent + 1).toNat⟩ := by
  have hscale : Literal.scale none = 0 := rfl
  rw [Literal.decimal, fractionLiteral, plainLiteral]
  dsimp only
  rw [hscale]
  by_cases h : 0 ≤ d.exponent
  · have hnext : (d.exponent + 1).toNat = d.exponent.toNat + 1 := by omega
    have hzeros : ['0'] = List.replicate 1 '0' := rfl
    rw [if_pos h, if_pos h, hnext, Option.getD_some, hzeros, List.append_assoc,
      List.replicate_append_replicate, Nat.ofDigitChars_append, Nat.ofDigitChars_replicate_zero,
      digitChars, Nat.ofDigitChars_ten_toDigits, List.length_replicate, Nat.mul_comm]
    congr 1
    omega
  · have hnext : (d.exponent + 1).toNat = 0 := by omega
    have hpadded := d.length_padded
    have hone : tenTo 0 = 1 := rfl
    rw [if_neg h, if_neg h, if_neg h, hnext, hone, Nat.mul_one, Option.getD_some,
      List.take_append_drop, List.length_drop, ofDigitChars_padded]
    congr 1
    omega

theorem value_fractionLiteral (d : Decimal) (negative : Bool) :
    (d.fractionLiteral negative).value = d.toNumber negative := by
  have hsign : ((d.fractionLiteral negative).sign == some .minus) = negative := by
    cases negative <;> rfl
  rw [Literal.value, hsign, decimal_fractionLiteral, toNumber_shift]

theorem twoTo_lt_tenTo : twoTo 53 < tenTo 16 := by
  decide

/-- A short decimal has sixteen places at most. -/
theorem IsShort.length_digitChars (h : d.IsShort) (hne : d.digits ≠ 0) :
    d.digitChars.length + (d.exponent + 1).toNat ≤ 16 := by
  have hlt : d.digits * tenTo (d.exponent + 1).toNat < tenTo 16 :=
    Nat.lt_trans h.2 twoTo_lt_tenTo
  have hplaces : (d.exponent + 1).toNat < 16 := by
    by_contra hge
    have hle : tenTo 16 ≤ tenTo (d.exponent + 1).toNat :=
      Nat.pow_le_pow_right (by decide) (Nat.le_of_not_lt hge)
    have hmul := Nat.le_mul_of_pos_left (tenTo (d.exponent + 1).toNat) (Nat.pos_of_ne_zero hne)
    omega
  have hdigits : d.digits < tenTo (16 - (d.exponent + 1).toNat) := by
    refine Nat.lt_of_mul_lt_mul_right (a := tenTo (d.exponent + 1).toNat) ?_
    rw [← tenTo_add, Nat.sub_add_cancel (Nat.le_of_lt hplaces)]
    exact hlt
  have hlength : d.digitChars.length ≤ 16 - (d.exponent + 1).toNat :=
    (Nat.length_toDigits_le_iff (by decide) (by omega)).2 hdigits
  omega

theorem IsShort.bounds (h : d.IsShort) (hzero : d.digits ≠ 0 ∨ d.exponent = 0) :
    d.leadingPower ≤ 15 ∧ -20 ≤ d.exponent := by
  have hleading := h.1
  rw [leadingPower] at hleading ⊢
  by_cases hne : d.digits = 0
  · have hexponent := hzero.resolve_left (not_not.2 hne)
    have hlength : d.digitChars.length = 1 := by
      rw [digitChars, hne]
      rfl
    omega
  · have hlength := h.length_digitChars hne
    omega

/-- Only zero is printed without a digit other than zero. -/
theorem digits_shortest (tie : Tie) {m : Nat} (hm : IsDouble m) :
    (shortest tie m).digits ≠ 0 ∨ (shortest tie m).exponent = 0 := by
  by_cases hzero : m = 0
  · right
    rw [shortest, if_pos hzero]
  · left
    intro hdigits
    have hvalue := toNumber_shortest tie hm false
    have hnearest : nearest ⟨(shortest tie m).digits, (shortest tie m).exponent⟩ = 0 := by
      rw [hdigits]
      exact nearest_zero _
    rw [toNumber_eq_nearest, hnearest, ofMagnitude_of_isDouble false isDouble_zero] at hvalue
    injection hvalue with _ hm
    exact hzero hm.symm

end Decimal

namespace Number

/-- **A number whose shortest decimal is short is read back from its JSON form.** -/
theorem readsBack_of_isShort {negative : Bool} {m : Nat} (hm : IsDouble m)
    (h : (Decimal.shortest .toEven m).IsShort) : (finite negative m hm).ReadsBack := by
  have hvalue := Decimal.toNumber_shortest .toEven hm negative
  have hzero := Decimal.digits_shortest .toEven hm
  have hbounds := h.bounds hzero
  have hchars : Json.numberChars (finite negative m hm) =
      signChars negative ++ (Decimal.shortest .toEven m).placesWithFraction := by
    have hpositional : (-5 ≤ (Decimal.shortest .toEven m).leadingPower &&
        (Decimal.shortest .toEven m).leadingPower ≤ 15) = true := by
      simp [h.1, hbounds.1]
    show signChars negative ++ _ = _
    rw [if_pos hpositional]
  generalize Decimal.shortest .toEven m = d at h hvalue hzero hbounds hchars
  have hdecimal := d.decimal_fractionLiteral negative
  have hread : (d.fractionLiteral negative).stepwiseValue = finite negative m hm := by
    rw [Literal.stepwiseValue_eq_value, Decimal.value_fractionLiteral, hvalue]
    · rw [hdecimal]
      exact h.2
    · rw [hdecimal]
      show (d.exponent - (d.exponent + 1).toNat).natAbs ≤ 22
      omega
  refine Json.readsBack_iff.2 ?_
  rw [hchars, Json.Token.ofNumberChars?, Decimal.read?_placesWithFraction]
  dsimp only
  rw [if_pos (Decimal.isStrict_fractionLiteral hzero), Json.Token.finiteValue?, hread]
  rfl

/-- The number `3 * 10 ^ 25` is read back as one of its neighbours. -/
theorem exists_not_readsBack : ∃ x : Number, x.isFinite = true ∧ ¬x.ReadsBack :=
  ⟨Decimal.toNumber false ⟨3, 25⟩, by decide +kernel, by decide +kernel⟩

end Number

end ColumnFilter
