import ColumnFilter.Proofs.Number.Printing
import ColumnFilter.Proofs.Number.Shape

/-!
# Numbers in JSON have the shape of a literal

JSON has a number with all its places or with a power of ten
(`isMantissa_placesWithFraction`, `exists_scientific`), and either way it is a
numeric literal.
-/

namespace ColumnFilter

open Literal

namespace Decimal

theorem isDigits_digitChars (d : Decimal) : IsDigits Char.isDigit d.digitChars :=
  ⟨Nat.toDigits_ne_nil, fun _ hc => isDigit_of_mem_digitChars hc⟩

theorem isMantissa_places (d : Decimal) : IsMantissa Char.isDigit d.places := by
  have hwhole : IsDigits Char.isDigit (d.plainLiteral false).whole :=
    ⟨d.whole_ne_nil false, d.isDigit_whole false⟩
  rw [← d.plainChars_plainLiteral false, Literal.plainChars]
  cases hfraction : (d.plainLiteral false).fraction with
  | none =>
    rw [Option.map_none, Option.getD_none, List.append_nil]
    exact .whole hwhole
  | some es => exact .pointBehind hwhole (d.isDigit_fraction false es hfraction)

theorem isMantissa_placesWithFraction (d : Decimal) :
    IsMantissa Char.isDigit d.placesWithFraction := by
  rw [placesWithFraction]
  split
  next h =>
    have hplaces : IsDigits Char.isDigit d.places := by
      rw [places]
      dsimp only
      rw [if_pos h]
      refine ⟨List.append_ne_nil_of_left_ne_nil d.isDigits_digitChars.1 _, fun c hc => ?_⟩
      rcases List.mem_append.1 hc with hc | hc
      · exact isDigit_of_mem_digitChars hc
      · exact isDigit_of_mem_replicate hc
    exact .pointBehind hplaces (List.all_eq_true.1 (by decide))
  next => exact d.isMantissa_places

theorem isExponent_signedPower (e : Int) : IsExponent Char.isDigit ('e' :: signedPower e) := by
  have hdigits : IsDigits Char.isDigit (Nat.toDigits 10 e.natAbs) :=
    ⟨Nat.toDigits_ne_nil, fun _ hc => Nat.isDigit_of_mem_toDigits (by decide) (by decide) hc⟩
  have hsign : IsSign [if e < 0 then '-' else '+'] := by
    split
    · exact .inr (.inr rfl)
    · exact .inr (.inl rfl)
  exact .present (.inl rfl) hsign hdigits

theorem exists_scientific (d : Decimal) : ∃ mantissa exponent, IsMantissa Char.isDigit mantissa ∧
    IsExponent Char.isDigit exponent ∧ d.scientific = mantissa ++ exponent := by
  refine ⟨_, _, ?_, isExponent_signedPower d.leadingPower, rfl⟩
  have hdigits := d.isDigits_digitChars
  split
  next h => exact absurd h hdigits.1
  next c h => exact .whole (h ▸ hdigits)
  next c cs _ h =>
    rw [h] at hdigits
    have hc : IsDigits Char.isDigit [c] :=
      ⟨List.cons_ne_nil _ _, fun d hd => hdigits.2 d (by simp_all)⟩
    exact .pointBehind hc fun d hd => hdigits.2 d (List.mem_cons_of_mem _ hd)

end Decimal

namespace Number

/-- **What JSON has for a finite number is a numeric literal.** -/
theorem hasShape_of_jsonChars? {x : Number} {cs : List Char} (h : x.jsonChars? = some cs) :
    HasShape Char.isDigit cs := by
  cases x with
  | finite negative m hm =>
    obtain rfl := Option.some.inj h
    have hsign : IsSign (signChars negative) := by
      cases negative
      · exact .inl rfl
      · exact .inr (.inr rfl)
    split
    · exact ⟨_, _, [], hsign, Decimal.isMantissa_placesWithFraction _, .absent, by
        rw [List.append_nil]⟩
    · obtain ⟨mantissa, exponent, hmantissa, hexponent, heq⟩ :=
        (Decimal.shortest .toEven m).exists_scientific
      exact ⟨_, _, _, hsign, hmantissa, hexponent, by rw [heq]⟩
  | infinite => cases h
  | notANumber => cases h

end Number

end ColumnFilter
