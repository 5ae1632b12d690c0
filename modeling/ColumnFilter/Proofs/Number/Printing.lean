import ColumnFilter.Number.Layout
import ColumnFilter.Number.Literal
import ColumnFilter.Text.Digit
import ColumnFilter.Proofs.Grammar.Matching
import ColumnFilter.Proofs.Number.Rounding

/-!
# Printed numbers are read back

The digits that are printed for a finite number round to that number
(`toNumber_shortest`), whether they are the shortest ones or all of them.  They
are printed as a plain literal, which has the shape of a number for every class
of digits and the value of the digits (`value_plainLiteral`).  So what is
printed is read as the number it was printed for (`read?_plainChars`).
-/

namespace ColumnFilter

open Number

/-! ### The shortest decimal -/

namespace Decimal

/-- The digits end in as many zeros as `strip` takes away. -/
theorem tenTo_dvd_of_takeWhile (n : Nat) :
    tenTo ((Nat.toDigits 10 n).reverse.takeWhile (· == '0')).length ∣ n := by
  have hzeros : ∀ cs : List Char,
      cs.takeWhile (· == '0') = List.replicate (cs.takeWhile (· == '0')).length '0' :=
    fun cs => List.eq_replicate_iff.2 ⟨rfl, fun c hc =>
      eq_of_beq (List.mem_takeWhile_imp (p := (· == '0')) hc)⟩
  have hsplit : Nat.toDigits 10 n = ((Nat.toDigits 10 n).reverse.dropWhile (· == '0')).reverse ++
      List.replicate ((Nat.toDigits 10 n).reverse.takeWhile (· == '0')).length '0' := by
    rw [← List.reverse_replicate, ← hzeros, ← List.reverse_append, List.takeWhile_append_dropWhile,
      List.reverse_reverse]
  refine ⟨Nat.ofDigitChars 10 ((Nat.toDigits 10 n).reverse.dropWhile (· == '0')).reverse 0, ?_⟩
  have hvalue := congrArg (Nat.ofDigitChars 10 · 0) hsplit
  simp only [Nat.ofDigitChars_append, Nat.ofDigitChars_replicate_zero,
    Nat.ofDigitChars_ten_toDigits] at hvalue
  exact hvalue

theorem toNumber_strip (d : Decimal) (negative : Bool) :
    d.strip.toNumber negative = d.toNumber negative := by
  have hdvd := tenTo_dvd_of_takeWhile d.digits
  rw [strip, ← toNumber_shift, Nat.div_mul_cancel hdvd, Int.add_sub_cancel]

theorem decimalUnits_mul_unitsOfOne : decimalUnits * unitsOfOne = tenTo 1074 := by
  decide +kernel

theorem toNumber_exact {m : Nat} (h : IsDouble m) (negative : Bool) :
    (exact m).toNumber negative = finite negative m h := by
  have hone : tenTo 0 = 1 := rfl
  have hnegative : (-1074 : Int).toNat = 0 := rfl
  have hpositive : (-(-1074) : Int).toNat = 1074 := rfl
  have hnearest : (exact m).nearest = m := by
    rw [nearest, exact, hnegative, hpositive, exactDigits, hone, Nat.mul_one, Nat.mul_assoc,
      decimalUnits_mul_unitsOfOne, nearestMagnitude_of_isDouble (tenTo_pos 1074) h]
  rw [toNumber_eq_nearest, hnearest]
  exact ofMagnitude_of_isDouble negative h

/-- **The printed digits round to the number.** -/
theorem toNumber_shortest (tie : Tie) {m : Nat} (h : IsDouble m) (negative : Bool) :
    (shortest tie m).toNumber negative = finite negative m h := by
  rw [shortest]
  split
  next hm =>
    subst hm
    rw [toNumber_eq_nearest, nearest_zero]
    exact ofMagnitude_of_isDouble negative h
  next hm =>
    dsimp only
    rw [toNumber_strip]
    cases hfound : (List.range 17).findSome? fun count =>
        (neighbours tie (exactDigits m)
          ((Nat.toDigits 10 (exactDigits m)).length - (count + 1))).find? (reads m) with
    | none => exact toNumber_exact h negative
    | some d =>
      obtain ⟨count, -, hcount⟩ := List.exists_of_findSome?_eq_some hfound
      have hreads : reads m d = true := List.find?_some hcount
      rw [reads, beq_iff_eq] at hreads
      rw [Option.getD_some, toNumber, hreads]
      exact ofMagnitude_of_isDouble negative h

/-! ### Plain literals -/

/-- Digits with zeros in front of them, enough for a digit before the point. -/
def padded (d : Decimal) : List Char :=
  List.replicate ((-d.exponent).toNat + 1 - d.digitChars.length) '0' ++ d.digitChars

/-- The literal with all places of a decimal. -/
def plainLiteral (negative : Bool) (d : Decimal) : Literal where
  sign := if negative then some .minus else none
  whole :=
    if 0 ≤ d.exponent then d.digitChars ++ List.replicate d.exponent.toNat '0'
    else d.padded.take (d.padded.length - (-d.exponent).toNat)
  fraction :=
    if 0 ≤ d.exponent then none
    else some (d.padded.drop (d.padded.length - (-d.exponent).toNat))
  exponent := none

theorem isDigit_of_mem_digitChars {d : Decimal} {c : Char} (h : c ∈ d.digitChars) :
    c.isDigit = true :=
  Nat.isDigit_of_mem_toDigits (by decide) (by decide) h

theorem isDigit_of_mem_replicate {n : Nat} {c : Char} (h : c ∈ List.replicate n '0') :
    c.isDigit = true := by
  rw [List.eq_of_mem_replicate h]
  rfl

theorem isDigit_of_mem_padded {d : Decimal} {c : Char} (h : c ∈ d.padded) : c.isDigit = true := by
  rcases List.mem_append.1 h with h | h
  · exact isDigit_of_mem_replicate h
  · exact isDigit_of_mem_digitChars h

theorem length_padded (d : Decimal) : (-d.exponent).toNat < d.padded.length := by
  rw [padded, List.length_append, List.length_replicate]
  omega

theorem ofDigitChars_padded (d : Decimal) : Nat.ofDigitChars 10 d.padded 0 = d.digits := by
  rw [padded, Nat.ofDigitChars_append, Nat.ofDigitChars_replicate_zero, Nat.mul_zero, digitChars,
    Nat.ofDigitChars_ten_toDigits]

theorem isDigit_whole (d : Decimal) (negative : Bool) :
    ∀ c ∈ (d.plainLiteral negative).whole, c.isDigit = true := by
  intro c hc
  rw [plainLiteral] at hc
  dsimp only at hc
  split at hc
  · rcases List.mem_append.1 hc with hc | hc
    · exact isDigit_of_mem_digitChars hc
    · exact isDigit_of_mem_replicate hc
  · exact isDigit_of_mem_padded (List.mem_of_mem_take hc)

theorem isDigit_fraction (d : Decimal) (negative : Bool) :
    ∀ cs, (d.plainLiteral negative).fraction = some cs → ∀ c ∈ cs, c.isDigit = true := by
  intro cs hcs c hc
  rw [plainLiteral] at hcs
  dsimp only at hcs
  split at hcs
  · cases hcs
  · obtain rfl := Option.some.inj hcs
    exact isDigit_of_mem_padded (List.mem_of_mem_drop hc)

theorem whole_ne_nil (d : Decimal) (negative : Bool) : (d.plainLiteral negative).whole ≠ [] := by
  rw [plainLiteral]
  dsimp only
  split
  · exact List.append_ne_nil_of_left_ne_nil Nat.toDigits_ne_nil _
  · have := d.length_padded
    rw [Ne, List.take_eq_nil_iff]
    intro h
    rcases h with h | h
    · omega
    · rw [h] at this
      exact absurd this (Nat.not_lt_zero _)

/-- **The plain literal has the value of its digits.** -/
theorem value_plainLiteral (d : Decimal) (negative : Bool) :
    (d.plainLiteral negative).value = d.toNumber negative := by
  have hsign : ((d.plainLiteral negative).sign == some .minus) = negative := by
    cases negative <;> rfl
  rw [Literal.value, hsign, Literal.decimal, plainLiteral]
  dsimp only
  split
  next h =>
    have hdigits : Nat.ofDigitChars 10 (d.digitChars ++ List.replicate d.exponent.toNat '0') 0 =
        d.digits * tenTo d.exponent.toNat := by
      rw [Nat.ofDigitChars_append, digitChars, Nat.ofDigitChars_ten_toDigits,
        Nat.ofDigitChars_replicate_zero, Nat.mul_comm]
      rfl
    have hexponent : Literal.scale none - (([] : List Char).length : Int) =
        d.exponent - d.exponent.toNat := by
      show (0 : Int) - 0 = _
      omega
    rw [Option.getD_none, List.append_nil, hdigits, hexponent, toNumber_shift]
  next h =>
    have hpadded := d.length_padded
    have hexponent : Literal.scale none -
        ((d.padded.drop (d.padded.length - (-d.exponent).toNat)).length : Int) = d.exponent := by
      rw [List.length_drop]
      show (0 : Int) - _ = _
      omega
    rw [Option.getD_some, List.take_append_drop, ofDigitChars_padded, hexponent]

end Decimal

namespace Literal

/-- The characters of a literal without an exponent, its sign apart. -/
def plainChars (l : Literal) : List Char :=
  l.whole ++ (l.fraction.map ('.' :: ·)).getD []

variable {isDigit : Char → Bool} {negative : Bool} {l : Literal}

/-- A digit is no sign. -/
theorem read_of_isDigit {cs : List Char} (hne : cs ≠ []) (h : ∀ c ∈ cs, c.isDigit = true)
    (rest : List Char) : Sign.read (signChars negative ++ (cs ++ rest)) =
      (if negative then some .minus else none, cs ++ rest) := by
  cases negative with
  | true => rfl
  | false =>
    cases cs with
    | nil => exact absurd rfl hne
    | cons c cs =>
      have hc := h c (List.mem_cons_self ..)
      have hplus : c ≠ '+' := by rintro rfl; exact absurd hc (by decide)
      have hminus : c ≠ '-' := by rintro rfl; exact absurd hc (by decide)
      show Sign.read (c :: (cs ++ rest)) = (none, c :: (cs ++ rest))
      rw [Sign.read]
      · rintro _ ⟨rfl, -⟩
        exact hplus rfl
      · rintro _ ⟨rfl, -⟩
        exact hminus rfl

/-- **A plain literal is read, with the digits of any class that has the ASCII ones.** -/
theorem read?_plainChars (hdigit : ∀ c : Char, c.isDigit = true → isDigit c = true)
    (hpoint : isDigit '.' = false) (hsign : l.sign = if negative then some .minus else none)
    (hne : l.whole ≠ []) (hwhole : ∀ c ∈ l.whole, c.isDigit = true)
    (hfraction : ∀ cs, l.fraction = some cs → ∀ c ∈ cs, c.isDigit = true)
    (hexponent : l.exponent = none) :
    read? isDigit (signChars negative ++ l.plainChars) = some l := by
  have hstop : Stops isDigit ((l.fraction.map ('.' :: ·)).getD []) := by
    cases l.fraction with
    | none => exact .nil
    | some cs => exact Stops.cons_iff.2 hpoint
  have hfractionRead : readFraction isDigit ((l.fraction.map ('.' :: ·)).getD []) =
      (l.fraction, []) := by
    cases hcs : l.fraction with
    | none => rfl
    | some cs =>
      have hall : ∀ c ∈ cs, isDigit c = true := fun c hc => hdigit c (hfraction cs hcs c hc)
      have hnil : Stops isDigit [] := .nil
      have htake := hnil.takeWhile_append hall
      have hdrop := hnil.dropWhile_append hall
      rw [List.append_nil] at htake hdrop
      show (some (cs.takeWhile isDigit), cs.dropWhile isDigit) = _
      rw [htake, hdrop]
  have hall : ∀ c ∈ l.whole, isDigit c = true := fun c hc => hdigit c (hwhole c hc)
  rw [read?, plainChars, read_of_isDigit hne hwhole]
  dsimp only
  rw [hstop.takeWhile_append hall, hstop.dropWhile_append hall, hfractionRead]
  dsimp only
  rw [if_neg (by simp [hne]), ← hsign]
  show some (Literal.mk l.sign l.whole l.fraction none) = some l
  rw [← hexponent]

end Literal

namespace Decimal

theorem plainChars_plainLiteral (d : Decimal) (negative : Bool) :
    (d.plainLiteral negative).plainChars = d.places := by
  rw [places, Literal.plainChars, plainLiteral]
  dsimp only
  split
  · exact List.append_nil _
  · rfl

/-- All places of a decimal are a plain literal. -/
theorem read?_places {isDigit : Char → Bool}
    (hdigit : ∀ c : Char, c.isDigit = true → isDigit c = true) (hpoint : isDigit '.' = false)
    (d : Decimal) (negative : Bool) :
    Literal.read? isDigit (signChars negative ++ d.places) = some (d.plainLiteral negative) := by
  rw [← d.plainChars_plainLiteral negative]
  exact Literal.read?_plainChars hdigit hpoint rfl (d.whole_ne_nil negative)
    (d.isDigit_whole negative) (d.isDigit_fraction negative) rfl

end Decimal

/-! ### Numbers -/

namespace Number

/-- **A finite number is read back from what is printed for it.** -/
theorem read?_plainChars {x : Number} (h : x.isFinite = true) : read? x.plainChars = some x := by
  cases x with
  | finite negative m hm =>
    rw [read?, plainChars, Decimal.read?_places (fun _ hc => hc) (by decide)]
    dsimp only
    rw [Decimal.value_plainLiteral, Decimal.toNumber_shortest .up hm]
  | infinite => cases h
  | notANumber => cases h

/-- What is printed for a finite number has the shape of a number. -/
theorem isSome_read?_plainChars {x : Number} (h : x.isFinite = true) :
    (Literal.read? Text.isDecimalDigit x.plainChars).isSome = true := by
  cases x with
  | finite negative m hm =>
    rw [plainChars,
      Decimal.read?_places (fun _ hc => Text.isDecimalDigit_of_isDigit hc) (by decide)]
    rfl
  | infinite => cases h
  | notANumber => cases h

/-- A finite number is printed with digits, a sign and a point. -/
theorem mem_plainChars {x : Number} (h : x.isFinite = true) {c : Char} (hc : c ∈ x.plainChars) :
    c.isDigit = true ∨ c = '-' ∨ c = '.' := by
  cases x with
  | finite negative m hm =>
    rw [plainChars, ← Decimal.plainChars_plainLiteral _ negative] at hc
    rcases List.mem_append.1 hc with hc | hc
    · cases negative with
      | true => exact .inr (.inl (List.mem_singleton.1 hc))
      | false => cases hc
    rcases List.mem_append.1 hc with hc | hc
    · exact .inl (Decimal.isDigit_whole _ negative c hc)
    cases hfraction : ((Decimal.shortest .up m).plainLiteral negative).fraction with
    | none =>
      rw [hfraction] at hc
      cases hc
    | some cs =>
      rw [hfraction] at hc
      rcases List.mem_cons.1 hc with rfl | hc
      · exact .inr (.inr rfl)
      · exact .inl (Decimal.isDigit_fraction _ negative cs hfraction c hc)
  | infinite => cases h
  | notANumber => cases h

end Number

end ColumnFilter
