/-!
# Numbers

A number is an IEEE 754 double, kept exactly.  A finite one is a whole multiple
of `2 ^ (-1074)`, the least positive double, so its magnitude is a natural
number; `IsDouble` says which natural numbers are magnitudes.  Zero has two
signs and there is one value that is no number.
-/

namespace ColumnFilter

/-- A power of two. -/
def twoTo (n : Nat) : Nat :=
  Nat.pow 2 n

/-- A power of ten. -/
def tenTo (n : Nat) : Nat :=
  Nat.pow 10 n

theorem twoTo_pos (n : Nat) : 0 < twoTo n :=
  Nat.two_pow_pos n

theorem tenTo_pos (n : Nat) : 0 < tenTo n :=
  Nat.pow_pos (by decide)

/-- The magnitude of the number one. -/
def unitsOfOne : Nat :=
  twoTo 1074

/-- The least power of two that is too great for a magnitude. -/
def magnitudeBound : Nat :=
  twoTo 2098

/-- Multiples of `2 ^ (-1074)` that a double holds: at most 53 bits, then zeros, and bounded. -/
def IsDouble (n : Nat) : Prop :=
  n < magnitudeBound ∧ twoTo (n.log2 - 52) ∣ n

instance (n : Nat) : Decidable (IsDouble n) :=
  inferInstanceAs (Decidable (_ ∧ _))

theorem isDouble_zero : IsDouble 0 :=
  ⟨twoTo_pos _, Nat.dvd_zero _⟩

/-- A double: a sign and a magnitude in units of `2 ^ (-1074)`, an infinity, or no number. -/
inductive Number where
  /-- A finite number. -/
  | finite (negative : Bool) (magnitude : Nat) (isDouble : IsDouble magnitude)
  /-- What lies beyond the greatest finite number. -/
  | infinite (negative : Bool)
  /-- The value that is no number. -/
  | notANumber
deriving DecidableEq, Repr

namespace Number

/-- The number of a sign and a magnitude; a magnitude out of reach becomes infinite. -/
def ofMagnitude (negative : Bool) (magnitude : Nat) : Number :=
  if h : IsDouble magnitude then finite negative magnitude h else infinite negative

/-- A number that is neither infinite nor no number. -/
def isFinite : Number → Bool
  | finite .. => true
  | _ => false

/-- Equality of values: the two zeros are equal, and what is no number equals nothing. -/
def sameValue : Number → Number → Bool
  | finite s m _, finite t n _ => m == n && (s == t || m == 0)
  | infinite s, infinite t => s == t
  | _, _ => false

theorem ofMagnitude_of_isDouble (negative : Bool) {n : Nat} (h : IsDouble n) :
    ofMagnitude negative n = finite negative n h :=
  dif_pos h

/-- A finite number equals itself. -/
theorem sameValue_self {x : Number} (h : x.isFinite) : x.sameValue x = true := by
  cases x with
  | finite s m _ => simp [sameValue]
  | infinite => simp [isFinite] at h
  | notANumber => simp [isFinite] at h

end Number

end ColumnFilter
