import ColumnFilter.Proofs.Spelling.Literal
import ColumnFilter.Text.LowerCase

/-!
# Lower case is final

A text in lower case is its own lower case (`lower_lower`), so a name and its
lower-case form are found in the same places.

The letters with another lower-case form are the `capitals`: those of ASCII, `İ`,
and those of the case table, the capital sigma among them.  What is written for a
letter in lower case is never one of them (`isLower_of_mem_lowerChar`), and a text
without any of them is kept as it is (`lowerFrom_of_isLower`).  For the table this is
a fact about two finite sets of code points, letters and forms, which are compared as
the bits of two numbers.
-/

namespace ColumnFilter.Text

namespace CaseRange

variable {r : CaseRange} {n : Nat}

/-- The letters of a range. -/
def letters (r : CaseRange) : List Nat :=
  (List.range ((r.last - r.first) / r.step + 1)).map fun i => r.first + r.step * i

/-- The lower-case forms of the letters of a range. -/
def forms (r : CaseRange) : List Nat :=
  r.letters.map fun n : Nat => ((n : Int) + r.offset).toNat

theorem mem_letters_of_contains (h : r.contains n = true) : n ∈ r.letters := by
  simp only [contains, Bool.and_eq_true, decide_eq_true_eq, beq_iff_eq] at h
  obtain ⟨⟨hfirst, hlast⟩, hstep⟩ := h
  refine List.mem_map.2 ⟨(n - r.first) / r.step, ?_, ?_⟩
  · rw [List.mem_range, Nat.lt_succ_iff]
    exact Nat.div_le_div_right (by omega)
  · have hdiv := Nat.div_add_mod (n - r.first) r.step
    omega

end CaseRange

/-- The letters whose lower-case form is another one.  The form of `İ` begins with the letter `i`,
and this is the distance to it. -/
def capitals : List CaseRange :=
  ⟨0x41, 0x5A, 1, 32⟩ :: ⟨0x130, 0x130, 1, -199⟩ :: caseRanges

/-- The character is none of the capitals. -/
def IsLower (c : Char) : Prop :=
  ∀ r ∈ capitals, r.contains c.toNat = false

instance (c : Char) : Decidable (IsLower c) :=
  inferInstanceAs (Decidable (∀ _ ∈ _, _))

/-! ### The case table -/

/-- A set of natural numbers as the bits of one. -/
def bits (ns : List Nat) : Nat :=
  ns.foldr (fun n others => others ||| 1 <<< n) 0

theorem testBit_bits (ns : List Nat) (n : Nat) : (bits ns).testBit n = decide (n ∈ ns) := by
  induction ns with
  | nil => exact Nat.zero_testBit n
  | cons m ms ih =>
    show (bits ms ||| 1 <<< m).testBit n = _
    rw [Nat.testBit_or, ih, Nat.one_shiftLeft, Nat.testBit_two_pow]
    simp [Bool.or_comm, eq_comm]

theorem bits_capitals_and_forms :
    bits (capitals.flatMap CaseRange.letters) &&& bits (capitals.flatMap CaseRange.forms) = 0 := by
  decide +kernel

variable {c d : Char}

/-- **No form of a capital is a capital.** -/
theorem isLower_of_form {r : CaseRange} {n : Nat} (hr : r ∈ capitals) (hn : r.contains n = true)
    (hd : d.toNat = ((n : Int) + r.offset).toNat) : IsLower d := by
  intro s hs
  rw [Bool.eq_false_iff]
  intro hcontains
  have hletter : d.toNat ∈ capitals.flatMap CaseRange.letters :=
    List.mem_flatMap.2 ⟨s, hs, CaseRange.mem_letters_of_contains hcontains⟩
  have hform : d.toNat ∈ capitals.flatMap CaseRange.forms := by
    rw [hd]
    exact List.mem_flatMap.2 ⟨r, hr, List.mem_map_of_mem (CaseRange.mem_letters_of_contains hn)⟩
  have hboth : (bits (capitals.flatMap CaseRange.letters) &&&
      bits (capitals.flatMap CaseRange.forms)).testBit d.toNat = true := by
    rw [Nat.testBit_and, testBit_bits, testBit_bits]
    exact Bool.and_eq_true_iff.2 ⟨decide_eq_true hletter, decide_eq_true hform⟩
  rw [bits_capitals_and_forms, Nat.zero_testBit] at hboth
  cases hboth

/-! ### Characters -/

theorem isLower_of_ascii (h : c.toNat < 0x80) (hnot : ¬(65 ≤ c.toNat ∧ c.toNat ≤ 90)) :
    IsLower c := by
  have hbeyond : ∀ r ∈ capitals.tail, 0x80 ≤ r.first := by decide +kernel
  intro r hr
  rw [Bool.eq_false_iff]
  intro hcontains
  simp only [CaseRange.contains, Bool.and_eq_true, decide_eq_true_eq] at hcontains
  rcases List.mem_cons.1 hr with rfl | hr
  · exact hnot hcontains.1
  · have hfirst := hbeyond r hr
    omega

theorem toLower_of_isLower (h : IsLower c) : c.toLower = c := by
  have hascii : (⟨0x41, 0x5A, 1, 32⟩ : CaseRange).contains c.toNat = false :=
    h _ (List.mem_cons_self ..)
  simp only [CaseRange.contains, Nat.mod_one, beq_self_eq_true, Bool.and_true,
    Bool.and_eq_false_iff, decide_eq_false_iff_not] at hascii
  rw [← Char.toNat_inj, toNat_toLower, if_neg (by omega)]

/-- What is no capital is kept. -/
theorem lowerChar_of_isLower (h : IsLower c) : lowerChar c = [c] := by
  have hnone : caseRanges.find? (·.contains c.toNat) = none := by
    rw [List.find?_eq_none]
    intro r hr
    rw [h r (List.mem_cons_of_mem _ (List.mem_cons_of_mem _ hr))]
    exact Bool.false_ne_true
  have hdotted : c ≠ 'İ' := by
    rintro rfl
    exact absurd (h _ (List.mem_cons_of_mem _ (List.mem_cons_self ..))) (by decide)
  rw [lowerChar, hnone, toLower_of_isLower h, if_neg hdotted, ite_self]

/-- **What is written for a letter in lower case is no capital.** -/
theorem isLower_of_mem_lowerChar (hd : d ∈ lowerChar c) : IsLower d := by
  rw [lowerChar] at hd
  split at hd
  next hascii =>
    obtain rfl := List.mem_singleton.1 hd
    by_cases hcapital : 65 ≤ c.toNat ∧ c.toNat ≤ 90
    · refine isLower_of_form (r := ⟨0x41, 0x5A, 1, 32⟩) (n := c.toNat) (List.mem_cons_self ..) ?_ ?_
      · simp [CaseRange.contains, hcapital, Nat.mod_one]
      · rw [toNat_toLower, if_pos hcapital]
        show c.toNat + 32 = ((c.toNat : Int) + 32).toNat
        omega
    · have hkept : c.toLower.toNat = c.toNat := by rw [toNat_toLower, if_neg hcapital]
      exact isLower_of_ascii (by omega) (by omega)
  split at hd
  next =>
    have hforms : ∀ d ∈ ['i', '\u0307'], IsLower d :=
      List.forall_mem_cons.2 ⟨by decide +kernel, List.forall_mem_singleton.2 (by decide +kernel)⟩
    exact hforms d hd
  next hascii hdotted =>
    split at hd
    next r hr =>
      obtain rfl := List.mem_singleton.1 hd
      have hmem : r ∈ capitals :=
        List.mem_cons_of_mem _ (List.mem_cons_of_mem _ (List.mem_of_find?_eq_some hr))
      have hcontains : r.contains c.toNat = true := by simpa using List.find?_some hr
      by_cases hvalid : ((c.toNat : Int) + r.offset).toNat.isValidChar
      · refine isLower_of_form hmem hcontains ?_
        rw [Char.ofNat, dif_pos hvalid]
        rfl
      · -- what is no code point becomes the character zero
        rw [Char.ofNat, dif_neg hvalid]
        exact isLower_of_ascii (by decide) (by decide)
    next hnone =>
      obtain rfl := List.mem_singleton.1 hd
      intro r hr
      rw [Bool.eq_false_iff]
      intro hcontains
      simp only [capitals, List.mem_cons] at hr
      rcases hr with rfl | rfl | hr
      · simp only [CaseRange.contains, Bool.and_eq_true, decide_eq_true_eq] at hcontains
        omega
      · simp only [CaseRange.contains, Bool.and_eq_true, decide_eq_true_eq] at hcontains
        exact hdotted (Char.toNat_inj.1 (show d.toNat = 0x130 by omega))
      · exact List.find?_eq_none.1 hnone r hr hcontains

/-! ### Texts -/

theorem lowerFrom_of_isLower {cs : List Char} (h : ∀ c ∈ cs, IsLower c) (before : List Char) :
    lowerFrom before cs = cs := by
  induction cs generalizing before with
  | nil => rfl
  | cons c cs ih =>
    have hc : IsLower c := h c (List.mem_cons_self ..)
    have hsigma : c ≠ capitalSigma := by
      rintro rfl
      revert hc
      decide +kernel
    rw [lowerFrom, if_neg hsigma, lowerChar_of_isLower hc,
      ih fun d hd => h d (List.mem_cons_of_mem c hd)]
    rfl

theorem isLower_of_mem_lowerFrom {cs before : List Char} (hd : d ∈ lowerFrom before cs) :
    IsLower d := by
  induction cs generalizing before with
  | nil => cases hd
  | cons c cs ih =>
    rw [lowerFrom] at hd
    rcases List.mem_append.1 hd with hd | hd
    · split at hd
      · have hforms : ∀ d ∈ ['ς', 'σ'], IsLower d := List.forall_mem_cons.2
          ⟨by decide +kernel, List.forall_mem_singleton.2 (by decide +kernel)⟩
        refine hforms d ?_
        rw [List.mem_singleton.1 hd, sigmaForm]
        split <;> simp
      · exact isLower_of_mem_lowerChar hd
    · exact ih hd

/-- **A text in lower case is its own lower case.** -/
theorem lower_lower (s : String) : lower (lower s) = lower s := by
  have hkept : lowerFrom [] (lowerFrom [] s.toList) = lowerFrom [] s.toList :=
    lowerFrom_of_isLower (fun _ => isLower_of_mem_lowerFrom) []
  rw [lower, lower, String.toList_ofList, hkept]

end ColumnFilter.Text
