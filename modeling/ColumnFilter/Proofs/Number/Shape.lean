import ColumnFilter.Number.Literal
import ColumnFilter.Proofs.Grammar.Matching

/-!
# The shape of a numeric literal

A numeric literal is a sign, a mantissa and an exponent, of which only the
mantissa has to be there.  `HasShape` says so without reading anything, and
`isSome_read?_iff` that the reader takes exactly these texts, whatever counts as
a digit.  A wider class of digits therefore gives more literals
(`HasShape.mono`).  What is no digit in a literal is one of five characters
(`HasShape.isDigit_or_mem`).
-/

namespace ColumnFilter

namespace Literal

/-- At least one digit. -/
def IsDigits (isDigit : Char → Bool) (cs : List Char) : Prop :=
  cs ≠ [] ∧ ∀ c ∈ cs, isDigit c = true

/-- A sign, or none. -/
def IsSign (cs : List Char) : Prop :=
  cs = [] ∨ cs = ['+'] ∨ cs = ['-']

/-- Digits with a point behind, among or before them, or without one. -/
inductive IsMantissa (isDigit : Char → Bool) : List Char → Prop
  | whole {ds : List Char} : IsDigits isDigit ds → IsMantissa isDigit ds
  | pointBehind {ds es : List Char} : IsDigits isDigit ds → (∀ c ∈ es, isDigit c = true) →
      IsMantissa isDigit (ds ++ '.' :: es)
  | pointBefore {es : List Char} : IsDigits isDigit es → IsMantissa isDigit ('.' :: es)

/-- The letter `e` in either case with a whole number behind it, or nothing. -/
inductive IsExponent (isDigit : Char → Bool) : List Char → Prop
  | absent : IsExponent isDigit []
  | present {c : Char} {sign ds : List Char} : c = 'e' ∨ c = 'E' → IsSign sign →
      IsDigits isDigit ds → IsExponent isDigit (c :: (sign ++ ds))

/-- The text is a numeric literal. -/
def HasShape (isDigit : Char → Bool) (cs : List Char) : Prop :=
  ∃ sign mantissa exponent, IsSign sign ∧ IsMantissa isDigit mantissa ∧
    IsExponent isDigit exponent ∧ cs = sign ++ (mantissa ++ exponent)

/-- No digit has another part in a literal. -/
def DigitsApart (isDigit : Char → Bool) : Prop :=
  ∀ c ∈ ['+', '-', '.', 'e', 'E'], isDigit c = false

variable {isDigit wider : Char → Bool} {cs sign rest : List Char}

/-! ### More digits -/

theorem IsDigits.mono (h : IsDigits isDigit cs)
    (hle : ∀ c ∈ cs, isDigit c = true → wider c = true) : IsDigits wider cs :=
  ⟨h.1, fun c hc => hle c hc (h.2 c hc)⟩

theorem IsMantissa.mono (h : IsMantissa isDigit cs)
    (hle : ∀ c ∈ cs, isDigit c = true → wider c = true) : IsMantissa wider cs := by
  cases h with
  | whole hds => exact .whole (hds.mono hle)
  | pointBehind hds hes =>
    rw [List.forall_mem_append, List.forall_mem_cons] at hle
    exact .pointBehind (hds.mono hle.1) fun c hc => hle.2.2 c hc (hes c hc)
  | pointBefore hes => exact .pointBefore (hes.mono (List.forall_mem_cons.1 hle).2)

theorem IsExponent.mono (h : IsExponent isDigit cs)
    (hle : ∀ c ∈ cs, isDigit c = true → wider c = true) : IsExponent wider cs := by
  cases h with
  | absent => exact .absent
  | present hc hsign hds =>
    rw [List.forall_mem_cons, List.forall_mem_append] at hle
    exact .present hc hsign (hds.mono hle.2.2)

/-- A literal remains one if what is a digit in it remains a digit. -/
theorem HasShape.mono (h : HasShape isDigit cs)
    (hle : ∀ c ∈ cs, isDigit c = true → wider c = true) : HasShape wider cs := by
  obtain ⟨sign, mantissa, exponent, hsign, hmantissa, hexponent, rfl⟩ := h
  rw [List.forall_mem_append, List.forall_mem_append] at hle
  exact ⟨sign, mantissa, exponent, hsign, hmantissa.mono hle.2.1, hexponent.mono hle.2.2, rfl⟩

/-! ### Other characters -/

theorem IsSign.mem (h : IsSign cs) {c : Char} (hc : c ∈ cs) : c ∈ ['+', '-', '.', 'e', 'E'] := by
  rcases h with rfl | rfl | rfl
  · cases hc
  · obtain rfl := List.mem_singleton.1 hc
    decide
  · obtain rfl := List.mem_singleton.1 hc
    decide

theorem IsMantissa.isDigit_or_mem (h : IsMantissa isDigit cs) {c : Char} (hc : c ∈ cs) :
    isDigit c = true ∨ c ∈ ['+', '-', '.', 'e', 'E'] := by
  cases h with
  | whole hds => exact .inl (hds.2 c hc)
  | pointBehind hds hes =>
    rcases List.mem_append.1 hc with hc | hc
    · exact .inl (hds.2 c hc)
    · rcases List.mem_cons.1 hc with rfl | hc
      · exact .inr (by decide)
      · exact .inl (hes c hc)
  | pointBefore hes =>
    rcases List.mem_cons.1 hc with rfl | hc
    · exact .inr (by decide)
    · exact .inl (hes.2 c hc)

theorem IsExponent.isDigit_or_mem (h : IsExponent isDigit cs) {c : Char} (hc : c ∈ cs) :
    isDigit c = true ∨ c ∈ ['+', '-', '.', 'e', 'E'] := by
  cases h with
  | absent => cases hc
  | present hletter hsign hds =>
    rcases List.mem_cons.1 hc with rfl | hc
    · exact .inr (by rcases hletter with rfl | rfl <;> decide)
    · rcases List.mem_append.1 hc with hc | hc
      · exact .inr (hsign.mem hc)
      · exact .inl (hds.2 c hc)

/-- A literal has nothing but digits, signs, a point and the letter of its exponent. -/
theorem HasShape.isDigit_or_mem (h : HasShape isDigit cs) {c : Char} (hc : c ∈ cs) :
    isDigit c = true ∨ c ∈ ['+', '-', '.', 'e', 'E'] := by
  obtain ⟨sign, mantissa, exponent, hsign, hmantissa, hexponent, rfl⟩ := h
  rcases List.mem_append.1 hc with hc | hc
  · exact .inr (hsign.mem hc)
  · rcases List.mem_append.1 hc with hc | hc
    · exact hmantissa.isDigit_or_mem hc
    · exact hexponent.isDigit_or_mem hc

/-! ### Signs and exponents -/

theorem exists_sign_append (cs : List Char) :
    ∃ sign, IsSign sign ∧ cs = sign ++ (Sign.read cs).2 := by
  rw [Sign.read.eq_def]
  split
  · exact ⟨['+'], .inr (.inl rfl), rfl⟩
  · exact ⟨['-'], .inr (.inr rfl), rfl⟩
  · exact ⟨[], .inl rfl, rfl⟩

theorem read_sign_append (hsign : IsSign sign)
    (hrest : Stops (fun c => c == '+' || c == '-') rest) :
    (Sign.read (sign ++ rest)).2 = rest := by
  rcases hsign with rfl | rfl | rfl
  · rw [List.nil_append, Sign.read.eq_def]
    split
    · simp at hrest
    · simp at hrest
    · rfl
  · rfl
  · rfl

theorem stops_sign_of_isDigits (hapart : DigitsApart isDigit) (h : IsDigits isDigit cs) :
    Stops (fun c => c == '+' || c == '-') cs := by
  intro c hc
  have hdigit := h.2 c (List.mem_of_mem_head? hc)
  by_contra hsign
  simp only [Bool.not_eq_false, Bool.or_eq_true, beq_iff_eq] at hsign
  rw [hapart c (by rcases hsign with rfl | rfl <;> simp)] at hdigit
  cases hdigit

theorem isSome_readExponent_iff (hapart : DigitsApart isDigit) :
    (readExponent isDigit cs).isSome = true ↔ IsExponent isDigit cs := by
  constructor
  · intro h
    cases cs with
    | nil => exact .absent
    | cons c cs =>
      simp only [readExponent, Option.isSome_ite, Bool.and_eq_true, Bool.or_eq_true, beq_iff_eq,
        Bool.not_eq_true', List.isEmpty_eq_false_iff, List.all_eq_true] at h
      obtain ⟨⟨hc, hne⟩, hdigits⟩ := h
      obtain ⟨sign, hsign, hcs⟩ := exists_sign_append cs
      rw [hcs]
      exact .present hc hsign ⟨hne, hdigits⟩
  · intro h
    cases h with
    | absent => rfl
    | present hc hsign hds =>
      have hread := read_sign_append hsign (stops_sign_of_isDigits hapart hds)
      simp only [readExponent, hread, Option.isSome_ite, Bool.and_eq_true, Bool.or_eq_true,
        beq_iff_eq, Bool.not_eq_true', List.isEmpty_eq_false_iff, List.all_eq_true]
      exact ⟨⟨hc, hds.1⟩, hds.2⟩

/-! ### Mantissas -/

/-- Digits and a point are read up to the first character that is neither. -/
theorem exists_mantissa_append
    (h : ¬(cs.takeWhile isDigit = [] ∧
      (readFraction isDigit (cs.dropWhile isDigit)).1.getD [] = [])) :
    ∃ mantissa, IsMantissa isDigit mantissa ∧
      cs = mantissa ++ (readFraction isDigit (cs.dropWhile isDigit)).2 := by
  have hcs : cs.takeWhile isDigit ++ cs.dropWhile isDigit = cs := List.takeWhile_append_dropWhile
  have hwhole : ∀ c ∈ cs.takeWhile isDigit, isDigit c = true :=
    fun c hc => List.mem_takeWhile_imp hc
  generalize cs.takeWhile isDigit = ds at h hcs hwhole
  generalize cs.dropWhile isDigit = tail at h hcs
  subst hcs
  rw [readFraction.eq_def] at h ⊢
  split at h
  next _ es =>
    have hes : ∀ c ∈ es.takeWhile isDigit, isDigit c = true := fun c hc => List.mem_takeWhile_imp hc
    have htail : es = es.takeWhile isDigit ++ es.dropWhile isDigit :=
      List.takeWhile_append_dropWhile.symm
    by_cases hds : ds = []
    · subst hds
      refine ⟨'.' :: es.takeWhile isDigit, .pointBefore ⟨fun hnil => h ⟨rfl, hnil⟩, hes⟩, ?_⟩
      exact congrArg ('.' :: ·) htail
    · refine ⟨ds ++ '.' :: es.takeWhile isDigit, .pointBehind ⟨hds, hwhole⟩ hes, ?_⟩
      rw [List.append_assoc, List.cons_append, ← htail]
  next => exact ⟨ds, .whole ⟨fun hds => h ⟨hds, rfl⟩, hwhole⟩, rfl⟩

/-- What follows a mantissa is left. -/
theorem IsMantissa.read_append (h : IsMantissa isDigit cs) (hapart : DigitsApart isDigit)
    (hdigit : Stops isDigit rest) (hpoint : Stops (· == '.') rest) :
    ¬((cs ++ rest).takeWhile isDigit = [] ∧
        (readFraction isDigit ((cs ++ rest).dropWhile isDigit)).1.getD [] = []) ∧
      (readFraction isDigit ((cs ++ rest).dropWhile isDigit)).2 = rest := by
  have hfraction : ∀ es, (∀ c ∈ es, isDigit c = true) →
      readFraction isDigit ('.' :: (es ++ rest)) = (some es, rest) := by
    intro es hes
    rw [readFraction, hdigit.takeWhile_append hes, hdigit.dropWhile_append hes]
  have hdot : isDigit '.' = false := hapart '.' (by simp)
  cases h with
  | whole hds =>
    have hnone : readFraction isDigit rest = (none, rest) := by
      rw [readFraction.eq_def]
      split
      · simp at hpoint
      · rfl
    rw [hdigit.takeWhile_append hds.2, hdigit.dropWhile_append hds.2, hnone]
    exact ⟨fun hnil => hds.1 hnil.1, rfl⟩
  | @pointBehind ds es hds hes =>
    have hstop : Stops isDigit ('.' :: (es ++ rest)) := Stops.cons_iff.2 hdot
    rw [List.append_assoc, List.cons_append, hstop.takeWhile_append hds.2,
      hstop.dropWhile_append hds.2, hfraction es hes]
    exact ⟨fun hnil => hds.1 hnil.1, rfl⟩
  | @pointBefore es hes =>
    have hstop : Stops isDigit ('.' :: (es ++ rest)) := Stops.cons_iff.2 hdot
    rw [List.cons_append, hstop.dropWhile_eq_self, hfraction es hes.2]
    exact ⟨fun hnil => hes.1 hnil.2, rfl⟩

theorem IsMantissa.stops_sign (h : IsMantissa isDigit cs) (hapart : DigitsApart isDigit)
    (rest : List Char) : Stops (fun c => c == '+' || c == '-') (cs ++ rest) := by
  cases h with
  | whole hds => exact .append_of_ne_nil hds.1 (stops_sign_of_isDigits hapart hds)
  | pointBehind hds _ =>
    rw [List.append_assoc]
    exact .append_of_ne_nil hds.1 (stops_sign_of_isDigits hapart hds)
  | pointBefore _ => exact Stops.cons_iff.2 (by decide)

/-! ### Literals -/

theorem isSome_read? (isDigit : Char → Bool) (cs : List Char) :
    (read? isDigit cs).isSome = true ↔
      ¬((Sign.read cs).2.takeWhile isDigit = [] ∧
        (readFraction isDigit ((Sign.read cs).2.dropWhile isDigit)).1.getD [] = []) ∧
      (readExponent isDigit
        (readFraction isDigit ((Sign.read cs).2.dropWhile isDigit)).2).isSome = true := by
  simp only [read?, Bool.and_eq_true, List.isEmpty_iff]
  split <;> simp_all

/-- **The reader takes exactly the texts that have the shape of a literal.** -/
theorem isSome_read?_iff (hapart : DigitsApart isDigit) :
    (read? isDigit cs).isSome = true ↔ HasShape isDigit cs := by
  rw [isSome_read?, isSome_readExponent_iff hapart]
  constructor
  · rintro ⟨hsome, hexponent⟩
    obtain ⟨sign, hsign, hcs⟩ := exists_sign_append cs
    obtain ⟨mantissa, hmantissa, hrest⟩ := exists_mantissa_append hsome
    exact ⟨sign, mantissa, _, hsign, hmantissa, hexponent, by rw [← hrest, ← hcs]⟩
  · rintro ⟨sign, mantissa, exponent, hsign, hmantissa, hexponent, rfl⟩
    -- an exponent begins with a letter, so it prolongs neither the digits nor a fraction
    have hstop : Stops isDigit exponent ∧ Stops (· == '.') exponent := by
      cases hexponent with
      | absent => exact ⟨.nil, .nil⟩
      | present hc _ _ =>
        rw [Stops.cons_iff, Stops.cons_iff]
        rcases hc with rfl | rfl
        · exact ⟨hapart 'e' (by simp), by decide⟩
        · exact ⟨hapart 'E' (by simp), by decide⟩
    obtain ⟨hsome, hrest⟩ := hmantissa.read_append hapart hstop.1 hstop.2
    rw [read_sign_append hsign (hmantissa.stops_sign hapart exponent), hrest]
    exact ⟨hsome, hexponent⟩

end Literal

end ColumnFilter
