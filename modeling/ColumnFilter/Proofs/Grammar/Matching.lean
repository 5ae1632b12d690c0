import ColumnFilter.Grammar.RulePattern
import Mathlib.Data.List.TakeWhile

/-!
# How patterns match

What a match of a composed pattern is made of.  A match of a sequence is a match
of its first part followed by one of the second, at the place where the first
came to an end; a class that is repeated takes the longest run of its
characters; a word takes exactly its own characters.

The repetition of a pattern is bounded by the text in its definition.  For a
pattern that takes at least one character with every match, the bound is never
used up: `run_star_of_some` unrolls one step, and `run_star_induction` is the
induction over all steps.

A run of a class ends at the first character outside of it.  `Stops accepts rest`
says that `rest` begins with such a character, or is empty, and
`eq_of_append_eq_append` that this determines where the run ends.
-/

namespace ColumnFilter

/-- The text is at its end, or goes on with a character outside a class. -/
def Stops (accepts : Char → Bool) (rest : List Char) : Prop :=
  ∀ c, rest.head? = some c → accepts c = false

namespace Stops

variable {accepts : Char → Bool} {word rest : List Char}

@[simp] theorem nil : Stops accepts [] := by
  intro c h
  simp at h

@[simp] theorem cons_iff {c : Char} : Stops accepts (c :: rest) ↔ accepts c = false := by
  simp [Stops]

theorem append_of_ne_nil (hne : word ≠ []) (h : Stops accepts word) :
    Stops accepts (word ++ rest) := by
  cases word with
  | nil => exact absurd rfl hne
  | cons c word => exact cons_iff.2 (cons_iff.1 h)

theorem of_append (h : Stops accepts (word ++ rest)) : Stops accepts word := by
  cases word with
  | nil => exact nil
  | cons c word => exact cons_iff.2 (cons_iff.1 h)

theorem dropWhile (accepts : Char → Bool) (cs : List Char) :
    Stops accepts (cs.dropWhile accepts) := by
  induction cs with
  | nil => exact nil
  | cons c cs ih =>
    by_cases hc : accepts c = true
    · rwa [List.dropWhile_cons_of_pos hc]
    · rw [List.dropWhile_cons_of_neg hc, cons_iff]
      simpa using hc

theorem dropWhile_eq_self (h : Stops accepts rest) : rest.dropWhile accepts = rest := by
  cases rest with
  | nil => rfl
  | cons c rest => rw [List.dropWhile_cons_of_neg (by simp [cons_iff.1 h])]

theorem takeWhile_append (hword : ∀ c ∈ word, accepts c = true) (h : Stops accepts rest) :
    (word ++ rest).takeWhile accepts = word := by
  rw [List.takeWhile_append_of_pos hword]
  cases rest with
  | nil => simp
  | cons c rest => rw [List.takeWhile_cons_of_neg (by simp [cons_iff.1 h]), List.append_nil]

theorem dropWhile_append (hword : ∀ c ∈ word, accepts c = true) (h : Stops accepts rest) :
    (word ++ rest).dropWhile accepts = rest := by
  rw [List.dropWhile_append_of_pos hword, h.dropWhile_eq_self]

end Stops

/-- A run of a class ends where its characters end, however the text is cut. -/
theorem eq_of_append_eq_append {accepts : Char → Bool} {word word' rest rest' : List Char}
    (heq : word ++ rest = word' ++ rest') (h : ∀ c ∈ word, accepts c = true)
    (hs : Stops accepts rest) (h' : ∀ c ∈ word', accepts c = true) (hs' : Stops accepts rest') :
    word = word' ∧ rest = rest' := by
  have hword : word = word' := by
    rw [← hs.takeWhile_append h, heq, hs'.takeWhile_append h']
  exact ⟨hword, List.append_cancel_left (hword ▸ heq)⟩

namespace Match

@[simp] theorem append_text (m n : Match) : (m.append n).text = m.text ++ n.text := rfl

@[simp] theorem append_trees (m n : Match) : (m.append n).trees = m.trees ++ n.trees := rfl

@[simp] theorem append_rest (m n : Match) : (m.append n).rest = n.rest := rfl

end Match

namespace Pattern

variable {p q : Pattern} {start : Nat} {cs : List Char} {m : Match}

/-! ### Sequences and choices -/

theorem run_seq_of_some (h : run p start cs = some m) :
    run (seq p q) start cs =
      (run q (start + Text.byteLength m.text) m.rest).map m.append := by
  simp only [run, h]

theorem run_seq_of_none (h : run p start cs = none) : run (seq p q) start cs = none := by
  simp only [run, h]

theorem run_seq_eq_some : run (seq p q) start cs = some m ↔
    ∃ a b, run p start cs = some a ∧
      run q (start + Text.byteLength a.text) a.rest = some b ∧ m = a.append b := by
  cases h : run p start cs with
  | none => simp [run_seq_of_none h]
  | some a =>
    rw [run_seq_of_some h, Option.map_eq_some_iff]
    constructor
    · rintro ⟨b, hb, rfl⟩
      exact ⟨a, b, rfl, hb, rfl⟩
    · rintro ⟨a', b, ha, hb, rfl⟩
      obtain rfl := Option.some.inj ha
      exact ⟨b, hb, rfl⟩

theorem run_alt_of_some (h : run p start cs = some m) : run (alt p q) start cs = some m := by
  rw [run, h, Option.some_or]

theorem run_alt_of_none (h : run p start cs = none) :
    run (alt p q) start cs = run q start cs := by
  rw [run, h, Option.none_or]

theorem run_alt_eq_some : run (alt p q) start cs = some m ↔
    run p start cs = some m ∨ run p start cs = none ∧ run q start cs = some m := by
  rw [run, Option.or_eq_some_iff]

/-- A choice between patterns that can only match in one and the same way. -/
theorem run_alt_iff {P Q : Prop} {m₀ : Match}
    (hp : ∀ m, run p start cs = some m ↔ P ∧ m = m₀)
    (hq : ∀ m, run q start cs = some m ↔ Q ∧ m = m₀) :
    ∀ m, run (alt p q) start cs = some m ↔ (P ∨ Q) ∧ m = m₀ := by
  intro m
  cases h : run p start cs with
  | some a =>
    obtain ⟨hP, rfl⟩ := (hp a).1 h
    rw [run_alt_of_some h, Option.some.injEq, eq_comm]
    exact ⟨fun hm => ⟨.inl hP, hm⟩, And.right⟩
  | none =>
    have hP : ¬P := fun hP => by simpa [h] using (hp m₀).2 ⟨hP, rfl⟩
    rw [run_alt_of_none h, hq, or_iff_right hP]

/-! ### Classes and words -/

theorem run_one_cons (accepts : Char → Bool) (c : Char) :
    run (one accepts) start (c :: cs) =
      if accepts c then some ⟨[c], [], cs⟩ else none := rfl

theorem run_one_eq_some {accepts : Char → Bool} : run (one accepts) start cs = some m ↔
    ∃ c, accepts c = true ∧ cs = c :: m.rest ∧ m = ⟨[c], [], m.rest⟩ := by
  cases cs with
  | nil => simp [run]
  | cons c cs =>
    rw [run_one_cons, Option.ite_none_right_eq_some]
    constructor
    · rintro ⟨hc, h⟩
      obtain rfl := Option.some.inj h
      exact ⟨c, hc, rfl, rfl⟩
    · rintro ⟨d, hd, hcs, hm⟩
      obtain ⟨rfl, rfl⟩ := List.cons.inj hcs
      exact ⟨hd, congrArg some hm.symm⟩

/-- A word of characters, each known by its image under `fold`. -/
def foldedWord (fold : Char → Char) (word : List Char) : Pattern :=
  sequence (word.map fun d => one (fold · == d))

theorem run_foldedWord_cons (fold : Char → Char) (d : Char) (word : List Char) :
    run (foldedWord fold (d :: word)) start cs =
      run (seq (one (fold · == d)) (foldedWord fold word)) start cs := by
  cases word with
  | cons => rfl
  | nil =>
    show run (one _) start cs = run (seq (one _) empty) start cs
    cases h : run (one (fold · == d)) start cs with
    | none => rw [run_seq_of_none h]
    | some m =>
      obtain ⟨c, -, -, hm⟩ := run_one_eq_some.1 h
      rw [run_seq_of_some h, hm]
      rfl

/-- A word takes the characters that have its own as images, and marks nothing. -/
theorem run_foldedWord_eq_some {fold : Char → Char} {word : List Char} :
    ∀ {start : Nat} {cs : List Char} {m : Match},
      run (foldedWord fold word) start cs = some m ↔
        m.text.map fold = word ∧ cs = m.text ++ m.rest ∧ m.trees = [] := by
  induction word with
  | nil =>
    rintro start cs ⟨text, trees, rest⟩
    simp only [foldedWord, List.map_nil, sequence, run, Option.some.injEq, Match.mk.injEq,
      List.map_eq_nil_iff]
    constructor
    · rintro ⟨rfl, rfl, rfl⟩
      exact ⟨rfl, rfl, rfl⟩
    · rintro ⟨rfl, rfl, rfl⟩
      exact ⟨rfl, rfl, rfl⟩
  | cons d word ih =>
    intro start cs m
    rw [run_foldedWord_cons, run_seq_eq_some]
    constructor
    · rintro ⟨a, b, ha, hb, rfl⟩
      obtain ⟨c, hc, hcs, ha⟩ := run_one_eq_some.1 ha
      obtain ⟨hword, hrest, htrees⟩ := ih.1 hb
      have hd : fold c = d := eq_of_beq hc
      rw [Match.append_text, Match.append_rest, Match.append_trees, hcs, hrest, htrees, ha]
      exact ⟨hd ▸ congrArg (fold c :: ·) hword, rfl, rfl⟩
    · rintro ⟨hword, hcs, htrees⟩
      obtain ⟨text, trees, rest⟩ := m
      cases text with
      | nil => simp at hword
      | cons c text =>
        obtain ⟨hc, hword⟩ := List.cons.inj hword
        refine ⟨⟨[c], [], text ++ rest⟩, ⟨text, [], rest⟩,
          run_one_eq_some.2 ⟨c, beq_iff_eq.2 hc, hcs, rfl⟩, ih.2 ⟨hword, rfl, rfl⟩, ?_⟩
        rw [show trees = [] from htrees]
        rfl

/-- A word fails at its first character if that has the wrong image. -/
theorem run_foldedWord_of_head_ne {fold : Char → Char} {word : List Char} {c : Char}
    (hne : word ≠ []) (h : word.head? ≠ some (fold c)) :
    run (foldedWord fold word) start (c :: cs) = none := by
  cases word with
  | nil => exact absurd rfl hne
  | cons d word =>
    rw [run_foldedWord_cons]
    exact run_seq_of_none (if_neg fun he => h (congrArg some (eq_of_beq he).symm))

theorem run_exactly_eq_some {s : String} : run (exactly s) start cs = some m ↔
    m = ⟨s.toList, [], m.rest⟩ ∧ cs = s.toList ++ m.rest := by
  have h := @run_foldedWord_eq_some id s.toList start cs m
  rw [List.map_id] at h
  refine h.trans ?_
  obtain ⟨text, trees, rest⟩ := m
  constructor
  · rintro ⟨rfl, hcs, rfl⟩
    exact ⟨rfl, hcs⟩
  · rintro ⟨hm, hcs⟩
    obtain ⟨rfl, rfl, -⟩ := Match.mk.inj hm
    exact ⟨rfl, hcs, rfl⟩

theorem run_anyCase_eq_some {s : String} : run (anyCase s) start cs = some m ↔
    Text.asciiLower m.text = s.toList ∧ cs = m.text ++ m.rest ∧ m.trees = [] :=
  run_foldedWord_eq_some

theorem run_exactly_append (s : String) (start : Nat) (rest : List Char) :
    run (exactly s) start (s.toList ++ rest) = some ⟨s.toList, [], rest⟩ :=
  run_exactly_eq_some.2 ⟨rfl, rfl⟩

theorem run_anyCase_append {s : String} {word : List Char}
    (h : Text.asciiLower word = s.toList) (start : Nat) (rest : List Char) :
    run (anyCase s) start (word ++ rest) = some ⟨word, [], rest⟩ :=
  run_anyCase_eq_some.2 ⟨h, rfl, rfl⟩

/-! ### Repetitions -/

/-- A pattern of which every match takes at least one character. -/
def Consuming (p : Pattern) : Prop :=
  ∀ {start : Nat} {cs : List Char} {m : Match}, run p start cs = some m → m.text ≠ []

theorem consuming_one (accepts : Char → Bool) : Consuming (one accepts) := by
  intro start cs m h
  obtain ⟨c, -, -, hm⟩ := run_one_eq_some.1 h
  rw [hm]
  exact List.cons_ne_nil c []

/-- A step of a consuming pattern leaves less than there was. -/
theorem Consuming.length_rest_lt (hp : Consuming p) (h : run p start cs = some m) :
    m.rest.length < cs.length := by
  rw [← text_append_rest h, List.length_append]
  have := List.length_pos_iff.2 (hp h)
  omega

/-- Two bounds that are both long enough allow the same steps. -/
theorem repeatMatch_bound (hp : Consuming p) :
    ∀ (bound bound' : List Char) (start : Nat) (cs : List Char),
      cs.length ≤ bound.length → cs.length ≤ bound'.length →
        repeatMatch (run p) bound start cs = repeatMatch (run p) bound' start cs := by
  -- with no bound left there is no text left, on which a consuming pattern fails
  have stop : ∀ (bound : List Char) (start : Nat),
      repeatMatch (run p) bound start [] = ⟨[], [], []⟩ := by
    intro bound start
    cases bound with
    | nil => rfl
    | cons b bound =>
      rw [repeatMatch]
      cases h : run p start [] with
      | none => rfl
      | some m => exact absurd (hp.length_rest_lt h) (Nat.not_lt_zero _)
  intro bound
  induction bound with
  | nil =>
    intro bound' start cs h _
    rw [List.length_eq_zero_iff.1 (Nat.le_zero.1 h), stop, stop]
  | cons b bound ih =>
    intro bound' start cs h h'
    cases bound' with
    | nil => rw [List.length_eq_zero_iff.1 (Nat.le_zero.1 h'), stop, stop]
    | cons b' bound' =>
      rw [repeatMatch, repeatMatch]
      cases hm : run p start cs with
      | none => rfl
      | some m =>
        have := hp.length_rest_lt hm
        simp only [List.length_cons] at h h'
        exact congrArg m.append (ih bound' _ m.rest (by omega) (by omega))

theorem run_star_of_none (h : run p start cs = none) :
    run (star p) start cs = some ⟨[], [], cs⟩ := by
  rw [run]
  cases cs with
  | nil => rfl
  | cons c cs => rw [repeatMatch, h]

/-- **A repetition goes on after each step.** -/
theorem run_star_of_some (hp : Consuming p) (h : run p start cs = some m) :
    run (star p) start cs =
      (run (star p) (start + Text.byteLength m.text) m.rest).map m.append := by
  have hlt := hp.length_rest_lt h
  cases cs with
  | nil => exact absurd hlt (Nat.not_lt_zero _)
  | cons c cs =>
    rw [run, run, repeatMatch, h, Option.map_some]
    exact congrArg (fun n => some (m.append n))
      (repeatMatch_bound hp _ _ _ _ (Nat.lt_succ_iff.1 hlt) (Nat.le_refl _))

/-- **Induction over the steps of a repetition.**  What holds where the pattern
does not match, and is passed on by a step, holds of every repetition. -/
theorem run_star_induction (hp : Consuming p) {motive : Nat → List Char → Match → Prop}
    (stop : ∀ start cs, run p start cs = none → motive start cs ⟨[], [], cs⟩)
    (step : ∀ start cs a b, run p start cs = some a →
      run (star p) (start + Text.byteLength a.text) a.rest = some b →
      motive (start + Text.byteLength a.text) a.rest b → motive start cs (a.append b)) :
    ∀ {start : Nat} {cs : List Char} {m : Match},
      run (star p) start cs = some m → motive start cs m := by
  intro start cs
  induction hn : cs.length using Nat.strongRecOn generalizing start cs with
  | ind n ih =>
    intro m h
    cases hs : run p start cs with
    | none =>
      rw [run_star_of_none hs] at h
      obtain rfl := Option.some.inj h
      exact stop start cs hs
    | some a =>
      rw [run_star_of_some hp hs, Option.map_eq_some_iff] at h
      obtain ⟨b, hb, rfl⟩ := h
      exact step start cs a b hs hb (ih a.rest.length (hn ▸ hp.length_rest_lt hs) rfl hb)

/-- What may follow a piece is another piece, or it is what may follow the row. -/
theorem follows_flatMap {α : Type} {chars : α → List Char} {follows : List Char → Prop}
    (hfollows : ∀ a rest, follows (chars a ++ rest)) {rest : List Char} (hrest : follows rest)
    (as : List α) : follows (as.flatMap chars ++ rest) := by
  cases as with
  | nil => exact hrest
  | cons a as =>
    rw [List.flatMap_cons, List.append_assoc]
    exact hfollows a _

/-- A repeated class takes the longest run of its characters. -/
theorem run_star_one (accepts : Char → Bool) (start : Nat) (cs : List Char) :
    run (star (one accepts)) start cs =
      some ⟨cs.takeWhile accepts, [], cs.dropWhile accepts⟩ := by
  induction cs generalizing start with
  | nil => rfl
  | cons c cs ih =>
    by_cases hc : accepts c = true
    · have hs : run (one accepts) start (c :: cs) = some ⟨[c], [], cs⟩ := if_pos hc
      rw [run_star_of_some (consuming_one accepts) hs, ih, List.takeWhile_cons_of_pos hc,
        List.dropWhile_cons_of_pos hc]
      rfl
    · have hs : run (one accepts) start (c :: cs) = none := if_neg hc
      rw [run_star_of_none hs, List.takeWhile_cons_of_neg hc, List.dropWhile_cons_of_neg hc]

/-- A class that is taken at least once fails only where it does not begin. -/
theorem run_plus_one (accepts : Char → Bool) (start : Nat) (cs : List Char) :
    run (plus (one accepts)) start cs =
      if cs.takeWhile accepts = [] then none
      else some ⟨cs.takeWhile accepts, [], cs.dropWhile accepts⟩ := by
  cases cs with
  | nil => rfl
  | cons c cs =>
    by_cases hc : accepts c = true
    · have hs : run (one accepts) start (c :: cs) = some ⟨[c], [], cs⟩ := if_pos hc
      rw [plus, run_seq_of_some hs, run_star_one, List.takeWhile_cons_of_pos hc,
        List.dropWhile_cons_of_pos hc, if_neg (List.cons_ne_nil _ _)]
      rfl
    · have hs : run (one accepts) start (c :: cs) = none := if_neg hc
      rw [plus, run_seq_of_none hs, List.takeWhile_cons_of_neg hc, if_pos rfl]

/-! ### Marks and conditions -/

theorem run_leaf_eq_some {r : Rule} : run (leaf r p) start cs = some m ↔
    ∃ a, run p start cs = some a ∧ m = ⟨a.text, [.mk r start a.text []], a.rest⟩ := by
  rw [run, Option.map_eq_some_iff]
  exact exists_congr fun a => and_congr_right fun _ => eq_comm

theorem run_node_eq_some {r : Rule} : run (node r p) start cs = some m ↔
    ∃ a, run p start cs = some a ∧ m = ⟨a.text, [.mk r start a.text a.trees], a.rest⟩ := by
  rw [run, Option.map_eq_some_iff]
  exact exists_congr fun a => and_congr_right fun _ => eq_comm

theorem run_notAhead_eq_some : run (notAhead p) start cs = some m ↔
    run p start cs = none ∧ m = ⟨[], [], cs⟩ := by
  rw [run]
  cases run p start cs with
  | none => simp [eq_comm]
  | some a => simp

theorem run_finish_eq_some : run finish start cs = some m ↔ cs = [] ∧ m = ⟨[], [], []⟩ := by
  cases cs with
  | nil => simp [run, eq_comm]
  | cons c cs => simp [run]

/-! ### Patterns that take a character -/

/-- Does the form of the pattern show that every match takes a character? -/
def consumes : Pattern → Bool
  | one _ => true
  | seq p q => p.consumes || q.consumes
  | alt p q => p.consumes && q.consumes
  | leaf _ p | node _ p => p.consumes
  | empty | star _ | notAhead _ | finish => false

theorem consuming_of_consumes {p : Pattern} (h : p.consumes = true) : Consuming p := by
  induction p with
  | one accepts => exact consuming_one accepts
  | seq p q ihp ihq =>
    intro start cs m hm
    obtain ⟨a, b, ha, hb, rfl⟩ := run_seq_eq_some.1 hm
    rw [consumes, Bool.or_eq_true] at h
    rcases h with hp | hq
    · exact List.append_ne_nil_of_left_ne_nil (ihp hp ha) _
    · exact List.append_ne_nil_of_right_ne_nil _ (ihq hq hb)
  | alt p q ihp ihq =>
    intro start cs m hm
    rw [consumes, Bool.and_eq_true] at h
    rcases run_alt_eq_some.1 hm with hm | ⟨-, hm⟩
    · exact ihp h.1 hm
    · exact ihq h.2 hm
  | leaf r p ih =>
    intro start cs m hm
    obtain ⟨a, ha, rfl⟩ := run_leaf_eq_some.1 hm
    have htext : a.text ≠ [] := ih h ha
    exact htext
  | node r p ih =>
    intro start cs m hm
    obtain ⟨a, ha, rfl⟩ := run_node_eq_some.1 hm
    have htext : a.text ≠ [] := ih h ha
    exact htext
  | _ => cases h

end Pattern

end ColumnFilter
