import ColumnFilter.Proofs.Grammar.Matching
import ColumnFilter.Proofs.Spelling.Basic

/-!
# Literals

What the grammar matches as a literal.  A text between quotes is matched up to
the next quote of its kind, whatever follows; a word is matched up to the first
character that belongs to no word, and its letters decide of which class it is.
Nothing else is a literal: `run_item` and `exists_item_of_run` say both.
-/

namespace ColumnFilter

/-! ### Classes of characters -/

theorem isBlank_iff {c : Char} :
    Grammar.isBlank c = true ↔ c = ' ' ∨ c = '\t' ∨ c = '\r' ∨ c = '\n' := by
  simp [Grammar.isBlank, or_assoc]

theorem isBare_eq_false_iff {c : Char} : Grammar.isBare c = false ↔
    Grammar.isBlank c = true ∨ c = ',' ∨ c = '(' ∨ c = ')' := by
  simp only [Grammar.isBare, Bool.not_eq_false', Bool.or_eq_true, beq_iff_eq, or_assoc]

theorem isQuote_iff {c : Char} : Spelling.isQuote c = true ↔ c = '"' ∨ c = '\'' := by
  simp [Spelling.isQuote]

theorem isBare_eq_false_of_isBlank {c : Char} (h : Grammar.isBlank c = true) :
    Grammar.isBare c = false :=
  isBare_eq_false_iff.2 (.inl h)

theorem isBlank_eq_false_of_isBare {c : Char} (h : Grammar.isBare c = true) :
    Grammar.isBlank c = false := by
  cases hc : Grammar.isBlank c with
  | false => rfl
  | true => rw [isBare_eq_false_of_isBlank hc] at h; cases h

theorem isWordChar_eq_false_of_isBlank {c : Char} (h : Grammar.isBlank c = true) :
    Text.isWordChar c = false := by
  obtain rfl | rfl | rfl | rfl := isBlank_iff.1 h <;> decide

theorem isWhiteSpace_of_isBlank {c : Char} (h : Grammar.isBlank c = true) :
    Text.isWhiteSpace c = true := by
  obtain rfl | rfl | rfl | rfl := isBlank_iff.1 h <;> decide

theorem isDigit_iff {c : Char} : c.isDigit = true ↔ 48 ≤ c.toNat ∧ c.toNat ≤ 57 := by
  simp only [Char.isDigit, Bool.and_eq_true, decide_eq_true_eq, ge_iff_le, UInt32.le_iff_toNat_le]
  exact Iff.rfl

theorem isLower_iff {c : Char} : c.isLower = true ↔ 97 ≤ c.toNat ∧ c.toNat ≤ 122 := by
  unfold Char.isLower
  simp only [Bool.and_eq_true, decide_eq_true_eq, ge_iff_le, UInt32.le_iff_toNat_le]
  exact Iff.rfl

theorem isWordChar_iff {c : Char} : Text.isWordChar c = true ↔
    48 ≤ c.toNat ∧ c.toNat ≤ 57 ∨ 65 ≤ c.toNat ∧ c.toNat ≤ 90 ∨ c.toNat = 95 ∨
      97 ≤ c.toNat ∧ c.toNat ≤ 122 := by
  have hunderscore : c = '_' ↔ c.toNat = 95 := Char.toNat_inj.symm
  unfold Text.isWordChar Char.isAlphanum Char.isAlpha Char.isUpper Char.isLower Char.isDigit
  simp only [Bool.or_eq_true, Bool.and_eq_true, decide_eq_true_eq, beq_iff_eq, hunderscore,
    ge_iff_le, UInt32.le_iff_toNat_le]
  show (((65 ≤ c.toNat ∧ c.toNat ≤ 90) ∨ 97 ≤ c.toNat ∧ c.toNat ≤ 122) ∨
    48 ≤ c.toNat ∧ c.toNat ≤ 57) ∨ c.toNat = 95 ↔ _
  omega

theorem toNat_toLower (c : Char) :
    c.toLower.toNat = if 65 ≤ c.toNat ∧ c.toNat ≤ 90 then c.toNat + 32 else c.toNat := by
  have hval : c.toNat = c.val.toNat := rfl
  unfold Char.toLower
  simp only [ge_iff_le, UInt32.le_iff_toNat_le]
  split
  next h =>
    have hlow : 65 ≤ c.toNat := h.1
    have hhigh : c.toNat ≤ 90 := h.2
    rw [if_pos ⟨hlow, hhigh⟩]
    show (c.val + ('a'.val - 'A'.val)).toNat = c.toNat + 32
    rw [UInt32.toNat_add]
    show (c.toNat + 32) % 2 ^ 32 = c.toNat + 32
    omega
  next h => exact (if_neg h).symm

/-- What may be part of a name is no white space. -/
theorem isWhiteSpace_eq_false_of_isWordChar {c : Char} (h : Text.isWordChar c = true) :
    Text.isWhiteSpace c = false := by
  have hrange : 48 ≤ c.toNat ∧ c.toNat ≤ 122 := by
    have := isWordChar_iff.1 h
    omega
  simp only [Text.isWhiteSpace]
  grind

theorem isBare_of_isWordChar {c : Char} (h : Text.isWordChar c = true) :
    Grammar.isBare c = true := by
  cases hc : Grammar.isBare c with
  | true => rfl
  | false =>
    rw [isBare_eq_false_iff, isBlank_iff] at hc
    obtain (rfl | rfl | rfl | rfl) | rfl | rfl | rfl := hc <;> exact absurd h (by decide)

theorem isQuote_eq_false_of_isWordChar {c : Char} (h : Text.isWordChar c = true) :
    Spelling.isQuote c = false := by
  cases hc : Spelling.isQuote c with
  | false => rfl
  | true =>
    rw [isQuote_iff] at hc
    obtain rfl | rfl := hc <;> exact absurd h (by decide)

/-- A letter may be part of a name in either case. -/
theorem isWordChar_of_toLower {c : Char} (h : c.toLower.isLower = true) :
    Text.isWordChar c = true := by
  rw [isLower_iff, toNat_toLower] at h
  rw [isWordChar_iff]
  split at h <;> omega

theorem isBare_of_toLower {c : Char} (h : c.toLower.isLower = true) : Grammar.isBare c = true :=
  isBare_of_isWordChar (isWordChar_of_toLower h)

namespace Spelling

/-- Can the literal end where `rest` begins?  A word only can if `rest` does not prolong it. -/
def Item.Fits : Item → List Char → Prop
  | quoted .., _ => True
  | bare .., rest => Stops Grammar.isBare rest

theorem Item.fits_of_stops {rest : List Char} (i : Item) (h : Stops Grammar.isBare rest) :
    i.Fits rest := by
  cases i with
  | quoted => exact trivial
  | bare => exact h

end Spelling

namespace Grammar

open Pattern Spelling

variable {start : Nat} {cs rest : List Char} {m : Match}

/-! ### Quoted literals -/

theorem run_between {quote : Char} {inside : List Char} (h : quote ∉ inside) (start : Nat)
    (rest : List Char) : run (between quote) start (quote :: (inside ++ quote :: rest)) =
      some ⟨quote :: (inside ++ [quote]), [], rest⟩ := by
  have hinside : ∀ c ∈ inside, (c != quote) = true :=
    fun c hc => bne_iff_ne.2 fun he => h (he ▸ hc)
  have hstop : Stops (· != quote) (quote :: rest) := Stops.cons_iff.2 (by simp)
  have hopen : run (one (· == quote)) start (quote :: (inside ++ quote :: rest)) =
      some ⟨[quote], [], inside ++ quote :: rest⟩ := if_pos (beq_self_eq_true quote)
  show run (seq (one _) (seq (star (one _)) (one _))) start _ = _
  rw [run_seq_of_some hopen, run_seq_of_some (run_star_one ..), hstop.takeWhile_append hinside,
    hstop.dropWhile_append hinside, run_one_cons, if_pos (beq_self_eq_true quote)]
  rfl

theorem exists_inside_of_run_between {quote : Char} (h : run (between quote) start cs = some m) :
    ∃ inside, quote ∉ inside ∧ m = ⟨quote :: (inside ++ [quote]), [], m.rest⟩ := by
  obtain ⟨a, _, hopen, h', rfl⟩ := run_seq_eq_some.1 h
  obtain ⟨b, c, hb, hclose, rfl⟩ := run_seq_eq_some.1 h'
  obtain ⟨q, hq, -, ha⟩ := run_one_eq_some.1 hopen
  obtain ⟨q', hq', -, hc⟩ := run_one_eq_some.1 hclose
  obtain rfl := Option.some.inj ((run_star_one ..).symm.trans hb)
  refine ⟨a.rest.takeWhile (· != quote), fun hmem => ?_, ?_⟩
  · exact bne_iff_ne.1 (List.mem_takeWhile_imp (p := (· != quote)) hmem) rfl
  · rw [ha, hc, eq_of_beq hq, eq_of_beq hq']
    rfl

/-- No quoted text begins with another character than its quote. -/
theorem run_between_of_ne {quote c : Char} (h : c ≠ quote) :
    run (between quote) start (c :: cs) = none :=
  run_seq_of_none (if_neg fun he => h (eq_of_beq he))

/-- No quoted text is left open. -/
theorem run_between_of_notMem {quote : Char} (h : quote ∉ cs) :
    run (between quote) start (quote :: cs) = none := by
  cases hm : run (between quote) start (quote :: cs) with
  | none => rfl
  | some m =>
    obtain ⟨inside, -, hm'⟩ := exists_inside_of_run_between hm
    have hcs := text_append_rest hm
    rw [hm', List.cons_append] at hcs
    exact absurd (by rw [← (List.cons.inj hcs).2]; simp) h

/-! ### Words -/

/-- **A keyword is matched where the whole word is one.**  The characters of a
keyword belong to words, so it can only end where the word does. -/
theorem run_wordBefore_eq_some {fold : Char → Char} {target word : List Char}
    (hfold : ∀ c, fold c ∈ target → isBare c = true) (hword : ∀ c ∈ word, isBare c = true)
    (hstop : Stops isBare rest) :
    run (seq (foldedWord fold target) wordEnd) start (word ++ rest) = some m ↔
      word.map fold = target ∧ m = ⟨word, [], rest⟩ := by
  rw [run_seq_eq_some]
  constructor
  · rintro ⟨a, b, ha, hb, rfl⟩
    obtain ⟨htarget, hcs, htrees⟩ := run_foldedWord_eq_some.1 ha
    obtain ⟨hend, rfl⟩ := run_notAhead_eq_some.1 hb
    have ha_bare : ∀ c ∈ a.text, isBare c = true :=
      fun c hc => hfold c (htarget ▸ List.mem_map_of_mem hc)
    have ha_stop : Stops isBare a.rest := by
      cases hr : a.rest with
      | nil => exact .nil
      | cons c rest' =>
        rw [hr, bareChar, run_one_cons, ite_eq_right_iff] at hend
        exact Stops.cons_iff.2 (Bool.eq_false_iff.2 fun hc => nomatch hend hc)
    obtain ⟨rfl, hrest⟩ := eq_of_append_eq_append hcs hword hstop ha_bare ha_stop
    refine ⟨htarget, ?_⟩
    simp only [Match.append, htrees, hrest, List.append_nil]
  · rintro ⟨htarget, rfl⟩
    refine ⟨⟨word, [], rest⟩, ⟨[], [], rest⟩, run_foldedWord_eq_some.2 ⟨htarget, rfl, rfl⟩,
      run_notAhead_eq_some.2 ⟨?_, rfl⟩, by simp [Match.append]⟩
    cases rest with
    | nil => rfl
    | cons c rest => exact if_neg (by simp [Stops.cons_iff.1 hstop])

/-- A keyword in any case is matched where the whole word is one. -/
theorem run_anyCaseBefore_eq_some {s : String} {word : List Char}
    (hs : s.toList.all Char.isLower = true) (hword : ∀ c ∈ word, isBare c = true)
    (hstop : Stops isBare rest) :
    run (seq (anyCase s) wordEnd) start (word ++ rest) = some m ↔
      Text.asciiLower word = s.toList ∧ m = ⟨word, [], rest⟩ :=
  run_wordBefore_eq_some (fun _ hc => isBare_of_toLower (List.all_eq_true.1 hs _ hc)) hword hstop

theorem run_nullWord_eq_some {word : List Char} (hword : ∀ c ∈ word, isBare c = true)
    (hstop : Stops isBare rest) : run nullWord start (word ++ rest) = some m ↔
      word = "null".toList ∧ m = ⟨word, [], rest⟩ := by
  have hfold : ∀ c, id c ∈ "null".toList → isBare c = true := by
    intro c hc
    have hnull : "null".toList.all isBare = true := by decide
    exact List.all_eq_true.1 hnull c hc
  have h := @run_wordBefore_eq_some start rest m id "null".toList word hfold hword hstop
  rw [List.map_id] at h
  exact h

/-- The truth values and `null`, matched where the whole word is one of them. -/
theorem run_booleanWord_eq_some {word : List Char} (hword : ∀ c ∈ word, isBare c = true)
    (hstop : Stops isBare rest) :
    run (firstOf [trueWord, falseWord, nullWordAnyCase]) start (word ++ rest) = some m ↔
      Text.asciiLower word ∈ ["true".toList, "false".toList, "null".toList] ∧
        m = ⟨word, [], rest⟩ := by
  have htrue : ∀ m, run trueWord start (word ++ rest) = some m ↔
      Text.asciiLower word = "true".toList ∧ m = ⟨word, [], rest⟩ :=
    fun _ => run_anyCaseBefore_eq_some (by decide) hword hstop
  have hfalse : ∀ m, run falseWord start (word ++ rest) = some m ↔
      Text.asciiLower word = "false".toList ∧ m = ⟨word, [], rest⟩ :=
    fun _ => run_anyCaseBefore_eq_some (by decide) hword hstop
  have hnull : ∀ m, run nullWordAnyCase start (word ++ rest) = some m ↔
      Text.asciiLower word = "null".toList ∧ m = ⟨word, [], rest⟩ :=
    fun _ => run_anyCaseBefore_eq_some (by decide) hword hstop
  exact (run_alt_iff htrue (run_alt_iff hfalse hnull) m).trans
    (by simp only [List.mem_cons, List.not_mem_nil, or_false])

theorem run_quotedString_of_unquoted (h : Stops isQuote cs) :
    run quotedString start cs = none := by
  have hnone : run (alt (between '"') (between '\'')) start cs = none := by
    cases cs with
    | nil => rfl
    | cons c cs =>
      have hc := Stops.cons_iff.1 h
      simp only [isQuote, Bool.or_eq_false_iff, beq_eq_false_iff_ne] at hc
      rw [run_alt_of_none (run_between_of_ne hc.1), run_between_of_ne hc.2]
  rw [quotedString, run, hnone, Option.map_none]

/-! Which words belong to the three classes of literals. -/

theorem run_itemString_of_unquoted {word : List Char} (hword : ∀ c ∈ word, isBare c = true)
    (hstop : Stops isBare rest) (hunquoted : Stops isQuote (word ++ rest)) :
    run itemString start (word ++ rest) =
      if word = "null".toList then some ⟨word, [.mk .itemString start word []], rest⟩
      else none := by
  have hstring : run (alt quotedString nullWord) start (word ++ rest) =
      run nullWord start (word ++ rest) := run_alt_of_none (run_quotedString_of_unquoted hunquoted)
  split
  next hnull =>
    exact run_leaf_eq_some.2 ⟨⟨word, [], rest⟩,
      hstring.trans ((run_nullWord_eq_some hword hstop).2 ⟨hnull, rfl⟩), rfl⟩
  next hnull =>
    rw [itemString, run, hstring, Option.map_eq_none_iff, Option.eq_none_iff_forall_ne_some]
    exact fun m hm => hnull ((run_nullWord_eq_some hword hstop).1 hm).1

theorem run_itemBoolean_of_bare {word : List Char} (hword : ∀ c ∈ word, isBare c = true)
    (hstop : Stops isBare rest) :
    run itemBoolean start (word ++ rest) =
      if Text.asciiLower word ∈ ["true".toList, "false".toList, "null".toList] then
        some ⟨word, [.mk .itemBoolean start word []], rest⟩
      else none := by
  split
  next hboolean =>
    exact run_leaf_eq_some.2 ⟨⟨word, [], rest⟩,
      (run_booleanWord_eq_some hword hstop).2 ⟨hboolean, rfl⟩, rfl⟩
  next hboolean =>
    rw [itemBoolean, run, Option.map_eq_none_iff, Option.eq_none_iff_forall_ne_some]
    exact fun m hm => hboolean ((run_booleanWord_eq_some hword hstop).1 hm).1

theorem run_itemNumber_of_unquoted {word : List Char} (hword : ∀ c ∈ word, isBare c = true)
    (hstop : Stops isBare rest) (hunquoted : Stops isQuote (word ++ rest)) :
    run itemNumber start (word ++ rest) =
      if word = [] then none else some ⟨word, [.mk .itemNumber start word []], rest⟩ := by
  have hahead : run (one isQuote) start (word ++ rest) = none := by
    cases hcs : word ++ rest with
    | nil => rfl
    | cons c cs => exact if_neg (by simp [Stops.cons_iff.1 (hcs ▸ hunquoted)])
  rw [itemNumber, run]
  show (run (seq (notAhead (one isQuote)) (plus bareChar)) start (word ++ rest)).map _ = _
  rw [run_seq_of_some (run_notAhead_eq_some.2 ⟨hahead, rfl⟩), bareChar, run_plus_one,
    hstop.takeWhile_append hword, hstop.dropWhile_append hword]
  split <;> rfl

/-- **A word is a literal of the class that its letters give it.** -/
theorem run_item_of_unquoted {word : List Char} (hword : ∀ c ∈ word, isBare c = true)
    (hstop : Stops isBare rest) (hunquoted : Stops isQuote (word ++ rest)) :
    run item start (word ++ rest) =
      if word = [] then none
      else some ⟨word, [.mk (Item.kindOfWord word).rule start word []], rest⟩ := by
  have hstring : run itemString start (word ++ rest) = _ :=
    run_itemString_of_unquoted hword hstop hunquoted
  have hboolean : run itemBoolean start (word ++ rest) = _ := run_itemBoolean_of_bare hword hstop
  show run (alt itemString (alt itemBoolean itemNumber)) start (word ++ rest) = _
  rw [Item.kindOfWord]
  by_cases hnull : word = "null".toList
  · rw [if_pos hnull] at hstring
    rw [run_alt_of_some hstring, if_pos hnull, if_neg (by rw [hnull]; decide)]
    rfl
  rw [if_neg hnull] at hstring
  rw [run_alt_of_none hstring, if_neg hnull]
  by_cases hmem : Text.asciiLower word ∈ ["true".toList, "false".toList, "null".toList]
  · have hne : word ≠ [] := by
      rintro rfl
      exact absurd hmem (by decide)
    rw [if_pos hmem] at hboolean
    rw [run_alt_of_some hboolean, if_pos hmem, if_neg hne]
    rfl
  rw [if_neg hmem] at hboolean
  rw [run_alt_of_none hboolean, if_neg hmem]
  exact run_itemNumber_of_unquoted hword hstop hunquoted

/-- A literal between quotes is matched whatever follows it. -/
theorem run_itemString_of_quoted {quote : Char} {inside : List Char} (hq : isQuote quote = true)
    (h : quote ∉ inside) (start : Nat) (rest : List Char) :
    run itemString start (quote :: (inside ++ quote :: rest)) =
      some ⟨quote :: (inside ++ [quote]),
        [.mk .itemString start (quote :: (inside ++ [quote])) []], rest⟩ := by
  have hquoted : run (alt (between '"') (between '\'')) start (quote :: (inside ++ quote :: rest)) =
      some ⟨quote :: (inside ++ [quote]), [], rest⟩ := by
    rw [isQuote_iff] at hq
    obtain rfl | rfl := hq
    · exact run_alt_of_some (run_between h start rest)
    · rw [run_alt_of_none (run_between_of_ne (by decide)), run_between h]
  have hstring : run quotedString start (quote :: (inside ++ quote :: rest)) =
      some ⟨quote :: (inside ++ [quote]),
        [.mk .quotedString start (quote :: (inside ++ [quote])) []], rest⟩ :=
    run_leaf_eq_some.2 ⟨_, hquoted, rfl⟩
  exact run_leaf_eq_some.2 ⟨_, run_alt_of_some hstring, rfl⟩

theorem run_item_of_quoted {quote : Char} {inside : List Char} (hq : isQuote quote = true)
    (h : quote ∉ inside) (start : Nat) (rest : List Char) :
    run item start (quote :: (inside ++ quote :: rest)) =
      some ⟨quote :: (inside ++ [quote]),
        [.mk .itemString start (quote :: (inside ++ [quote])) []], rest⟩ :=
  run_alt_of_some (run_itemString_of_quoted hq h start rest)

/-- A truth value is no text between quotes. -/
theorem run_itemBoolean_of_isQuote {quote : Char} (hq : isQuote quote = true) :
    run itemBoolean start (quote :: cs) = none := by
  rw [isQuote_iff] at hq
  have hword : ∀ word : List Char, word ≠ [] → word.head? ≠ some quote.toLower →
      run (seq (foldedWord Char.toLower word) wordEnd) start (quote :: cs) = none :=
    fun word hne hhead => run_seq_of_none (run_foldedWord_of_head_ne hne hhead)
  have hnone : run (alt trueWord (alt falseWord nullWordAnyCase)) start (quote :: cs) = none := by
    have htrue : run trueWord start (quote :: cs) = none :=
      hword _ (by decide) (by obtain rfl | rfl := hq <;> decide)
    have hfalse : run falseWord start (quote :: cs) = none :=
      hword _ (by decide) (by obtain rfl | rfl := hq <;> decide)
    have hnull : run nullWordAnyCase start (quote :: cs) = none :=
      hword _ (by decide) (by obtain rfl | rfl := hq <;> decide)
    rw [run_alt_of_none htrue, run_alt_of_none hfalse, hnull]
  rw [itemBoolean, run]
  show (run (alt trueWord (alt falseWord nullWordAnyCase)) start (quote :: cs)).map _ = none
  rw [hnone, Option.map_none]

/-- A quote that is never closed begins no literal. -/
theorem run_item_of_notMem {quote : Char} (hq : isQuote quote = true) (h : quote ∉ cs) :
    run item start (quote :: cs) = none := by
  have hboolean : run itemBoolean start (quote :: cs) = none := run_itemBoolean_of_isQuote hq
  rw [isQuote_iff] at hq
  have hquoted : run quotedString start (quote :: cs) = none := by
    have hnone : run (alt (between '"') (between '\'')) start (quote :: cs) = none := by
      obtain rfl | rfl := hq
      · rw [run_alt_of_none (run_between_of_notMem h), run_between_of_ne (by decide)]
      · rw [run_alt_of_none (run_between_of_ne (by decide)), run_between_of_notMem h]
    rw [quotedString, run, hnone, Option.map_none]
  have hstring : run itemString start (quote :: cs) = none := by
    have hnull : run nullWord start (quote :: cs) = none :=
      run_seq_of_none (run_foldedWord_of_head_ne (by decide) (by obtain rfl | rfl := hq <;> decide))
    rw [itemString, run, run_alt_of_none hquoted, hnull, Option.map_none]
  have hnumber : run itemNumber start (quote :: cs) = none := by
    have hahead : run (notAhead (one isQuote)) start (quote :: cs) = none := by
      obtain rfl | rfl := hq <;> rfl
    rw [itemNumber, run]
    show (run (seq (notAhead (one isQuote)) (plus bareChar)) start (quote :: cs)).map _ = none
    rw [run_seq_of_none hahead, Option.map_none]
  show run (alt itemString (alt itemBoolean itemNumber)) start (quote :: cs) = none
  rw [run_alt_of_none hstring, run_alt_of_none hboolean, hnumber]

/-! ### Literals -/

/-- **Every literal is matched as a whole.** -/
theorem run_item (i : Item) (start : Nat) (h : i.Fits rest) :
    run item start (i.chars ++ rest) = some ⟨i.chars, [i.tree start], rest⟩ := by
  cases i with
  | quoted quote inside isQuote apart =>
    have hrun := run_item_of_quoted isQuote apart start rest
    rwa [show quote :: (inside ++ quote :: rest) = quote :: (inside ++ [quote]) ++ rest by simp]
      at hrun
  | bare word nonempty isBare unquoted =>
    rw [Item.chars, run_item_of_unquoted isBare h (Stops.append_of_ne_nil nonempty unquoted),
      if_neg nonempty]
    rfl

/-- **Only literals are matched.** -/
theorem exists_item_of_run (h : run item start cs = some m) :
    ∃ i : Item, i.Fits m.rest ∧ m = ⟨i.chars, [i.tree start], m.rest⟩ := by
  -- a text that begins with a quote is cut at the next one, all other text behind its first word
  by_cases hq : ∃ quote cs', cs = quote :: cs' ∧ isQuote quote = true
  · obtain ⟨quote, cs', rfl, hq⟩ := hq
    by_cases hmem : quote ∈ cs'
    · obtain ⟨inside, rest, rfl, hinside⟩ := List.eq_append_cons_of_mem hmem
      rw [run_item_of_quoted hq hinside] at h
      obtain rfl := Option.some.inj h
      exact ⟨.quoted quote inside hq hinside, trivial, rfl⟩
    · rw [run_item_of_notMem hq hmem] at h
      cases h
  · have hword : ∀ c ∈ cs.takeWhile isBare, isBare c = true :=
      fun c hc => List.mem_takeWhile_imp hc
    have hunquoted : Stops isQuote cs := by
      cases cs with
      | nil => exact .nil
      | cons c cs => exact Stops.cons_iff.2 (Bool.eq_false_iff.2 fun hc => hq ⟨c, cs, rfl, hc⟩)
    have hcs : cs.takeWhile isBare ++ cs.dropWhile isBare = cs := List.takeWhile_append_dropWhile
    rw [← hcs] at hunquoted h
    rw [run_item_of_unquoted hword (.dropWhile isBare cs) hunquoted,
      Option.ite_none_left_eq_some] at h
    obtain ⟨hne, h⟩ := h
    obtain rfl := Option.some.inj h
    exact ⟨.bare _ hne hword hunquoted.of_append, .dropWhile isBare cs, rfl⟩

end Grammar

end ColumnFilter
