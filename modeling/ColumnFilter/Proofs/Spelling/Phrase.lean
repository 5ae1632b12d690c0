import ColumnFilter.Proofs.Spelling.Token

/-!
# Phrases

What the grammar matches as a list, a condition or a filter.  The parts of a
phrase follow each other, and each ends where it should because the next one
begins with a character that cannot belong to it; a repetition goes on for as
long as there is a comma or a connector, and gives nothing back.

`run_filter` says that no spelling is lost by these commitments, and
`exists_filter_of_run` that there is nothing else to match.
-/

namespace ColumnFilter

namespace Spelling

variable {α β γ : Type} {chars : α → List Char} {put : Nat → α → β}

/-- What is read off every piece of a row is read off the whole row. -/
theorem mapM_layOut {ε : Type} {put' : Nat → α → γ} {f : β → Except ε γ}
    (h : ∀ start a, f (put start a) = .ok (put' start a)) :
    ∀ (as : List α) (start : Nat),
      (layOut chars put start as).mapM f = .ok (layOut chars put' start as) := by
  intro as
  induction as with
  | nil => intro start; rfl
  | cons a as ih =>
    intro start
    rw [layOut, List.mapM_cons, h, ih]
    rfl

theorem map_layOut {f : β → γ} : ∀ (as : List α) (start : Nat),
    (layOut chars put start as).map f = layOut chars (fun start a => f (put start a)) start as := by
  intro as
  induction as with
  | nil => intro start; rfl
  | cons a as ih =>
    intro start
    rw [layOut, layOut, List.map_cons, ih]

/-- What does not depend on the places is the same for the pieces themselves. -/
theorem map_layOut_eq_map {f : β → γ} {g : α → γ} (h : ∀ start a, f (put start a) = g a) :
    ∀ (as : List α) (start : Nat), (layOut chars put start as).map f = as.map g := by
  intro as
  induction as with
  | nil => intro start; rfl
  | cons a as ih =>
    intro start
    rw [layOut, List.map_cons, List.map_cons, h, ih]

theorem exists_of_mem_layOut {b : β} : ∀ {as : List α} {start : Nat},
    b ∈ layOut chars put start as → ∃ a ∈ as, ∃ start, b = put start a := by
  intro as
  induction as with
  | nil => intro start h; cases h
  | cons a as ih =>
    intro start h
    rcases List.mem_cons.1 h with rfl | h
    · exact ⟨a, List.mem_cons_self .., start, rfl⟩
    · obtain ⟨a', ha', h⟩ := ih h
      exact ⟨a', List.mem_cons_of_mem a ha', h⟩

theorem flatten_layOut_singleton (as : List α) : ∀ start : Nat,
    (layOut chars (fun start a => [put start a]) start as).flatten = layOut chars put start as := by
  induction as with
  | nil => intro start; rfl
  | cons a as ih =>
    intro start
    rw [layOut, layOut, List.flatten_cons, ih]
    rfl

end Spelling

namespace Pattern

open Spelling

variable {α : Type} {p : Pattern} {chars : α → List Char} {trees : Nat → α → List Tree}

/-- **A repetition matches every row of pieces**, if a piece is matched before each
text that may follow one. -/
theorem run_star_layOut (follows : List Char → Prop) (hp : Consuming p)
    (hfollows : ∀ a rest, follows (chars a ++ rest))
    (hpiece : ∀ start a rest, follows rest →
      run p start (chars a ++ rest) = some ⟨chars a, trees start a, rest⟩)
    {rest : List Char} (hrest : follows rest) (hstop : ∀ start, run p start rest = none) :
    ∀ (as : List α) (start : Nat), run (star p) start (as.flatMap chars ++ rest) =
      some ⟨as.flatMap chars, (layOut chars trees start as).flatten, rest⟩ := by
  intro as
  induction as with
  | nil => intro start; exact run_star_of_none (hstop start)
  | cons a as ih =>
    intro start
    have hnext := follows_flatMap hfollows hrest as
    rw [List.flatMap_cons, List.append_assoc, run_star_of_some hp (hpiece start a _ hnext), ih]
    rfl

/-- **A repetition matches nothing but rows of pieces.** -/
theorem exists_layOut_of_run_star (hp : Consuming p)
    (hpiece : ∀ {start cs m}, run p start cs = some m →
      ∃ a, m = ⟨chars a, trees start a, m.rest⟩) {start : Nat} {cs : List Char} {m : Match}
    (h : run (star p) start cs = some m) :
    ∃ as : List α, m = ⟨as.flatMap chars, (layOut chars trees start as).flatten, m.rest⟩ := by
  refine run_star_induction (motive := fun start _ m => ∃ as : List α,
    m = ⟨as.flatMap chars, (layOut chars trees start as).flatten, m.rest⟩) hp ?_ ?_ h
  · intro start cs _
    exact ⟨[], rfl⟩
  · intro start cs a b ha _ ih
    obtain ⟨x, hx⟩ := hpiece ha
    obtain ⟨xs, hxs⟩ := ih
    refine ⟨x :: xs, ?_⟩
    rw [hx] at hxs ⊢
    rw [hxs]
    rfl

end Pattern

namespace Spelling

/-! ### How the parts begin -/

variable {rest : List Char}

/-- What no blank belongs to ends at a gap, or at what follows an empty one. -/
theorem Gap.stops {accepts : Char → Bool}
    (hblank : ∀ c, Grammar.isBlank c = true → accepts c = false) (g : Gap)
    (h : g.chars = [] → Stops accepts rest) : Stops accepts (g.chars ++ rest) := by
  obtain ⟨chars, blank⟩ := g
  cases chars with
  | nil => exact h rfl
  | cons c chars => exact Stops.cons_iff.2 (hblank c (blank c (List.mem_cons_self ..)))

theorem Item.stops_isBlank (i : Item) (rest : List Char) :
    Stops Grammar.isBlank (i.chars ++ rest) := by
  cases i with
  | quoted quote inside isQuote apart =>
    refine Stops.cons_iff.2 (isBlank_eq_false_of_isBare ?_)
    rw [isQuote_iff] at isQuote
    obtain rfl | rfl := isQuote <;> decide
  | bare word nonempty isBare unquoted =>
    refine .append_of_ne_nil nonempty fun c hc => ?_
    exact isBlank_eq_false_of_isBare (isBare c (List.mem_of_head? hc))

theorem Item.chars_ne_nil (i : Item) : i.chars ≠ [] := by
  cases i with
  | quoted => exact List.cons_ne_nil _ _
  | bare word nonempty isBare unquoted => exact nonempty

theorem NextItem.stops_isBare (n : NextItem) (rest : List Char) :
    Stops Grammar.isBare (n.chars ++ rest) := by
  rw [NextItem.chars, List.append_assoc]
  exact n.before.stops (fun _ => isBare_eq_false_of_isBlank) fun _ => Stops.cons_iff.2 (by decide)

theorem Keyword.stops_isBlank (k : Keyword) (rest : List Char) :
    Stops Grammar.isBlank (k.chars ++ rest) := by
  cases k with
  | oneOf word isIn => exact Grammar.stops_isBlank_of_asciiLower (by decide) (by decide) isIn rest
  | noneOf negation gap word isNot apart isIn =>
    rw [Keyword.chars, List.append_assoc]
    exact Grammar.stops_isBlank_of_asciiLower (by decide) (by decide) isNot _

theorem Keyword.not_stops_isWordChar (k : Keyword) (rest : List Char) :
    ¬Stops Text.isWordChar (k.chars ++ rest) := by
  have hword : ∀ {s : String} {word : List Char} (rest : List Char), s.toList ≠ [] →
      s.toList.all Char.isLower = true → Text.asciiLower word = s.toList →
      ¬Stops Text.isWordChar (word ++ rest) := by
    intro s word rest hne hs h hstop
    cases word with
    | nil => exact hne h.symm
    | cons c word =>
      have hc := Grammar.isLower_toLower_of_mem hs h c (List.mem_cons_self ..)
      have hfalse := Stops.cons_iff.1 hstop
      rw [isWordChar_of_toLower hc] at hfalse
      cases hfalse
  cases k with
  | oneOf word isIn => exact hword rest (by decide) (by decide) isIn
  | noneOf negation gap word isNot apart isIn =>
    rw [Keyword.chars, List.append_assoc]
    exact hword _ (by decide) (by decide) isNot

theorem stops_symbol {op : Operator} (h : op.takesList = false) (rest : List Char) :
    Stops Grammar.isBlank (op.symbol.toList ++ rest) ∧
      Stops Text.isWordChar (op.symbol.toList ++ rest) := by
  obtain ⟨c, cs, hsymbol, hblank, hword⟩ := Grammar.exists_symbol_eq_cons h
  rw [hsymbol]
  exact ⟨Stops.cons_iff.2 hblank, Stops.cons_iff.2 hword⟩

theorem Comparison.stops_isBlank (c : Comparison) (rest : List Char) :
    Stops Grammar.isBlank (c.chars ++ rest) := by
  rw [Comparison.chars, List.append_assoc]
  cases c with
  | single op gap item takesOne whole => exact (stops_symbol takesOne _).1
  | list keyword gap list => exact keyword.stops_isBlank _

theorem Comparison.not_stops_isWordChar (c : Comparison) (rest : List Char)
    (h : c.isList = true) : ¬Stops Text.isWordChar (c.chars ++ rest) := by
  rw [Comparison.chars, List.append_assoc]
  cases c with
  | single op gap item takesOne whole => cases h
  | list keyword gap list => exact keyword.not_stops_isWordChar _

theorem Comparison.stops_isWordChar (c : Comparison) (rest : List Char) (h : c.isList = false) :
    Stops Text.isWordChar (c.chars ++ rest) := by
  rw [Comparison.chars, List.append_assoc]
  cases c with
  | single op gap item takesOne whole => exact (stops_symbol takesOne _).2
  | list keyword gap list => cases h

/-- Can the comparison end where `rest` begins? -/
def Comparison.Fits : Comparison → List Char → Prop
  | single _ _ item _ _, rest => item.Fits rest
  | list .., _ => True

theorem Comparison.fits_of_stops (c : Comparison) (h : Stops Grammar.isBare rest) :
    c.Fits rest := by
  cases c with
  | single op gap item takesOne whole => exact item.fits_of_stops h
  | list => exact trivial

theorem Condition.stops_isBlank (c : Condition) (rest : List Char) :
    Stops Grammar.isBlank (c.chars ++ rest) := by
  rw [Condition.chars, List.append_assoc]
  refine .append_of_ne_nil c.column_ne_nil fun d hd => ?_
  have hword := c.column_isWord d (List.mem_of_head? hd)
  cases hb : Grammar.isBlank d with
  | false => rfl
  | true => rw [isWordChar_eq_false_of_isBlank hb] at hword; cases hword

theorem Condition.stops_isWordChar (c : Condition) (rest : List Char) :
    Stops Text.isWordChar (c.gap.chars ++ (c.comparison.chars ++ rest)) :=
  c.gap.stops (fun _ => isWordChar_eq_false_of_isBlank) fun hnil =>
    c.comparison.stops_isWordChar rest (Bool.eq_false_iff.2 fun hlist => c.apart hlist hnil)

theorem NextCondition.stops_isBare (n : NextCondition) (rest : List Char) :
    Stops Grammar.isBare (n.chars ++ rest) := by
  rw [NextCondition.chars, List.append_assoc]
  exact n.before.stops (fun _ => isBare_eq_false_of_isBlank) fun h => absurd h n.before_ne_nil

theorem NextCondition.stops_isBlank_keyword (n : NextCondition) (rest : List Char) :
    Stops Grammar.isBlank (n.keyword ++ rest) :=
  Grammar.stops_isBlank_of_connector n.isKeyword rest

theorem NextCondition.stops_isBare_after (n : NextCondition) (rest : List Char) :
    Stops Grammar.isBare (n.after.chars ++ rest) :=
  n.after.stops (fun _ => isBare_eq_false_of_isBlank) fun hnil => absurd hnil n.after_ne_nil

/-- A condition ends where further ones or the end of the filter follow. -/
theorem stops_isBare_others (closing : Gap) (others : List NextCondition) :
    Stops Grammar.isBare (others.flatMap NextCondition.chars ++ closing.chars) := by
  have hclosing : Stops Grammar.isBare closing.chars := by
    rw [← List.append_nil closing.chars]
    exact closing.stops (fun _ => isBare_eq_false_of_isBlank) fun _ => .nil
  exact Pattern.follows_flatMap NextCondition.stops_isBare hclosing others

end Spelling

namespace Grammar

open Pattern Spelling

variable {start : Nat} {cs rest : List Char} {m : Match}

/-! ### Lists -/

theorem run_nextItem (n : NextItem) (start : Nat) (h : n.item.Fits rest) :
    run nextItem start (n.chars ++ rest) =
      some ⟨n.chars, [n.item.tree (n.itemStart start)], rest⟩ := by
  have hcomma : ∀ start cs, run (exactly ",") start ([','] ++ cs) = some ⟨[','], [], cs⟩ :=
    run_exactly_append ","
  have hbefore : Stops isBlank ([','] ++ (n.after.chars ++ (n.item.chars ++ rest))) :=
    Stops.cons_iff.2 (by decide)
  show run (seq blanks (seq (exactly ",") (seq blanks item))) start _ = _
  simp only [NextItem.chars, List.append_assoc]
  rw [run_seq_of_some (run_blanks n.before start hbefore), run_seq_of_some (hcomma ..),
    run_seq_of_some (run_blanks n.after _ (n.item.stops_isBlank rest)), run_item n.item _ h]
  rfl

theorem exists_nextItem_of_run (h : run nextItem start cs = some m) :
    ∃ n : NextItem, m = ⟨n.chars, [n.item.tree (n.itemStart start)], m.rest⟩ := by
  change run (seq blanks (seq (exactly ",") (seq blanks item))) start cs = some m at h
  obtain ⟨a, _, ha, h₁, rfl⟩ := run_seq_eq_some.1 h
  obtain ⟨b, _, hb, h₂, rfl⟩ := run_seq_eq_some.1 h₁
  obtain ⟨c, d, hc, hd, rfl⟩ := run_seq_eq_some.1 h₂
  obtain ⟨before, hbefore, -⟩ := exists_gap_of_run_blanks ha
  obtain ⟨after, hafter, -⟩ := exists_gap_of_run_blanks hc
  obtain ⟨i, -, hitem⟩ := exists_item_of_run hd
  refine ⟨⟨before, after, i⟩, ?_⟩
  rw [hitem, hafter, (run_exactly_eq_some.1 hb).1, hbefore]
  rfl

theorem consuming_nextItem : Consuming nextItem :=
  consuming_of_consumes rfl

/-- Where only blanks stand before a character that is no comma, the list does not go on. -/
theorem run_nextItem_of_ne {c : Char} (g : Gap) (hblank : isBlank c = false) (hc : c ≠ ',')
    (start : Nat) : run nextItem start (g.chars ++ c :: rest) = none := by
  show run (seq blanks (seq (exactly ",") (seq blanks item))) start _ = _
  rw [run_seq_of_some (run_blanks g start (Stops.cons_iff.2 hblank))]
  have hcomma : run (exactly ",") (start + Text.byteLength g.chars) (c :: rest) = none :=
    if_neg fun he => hc (eq_of_beq he)
  rw [run_seq_of_none hcomma, Option.map_none]

theorem run_itemList (l : ItemList) (start : Nat) (rest : List Char) :
    run itemList start (l.chars ++ rest) = some ⟨l.chars, [l.tree start], rest⟩ := by
  have hopen : ∀ start cs, run (exactly "(") start (['('] ++ cs) = some ⟨['('], [], cs⟩ :=
    run_exactly_append "("
  have hclose : ∀ start cs, run (exactly ")") start ([')'] ++ cs) = some ⟨[')'], [], cs⟩ :=
    run_exactly_append ")"
  have hend : Stops isBare (l.closing.chars ++ ([')'] ++ rest)) :=
    l.closing.stops (fun _ => isBare_eq_false_of_isBlank) fun _ => Stops.cons_iff.2 (by decide)
  have hothers := run_star_layOut (Stops isBare) consuming_nextItem
    (fun n rest => n.stops_isBare rest)
    (fun start n rest h => run_nextItem n start (n.item.fits_of_stops h)) hend
    (fun start => run_nextItem_of_ne l.closing (by decide) (by decide) start) l.others
  have hfirst := follows_flatMap NextItem.stops_isBare hend l.others
  have hclosing : Stops isBlank ([')'] ++ rest) := Stops.cons_iff.2 (by decide)
  refine run_node_eq_some.2 ⟨⟨l.chars, l.putItems Item.tree start, rest⟩, ?_, rfl⟩
  show run (seq (exactly "(") (seq blanks (seq item (seq (star nextItem)
    (seq blanks (exactly ")")))))) start _ = _
  simp only [ItemList.chars, List.append_assoc]
  rw [run_seq_of_some (hopen ..),
    run_seq_of_some (run_blanks l.opening _ (l.first.stops_isBlank _)),
    run_seq_of_some (run_item l.first _ (l.first.fits_of_stops hfirst)),
    run_seq_of_some (hothers _), run_seq_of_some (run_blanks l.closing _ hclosing), hclose,
    flatten_layOut_singleton]
  simp [Match.append, ItemList.putItems]

theorem exists_itemList_of_run (h : run itemList start cs = some m) :
    ∃ l : ItemList, m = ⟨l.chars, [l.tree start], m.rest⟩ := by
  obtain ⟨whole, hwhole, rfl⟩ := run_node_eq_some.1 h
  change run (seq (exactly "(") (seq blanks (seq item (seq (star nextItem)
    (seq blanks (exactly ")")))))) start cs = some whole at hwhole
  obtain ⟨a, _, ha, h₁, rfl⟩ := run_seq_eq_some.1 hwhole
  obtain ⟨b, _, hb, h₂, rfl⟩ := run_seq_eq_some.1 h₁
  obtain ⟨c, _, hc, h₃, rfl⟩ := run_seq_eq_some.1 h₂
  obtain ⟨d, _, hd, h₄, rfl⟩ := run_seq_eq_some.1 h₃
  obtain ⟨e, f, he, hf, rfl⟩ := run_seq_eq_some.1 h₄
  obtain ⟨opening, hopening, -⟩ := exists_gap_of_run_blanks hb
  obtain ⟨first, -, hfirst⟩ := exists_item_of_run hc
  obtain ⟨others, hothers⟩ := exists_layOut_of_run_star consuming_nextItem
    (fun h => exists_nextItem_of_run h) hd
  obtain ⟨closing, hclosing, -⟩ := exists_gap_of_run_blanks he
  refine ⟨⟨opening, first, others, closing⟩, ?_⟩
  rw [(run_exactly_eq_some.1 hf).1, hclosing, hothers, flatten_layOut_singleton, hfirst, hopening,
    (run_exactly_eq_some.1 ha).1]
  simp [Match.append, ItemList.chars, ItemList.tree, ItemList.putItems]

/-! ### Conditions -/

theorem run_comparison (c : Comparison) (start : Nat) (h : c.Fits rest) :
    run (alt singleValue multiValue) start (c.chars ++ rest) =
      some ⟨c.chars, [c.comparatorTree start,
        c.valueTree (start + Text.byteLength c.comparator + Text.byteLength c.gap.chars)],
        rest⟩ := by
  cases c with
  | single op gap item takesOne whole =>
    have hne : gap.chars ++ item.chars ≠ [] :=
      List.append_ne_nil_of_right_ne_nil _ item.chars_ne_nil
    have hsymbol : op.isLengthened (gap.chars ++ (item.chars ++ rest)) = false := by
      rw [← List.append_assoc, Operator.isLengthened_append hne, whole]
    refine run_alt_of_some ?_
    show run (seq comparatorSingle (seq blanks Grammar.item)) start _ = _
    simp only [Comparison.chars, Comparison.comparator, Comparison.gap, Comparison.valueChars,
      List.append_assoc]
    rw [run_seq_of_some (run_comparatorSingle takesOne hsymbol start),
      run_seq_of_some (run_blanks gap _ (item.stops_isBlank rest)), run_item item _ h]
    rfl
  | list keyword gap list =>
    have hlist : Stops isBlank (list.chars ++ rest) := Stops.cons_iff.2 (by decide)
    show run (alt (seq comparatorSingle (seq blanks item))
      (seq comparatorMultiple (seq blanks itemList))) start _ = _
    simp only [Comparison.chars, Comparison.comparator, Comparison.gap, Comparison.valueChars,
      List.append_assoc]
    rw [run_alt_of_none (run_seq_of_none (run_comparatorSingle_of_keyword keyword ..)),
      run_seq_of_some (run_comparatorMultiple keyword ..),
      run_seq_of_some (run_blanks gap _ hlist), run_itemList]
    rfl

theorem exists_comparison_of_run (h : run (alt singleValue multiValue) start cs = some m) :
    ∃ c : Comparison, c.Fits m.rest ∧ m = ⟨c.chars, [c.comparatorTree start,
      c.valueTree (start + Text.byteLength c.comparator + Text.byteLength c.gap.chars)],
      m.rest⟩ := by
  change run (alt (seq comparatorSingle (seq blanks item))
    (seq comparatorMultiple (seq blanks itemList))) start cs = some m at h
  rcases run_alt_eq_some.1 h with h₁ | ⟨-, h₁⟩
  · obtain ⟨a, _, ha, h₂, rfl⟩ := run_seq_eq_some.1 h₁
    obtain ⟨b, c, hb, hc, rfl⟩ := run_seq_eq_some.1 h₂
    obtain ⟨op, hop, hsymbol, ha'⟩ := exists_operator_of_run ha
    obtain ⟨gap, hgap, -⟩ := exists_gap_of_run_blanks hb
    obtain ⟨i, hfits, hi⟩ := exists_item_of_run hc
    have hne : gap.chars ++ i.chars ≠ [] := List.append_ne_nil_of_right_ne_nil _ i.chars_ne_nil
    have hrest : a.rest = gap.chars ++ i.chars ++ c.rest := by
      rw [← text_append_rest hb, ← text_append_rest hc, hgap, hi, List.append_assoc]
    rw [hrest, Operator.isLengthened_append hne] at hsymbol
    refine ⟨.single op gap i hop hsymbol, hfits, ?_⟩
    rw [hi, hgap, ha']
    rfl
  · obtain ⟨a, _, ha, h₂, rfl⟩ := run_seq_eq_some.1 h₁
    obtain ⟨b, c, hb, hc, rfl⟩ := run_seq_eq_some.1 h₂
    obtain ⟨keyword, ha'⟩ := exists_keyword_of_run ha
    obtain ⟨gap, hgap, -⟩ := exists_gap_of_run_blanks hb
    obtain ⟨l, hl⟩ := exists_itemList_of_run hc
    refine ⟨.list keyword gap l, trivial, ?_⟩
    rw [hl, hgap, ha']
    rfl

theorem run_condition (c : Spelling.Condition) (start : Nat) (h : c.comparison.Fits rest) :
    run condition start (c.chars ++ rest) = some ⟨c.chars, [c.tree start], rest⟩ := by
  refine run_node_eq_some.2 ⟨⟨c.chars, (c.tree start).children, rest⟩, ?_, rfl⟩
  show run (seq column (seq blanks (alt singleValue multiValue))) start _ = _
  simp only [Spelling.Condition.chars, List.append_assoc]
  rw [run_seq_of_some (run_column start c.column_ne_nil c.column_isWord (c.stops_isWordChar rest)),
    run_seq_of_some (run_blanks c.gap _ (c.comparison.stops_isBlank rest)),
    run_comparison c.comparison _ h]
  rfl

theorem exists_condition_of_run (h : run condition start cs = some m) :
    ∃ c : Spelling.Condition, c.comparison.Fits m.rest ∧ m = ⟨c.chars, [c.tree start], m.rest⟩ := by
  obtain ⟨whole, hwhole, rfl⟩ := run_node_eq_some.1 h
  change run (seq column (seq blanks (alt singleValue multiValue))) start cs = some whole at hwhole
  obtain ⟨a, _, ha, h₁, rfl⟩ := run_seq_eq_some.1 hwhole
  obtain ⟨b, c, hb, hc, rfl⟩ := run_seq_eq_some.1 h₁
  obtain ⟨name, hname, hne, hword, hstop⟩ := exists_name_of_run_column ha
  obtain ⟨gap, hgap, -⟩ := exists_gap_of_run_blanks hb
  obtain ⟨comparison, hfits, hcomparison⟩ := exists_comparison_of_run hc
  -- a keyword that followed the name directly would have become part of it
  have hapart : comparison.isList = true → gap.chars ≠ [] := by
    intro hlist hnil
    rw [← text_append_rest hb, ← text_append_rest hc, hgap, hcomparison, hnil] at hstop
    exact comparison.not_stops_isWordChar c.rest hlist hstop
  refine ⟨⟨name, gap, comparison, hne, hword, hapart⟩, hfits, ?_⟩
  rw [hcomparison, hgap, hname]
  rfl

/-! ### Filters -/

theorem run_nextCondition (n : NextCondition) (start : Nat) (h : Stops isBare rest) :
    run nextCondition start (n.chars ++ rest) = some ⟨n.chars, n.trees start, rest⟩ := by
  show run (seq blanks1 (seq connector (seq blanks1 condition))) start _ = _
  simp only [NextCondition.chars, List.append_assoc]
  rw [run_seq_of_some (run_blanks1 n.before start n.before_ne_nil (n.stops_isBlank_keyword _)),
    run_seq_of_some (run_connector n.isKeyword (n.stops_isBare_after _) _),
    run_seq_of_some (run_blanks1 n.after _ n.after_ne_nil (n.condition.stops_isBlank rest)),
    run_condition n.condition _ (n.condition.comparison.fits_of_stops h)]
  rfl

theorem exists_nextCondition_of_run (h : run nextCondition start cs = some m) :
    ∃ n : NextCondition, m = ⟨n.chars, n.trees start, m.rest⟩ := by
  change run (seq blanks1 (seq connector (seq blanks1 condition))) start cs = some m at h
  obtain ⟨a, _, ha, h₁, rfl⟩ := run_seq_eq_some.1 h
  obtain ⟨b, _, hb, h₂, rfl⟩ := run_seq_eq_some.1 h₁
  obtain ⟨c, d, hc, hd, rfl⟩ := run_seq_eq_some.1 h₂
  obtain ⟨before, hbefore, hbefore_ne, -⟩ := exists_gap_of_run_blanks1 ha
  obtain ⟨k, keyword, hkeyword, hb'⟩ := exists_connector_of_run hb
  obtain ⟨after, hafter, hafter_ne, -⟩ := exists_gap_of_run_blanks1 hc
  obtain ⟨condition, -, hcondition⟩ := exists_condition_of_run hd
  refine ⟨⟨before, k, keyword, after, condition, hbefore_ne, hkeyword, hafter_ne⟩, ?_⟩
  rw [hcondition, hafter, hb', hbefore]
  rfl

theorem consuming_nextCondition : Consuming nextCondition :=
  consuming_of_consumes rfl

/-- Where only blanks are left, no condition follows. -/
theorem run_nextCondition_of_gap (g : Gap) (start : Nat) :
    run nextCondition start g.chars = none := by
  cases h : run nextCondition start g.chars with
  | none => rfl
  | some m =>
    obtain ⟨n, hn⟩ := exists_nextCondition_of_run h
    have htext := text_append_rest h
    -- the column of the condition would have to be blank
    obtain ⟨c, hc⟩ := List.exists_mem_of_ne_nil _ n.condition.column_ne_nil
    have hmem : c ∈ g.chars := by
      rw [← htext, hn]
      simp [NextCondition.chars, Spelling.Condition.chars, hc]
    have hword := n.condition.column_isWord c hc
    rw [isWordChar_eq_false_of_isBlank (g.blank c hmem)] at hword
    cases hword

/-- **Every filter is matched as a whole.** -/
theorem run_filter (f : Spelling.Filter) :
    run filter 0 f.chars = some ⟨f.chars, [f.tree], []⟩ := by
  have hclosing : Stops isBare f.closing.chars := stops_isBare_others f.closing []
  have hothers := run_star_layOut (Stops isBare) consuming_nextCondition
    (fun n rest => n.stops_isBare rest) (fun start n rest h => run_nextCondition n start h) hclosing
    (run_nextCondition_of_gap f.closing) f.others
  have hfirst := stops_isBare_others f.closing f.others
  have hend : ∀ start, run blanks start f.closing.chars = some ⟨f.closing.chars, [], []⟩ := by
    intro start
    have := run_blanks f.closing start (.nil : Stops isBlank [])
    rwa [List.append_nil] at this
  refine run_node_eq_some.2 ⟨⟨f.chars, f.tree.children, []⟩, ?_, rfl⟩
  show run (seq blanks (seq condition (seq (star nextCondition) (seq blanks endOfInput)))) 0 _ = _
  rw [Spelling.Filter.chars, run_seq_of_some (run_blanks f.opening 0 (f.first.stops_isBlank _)),
    run_seq_of_some (run_condition f.first _ (f.first.comparison.fits_of_stops hfirst)),
    run_seq_of_some (hothers _), run_seq_of_some (hend _)]
  simp [Match.append, endOfInput, run, Spelling.Filter.tree, Spelling.Filter.othersStart,
    Spelling.Filter.chars, Tree.children, Nat.add_assoc]

/-- **Only filters are matched.** -/
theorem exists_filter_of_run (h : run filter 0 cs = some m) :
    ∃ f : Spelling.Filter, cs = f.chars ∧ m = ⟨f.chars, [f.tree], []⟩ := by
  have hcs := text_append_rest h
  obtain ⟨whole, hwhole, rfl⟩ := run_node_eq_some.1 h
  change run (seq blanks (seq condition (seq (star nextCondition) (seq blanks endOfInput)))) 0 cs =
    some whole at hwhole
  obtain ⟨a, _, ha, h₁, rfl⟩ := run_seq_eq_some.1 hwhole
  obtain ⟨b, _, hb, h₂, rfl⟩ := run_seq_eq_some.1 h₁
  obtain ⟨c, _, hc, h₃, rfl⟩ := run_seq_eq_some.1 h₂
  obtain ⟨d, e, hd, he, rfl⟩ := run_seq_eq_some.1 h₃
  obtain ⟨opening, hopening, -⟩ := exists_gap_of_run_blanks ha
  obtain ⟨first, -, hfirst⟩ := exists_condition_of_run hb
  obtain ⟨others, hothers⟩ := exists_layOut_of_run_star consuming_nextCondition
    (fun h => exists_nextCondition_of_run h) hc
  obtain ⟨closing, hclosing, -⟩ := exists_gap_of_run_blanks hd
  obtain ⟨e', he', rfl⟩ := run_leaf_eq_some.1 he
  obtain ⟨-, rfl⟩ := run_finish_eq_some.1 he'
  refine ⟨⟨opening, first, others, closing⟩, ?_, ?_⟩
  · rw [← hcs, hclosing, hothers, hfirst, hopening]
    simp [Match.append, Spelling.Filter.chars]
  · rw [hclosing, hothers, hfirst, hopening]
    simp [Match.append, Spelling.Filter.chars, Spelling.Filter.tree, Spelling.Filter.othersStart,
      Nat.add_assoc]

end Grammar

end ColumnFilter
