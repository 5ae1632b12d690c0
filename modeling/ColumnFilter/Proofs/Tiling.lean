import ColumnFilter.Proofs.Spelling.Reading

/-!
# Nothing is lost in reading

A written filter keeps every part of its text in its place.  `Tiles` says what
that means for a row of pieces: from its first byte to its last, the text is
made up of the pieces in their order, each standing where it says, and of what
separates them.  A filter is tiled by its conditions, with connectors and blanks
as separators; a condition by its column, comparator and value; a list by its
literals.

`lossless_of_readFilter` collects this for every text that is read.
-/

namespace ColumnFilter

namespace Lexeme

/-- The characters of a piece. -/
def chars (l : Lexeme) : List Char :=
  l.text.toList

/-- The piece is found in the text at its own place. -/
def StandsIn (cs : List Char) (l : Lexeme) : Prop :=
  ∃ before after, cs = before ++ (l.chars ++ after) ∧ l.start = Text.byteLength before

@[simp] theorem chars_ofList (cs : List Char) (start : Nat) :
    (Lexeme.mk (String.ofList cs) start).chars = cs :=
  String.toList_ofList

@[simp] theorem stop_span_ofList (cs : List Char) (start : Nat) :
    (Lexeme.mk (String.ofList cs) start).span.stop = start + Text.byteLength cs := by
  rw [span, Text.size, String.toList_ofList]

theorem stop_span (l : Lexeme) : l.span.stop = l.start + Text.byteLength l.chars := rfl

end Lexeme

/-! ### Rows of pieces -/

/-- `Tiles last start cs pieces` says that characters which begin at a byte are the pieces in
their order, each at its place and behind a separator of its kind, and then a `last` one. -/
inductive Tiles (last : List Char → Prop) :
    Nat → List Char → List ((List Char → Prop) × Lexeme) → Prop where
  | nil {start : Nat} {gap : List Char} : last gap → Tiles last start gap []
  | cons {start : Nat} {separates : List Char → Prop} {gap rest : List Char} {l : Lexeme}
      {pieces : List ((List Char → Prop) × Lexeme)} :
      separates gap → l.start = start + Text.byteLength gap → Tiles last l.span.stop rest pieces →
      Tiles last start (gap ++ (l.chars ++ rest)) ((separates, l) :: pieces)

namespace Tiles

variable {last : List Char → Prop} {start : Nat} {cs : List Char}
  {pieces : List ((List Char → Prop) × Lexeme)}

theorem cons_ofList {separates : List Char → Prop} {gap chars rest : List Char} {place : Nat}
    (hgap : separates gap) (hplace : place = start + Text.byteLength gap)
    (h : Tiles last (place + Text.byteLength chars) rest pieces) :
    Tiles last start (gap ++ (chars ++ rest))
      ((separates, ⟨String.ofList chars, place⟩) :: pieces) := by
  rw [← Lexeme.stop_span_ofList] at h
  have := Tiles.cons hgap hplace h
  rwa [Lexeme.chars_ofList] at this

/-- Every piece is found behind the first byte of the row. -/
theorem exists_append (h : Tiles last start cs pieces) :
    ∀ p ∈ pieces, ∃ before after, cs = before ++ (p.2.chars ++ after) ∧
      p.2.start = start + Text.byteLength before := by
  induction h with
  | nil => intro p hp; cases hp
  | @cons start separates gap rest l pieces _ hstart _ ih =>
    intro p hp
    rcases List.mem_cons.1 hp with rfl | hp
    · exact ⟨gap, rest, rfl, hstart⟩
    · obtain ⟨before, after, hrest, hp⟩ := ih p hp
      refine ⟨gap ++ (l.chars ++ before), after, ?_, ?_⟩
      · rw [hrest]
        simp only [List.append_assoc]
      · rw [hp, l.stop_span, hstart]
        simp only [Text.byteLength_append]
        omega

/-- What stands in a piece of a text stands in the text. -/
theorem standsIn {text : List Char} {whole : Lexeme} (hwhole : whole.StandsIn text)
    (h : Tiles last whole.start whole.chars pieces) : ∀ p ∈ pieces, p.2.StandsIn text := by
  intro p hp
  obtain ⟨before, after, htext, hstart⟩ := hwhole
  obtain ⟨before', after', hchars, hp⟩ := h.exists_append p hp
  refine ⟨before ++ before', after' ++ after, ?_, ?_⟩
  · rw [htext, hchars]
    simp only [List.append_assoc]
  · rw [hp, hstart, Text.byteLength_append]

/-- **Pieces do not overlap.**  Each ends before the next one begins, so if none of them
is empty their ends increase. -/
theorem pairwise (h : Tiles last start cs pieces) (hne : ∀ p ∈ pieces, p.2.chars ≠ []) :
    pieces.Pairwise fun p q =>
      p.2.span.stop ≤ q.2.span.start ∧ p.2.span.stop < q.2.span.stop := by
  induction h with
  | nil => exact .nil
  | @cons start separates gap rest l pieces _ _ hrest ih =>
    refine .cons ?_ (ih fun p hp => hne p (List.mem_cons_of_mem _ hp))
    intro q hq
    obtain ⟨before, -, -, hstart⟩ := hrest.exists_append q hq
    have hle : l.span.stop ≤ q.2.start := by omega
    have hpos : 0 < Text.byteLength q.2.chars :=
      Nat.pos_of_ne_zero fun h =>
        hne q (List.mem_cons_of_mem _ hq) (Text.byteLength_eq_zero.1 h)
    refine ⟨hle, Nat.lt_of_le_of_lt hle ?_⟩
    rw [q.2.stop_span]
    exact Nat.lt_add_of_pos_right hpos

/-- A row whose pieces are put down one behind the other. -/
theorem layOut {α : Type} {chars : α → List Char}
    {put : Nat → α → (List Char → Prop) × Lexeme} {rest : List Char}
    (hput : ∀ start a, ∃ gap, (put start a).1 gap ∧
      (put start a).2.start = start + Text.byteLength gap ∧
      chars a = gap ++ (put start a).2.chars) (hrest : last rest) :
    ∀ (as : List α) (start : Nat),
      Tiles last start (as.flatMap chars ++ rest) (Spelling.layOut chars put start as) := by
  intro as
  induction as with
  | nil => intro start; exact .nil hrest
  | cons a as ih =>
    intro start
    obtain ⟨gap, hgap, hstart, hchars⟩ := hput start a
    have hstop : start + Text.byteLength (chars a) = (put start a).2.span.stop := by
      rw [Lexeme.stop_span, hstart, hchars, Text.byteLength_append, Nat.add_assoc]
    have hcs : (a :: as).flatMap chars ++ rest =
        gap ++ ((put start a).2.chars ++ (as.flatMap chars ++ rest)) := by
      rw [List.flatMap_cons, hchars]
      simp only [List.append_assoc]
    rw [hcs, Spelling.layOut, hstop]
    exact .cons hgap hstart (ih _)

end Tiles

/-! ### What stands between the parts of a text -/

/-- Blanks, possibly none. -/
def IsBlank (cs : List Char) : Prop :=
  ∀ c ∈ cs, Grammar.isBlank c = true

/-- Nothing at all. -/
def IsNothing (cs : List Char) : Prop :=
  cs = []

/-- An opening parenthesis and blanks. -/
def Opens (cs : List Char) : Prop :=
  ∃ after, cs = '(' :: after ∧ IsBlank after

/-- One comma with blanks around it. -/
def Separates (cs : List Char) : Prop :=
  ∃ before after, cs = before ++ ',' :: after ∧ IsBlank before ∧ IsBlank after

/-- Blanks and a closing parenthesis. -/
def Closes (cs : List Char) : Prop :=
  ∃ before, cs = before ++ [')'] ∧ IsBlank before

/-- The keyword of a connector in any case, with blanks on both sides. -/
def Joins (k : Connector) (cs : List Char) : Prop :=
  ∃ before keyword after, cs = before ++ (keyword ++ after) ∧
    IsBlank before ∧ before ≠ [] ∧ Text.asciiLower keyword = k.keyword.toList ∧
    IsBlank after ∧ after ≠ []

namespace Written

/-- The parts of a list: its literals, the first behind a parenthesis and each
further one behind a comma. -/
def Value.parts : List Item → List ((List Char → Prop) × Lexeme)
  | [] => []
  | first :: others => (Opens, first.lexeme) :: others.map fun i => (Separates, i.lexeme)

/-- The parts of a condition. -/
def Condition.parts (c : Condition) : List ((List Char → Prop) × Lexeme) :=
  [(IsNothing, c.column), (IsBlank, c.comparator), (IsBlank, c.value.lexeme)]

/-- The parts of a filter: its conditions, each further one behind its connector. -/
def Filter.parts (f : Filter) : List ((List Char → Prop) × Lexeme) :=
  (IsBlank, f.first.whole) :: f.others.map fun p => (Joins p.1, p.2.whole)

/-- Nothing of a condition is lost. -/
structure Condition.Lossless (c : Condition) : Prop where
  start_eq : c.whole.span.start = c.column.span.start
  stop_eq : c.whole.span.stop = c.value.lexeme.span.stop
  /-- Column, comparator and value stand in this order with only blanks between them. -/
  tiles : Tiles IsNothing c.whole.start c.whole.chars c.parts
  /-- A list holds its literals in order, with one comma between two of them. -/
  list : ∀ whole items, c.value = .list whole items →
    items ≠ [] ∧ Tiles Closes whole.start whole.chars (Value.parts items)

/-- Nothing of a text is lost in the filter that it is read as. -/
structure Filter.Lossless (f : Filter) (text : String) : Prop where
  length_connectors : f.connectors.length + 1 = f.conditions.length
  /-- The text is the conditions with their connectors between them and blanks at both ends. -/
  tiles : Tiles IsBlank 0 text.toList f.parts
  conditions : ∀ c ∈ f.conditions, c.Lossless
  /-- Every part is the text of its span. -/
  standsIn : ∀ c ∈ f.conditions, ∀ l ∈ [c.whole, c.column, c.comparator, c.value.lexeme] ++
    c.value.items.map (·.lexeme), l.StandsIn text.toList
  /-- The conditions do not overlap, and their ends increase. -/
  pairwise : f.conditions.Pairwise fun c d =>
    c.whole.span.stop ≤ d.whole.span.start ∧ c.whole.span.stop < d.whole.span.stop

end Written

/-! ### Spellings lose nothing -/

namespace Spelling

theorem ItemList.tiles (l : ItemList) (start : Nat) :
    Tiles Closes start l.chars (Written.Value.parts (l.putItems Item.written start)) := by
  have hothers : ∀ start, Tiles Closes start
      (l.others.flatMap NextItem.chars ++ (l.closing.chars ++ [')']))
      (layOut NextItem.chars
        (fun start n => (Separates, (n.item.written (n.itemStart start)).lexeme))
        start l.others) := by
    refine Tiles.layOut (fun start n => ?_) ⟨l.closing.chars, rfl, l.closing.blank⟩ l.others
    refine ⟨n.before.chars ++ ',' :: n.after.chars,
      ⟨n.before.chars, n.after.chars, rfl, n.before.blank, n.after.blank⟩, ?_, ?_⟩
    · simp [Item.written, NextItem.itemStart, Nat.add_assoc]
    · simp [Item.written, NextItem.chars]
  have hchars : l.chars = '(' :: l.opening.chars ++ (l.first.chars ++
      (l.others.flatMap NextItem.chars ++ (l.closing.chars ++ [')']))) := rfl
  rw [hchars, ItemList.putItems, Written.Value.parts, map_layOut]
  exact .cons_ofList ⟨l.opening.chars, rfl, l.opening.blank⟩ (Nat.add_assoc ..) (hothers _)

theorem Comparison.lexeme_value (c : Comparison) (start : Nat) :
    (c.value start).lexeme = ⟨String.ofList c.valueChars, start⟩ := by
  cases c <;> rfl

theorem Condition.tiles (c : Condition) (start : Nat) :
    Tiles IsNothing start c.chars (c.written start).parts := by
  have hchars : c.chars = [] ++ (c.column ++ (c.gap.chars ++ (c.comparison.comparator ++
      (c.comparison.gap.chars ++ (c.comparison.valueChars ++ []))))) := by
    simp [Condition.chars, Comparison.chars]
  rw [hchars, Written.Condition.parts, Condition.written, Comparison.lexeme_value]
  refine .cons_ofList rfl rfl (.cons_ofList c.gap.blank rfl ?_)
  exact .cons_ofList c.comparison.gap.blank rfl (.nil rfl)

theorem Condition.lossless (c : Condition) (start : Nat) : (c.written start).Lossless where
  start_eq := rfl
  stop_eq := by
    rw [Condition.written, Comparison.lexeme_value, Lexeme.stop_span_ofList,
      Lexeme.stop_span_ofList]
    simp only [Condition.valueStart, Condition.comparatorStart, Condition.chars, Comparison.chars,
      Text.byteLength_append]
    omega
  tiles := by
    have := c.tiles start
    rwa [← Lexeme.chars_ofList c.chars start] at this
  list := by
    intro whole items h
    rw [Condition.written] at h
    cases hc : c.comparison with
    | single op gap item takesOne whole =>
      rw [hc] at h
      cases h
    | list keyword gap l =>
      rw [hc] at h
      obtain ⟨rfl, rfl⟩ := Written.Value.list.inj h
      refine ⟨List.cons_ne_nil _ _, ?_⟩
      rw [Lexeme.chars_ofList]
      exact l.tiles _

theorem Filter.tiles (f : Filter) : Tiles IsBlank 0 f.chars f.written.parts := by
  have hothers : ∀ start, Tiles IsBlank start
      (f.others.flatMap NextCondition.chars ++ f.closing.chars)
      (layOut NextCondition.chars (fun start n => (Joins n.connector,
        (n.condition.written (n.conditionStart start)).whole)) start f.others) := by
    refine Tiles.layOut (fun start n => ?_) f.closing.blank f.others
    refine ⟨n.before.chars ++ (n.keyword ++ n.after.chars), ⟨n.before.chars, n.keyword,
      n.after.chars, rfl, n.before.blank, n.before_ne_nil, n.isKeyword, n.after.blank,
      n.after_ne_nil⟩, ?_, ?_⟩
    · simp [Condition.written, NextCondition.conditionStart, NextCondition.keywordStart,
        Nat.add_assoc]
    · simp [Condition.written, NextCondition.chars]
  rw [Filter.chars, Written.Filter.parts, Filter.written, map_layOut]
  exact .cons_ofList f.opening.blank (Nat.zero_add _).symm (hothers _)

end Spelling

namespace Written

theorem Filter.whole_conditions (f : Filter) :
    f.conditions.map (·.whole) = f.parts.map (·.2) := by
  simp [Filter.conditions, Filter.parts]

/-- What stands in a condition stands in the text around it. -/
theorem Condition.Lossless.standsIn {c : Condition} {text : List Char} (h : c.Lossless)
    (hwhole : c.whole.StandsIn text) :
    ∀ l ∈ [c.whole, c.column, c.comparator, c.value.lexeme] ++ c.value.items.map (·.lexeme),
      l.StandsIn text := by
  have hparts := h.tiles.standsIn hwhole
  have hvalue : c.value.lexeme.StandsIn text := hparts (IsBlank, c.value.lexeme) (by simp [parts])
  have hitems : ∀ i ∈ c.value.items, i.lexeme.StandsIn text := by
    cases hv : c.value with
    | single item =>
      intro i hi
      obtain rfl := List.mem_singleton.1 hi
      rwa [hv] at hvalue
    | list whole items =>
      rw [hv] at hvalue
      have hlist := (h.list whole items hv).2.standsIn hvalue
      cases items with
      | nil => intro i hi; cases hi
      | cons first others =>
        intro i hi
        rcases List.mem_cons.1 hi with rfl | hi
        · exact hlist (Opens, i.lexeme) (List.mem_cons_self ..)
        · exact hlist (Separates, i.lexeme) (List.mem_cons_of_mem _ (List.mem_map_of_mem hi))
  intro l hl
  rcases List.mem_append.1 hl with hl | hl
  · simp only [List.mem_cons, List.not_mem_nil, or_false] at hl
    obtain rfl | rfl | rfl | rfl := hl
    · exact hwhole
    · exact hparts (IsNothing, c.column) (by simp [parts])
    · exact hparts (IsBlank, c.comparator) (by simp [parts])
    · exact hvalue
  · obtain ⟨i, hi, rfl⟩ := List.mem_map.1 hl
    exact hitems i hi

end Written

namespace Spelling

theorem Filter.lossless (f : Filter) : f.written.Lossless f.text := by
  have htiles : Tiles IsBlank 0 f.text.toList f.written.parts := by
    rw [Filter.text, String.toList_ofList]
    exact f.tiles
  have hconditions : ∀ c ∈ f.written.conditions, c.Lossless := by
    intro c hc
    obtain ⟨s, start, rfl⟩ := exists_of_mem hc
    exact s.lossless start
  refine ⟨?_, htiles, hconditions, ?_, ?_⟩
  · rw [Written.Filter.connectors, Written.Filter.conditions, List.length_cons, List.length_map,
      List.length_map]
  · intro c hc
    have hwhole : c.whole ∈ f.written.parts.map (·.2) := by
      rw [← Written.Filter.whole_conditions]
      exact List.mem_map_of_mem hc
    obtain ⟨p, hp, hpc⟩ := List.mem_map.1 hwhole
    obtain ⟨before, after, hchars, hstart⟩ := htiles.exists_append p hp
    rw [hpc] at hchars hstart
    exact (hconditions c hc).standsIn ⟨before, after, hchars, hstart.trans (Nat.zero_add _)⟩
  · have hne : ∀ l ∈ f.written.parts.map (·.2), l.chars ≠ [] := by
      intro l hl
      rw [← Written.Filter.whole_conditions] at hl
      obtain ⟨c, hc, rfl⟩ := List.mem_map.1 hl
      obtain ⟨s, start, rfl⟩ := exists_of_mem hc
      rw [Condition.written, Lexeme.chars_ofList]
      exact List.append_ne_nil_of_left_ne_nil s.column_ne_nil _
    have hpairwise := htiles.pairwise fun p hp => hne p.2 (List.mem_map_of_mem hp)
    rw [← List.pairwise_map (f := Prod.snd) (R := fun l l' : Lexeme => l.span.stop ≤ l'.span.start ∧
      l.span.stop < l'.span.stop), ← Written.Filter.whole_conditions,
      List.pairwise_map] at hpairwise
    exact hpairwise

end Spelling

/-- **Reading a text loses nothing of it.** -/
theorem lossless_of_readFilter {text : String} {w : Written.Filter}
    (h : Written.readFilter text = .ok w) : w.Lossless text := by
  obtain ⟨f, rfl, rfl⟩ := readFilter_eq_ok.1 h
  exact f.lossless

/-- A filter with blanks in every gap. -/
theorem lossless_of_readFilter_spaced :
    ∃ w, Written.readFilter " a  >=1 OR\tb Not\nin ( 2 , 'x' ) " = .ok w ∧
      w.Lossless " a  >=1 OR\tb Not\nin ( 2 , 'x' ) " := by
  have h : (Written.readFilter " a  >=1 OR\tb Not\nin ( 2 , 'x' ) ").toBool = true := by
    decide +kernel
  cases hw : Written.readFilter " a  >=1 OR\tb Not\nin ( 2 , 'x' ) " with
  | error fault => rw [hw] at h; cases h
  | ok w => exact ⟨w, rfl, lossless_of_readFilter hw⟩

end ColumnFilter
