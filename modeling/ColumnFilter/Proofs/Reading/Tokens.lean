import ColumnFilter.Proofs.Reading.Conditions
import ColumnFilter.Proofs.Reading.Joining
import ColumnFilter.Proofs.RoundTrip.Canonical

/-!
# Tokens and their layout

The tokens that a filter text consists of, without the blanks between them.
`Spaced` says that some characters are given tokens in their order, with blanks
wherever one likes; of a token that `folds` the case of ASCII letters may vary,
and before one that stands `apart` there has to be a blank.

The spellings that lay out the tokens of one another are told by the structure
of spellings (`Spelling.Condition.Same`): the same column up to case, the same
operator and the same literals.  `spaced_tokens_of_same` leads from the
structure to the tokens.  The converse needs that no two tokens which are put
side by side are taken for one, so it is left to those who know the literals.
-/

namespace ColumnFilter

open Text

namespace Layout

/-- A token of a filter text. -/
structure Token where
  chars : List Char
  /-- May the case of its ASCII letters vary? -/
  folds : Bool
  /-- Does a blank have to stand before it? -/
  apart : Bool
deriving DecidableEq, Repr

namespace Token

/-- A token that may stand anywhere and has one form. -/
def fixed (cs : List Char) : Token :=
  ⟨cs, false, false⟩

/-- A word in any case that stands apart. -/
def word (cs : List Char) : Token :=
  ⟨cs, true, true⟩

/-- Is the word one of the forms of the token? -/
def Spells (t : Token) (cs : List Char) : Prop :=
  cs = t.chars ∨ t.folds = true ∧ asciiLower cs = asciiLower t.chars

end Token

theorem Token.spells_fixed {cs ds : List Char} : (fixed ds).Spells cs ↔ cs = ds :=
  or_iff_left fun h => Bool.false_ne_true h.1

theorem Token.asciiLower_of_spells {t : Token} {cs : List Char} (h : t.Spells cs) :
    asciiLower cs = asciiLower t.chars := by
  rcases h with rfl | ⟨-, h⟩
  · rfl
  · exact h

/-- The characters are the tokens in their order, with blanks before them. -/
def Spaced : List Token → List Char → Prop
  | [], cs => cs = []
  | t :: ts, cs => ∃ (gap : Spelling.Gap) (word rest : List Char),
      cs = gap.chars ++ (word ++ rest) ∧ (t.apart = true → gap.chars ≠ []) ∧ t.Spells word ∧
        Spaced ts rest

end Layout

open Layout

/-! ### The tokens of a text -/

namespace Written

/-- The tokens of the literals of a list, with their commas. -/
def itemTokens : List Item → List Token
  | [] => []
  | first :: others =>
    .fixed first.chars :: others.flatMap fun i => [.fixed [','], .fixed i.chars]

/-- The tokens of a value, the case of which may vary in some columns. -/
def Value.tokens (folds : Bool) : Value → List Token
  | single item => [⟨item.chars, folds, false⟩]
  | list _ items => .fixed ['('] :: (itemTokens items ++ [.fixed [')']])

/-- The tokens of a comparator: a symbol, or the words before a list. -/
def Condition.comparatorTokens (c : Condition) : List Token :=
  if c.value.isList then (words c.comparator.text.toList).map .word
  else [.fixed c.comparator.text.toList]

/-- The tokens of a condition.  On a column of truth values the case of the value may vary. -/
def Condition.tokens (s : Schema) (apart : Bool) (c : Condition) : List Token :=
  ⟨c.column.text.toList, true, apart⟩ ::
    (c.comparatorTokens ++ c.value.tokens (s.typeOf c.column.text == some .boolean))

/-- The tokens of a filter. -/
def Filter.tokens (s : Schema) (f : Filter) : List Token :=
  f.first.tokens s false ++
    f.others.flatMap fun p => .word p.1.keyword.toList :: p.2.tokens s true

end Written

/-- The tokens that a text consists of, if it follows the grammar. -/
def Schema.tokens? (s : Schema) (text : String) : Option (List Token) :=
  if (trim text).isEmpty then some []
  else match Written.readFilter (trim text) with
    | .ok w => some (w.tokens s)
    | .error _ => none

namespace Spelling

/-! ### The tokens of a spelling -/

def ItemList.tokens (l : ItemList) : List Token :=
  .fixed ['('] :: .fixed l.first.chars ::
    (l.others.flatMap (fun n => [.fixed [','], .fixed n.item.chars]) ++ [.fixed [')']])

def Comparison.tokens (folds : Bool) : Comparison → List Token
  | single op _ item _ _ => [.fixed op.symbol.toList, ⟨item.chars, folds, false⟩]
  | list keyword _ l => keyword.words.map .word ++ l.tokens

def Condition.tokens (s : Schema) (apart : Bool) (c : Condition) : List Token :=
  ⟨c.column, true, apart⟩ ::
    c.comparison.tokens (s.typeOf (String.ofList c.column) == some .boolean)

def NextCondition.tokens (s : Schema) (n : NextCondition) : List Token :=
  .word n.connector.keyword.toList :: n.condition.tokens s true

def Filter.tokens (s : Schema) (f : Filter) : List Token :=
  f.first.tokens s false ++ f.others.flatMap (NextCondition.tokens s)

theorem ItemList.tokens_written (l : ItemList) (start : Nat) (folds : Bool) :
    (l.written start).tokens folds = l.tokens := by
  have hothers : ∀ start, (layOut NextItem.chars (fun start n => n.item.written (n.itemStart start))
      start l.others).map (fun i => [Token.fixed [','], Token.fixed i.chars]) =
        l.others.map fun n => [Token.fixed [','], Token.fixed n.item.chars] :=
    map_layOut_eq_map (fun start n => by rw [Item.chars_written]) l.others
  rw [ItemList.written, Written.Value.tokens, ItemList.putItems, Written.itemTokens,
    List.flatMap_def, hothers, Item.chars_written]
  rfl

theorem Condition.tokens_written (c : Condition) (s : Schema) (apart : Bool) (start : Nat) :
    (c.written start).tokens s apart = c.tokens s apart := by
  rw [Written.Condition.tokens, Written.Condition.comparatorTokens, Condition.tokens]
  simp only [Condition.written, String.toList_ofList]
  cases c.comparison with
  | single op gap item takesOne whole =>
    simp [Comparison.value, Written.Value.tokens, Written.Value.isList, Comparison.tokens,
      Comparison.comparator, Item.chars_written]
  | list keyword gap l =>
    have hlist : (l.written (c.valueStart start)).isList = true := rfl
    simp only [Comparison.value, hlist, if_true, Comparison.comparator, keyword.words_chars,
      l.tokens_written, Comparison.tokens]

theorem Filter.tokens_written (f : Filter) (s : Schema) : f.written.tokens s = f.tokens s := by
  have hothers : (layOut NextCondition.chars NextCondition.written f.othersStart f.others).map
      (fun p => Token.word p.1.keyword.toList :: p.2.tokens s true) =
        f.others.map (NextCondition.tokens s) :=
    map_layOut_eq_map (fun start n => by
      rw [NextCondition.written, Condition.tokens_written, NextCondition.tokens]) f.others
    f.othersStart
  rw [Written.Filter.tokens, Filter.tokens, Filter.written, Condition.tokens_written,
    List.flatMap_def, hothers]
  rfl

/-! ### Spellings with the same tokens -/

/-- The same question: the same operator and the same literals, up to the case of a single
one if that may vary. -/
inductive Comparison.Same (folds : Bool) : Comparison → Comparison → Prop where
  | single {op : Operator} {gap gap' : Gap} {item item' : Item} {takesOne : op.takesList = false}
      {whole : op.isLengthened (gap.chars ++ item.chars) = false}
      {whole' : op.isLengthened (gap'.chars ++ item'.chars) = false} :
      item.chars = item'.chars ∨ folds = true ∧ asciiLower item.chars = asciiLower item'.chars →
      Same folds (.single op gap item takesOne whole) (.single op gap' item' takesOne whole')
  | list {keyword keyword' : Keyword} {gap gap' : Gap} {l l' : ItemList} :
      keyword.operator = keyword'.operator → l.items.map Item.chars = l'.items.map Item.chars →
      Same folds (.list keyword gap l) (.list keyword' gap' l')

/-- The same condition over some columns. -/
structure Condition.Same (s : Schema) (c d : Condition) : Prop where
  column : asciiLower c.column = asciiLower d.column
  comparison : c.comparison.Same (s.typeOf (String.ofList c.column) == some .boolean) d.comparison

/-- The same condition behind the same connector. -/
structure NextCondition.Same (s : Schema) (m n : NextCondition) : Prop where
  connector : m.connector = n.connector
  condition : m.condition.Same s n.condition

/-- The same filter over some columns. -/
structure Filter.Same (s : Schema) (f g : Filter) : Prop where
  first : f.first.Same s g.first
  others : List.Forall₂ (NextCondition.Same s) f.others g.others

theorem Condition.sameIgnoringCase_of_asciiLower {c d : Condition}
    (h : asciiLower c.column = asciiLower d.column) :
    sameIgnoringCase (String.ofList c.column) (String.ofList d.column) = true := by
  have hlower : ∀ e : Condition, lowerFrom [] e.column = asciiLower e.column := fun e =>
    lowerFrom_of_ascii (fun ch hch => toNat_lt_of_isWordChar (e.column_isWord ch hch)) []
  rw [sameIgnoringCase, beq_iff_eq, lower, lower, String.toList_ofList, String.toList_ofList,
    hlower, hlower, h]

theorem Condition.Same.typeOf_eq {s : Schema} {c d : Condition} (h : c.Same s d) :
    s.typeOf (String.ofList c.column) = s.typeOf (String.ofList d.column) :=
  Schema.typeOf_congr (sameIgnoringCase_of_asciiLower h.column)

/-! ### The layout of the same tokens -/

section Spaced

variable {ts : List Token} {rest : List Char} {folds : Bool}

theorem spaced_otherItems (closing : Gap) (h : Spaced ts rest) :
    ∀ {others others' : List NextItem},
      others.map (·.item.chars) = others'.map (·.item.chars) →
      Spaced (others'.flatMap (fun n => [.fixed [','], .fixed n.item.chars]) ++
          .fixed [')'] :: ts)
        (others.flatMap NextItem.chars ++ (closing.chars ++ ([')'] ++ rest))) := by
  intro others
  induction others with
  | nil =>
    intro others' hothers
    obtain rfl := List.map_eq_nil_iff.1 hothers.symm
    exact ⟨closing, _, _, rfl, nofun, .inl rfl, h⟩
  | cons n others ih =>
    intro others' hothers
    cases others' with
    | nil => cases hothers
    | cons n' others' =>
      obtain ⟨hitem, hothers⟩ := List.cons.inj hothers
      refine ⟨n.before, [','], _, ?_, nofun, .inl rfl, n.after, n.item.chars, _, rfl, nofun,
        .inl hitem, ih hothers⟩
      simp [NextItem.chars]

theorem spaced_itemList {l l' : ItemList} (gap : Gap)
    (hl : l.items.map Item.chars = l'.items.map Item.chars) (h : Spaced ts rest) :
    Spaced (l'.tokens ++ ts) (gap.chars ++ (l.chars ++ rest)) := by
  obtain ⟨hfirst, hothers⟩ := List.cons.inj hl
  rw [List.map_map, List.map_map] at hothers
  have hspaced := spaced_otherItems l.closing h hothers
  refine ⟨gap, ['('], l.opening.chars ++ (l.first.chars ++ (l.others.flatMap NextItem.chars ++
    (l.closing.chars ++ ([')'] ++ rest)))), ?_, nofun, .inl rfl, l.opening, l.first.chars, _, rfl,
    nofun, .inl hfirst, ?_⟩
  · simp [ItemList.chars]
  · rw [List.append_cons] at hspaced
    exact hspaced

theorem spaced_keyword {k k' : Keyword} {gap : Gap} (hk : k.operator = k'.operator)
    (hne : gap.chars ≠ []) (h : Spaced ts rest) :
    Spaced (k'.words.map .word ++ ts) (gap.chars ++ (k.chars ++ rest)) := by
  have hspells : ∀ {cs ds target : List Char}, asciiLower cs = target → asciiLower ds = target →
      (Token.word ds).Spells cs := fun hcs hds => .inr ⟨rfl, hcs.trans hds.symm⟩
  cases k with
  | oneOf word isIn =>
    cases k' with
    | oneOf word' isIn' => exact ⟨gap, word, _, rfl, fun _ => hne, hspells isIn isIn', h⟩
    | noneOf => cases hk
  | noneOf negation inner word isNot apart isIn =>
    cases k' with
    | oneOf => cases hk
    | noneOf negation' inner' word' isNot' apart' isIn' =>
      refine ⟨gap, negation, inner.chars ++ (word ++ rest), ?_, fun _ => hne,
        hspells isNot isNot', inner, word, rest, rfl, fun _ => apart, hspells isIn isIn', h⟩
      simp [Keyword.chars]

theorem spaced_comparison {c d : Comparison} {gap : Gap} (hsame : c.Same folds d)
    (hne : c.isList = true → gap.chars ≠ []) (h : Spaced ts rest) :
    Spaced (d.tokens folds ++ ts) (gap.chars ++ (c.chars ++ rest)) := by
  cases hsame with
  | @single op gap' gap'' item item' takesOne whole whole' hitem =>
    refine ⟨gap, op.symbol.toList, gap'.chars ++ (item.chars ++ rest), ?_, nofun, .inl rfl,
      gap', item.chars, rest, rfl, nofun, hitem, h⟩
    simp [Comparison.chars, Comparison.comparator, Comparison.gap, Comparison.valueChars]
  | @list keyword keyword' gap' gap'' l l' hkeyword hitems =>
    have hspaced := spaced_keyword hkeyword (hne rfl) (spaced_itemList gap' hitems h)
    simpa [Comparison.tokens, Comparison.chars, Comparison.comparator, Comparison.gap,
      Comparison.valueChars] using hspaced

/-- **A condition lays out the tokens of the same condition.** -/
theorem spaced_condition {s : Schema} {c d : Condition} {apart : Bool} {gap : Gap}
    (hsame : c.Same s d) (hne : apart = true → gap.chars ≠ []) (h : Spaced ts rest) :
    Spaced (d.tokens s apart ++ ts) (gap.chars ++ (c.chars ++ rest)) := by
  have hcomparison := hsame.comparison
  rw [hsame.typeOf_eq] at hcomparison
  refine ⟨gap, c.column, c.gap.chars ++ (c.comparison.chars ++ rest), ?_, hne,
    .inr ⟨rfl, hsame.column⟩, spaced_comparison hcomparison c.apart h⟩
  simp [Condition.chars]

theorem spaced_others {s : Schema} {others others' : List NextCondition}
    (hsame : List.Forall₂ (NextCondition.Same s) others others') :
    Spaced (others'.flatMap (NextCondition.tokens s)) (others.flatMap NextCondition.chars) := by
  induction hsame with
  | nil => rfl
  | @cons n n' others others' hn _ ih =>
    have hcondition : Spaced
        (n'.condition.tokens s true ++ others'.flatMap (NextCondition.tokens s))
        (n.after.chars ++ (n.condition.chars ++ others.flatMap NextCondition.chars)) :=
      spaced_condition hn.condition (fun _ => n.after_ne_nil) ih
    have hkeyword : (Token.word n'.connector.keyword.toList).Spells n.keyword := by
      refine .inr ⟨rfl, ?_⟩
      rw [n.isKeyword, hn.connector]
      exact (asciiLower_keyword n'.connector).symm
    refine ⟨n.before, n.keyword, _, ?_, fun _ => n.before_ne_nil, hkeyword, hcondition⟩
    simp [NextCondition.chars]

/-- **A filter lays out the tokens of the same filter.** -/
theorem spaced_tokens_of_same {s : Schema} {f g : Filter} (h : f.Same s g) :
    Spaced (g.tokens s) (f.first.chars ++ f.others.flatMap NextCondition.chars) := by
  have hspaced : Spaced (g.tokens s)
      (Gap.none.chars ++ (f.first.chars ++ f.others.flatMap NextCondition.chars)) :=
    spaced_condition h.first nofun (spaced_others h.others)
  exact hspaced

end Spaced

end Spelling

end ColumnFilter
