import ColumnFilter.Proofs.Grammar.Reports
import ColumnFilter.Proofs.Reading.Isolation

/-!
# Marked stretches lie in each other

What a rule marks in a text forms a tree of stretches: each lies in the one around it, and those
side by side follow each other (`Tree.Nested`).  Two that are side by side do not begin at the
same byte either, unless an empty one comes before another one, and the only mark that may be empty
is the end of the input, which comes last.  `Pattern.orderly` finds this out of a pattern; it holds of
every rule (`Grammar.orderly_pattern`).
-/

namespace ColumnFilter

open Text

/-! ### Stretches in order -/

/-- Stretches between two bytes, each of which ends before the next one begins. -/
structure InOrder (start stop : Nat) (ts : List Tree) : Prop where
  within : ∀ t ∈ ts, start ≤ t.span.start ∧ t.span.stop ≤ stop
  pairwise : ts.Pairwise fun t u =>
    t.span.stop ≤ u.span.start ∧ t.span.start < u.span.start

/-- At every depth, the stretches inside another one are between its ends and in order. -/
inductive Tree.Nested : Tree → Prop where
  | mk {r : Rule} {start : Nat} {text : List Char} {children : List Tree} :
      InOrder start (start + byteLength text) children → (∀ t ∈ children, Nested t) →
      Nested (.mk r start text children)

theorem Tree.Nested.of_mem_children {t u : Tree} (h : t.Nested) (hu : u ∈ t.children) :
    u.Nested := by
  cases h with
  | mk _ hchildren => exact hchildren u hu

/-- The stretch has a character. -/
def Tree.Solid (t : Tree) : Prop :=
  t.span.start < t.span.stop

namespace InOrder

variable {start middle stop : Nat} {ts us : List Tree}

theorem nil : InOrder start stop [] where
  within := nofun
  pairwise := .nil

theorem singleton (r : Rule) (start : Nat) (text : List Char) (children : List Tree) :
    InOrder start (start + byteLength text) [.mk r start text children] where
  within := by
    intro t ht
    obtain rfl := List.mem_singleton.1 ht
    exact ⟨Nat.le_refl _, Nat.le_refl _⟩
  pairwise := List.pairwise_singleton _ _

/-- Stretches with characters, and others behind them. -/
theorem append (h : InOrder start middle ts) (hsolid : ∀ t ∈ ts, t.Solid)
    (h' : InOrder middle stop us) (hle : start ≤ middle) (hle' : middle ≤ stop) :
    InOrder start stop (ts ++ us) where
  within := by
    intro t ht
    rcases List.mem_append.1 ht with ht | ht
    · have := h.within t ht
      omega
    · have := h'.within t ht
      omega
  pairwise := by
    refine List.pairwise_append.2 ⟨h.pairwise, h'.pairwise, ?_⟩
    intro t ht u hu
    have hbefore := h.within t ht
    have hbehind := h'.within u hu
    have hchars : t.span.start < t.span.stop := hsolid t ht
    omega

/-- A match that goes on with another one. -/
theorem append_match {m n : Match} (h : InOrder start (start + byteLength m.text) m.trees)
    (hsolid : ∀ t ∈ m.trees, t.Solid) (h' : InOrder (start + byteLength m.text)
      (start + byteLength m.text + byteLength n.text) n.trees) :
    InOrder start (start + byteLength (m.append n).text) (m.append n).trees := by
  rw [Match.append_text, byteLength_append, ← Nat.add_assoc]
  exact h.append hsolid h' (Nat.le_add_right _ _) (Nat.le_add_right _ _)

end InOrder

namespace Pattern

/-! ### What a pattern marks -/

/-- Do all stretches that the pattern marks have a character? -/
def solid : Pattern → Bool
  | seq p q | alt p q => p.solid && q.solid
  | star p => p.solid
  | leaf _ p | node _ p => p.consumes
  | empty | one _ | notAhead _ | finish => true

/-- Do all stretches but the last of a row have a character, at every depth? -/
def orderly : Pattern → Bool
  | seq p q => p.solid && p.orderly && q.orderly
  | alt p q => p.orderly && q.orderly
  | star p => p.solid && p.orderly
  | node _ p => p.orderly
  | leaf .. | empty | one _ | notAhead _ | finish => true

/-- Is the pattern neither a mark nor made of others that may mark something? -/
def markless : Pattern → Bool
  | empty | one _ | notAhead _ | finish => true
  | _ => false

theorem trees_of_markless {p : Pattern} {start : Nat} {cs : List Char} {m : Match}
    (h : p.markless = true) (hm : run p start cs = some m) : m.trees = [] := by
  cases p with
  | empty => exact congrArg Match.trees (Option.some.inj hm).symm
  | one accepts =>
    obtain ⟨c, -, -, hm⟩ := run_one_eq_some.1 hm
    exact congrArg Match.trees hm
  | notAhead p => exact congrArg Match.trees (run_notAhead_eq_some.1 hm).2
  | finish => exact congrArg Match.trees (run_finish_eq_some.1 hm).2
  | _ => cases h

/-- What holds of every tree of a step holds of every tree of a repetition. -/
theorem forall_trees_repeatMatch {P : Tree → Prop} {step : Nat → List Char → Option Match}
    (h : ∀ start cs m, step start cs = some m → ∀ t ∈ m.trees, P t) (bound : List Char) :
    ∀ start cs, ∀ t ∈ (repeatMatch step bound start cs).trees, P t := by
  induction bound with
  | nil =>
    intro start cs t ht
    cases ht
  | cons b bound ih =>
    intro start cs t ht
    rw [repeatMatch] at ht
    cases hs : step start cs with
    | none =>
      rw [hs] at ht
      cases ht
    | some m =>
      rw [hs] at ht
      rcases List.mem_append.1 ht with ht | ht
      · exact h start cs m hs t ht
      · exact ih _ _ t ht

/-- A mark of a match with characters has characters. -/
theorem solid_mk {r : Rule} {start : Nat} {text : List Char} {children : List Tree}
    (h : text ≠ []) : (Tree.mk r start text children).Solid :=
  Nat.lt_add_of_pos_right (byteLength_pos h)

theorem solid_of_run {p : Pattern} (h : p.solid = true) : ∀ {start : Nat} {cs : List Char}
    {m : Match}, run p start cs = some m → ∀ t ∈ m.trees, t.Solid := by
  induction p with
  | seq p q ihp ihq =>
    intro start cs m hm t ht
    rw [solid, Bool.and_eq_true] at h
    obtain ⟨a, b, ha, hb, rfl⟩ := run_seq_eq_some.1 hm
    rcases List.mem_append.1 ht with ht | ht
    · exact ihp h.1 ha t ht
    · exact ihq h.2 hb t ht
  | alt p q ihp ihq =>
    intro start cs m hm
    rw [solid, Bool.and_eq_true] at h
    rcases run_alt_eq_some.1 hm with hm | ⟨-, hm⟩
    · exact ihp h.1 hm
    · exact ihq h.2 hm
  | star p ih =>
    intro start cs m hm
    obtain rfl := Option.some.inj hm
    exact forall_trees_repeatMatch (fun _ _ _ => ih h) cs start cs
  | leaf r p ih =>
    intro start cs m hm t ht
    obtain ⟨a, ha, rfl⟩ := run_leaf_eq_some.1 hm
    obtain rfl := List.mem_singleton.1 ht
    exact solid_mk (consuming_of_consumes h ha)
  | node r p ih =>
    intro start cs m hm t ht
    obtain ⟨a, ha, rfl⟩ := run_node_eq_some.1 hm
    obtain rfl := List.mem_singleton.1 ht
    exact solid_mk (consuming_of_consumes h ha)
  | _ =>
    intro start cs m hm t ht
    rw [trees_of_markless rfl hm] at ht
    cases ht

/-! ### The marks of a match -/

/-- The stretches of a repetition are in order, if those of a step are. -/
theorem inOrder_repeatMatch {p : Pattern} (hsolid : p.solid = true)
    (h : ∀ start cs m, run p start cs = some m →
      InOrder start (start + byteLength m.text) m.trees) (bound : List Char) :
    ∀ start cs, InOrder start (start + byteLength (repeatMatch (run p) bound start cs).text)
      (repeatMatch (run p) bound start cs).trees := by
  induction bound with
  | nil => exact fun start cs => .nil
  | cons b bound ih =>
    intro start cs
    rw [repeatMatch]
    cases hs : run p start cs with
    | none => exact .nil
    | some m =>
      exact (h start cs m hs).append_match (solid_of_run hsolid hs) (ih _ m.rest)

/-- **The stretches that an orderly pattern marks are in order.** -/
theorem inOrder_of_run {p : Pattern} (h : p.orderly = true) : ∀ {start : Nat} {cs : List Char}
    {m : Match}, run p start cs = some m → InOrder start (start + byteLength m.text) m.trees := by
  induction p with
  | seq p q ihp ihq =>
    intro start cs m hm
    rw [orderly, Bool.and_eq_true, Bool.and_eq_true] at h
    obtain ⟨⟨hsolid, hp⟩, hq⟩ := h
    obtain ⟨a, b, ha, hb, rfl⟩ := run_seq_eq_some.1 hm
    exact (ihp hp ha).append_match (solid_of_run hsolid ha) (ihq hq hb)
  | alt p q ihp ihq =>
    intro start cs m hm
    rw [orderly, Bool.and_eq_true] at h
    rcases run_alt_eq_some.1 hm with hm | ⟨-, hm⟩
    · exact ihp h.1 hm
    · exact ihq h.2 hm
  | star p ih =>
    intro start cs m hm
    rw [orderly, Bool.and_eq_true] at h
    obtain rfl := Option.some.inj hm
    exact inOrder_repeatMatch h.1 (fun _ _ _ => ih h.2) cs start cs
  | leaf r p ih =>
    intro start cs m hm
    obtain ⟨a, -, rfl⟩ := run_leaf_eq_some.1 hm
    exact .singleton r start a.text []
  | node r p ih =>
    intro start cs m hm
    obtain ⟨a, -, rfl⟩ := run_node_eq_some.1 hm
    exact .singleton r start a.text a.trees
  | _ =>
    intro start cs m hm
    rw [trees_of_markless rfl hm]
    exact .nil

/-- **The stretches that an orderly pattern marks lie in each other.** -/
theorem nested_of_run {p : Pattern} (h : p.orderly = true) : ∀ {start : Nat} {cs : List Char}
    {m : Match}, run p start cs = some m → ∀ t ∈ m.trees, t.Nested := by
  induction p with
  | seq p q ihp ihq =>
    intro start cs m hm t ht
    rw [orderly, Bool.and_eq_true, Bool.and_eq_true] at h
    obtain ⟨a, b, ha, hb, rfl⟩ := run_seq_eq_some.1 hm
    rcases List.mem_append.1 ht with ht | ht
    · exact ihp h.1.2 ha t ht
    · exact ihq h.2 hb t ht
  | alt p q ihp ihq =>
    intro start cs m hm
    rw [orderly, Bool.and_eq_true] at h
    rcases run_alt_eq_some.1 hm with hm | ⟨-, hm⟩
    · exact ihp h.1 hm
    · exact ihq h.2 hm
  | star p ih =>
    intro start cs m hm
    rw [orderly, Bool.and_eq_true] at h
    obtain rfl := Option.some.inj hm
    exact forall_trees_repeatMatch (fun _ _ _ => ih h.2) cs start cs
  | leaf r p ih =>
    intro start cs m hm t ht
    obtain ⟨a, -, rfl⟩ := run_leaf_eq_some.1 hm
    obtain rfl := List.mem_singleton.1 ht
    exact .mk .nil nofun
  | node r p ih =>
    intro start cs m hm t ht
    obtain ⟨a, ha, rfl⟩ := run_node_eq_some.1 hm
    obtain rfl := List.mem_singleton.1 ht
    have hp : p.orderly = true := h
    exact .mk (inOrder_of_run hp ha) (ih hp ha)
  | _ =>
    intro start cs m hm t ht
    rw [trees_of_markless rfl hm] at ht
    cases ht

end Pattern

/-- **Every rule is orderly.** -/
theorem Grammar.orderly_pattern (r : Rule) : (pattern r).orderly = true := by
  cases r <;> decide

/-! ### The mark of a fragment -/

namespace Pattern

/-- A match of the pattern is one stretch from its first character to its last, marked as one of
some rules. -/
def MarksWhole (rules : List Rule) (p : Pattern) : Prop :=
  ∀ start cs m, run p start cs = some m →
    ∃ r ∈ rules, ∃ children, m.trees = [.mk r start m.text children]

theorem marksWhole_leaf (r : Rule) (p : Pattern) : MarksWhole [r] (leaf r p) := by
  intro start cs m hm
  obtain ⟨a, -, rfl⟩ := run_leaf_eq_some.1 hm
  exact ⟨r, List.mem_singleton_self r, [], rfl⟩

theorem marksWhole_node (r : Rule) (p : Pattern) : MarksWhole [r] (node r p) := by
  intro start cs m hm
  obtain ⟨a, -, rfl⟩ := run_node_eq_some.1 hm
  exact ⟨r, List.mem_singleton_self r, a.trees, rfl⟩

theorem MarksWhole.alt {rs rs' : List Rule} {p q : Pattern} (hp : MarksWhole rs p)
    (hq : MarksWhole rs' q) : MarksWhole (rs ++ rs') (alt p q) := by
  intro start cs m hm
  rcases run_alt_eq_some.1 hm with hm | ⟨-, hm⟩
  · obtain ⟨r, hr, hm⟩ := hp start cs m hm
    exact ⟨r, List.mem_append_left rs' hr, hm⟩
  · obtain ⟨r, hr, hm⟩ := hq start cs m hm
    exact ⟨r, List.mem_append_right rs hr, hm⟩

end Pattern

namespace Fragment

open Grammar Pattern

/-- The rules that a fragment may be marked as: one of its own, or that of the class of a literal. -/
def ownRules : Fragment → List Rule
  | column => [.column]
  | itemString => [.itemString]
  | itemNumber => [.itemNumber]
  | itemBoolean => [.itemBoolean]
  | item => [.itemString, .itemBoolean, .itemNumber]
  | itemList => [.itemList]
  | comparatorSingle => [.comparatorSingle]
  | comparatorMultiple => [.comparatorMultiple]
  | comparatorNumeric => [.comparatorNumeric]
  | comparatorBoolean => [.comparatorBoolean]
  | comparatorString => [.comparatorString]
  | connector => [.connector]
  | condition => [.condition]
  | filter => [.filter]

variable {f : Fragment} {text : String}

/-- A fragment is a filter, or the whole of what its rule marks. -/
theorem exists_pattern_eq_only (f : Fragment) (hf : f ≠ filter) :
    ∃ p, pattern f.rule = only f.rule p ∧ MarksWhole f.ownRules p := by
  cases f with
  | filter => exact absurd rfl hf
  | item =>
    exact ⟨_, rfl, (marksWhole_leaf _ _).alt ((marksWhole_leaf _ _).alt (marksWhole_leaf _ _))⟩
  | itemList => exact ⟨_, rfl, marksWhole_node _ _⟩
  | condition => exact ⟨_, rfl, marksWhole_node _ _⟩
  | _ => exact ⟨_, rfl, marksWhole_leaf _ _⟩

theorem capture_of_ne_filter (hf : f ≠ filter) (text : String) : f.capture text =
    ((f.run text).bind (·.trees.head?)).bind (·.children.head?) := by
  cases f with
  | filter => exact absurd rfl hf
  | _ => rfl

theorem capture_of_run_eq_none (h : f.run text = none) : f.capture text = none := by
  by_cases hf : f = filter
  · subst hf
    rw [capture, h]
    rfl
  · rw [capture_of_ne_filter hf, h]
    rfl

/-- **What matches as a fragment is captured as a whole**, under a rule of the fragment. -/
theorem exists_capture_of_run {m : Match} (h : f.run text = some m) : ∃ t, f.capture text = some t ∧
    t.span = ⟨0, size text⟩ ∧ t.rule ∈ f.ownRules ∧ t.Nested := by
  have hnested := nested_of_run (orderly_pattern f.rule) h
  by_cases hf : f = filter
  · subst hf
    obtain ⟨w, hw, rfl⟩ := exists_filter_of_run h
    refine ⟨w.tree, ?_, ?_, List.mem_singleton_self _, hnested _ (List.mem_singleton_self _)⟩
    · rw [capture, h]
      rfl
    · rw [size, hw]
      exact congrArg (Span.mk 0) (Nat.zero_add _)
  · obtain ⟨p, hp, hmarks⟩ := exists_pattern_eq_only f hf
    have hrun := h
    rw [run, hp] at hrun
    obtain ⟨a, ha, -, htext, htrees⟩ := exists_of_run_only hrun
    obtain ⟨r, hr, children, hmark⟩ := hmarks _ _ _ ha
    refine ⟨.mk r 0 a.text children, ?_, ?_, hr, ?_⟩
    · rw [capture_of_ne_filter hf, h, Option.bind_some, htrees, hmark]
      rfl
    · rw [size, ← htext]
      exact congrArg (Span.mk 0) (Nat.zero_add _)
    · rw [htrees, hmark] at hnested
      exact (hnested _ (List.mem_singleton_self _)).of_mem_children (List.mem_cons_self ..)

/-- **A fragment is captured exactly where it matches.**  The stretch is the whole text, its rule
is that of the fragment, and at every depth the stretches inside another one lie between its ends,
each behind the one before it. -/
theorem isSome_capture_iff_and_nested (f : Fragment) (text : String) :
    ((f.capture text).isSome = true ↔ f.accepts text = true) ∧
      ∀ t, f.capture text = some t →
        t.span = ⟨0, size text⟩ ∧ t.rule ∈ f.ownRules ∧ t.Nested := by
  cases h : f.run text with
  | none =>
    rw [capture_of_run_eq_none h, accepts, h]
    refine ⟨Iff.rfl, fun t ht => ?_⟩
    cases ht
  | some m =>
    obtain ⟨t, ht, hspec⟩ := exists_capture_of_run h
    rw [ht, accepts, h]
    refine ⟨Iff.rfl, fun u hu => ?_⟩
    obtain rfl := Option.some.inj hu
    exact hspec

/-- A filter of two conditions with a list in it and blanks around it. -/
theorem isSome_capture_iff_and_nested_twoConditions :
    ∃ t, filter.capture " a=1 or b in (x, 'é')\n" = some t ∧ t.span = ⟨0, 23⟩ ∧
      t.rule ∈ [Rule.filter] ∧ t.Nested ∧ t.children.map (·.rule) =
        [.condition, .connector, .condition, .endOfInput] := by
  have hcapture : (filter.capture " a=1 or b in (x, 'é')\n").map (·.children.map (·.rule)) =
      some [.condition, .connector, .condition, .endOfInput] := by decide +kernel
  obtain ⟨t, ht, hrules⟩ := Option.map_eq_some_iff.1 hcapture
  obtain ⟨hspan, hrule, hnested⟩ := (isSome_capture_iff_and_nested filter _).2 t ht
  exact ⟨t, ht, hspan, hrule, hnested, hrules⟩

end Fragment

end ColumnFilter
