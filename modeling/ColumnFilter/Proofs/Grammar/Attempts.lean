import ColumnFilter.Grammar.Rejection
import ColumnFilter.Proofs.Grammar.Matching

/-!
# Where rules are tried

What the report of a rejected text says about the text comes from where its
rules were tried.  `Tries mayTry pre p` says that at a place with the property
`pre` the pattern `p` tries each rule only where it may be tried, in its
abandoned alternatives and half-matched repetitions as well.  It has one rule
for each way to compose patterns; in a sequence the second pattern is tried
where the first one leads to (`Leads`), and a repetition goes on from places
that a step leads back to (`Tries.star`).

A report may drop rules at its place and put the rule around them in their
stead.  Since that rule may be tried there too, it does not matter which of them
are dropped, so nothing has to be known about the number of attempts.
-/

namespace ColumnFilter

open Text

/-- After a number of bytes a text is cut in one way only. -/
theorem eq_of_byteLength_eq {front back front' back' : List Char}
    (h : front ++ back = front' ++ back') (hlength : byteLength front = byteLength front') :
    front = front' := by
  rw [← before_byteLength_append front back, h, hlength, before_byteLength_append]

/-! ### Reports -/

namespace Frontier

/-- A report that names only rules which may be tried at its place in the text.  The text
before the place decides which these are. -/
structure Within (mayTry : Rule → List Char → Prop) (cs : List Char) (f : Frontier) : Prop where
  offset_eq_zero : f.rules = [] → f.offset = 0
  place : ∃ front back, front ++ back = cs ∧ f.offset = byteLength front ∧
    ∀ r ∈ f.rules, mayTry r front

variable {mayTry : Rule → List Char → Prop} {cs front back : List Char} {f : Frontier} {r : Rule}
  {rules : List Rule} {before : Nat}

theorem within_origin : origin.Within mayTry cs :=
  ⟨fun _ => rfl, [], cs, rfl, rfl, nofun⟩

theorem within_of_ne_nil (hne : rules ≠ []) (h : ∀ r ∈ rules, mayTry r front) :
    Within mayTry (front ++ back) ⟨byteLength front, rules⟩ :=
  ⟨fun hnil => absurd hnil hne, front, back, rfl, rfl, h⟩

namespace Within

theorem mayTry_of_mem (h : f.Within mayTry (front ++ back)) (hplace : byteLength front = f.offset) :
    ∀ r ∈ f.rules, mayTry r front := by
  obtain ⟨front', back', hcs, hoffset, hrules⟩ := h.place
  rwa [eq_of_byteLength_eq hcs (hoffset.symm.trans hplace.symm)] at hrules

theorem add (h : f.Within mayTry (front ++ back)) (hr : mayTry r front) :
    (f.add r (byteLength front)).Within mayTry (front ++ back) := by
  unfold Frontier.add
  split_ifs with hlt heq
  · refine within_of_ne_nil (List.cons_ne_nil _ _) fun s hs => ?_
    rwa [List.mem_singleton.1 hs]
  · refine within_of_ne_nil (by simp) fun s hs => ?_
    rcases List.mem_append.1 hs with hs | hs
    · exact h.mayTry_of_mem heq s hs
    · rwa [List.mem_singleton.1 hs]
  · exact h

/-- It does not matter which rules give way to the rule around them. -/
theorem close (h : f.Within mayTry (front ++ back)) (hr : mayTry r front) :
    (f.close r before (byteLength front)).Within mayTry (front ++ back) := by
  unfold Frontier.close Frontier.keep
  split_ifs with hone heq
  · exact h
  · rw [Frontier.add, if_neg (by simp [heq]), if_pos heq]
    refine within_of_ne_nil (by simp) fun s hs => ?_
    rcases List.mem_append.1 hs with hs | hs
    · exact h.mayTry_of_mem heq s (List.mem_of_mem_take hs)
    · rwa [List.mem_singleton.1 hs]
  · exact h.add hr

/-- A rule that has failed at the first byte leaves a report that names some rule. -/
theorem rules_close_ne_nil (h : f.Within mayTry cs) : (f.close r before 0).rules ≠ [] := by
  unfold Frontier.close Frontier.keep
  split_ifs with hone heq
  · intro hnil
    simp [countAt, hnil] at hone
  · simp [Frontier.add, ← heq]
  · have hpos : 0 < f.offset := by omega
    rw [Frontier.add, if_neg (by omega), if_neg heq]
    exact fun hnil => hpos.ne' (h.offset_eq_zero hnil)

end Within

end Frontier

/-! ### Patterns -/

namespace Pattern

/-- Where `pre` holds of the text before a place and of the text behind it, each rule that the
pattern tries in vain may be tried where it is. -/
def Tries (mayTry : Rule → List Char → Prop) (pre : List Char → List Char → Prop) (p : Pattern) :
    Prop :=
  ∀ front back f, pre front back → Frontier.Within mayTry (front ++ back) f →
    (failures p (byteLength front) back f).Within mayTry (front ++ back)

/-- From a place where `pre` holds a match of the pattern leads to one where `post` holds. -/
def Leads (pre post : List Char → List Char → Prop) (p : Pattern) : Prop :=
  ∀ front back m, pre front back → run p (byteLength front) back = some m →
    post (front ++ m.text) m.rest

/-- A pattern of which no failure is reported. -/
def Silent (p : Pattern) : Prop :=
  ∀ start cs f, failures p start cs f = f

variable {mayTry : Rule → List Char → Prop} {pre mid post : List Char → List Char → Prop}
  {p q : Pattern} {r : Rule}

/-- A match moves the place within one and the same text. -/
theorem append_text_append_rest {front back : List Char} {m : Match} {start : Nat}
    (h : run p start back = some m) : front ++ m.text ++ m.rest = front ++ back := by
  rw [List.append_assoc, text_append_rest h]

/-- What a step leads back to is where the whole repetition leads. -/
theorem Leads.star (hp : Leads pre pre p) : Leads pre pre (star p) := by
  have hsteps : ∀ bound front back, pre front back →
      pre (front ++ (repeatMatch (run p) bound (byteLength front) back).text)
        (repeatMatch (run p) bound (byteLength front) back).rest := by
    intro bound
    induction bound with
    | nil =>
      intro front back hpre
      rwa [repeatMatch, List.append_nil]
    | cons _ bound ih =>
      intro front back hpre
      rw [repeatMatch]
      cases h : run p (byteLength front) back with
      | none => rwa [List.append_nil]
      | some m =>
        have hothers := ih _ _ (hp _ _ _ hpre h)
        rwa [byteLength_append, List.append_assoc] at hothers
  intro front back m hpre h
  obtain rfl := Option.some.inj h
  exact hsteps back front back hpre

namespace Silent

theorem one (accepts : Char → Bool) : Silent (one accepts) := fun _ _ _ => rfl

theorem seq (hp : Silent p) (hq : Silent q) : Silent (seq p q) := by
  intro start cs f
  rw [failures]
  cases run p start cs with
  | none => exact hp start cs f
  | some m => exact (hq _ _ _).trans (hp start cs f)

theorem star (hp : Silent p) : Silent (star p) := by
  have hsteps : ∀ bound start cs f,
      repeatFailures (run p) (failures p) bound start cs f = f := by
    intro bound
    induction bound with
    | nil => exact hp
    | cons _ bound ih =>
      intro start cs f
      rw [repeatFailures]
      cases run p start cs with
      | none => exact hp start cs f
      | some m => exact (ih _ _ _).trans (hp start cs f)
  exact fun start cs f => hsteps cs start cs f

theorem tries (hp : Silent p) : Tries mayTry pre p := by
  intro front back f _ hf
  rwa [hp]

end Silent

namespace Tries

theorem imp (h : ∀ front back, pre front back → mid front back) (hp : Tries mayTry mid p) :
    Tries mayTry pre p :=
  fun front back f hpre hf => hp front back f (h front back hpre) hf

theorem leaf (h : ∀ front back, pre front back → mayTry r front) :
    Tries mayTry pre (leaf r p) := by
  intro front back f hpre hf
  rw [failures]
  split
  · exact hf.add (h front back hpre)
  · exact hf

theorem node (h : ∀ front back, pre front back → mayTry r front) (hp : Tries mayTry pre p) :
    Tries mayTry pre (node r p) := by
  intro front back f hpre hf
  rw [failures]
  split
  · exact (hp _ _ _ hpre hf).close (h front back hpre)
  · exact hp _ _ _ hpre hf

/-- A node that fails at the first byte leaves some rule in the report. -/
theorem rules_failures_node_ne_nil {cs : List Char} (hp : Tries mayTry pre p) (hpre : pre [] cs)
    (h : run (Pattern.node r p) 0 cs = none) :
    (failures (Pattern.node r p) 0 cs .origin).rules ≠ [] := by
  rw [run, Option.map_eq_none_iff] at h
  rw [failures, h]
  exact (hp [] cs .origin hpre Frontier.within_origin).rules_close_ne_nil

/-- The second pattern is tried where the first one leads to. -/
theorem seq (hp : Tries mayTry pre p) (hlead : Leads pre mid p) (hq : Tries mayTry mid q) :
    Tries mayTry pre (seq p q) := by
  intro front back f hpre hf
  rw [failures]
  cases h : run p (byteLength front) back with
  | none => exact hp _ _ _ hpre hf
  | some m =>
    have hfirst := hp _ _ _ hpre hf
    rw [← append_text_append_rest h] at hfirst ⊢
    have hsecond := hq _ _ _ (hlead _ _ _ hpre h) hfirst
    rwa [byteLength_append] at hsecond

theorem alt (hp : Tries mayTry pre p) (hq : Tries mayTry pre q) : Tries mayTry pre (alt p q) := by
  intro front back f hpre hf
  rw [failures]
  split
  · exact hq _ _ _ hpre (hp _ _ _ hpre hf)
  · exact hp _ _ _ hpre hf

/-- **A repetition tries its body again and again** where a step leads back to, and the last
of these attempts fails. -/
theorem star (hp : Tries mayTry pre p) (hlead : Leads pre pre p) : Tries mayTry pre (star p) := by
  intro front back f hpre hf
  rw [failures]
  -- the invariant holds at every place that the repetition comes to, however long its bound
  suffices ∀ bound front back f, pre front back → Frontier.Within mayTry (front ++ back) f →
      (repeatFailures (run p) (failures p) bound (byteLength front) back f).Within mayTry
        (front ++ back) from this back front back f hpre hf
  intro bound
  induction bound with
  | nil => exact hp
  | cons _ bound ih =>
    intro front back f hpre hf
    rw [repeatFailures]
    cases h : run p (byteLength front) back with
    | none => exact hp _ _ _ hpre hf
    | some m =>
      have hstep := hp _ _ _ hpre hf
      rw [← append_text_append_rest h] at hstep ⊢
      have hothers := ih _ _ _ (hlead _ _ _ hpre h) hstep
      rwa [byteLength_append] at hothers

end Tries

end Pattern

end ColumnFilter
