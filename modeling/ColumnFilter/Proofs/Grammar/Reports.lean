import ColumnFilter.Proofs.Grammar.Attempts

/-!
# What the report of a pattern can be

A report only moves forward (`Pattern.offset_le_failures`), and it drops what it has at a place
when a rule fails behind it.  So the report of a text is known as soon as one rule fails behind
everything that was tried before.  `FailsBefore limit p start cs` says that a pattern tries
nothing in vain at the limit or behind it; what is matched to its end has this property.

`Spares r p` says that a pattern never puts a rule into a report.  A node is put there only if
its own start is the furthest place and not one rule has failed there but several or none; so a
node that begins with a leaf is never reported (`Frontier.close_add`, `Frontier.close_of_lt`).
-/

namespace ColumnFilter

open Text

namespace Frontier

variable {f : Frontier} {r r' : Rule} {place before limit : Nat}

theorem add_of_lt (h : f.offset < place) : f.add r place = ⟨place, [r]⟩ :=
  if_pos h

theorem add_of_offset_lt (h : place < f.offset) : f.add r place = f := by
  rw [add, if_neg h.not_gt, if_neg h.ne]

@[simp] theorem offset_keep (f : Frontier) (count place : Nat) :
    (f.keep count place).offset = f.offset := by
  unfold keep
  split
  · rfl
  · rfl

/-- A failure moves the report to its place, if it was not there or further. -/
theorem offset_add (f : Frontier) (r : Rule) (place : Nat) :
    (f.add r place).offset = max f.offset place := by
  unfold add
  split_ifs with hlt heq
  · exact (max_eq_right hlt.le).symm
  · rw [heq, max_self]
  · exact (max_eq_left (not_lt.1 hlt)).symm

theorem offset_le_close : f.offset ≤ (f.close r before place).offset := by
  unfold close
  split
  · exact Nat.le_refl _
  · rw [offset_add, offset_keep]
    exact le_max_left _ _

theorem offset_close_lt (hf : f.offset < limit) (h : place < limit) :
    (f.close r before place).offset < limit := by
  unfold close
  split
  · exact hf
  · rw [offset_add, offset_keep]
    exact max_lt hf h

/-- A node has no part in a report that has gone on behind its start. -/
theorem close_of_lt (h : place < f.offset) : f.close r before place = f := by
  have hcount : f.countAt place = 0 := if_neg h.ne
  rw [close, hcount, if_neg (by omega), keep, if_neg h.ne, add_of_offset_lt h]

/-- A node that fails by its first leaf leaves the report to the leaf. -/
theorem close_add : (f.add r place).close r' (f.countAt place) place = f.add r place := by
  rcases lt_trichotomy f.offset place with hlt | rfl | hgt
  · have hbefore : f.countAt place = 0 := if_neg hlt.ne'
    rw [add_of_lt hlt, hbefore]
    exact if_pos (if_pos rfl)
  · have hadd : f.add r f.offset = ⟨f.offset, f.rules ++ [r]⟩ := by
      rw [add, if_neg (lt_irrefl _), if_pos rfl]
    have hbefore : f.countAt f.offset = f.rules.length := if_pos rfl
    have hafter : (Frontier.mk f.offset (f.rules ++ [r])).countAt f.offset =
        f.rules.length + 1 := by
      rw [countAt, if_pos rfl, List.length_append, List.length_singleton]
    rw [hadd, hbefore, close, hafter, if_pos (by omega)]
  · rw [add_of_offset_lt hgt, close_of_lt hgt]

theorem mem_add {s : Rule} (h : s ∈ (f.add r place).rules) : s ∈ f.rules ∨ s = r := by
  unfold add at h
  split_ifs at h
  · exact .inr (List.mem_singleton.1 h)
  · exact (List.mem_append.1 h).imp_right List.mem_singleton.1
  · exact .inl h

theorem mem_close {s : Rule} (h : s ∈ (f.close r before place).rules) : s ∈ f.rules ∨ s = r := by
  unfold close at h
  split at h
  · exact .inl h
  · refine (mem_add h).imp_left fun hkeep => ?_
    unfold keep at hkeep
    split at hkeep
    · exact List.mem_of_mem_take hkeep
    · exact hkeep

end Frontier

namespace Pattern

variable {p q : Pattern} {r s : Rule} {start limit : Nat} {cs : List Char} {f : Frontier}

theorem failures_seq_of_some {m : Match} (h : run p start cs = some m) :
    failures (seq p q) start cs f =
      failures q (start + byteLength m.text) m.rest (failures p start cs f) := by
  rw [failures, h]

theorem failures_leaf_of_none (h : run (leaf r p) start cs = none) :
    failures (leaf r p) start cs f = f.add r start := by
  rw [run, Option.map_eq_none_iff] at h
  rw [failures, h]

theorem failures_node_of_none (h : run p start cs = none) :
    failures (node r p) start cs f = (failures p start cs f).close r (f.countAt start) start := by
  rw [failures, h]

/-! ### Forward only -/

/-- **A report only moves forward.** -/
theorem offset_le_failures (p : Pattern) : ∀ (start : Nat) (cs : List Char) (f : Frontier),
    f.offset ≤ (failures p start cs f).offset := by
  induction p with
  | empty => exact fun _ _ _ => Nat.le_refl _
  | one accepts => exact fun _ _ _ => Nat.le_refl _
  | seq p q ihp ihq =>
    intro start cs f
    rw [failures]
    split
    · exact ihp start cs f
    · exact (ihp start cs f).trans (ihq _ _ _)
  | alt p q ihp ihq =>
    intro start cs f
    rw [failures]
    split
    · exact (ihp start cs f).trans (ihq _ _ _)
    · exact ihp start cs f
  | star p ih =>
    have hsteps : ∀ bound start cs f,
        f.offset ≤ (repeatFailures (run p) (failures p) bound start cs f).offset := by
      intro bound
      induction bound with
      | nil => exact ih
      | cons _ bound ihbound =>
        intro start cs f
        rw [repeatFailures]
        split
        · exact ih start cs f
        · exact (ih start cs f).trans (ihbound _ _ _)
    exact fun start cs f => hsteps cs start cs f
  | notAhead p _ => exact fun _ _ _ => Nat.le_refl _
  | finish => exact fun _ _ _ => Nat.le_refl _
  | leaf r p _ =>
    intro start cs f
    rw [failures]
    split
    · rw [Frontier.offset_add]
      exact le_max_left _ _
    · exact Nat.le_refl _
  | node r p ih =>
    intro start cs f
    rw [failures]
    split
    · exact (ih start cs f).trans Frontier.offset_le_close
    · exact ih start cs f

/-- Wherever the pattern does not match, a report comes up to the place at least. -/
def Reported (p : Pattern) : Prop :=
  ∀ start cs f, run p start cs = none → start ≤ (failures p start cs f).offset

namespace Reported

theorem leaf (r : Rule) (p : Pattern) : Reported (leaf r p) := by
  intro start cs f h
  rw [failures_leaf_of_none h, Frontier.offset_add]
  exact le_max_right _ _

theorem star (p : Pattern) : Reported (star p) := by
  intro start cs f h
  cases h

theorem seq (hp : Reported p) (hq : Reported q) : Reported (seq p q) := by
  intro start cs f h
  rw [failures]
  cases hrun : run p start cs with
  | none => exact hp start cs f hrun
  | some m =>
    rw [run_seq_of_some hrun, Option.map_eq_none_iff] at h
    exact (Nat.le_add_right _ _).trans (hq _ _ _ h)

/-- One alternative is enough, since all of them fail. -/
theorem alt (hp : Reported p) : Reported (alt p q) := by
  intro start cs f h
  rw [run, Option.or_eq_none_iff] at h
  rw [failures, h.1]
  exact (hp start cs f h.1).trans (offset_le_failures q start cs _)

end Reported

/-! ### Not behind a limit -/

/-- The pattern tries nothing in vain at the limit or behind it. -/
def FailsBefore (limit : Nat) (p : Pattern) (start : Nat) (cs : List Char) : Prop :=
  ∀ f : Frontier, f.offset < limit → (failures p start cs f).offset < limit

namespace FailsBefore

theorem of_silent (hp : Silent p) : FailsBefore limit p start cs := by
  intro f hf
  rwa [hp]

theorem leaf (h : start < limit) : FailsBefore limit (leaf r p) start cs := by
  intro f hf
  rw [failures]
  split
  · rw [Frontier.offset_add]
    exact max_lt hf h
  · exact hf

/-- A leaf that matches is not tried in vain. -/
theorem leaf_of_some {m : Match} (h : run (Pattern.leaf r p) start cs = some m) :
    FailsBefore limit (Pattern.leaf r p) start cs := by
  intro f hf
  obtain ⟨a, ha, -⟩ := run_leaf_eq_some.1 h
  rw [failures, ha]
  exact hf

theorem node (h : start < limit) (hp : FailsBefore limit p start cs) :
    FailsBefore limit (node r p) start cs := by
  intro f hf
  rw [failures]
  split
  · exact Frontier.offset_close_lt (hp f hf) h
  · exact hp f hf

theorem seq_of_none (h : run p start cs = none) (hp : FailsBefore limit p start cs) :
    FailsBefore limit (seq p q) start cs := by
  intro f hf
  rw [failures, h]
  exact hp f hf

theorem seq_of_some {m : Match} (h : run p start cs = some m) (hp : FailsBefore limit p start cs)
    (hq : FailsBefore limit q (start + byteLength m.text) m.rest) :
    FailsBefore limit (seq p q) start cs := by
  intro f hf
  rw [failures_seq_of_some h]
  exact hq _ (hp f hf)

theorem alt_of_some {m : Match} (h : run p start cs = some m)
    (hp : FailsBefore limit p start cs) : FailsBefore limit (alt p q) start cs := by
  intro f hf
  rw [failures, h]
  exact hp f hf

theorem alt (hp : FailsBefore limit p start cs) (hq : FailsBefore limit q start cs) :
    FailsBefore limit (alt p q) start cs := by
  intro f hf
  rw [failures]
  split
  · exact hq _ (hp f hf)
  · exact hp f hf

/-- A row of pieces that are matched before the limit, and what ends it. -/
theorem star_layOut {α : Type} {chars : α → List Char} (follows : List Char → Prop)
    (hfollows : ∀ a rest, follows (chars a ++ rest))
    (hpiece : ∀ start a rest, follows rest →
      ∃ trees, run p start (chars a ++ rest) = some ⟨chars a, trees, rest⟩)
    (hfails : ∀ start a rest, follows rest → start + byteLength (chars a) ≤ limit →
      FailsBefore limit p start (chars a ++ rest))
    {rest : List Char} (hrest : follows rest) (hstop : ∀ start, run p start rest = none)
    (hlast : ∀ start, FailsBefore limit p start rest) (as : List α) (start : Nat)
    (h : start + byteLength (as.flatMap chars) ≤ limit) :
    FailsBefore limit (star p) start (as.flatMap chars ++ rest) := by
  suffices ∀ (bound : List Char) (as : List α) (start : Nat) (f : Frontier),
      start + byteLength (as.flatMap chars) ≤ limit → f.offset < limit →
      (repeatFailures (run p) (failures p) bound start (as.flatMap chars ++ rest) f).offset <
        limit from fun f hf => this _ as start f h hf
  have hnext := follows_flatMap hfollows hrest
  have hstep : ∀ (as : List α) (start : Nat), start + byteLength (as.flatMap chars) ≤ limit →
      FailsBefore limit p start (as.flatMap chars ++ rest) := by
    intro as start h
    cases as with
    | nil => exact hlast start
    | cons a as =>
      rw [List.flatMap_cons, byteLength_append] at h
      rw [List.flatMap_cons, List.append_assoc]
      exact hfails start a _ (hnext as) (by omega)
  -- the steps go along the row, and the bound may end before it
  intro bound
  induction bound with
  | nil => exact fun as start f h => hstep as start h f
  | cons _ bound ih =>
    intro as start f h hf
    have hfirst := hstep as start h f hf
    rw [repeatFailures]
    cases as with
    | nil =>
      have hnone : run p start ([].flatMap chars ++ rest) = none := hstop start
      rw [hnone]
      exact hfirst
    | cons a as =>
      obtain ⟨trees, hrun⟩ := hpiece start a _ (hnext as)
      rw [List.flatMap_cons, byteLength_append] at h
      rw [List.flatMap_cons, List.append_assoc] at hfirst ⊢
      rw [hrun]
      exact ih as _ _ (by dsimp only; omega) hfirst

end FailsBefore

/-! ### Rules that are not reported -/

/-- The pattern never puts the rule into a report. -/
def Spares (s : Rule) (p : Pattern) : Prop :=
  ∀ start cs f, s ∉ f.rules → s ∉ (failures p start cs f).rules

namespace Spares

theorem of_silent (hp : Silent p) : Spares s p := by
  intro start cs f hf
  rwa [hp]

theorem leaf (h : s ≠ r) : Spares s (leaf r p) := by
  intro start cs f hf
  rw [failures]
  split
  · exact fun hmem => (Frontier.mem_add hmem).elim hf h
  · exact hf

theorem node (h : s ≠ r) (hp : Spares s p) : Spares s (node r p) := by
  intro start cs f hf
  rw [failures]
  split
  · exact fun hmem => (Frontier.mem_close hmem).elim (hp start cs f hf) h
  · exact hp start cs f hf

theorem seq (hp : Spares s p) (hq : Spares s q) : Spares s (seq p q) := by
  intro start cs f hf
  rw [failures]
  split
  · exact hp start cs f hf
  · exact hq _ _ _ (hp start cs f hf)

theorem alt (hp : Spares s p) (hq : Spares s q) : Spares s (alt p q) := by
  intro start cs f hf
  rw [failures]
  split
  · exact hq _ _ _ (hp start cs f hf)
  · exact hp start cs f hf

theorem star (hp : Spares s p) : Spares s (star p) := by
  have hsteps : ∀ bound start cs f, s ∉ f.rules →
      s ∉ (repeatFailures (run p) (failures p) bound start cs f).rules := by
    intro bound
    induction bound with
    | nil => exact hp
    | cons _ bound ih =>
      intro start cs f hf
      rw [repeatFailures]
      split
      · exact hp start cs f hf
      · exact ih _ _ _ (hp start cs f hf)
  exact fun start cs f => hsteps cs start cs f

/-- **A node that begins with a leaf is never reported**, if what follows the leaf is when it
fails: the report is the leaf's, or it is behind the leaf. -/
theorem node_leaf {p₀ : Pattern} (hp₀ : Consuming p₀) (hr : s ≠ r) (hq : Spares s q)
    (hreported : Reported q) : Spares s (Pattern.node s (Pattern.seq (Pattern.leaf r p₀) q)) := by
  intro start cs f hf
  have hseq := (Spares.leaf (p := p₀) hr).seq hq start cs f hf
  rw [failures]
  cases h : run (Pattern.seq (Pattern.leaf r p₀) q) start cs with
  | some m => exact hseq
  | none =>
    cases hleaf : run (Pattern.leaf r p₀) start cs with
    | none =>
      have hadd : failures (Pattern.seq (Pattern.leaf r p₀) q) start cs f = f.add r start := by
        rw [failures, hleaf]
        exact failures_leaf_of_none hleaf
      dsimp only
      rw [hadd, Frontier.close_add]
      rwa [hadd] at hseq
    | some m =>
      have hbehind : start < (failures (Pattern.seq (Pattern.leaf r p₀) q) start cs f).offset := by
        obtain ⟨a, ha, rfl⟩ := run_leaf_eq_some.1 hleaf
        rw [run_seq_of_some hleaf, Option.map_eq_none_iff] at h
        have hle := hreported _ _ (failures (Pattern.leaf r p₀) start cs f) h
        have hpos : 0 < byteLength a.text := byteLength_pos (hp₀ ha)
        rw [failures_seq_of_some hleaf]
        dsimp only at hle ⊢
        omega
      dsimp only
      rw [Frontier.close_of_lt hbehind]
      exact hseq

end Spares

end Pattern

end ColumnFilter
