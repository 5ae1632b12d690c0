import ColumnFilter.Schema
import Mathlib.Data.List.Induction
import Mathlib.Order.Bounds.Basic

/-!
# Edits and their number

What the edit distance measures.  `Edit` is one insertion, deletion or substitution at any place
of a text, and `Edits n` is a script of `n` of them, one after the other.  The distance is the
least length of a script, and the similar names of a word are those that a script of at most two
edits leads to (`isLeast_editDistance_and_similarNames`).

The proof goes through the `distance` that is given by its equation at the front of both texts.
By that equation an edit of the first text changes no distance by more than one, which bounds
every script from below; read as a choice, it also says how to go on with a shortest script.

The table grows at the other end.  Its row for a prefix holds the distances to the prefixes of the
second text, all of them reversed (`Rows.Holds`), so that what is new in a row stands at the front.
While a row is filled only the places up to the last new one hold anything: what an older prefix
left behind them is overwritten before it is read (`Rows.holdsUpTo_fill`).  After the last row the
distance of the reversed texts is read off (`editDistance_eq_distance_reverse`), and a script can
be reversed as well.
-/

namespace ColumnFilter

namespace Text

variable {α : Type}

/-! ### Scripts -/

/-- One insertion, deletion or substitution of a single element. -/
inductive Edit : List α → List α → Prop where
  | insert (before after : List α) (b : α) : Edit (before ++ after) (before ++ b :: after)
  | delete (before after : List α) (a : α) : Edit (before ++ a :: after) (before ++ after)
  | substitute (before after : List α) (a b : α) :
      Edit (before ++ a :: after) (before ++ b :: after)

/-- A script of some number of edits, one after the other. -/
inductive Edits : Nat → List α → List α → Prop where
  | refl (as : List α) : Edits 0 as as
  | head {n : Nat} {as bs cs : List α} : Edit as bs → Edits n bs cs → Edits (n + 1) as cs

/-- The same edit behind one more element. -/
theorem Edit.cons {as bs : List α} (c : α) (h : Edit as bs) : Edit (c :: as) (c :: bs) := by
  cases h with
  | insert before after b => exact .insert (c :: before) after b
  | delete before after a => exact .delete (c :: before) after a
  | substitute before after a b => exact .substitute (c :: before) after a b

theorem Edits.cons {n : Nat} {as bs : List α} (c : α) (h : Edits n as bs) :
    Edits n (c :: as) (c :: bs) := by
  induction h with
  | refl as => exact .refl (c :: as)
  | head hedit _ ih => exact .head (hedit.cons c) ih

/-- The same edit, seen from the other end. -/
theorem Edit.reverse {as bs : List α} (h : Edit as bs) : Edit as.reverse bs.reverse := by
  cases h with
  | insert before after b =>
    simpa using Edit.insert after.reverse before.reverse b
  | delete before after a =>
    simpa using Edit.delete after.reverse before.reverse a
  | substitute before after a b =>
    simpa using Edit.substitute after.reverse before.reverse a b

theorem Edits.reverse {n : Nat} {as bs : List α} (h : Edits n as bs) :
    Edits n as.reverse bs.reverse := by
  induction h with
  | refl as => exact .refl as.reverse
  | head hedit _ ih => exact .head hedit.reverse ih

theorem edits_reverse_iff {n : Nat} {as bs : List α} :
    Edits n as.reverse bs.reverse ↔ Edits n as bs := by
  refine ⟨fun h => ?_, Edits.reverse⟩
  simpa only [List.reverse_reverse] using h.reverse

variable [DecidableEq α]

/-! ### The distance at the front -/

/-- The distance, by what becomes of the first elements: one of them is deleted or inserted, or
they are put in the place of each other. -/
def distance : List α → List α → Nat
  | [], bs => bs.length
  | _ :: as, [] => as.length + 1
  | a :: as, b :: bs =>
    min (min (distance as (b :: bs) + 1) (distance (a :: as) bs + 1))
      (distance as bs + if a = b then 0 else 1)
termination_by as bs => as.length + bs.length

theorem distance_nil_left (bs : List α) : distance [] bs = bs.length := by
  rw [distance]

theorem distance_nil_right (as : List α) : distance as [] = as.length := by
  cases as with
  | nil => rw [distance_nil_left]
  | cons a as => rw [distance, List.length_cons]

theorem distance_cons_cons (a b : α) (as bs : List α) :
    distance (a :: as) (b :: bs) =
      min (min (distance as (b :: bs) + 1) (distance (a :: as) bs + 1))
        (distance as bs + if a = b then 0 else 1) := by
  rw [distance]

/-! ### No script is shorter -/

theorem distance_self (as : List α) : distance as as = 0 := by
  induction as with
  | nil => exact distance_nil_left []
  | cons a as ih =>
    rw [distance_cons_cons, if_pos rfl, ih]
    exact Nat.min_zero _

/-- Whatever the first elements are, the second of them can be inserted. -/
theorem distance_cons_right_le (as : List α) (c : α) (cs : List α) :
    distance as (c :: cs) ≤ distance as cs + 1 := by
  cases as with
  | nil => rw [distance_nil_left, distance_nil_left, List.length_cons]
  | cons a as =>
    rw [distance_cons_cons]
    omega

theorem distance_cons_left_le (a : α) (as cs : List α) :
    distance (a :: as) cs ≤ distance as cs + 1 := by
  cases cs with
  | nil => rw [distance_nil_right, distance_nil_right, List.length_cons]
  | cons c cs =>
    rw [distance_cons_cons]
    omega

theorem distance_le_cons_left (a : α) (as cs : List α) :
    distance as cs ≤ distance (a :: as) cs + 1 := by
  -- a shortest script may begin by inserting elements of `cs`, so the induction is on these
  induction cs with
  | nil =>
    rw [distance_nil_right, distance_nil_right, List.length_cons]
    omega
  | cons c cs ih =>
    have hinsert := distance_cons_right_le as c cs
    rw [distance_cons_cons]
    split <;> omega

/-- An edit that costs at most one at the front costs at most one in all. -/
theorem distance_cons_le {a b : α} {as bs : List α}
    (htail : ∀ cs, distance as cs ≤ distance bs cs + 1)
    (hfront : ∀ c cs, (distance as cs + if a = c then 0 else 1) ≤
      (distance bs cs + if b = c then 0 else 1) + 1) (cs : List α) :
    distance (a :: as) cs ≤ distance (b :: bs) cs + 1 := by
  induction cs with
  | nil =>
    have hlength := htail []
    simp only [distance_nil_right, List.length_cons] at hlength ⊢
    omega
  | cons c cs ih =>
    have hdelete := htail (c :: cs)
    have hkeep := hfront c cs
    rw [distance_cons_cons, distance_cons_cons]
    omega

theorem distance_append_le {as bs : List α}
    (h : ∀ cs, distance as cs ≤ distance bs cs + 1) (before cs : List α) :
    distance (before ++ as) cs ≤ distance (before ++ bs) cs + 1 := by
  induction before generalizing cs with
  | nil => exact h cs
  | cons a before ih =>
    refine distance_cons_le ih (fun c cs => ?_) cs
    have := ih cs
    split <;> omega

/-- **An edit changes no distance by more than one.** -/
theorem Edit.distance_le {as bs : List α} (h : Edit as bs) (cs : List α) :
    distance as cs ≤ distance bs cs + 1 := by
  cases h with
  | insert before after b =>
    exact distance_append_le (distance_le_cons_left b after) before cs
  | delete before after a =>
    exact distance_append_le (distance_cons_left_le a after) before cs
  | substitute before after a b =>
    refine distance_append_le (distance_cons_le (fun _ => Nat.le_succ _) ?_) before cs
    intro c cs
    split <;> split <;> omega

theorem Edits.distance_le_add {n : Nat} {as bs : List α} (h : Edits n as bs) (cs : List α) :
    distance as cs ≤ distance bs cs + n := by
  induction h with
  | refl as => exact Nat.le_refl _
  | head hedit _ ih =>
    have := hedit.distance_le cs
    omega

/-- A script is at least as long as the distance. -/
theorem Edits.distance_le {n : Nat} {as bs : List α} (h : Edits n as bs) :
    distance as bs ≤ n := by
  have := h.distance_le_add bs
  rwa [distance_self, Nat.zero_add] at this

/-! ### A script of that length -/

/-- **The equation of the distance is a choice of the next edit.** -/
theorem edits_distance (as bs : List α) : Edits (distance as bs) as bs := by
  induction as generalizing bs with
  | nil =>
    rw [distance_nil_left]
    induction bs with
    | nil => exact .refl []
    | cons b bs ih => exact .head (.insert [] [] b) (ih.cons b)
  | cons a as ih =>
    induction bs with
    | nil =>
      have hrest := ih []
      rw [distance_nil_right] at hrest ⊢
      exact .head (.delete [] as a) hrest
    | cons b bs ihbs =>
      have hdelete : Edits (distance as (b :: bs) + 1) (a :: as) (b :: bs) :=
        .head (.delete [] as a) (ih (b :: bs))
      have hinsert : Edits (distance (a :: as) bs + 1) (a :: as) (b :: bs) :=
        .head (.insert [] (a :: as) b) (ihbs.cons b)
      have hkeep : Edits (distance as bs + if a = b then 0 else 1) (a :: as) (b :: bs) := by
        split
        next h => exact h ▸ (ih bs).cons a
        next => exact .head (.substitute [] as a b) ((ih bs).cons b)
      rw [distance_cons_cons]
      exact min_rec' (fun n => Edits n (a :: as) (b :: bs))
        (min_rec' (fun n => Edits n (a :: as) (b :: bs)) hdelete hinsert) hkeep

/-! ### The table -/

namespace Rows

variable {bs : List α}

/-- The places of a row up to `k` hold the distances from a text to the reversed prefixes. -/
def HoldsUpTo (row : Vector Nat (bs.length + 1)) (as : List α) (k : Nat) : Prop :=
  ∀ (j : Nat) (h : j ≤ bs.length), j ≤ k → row[j] = distance as (bs.take j).reverse

/-- The row that was filled last holds all the distances from a text. -/
def Holds (rows : Rows bs.length) (as : List α) : Prop :=
  HoldsUpTo rows.previous as bs.length

theorem holds_initial : (initial bs.length).Holds ([] : List α) := by
  intro j h _
  show (Vector.range (bs.length + 1))[j] = _
  rw [Vector.getElem_range, distance_nil_left, List.length_reverse, List.length_take,
    Nat.min_eq_left h]

/-- **A turn fills one more place**, from the place before it in its own row and from two places
of the row before. -/
theorem holdsUpTo_fill {rows : Rows bs.length} {as : List α} (h : rows.Holds as) (a : α) :
    ∀ (k : Nat) (hk : k ≤ bs.length), HoldsUpTo (rows.fill as.length a k hk) (a :: as) k := by
  intro k
  induction k with
  | zero =>
    intro _ j _ hj
    obtain rfl := Nat.le_zero.1 hj
    rw [fill, Vector.getElem_set_self, List.take_zero, List.reverse_nil, distance_nil_right,
      List.length_cons]
  | succ k ih =>
    intro hk j hj hjk
    have hbefore := ih (Nat.le_of_succ_le hk)
    rcases Nat.le_succ_iff.1 hjk with hold | rfl
    · rw [fill, Vector.getElem_set_ne _ _ (by omega)]
      exact hbefore j hj hold
    · have hprefix : (bs.take (k + 1)).reverse = bs[k] :: (bs.take k).reverse := by
        rw [List.take_succ_eq_append_getElem hk, List.reverse_append]
        rfl
      rw [fill, Vector.getElem_set_self, h (k + 1) hk hk, h k (by omega) (by omega),
        hbefore k (by omega) (Nat.le_refl k), hprefix, distance_cons_cons]

theorem Holds.advance {rows : Rows bs.length} {as : List α} (h : rows.Holds as) (a : α) :
    (rows.advance as.length a).Holds (a :: as) :=
  holdsUpTo_fill h a bs.length (Nat.le_refl _)

/-- **The last row holds the distances from the whole text**, reversed. -/
theorem holds_run (as bs : List α) : (run as bs).Holds as.reverse := by
  induction as using List.reverseRecOn with
  | nil => exact holds_initial
  | append_singleton as a ih =>
    have hrun : run (as ++ [a]) bs = (run as bs).advance as.reverse.length a := by
      rw [run, List.zipIdx_append, List.foldl_append, List.length_reverse, Nat.zero_add]
      rfl
    rw [hrun, List.reverse_append]
    exact ih.advance a

end Rows

theorem editDistance_eq_distance_reverse (as bs : List α) :
    editDistance as bs = distance as.reverse bs.reverse := by
  have hlast := Rows.holds_run as bs bs.length (Nat.le_refl _) (Nat.le_refl _)
  rwa [List.take_length] at hlast

/-- **The distance is the least number of edits.** -/
theorem isLeast_editDistance (as bs : List α) :
    IsLeast {n | Edits n as bs} (editDistance as bs) := by
  rw [editDistance_eq_distance_reverse]
  constructor
  · exact edits_reverse_iff.1 (edits_distance as.reverse bs.reverse)
  · exact fun _ h => h.reverse.distance_le

example : editDistance "kitten".toList "sitting".toList = 3 := by decide +kernel

end Text

/-! ### Similar names -/

/-- A script of at most two edits leads from one name to the other, both in lower case. -/
def IsSimilar (word name : String) : Prop :=
  ∃ n ≤ 2, Text.Edits n (Text.lower word).toList (Text.lower name).toList

theorem isSimilar_iff {word name : String} : IsSimilar word name ↔
    Text.editDistance (Text.lower word).toList (Text.lower name).toList ≤ 2 := by
  have hleast := Text.isLeast_editDistance (Text.lower word).toList (Text.lower name).toList
  constructor
  · rintro ⟨n, hn, hedits⟩
    exact (hleast.2 hedits).trans hn
  · intro h
    exact ⟨_, h, hleast.1⟩

theorem mem_similarNames {word name : String} {known : List String} :
    name ∈ similarNames word known ↔ name ∈ known ∧ IsSimilar word name := by
  rw [similarNames, List.mem_filter, decide_eq_true_iff, isSimilar_iff]

/-- A similar name is listed as often as it is known. -/
theorem count_similarNames {word name : String} (known : List String) (h : IsSimilar word name) :
    (similarNames word known).count name = known.count name :=
  List.count_filter (decide_eq_true (isSimilar_iff.1 h))

/-- **The distance is the least number of single edits, and the names that are offered for a word
are those within two edits of it**: every one of them as often as it is known and no other, in
the order and the spelling in which they are known. -/
theorem isLeast_editDistance_and_similarNames :
    (∀ a b : String, IsLeast {n | Text.Edits n a.toList b.toList}
      (Text.editDistance a.toList b.toList)) ∧
    ∀ (word : String) (known : List String),
      (similarNames word known).Sublist known ∧
      (∀ name, IsSimilar word name →
        (similarNames word known).count name = known.count name) ∧
      ∀ name ∈ similarNames word known, IsSimilar word name := by
  refine ⟨fun a b => Text.isLeast_editDistance a.toList b.toList, fun word known => ⟨?_, ?_, ?_⟩⟩
  · exact List.filter_sublist
  · exact fun name h => count_similarNames known h
  · exact fun name h => (mem_similarNames.1 h).2

/-- A name that is known twice, for a word with two of its letters exchanged. -/
theorem isLeast_editDistance_and_similarNames_twice :
    IsSimilar "nmae" "Name" ∧
      (similarNames "nmae" ["Name", "age", "Name", "MAE"]).count "Name" = 2 ∧
      "MAE" ∈ similarNames "nmae" ["Name", "age", "Name", "MAE"] ∧ IsSimilar "nmae" "MAE" := by
  have hsimilar : IsSimilar "nmae" "Name" :=
    ⟨2, Nat.le_refl 2, .head (.substitute ['n'] ['a', 'e'] 'm' 'a')
      (.head (.substitute ['n', 'a'] ['e'] 'a' 'm') (.refl _))⟩
  have hmem : "MAE" ∈ similarNames "nmae" ["Name", "age", "Name", "MAE"] := by decide +kernel
  obtain ⟨-, hcount, hall⟩ :=
    isLeast_editDistance_and_similarNames.2 "nmae" ["Name", "age", "Name", "MAE"]
  exact ⟨hsimilar, hcount "Name" hsimilar, hmem, hall "MAE" hmem⟩

end ColumnFilter
