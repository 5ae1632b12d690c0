import ColumnFilter.Filter.Text
import ColumnFilter.Proofs.Stored.RoundTrip

/-!
# What JSON keeps of a filter

JSON has finite numbers only, and prints `null` for the others without complaint.  So a
filter is printed as the filter with `null` in their place, its `kept` part
(`indentedChars_kept`), and that is what is read back.

The loss can be seen in the canonical text: `null` has a letter `u`, and no other number
is written with one.  So each number that is lost adds one `u` to the text, wherever it
stands (`Filter.count_chars_kept`), and the text remains the same only if no number is
lost (`Filter.text_kept_eq_iff`).
-/

namespace ColumnFilter

/-! ### The part that is kept -/

namespace Scalar

/-- A literal as JSON has it, with `null` for what is no finite number. -/
def kept : Scalar → Scalar
  | number x => if x.isFinite then number x else null
  | s => s

/-- Is the literal a number that JSON has not? -/
def isLost : Scalar → Bool
  | number x => !x.isFinite
  | _ => false

theorem kept_of_isFinite {x : Number} (h : x.isFinite = true) : (number x).kept = number x :=
  if_pos h

theorem kept_of_not_isFinite {x : Number} (h : x.isFinite = false) : (number x).kept = null :=
  if_neg (Bool.eq_false_iff.1 h)

theorem kept_of_not_isLost {s : Scalar} (h : s.isLost = false) : s.kept = s := by
  cases s with
  | number x => exact kept_of_isFinite (by simpa [isLost] using h)
  | _ => rfl

theorem number_of_kept_eq {s : Scalar} {x : Number} (h : s.kept = number x) :
    s = number x ∧ x.isFinite = true := by
  cases s with
  | number y =>
    rw [kept] at h
    split at h
    next hfinite =>
      obtain rfl := number.inj h
      exact ⟨rfl, hfinite⟩
    next => cases h
  | _ => cases h

end Scalar

/-- A value as JSON has it. -/
def Value.kept : Value → Value
  | single x => single x.kept
  | list xs => list (xs.map Scalar.kept)

theorem Value.items_kept (v : Value) : v.kept.items = v.items.map Scalar.kept := by
  cases v <;> rfl

theorem Value.kept_eq_self {v : Value} (h : ∀ s ∈ v.items, s.isLost = false) : v.kept = v := by
  cases v with
  | single x => exact congrArg single (Scalar.kept_of_not_isLost (h x (List.mem_singleton_self x)))
  | list xs =>
    have hitems : xs.map Scalar.kept = xs.map id :=
      List.map_congr_left fun x hx => Scalar.kept_of_not_isLost (h x hx)
    rw [kept, hitems, List.map_id]

/-- A condition as JSON has it. -/
def Condition.kept (c : Condition) : Condition :=
  ⟨c.column, c.operator, c.value.kept⟩

theorem Condition.kept_eq_self {c : Condition} (h : ∀ s ∈ c.value.items, s.isLost = false) :
    c.kept = c := by
  rw [kept, Value.kept_eq_self h]

/-- A filter as JSON has it. -/
def Filter.kept (f : Filter) : Filter :=
  ⟨f.conditions.map Condition.kept, f.connectors⟩

/-! ### It is printed as the whole -/

namespace Json

theorem indentedChars_array_map {α : Type} {write write' : α → Json} {xs : List α} {level : Nat}
    (h : ∀ x ∈ xs, indentedChars (level + 1) (write x) = indentedChars (level + 1) (write' x)) :
    indentedChars level (.array (xs.map write)) = indentedChars level (.array (xs.map write')) := by
  have hitems : (xs.map write).map (fun v => newLine (level + 1) ++ indentedChars (level + 1) v) =
      (xs.map write').map (fun v => newLine (level + 1) ++ indentedChars (level + 1) v) := by
    rw [List.map_map, List.map_map]
    exact List.map_congr_left fun x hx => congrArg (newLine (level + 1) ++ ·) (h x hx)
  rw [indentedChars, indentedChars, indentedItems_eq, indentedItems_eq, hitems]

end Json

open Json

theorem Scalar.indentedChars_kept (level : Nat) (s : Scalar) :
    indentedChars level s.kept.toJson = indentedChars level s.toJson := by
  cases s with
  | number x =>
    cases h : x.isFinite with
    | true => rw [kept_of_isFinite h]
    | false =>
      rw [kept_of_not_isFinite h, toJson, toJson, indentedChars, indentedChars,
        numberChars_of_not_isFinite h]
  | _ => rfl

theorem Value.indentedChars_kept (level : Nat) (v : Value) :
    indentedChars level v.kept.toJson = indentedChars level v.toJson := by
  cases v with
  | single x => exact x.indentedChars_kept level
  | list xs =>
    rw [kept, toJson, toJson, List.map_map]
    exact indentedChars_array_map fun x _ => x.indentedChars_kept _

theorem Condition.indentedChars_kept (level : Nat) (c : Condition) :
    indentedChars level c.kept.toJson = indentedChars level c.toJson := by
  simp only [toJson, kept, indentedChars, indentedMembers, c.value.indentedChars_kept]

/-- **A filter and its kept part are printed alike.** -/
theorem Filter.indentedChars_kept (f : Filter) (level : Nat) :
    indentedChars level f.kept.toJson = indentedChars level f.toJson := by
  have hconditions : indentedChars (level + 1) (.array (f.kept.conditions.map Condition.toJson)) =
      indentedChars (level + 1) (.array (f.conditions.map Condition.toJson)) := by
    rw [kept, List.map_map]
    exact indentedChars_array_map fun c _ => c.indentedChars_kept _
  simp only [toJson, indentedChars, indentedMembers] at hconditions ⊢
  rw [hconditions]
  rfl

/-- **What is printed is read back as the kept part**, with or without the end of the line. -/
theorem Filter.ofAnyStored?_indented_line {f : Filter}
    (h : ∀ c ∈ f.conditions, ∀ x, Scalar.number x ∈ c.value.items → x.isFinite = true →
      x.ReadsBack) : ofAnyStored? (f.toJson.indented ++ "\n") = some f.kept := by
  have hprintable : f.kept.toJson.Printable := by
    refine printable_toJson fun c hc x hx => ?_
    obtain ⟨d, hd, rfl⟩ := List.mem_map.1 hc
    rw [Condition.kept, Value.items_kept] at hx
    obtain ⟨s, hs, hkept⟩ := List.mem_map.1 hx
    obtain ⟨rfl, hfinite⟩ := Scalar.number_of_kept_eq hkept
    exact h d hd x hs hfinite
  have hprinted : f.toJson.indented = f.kept.toJson.indented := by
    rw [indented, indented, f.indentedChars_kept]
  rw [ofAnyStored?, hprinted,
    parse?_indented_line hprintable (Nat.le_trans f.kept.depth_toJson (by decide)),
    Option.map_some, ofAnyJson_toJson]

/-! ### The loss in the canonical text -/

namespace Text

theorem count_dropWhile {p : Char → Bool} {c : Char} (h : p c = false) (cs : List Char) :
    (cs.dropWhile p).count c = cs.count c := by
  induction cs with
  | nil => rfl
  | cons d ds ih =>
    by_cases hd : p d = true
    · have hne : d ≠ c := by
        rintro rfl
        rw [h] at hd
        cases hd
      rw [List.dropWhile_cons_of_pos hd, ih, List.count_cons_of_ne hne]
    · rw [List.dropWhile_cons_of_neg hd]

/-- Trimming takes away nothing but white space. -/
theorem count_trimChars {c : Char} (h : isWhiteSpace c = false) (cs : List Char) :
    (trimChars cs).count c = cs.count c := by
  rw [trimChars, List.count_reverse, count_dropWhile h, List.count_reverse, count_dropWhile h]

end Text

/-- A number that is lost is written without the letter that `null` has. -/
theorem Scalar.count_chars_kept (s : Scalar) :
    s.kept.chars.count 'u' = s.chars.count 'u' + [s].countP isLost := by
  cases s with
  | number x =>
    cases x with
    | finite negative m hm =>
      rw [kept_of_isFinite rfl]
      rfl
    | infinite negative => cases negative <;> decide
    | notANumber => decide
  | _ => rfl

theorem Value.count_chars_kept (v : Value) :
    v.kept.chars.count 'u' = v.chars.count 'u' + v.items.countP Scalar.isLost := by
  have hitems : ∀ xs : List Scalar,
      ([',', ' '].intercalate ((xs.map Scalar.kept).map Scalar.chars)).count 'u' =
        ([',', ' '].intercalate (xs.map Scalar.chars)).count 'u' + xs.countP Scalar.isLost := by
    intro xs
    induction xs with
    | nil => rfl
    | cons x xs ih =>
      have hx := x.count_chars_kept
      cases xs with
      | nil =>
        simpa using hx
      | cons y ys =>
        rw [List.countP_singleton] at hx
        simp only [List.map_cons, List.intercalate_cons_cons, List.count_append,
          List.countP_cons] at ih hx ⊢
        omega
  cases v with
  | single x => exact x.count_chars_kept
  | list xs =>
    simp only [kept, chars, items, List.count_cons, List.count_append, hitems]
    omega

theorem Condition.count_chars_kept (c : Condition) :
    c.kept.chars.count 'u' = c.chars.count 'u' + c.value.items.countP Scalar.isLost := by
  simp only [chars, kept, List.count_append, List.count_cons, c.value.count_chars_kept]
  omega

namespace Filter

theorem count_joined_kept (cs : List Condition) (ks : List Connector) :
    (joined (cs.map Condition.kept) ks).count 'u' =
      (joined cs ks).count 'u' + (cs.flatMap (·.value.items)).countP Scalar.isLost := by
  induction cs generalizing ks with
  | nil => rfl
  | cons c cs ih =>
    have hc := c.count_chars_kept
    cases cs with
    | nil =>
      simpa [joined] using hc
    | cons d ds =>
      cases ks with
      | nil =>
        have hrest := ih []
        simp only [List.map_cons, joined, List.count_append, List.flatMap_cons,
          List.countP_append] at hc hrest ⊢
        omega
      | cons k ks =>
        have hrest := ih ks
        simp only [List.map_cons, joined, List.count_append, List.flatMap_cons,
          List.countP_append] at hc hrest ⊢
        omega

/-- **Every number that is lost adds one letter `u` to the canonical text.** -/
theorem count_chars_kept (f : Filter) : f.kept.chars.count 'u' =
    f.chars.count 'u' + (f.conditions.flatMap (·.value.items)).countP Scalar.isLost := by
  have hwhite : Text.isWhiteSpace 'u' = false := by decide
  rw [chars, chars, Text.count_trimChars hwhite, Text.count_trimChars hwhite, kept,
    count_joined_kept]

theorem kept_eq_self {f : Filter}
    (h : ∀ c ∈ f.conditions, ∀ s ∈ c.value.items, s.isLost = false) : f.kept = f := by
  have hconditions : f.conditions.map Condition.kept = f.conditions :=
    (List.map_congr_left fun c hc => Condition.kept_eq_self (h c hc)).trans (List.map_id' _)
  rw [kept, hconditions]

/-- **The canonical text remains the same exactly if no number is lost.** -/
theorem text_kept_eq_iff (f : Filter) : f.kept.text = f.text ↔
    ∀ c ∈ f.conditions, ∀ x, Scalar.number x ∈ c.value.items → x.isFinite = true := by
  constructor
  · intro h c hc x hx
    have hcount := f.count_chars_kept
    rw [show f.kept.chars = f.chars from String.ofList_injective h] at hcount
    have hnone : (f.conditions.flatMap (·.value.items)).countP Scalar.isLost = 0 := by omega
    have hlost := List.countP_eq_zero.1 hnone _ (List.mem_flatMap.2 ⟨c, hc, hx⟩)
    simpa [Scalar.isLost] using hlost
  · intro h
    rw [kept_eq_self]
    intro c hc s hs
    cases s with
    | number x =>
      rw [Scalar.isLost, h c hc x hs]
      rfl
    | _ => rfl

end Filter

end ColumnFilter
