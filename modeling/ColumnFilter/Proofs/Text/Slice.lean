import ColumnFilter.Text.Offset

/-!
# Cutting a text at bytes

Places count bytes, so a number is not always a place between two characters.
`Text.splitAt?` cuts a text at an offset only if no character is cut, and `Span.cut?`
cuts out the stretch between two offsets.  A stretch can be cut out exactly if both of
its ends are boundaries of characters (`Span.isSome_cut?_iff`), and then it is the piece
of the text that stands there (`Span.cut?_eq_some_iff`).
-/

namespace ColumnFilter

namespace Text

/-- The parts of a text before and behind an offset that falls into no character. -/
def splitAt? : Nat → List Char → Option (List Char × List Char)
  | 0, cs => some ([], cs)
  | _ + 1, [] => none
  | n + 1, c :: cs =>
    if c.utf8Size ≤ n + 1 then
      (splitAt? (n + 1 - c.utf8Size) cs).map fun parts => (c :: parts.1, parts.2)
    else none

/-- A character begins at the offset, or the text ends there. -/
def IsBoundary (text : String) (offset : Nat) : Prop :=
  ∃ front back, front ++ back = text.toList ∧ offset = byteLength front

theorem splitAt?_eq_some_iff {offset : Nat} {cs front back : List Char} :
    splitAt? offset cs = some (front, back) ↔ front ++ back = cs ∧ offset = byteLength front := by
  induction cs generalizing offset front with
  | nil =>
    cases offset with
    | zero =>
      simp only [splitAt?, Option.some.injEq, Prod.mk.injEq, List.append_eq_nil_iff]
      constructor
      · rintro ⟨rfl, rfl⟩
        exact ⟨⟨rfl, rfl⟩, rfl⟩
      · rintro ⟨⟨rfl, rfl⟩, -⟩
        exact ⟨rfl, rfl⟩
    | succ n =>
      simp only [splitAt?, reduceCtorEq, List.append_eq_nil_iff, false_iff, not_and]
      rintro ⟨rfl, -⟩
      simp
  | cons c cs ih =>
    have hpos := c.utf8Size_pos
    cases offset with
    | zero =>
      rw [splitAt?, Option.some.injEq, Prod.mk.injEq]
      constructor
      · rintro ⟨rfl, rfl⟩
        exact ⟨rfl, rfl⟩
      · rintro ⟨happend, hzero⟩
        obtain rfl := byteLength_eq_zero.1 hzero.symm
        exact ⟨rfl, happend.symm⟩
    | succ n =>
      rw [splitAt?, Option.ite_none_right_eq_some, Option.map_eq_some_iff]
      constructor
      · rintro ⟨hle, ⟨front', back'⟩, hsplit, hparts⟩
        obtain ⟨rfl, rfl⟩ := Prod.mk.inj hparts
        obtain ⟨rfl, hlength⟩ := ih.1 hsplit
        refine ⟨rfl, ?_⟩
        dsimp only at hlength ⊢
        rw [byteLength_cons]
        omega
      · rintro ⟨happend, hlength⟩
        cases front with
        | nil => simp at hlength
        | cons d front =>
          obtain ⟨rfl, htail⟩ := List.cons.inj happend
          rw [byteLength_cons] at hlength
          exact ⟨by omega, (front, back), ih.2 ⟨htail, by omega⟩, rfl⟩

theorem isSome_splitAt?_iff {text : String} {offset : Nat} :
    (splitAt? offset text.toList).isSome = true ↔ IsBoundary text offset := by
  rw [Option.isSome_iff_exists]
  constructor
  · rintro ⟨⟨front, back⟩, h⟩
    exact ⟨front, back, splitAt?_eq_some_iff.1 h⟩
  · rintro ⟨front, back, h⟩
    exact ⟨(front, back), splitAt?_eq_some_iff.2 h⟩

instance (text : String) (offset : Nat) : Decidable (IsBoundary text offset) :=
  decidable_of_iff _ isSome_splitAt?_iff

/-- The text before the nearer of two boundaries is the beginning of the text before the other. -/
theorem exists_append_of_byteLength_le {front back front' back' : List Char}
    (h : front ++ back = front' ++ back') (hle : byteLength front ≤ byteLength front') :
    ∃ piece, front' = front ++ piece ∧ back = piece ++ back' := by
  rcases List.append_eq_append_iff.1 h with ⟨piece, hfront, hback⟩ | ⟨piece, rfl, rfl⟩
  · exact ⟨piece, hfront, hback⟩
  · rw [byteLength_append] at hle
    obtain rfl := byteLength_eq_zero.1 (show byteLength piece = 0 by omega)
    exact ⟨[], by simp⟩

end Text

open Text

namespace Span

/-- The piece of a text that a span covers, if the span lies in the text and cuts no character. -/
def cut? (span : Span) (text : String) : Option String :=
  if span.start ≤ span.stop then
    (splitAt? span.start text.toList).bind fun parts =>
      (splitAt? span.length parts.2).map fun parts => String.ofList parts.1
  else none

variable {span : Span} {text piece : String}

theorem cut?_eq_some_iff : span.cut? text = some piece ↔
    ∃ before after, text.toList = before ++ (piece.toList ++ after) ∧
      span.start = byteLength before ∧ span.stop = span.start + size piece := by
  rw [cut?, Option.ite_none_right_eq_some, Option.bind_eq_some_iff]
  constructor
  · rintro ⟨hle, ⟨before, back⟩, hstart, h⟩
    obtain ⟨⟨cs, after⟩, hlength, rfl⟩ := Option.map_eq_some_iff.1 h
    obtain ⟨hcs, hlength⟩ := splitAt?_eq_some_iff.1 hlength
    obtain ⟨htext, hstart⟩ := splitAt?_eq_some_iff.1 hstart
    dsimp only at hcs hlength ⊢
    rw [length] at hlength
    refine ⟨before, after, ?_, hstart, ?_⟩
    · rw [String.toList_ofList, hcs, htext]
    · rw [size, String.toList_ofList]
      omega
  · rintro ⟨before, after, htext, hstart, hstop⟩
    refine ⟨by omega, (before, piece.toList ++ after), ?_, ?_⟩
    · exact splitAt?_eq_some_iff.2 ⟨htext.symm, hstart⟩
    · have hlength : span.length = byteLength piece.toList := by
        rw [length, hstop, Nat.add_sub_cancel_left, size]
      rw [splitAt?_eq_some_iff.2 ⟨rfl, hlength⟩, Option.map_some, String.ofList_toList]

/-- **A span can be cut out exactly if both of its ends are boundaries of characters.** -/
theorem isSome_cut?_iff : (span.cut? text).isSome = true ↔
    span.start ≤ span.stop ∧ IsBoundary text span.start ∧ IsBoundary text span.stop := by
  constructor
  · intro h
    obtain ⟨piece, hpiece⟩ := Option.isSome_iff_exists.1 h
    obtain ⟨before, after, htext, hstart, hstop⟩ := cut?_eq_some_iff.1 hpiece
    refine ⟨by omega, ⟨before, piece.toList ++ after, htext.symm, hstart⟩, ?_⟩
    refine ⟨before ++ piece.toList, after, ?_, ?_⟩
    · rw [htext, List.append_assoc]
    · rw [hstop, hstart, size, byteLength_append]
  · rintro ⟨hle, ⟨front, back, htext, hstart⟩, front', back', htext', hstop⟩
    obtain ⟨piece, rfl, rfl⟩ :=
      exists_append_of_byteLength_le (htext.trans htext'.symm) (by omega)
    rw [byteLength_append] at hstop
    have hcut : span.cut? text = some (String.ofList piece) := by
      refine cut?_eq_some_iff.2 ⟨front, back', ?_, hstart, ?_⟩
      · rw [String.toList_ofList, htext]
      · rw [size, String.toList_ofList]
        omega
    rw [hcut]
    rfl

theorem stop_le_of_cut? (h : span.cut? text = some piece) : span.stop ≤ size text := by
  obtain ⟨before, after, htext, hstart, hstop⟩ := cut?_eq_some_iff.1 h
  rw [hstop, hstart, size, size, htext]
  simp only [byteLength_append]
  omega

end Span

end ColumnFilter
