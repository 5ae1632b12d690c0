import ColumnFilter.Proofs.Grammar.Attempts
import ColumnFilter.Proofs.Spelling.Reading
import ColumnFilter.Proofs.Text.Slice

/-!
# The byte that a rejection points at

A rejection is a place between two characters, because rules are tried only where the text
has been cut (`Pattern.tries_anywhere`).  What is shown there is a single byte: the first one
of the character behind the place, or the last one of the text if nothing is behind it.  So
the byte belongs to a character of the text, and it is cut out with that character if it is
all of it.  A character that takes more bytes is cut apart (`Span.PointsAt.isBoundary_iff`).
-/

namespace ColumnFilter

open Text

/-! ### Places between characters -/

namespace Pattern

/-- Rules are tried between two characters, whatever the pattern. -/
theorem tries_anywhere (p : Pattern) : Tries (fun _ _ => True) (fun _ _ => True) p := by
  have hlead : ∀ q : Pattern, Leads (fun _ _ => True) (fun _ _ => True) q :=
    fun _ _ _ _ _ _ => trivial
  induction p with
  | empty => exact fun _ _ _ _ h => h
  | one accepts => exact (Silent.one accepts).tries
  | seq p q ihp ihq => exact ihp.seq (hlead p) ihq
  | alt p q ihp ihq => exact ihp.alt ihq
  | star p ih => exact ih.star (hlead p)
  | notAhead p _ => exact fun _ _ _ _ h => h
  | finish => exact fun _ _ _ _ h => h
  | leaf r p _ => exact .leaf fun _ _ _ => trivial
  | node r p ih => exact ih.node fun _ _ _ => trivial

end Pattern

theorem Grammar.exists_place_rejection (rule : Rule) (text : String) :
    ∃ front back, front ++ back = text.toList ∧
      (rejection rule text).place = .point (byteLength front) := by
  have hwithin := (pattern rule).tries_anywhere [] text.toList .origin trivial
    Frontier.within_origin
  obtain ⟨front, back, htext, hoffset, -⟩ := hwithin.place
  exact ⟨front, back, htext, congrArg Place.point hoffset⟩

/-! ### The byte that is shown -/

namespace Span

/-- The span is one byte of a character: its first one, or the last one of the text. -/
inductive PointsAt (text : String) (c : Char) : Span → Prop
  | first {before after : List Char} : text.toList = before ++ c :: after →
      PointsAt text c ⟨byteLength before, byteLength before + 1⟩
  | last {before : List Char} : text.toList = before ++ [c] →
      PointsAt text c ⟨size text - 1, size text⟩

namespace PointsAt

variable {text : String} {c : Char} {span : Span}

theorem start_lt_stop (h : span.PointsAt text c) : span.start < span.stop := by
  cases h with
  | first _ => exact Nat.lt_succ_self _
  | @last before htext =>
    have hpos := c.utf8Size_pos
    have hsize : size text = byteLength before + c.utf8Size := by
      rw [size, htext]
      simp
    dsimp only
    omega

theorem stop_le (h : span.PointsAt text c) : span.stop ≤ size text := by
  cases h with
  | @first before after htext =>
    have hpos := c.utf8Size_pos
    rw [size, htext]
    simp only [byteLength_append, byteLength_cons]
    omega
  | last _ => exact Nat.le_refl _

/-- All of a character of one byte is shown. -/
theorem cut?_eq (h : span.PointsAt text c) (hsize : c.utf8Size = 1) :
    span.cut? text = some (String.ofList [c]) := by
  have hpiece : size (String.ofList [c]) = 1 := by
    rw [size, String.toList_ofList]
    simp [hsize]
  cases h with
  | @first before after htext =>
    refine cut?_eq_some_iff.2 ⟨before, after, ?_, rfl, ?_⟩
    · rw [htext, String.toList_ofList]
      rfl
    · rw [hpiece]
  | @last before htext =>
    have hlength : size text = byteLength before + 1 := by
      rw [size, htext]
      simp [hsize]
    refine cut?_eq_some_iff.2 ⟨before, [], ?_, ?_, ?_⟩
    · rw [htext, String.toList_ofList]
      rfl
    · dsimp only
      omega
    · dsimp only
      omega

/-- **The byte is between two boundaries exactly if its character takes no other.** -/
theorem isBoundary_iff (h : span.PointsAt text c) :
    IsBoundary text span.start ∧ IsBoundary text span.stop ↔ c.utf8Size = 1 := by
  have hpos := c.utf8Size_pos
  constructor
  · rintro ⟨⟨front, back, hfront, hstart⟩, front', back', hfront', hstop⟩
    -- no boundary is between the two ends of a character
    cases h with
    | @first before after htext =>
      obtain ⟨piece, rfl, hpiece⟩ := exists_append_of_byteLength_le
        (htext.symm.trans hfront'.symm) (by dsimp only at hstop; omega)
      cases piece with
      | nil => simp at hstop
      | cons d piece =>
        obtain ⟨rfl, -⟩ := List.cons.inj hpiece
        simp only [byteLength_append, byteLength_cons] at hstop
        omega
    | @last before htext =>
      have hlength : size text = byteLength before + c.utf8Size := by
        rw [size, htext]
        simp
      obtain ⟨piece, rfl, hpiece⟩ := exists_append_of_byteLength_le
        (htext.symm.trans hfront.symm) (by dsimp only at hstart; omega)
      cases piece with
      | nil =>
        simp only [List.append_nil] at hstart
        omega
      | cons d piece =>
        obtain ⟨rfl, -⟩ := List.cons.inj hpiece
        simp only [byteLength_append, byteLength_cons] at hstart
        omega
  · intro hsize
    have hcut := isSome_cut?_iff.1 (Option.isSome_iff_exists.2 ⟨_, h.cut?_eq hsize⟩)
    exact hcut.2

end PointsAt

end Span

/-- A place between two characters is shown by a byte of one next to it, if there is one. -/
theorem Place.pointsAt_shown {text : String} {front back : List Char}
    (htext : front ++ back = text.toList) (hne : text ≠ "") :
    ∃ c, ((point (byteLength front)).shown (size text)).PointsAt text c := by
  have hsize : size text = byteLength front + byteLength back := by
    rw [size, ← htext, byteLength_append]
  cases back with
  | cons c after =>
    have hpos := c.utf8Size_pos
    rw [byteLength_cons] at hsize
    rw [shown, if_pos (by omega)]
    exact ⟨c, .first htext.symm⟩
  | nil =>
    rw [List.append_nil] at htext
    rw [byteLength_nil, Nat.add_zero] at hsize
    rcases List.eq_nil_or_concat front with rfl | ⟨before, c, rfl⟩
    · exact absurd (String.toList_eq_nil_iff.1 htext.symm) hne
    · have hpos := c.utf8Size_pos
      have hlength : 0 < byteLength (before ++ [c]) := by
        simp only [byteLength_append, byteLength_cons]
        omega
      rw [List.concat_eq_append] at htext hsize ⊢
      rw [shown, if_neg (by omega), if_pos hlength, ← hsize]
      exact ⟨c, .last htext.symm⟩

/-! ### Texts that do not follow the grammar -/

theorem utf8Size_eq_one_iff {c : Char} : c.utf8Size = 1 ↔ c.toNat < 0x80 := by
  rw [Char.utf8Size_eq_one_iff, UInt32.le_iff_toNat_le]
  exact Nat.lt_succ_iff.symm

/-- What is shown of a text that a rule does not match. -/
theorem Fault.pointsAt_of_ofRejection {rule : Rule} {text : String} {shown : Span} {atEnd : Bool}
    {position : Position} {complaint : Complaint}
    (hcause : (ofRejection (Grammar.rejection rule text) text).cause =
      .malformed shown atEnd position complaint) :
    (text = "" ∧ shown = ⟨0, 0⟩) ∨ ∃ c, shown.PointsAt text c := by
  obtain ⟨front, back, htext, hplace⟩ := Grammar.exists_place_rejection rule text
  rw [ofRejection, hplace] at hcause
  obtain ⟨rfl, -⟩ := Cause.malformed.inj hcause
  by_cases hne : text = ""
  · subst hne
    obtain ⟨rfl, -⟩ := List.append_eq_nil_iff.1 htext
    exact .inl ⟨rfl, rfl⟩
  · exact .inr (Place.pointsAt_shown htext hne)

/-- **A text that is no filter, or no condition, is shown a byte of one of its characters**, in
the text and with both ends at boundaries exactly if the character is one of ASCII, which is
then what is cut out.  Only a text without characters is shown nothing. -/
theorem pointsAt_of_malformed {text : String} {fault : Fault} {shown : Span} {atEnd : Bool}
    {position : Position} {complaint : Complaint}
    (h : Written.readFilter text = .error fault ∨ Written.readCondition text = .error fault)
    (hcause : fault.cause = .malformed shown atEnd position complaint) :
    (text = "" ∧ shown = ⟨0, 0⟩) ∨
      ∃ c, shown.PointsAt text c ∧ shown.start < shown.stop ∧ shown.stop ≤ size text ∧
        (IsBoundary text shown.start ∧ IsBoundary text shown.stop ↔ c.toNat < 0x80) ∧
        (c.toNat < 0x80 → shown.cut? text = some (String.ofList [c])) := by
  have hpoints : (text = "" ∧ shown = ⟨0, 0⟩) ∨ ∃ c, shown.PointsAt text c := by
    rcases h with h | h
    · obtain ⟨-, rfl⟩ := readFilter_eq_error.1 h
      exact Fault.pointsAt_of_ofRejection hcause
    · obtain ⟨-, rfl⟩ := Written.readCondition_eq_error.1 h
      exact Fault.pointsAt_of_ofRejection hcause
  rcases hpoints with hempty | ⟨c, hc⟩
  · exact .inl hempty
  · refine .inr ⟨c, hc, hc.start_lt_stop, hc.stop_le, ?_, ?_⟩
    · rw [hc.isBoundary_iff, utf8Size_eq_one_iff]
    · intro hascii
      exact hc.cut?_eq (utf8Size_eq_one_iff.2 hascii)

/-- A text that is not closed, behind letters of two bytes.  Its quote is what is shown. -/
theorem pointsAt_of_malformed_quote :
    ∃ fault, Written.readFilter "a = 'né' or b = \"ü" = .error fault ∧
      fault.cause = .malformed ⟨17, 18⟩ false ⟨1, 17⟩
        (.expected [.itemString, .itemBoolean, .itemNumber]) ∧
      ∃ c, Span.PointsAt "a = 'né' or b = \"ü" c ⟨17, 18⟩ ∧
        (IsBoundary "a = 'né' or b = \"ü" 17 ∧ IsBoundary "a = 'né' or b = \"ü" 18 ↔
          c.toNat < 0x80) := by
  have h : Written.readFilter "a = 'né' or b = \"ü" = .error
      ⟨.malformed ⟨17, 18⟩ false ⟨1, 17⟩ (.expected [.itemString, .itemBoolean, .itemNumber]),
        "a = 'né' or b = \"ü"⟩ := by
    decide +kernel
  refine ⟨_, h, rfl, ?_⟩
  rcases pointsAt_of_malformed (.inl h) rfl with ⟨hempty, -⟩ | ⟨c, hc, -, -, hboundary, -⟩
  · exact absurd hempty (by decide)
  · exact ⟨c, hc, hboundary⟩

/-- A letter of two bytes is cut apart. -/
theorem malformed_cuts_character :
    ∃ fault, Written.readFilter "é" = .error fault ∧
      fault.cause = .malformed ⟨0, 1⟩ false ⟨1, 1⟩ (.expected [.column]) ∧
      ¬IsBoundary "é" 1 ∧ (Span.mk 0 1).cut? "é" = none := by
  have h : Written.readFilter "é" = .error
      ⟨.malformed ⟨0, 1⟩ false ⟨1, 1⟩ (.expected [.column]), "é"⟩ := by
    decide +kernel
  exact ⟨_, h, rfl, by decide, by decide⟩

end ColumnFilter
