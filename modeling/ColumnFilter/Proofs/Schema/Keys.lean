import ColumnFilter.Proofs.Schema.Declaration
import Mathlib.Data.List.Pairwise

/-!
# The keys of types

A schema that is given as a whole may have its types under keys in any spelling.  A type is
looked up under the lower-case name, and then by a scan over all keys.  `Answers` says which
entries this leads to, wherever they stand: those under the very lower-case name, or else those
under a key that equals it without regard to case.  If they agree, the order of the entries does
not matter (`typeOf_eq_some_iff`).

As long as no two keys are equal without regard to case (`KeysApart`), a column has the type that
is held under a key of its lower case, whichever way is taken.  So the spelling of the keys does
not matter either (`parse_lowerKeys`).

Reading asks a schema for nothing but its names and what `resolve` and `typeOf` say of the
columns of a text.  `parse_eq_or_of_readCondition` compares two schemas which read each
condition alike, up to faults of some kind.
-/

namespace ColumnFilter

open Text

namespace Schema

variable {s s' : Schema} {column : String} {type type' : ColumnType}

/-! ### Entries that answer for a column -/

/-- The type is held under a key that equals the column without regard to case. -/
def Holds (s : Schema) (column : String) (type : ColumnType) : Prop :=
  ∃ entry ∈ s.types, sameIgnoringCase entry.1 column = true ∧ entry.2 = type

/-- The type is held under the lower-case form of the column, or there is no such key and it is
held under another one. -/
def Answers (s : Schema) (column : String) (type : ColumnType) : Prop :=
  (lower column, type) ∈ s.types ∨
    (∀ held, (lower column, held) ∉ s.types) ∧ s.Holds column type

theorem holds_of_mem (h : (lower column, type) ∈ s.types) : s.Holds column type := by
  refine ⟨_, h, ?_, rfl⟩
  rw [sameIgnoringCase_iff, lower_lower]

theorem Answers.holds (h : s.Answers column type) : s.Holds column type := by
  rcases h with h | ⟨-, h⟩
  · exact holds_of_mem h
  · exact h

theorem answers_of_typeOf (h : s.typeOf column = some type) : s.Answers column type := by
  rw [typeOf, Option.or_eq_some_iff] at h
  rcases h with hexact | ⟨hnone, hscan⟩
  · obtain ⟨before, after, htypes, -⟩ := List.lookup_eq_some_iff.1 hexact
    left
    rw [htypes]
    exact List.mem_append_right _ (List.mem_cons_self ..)
  · obtain ⟨entry, hfound, htype⟩ := Option.map_eq_some_iff.1 hscan
    have hkey := List.find?_some hfound
    refine .inr ⟨fun held hheld => ?_, entry, List.mem_of_find?_eq_some hfound, hkey, htype⟩
    exact bne_iff_ne.1 (List.lookup_eq_none_iff.1 hnone _ hheld) rfl

/-- **The entries that answer for a column give its type**, if they agree. -/
theorem typeOf_eq_some_iff
    (hone : ∀ type type', s.Answers column type → s.Answers column type' → type = type') :
    s.typeOf column = some type ↔ s.Answers column type := by
  refine ⟨answers_of_typeOf, fun h => ?_⟩
  obtain ⟨entry, hmem, hkey, -⟩ := h.holds
  obtain ⟨found, hfound⟩ :=
    Option.isSome_iff_exists.1 (isSome_typeOf_iff.2 ⟨entry, hmem, hkey⟩)
  rw [hfound, hone found type (answers_of_typeOf hfound) h]

theorem typeOf_eq_of_answers
    (hone : ∀ type type', s.Answers column type → s.Answers column type' → type = type')
    (h : ∀ type, s'.Answers column type ↔ s.Answers column type) :
    s'.typeOf column = s.typeOf column := by
  have hone' : ∀ type type', s'.Answers column type → s'.Answers column type' → type = type' :=
    fun type type' htype htype' => hone type type' ((h type).1 htype) ((h type').1 htype')
  ext type
  rw [typeOf_eq_some_iff hone, typeOf_eq_some_iff hone', h]

/-- Where one type is held, there is one answer. -/
theorem answers_iff_holds
    (hone : ∀ type type', s.Holds column type → s.Holds column type' → type = type') :
    s.Answers column type ↔ s.Holds column type := by
  refine ⟨Answers.holds, fun h => ?_⟩
  by_cases hexact : ∃ held, (lower column, held) ∈ s.types
  · obtain ⟨held, hheld⟩ := hexact
    obtain rfl := hone held type (holds_of_mem hheld) h
    exact .inl hheld
  · exact .inr ⟨fun held hheld => hexact ⟨held, hheld⟩, h⟩

/-- The order of the entries does not matter. -/
theorem answers_iff_of_perm (h : s'.types.Perm s.types) :
    s'.Answers column type ↔ s.Answers column type := by
  simp only [Answers, Holds, h.mem_iff]

/-! ### Keys that are apart -/

/-- No two keys of types are equal without regard to case. -/
def KeysApart (s : Schema) : Prop :=
  s.types.Pairwise fun entry other => sameIgnoringCase entry.1 other.1 = false

instance (s : Schema) : Decidable s.KeysApart :=
  inferInstanceAs (Decidable (List.Pairwise _ _))

theorem KeysApart.holds_unique (h : s.KeysApart) (type type' : ColumnType)
    (htype : s.Holds column type) (htype' : s.Holds column type') : type = type' := by
  obtain ⟨entry, hmem, hkey, rfl⟩ := htype
  obtain ⟨other, hmem', hkey', rfl⟩ := htype'
  by_contra hne
  have : Std.Symm fun entry other : String × ColumnType =>
      sameIgnoringCase entry.1 other.1 = false := by
    refine ⟨fun entry other hentry => ?_⟩
    rwa [sameIgnoringCase_comm]
  have hapart := h.forall hmem hmem' fun heq => hne (congrArg Prod.snd heq)
  rw [sameIgnoringCase_iff] at hkey hkey'
  exact Bool.false_ne_true (hapart.symm.trans (sameIgnoringCase_iff.2 (hkey.trans hkey'.symm)))

/-- The same names, and the same types under keys in lower case. -/
def lowerKeys (s : Schema) : Schema :=
  ⟨s.names, s.types.map fun entry => (lower entry.1, entry.2)⟩

theorem holds_lowerKeys_iff : s.lowerKeys.Holds column type ↔ s.Holds column type := by
  have hkey : ∀ entry : String × ColumnType,
      sameIgnoringCase (lower entry.1) column = sameIgnoringCase entry.1 column := by
    intro entry
    rw [sameIgnoringCase, sameIgnoringCase, lower_lower]
  simp only [Holds, lowerKeys, List.mem_map, exists_exists_and_eq_and, hkey]

/-! ### Schemas that read alike -/

variable {excused : Cause → Prop}

theorem readConditions_eq_or_of_readCondition {ws : List Written.Condition}
    (h : ∀ w ∈ ws, s'.readCondition w = s.readCondition w ∨
      ∃ cause, excused cause ∧ s.readCondition w = .error cause) :
    s'.readConditions ws = s.readConditions ws ∨
      ∃ cause, excused cause ∧ s.readConditions ws = .error cause := by
  induction ws with
  | nil => exact .inl rfl
  | cons w ws ih =>
    rw [List.forall_mem_cons] at h
    rcases h.1 with hw | ⟨cause, hcause, hw⟩
    · rw [readConditions, readConditions, hw]
      cases s.readCondition w with
      | error cause => exact .inl rfl
      | ok c =>
        rcases ih h.2 with hws | ⟨cause, hcause, hws⟩
        · rw [hws]
          exact .inl rfl
        · rw [hws]
          exact .inr ⟨cause, hcause, rfl⟩
    · refine .inr ⟨cause, hcause, ?_⟩
      rw [readConditions, hw]

/-- **Schemas that read each condition alike read each text alike.**  Where the first of them
gives an excused fault, nothing is asked of the second one. -/
theorem parse_eq_or_of_readCondition
    (h : ∀ w, s'.readCondition w = s.readCondition w ∨
      ∃ cause, excused cause ∧ s.readCondition w = .error cause) (text : String) :
    s'.parse text = s.parse text ∨
      ∃ fault, excused fault.cause ∧ s.parse text = .error fault := by
  by_cases hempty : (trim text).isEmpty = true
  · exact .inl ((if_pos hempty).trans (if_pos hempty).symm)
  rw [parse_of_not_isEmpty hempty, parse_of_not_isEmpty hempty]
  unfold readTrimmed
  cases Written.readFilter (trim text) with
  | error fault => exact .inl rfl
  | ok w =>
    have hconditions := readConditions_eq_or_of_readCondition fun c (_ : c ∈ w.conditions) => h c
    rcases hconditions with hws | ⟨cause, hcause, hws⟩
    · left
      simp only [hws]
    · right
      simp only [hws]
      exact ⟨_, hcause, rfl⟩

theorem readCondition_congr (hnames : s'.names = s.names)
    (htype : ∀ column, s'.typeOf column = s.typeOf column) (w : Written.Condition) :
    s'.readCondition w = s.readCondition w := by
  have hresolve : s'.resolve = s.resolve := by
    funext column
    rw [resolve, resolve, hnames]
  simp only [readCondition_eq, hresolve, htype, hnames]

/-- A schema is known by its names and by the types of the columns. -/
theorem parse_congr (hnames : s'.names = s.names)
    (htype : ∀ column, s'.typeOf column = s.typeOf column) (text : String) :
    s'.parse text = s.parse text := by
  have halike : ∀ w, s'.readCondition w = s.readCondition w ∨
      ∃ cause, False ∧ s.readCondition w = .error cause :=
    fun w => .inl (readCondition_congr hnames htype w)
  refine (parse_eq_or_of_readCondition halike text).resolve_right ?_
  rintro ⟨-, hfalse, -⟩
  exact hfalse

end Schema

/-- **The spelling of the keys of types does not matter.**  A schema no two keys of which are
equal without regard to case reads every text as the one with the keys in lower case, in any
order of its entries. -/
theorem parse_lowerKeys {s : Schema} (h : s.KeysApart) {types : List (String × ColumnType)}
    (htypes : types.Perm s.lowerKeys.types) :
    (∀ column, (Schema.mk s.names types).typeOf column = s.typeOf column) ∧
      ∀ text, (Schema.mk s.names types).parse text = s.parse text ∧
        (Schema.mk s.names types).accepts text = s.accepts text := by
  have htype : ∀ column, (Schema.mk s.names types).typeOf column = s.typeOf column := by
    intro column
    have hone : ∀ type type', s.lowerKeys.Holds column type → s.lowerKeys.Holds column type' →
        type = type' := by
      intro type type' htype htype'
      rw [Schema.holds_lowerKeys_iff] at htype htype'
      exact h.holds_unique type type' htype htype'
    refine Schema.typeOf_eq_of_answers
      (fun type type' htype htype' => h.holds_unique type type' htype.holds htype'.holds)
      fun type => ?_
    have hperm : (Schema.mk s.names types).types.Perm s.lowerKeys.types := htypes
    rw [Schema.answers_iff_of_perm hperm, Schema.answers_iff_holds hone,
      Schema.holds_lowerKeys_iff, Schema.answers_iff_holds h.holds_unique]
  have hnames : (Schema.mk s.names types).names = s.names := rfl
  refine ⟨htype, fun text => ?_⟩
  have hparse := Schema.parse_congr hnames htype text
  refine ⟨hparse, ?_⟩
  rw [Schema.accepts, Schema.accepts, Schema.check, Schema.check, hparse]

/-- The Kelvin sign as a key, of which the lower case is the ASCII letter. -/
theorem parse_lowerKeys_kelvin :
    ∃ f, (Schema.mk ["Score", "k"] [("Score", .number), ("\u212A", .boolean)]).parse
        "score > 0 or K = True" = .ok f ∧ f.conditions.length = 2 ∧
      (Schema.mk ["Score", "k"] [("Score", .number), ("\u212A", .boolean)]).KeysApart ∧
      (Schema.mk ["Score", "k"] [("k", .boolean), ("score", .number)]).parse
        "score > 0 or K = True" = .ok f := by
  have hparse : (Schema.mk ["Score", "k"] [("Score", .number), ("\u212A", .boolean)]).parse
      "score > 0 or K = True" =
        .ok ⟨[⟨"Score", .greater, .single (.number (.finite false 0 isDouble_zero))⟩,
          ⟨"k", .equal, .single (.boolean true)⟩], [.or]⟩ := by
    decide +kernel
  have hapart : (Schema.mk ["Score", "k"]
      [("Score", .number), ("\u212A", .boolean)]).KeysApart := by
    decide +kernel
  have hperm : [("k", ColumnType.boolean), ("score", .number)].Perm
      (Schema.mk ["Score", "k"] [("Score", .number), ("\u212A", .boolean)]).lowerKeys.types := by
    decide +kernel
  obtain ⟨-, htext⟩ := parse_lowerKeys hapart hperm
  exact ⟨_, hparse, rfl, hapart, (htext _).1.trans hparse⟩

end ColumnFilter
