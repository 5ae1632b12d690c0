import ColumnFilter.Proofs.Schema.Keys
import Mathlib.Data.List.Nodup

/-!
# One more column

A column that is declared under a new name is no other column's business.  Its name comes last,
so every name that was found is found as before.  Its type comes under a key of its own lower
case, where no other column is looked for, even if a type without a name stood there before
(`answers_insert_iff`).  So the conditions on known columns are read as before, and with them
every text that is not refused for an unknown column (`parse_insert_of_resolve_eq_none`).

A schema is built from one whose keys are apart, such as the empty one, by declarations
(`Built`).  A declaration may put a key in lower case beside another spelling of it, so the keys
of a built schema need not be apart.  But each key is there once, and among the spellings of one
name there is a choice only if the one in lower case is there, which is then taken (`Settled`).
-/

namespace ColumnFilter

open Text

namespace Schema

variable {s : Schema} {key : String} {type : ColumnType} {types : List (String × ColumnType)}

/-! ### What a declaration does to the entries -/

theorem keys_setType : (setType key type types).map (·.1) =
    if key ∈ types.map (·.1) then types.map (·.1) else types.map (·.1) ++ [key] := by
  induction types with
  | nil => rfl
  | cons entry rest ih =>
    rw [setType]
    by_cases hkey : entry.1 = key
    · rw [if_pos hkey, if_pos (by simp [hkey]), List.map_cons, List.map_cons, hkey]
    · have hmem : key ∈ entry.1 :: rest.map (·.1) ↔ key ∈ rest.map (·.1) := by
        rw [List.mem_cons, or_iff_right fun h => hkey h.symm]
      rw [if_neg hkey, List.map_cons, ih, List.map_cons]
      simp only [hmem]
      split
      · rfl
      · rfl

theorem mem_setType_self : (key, type) ∈ setType key type types := by
  induction types with
  | nil => exact List.mem_singleton_self _
  | cons entry rest ih =>
    rw [setType]
    split
    next => exact List.mem_cons_self ..
    next => exact List.mem_cons_of_mem _ ih

theorem mem_setType_of_ne {entry : String × ColumnType} (h : entry.1 ≠ key) :
    entry ∈ setType key type types ↔ entry ∈ types := by
  have hentry : ∀ held, entry ≠ (key, held) := by
    rintro held rfl
    exact h rfl
  induction types with
  | nil => simp [setType, hentry]
  | cons other rest ih =>
    rw [setType]
    split
    next hkey =>
      have hother : entry ≠ other := by
        rintro rfl
        exact h hkey
      rw [List.mem_cons, List.mem_cons, or_iff_right (hentry type), or_iff_right hother]
    next =>
      rw [List.mem_cons, List.mem_cons]
      exact or_congr_right ih

/-- A declaration changes what is held for its own name, in all its spellings, and no more. -/
theorem holds_insert_iff {column : Column} {name : String}
    (h : sameIgnoringCase column.name name = false) :
    (s.insert column).Holds name type ↔ s.Holds name type := by
  have hkey : ∀ entry : String × ColumnType, sameIgnoringCase entry.1 name = true →
      (entry ∈ (s.insert column).types ↔ entry ∈ s.types) := by
    intro entry hentry
    refine mem_setType_of_ne ?_
    rintro heq
    rw [heq, sameIgnoringCase, lower_lower] at hentry
    exact Bool.false_ne_true (h.symm.trans hentry)
  constructor
  · rintro ⟨entry, hmem, hentry, htype⟩
    exact ⟨entry, (hkey entry hentry).1 hmem, hentry, htype⟩
  · rintro ⟨entry, hmem, hentry, htype⟩
    exact ⟨entry, (hkey entry hentry).2 hmem, hentry, htype⟩

theorem answers_insert_iff {column : Column} {name : String}
    (h : sameIgnoringCase column.name name = false) :
    (s.insert column).Answers name type ↔ s.Answers name type := by
  have hexact : ∀ held,
      (lower name, held) ∈ (s.insert column).types ↔ (lower name, held) ∈ s.types := by
    refine fun held => mem_setType_of_ne fun heq => ?_
    rw [Bool.eq_false_iff, Ne, sameIgnoringCase_iff] at h
    exact h heq.symm
  simp only [Answers, hexact, holds_insert_iff h]

/-! ### Schemas that are built -/

/-- Made from a schema that was given with its keys apart, by declarations. -/
inductive Built : Schema → Prop
  | given {s : Schema} : s.KeysApart → Built s
  | insert {s : Schema} (column : Column) : Built s → Built (s.insert column)

theorem Built.ofColumns (columns : List Column) : (ofColumns columns).Built := by
  have hfold : ∀ {s : Schema}, s.Built → (columns.foldl Schema.insert s).Built := by
    induction columns with
    | nil => exact id
    | cons column columns ih => exact fun h => ih (h.insert column)
  exact hfold (.given .nil)

/-- No key is there twice, and a name without a key of its lower case has one type at most. -/
structure Settled (s : Schema) : Prop where
  nodup : (s.types.map (·.1)).Nodup
  unique : ∀ column type type', (∀ held, (lower column, held) ∉ s.types) →
    s.Holds column type → s.Holds column type' → type = type'

namespace Settled

theorem of_keysApart (h : s.KeysApart) : s.Settled := by
  refine ⟨List.pairwise_map.2 (h.imp fun {entry other} hapart heq => ?_), ?_⟩
  · rw [Bool.eq_false_iff, Ne, sameIgnoringCase_iff, heq] at hapart
    exact hapart rfl
  · exact fun column type type' _ => h.holds_unique type type'

theorem insert (h : s.Settled) (column : Column) : (s.insert column).Settled := by
  refine ⟨?_, fun name type type' hnone htype htype' => ?_⟩
  · have hkeys : (s.insert column).types.map (·.1) = _ := keys_setType
    rw [hkeys]
    split
    next => exact h.nodup
    next hmem =>
      rw [List.nodup_append]
      refine ⟨h.nodup, List.pairwise_singleton .., fun found hfound added hadded heq => hmem ?_⟩
      rw [← List.mem_singleton.1 hadded, ← heq]
      exact hfound
  · -- the key of the new entry is in lower case, so the name is another one
    have hother : sameIgnoringCase column.name name = false := by
      rw [Bool.eq_false_iff, Ne, sameIgnoringCase_iff]
      intro hlower
      refine hnone column.type ?_
      rw [← hlower]
      exact mem_setType_self
    rw [holds_insert_iff hother] at htype htype'
    refine h.unique name type type' (fun held hheld => hnone held ?_) htype htype'
    refine (mem_setType_of_ne fun heq => ?_).2 hheld
    rw [Bool.eq_false_iff, Ne, sameIgnoringCase_iff] at hother
    exact hother heq.symm

theorem answers_unique (h : s.Settled) {column : String} (type type' : ColumnType)
    (htype : s.Answers column type) (htype' : s.Answers column type') : type = type' := by
  rcases htype with htype | ⟨hnone, htype⟩
  · rcases htype' with htype' | ⟨hnone, -⟩
    · exact congrArg Prod.snd (List.inj_on_of_nodup_map h.nodup htype htype' rfl)
    · exact absurd htype (hnone type)
  · rcases htype' with htype' | ⟨-, htype'⟩
    · exact absurd htype' (hnone type')
    · exact h.unique column type type' hnone htype htype'

end Settled

theorem Built.settled (h : s.Built) : s.Settled := by
  induction h with
  | given h => exact .of_keysApart h
  | insert column _ ih => exact ih.insert column

/-! ### Reading with one more column -/

/-- **A known column is read as before.**  The entries may come in any order. -/
theorem readCondition_insert (h : s.Settled) {column : Column}
    (hnew : s.resolve column.name = none) (htypes : types.Perm (s.insert column).types)
    {w : Written.Condition} {name : String} (hname : s.resolve w.column.text = some name) :
    (Schema.mk (s.insert column).names types).readCondition w = s.readCondition w := by
  have hother : sameIgnoringCase column.name w.column.text = false := by
    rw [Bool.eq_false_iff]
    intro hsame
    rw [resolve_congr hsame, hname] at hnew
    cases hnew
  have hresolve : (Schema.mk (s.insert column).names types).resolve w.column.text = some name := by
    show (s.insert column).resolve w.column.text = some name
    rw [resolve_insert, hname, Option.some_or]
  have htype : (Schema.mk (s.insert column).names types).typeOf w.column.text =
      s.typeOf w.column.text := by
    refine typeOf_eq_of_answers h.answers_unique fun type => ?_
    have hperm : (Schema.mk (s.insert column).names types).types.Perm (s.insert column).types :=
      htypes
    exact (answers_iff_of_perm hperm).trans (answers_insert_iff hother)
  simp only [readCondition_eq, hresolve, hname, htype]

end Schema

/-- **A new column disturbs nothing else.**  Over a schema that is built, a text that is not
refused for an unknown column is read as it was before one more column was declared under a new
name: as the same filter, or with the same fault. -/
theorem parse_insert_of_resolve_eq_none {s : Schema} (h : s.Built) {column : Column}
    (hnew : s.resolve column.name = none) {types : List (String × ColumnType)}
    (htypes : types.Perm (s.insert column).types) {text : String}
    (hknown : ∀ fault, s.parse text = .error fault →
      ∀ found similar, fault.cause ≠ .unknownColumn found similar) :
    (Schema.mk (s.insert column).names types).parse text = s.parse text := by
  have hread : ∀ w, (Schema.mk (s.insert column).names types).readCondition w =
      s.readCondition w ∨ ∃ cause, (∃ found similar, cause = .unknownColumn found similar) ∧
        s.readCondition w = .error cause := by
    intro w
    cases hname : s.resolve w.column.text with
    | some name => exact .inl (Schema.readCondition_insert h.settled hnew htypes hname)
    | none =>
      refine .inr ⟨_, ⟨w.column, similarNames w.column.text s.names, rfl⟩, ?_⟩
      simp only [Schema.readCondition_eq, hname]
  refine (Schema.parse_eq_or_of_readCondition hread text).resolve_right ?_
  rintro ⟨fault, ⟨found, similar, hcause⟩, hparse⟩
  exact hknown fault hparse found similar hcause

/-- A type without a name gets one.  The text is refused for its second condition, before the
column of the third is missed. -/
theorem parse_insert_of_resolve_eq_none_secondCondition :
    (Schema.mk ["Age"] [("AGE", .number), ("ages", .string)]).KeysApart ∧
      (Schema.mk ["Age"] [("AGE", .number), ("ages", .string)]).resolve "Ages" = none ∧
      (Schema.mk ["Age"] [("AGE", .number), ("ages", .string)]).parse
        "age > 0 and AGE = x or ages = true" =
          .error ⟨.invalidValue "a number or null" ⟨"x", 18⟩, "age > 0 and AGE = x or ages = true"⟩ ∧
      (Schema.mk ["Age", "Ages"] [("ages", .boolean), ("AGE", .number)]).parse
        "age > 0 and AGE = x or ages = true" =
          .error ⟨.invalidValue "a number or null" ⟨"x", 18⟩, "age > 0 and AGE = x or ages = true"⟩ := by
  have hapart : (Schema.mk ["Age"] [("AGE", .number), ("ages", .string)]).KeysApart := by
    decide +kernel
  have hnew : (Schema.mk ["Age"] [("AGE", .number), ("ages", .string)]).resolve
      (Column.mk "Ages" .boolean).name = none := by
    decide +kernel
  have hparse : (Schema.mk ["Age"] [("AGE", .number), ("ages", .string)]).parse
      "age > 0 and AGE = x or ages = true" =
        .error ⟨.invalidValue "a number or null" ⟨"x", 18⟩, "age > 0 and AGE = x or ages = true"⟩ := by
    decide +kernel
  have hinsert : (Schema.mk ["Age"] [("AGE", .number), ("ages", .string)]).insert
      ⟨"Ages", .boolean⟩ = ⟨["Age", "Ages"], [("AGE", .number), ("ages", .boolean)]⟩ := by
    decide +kernel
  refine ⟨hapart, hnew, hparse, ?_⟩
  have htypes : [("ages", ColumnType.boolean), ("AGE", .number)].Perm
      ((Schema.mk ["Age"] [("AGE", .number), ("ages", .string)]).insert
        ⟨"Ages", .boolean⟩).types := by
    rw [hinsert]
    exact .swap ..
  have hknown : ∀ fault, (Schema.mk ["Age"] [("AGE", .number), ("ages", .string)]).parse
      "age > 0 and AGE = x or ages = true" = .error fault →
        ∀ found similar, fault.cause ≠ .unknownColumn found similar := by
    intro fault hfault found similar
    obtain rfl := Except.error.inj (hparse.symm.trans hfault)
    rintro ⟨⟩
  have hsame := parse_insert_of_resolve_eq_none (.given hapart) hnew htypes hknown
  rw [hinsert, hparse] at hsame
  exact hsame

end ColumnFilter
