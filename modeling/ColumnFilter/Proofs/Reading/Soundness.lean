import ColumnFilter.Proofs.RoundTrip.Canonical

/-!
# Parsed filters are well typed

`Condition.TypedAs` is what those who evaluate a filter may rely on: the column
is declared, the operator is one of its type, the value is a list exactly if the
operator takes one, and its literals are of the type.  Every condition of a
parsed filter is typed in this way (`typedAs_of_parse`).

Lists on columns of numbers are left out on purpose: their literals are never
refused, and each becomes the value it looks like.
-/

namespace ColumnFilter

/-- The type of the columns that hold a value; `null` may stand in any of them. -/
def Scalar.type? : Scalar → Option ColumnType
  | null => none
  | boolean _ => some .boolean
  | number _ => some .number
  | text _ => some .string

/-- Is the value `null` or of the type? -/
def Scalar.IsOf (type : ColumnType) (x : Scalar) : Prop :=
  x = .null ∨ x.type? = some type

/-- A condition on a declared column of a type, with an operator and a value of that type. -/
structure Condition.TypedAs (s : Schema) (type : ColumnType) (c : Condition) : Prop where
  mem_names : c.column ∈ s.names
  typeOf_eq : s.typeOf c.column = some type
  allows : type.allows c.operator = true
  isList_eq : c.value.isList = c.operator.takesList
  single : ∀ x, c.value = .single x → x.IsOf type
  list : ∀ xs, c.value = .list xs → xs ≠ [] ∧ type ≠ .boolean
  listOfTexts : ∀ xs, c.value = .list xs → type = .string → ∀ x ∈ xs, x.IsOf .string

namespace Scalar

variable {type : ColumnType} {x : Scalar}

theorem isOf_of_fits (h : x.fits type = true) : x.IsOf type := by
  cases x with
  | null => exact .inl rfl
  | boolean b => cases type <;> first | exact .inr rfl | cases h
  | number n => cases type <;> first | exact .inr rfl | cases h
  | text t => cases type <;> first | exact .inr rfl | cases h

theorem isOf_of_fitsList (h : x.fitsList .string = true) : x.IsOf .string := by
  cases x with
  | null => exact .inl rfl
  | text t => exact .inr rfl
  | boolean b => cases h
  | number n => cases h

end Scalar

/-- No operator of truth values takes a list. -/
theorem ColumnType.allowsList_boolean (op : Operator) : boolean.allowsList op = false := by
  cases op <;> rfl

theorem Condition.typedAs_of_admits {s : Schema} {type : ColumnType} {c : Condition}
    (hname : c.column ∈ s.names) (htype : s.typeOf c.column = some type)
    (h : type.admits c.operator c.value = true) : c.TypedAs s type := by
  obtain ⟨column, op, value⟩ := c
  cases value with
  | single x =>
    rw [ColumnType.admits, ColumnType.allowsSingle, Bool.and_eq_true, Bool.and_eq_true,
      Bool.not_eq_true'] at h
    obtain ⟨⟨hsingle, hallows⟩, hfits⟩ := h
    refine ⟨hname, htype, hallows, hsingle.symm, ?_, ?_, ?_⟩
    · rintro _ ⟨⟩
      exact Scalar.isOf_of_fits hfits
    · rintro xs ⟨⟩
    · rintro xs ⟨⟩
  | list xs =>
    rw [ColumnType.admits, Bool.and_eq_true, Bool.and_eq_true, List.all_eq_true,
      Bool.not_eq_true', List.isEmpty_eq_false_iff] at h
    obtain ⟨⟨hlist, hne⟩, hfits⟩ := h
    have hboolean : type ≠ .boolean := by
      rintro rfl
      rw [ColumnType.allowsList_boolean] at hlist
      cases hlist
    rw [ColumnType.allowsList, Bool.and_eq_true] at hlist
    refine ⟨hname, htype, hlist.2, hlist.1.symm, ?_, ?_, ?_⟩
    · rintro x ⟨⟩
    · rintro _ ⟨⟩
      exact ⟨hne, hboolean⟩
    · rintro _ ⟨⟩ rfl x hx
      exact Scalar.isOf_of_fitsList (hfits x hx)

/-- **Every parsed filter has one connector in every gap and is well typed.** -/
theorem typedAs_of_parse {s : Schema} {text : String} {f : Filter} (h : s.parse text = .ok f) :
    f.connectors.length = f.conditions.length - 1 ∧
      ∀ c ∈ f.conditions, ∃ type, c.TypedAs s type := by
  rw [Schema.parse_eq_ok] at h
  split at h
  · subst h
    exact ⟨rfl, fun c hc => (List.not_mem_nil hc).elim⟩
  · obtain ⟨hlength, hconditions⟩ := exists_readCondition_of_readTrimmed h
    refine ⟨by omega, fun c hc => ?_⟩
    obtain ⟨w, start, hread⟩ := hconditions c hc
    obtain ⟨hresolve, type, htype, hadmits⟩ := admits_of_readCondition hread
    exact ⟨type, Condition.typedAs_of_admits (List.mem_of_find?_eq_some hresolve) htype hadmits⟩

/-- A list, a number and a truth value. -/
theorem typedAs_of_parse_mixed :
    ∃ f, (Schema.ofColumns [⟨"Name", .string⟩, ⟨"age", .number⟩, ⟨"ok", .boolean⟩]).parse
        "name not in (Ann, null) and AGE >= -0e1 or ok = TRUE" = .ok f ∧ f.conditions.length = 3 ∧
      f.connectors.length = f.conditions.length - 1 ∧ ∀ c ∈ f.conditions, ∃ type, c.TypedAs
        (Schema.ofColumns [⟨"Name", .string⟩, ⟨"age", .number⟩, ⟨"ok", .boolean⟩]) type := by
  have h : (Schema.ofColumns [⟨"Name", .string⟩, ⟨"age", .number⟩, ⟨"ok", .boolean⟩]).parse
      "name not in (Ann, null) and AGE >= -0e1 or ok = TRUE" =
        .ok ⟨[⟨"Name", .noneOf, .list [.text "Ann", .null]⟩,
          ⟨"age", .greaterOrEqual, .single (.number (.finite true 0 isDouble_zero))⟩,
          ⟨"ok", .equal, .single (.boolean true)⟩], [.and, .or]⟩ := by
    decide +kernel
  exact ⟨_, h, rfl, typedAs_of_parse h⟩

end ColumnFilter
