import ColumnFilter.Proofs.RoundTrip.Rendering

/-!
# Spellings joined by a connector

Two filters with a connector between them are a filter.  What is written in the
first stands where it stood, and what is written in the second stands further
right, by the bytes of the first and of the connector (`conditions_join`).
-/

namespace ColumnFilter

open Text

namespace Written

variable (distance : Nat)

/-- The literal in a text that begins `distance` bytes later. -/
def Item.shift (i : Item) : Item :=
  ⟨i.kind, i.lexeme.shift distance⟩

/-- The value in a text that begins `distance` bytes later. -/
def Value.shift : Value → Value
  | single item => single (item.shift distance)
  | list whole items => list (whole.shift distance) (items.map (Item.shift distance))

/-- The condition in a text that begins `distance` bytes later. -/
def Condition.shift (c : Condition) : Condition where
  whole := c.whole.shift distance
  column := c.column.shift distance
  comparator := c.comparator.shift distance
  value := c.value.shift distance

end Written

namespace Spelling

/-! ### Places -/

section LayOut

variable {α β : Type} {chars : α → List Char} {put : Nat → α → β}

theorem layOut_append (as bs : List α) : ∀ start : Nat,
    layOut chars put start (as ++ bs) =
      layOut chars put start as ++ layOut chars put (start + byteLength (as.flatMap chars)) bs := by
  induction as with
  | nil => intro start; rfl
  | cons a as ih =>
    intro start
    rw [List.cons_append, layOut, layOut, ih, List.flatMap_cons, byteLength_append, Nat.add_assoc,
      List.cons_append]

/-- A row that is put down further right is the row moved to the right. -/
theorem layOut_add {distance : Nat} {f : β → β}
    (h : ∀ start a, put (distance + start) a = f (put start a)) (as : List α) : ∀ start : Nat,
    layOut chars put (distance + start) as = (layOut chars put start as).map f := by
  induction as with
  | nil => intro start; rfl
  | cons a as ih =>
    intro start
    rw [layOut, layOut, List.map_cons, h, Nat.add_assoc, ih]

end LayOut

variable (distance start : Nat)

theorem ItemList.written_add (l : ItemList) :
    l.written (distance + start) = (l.written start).shift distance := by
  have hothers : ∀ start,
      layOut NextItem.chars (fun start n => n.item.written (n.itemStart start)) (distance + start)
        l.others =
      (layOut NextItem.chars (fun start n => n.item.written (n.itemStart start)) start
        l.others).map (Written.Item.shift distance) := by
    refine layOut_add ?_ l.others
    intro start n
    simp only [NextItem.itemStart, Nat.add_assoc]
    rfl
  simp only [ItemList.written, ItemList.putItems, Nat.add_assoc, hothers]
  rfl

theorem Comparison.value_add (c : Comparison) :
    c.value (distance + start) = (c.value start).shift distance := by
  cases c with
  | single op gap item takesOne whole => rfl
  | list keyword gap l => exact l.written_add distance start

theorem Condition.written_add (c : Condition) :
    c.written (distance + start) = (c.written start).shift distance := by
  simp only [Condition.written, Condition.valueStart, Condition.comparatorStart, Nat.add_assoc,
    c.comparison.value_add]
  rfl

theorem NextCondition.written_add (n : NextCondition) : n.written (distance + start) =
    ((n.written start).1, (n.written start).2.shift distance) := by
  simp only [NextCondition.written, NextCondition.conditionStart, NextCondition.keywordStart,
    Nat.add_assoc, n.condition.written_add]

/-! ### Joined filters -/

/-- Blanks after blanks. -/
def Gap.append (g h : Gap) : Gap where
  chars := g.chars ++ h.chars
  blank := by
    intro c hc
    rcases List.mem_append.1 hc with hc | hc
    · exact g.blank c hc
    · exact h.blank c hc

/-- The condition of a filter that follows a connector, with a space on both sides of it. -/
def Filter.nextFirst (f : Filter) (k : Connector) (g : Filter) : NextCondition where
  before := f.closing.append .space
  connector := k
  keyword := k.keyword.toList
  after := Gap.space.append g.opening
  condition := g.first
  before_ne_nil := List.append_ne_nil_of_right_ne_nil _ (List.cons_ne_nil _ _)
  isKeyword := asciiLower_keyword k
  after_ne_nil := List.cons_ne_nil _ _

/-- A filter, a connector between two spaces and another filter. -/
def Filter.join (f : Filter) (k : Connector) (g : Filter) : Filter where
  opening := f.opening
  first := f.first
  others := f.others ++ f.nextFirst k g :: g.others
  closing := g.closing

namespace Filter

variable (f : Filter) (k : Connector) (g : Filter)

theorem chars_join : (f.join k g).chars = f.chars ++ k.spaced ++ g.chars := by
  simp [chars, join, nextFirst, NextCondition.chars, Gap.append, Gap.space, Connector.spaced]

theorem connectors_join : (f.join k g).connectors = f.connectors ++ k :: g.connectors := by
  simp [connectors, join, nextFirst]

theorem conditions_join : (f.join k g).written.conditions =
    f.written.conditions ++
      g.written.conditions.map (Written.Condition.shift (byteLength (f.chars ++ k.spaced))) := by
  have hfirst : (f.nextFirst k g).conditionStart
      (f.othersStart + byteLength (f.others.flatMap NextCondition.chars)) =
        byteLength (f.chars ++ k.spaced) + byteLength g.opening.chars := by
    simp [NextCondition.conditionStart, NextCondition.keywordStart, nextFirst, Gap.append,
      Gap.space, othersStart, chars, Connector.spaced]
    omega
  have hothers : f.othersStart + byteLength (f.others.flatMap NextCondition.chars) +
      byteLength (f.nextFirst k g).chars = byteLength (f.chars ++ k.spaced) + g.othersStart := by
    simp [NextCondition.chars, nextFirst, Gap.append, Gap.space, othersStart, chars,
      Connector.spaced]
    omega
  have hsecond : (f.nextFirst k g).written
      (f.othersStart + byteLength (f.others.flatMap NextCondition.chars)) =
        (k, (g.first.written (byteLength g.opening.chars)).shift
          (byteLength (f.chars ++ k.spaced))) := by
    rw [NextCondition.written, hfirst]
    exact congrArg _ (g.first.written_add _ _)
  have hrest : layOut NextCondition.chars NextCondition.written
      (byteLength (f.chars ++ k.spaced) + g.othersStart) g.others =
        g.written.others.map fun p => (p.1, p.2.shift (byteLength (f.chars ++ k.spaced))) :=
    layOut_add (fun start n => n.written_add _ start) g.others _
  show f.first.written (byteLength f.opening.chars) ::
    (layOut NextCondition.chars NextCondition.written f.othersStart
      (f.others ++ f.nextFirst k g :: g.others)).map (·.2) = _
  rw [layOut_append, layOut, hsecond, hothers, hrest]
  simp [Written.Filter.conditions, Filter.written]

end Filter

end Spelling

end ColumnFilter
