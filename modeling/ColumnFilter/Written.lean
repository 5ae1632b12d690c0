import ColumnFilter.Fault
import ColumnFilter.Filter.Basic

/-!
# Filters as written

The structure of a filter text before any column is known: literals with their
lexical class, comparators as they are spelled, and the place of every part.  A
written filter is a first condition followed by pairs of a connector and a
condition, so that there is one connector in every gap by its type.

It is put together from the stretches that the grammar marks.  Nothing is taken
for granted there: what does not have the form that it should have is a misfit,
and a misfit is a fault of the program and not of the text.
-/

namespace ColumnFilter.Written

/-- The lexical class of a literal. -/
inductive ItemKind where
  /-- A quoted text, or `null` in lower case. -/
  | string
  /-- A truth value, or `null` in another case. -/
  | boolean
  /-- Any other word. -/
  | number
deriving DecidableEq, Repr

/-- A literal as written. -/
structure Item where
  /-- The lexical class. -/
  kind : ItemKind
  /-- The literal and its place. -/
  lexeme : Lexeme
deriving DecidableEq, Repr

/-- The right-hand side of a condition as written. -/
inductive Value where
  /-- One literal. -/
  | single (item : Item)
  /-- The literals of a list, and the list with its parentheses. -/
  | list (whole : Lexeme) (items : List Item)
deriving DecidableEq, Repr

/-- A condition as written. -/
structure Condition where
  /-- The condition from its column to the end of its value. -/
  whole : Lexeme
  /-- The name of the column. -/
  column : Lexeme
  /-- The comparator in its own spelling. -/
  comparator : Lexeme
  /-- What the column is compared with. -/
  value : Value
deriving DecidableEq, Repr

/-- A filter as written. -/
structure Filter where
  /-- The first condition. -/
  first : Condition
  /-- The further conditions, each with the connector before it. -/
  others : List (Connector × Condition)
deriving DecidableEq, Repr

/-- How marked stretches may fail to have the form that the grammar gives them. -/
inductive Misfit where
  /-- A part is missing that is always there. -/
  | missing (part : String)
  /-- A stretch is no literal. -/
  | notItem (rule : Rule)
  /-- A comparator and the value behind it do not belong together. -/
  | notPaired (comparator value : Rule)
  /-- A stretch is no part of a filter. -/
  | notPart (rule : Rule)
  /-- A word between two conditions is no connector. -/
  | notConnector (word : String)
  /-- A condition ends no further than what was gathered up to a byte offset. -/
  | stalled (reached : Nat)
  /-- There is not one connector in every gap. -/
  | uneven (conditions connectors : Nat)
deriving DecidableEq, Repr

namespace Misfit

/-- What is said about a misfit. -/
def message : Misfit → String
  | missing part => s!"Grammar guarantees {part}"
  | notItem rule => s!"Unexpected item rule: {rule.name}"
  | notPaired comparator value =>
    s!"Unexpected condition shape: {comparator.name} followed by {value.name}"
  | notPart rule => s!"Unexpected filter rule: {rule.name}"
  | notConnector word => s!"Unexpected connector: {word}"
  | stalled reached => s!"condition extraction stalled at byte {reached}"
  | uneven conditions connectors =>
    s!"{conditions} conditions joined by {connectors} connectors"

/-- The fault of a misfit.  Only one that names a place speaks of the text. -/
def fault (source : String) (m : Misfit) : Fault :=
  match m with
  | stalled _ => (Fault.ofInternal m.message).withSource source
  | _ => .ofInternal m.message

end Misfit

namespace Item

/-- The characters of a literal, quotes included. -/
def chars (i : Item) : List Char :=
  i.lexeme.text.toList

/-- Does the literal begin with a quote? -/
def isQuoted (i : Item) : Bool :=
  match i.chars with
  | c :: _ => c == '"' || c == '\''
  | [] => false

/-- The characters between the quotes, or all of them if there are no quotes. -/
def unquotedChars (i : Item) : List Char :=
  if i.isQuoted && 2 ≤ i.chars.length then i.chars.tail.dropLast else i.chars

/-- The text between the quotes, or the whole text if there are no quotes. -/
def unquoted (i : Item) : String :=
  String.ofList i.unquotedChars

/-- Is the literal the word `null` in any case? -/
def isNull (i : Item) : Bool :=
  !i.isQuoted && Text.sameIgnoringAsciiCase i.chars "null".toList

/-- The lexical class of the literals that a rule matches. -/
def kindOf? : Rule → Option ItemKind
  | .itemString => some .string
  | .itemBoolean => some .boolean
  | .itemNumber => some .number
  | _ => none

/-- The literal of a marked stretch. -/
def ofTree (t : Tree) : Except Misfit Item :=
  match kindOf? t.rule with
  | some kind => .ok ⟨kind, t.lexeme⟩
  | none => .error (.notItem t.rule)

end Item

namespace Value

/-- Is the value a list? -/
def isList : Value → Bool
  | single _ => false
  | list .. => true

/-- The literals of a value. -/
def items : Value → List Item
  | single item => [item]
  | list _ items => items

/-- The value with its place. -/
def lexeme : Value → Lexeme
  | single item => item.lexeme
  | list whole _ => whole

/-- The value of a marked stretch, behind the stretch of its comparator. -/
def ofTrees (comparator value : Tree) : Except Misfit Value :=
  match comparator.rule, value.rule with
  | .comparatorSingle, _ => (Item.ofTree value).map single
  | .comparatorMultiple, .itemList =>
    (value.children.mapM Item.ofTree).map (list value.lexeme)
  | comparatorRule, valueRule => .error (.notPaired comparatorRule valueRule)

end Value

namespace Condition

/-- The operator that the comparator stands for. -/
def operator (c : Condition) : Operator :=
  Operator.ofSymbol c.comparator.text

/-- The condition of a marked stretch. -/
def ofTree (t : Tree) : Except Misfit Condition :=
  match t.children with
  | [] => .error (.missing "condition has variable")
  | [_] => .error (.missing "condition has comparator")
  | [_, _] => .error (.missing "condition has value")
  | column :: comparator :: value :: _ =>
    (Value.ofTrees comparator value).map fun v =>
      ⟨t.lexeme, column.lexeme, comparator.lexeme, v⟩

/-- The condition inside the first of some marked stretches. -/
def ofTrees (trees : List Tree) : Except Misfit Condition :=
  match trees.head?.bind (·.children.head?) with
  | some t => ofTree t
  | none => .error (.missing "condition exists")

end Condition

namespace Filter

/-- The conditions, from left to right. -/
def conditions (f : Filter) : List Condition :=
  f.first :: f.others.map (·.2)

/-- The connectors, from left to right. -/
def connectors (f : Filter) : List Connector :=
  f.others.map (·.1)

/-- The filter of conditions with connectors between them, which must be one fewer. -/
def ofParts : List Condition → List Connector → Except Misfit Filter
  | [], connectors => .error (.uneven 0 connectors.length)
  | first :: others, connectors =>
    if connectors.length = others.length then .ok ⟨first, connectors.zip others⟩
    else .error (.uneven (others.length + 1) connectors.length)

end Filter

/-- What was taken from the first stretches of a filter. -/
structure Gathered where
  /-- The conditions, from left to right. -/
  conditions : List Condition
  /-- The connectors, from left to right. -/
  connectors : List Connector
  /-- The byte offset at which the last condition ends. -/
  reached : Nat

namespace Gathered

/-- What was gathered before the first stretch. -/
def empty : Gathered :=
  ⟨[], [], 0⟩

/-- What was gathered with one more stretch.  Each condition has to end behind the last one. -/
def add (g : Gathered) (t : Tree) : Except Misfit Gathered :=
  match t.rule with
  | .condition =>
    if t.span.stop ≤ g.reached then .error (.stalled g.reached)
    else (Condition.ofTree t).map fun c =>
      { g with conditions := g.conditions ++ [c], reached := t.span.stop }
  | .connector =>
    match Connector.ofKeyword? (String.ofList t.text) with
    | some k => .ok { g with connectors := g.connectors ++ [k] }
    | none => .error (.notConnector (String.ofList t.text))
  | .endOfInput => .ok g
  | rule => .error (.notPart rule)

end Gathered

/-- The filter of the first of some marked stretches. -/
def Filter.ofTrees : List Tree → Except Misfit Filter
  | [] => .error (.missing "filter exists")
  | t :: _ =>
    (t.children.foldlM Gathered.add .empty).bind fun g => ofParts g.conditions g.connectors

/-- What is built from the stretches that a rule marks at the front of a text. -/
def readBy {α : Type} (rule : Rule) (build : List Tree → Except Misfit α) (text : String) :
    Except Fault α :=
  match Grammar.read rule text with
  | .error rejection => .error (.ofRejection rejection text)
  | .ok trees => (build trees).mapError (Misfit.fault text)

section

variable {α : Type} {rule : Rule} {build : List Tree → Except Misfit α} {text : String}

theorem readBy_of_run_eq_none (h : (Grammar.pattern rule).run 0 text.toList = none) :
    readBy rule build text = .error (.ofRejection (Grammar.rejection rule text) text) := by
  rw [readBy, Grammar.read, h]

theorem readBy_of_run_eq_some {m : Match}
    (h : (Grammar.pattern rule).run 0 text.toList = some m) :
    readBy rule build text = (build m.trees).mapError (Misfit.fault text) := by
  rw [readBy, Grammar.read, h]

theorem exists_run_of_readBy_eq_ok {a : α} (h : readBy rule build text = .ok a) :
    ∃ m, (Grammar.pattern rule).run 0 text.toList = some m := by
  cases hrun : (Grammar.pattern rule).run 0 text.toList with
  | none =>
    rw [readBy_of_run_eq_none hrun] at h
    cases h
  | some m => exact ⟨m, rfl⟩

/-- Where something is built from all that is matched, only what is not matched is a fault. -/
theorem readBy_eq_error_iff {fault : Fault}
    (h : ∀ m, (Grammar.pattern rule).run 0 text.toList = some m →
      ∃ a, readBy rule build text = .ok a) :
    readBy rule build text = .error fault ↔ (Grammar.pattern rule).run 0 text.toList = none ∧
      fault = .ofRejection (Grammar.rejection rule text) text := by
  cases hrun : (Grammar.pattern rule).run 0 text.toList with
  | none =>
    rw [readBy_of_run_eq_none hrun]
    simp [eq_comm]
  | some m =>
    obtain ⟨a, ha⟩ := h m hrun
    simp [ha]

end

/-- The filter that makes up a text, with blanks allowed at both ends. -/
def readFilter (text : String) : Except Fault Filter :=
  readBy .filter Filter.ofTrees text

/-- The condition that makes up a text, with nothing around it. -/
def readCondition (text : String) : Except Fault Condition :=
  readBy .conditionOnly Condition.ofTrees text

end ColumnFilter.Written
