import ColumnFilter.Grammar.Pattern

/-!
# How far a match came

A text that does not match is reported by the furthest place at which a rule was
tried in vain, with all rules tried there.  A leaf that fails adds itself.  A
node that fails adds itself in place of the several rules that failed at its
own start; a single one is more telling than the node, so it is kept.  What
failed in an alternative or a repetition that was given up stays in the report.
-/

namespace ColumnFilter

/-- The furthest place of failure and the rules that failed there, in order. -/
structure Frontier where
  /-- The byte offset of the place. -/
  offset : Nat
  /-- The rules that were tried there in vain. -/
  rules : List Rule
deriving DecidableEq, Repr

namespace Frontier

/-- The report before anything has failed. -/
def origin : Frontier :=
  ⟨0, []⟩

/-- The number of rules that failed at a place, if it is the furthest. -/
def countAt (f : Frontier) (place : Nat) : Nat :=
  if place = f.offset then f.rules.length else 0

/-- The report after a rule has failed at a place. -/
def add (f : Frontier) (rule : Rule) (place : Nat) : Frontier :=
  if f.offset < place then ⟨place, [rule]⟩
  else if place = f.offset then ⟨place, f.rules ++ [rule]⟩
  else f

/-- The report without the rules that failed at a place after the first `count`. -/
def keep (f : Frontier) (count place : Nat) : Frontier :=
  if place = f.offset then ⟨f.offset, f.rules.take count⟩ else f

/-- The report after a node has failed whose start had seen `before` failures. -/
def close (f : Frontier) (rule : Rule) (before place : Nat) : Frontier :=
  if f.countAt place - before = 1 then f else (f.keep before place).add rule place

end Frontier

namespace Pattern

/-- The report after the steps of a repetition, the last of which fails.

When `bound` is used up nothing is left of the text, so the next step is the last. -/
def repeatFailures (step : Nat → List Char → Option Match)
    (failures : Nat → List Char → Frontier → Frontier) :
    List Char → Nat → List Char → Frontier → Frontier
  | [], start, cs, f => failures start cs f
  | _ :: bound, start, cs, f =>
    match step start cs with
    | none => failures start cs f
    | some m =>
      repeatFailures step failures bound (start + Text.byteLength m.text) m.rest
        (failures start cs f)

/-- The report after a pattern has been tried, whether it matched or not. -/
def failures : Pattern → Nat → List Char → Frontier → Frontier
  | empty, _, _, f => f
  | one _, _, _, f => f
  | seq p q, start, cs, f =>
    match run p start cs with
    | none => failures p start cs f
    | some m =>
      failures q (start + Text.byteLength m.text) m.rest (failures p start cs f)
  | alt p q, start, cs, f =>
    match run p start cs with
    | none => failures q start cs (failures p start cs f)
    | some _ => failures p start cs f
  | star p, start, cs, f => repeatFailures (run p) (failures p) cs start cs f
  | notAhead _, _, _, f => f
  | finish, _, _, f => f
  | leaf r p, start, cs, f =>
    match run p start cs with
    | none => f.add r start
    | some _ => f
  | node r p, start, cs, f =>
    match run p start cs with
    | none => (failures p start cs f).close r (f.countAt start) start
    | some _ => failures p start cs f

end Pattern

end ColumnFilter
