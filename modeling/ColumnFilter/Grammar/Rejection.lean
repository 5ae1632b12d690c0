import ColumnFilter.Grammar.RulePattern
import ColumnFilter.Grammar.Frontier

/-!
# Reading by a rule

A rule either matches at the front of a text, with the stretches it marks, or
the text is rejected.  A rejection says where reading came to an end and what
would have let it go on.
-/

namespace ColumnFilter

/-- The place that a rejection points at. -/
inductive Place where
  /-- A single byte offset. -/
  | point (offset : Nat)
  /-- A stretch of the text. -/
  | stretch (span : Span)
deriving DecidableEq, Repr

namespace Place

/-- The byte offset at which the place begins. -/
def start : Place → Nat
  | point offset => offset
  | stretch span => span.start

/-- The byte offset at which the place ends. -/
def stop : Place → Nat
  | point offset => offset
  | stretch span => span.stop

/-- The place in a text of a given number of bytes, widened to a byte that can be shown.

A point at the end of the text is moved back by one byte. -/
def shown (length : Nat) : Place → Span
  | point offset =>
    if offset < length then ⟨offset, offset + 1⟩
    else if 0 < offset then ⟨offset - 1, offset⟩
    else ⟨0, 0⟩
  | stretch span => ⟨span.start, span.start + max span.length 1⟩

end Place

/-- What a text is rejected for. -/
inductive Complaint where
  /-- None of these rules matched. -/
  | expected (rules : List Rule)
  /-- A reason in words. -/
  | remark (message : String)
deriving DecidableEq, Repr

/-- Where and why a text was rejected. -/
structure Rejection where
  /-- The place in the text. -/
  place : Place
  /-- The line and column of the start of the place. -/
  position : Position
  /-- The reason. -/
  complaint : Complaint
deriving DecidableEq, Repr

namespace Grammar

/-- The furthest place at which a rule failed in a text, with what was expected there. -/
def rejection (rule : Rule) (text : String) : Rejection :=
  let frontier := (pattern rule).failures 0 text.toList .origin
  { place := .point frontier.offset
    position := .ofOffset text frontier.offset
    complaint := .expected (Rule.inOrder frontier.rules) }

/-- The stretches that a rule marks at the front of a text, or why it does not match. -/
def read (rule : Rule) (text : String) : Except Rejection (List Tree) :=
  match (pattern rule).run 0 text.toList with
  | some m => .ok m.trees
  | none => .error (rejection rule text)

end Grammar

end ColumnFilter
