import ColumnFilter.Grammar.Rule
import ColumnFilter.Text.Offset

/-!
# Patterns

The notation in which the rules are written, and what it means for a text to
match.  A match commits: the first alternative that fits is taken, and a
repetition goes on for as long as it can and gives nothing back.  A rule that is
marked leaves a tree in the result; a marked leaf hides what is inside it.
-/

namespace ColumnFilter

/-- A pattern of characters, with rules marked in it. -/
inductive Pattern where
  /-- Matches no character at all. -/
  | empty
  /-- Matches one character of a class. -/
  | one (accepts : Char → Bool)
  /-- Matches one pattern and then another. -/
  | seq (first second : Pattern)
  /-- Matches the first pattern, or the second if the first does not match. -/
  | alt (first second : Pattern)
  /-- Matches a pattern as often as it goes. -/
  | star (body : Pattern)
  /-- Matches no character, and only where the pattern does not match. -/
  | notAhead (body : Pattern)
  /-- Matches no character, and only at the end of the text. -/
  | finish
  /-- Matches as its body does and marks the stretch, without the marks inside. -/
  | leaf (rule : Rule) (body : Pattern)
  /-- Matches as its body does and marks the stretch, with the marks inside. -/
  | node (rule : Rule) (body : Pattern)

/-- A marked stretch of a text and the marked stretches inside it. -/
inductive Tree where
  | mk (rule : Rule) (start : Nat) (text : List Char) (children : List Tree)

namespace Tree

/-- The rule that matched. -/
def rule : Tree → Rule
  | mk r _ _ _ => r

/-- The byte offset at which the stretch begins. -/
def start : Tree → Nat
  | mk _ s _ _ => s

/-- The characters of the stretch. -/
def text : Tree → List Char
  | mk _ _ t _ => t

/-- The marked stretches directly inside. -/
def children : Tree → List Tree
  | mk _ _ _ ts => ts

/-- The stretch as a piece of the text. -/
def lexeme (t : Tree) : Lexeme :=
  ⟨String.ofList t.text, t.start⟩

/-- The stretch from its first byte up to its last. -/
def span (t : Tree) : Span :=
  ⟨t.start, t.start + Text.byteLength t.text⟩

end Tree

/-- What a pattern matched. -/
structure Match where
  /-- The characters that were matched. -/
  text : List Char
  /-- The marked stretches, in order. -/
  trees : List Tree
  /-- The characters that are left. -/
  rest : List Char

namespace Match

/-- A match that goes on with another one. -/
def append (m n : Match) : Match :=
  ⟨m.text ++ n.text, m.trees ++ n.trees, n.rest⟩

end Match

namespace Pattern

/-- Matches one step after the other until one fails, at most one for every element of `bound`. -/
def repeatMatch (step : Nat → List Char → Option Match) :
    List Char → Nat → List Char → Match
  | [], _, cs => ⟨[], [], cs⟩
  | _ :: bound, start, cs =>
    match step start cs with
    | none => ⟨[], [], cs⟩
    | some m =>
      m.append (repeatMatch step bound (start + Text.byteLength m.text) m.rest)

/-- The match of a pattern at the front of a text that begins at byte `start`.

The text itself bounds a repetition: steps that take at least one character each
are at most as many as its characters. -/
def run : Pattern → Nat → List Char → Option Match
  | empty, _, cs => some ⟨[], [], cs⟩
  | one _, _, [] => none
  | one p, _, c :: cs => if p c then some ⟨[c], [], cs⟩ else none
  | seq p q, start, cs =>
    match run p start cs with
    | none => none
    | some m => (run q (start + Text.byteLength m.text) m.rest).map m.append
  | alt p q, start, cs => (run p start cs).or (run q start cs)
  | star p, start, cs => some (repeatMatch (run p) cs start cs)
  | notAhead p, start, cs => if (run p start cs).isSome then none else some ⟨[], [], cs⟩
  | finish, _, cs => if cs.isEmpty then some ⟨[], [], cs⟩ else none
  | leaf r p, start, cs =>
    (run p start cs).map fun m => ⟨m.text, [.mk r start m.text []], m.rest⟩
  | node r p, start, cs =>
    (run p start cs).map fun m => ⟨m.text, [.mk r start m.text m.trees], m.rest⟩

/-- Matches a pattern at least once. -/
def plus (p : Pattern) : Pattern :=
  seq p (star p)

/-- Matches patterns one after the other. -/
def sequence : List Pattern → Pattern
  | [] => empty
  | [p] => p
  | p :: ps => seq p (sequence ps)

/-- Matches the first pattern of a list that fits. -/
def firstOf : List Pattern → Pattern
  | [] => one fun _ => false
  | [p] => p
  | p :: ps => alt p (firstOf ps)

/-- Matches these characters. -/
def exactly (s : String) : Pattern :=
  sequence (s.toList.map fun c => one (· == c))

/-- Matches a word of lower-case letters in any ASCII case. -/
def anyCase (s : String) : Pattern :=
  sequence (s.toList.map fun c => one (·.toLower == c))

/-- A repetition cuts its text into what it matched and what is left. -/
theorem repeatMatch_text_append_rest {step : Nat → List Char → Option Match}
    (h : ∀ start cs m, step start cs = some m → m.text ++ m.rest = cs) :
    ∀ bound start cs,
      (repeatMatch step bound start cs).text ++ (repeatMatch step bound start cs).rest = cs := by
  intro bound
  induction bound with
  | nil => intro start cs; rfl
  | cons _ bound ih =>
    intro start cs
    rw [repeatMatch]
    cases hs : step start cs with
    | none => rfl
    | some m =>
      simp only [Match.append]
      rw [List.append_assoc, ih, h _ _ _ hs]

/-- A match cuts its text into what it matched and what is left. -/
theorem text_append_rest {p : Pattern} :
    ∀ {start : Nat} {cs : List Char} {m : Match},
      run p start cs = some m → m.text ++ m.rest = cs := by
  induction p with
  | empty => intro start cs m h; simp only [run, Option.some.injEq] at h; subst h; rfl
  | one p =>
    intro start cs m h
    cases cs with
    | nil => simp [run] at h
    | cons c cs =>
      simp only [run, Option.ite_none_right_eq_some, Option.some.injEq] at h
      rw [← h.2]
      rfl
  | seq p q ihp ihq =>
    intro start cs m h
    cases hp : run p start cs with
    | none => simp [run, hp] at h
    | some a =>
      simp only [run, hp, Option.map_eq_some_iff] at h
      obtain ⟨b, hb, rfl⟩ := h
      rw [← ihp hp, ← ihq hb]
      simp [Match.append]
  | alt p q ihp ihq =>
    intro start cs m h
    rw [run, Option.or_eq_some_iff] at h
    rcases h with h | ⟨-, h⟩
    · exact ihp h
    · exact ihq h
  | star p ih =>
    intro start cs m h
    simp only [run, Option.some.injEq] at h
    subst h
    exact repeatMatch_text_append_rest (fun _ _ _ h => ih h) _ _ _
  | notAhead p ih =>
    intro start cs m h
    simp only [run, Option.ite_none_left_eq_some, Option.some.injEq] at h
    rw [← h.2]
    rfl
  | finish =>
    intro start cs m h
    simp only [run, Option.ite_none_right_eq_some, Option.some.injEq] at h
    rw [← h.2]
    rfl
  | leaf r p ih =>
    intro start cs m h
    simp only [run, Option.map_eq_some_iff] at h
    obtain ⟨a, ha, rfl⟩ := h
    have := ih ha
    exact this
  | node r p ih =>
    intro start cs m h
    simp only [run, Option.map_eq_some_iff] at h
    obtain ⟨a, ha, rfl⟩ := h
    have := ih ha
    exact this

end Pattern

end ColumnFilter
