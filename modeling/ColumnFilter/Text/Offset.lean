/-!
# Places in a text

Offsets, spans and lengths count bytes of the UTF-8 form.  Columns count code
points, and only the line feed ends a line.
-/

namespace ColumnFilter

namespace Text

/-- The number of bytes of the UTF-8 form. -/
def byteLength : List Char → Nat
  | [] => 0
  | c :: cs => c.utf8Size + byteLength cs

/-- The number of bytes of the UTF-8 form of a text. -/
def size (s : String) : Nat :=
  byteLength s.toList

/-- The characters that begin before a byte offset. -/
def before (offset : Nat) : List Char → List Char
  | [] => []
  | c :: cs => if offset = 0 then [] else c :: before (offset - c.utf8Size) cs

@[simp] theorem byteLength_nil : byteLength [] = 0 := rfl

@[simp] theorem byteLength_cons (c : Char) (cs : List Char) :
    byteLength (c :: cs) = c.utf8Size + byteLength cs := rfl

@[simp] theorem byteLength_append (cs ds : List Char) :
    byteLength (cs ++ ds) = byteLength cs + byteLength ds := by
  induction cs with
  | nil => simp
  | cons c cs ih => simp [ih, Nat.add_assoc]

theorem byteLength_eq_zero {cs : List Char} : byteLength cs = 0 ↔ cs = [] := by
  cases cs with
  | nil => simp
  | cons c cs =>
    have := c.utf8Size_pos
    simp
    omega

theorem byteLength_pos {cs : List Char} (h : cs ≠ []) : 0 < byteLength cs :=
  Nat.pos_of_ne_zero fun hzero => h (byteLength_eq_zero.1 hzero)

/-- The part before a split is what begins before its offset. -/
theorem before_byteLength_append (cs ds : List Char) :
    before (byteLength cs) (cs ++ ds) = cs := by
  induction cs with
  | nil => cases ds <;> simp [before]
  | cons c cs ih =>
    have := c.utf8Size_pos
    rw [List.cons_append, before, if_neg (by simp; omega), byteLength_cons,
      Nat.add_sub_cancel_left, ih]

end Text

/-- A stretch of a text, from a byte offset up to another. -/
structure Span where
  /-- The offset of the first byte. -/
  start : Nat
  /-- The offset after the last byte. -/
  stop : Nat
deriving DecidableEq, Repr

namespace Span

/-- The number of bytes that a span covers. -/
def length (s : Span) : Nat :=
  s.stop - s.start

/-- The same stretch of a text that begins `distance` bytes later. -/
def shift (distance : Nat) (s : Span) : Span :=
  ⟨distance + s.start, distance + s.stop⟩

end Span

/-- A line and a column, both counted from one. -/
structure Position where
  /-- One more than the number of line feeds before the place. -/
  line : Nat
  /-- One more than the number of code points since the last line feed. -/
  column : Nat
deriving DecidableEq, Repr

namespace Position

/-- The position that follows a character. -/
def advance (p : Position) (c : Char) : Position :=
  if c == '\n' then ⟨p.line + 1, 1⟩ else ⟨p.line, p.column + 1⟩

/-- The position at the end of some characters. -/
def after (cs : List Char) : Position :=
  cs.foldl advance ⟨1, 1⟩

/-- The position of a byte offset of a text. -/
def ofOffset (text : String) (offset : Nat) : Position :=
  after (Text.before offset text.toList)

end Position

/-- A piece of a text together with the place where it stands. -/
structure Lexeme where
  /-- The piece as written. -/
  text : String
  /-- The byte offset at which it begins. -/
  start : Nat
deriving DecidableEq, Repr

namespace Lexeme

/-- The stretch that a piece covers. -/
def span (l : Lexeme) : Span :=
  ⟨l.start, l.start + Text.size l.text⟩

/-- The same piece in a text that begins `distance` bytes later. -/
def shift (distance : Nat) (l : Lexeme) : Lexeme :=
  ⟨l.text, distance + l.start⟩

theorem span_shift (distance : Nat) (l : Lexeme) :
    (l.shift distance).span = l.span.shift distance := by
  simp [shift, span, Span.shift, Nat.add_assoc]

end Lexeme

end ColumnFilter
