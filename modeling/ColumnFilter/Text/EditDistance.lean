/-!
# Edit distance

The least number of insertions, deletions and substitutions of single
characters that turns one text into another.  The table of the distances between
all pairs of prefixes is filled one row at a time, a row for every prefix of the
first text.  Only two rows are kept: the one that was filled last, and the one
that is filled next, over the distances of an older prefix.  When a row is full
the two change places.
-/

namespace ColumnFilter.Text

/-- Two rows of the table, with a place for every prefix of a second text of `n` characters. -/
structure Rows (n : Nat) where
  /-- The row that was filled last. -/
  previous : Vector Nat (n + 1)
  /-- The row that is filled next.  Its places still hold what was written there before. -/
  current : Vector Nat (n + 1)

namespace Rows

/-- The rows before the first character: a prefix has to be inserted as a whole. -/
def initial (n : Nat) : Rows n :=
  ⟨.range (n + 1), .replicate (n + 1) 0⟩

variable {α : Type} [DecidableEq α] {bs : List α}

/-- The current row for the character `a` at `index`, after its first place and `turns` further
places have been filled. -/
def fill (rows : Rows bs.length) (index : Nat) (a : α) :
    (turns : Nat) → turns ≤ bs.length → Vector Nat (bs.length + 1)
  | 0, _ => rows.current.set 0 (index + 1)
  | j + 1, h =>
    let row := rows.fill index a j (Nat.le_of_succ_le h)
    let cost := if a = bs[j] then 0 else 1
    row.set (j + 1)
      (min (min (rows.previous[j + 1] + 1) (row[j] + 1)) (rows.previous[j] + cost))

/-- The rows after the character `a` at `index`: the row that was filled for it comes first, and
the other one is there to be filled again. -/
def advance (rows : Rows bs.length) (index : Nat) (a : α) : Rows bs.length :=
  ⟨rows.fill index a bs.length (Nat.le_refl _), rows.previous⟩

/-- The rows after all characters of the first text. -/
def run (as bs : List α) : Rows bs.length :=
  as.zipIdx.foldl (fun rows entry => rows.advance entry.2 entry.1) (initial bs.length)

end Rows

/-- The least number of single-character edits that turn `as` into `bs`. -/
def editDistance {α : Type} [DecidableEq α] (as bs : List α) : Nat :=
  (Rows.run as bs).previous[bs.length]

end ColumnFilter.Text
