import ColumnFilter.Text.CaseTable

/-!
# Lower case

Column names are compared by their lower-case forms.  Every letter has a form
of its own, taken from the case table, with two exceptions: `İ` becomes an `i`
followed by a combining dot, and `Σ` becomes `ς` at the end of a word and `σ`
elsewhere.
-/

namespace ColumnFilter.Text

/-- The capital sigma, the only letter whose lower case depends on its place. -/
def capitalSigma : Char := 'Σ'

/-- The lower-case form of a letter on its own. -/
def lowerChar (c : Char) : List Char :=
  if c.toNat < 0x80 then [c.toLower]
  else if c = 'İ' then ['i', '\u0307']
  else match caseRanges.find? (·.contains c.toNat) with
    | some r => [Char.ofNat (c.toNat + r.offset).toNat]
    | none => [c]

/-- Is the nearest character that is no mark to be skipped a letter with case? -/
def nextIsCased (cs : List Char) : Bool :=
  match cs.dropWhile fun c => inRanges caseIgnorableRanges c.toNat with
  | [] => false
  | c :: _ => inRanges casedRanges c.toNat

/-- A sigma ends a word if a letter with case stands before it and none after it. -/
def sigmaForm (reversedBefore after : List Char) : Char :=
  if nextIsCased reversedBefore && !nextIsCased after then 'ς' else 'σ'

/-- The lower-case form of characters that follow `reversedBefore`, nearest first. -/
def lowerFrom (reversedBefore : List Char) : List Char → List Char
  | [] => []
  | c :: cs =>
    (if c = capitalSigma then [sigmaForm reversedBefore cs] else lowerChar c) ++
      lowerFrom (c :: reversedBefore) cs

/-- The lower-case form of a text. -/
def lower (s : String) : String :=
  String.ofList (lowerFrom [] s.toList)

/-- Two texts with the same lower-case form. -/
def sameIgnoringCase (s t : String) : Bool :=
  lower s == lower t

theorem lowerChar_of_ascii {c : Char} (h : c.toNat < 0x80) : lowerChar c = [c.toLower] :=
  if_pos h

end ColumnFilter.Text
