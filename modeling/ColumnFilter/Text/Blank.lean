/-!
# White space

A text is trimmed and cut into words at the characters of the Unicode property
`White_Space`.  The set is wider than the blanks of filter text (space, tab and
the two line ends), which belong to the grammar, and it leaves out the
separators U+001C to U+001F and the zero-width characters.
-/

namespace ColumnFilter.Text

/-- White space is a character with the Unicode property `White_Space`. -/
def isWhiteSpace (c : Char) : Bool :=
  let n := c.toNat
  (0x09 ≤ n && n ≤ 0x0D) || n == 0x20 || n == 0x85 || n == 0xA0 || n == 0x1680 ||
    (0x2000 ≤ n && n ≤ 0x200A) || n == 0x2028 || n == 0x2029 || n == 0x202F ||
    n == 0x205F || n == 0x3000

/-- Characters without the white space at both ends. -/
def trimChars (cs : List Char) : List Char :=
  ((cs.dropWhile isWhiteSpace).reverse.dropWhile isWhiteSpace).reverse

/-- A text without the white space at both ends. -/
def trim (s : String) : String :=
  String.ofList (trimChars s.toList)

/-- A word is listed only if it has a character. -/
def closeWord (word : List Char) (rest : List (List Char)) : List (List Char) :=
  if word.isEmpty then rest else word :: rest

/-- The words of a text whose first word has already begun with `word`. -/
def wordsFrom (word : List Char) : List Char → List (List Char)
  | [] => closeWord word []
  | c :: cs =>
    if isWhiteSpace c then closeWord word (wordsFrom [] cs) else wordsFrom (word ++ [c]) cs

/-- The maximal runs of characters other than white space, in order. -/
def words (cs : List Char) : List (List Char) :=
  wordsFrom [] cs

end ColumnFilter.Text
