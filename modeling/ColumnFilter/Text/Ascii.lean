/-!
# ASCII letters and digits

Keywords, type names and operator tags are compared without regard to the case
of the letters `A` to `Z`; no other letter is folded.  `Char.toLower` and
`Char.isDigit` know the ASCII range only, which is what is wanted here.
-/

namespace ColumnFilter.Text

/-- A text with `A` to `Z` in lower case and all else kept. -/
def asciiLower (cs : List Char) : List Char :=
  cs.map Char.toLower

/-- Two texts that differ at most in the case of ASCII letters. -/
def sameIgnoringAsciiCase (cs ds : List Char) : Bool :=
  asciiLower cs == asciiLower ds

/-- A letter or digit of the ASCII range, or the underscore. -/
def isWordChar (c : Char) : Bool :=
  c.isAlphanum || c == '_'

theorem asciiLower_append (cs ds : List Char) :
    asciiLower (cs ++ ds) = asciiLower cs ++ asciiLower ds :=
  List.map_append

theorem length_asciiLower (cs : List Char) : (asciiLower cs).length = cs.length :=
  List.length_map _

end ColumnFilter.Text
