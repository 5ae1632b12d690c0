import ColumnFilter.Proofs.Reading.Isolation
import ColumnFilter.Proofs.Text.Slice

/-!
# Lexical classes of literals

What the characters of a literal tell about it (`Written.Item.Classed`).  A literal that
begins with a quote ends with the next quote of its kind; any other is a word.  The class
follows from that and from three words.

The text between the quotes is what stands from the second byte of the literal up to its
last.  Nothing in a literal alone makes these the ends of characters: the stretch can be
cut out exactly if the last character has one byte (`Written.Item.cutUnquoted?_eq_some_iff`).
In a text that is read it has, because there the last character is a quote.
-/

namespace ColumnFilter

open Text

/-! ### Cutting off one byte at each end -/

theorem Text.byteLength_eq_one_iff {cs : List Char} :
    byteLength cs = 1 ↔ ∃ c, cs = [c] ∧ c.utf8Size = 1 := by
  constructor
  · intro h
    cases cs with
    | nil => simp at h
    | cons c cs =>
      have hpos := c.utf8Size_pos
      rw [byteLength_cons] at h
      obtain rfl := byteLength_eq_zero.1 (show byteLength cs = 0 by omega)
      exact ⟨c, rfl, by simpa using h⟩
  · rintro ⟨c, rfl, hc⟩
    simpa using hc

/-- Behind a character of one byte, a stretch up to the last byte of a text leaves out the last
character, if that has one byte as well. -/
theorem Span.cut?_inside_eq_some_iff {text piece : String} {first last : Char} {inside : List Char}
    (htext : text.toList = first :: (inside ++ [last])) (hfirst : first.utf8Size = 1) :
    Span.cut? ⟨1, size text - 1⟩ text = some piece ↔
      piece = String.ofList inside ∧ last.utf8Size = 1 := by
  have hsize : size text = 1 + byteLength inside + last.utf8Size := by
    rw [size, htext, byteLength_cons, byteLength_append, hfirst]
    simp [Nat.add_assoc]
  rw [cut?_eq_some_iff]
  dsimp only
  constructor
  · rintro ⟨before, after, hsplit, hstart, hstop⟩
    -- one byte is left on either side, so it is one character
    obtain ⟨b, rfl, -⟩ := byteLength_eq_one_iff.1 hstart.symm
    have hinside : inside ++ [last] = piece.toList ++ after :=
      (List.cons.inj (htext.symm.trans hsplit)).2
    have hlength : byteLength inside + last.utf8Size = size piece + byteLength after := by
      have := congrArg byteLength hinside
      simpa [size] using this
    have hpos := last.utf8Size_pos
    obtain ⟨a, rfl, ha⟩ := byteLength_eq_one_iff.1 (show byteLength after = 1 by omega)
    obtain ⟨rfl, hlast⟩ := List.append_inj' hinside rfl
    obtain rfl := List.singleton_inj.1 hlast
    exact ⟨String.ofList_toList.symm, ha⟩
  · rintro ⟨rfl, hlast⟩
    have hpiece : size (String.ofList inside) = byteLength inside := by
      rw [size, String.toList_ofList]
    refine ⟨[first], [last], ?_, ?_, ?_⟩
    · rw [String.toList_ofList]
      exact htext
    · simp [hfirst]
    · omega

theorem Spelling.utf8Size_of_isQuote {c : Char} (h : isQuote c = true) : c.utf8Size = 1 := by
  rw [isQuote_iff] at h
  rcases h with rfl | rfl <;> rfl

theorem notMem_of_isBare {c : Char} (h : Grammar.isBare c = true) :
    c ∉ [' ', '\t', '\r', '\n', ',', '(', ')'] := by
  intro hmem
  have hnone : [' ', '\t', '\r', '\n', ',', '(', ')'].all (!Grammar.isBare ·) = true := by
    decide
  have hc := List.all_eq_true.1 hnone c hmem
  rw [h] at hc
  cases hc

namespace Written.Item

/-- The text between the quotes, cut out at bytes, or the whole text if there are no quotes. -/
def cutUnquoted? (i : Item) : Option String :=
  if i.isQuoted && 2 ≤ size i.lexeme.text then
    Span.cut? ⟨1, size i.lexeme.text - 1⟩ i.lexeme.text
  else some i.lexeme.text

variable {i : Item}

theorem exists_quote_of_isQuoted (h : i.isQuoted = true) :
    ∃ quote cs, i.chars = quote :: cs ∧ Spelling.isQuote quote = true := by
  cases hchars : i.chars with
  | nil => simp [isQuoted, hchars] at h
  | cons quote cs =>
    rw [isQuoted, hchars] at h
    exact ⟨quote, cs, rfl, h⟩

/-- **The text between the quotes can be cut out exactly if the literal ends with a character of
one byte**, and then it is the text that is meant. -/
theorem cutUnquoted?_eq_some_iff {piece : String} : i.cutUnquoted? = some piece ↔
    piece = i.unquoted ∧
      (i.isQuoted = true → ∀ last, i.chars.getLast? = some last → last.utf8Size = 1) := by
  cases hquoted : i.isQuoted with
  | false =>
    have hunquoted : i.unquoted = i.lexeme.text := by
      simp [unquoted, unquotedChars, hquoted, chars]
    simp [cutUnquoted?, hquoted, hunquoted, eq_comm]
  | true =>
    obtain ⟨quote, cs, hchars, hquote⟩ := exists_quote_of_isQuoted hquoted
    have hone : quote.utf8Size = 1 := Spelling.utf8Size_of_isQuote hquote
    rcases List.eq_nil_or_concat cs with rfl | ⟨inside, last, rfl⟩
    · -- a quote alone is kept
      have hsize : size i.lexeme.text = 1 := by
        rw [size, show i.lexeme.text.toList = [quote] from hchars]
        simpa using hone
      have hunquoted : i.unquoted = i.lexeme.text := by
        simp [unquoted, unquotedChars, hchars, ← text_eq hchars]
      simp [cutUnquoted?, hsize, hunquoted, hchars, hone, eq_comm]
    · rw [List.concat_eq_append] at hchars
      have hsize : 2 ≤ size i.lexeme.text := by
        have hpos := last.utf8Size_pos
        rw [size, show i.lexeme.text.toList = quote :: (inside ++ [last]) from hchars]
        simp only [byteLength_cons, byteLength_append]
        omega
      have hlast : i.chars.getLast? = some last := by
        rw [hchars, List.getLast?_cons, List.getLast?_append]
        rfl
      rw [cutUnquoted?, hquoted, if_pos (by simpa using hsize),
        Span.cut?_inside_eq_some_iff hchars hone, unquoted_of_quote hchars hquote, hlast]
      simp

/-- A character of two bytes at the end would be cut apart. -/
example : cutUnquoted? ⟨.number, ⟨"\"é", 0⟩⟩ = none := by decide

/-- What the characters of a literal tell about it. -/
structure Classed (i : Item) : Prop where
  /-- A quote at the beginning is closed by the next one of its kind, at the end. -/
  quoted : ∀ quote, i.chars.head? = some quote → Spelling.isQuote quote = true →
    ∃ inside, i.chars = quote :: (inside ++ [quote]) ∧ quote ∉ inside ∧
      i.cutUnquoted? = some (String.ofList inside) ∧ i.unquoted = String.ofList inside
  /-- Without a quote at the beginning there is a word, which is left as it is. -/
  word : (∀ c, i.chars.head? = some c → Spelling.isQuote c = false) →
    i.chars ≠ [] ∧ (∀ c ∈ i.chars, c ∉ [' ', '\t', '\r', '\n', ',', '(', ')']) ∧
      i.cutUnquoted? = some i.lexeme.text ∧ i.unquoted = i.lexeme.text
  isQuoted_iff : i.isQuoted = true ↔ IsQuotedText i.chars
  string_iff : i.kind = .string ↔ i.isQuoted = true ∨ i.chars = "null".toList
  boolean_iff : i.kind = .boolean ↔ ¬i.isQuoted = true ∧ i.chars ≠ "null".toList ∧
    asciiLower i.chars ∈ ["true".toList, "false".toList, "null".toList]
  number_iff : i.kind = .number ↔ ¬i.isQuoted = true ∧
    asciiLower i.chars ∉ ["true".toList, "false".toList, "null".toList]
  isNull_iff : i.isNull = true ↔ ¬i.isQuoted = true ∧ asciiLower i.chars = "null".toList

end Written.Item

/-! ### Literals that are spelled -/

namespace Spelling.Item

open Written.Item

variable (j : Item) (start : Nat)

theorem cutUnquoted?_written :
    (j.written start).cutUnquoted? = some (j.written start).unquoted := by
  refine cutUnquoted?_eq_some_iff.2 ⟨rfl, fun hquoted last hlast => ?_⟩
  obtain ⟨quote, inside, hquote, -, hchars⟩ := isQuoted_written_iff.1 hquoted
  rw [j.chars_written, hchars, List.getLast?_cons, List.getLast?_append] at hlast
  obtain rfl := Option.some.inj hlast
  exact utf8Size_of_isQuote hquote

/-- **A literal that is spelled is of the class that its characters tell.** -/
theorem classed_written : (j.written start).Classed where
  quoted := by
    intro quote hhead hquote
    have hchars := j.chars_written start
    have hcut := j.cutUnquoted?_written start
    rw [hchars] at hhead
    cases j with
    | quoted first inside _ apart =>
      obtain rfl := Option.some.inj hhead
      have hunquoted := unquoted_of_quote hchars hquote
      rw [hunquoted] at hcut
      exact ⟨inside, hchars, apart, hcut, hunquoted⟩
    | bare word _ _ unquoted =>
      rw [unquoted quote hhead] at hquote
      cases hquote
  word := by
    intro hhead
    have hchars := j.chars_written start
    have hcut := j.cutUnquoted?_written start
    rw [hchars] at hhead ⊢
    cases j with
    | quoted quote inside hquote _ =>
      rw [hhead quote rfl] at hquote
      cases hquote
    | bare word nonempty isBare unquoted =>
      have hunquoted := unquoted_of_bare hchars unquoted
      rw [hunquoted] at hcut
      exact ⟨nonempty, fun c hc => notMem_of_isBare (isBare c hc), hcut, hunquoted⟩
  isQuoted_iff := by rw [isQuoted_written_iff, j.chars_written]
  string_iff := by
    rw [isQuoted_written_iff, j.chars_written]
    exact j.kind_eq_string_iff
  boolean_iff := by
    rw [isQuoted_written_iff, j.chars_written]
    exact j.kind_eq_boolean_iff
  number_iff := by
    rw [isQuoted_written_iff, j.chars_written]
    exact j.kind_eq_number_iff
  isNull_iff := by rw [isNull_written_iff, isQuoted_written_iff, j.chars_written]

end Spelling.Item

/-- **Every literal of a text that is read is of the class that its characters tell**, and the
text between its quotes is cut out without cutting a character. -/
theorem classed_of_readFilter {text : String} {w : Written.Filter} {c : Written.Condition}
    {i : Written.Item} (h : Written.readFilter text = .ok w) (hc : c ∈ w.conditions)
    (hi : i ∈ c.value.items) : i.Classed := by
  obtain ⟨j, start, rfl⟩ := Spelling.exists_item_of_readFilter h hc hi
  exact j.classed_written start

/-- Quotes next to letters of two bytes, around a literal and inside of one. -/
theorem classed_of_readFilter_accent :
    ∃ w, Written.readFilter "age=1 or name in ('né\"', é\"s, null, Null)" = .ok w ∧
      ∃ c ∈ w.conditions, ∃ i ∈ c.value.items, i.Classed ∧ i.kind = .string ∧
        i.cutUnquoted? = some "né\"" := by
  have hread : Written.readFilter "age=1 or name in ('né\"', é\"s, null, Null)" =
      .ok ⟨⟨⟨"age=1", 0⟩, ⟨"age", 0⟩, ⟨"=", 3⟩, .single ⟨.number, ⟨"1", 4⟩⟩⟩,
        [(.or, ⟨⟨"name in ('né\"', é\"s, null, Null)", 9⟩, ⟨"name", 9⟩, ⟨"in", 14⟩,
          .list ⟨"('né\"', é\"s, null, Null)", 17⟩ [⟨.string, ⟨"'né\"'", 18⟩⟩,
            ⟨.number, ⟨"é\"s", 26⟩⟩, ⟨.string, ⟨"null", 32⟩⟩, ⟨.boolean, ⟨"Null", 38⟩⟩]⟩)]⟩ := by
    decide +kernel
  have hclassed := classed_of_readFilter hread (List.mem_cons_of_mem _ (List.mem_cons_self ..))
    (List.mem_cons_self ..)
  refine ⟨_, hread, _, List.mem_cons_of_mem _ (List.mem_cons_self ..), _, List.mem_cons_self ..,
    hclassed, hclassed.string_iff.2 (.inl rfl), ?_⟩
  decide +kernel

end ColumnFilter
