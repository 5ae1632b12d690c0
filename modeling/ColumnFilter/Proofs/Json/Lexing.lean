import ColumnFilter.Json.Print
import ColumnFilter.Json.Token
import ColumnFilter.Proofs.Number.Shape

/-!
# Cutting a JSON text

A JSON text is cut from the front, one blank or token at a time, whatever follows
(`readAll_blank`, `readAll_cons`).  Only a word or a number needs to be told where
it ends, so what follows it must be `Apart`.  `Cuts` says that a part of a text is
cut into some tokens before all that stands apart, and its rules put parts
together.  Escaping a text and cutting it up again gives the same text
(`read_flatMap_escape`).  A number is cut as one token, though not always as that
of the number it was printed for: a reader that computes in steps may land on a
neighbour.
-/

namespace ColumnFilter.Json

/-! ### Escaped texts -/

namespace Piece

theorem hexValue4?_hexDigit {n : Nat} (h : n < 0x20) :
    hexValue4? '0' '0' (hexDigit (n / 16)) (hexDigit n) = some n := by
  revert n
  decide

theorem ofCode_of_lt {n : Nat} (h : n < 0x20) : ofCode n = char (Char.ofNat n) := by
  have hhigh : isHighHalf n = false := by simp [isHighHalf]; omega
  have hlow : isLowHalf n = false := by simp [isLowHalf]; omega
  simp [ofCode, hhigh, hlow]

/-- The escape of a character is read as the character. -/
theorem read_escape (c : Char) (cs : List Char) :
    read (escape c ++ cs) = (read cs).map (cons (char c)) := by
  by_cases hquote : c = '"'
  · subst hquote; rfl
  by_cases hbackslash : c = '\\'
  · subst hbackslash; rfl
  by_cases hbackspace : c = '\x08'
  · subst hbackspace; rfl
  by_cases hfeed : c = '\x0c'
  · subst hfeed; rfl
  by_cases hnewline : c = '\n'
  · subst hnewline; rfl
  by_cases hreturn : c = '\r'
  · subst hreturn; rfl
  by_cases htab : c = '\t'
  · subst htab; rfl
  by_cases hcontrol : c.toNat < 0x20
  · have hescape : escape c =
        ['\\', 'u', '0', '0', hexDigit (c.toNat / 16), hexDigit c.toNat] := by
      simp [escape, hquote, hbackslash, hbackspace, hfeed, hnewline, hreturn, htab, hcontrol]
    rw [hescape]
    show read ('\\' :: 'u' :: '0' :: '0' :: hexDigit (c.toNat / 16) :: hexDigit c.toNat :: cs) = _
    rw [read, hexValue4?_hexDigit hcontrol]
    dsimp only
    rw [ofCode_of_lt hcontrol, Char.ofNat_toNat]
  · have hescape : escape c = [c] := by
      simp [escape, hquote, hbackslash, hbackspace, hfeed, hnewline, hreturn, htab, hcontrol]
    rw [hescape, List.singleton_append]
    simp [read, hbackslash, hcontrol]

/-- **An escaped text is cut into its characters, up to the closing quote.** -/
theorem read_flatMap_escape (s rest : List Char) :
    read (s.flatMap escape ++ '"' :: rest) = some (s.map char, rest) := by
  induction s with
  | nil => rfl
  | cons c s ih =>
    rw [List.flatMap_cons, List.append_assoc, read_escape, ih]
    rfl

theorem join?_map_char (s : List Char) : join? (s.map char) = some s := by
  induction s with
  | nil => rfl
  | cons c s ih =>
    rw [List.map_cons, join?, ih]
    rfl

theorem text?_map_char (s : String) : text? (s.toList.map char) = some s := by
  rw [text?, join?_map_char, Option.map_some, String.ofList_toList]

theorem length_lt_of_map_cons {cs : List Char} {piece : Piece} {r : List Piece × List Char}
    (ih : ∀ {r : List Piece × List Char}, read cs = some r → r.2.length < cs.length)
    (h : (read cs).map (cons piece) = some r) : r.2.length < cs.length := by
  obtain ⟨r, hread, rfl⟩ := Option.map_eq_some_iff.1 h
  have hlt := ih hread
  exact hlt

/-- A text is shorter without the part up to a closing quote. -/
theorem length_lt_of_read {cs : List Char} {r : List Piece × List Char} (h : read cs = some r) :
    r.2.length < cs.length := by
  induction cs using read.induct generalizing r with
  | case1 => simp [read] at h
  | case2 cs =>
    obtain rfl := Option.some.inj h
    exact Nat.lt_succ_self _
  | case3 a b c d cs hnone =>
    rw [read, hnone] at h
    cases h
  | case4 a b c d cs code hsome ih =>
    rw [read, hsome] at h
    have := length_lt_of_map_cons ih h
    simp only [List.length_cons]
    omega
  | case5 c cs hu hnone =>
    rw [read, hnone] at h
    · cases h
    · exact hu
  | case6 c cs hu d hsome ih =>
    rw [read, hsome] at h
    · have := length_lt_of_map_cons ih h
      simp only [List.length_cons]
      omega
    · exact hu
  | case7 c cs hquote hbackslash hpair hcontrol =>
    rw [read, if_pos hcontrol] at h
    · cases h
    all_goals assumption
  | case8 c cs hquote hbackslash hpair hcontrol ih =>
    rw [read, if_neg hcontrol] at h
    · exact Nat.lt_succ_of_lt (length_lt_of_map_cons ih h)
    all_goals assumption

end Piece

namespace Token

/-! ### One token at a time -/

theorem length_le_of_readFirst {c : Char} {cs : List Char} {r : Token × List Char}
    (h : readFirst c cs = some r) : r.2.length ≤ cs.length := by
  have hdrop (p : Char → Bool) : (cs.dropWhile p).length ≤ cs.length :=
    (List.dropWhile_suffix p).length_le
  rw [readFirst] at h
  split at h
  · obtain rfl := Option.some.inj h
    exact Nat.le_refl _
  split at h
  · obtain ⟨r, hread, rfl⟩ := Option.map_eq_some_iff.1 h
    exact Nat.le_of_lt (Piece.length_lt_of_read hread)
  split at h
  · obtain ⟨t, -, rfl⟩ := Option.map_eq_some_iff.1 h
    exact hdrop _
  · obtain ⟨t, -, rfl⟩ := Option.map_eq_some_iff.1 h
    exact hdrop _

/-- A greater bound changes nothing. -/
theorem readWithin_eq_readWithin {m n : Nat} {cs : List Char} (hm : cs.length ≤ m)
    (hn : cs.length ≤ n) : readWithin m cs = readWithin n cs := by
  induction m generalizing n cs with
  | zero =>
    obtain rfl := List.eq_nil_of_length_eq_zero (Nat.le_zero.1 hm)
    cases n <;> rfl
  | succ m ih =>
    cases cs with
    | nil => cases n <;> rfl
    | cons c cs =>
      cases n with
      | zero => cases hn
      | succ n =>
        have hm := Nat.le_of_succ_le_succ hm
        have hn := Nat.le_of_succ_le_succ hn
        rw [readWithin, readWithin, ih hm hn]
        cases hread : readFirst c cs with
        | none => rfl
        | some r =>
          have hlength := length_le_of_readFirst hread
          dsimp only
          rw [ih (Nat.le_trans hlength hm) (Nat.le_trans hlength hn)]

@[simp] theorem readAll_nil : readAll [] = some [] :=
  rfl

theorem readAll_blank {c : Char} (h : isBlank c = true) (cs : List Char) :
    readAll (c :: cs) = readAll cs := by
  rw [readAll, List.length_cons, readWithin, if_pos h]
  rfl

/-- **After its first token a text is cut as if it began there.** -/
theorem readAll_cons {c : Char} (hblank : isBlank c = false) (cs : List Char) :
    readAll (c :: cs) = (readFirst c cs).bind fun r => (readAll r.2).map (r.1 :: ·) := by
  rw [readAll, List.length_cons, readWithin, if_neg (by rw [hblank]; decide)]
  cases h : readFirst c cs with
  | none => rfl
  | some r =>
    rw [Option.bind_some, readAll]
    dsimp only
    rw [readWithin_eq_readWithin (length_le_of_readFirst h) (Nat.le_refl _)]

theorem readAll_mark {c : Char} {t : Token} (h : ofMark? c = some t) (cs : List Char) :
    readAll (c :: cs) = (readAll cs).map (t :: ·) := by
  have hblank : isBlank c = false := by
    rw [ofMark?.eq_def] at h
    split at h <;> first | rfl | cases h
  rw [readAll_cons hblank, readFirst, h]
  rfl

theorem readAll_quoteText (s : String) (rest : List Char) :
    readAll (quoteText s ++ rest) = (readAll rest).map (text (some s) :: ·) := by
  have hread : readFirst '"' (s.toList.flatMap escape ++ '"' :: rest) =
      some (text (some s), rest) := by
    show (Piece.read _).map _ = _
    rw [Piece.read_flatMap_escape, Option.map_some, Piece.text?_map_char]
  rw [quoteText, List.cons_append, List.append_assoc]
  show readAll ('"' :: (s.toList.flatMap escape ++ '"' :: rest)) = _
  rw [readAll_cons rfl, hread]
  rfl

/-! ### Words and numbers -/

/-- A character that a word or a number may go on with. -/
def isInner (c : Char) : Bool :=
  c.isAlpha || isNumberChar c

/-- What follows does not go on with a word or a number. -/
def Apart (rest : List Char) : Prop :=
  Stops isInner rest

theorem Apart.nil : Apart [] :=
  Stops.nil

theorem Apart.stops_isAlpha {rest : List Char} (h : Apart rest) : Stops Char.isAlpha rest :=
  fun c hc => (Bool.or_eq_false_iff.1 (h c hc)).1

theorem Apart.stops_isNumberChar {rest : List Char} (h : Apart rest) : Stops isNumberChar rest :=
  fun c hc => (Bool.or_eq_false_iff.1 (h c hc)).2

/-- A character of a word or a number does not begin another token. -/
theorem not_mark_of_isInner {c : Char} (h : isInner c = true) :
    isBlank c = false ∧ ofMark? c = none ∧ c ≠ '"' := by
  refine ⟨?_, ?_, ?_⟩
  · by_contra hblank
    simp only [isBlank, Bool.not_eq_false, Bool.or_eq_true, beq_iff_eq] at hblank
    rcases hblank with ((rfl | rfl) | rfl) | rfl <;> exact absurd h (by decide)
  · rw [ofMark?.eq_def]
    split <;> first | rfl | exact absurd h (by decide)
  · rintro rfl
    exact absurd h (by decide)

theorem Apart.of_mark {c : Char} {t : Token} (h : ofMark? c = some t) (rest : List Char) :
    Apart (c :: rest) := by
  refine Stops.cons_iff.2 ?_
  by_contra hinner
  rw [Bool.not_eq_false] at hinner
  rw [(not_mark_of_isInner hinner).2.1] at h
  cases h

theorem Apart.of_blank {c : Char} (h : isBlank c = true) (rest : List Char) :
    Apart (c :: rest) := by
  refine Stops.cons_iff.2 ?_
  by_contra hinner
  rw [Bool.not_eq_false] at hinner
  rw [(not_mark_of_isInner hinner).1] at h
  cases h

theorem readAll_word {c : Char} {cs rest : List Char} {t : Token} (hc : c.isAlpha = true)
    (hcs : ∀ d ∈ cs, d.isAlpha = true) (ht : ofWord? (c :: cs) = some t) (hrest : Apart rest) :
    readAll (c :: cs ++ rest) = (readAll rest).map (t :: ·) := by
  have hinner : isInner c = true := by rw [isInner, hc, Bool.true_or]
  obtain ⟨hblank, hmark, hquote⟩ := not_mark_of_isInner hinner
  rw [List.cons_append, readAll_cons hblank, readFirst, hmark]
  dsimp only
  rw [if_neg (by simpa using hquote), if_pos hc,
    hrest.stops_isAlpha.takeWhile_append hcs, hrest.stops_isAlpha.dropWhile_append hcs, ht]
  rfl

theorem readAll_null {rest : List Char} (hrest : Apart rest) :
    readAll ("null".toList ++ rest) = (readAll rest).map (null :: ·) :=
  readAll_word (by decide) (List.all_eq_true.1 (by decide)) (by decide) hrest

theorem readAll_booleanChars (b : Bool) {rest : List Char} (hrest : Apart rest) :
    readAll (booleanChars b ++ rest) = (readAll rest).map (boolean b :: ·) := by
  cases b
  · exact readAll_word (by decide) (List.all_eq_true.1 (by decide)) (by decide) hrest
  · exact readAll_word (by decide) (List.all_eq_true.1 (by decide)) (by decide) hrest

theorem isAlpha_eq_false_of_isDigit {c : Char} (h : c.isDigit = true) : c.isAlpha = false := by
  by_contra halpha
  unfold Char.isDigit at h
  unfold Char.isAlpha Char.isUpper Char.isLower at halpha
  simp only [Bool.not_eq_false, Bool.or_eq_true, Bool.and_eq_true, decide_eq_true_eq, ge_iff_le,
    UInt32.le_iff_toNat_le] at h halpha
  have hdigit : c.val.toNat ≤ 57 := h.2
  have hletter : 65 ≤ c.val.toNat ∨ 97 ≤ c.val.toNat := halpha.imp And.left And.left
  omega

theorem isNumberChar_of_isDigit {c : Char} (h : c.isDigit = true) :
    isNumberChar c = true ∧ c.isAlpha = false :=
  ⟨by simp [isNumberChar, h], isAlpha_eq_false_of_isDigit h⟩

theorem isNumberChar_of_isSign {cs : List Char} (h : Literal.IsSign cs) :
    ∀ c ∈ cs, isNumberChar c = true ∧ c.isAlpha = false := by
  rcases h with rfl | rfl | rfl
  · exact nofun
  · exact List.forall_mem_singleton.2 (by decide)
  · exact List.forall_mem_singleton.2 (by decide)

theorem isNumberChar_of_isMantissa {cs : List Char} (h : Literal.IsMantissa Char.isDigit cs) :
    cs ≠ [] ∧ ∀ c ∈ cs, isNumberChar c = true ∧ c.isAlpha = false := by
  cases h with
  | whole hds => exact ⟨hds.1, fun c hc => isNumberChar_of_isDigit (hds.2 c hc)⟩
  | pointBehind hds hes =>
    refine ⟨List.append_ne_nil_of_left_ne_nil hds.1 _, fun c hc => ?_⟩
    rcases List.mem_append.1 hc with hc | hc
    · exact isNumberChar_of_isDigit (hds.2 c hc)
    rcases List.mem_cons.1 hc with rfl | hc
    · decide
    · exact isNumberChar_of_isDigit (hes c hc)
  | pointBefore hes =>
    refine ⟨List.cons_ne_nil _ _, fun c hc => ?_⟩
    rcases List.mem_cons.1 hc with rfl | hc
    · decide
    · exact isNumberChar_of_isDigit (hes.2 c hc)

theorem isNumberChar_of_isExponent {cs : List Char} (h : Literal.IsExponent Char.isDigit cs) :
    ∀ c ∈ cs, isNumberChar c = true := by
  intro c hc
  cases h with
  | absent => cases hc
  | present he hsign hds =>
    rcases List.mem_cons.1 hc with rfl | hc
    · rcases he with rfl | rfl <;> decide
    rcases List.mem_append.1 hc with hc | hc
    · exact (isNumberChar_of_isSign hsign c hc).1
    · exact (isNumberChar_of_isDigit (hds.2 c hc)).1

/-- A numeric literal is made of the characters of numbers, and no letter comes first. -/
theorem exists_cons_of_hasShape {cs : List Char} (h : Literal.HasShape Char.isDigit cs) :
    ∃ c ds, cs = c :: ds ∧ c.isAlpha = false ∧ ∀ d ∈ c :: ds, isNumberChar d = true := by
  obtain ⟨sign, mantissa, exponent, hsign, hmantissa, hexponent, rfl⟩ := h
  obtain ⟨hne, hmantissa⟩ := isNumberChar_of_isMantissa hmantissa
  have hfront : ∀ c ∈ sign ++ mantissa, isNumberChar c = true ∧ c.isAlpha = false := by
    intro c hc
    rcases List.mem_append.1 hc with hc | hc
    · exact isNumberChar_of_isSign hsign c hc
    · exact hmantissa c hc
  obtain ⟨c, ds, hcons⟩ :=
    List.exists_cons_of_ne_nil (List.append_ne_nil_of_right_ne_nil sign hne)
  rw [hcons] at hfront
  refine ⟨c, ds ++ exponent, ?_, (hfront c (List.mem_cons_self ..)).2, fun d hd => ?_⟩
  · rw [← List.append_assoc, hcons, List.cons_append]
  · rcases List.mem_append.1 (List.cons_append ▸ hd) with hd | hd
    · exact (hfront d hd).1
    · exact isNumberChar_of_isExponent hexponent d hd

/-- **A number is cut as one token, whatever its value.** -/
theorem readAll_number {cs rest : List Char} (h : Literal.HasShape Char.isDigit cs)
    (hrest : Apart rest) : readAll (cs ++ rest) =
      (ofNumberChars? cs).bind fun t => (readAll rest).map (t :: ·) := by
  obtain ⟨c, ds, rfl, halpha, hall⟩ := exists_cons_of_hasShape h
  have hc := hall c (List.mem_cons_self ..)
  have hds : ∀ d ∈ ds, isNumberChar d = true := fun d hd => hall d (List.mem_cons_of_mem _ hd)
  have hinner : isInner c = true := by rw [isInner, hc, Bool.or_true]
  obtain ⟨hblank, hmark, hquote⟩ := not_mark_of_isInner hinner
  rw [List.cons_append, readAll_cons hblank, readFirst, hmark]
  dsimp only
  rw [if_neg (by simpa using hquote), if_neg (by rw [halpha]; decide),
    hrest.stops_isNumberChar.takeWhile_append hds, hrest.stops_isNumberChar.dropWhile_append hds,
    Option.bind_map]
  rfl

/-! ### Parts of a text -/

/-- Before anything that stands apart, the characters are cut into the tokens. -/
def Cuts (cs : List Char) (ts : List Token) : Prop :=
  ∀ rest, Apart rest → readAll (cs ++ rest) = (readAll rest).map (ts ++ ·)

namespace Cuts

variable {cs ds : List Char} {ts us : List Token}

theorem readAll_eq (h : Cuts cs ts) : readAll cs = some ts := by
  have hread := h [] .nil
  rw [List.append_nil] at hread
  rw [hread, readAll_nil, Option.map_some, List.append_nil]

theorem nil : Cuts [] [] := by
  intro rest _
  rw [List.nil_append]
  exact Option.map_id'.symm

theorem blank {c : Char} (hc : isBlank c = true) (h : Cuts cs ts) : Cuts (c :: cs) ts := by
  intro rest hrest
  rw [List.cons_append, readAll_blank hc, h rest hrest]

theorem append_blank {c : Char} (h : Cuts cs ts) (hc : isBlank c = true) :
    Cuts (cs ++ [c]) ts := by
  intro rest hrest
  rw [List.append_assoc, List.singleton_append, h _ (.of_blank hc rest), readAll_blank hc]

theorem mark {c : Char} {t : Token} (hc : ofMark? c = some t) (h : Cuts cs ts) :
    Cuts (c :: cs) (t :: ts) := by
  intro rest hrest
  rw [List.cons_append, readAll_mark hc, h rest hrest, Option.map_map]
  rfl

theorem quoteText (s : String) (h : Cuts cs ts) :
    Cuts (quoteText s ++ cs) (text (some s) :: ts) := by
  intro rest hrest
  rw [List.append_assoc, readAll_quoteText, h rest hrest, Option.map_map]
  rfl

/-- Parts that stand apart are cut one after the other. -/
theorem append (h : Cuts cs ts) (h' : Cuts ds us) (hne : ds ≠ []) (hapart : Apart ds) :
    Cuts (cs ++ ds) (ts ++ us) := by
  intro rest hrest
  rw [List.append_assoc, h _ (Stops.append_of_ne_nil hne hapart), h' rest hrest, Option.map_map]
  refine congrArg (Option.map · (readAll rest)) (funext fun vs => ?_)
  exact (List.append_assoc ts us vs).symm

theorem append_mark {c : Char} {t : Token} (h : Cuts cs ts) (hc : ofMark? c = some t)
    (h' : Cuts ds us) : Cuts (cs ++ c :: ds) (ts ++ t :: us) :=
  h.append (h'.mark hc) (List.cons_ne_nil _ _) (.of_mark hc ds)

/-- What has commas between its parts is cut part by part. -/
theorem intercalate {α : Type} {write : α → List Char} {tokens : α → List Token} {xs : List α}
    (h : ∀ x ∈ xs, Cuts (write x) (tokens x)) :
    Cuts ([','].intercalate (xs.map write)) ([comma].intercalate (xs.map tokens)) := by
  induction xs with
  | nil => exact nil
  | cons x xs ih =>
    have hx := h x (List.mem_cons_self ..)
    have hxs := ih fun y hy => h y (List.mem_cons_of_mem _ hy)
    cases xs with
    | nil =>
      rw [List.map_singleton, List.map_singleton, List.intercalate_singleton,
        List.intercalate_singleton]
      exact hx
    | cons y ys =>
      rw [List.map_cons, List.map_cons, List.map_cons, List.map_cons, List.intercalate_cons_cons,
        List.intercalate_cons_cons, List.append_assoc, List.append_assoc]
      exact hx.append_mark rfl hxs

theorem newLine (level : Nat) (h : Cuts cs ts) : Cuts (newLine level ++ cs) ts := by
  have hspaces : ∀ n, Cuts (List.replicate n ' ' ++ cs) ts := by
    intro n
    induction n with
    | zero => exact h
    | succ n ih => exact ih.blank rfl
  exact (hspaces (2 * level)).blank rfl

theorem bracketed {opening closing : Char} {t u : Token} (level : Nat) {lines : List Char}
    (hopening : ofMark? opening = some t) (hclosing : ofMark? closing = some u)
    (h : Cuts lines ts) : Cuts (bracketed opening closing level lines) (t :: (ts ++ [u])) := by
  rw [Json.bracketed]
  split
  next hempty =>
    obtain rfl := List.isEmpty_iff.1 hempty
    obtain rfl := Option.some.inj h.readAll_eq
    exact .mark hopening (.mark hclosing .nil)
  next =>
    rw [List.append_assoc]
    exact .mark hopening (h.append (.newLine level (.mark hclosing .nil)) (by simp [Json.newLine])
      (Stops.cons_iff.2 (by decide)))

end Cuts

theorem cuts_null : Cuts "null".toList [null] :=
  fun _ hrest => readAll_null hrest

theorem cuts_quoteText (s : String) : Cuts (Json.quoteText s) [text (some s)] :=
  fun rest _ => readAll_quoteText s rest

theorem cuts_booleanChars (b : Bool) : Cuts (booleanChars b) [boolean b] :=
  fun _ hrest => readAll_booleanChars b hrest

end Token

end ColumnFilter.Json
