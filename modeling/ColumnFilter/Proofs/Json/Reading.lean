import ColumnFilter.Json.Parse
import ColumnFilter.Proofs.Json.Lexing
import ColumnFilter.Proofs.Number.JsonForm

/-!
# A printed value is read back

A value is printed as its `tokens`, in either layout.  What is printed is cut into
these tokens again (`cuts_compactChars`, `cuts_indentedChars`), and taking them one
at a time puts the value on the stack where it began (`steps_tokens`), so the value
is read back (`parse?_compact`, `parse?_indented`).  Two things may stand in the
way, and `Printable` and `depth` name them: a number whose printed form is not read
as that number, and too many brackets around one another.  What is read as a value
has the form of that value (`parseForm?_of_parse?`), so readers that ask for no
more than the form agree.
-/

namespace ColumnFilter

/-- The number is read back from what JSON has for it. -/
def Number.ReadsBack (x : Number) : Prop :=
  Json.parse? (Json.compact (.number x)) = some (.number x)

namespace Json

mutual

/-- The tokens of a value. -/
def tokens : Json → List Token
  | null => [.null]
  | boolean b => [.boolean b]
  | number x => [.number (some x)]
  | text s => [.text (some s)]
  | array items => .openArray :: (itemTokens items ++ [.closeArray])
  | object members => .openObject :: (memberTokens members ++ [.closeObject])
  | unreadable => [.null]

/-- The tokens of items with commas between them. -/
def itemTokens : List Json → List Token
  | [] => []
  | [v] => tokens v
  | v :: vs => tokens v ++ .comma :: itemTokens vs

/-- The tokens of members with commas between them. -/
def memberTokens : List (String × Json) → List Token
  | [] => []
  | [(s, v)] => .text (some s) :: .colon :: tokens v
  | (s, v) :: rest => .text (some s) :: .colon :: (tokens v ++ .comma :: memberTokens rest)

end

/-- The tokens of a member. -/
def tokensOfMember (m : String × Json) : List Token :=
  .text (some m.1) :: .colon :: m.2.tokens

mutual

/-- The number of arrays and objects around the innermost part of a value. -/
def depth : Json → Nat
  | array items => itemsDepth items + 1
  | object members => membersDepth members + 1
  | _ => 0

/-- The greatest depth of some items. -/
def itemsDepth : List Json → Nat
  | [] => 0
  | v :: vs => max (depth v) (itemsDepth vs)

/-- The greatest depth of some members. -/
def membersDepth : List (String × Json) → Nat
  | [] => 0
  | (_, v) :: rest => max (depth v) (membersDepth rest)

end

theorem depth_array_le {items : List Json} {n : Nat} (h : ∀ v ∈ items, v.depth ≤ n) :
    (array items).depth ≤ n + 1 := by
  have hitems : itemsDepth items ≤ n := by
    induction items with
    | nil => exact Nat.zero_le n
    | cons v vs ih =>
      have htail := ih fun u hu => h u (List.mem_cons_of_mem _ hu)
      exact Nat.max_le.2 ⟨h v (List.mem_cons_self ..), htail⟩
  exact Nat.succ_le_succ hitems

theorem depth_object_le {members : List (String × Json)} {n : Nat}
    (h : ∀ m ∈ members, m.2.depth ≤ n) : (object members).depth ≤ n + 1 := by
  have hmembers : membersDepth members ≤ n := by
    induction members with
    | nil => exact Nat.zero_le n
    | cons m members ih =>
      have htail := ih fun u hu => h u (List.mem_cons_of_mem _ hu)
      exact Nat.max_le.2 ⟨h m (List.mem_cons_self ..), htail⟩
  exact Nat.succ_le_succ hmembers

/-- Every part of the value stands for something, and its numbers are read back. -/
inductive Printable : Json → Prop
  | null : Printable null
  | boolean {b : Bool} : Printable (boolean b)
  | number {x : Number} : x.ReadsBack → Printable (number x)
  | text {s : String} : Printable (text s)
  | array {items : List Json} : (∀ v ∈ items, Printable v) → Printable (array items)
  | object {members : List (String × Json)} : (∀ m ∈ members, Printable m.2) →
      Printable (object members)

variable {limit : Nat} {stack : List Frame} {v : Json}

/-! ### Tokens make up the value -/

namespace State

theorem steps_append (s : State) (ts us : List Token) :
    s.steps limit (ts ++ us) = (s.steps limit ts).bind (steps limit · us) := by
  induction ts generalizing s with
  | nil => rfl
  | cons t ts ih =>
    rw [List.cons_append, steps, steps]
    cases s.step limit t with
    | none => rfl
    | some next => exact ih next

theorem steps_cons {s s' : State} {t : Token} (h : s.step limit t = some s') (ts : List Token) :
    s.steps limit (t :: ts) = s'.steps limit ts := by
  rw [steps, h]

theorem steps_append_of_eq {s s' : State} {ts : List Token} (h : s.steps limit ts = some s')
    (us : List Token) : s.steps limit (ts ++ us) = s'.steps limit us := by
  rw [steps_append, h, Option.bind_some]

end State

open State

/-- A value does not begin with the end of an array. -/
theorem exists_tokens_eq_cons (v : Json) : ∃ t ts, v.tokens = t :: ts ∧ t ≠ .closeArray := by
  cases v <;> exact ⟨_, _, by rw [tokens], by simp⟩

/-- The first item of an array comes in no other way than the others. -/
theorem steps_firstItem {items : List Json} (hne : items ≠ []) (ts : List Token) :
    (firstItem stack).steps limit (itemTokens items ++ ts) =
      (value (.array [] :: stack)).steps limit (itemTokens items ++ ts) := by
  have hfirst : ∀ (v : Json) (ts : List Token), (firstItem stack).steps limit (v.tokens ++ ts) =
      (value (.array [] :: stack)).steps limit (v.tokens ++ ts) := by
    intro v ts
    obtain ⟨t, us, heq, ht⟩ := v.exists_tokens_eq_cons
    rw [heq, List.cons_append, steps, steps, step, step]
    exact ht
  match items, hne with
  | [v], _ => exact hfirst v ts
  | v :: w :: vs, _ =>
    rw [itemTokens]
    · rw [List.append_assoc]
      exact hfirst v _
    · simp

/-- So does the first name of an object. -/
theorem steps_firstName {members : List (String × Json)} (hne : members ≠ []) (ts : List Token) :
    (firstName stack).steps limit (memberTokens members ++ ts) =
      (name [] stack).steps limit (memberTokens members ++ ts) := by
  match members, hne with
  | [_], _ => rfl
  | _ :: _ :: _, _ => rfl

theorem steps_itemTokens {items : List Json} (hne : items ≠ [])
    (h : ∀ v ∈ items, ∀ stack : List Frame, stack.length + v.depth ≤ limit →
      (value stack).steps limit v.tokens = some (complete v stack))
    (hlimit : stack.length + 1 + itemsDepth items ≤ limit) (before : List Json) :
    (value (.array before :: stack)).steps limit (itemTokens items ++ [.closeArray]) =
      some (complete (.array (before ++ items)) stack) := by
  induction items generalizing before with
  | nil => exact absurd rfl hne
  | cons v vs ih =>
    rw [itemsDepth] at hlimit
    have hv := h v (List.mem_cons_self ..) (.array before :: stack)
      (by rw [List.length_cons]; omega)
    cases vs with
    | nil =>
      rw [itemTokens, steps_append_of_eq hv]
      rfl
    | cons w vs =>
      have hvs := ih (List.cons_ne_nil _ _) (fun u hu => h u (List.mem_cons_of_mem _ hu))
        (by omega) (before ++ [v])
      rw [itemTokens]
      · rw [List.append_assoc, steps_append_of_eq hv, List.cons_append, steps_cons rfl, hvs,
          List.append_assoc]
        rfl
      · simp

/-- Members that all have a name. -/
def named (members : List (String × Json)) : List (Option String × Json) :=
  members.map fun m => (some m.1, m.2)

theorem ofMembers_named (members : List (String × Json)) :
    ofMembers (named members) = .object members := by
  have hread : (named members).mapM (fun m => m.1.map (·, m.2)) = some members := by
    induction members with
    | nil => rfl
    | cons m members ih =>
      show ((named (m :: members)).mapM _ : Option _) = _
      rw [named, List.map_cons, List.mapM_cons]
      show ((named members).mapM _ : Option _).bind _ = _
      rw [ih]
      rfl
  rw [ofMembers, hread]

theorem steps_memberTokens {members : List (String × Json)} (hne : members ≠ [])
    (h : ∀ m ∈ members, ∀ stack : List Frame, stack.length + m.2.depth ≤ limit →
      (value stack).steps limit m.2.tokens = some (complete m.2 stack))
    (hlimit : stack.length + 1 + membersDepth members ≤ limit)
    (before : List (String × Json)) :
    (name (named before) stack).steps limit (memberTokens members ++ [.closeObject]) =
      some (complete (.object (before ++ members)) stack) := by
  induction members generalizing before with
  | nil => exact absurd rfl hne
  | cons m rest ih =>
    obtain ⟨s, v⟩ := m
    rw [membersDepth] at hlimit
    have hv : (value (.object (named before) (some s) :: stack)).steps limit v.tokens =
        some (complete v (.object (named before) (some s) :: stack)) :=
      h (s, v) (List.mem_cons_self ..) _ (by rw [List.length_cons]; dsimp only; omega)
    have hbefore : named before ++ [(some s, v)] = named (before ++ [(s, v)]) := by
      rw [named, named, List.map_append]
      rfl
    cases rest with
    | nil =>
      rw [memberTokens, List.cons_append, List.cons_append, steps_cons rfl, steps_cons rfl,
        steps_append_of_eq hv, steps_cons rfl, hbefore, ofMembers_named]
      rfl
    | cons m rest =>
      have hrest := ih (List.cons_ne_nil _ _) (fun u hu => h u (List.mem_cons_of_mem _ hu))
        (by omega) (before ++ [(s, v)])
      rw [memberTokens]
      · rw [List.cons_append, List.cons_append, List.append_assoc, List.cons_append,
          steps_cons rfl, steps_cons rfl, steps_append_of_eq hv, steps_cons rfl, hbefore, hrest,
          List.append_assoc]
        rfl
      · simp

/-- **The tokens of a value put the value on the stack.** -/
theorem steps_tokens (h : v.Printable) (hlimit : stack.length + v.depth ≤ limit) :
    (value stack).steps limit v.tokens = some (complete v stack) := by
  induction h generalizing stack with
  | null => rfl
  | boolean => rfl
  | number _ => rfl
  | text => rfl
  | @array items _ ih =>
    rw [depth] at hlimit
    have hopen : (value stack).step limit .openArray = some (firstItem stack) :=
      if_pos (by omega)
    rw [tokens, steps_cons hopen]
    by_cases hne : items = []
    · rw [hne]
      rfl
    · rw [steps_firstItem hne]
      exact steps_itemTokens hne (fun v hv _ => ih v hv) (by omega) []
  | @object members _ ih =>
    rw [depth] at hlimit
    have hopen : (value stack).step limit .openObject = some (firstName stack) :=
      if_pos (by omega)
    rw [tokens, steps_cons hopen]
    by_cases hne : members = []
    · rw [hne]
      rfl
    · rw [steps_firstName hne]
      exact steps_memberTokens hne (fun m hm _ => ih m hm) (by omega) []

/-! ### Numbers -/

open Token

theorem exists_of_ofNumberChars? {cs : List Char} {t : Token} (h : ofNumberChars? cs = some t) :
    ∃ value, t = .number value := by
  rw [ofNumberChars?] at h
  split at h
  · cases h
  split at h
  · exact ⟨_, (Option.some.inj h).symm⟩
  · cases h

theorem readAll_numberChars {x : Number} (h : x.isFinite = true) {rest : List Char}
    (hrest : Apart rest) : readAll (numberChars x ++ rest) =
      (ofNumberChars? (numberChars x)).bind fun t => (readAll rest).map (t :: ·) := by
  cases x with
  | finite negative m hm =>
    have hshape : Literal.HasShape Char.isDigit (numberChars (.finite negative m hm)) :=
      Number.hasShape_of_jsonChars? (x := .finite negative m hm) rfl
    exact readAll_number hshape hrest
  | infinite => cases h
  | notANumber => cases h

theorem numberChars_of_not_isFinite {x : Number} (h : x.isFinite = false) :
    numberChars x = "null".toList := by
  cases x with
  | finite => cases h
  | infinite => rfl
  | notANumber => rfl

/-- Being read back is a matter of the number's own token. -/
theorem readsBack_iff {x : Number} :
    x.ReadsBack ↔ ofNumberChars? (numberChars x) = some (.number (some x)) := by
  rw [Number.ReadsBack, parse?, compact, String.toList_ofList, compactChars]
  cases hfinite : x.isFinite with
  | true =>
    have hread := readAll_numberChars hfinite Apart.nil
    rw [List.append_nil] at hread
    rw [hread]
    cases ht : ofNumberChars? (numberChars x) with
    | none => simp
    | some t =>
      obtain ⟨value, rfl⟩ := exists_of_ofNumberChars? ht
      cases value with
      | none => simp [isReadable]
      | some y =>
        have hvalue : ofTokens? maxDepth [.number (some y)] = some (.number y) := rfl
        simp [isReadable, hvalue]
  | false =>
    -- what is not finite is printed as no number at all
    have htoken : ofNumberChars? "null".toList = none := by decide
    rw [numberChars_of_not_isFinite hfinite, cuts_null.readAll_eq, htoken]
    simp [isReadable, ofTokens?, steps, step, beginValue, result?]

instance (x : Number) : Decidable x.ReadsBack :=
  decidable_of_iff _ readsBack_iff.symm

theorem isFinite_of_readsBack {x : Number} (h : x.ReadsBack) : x.isFinite = true := by
  cases x with
  | finite => rfl
  | infinite => cases readsBack_iff.1 h
  | notANumber => cases readsBack_iff.1 h

theorem cuts_numberChars {x : Number} (h : x.ReadsBack) :
    Cuts (numberChars x) [.number (some x)] := by
  intro rest hrest
  rw [readAll_numberChars (isFinite_of_readsBack h) hrest, readsBack_iff.1 h]
  rfl

/-! ### What is printed is cut into the tokens -/

/-- What puts a separator before every part but the first puts it between the parts. -/
theorem eq_intercalate {α β : Type} {join : List α → List β} {write : α → List β} {separator : β}
    (hnil : join [] = []) (hone : ∀ x, join [x] = write x)
    (hmore : ∀ x y xs, join (x :: y :: xs) = write x ++ separator :: join (y :: xs))
    (xs : List α) : join xs = [separator].intercalate (xs.map write) := by
  induction xs with
  | nil => exact hnil
  | cons x xs ih =>
    cases xs with
    | nil => rw [hone, List.map_singleton, List.intercalate_singleton]
    | cons y ys =>
      rw [hmore, ih, List.map_cons, List.map_cons, List.map_cons, List.intercalate_cons_cons,
        List.append_assoc]
      rfl

theorem itemTokens_eq (items : List Json) :
    itemTokens items = [.comma].intercalate (items.map tokens) :=
  eq_intercalate rfl (fun _ => rfl) (fun _ _ _ => rfl) items

theorem memberTokens_eq (members : List (String × Json)) :
    memberTokens members = [.comma].intercalate (members.map tokensOfMember) :=
  eq_intercalate rfl (fun _ => rfl) (fun _ _ _ => rfl) members

theorem compactItems_eq (items : List Json) :
    compactItems items = [','].intercalate (items.map compactChars) :=
  eq_intercalate rfl (fun _ => rfl) (fun _ _ _ => rfl) items

theorem compactMembers_eq (members : List (String × Json)) : compactMembers members =
    [','].intercalate (members.map fun m => quoteText m.1 ++ ':' :: m.2.compactChars) :=
  eq_intercalate rfl (fun _ => rfl) (fun m _ _ => by simp [compactMembers]) members

theorem indentedItems_eq (level : Nat) (items : List Json) : indentedItems level items =
    [','].intercalate (items.map fun v => newLine level ++ indentedChars level v) :=
  eq_intercalate rfl (fun _ => rfl) (fun _ _ _ => rfl) items

theorem indentedMembers_eq (level : Nat) (members : List (String × Json)) :
    indentedMembers level members = [','].intercalate (members.map fun m =>
      newLine level ++ (quoteText m.1 ++ ':' :: ' ' :: indentedChars level m.2)) :=
  eq_intercalate rfl (fun m => by simp [indentedMembers])
    (fun m _ _ => by simp [indentedMembers]) members

/-- **A value without blanks is cut into its tokens.** -/
theorem cuts_compactChars (h : v.Printable) : Cuts v.compactChars v.tokens := by
  induction h with
  | null => exact cuts_null
  | boolean => exact cuts_booleanChars _
  | number hx => exact cuts_numberChars hx
  | text => exact cuts_quoteText _
  | array _ ih =>
    rw [compactChars, tokens, compactItems_eq, itemTokens_eq]
    exact .mark rfl ((Cuts.intercalate ih).append_mark rfl .nil)
  | object _ ih =>
    rw [compactChars, tokens, compactMembers_eq, memberTokens_eq]
    refine .mark rfl ((Cuts.intercalate fun m hm => ?_).append_mark rfl .nil)
    exact .quoteText _ (.mark rfl (ih m hm))

/-- **A value with a line for every item and member is cut into its tokens.** -/
theorem cuts_indentedChars (h : v.Printable) (level : Nat) :
    Cuts (indentedChars level v) v.tokens := by
  induction h generalizing level with
  | null => exact cuts_null
  | boolean => exact cuts_booleanChars _
  | number hx => exact cuts_numberChars hx
  | text => exact cuts_quoteText _
  | array _ ih =>
    rw [indentedChars, tokens, indentedItems_eq, itemTokens_eq]
    refine .bracketed level rfl rfl (.intercalate fun v hv => ?_)
    exact .newLine _ (ih v hv _)
  | object _ ih =>
    rw [indentedChars, tokens, indentedMembers_eq, memberTokens_eq]
    refine .bracketed level rfl rfl (.intercalate fun m hm => ?_)
    exact .newLine _ (.quoteText _ (.mark rfl (.blank rfl (ih m hm _))))

/-! ### Reading -/

theorem isReadable_intercalate {tss : List (List Token)}
    (h : ∀ ts ∈ tss, ts.all isReadable = true) :
    ([Token.comma].intercalate tss).all isReadable = true := by
  induction tss with
  | nil => rfl
  | cons ts tss ih =>
    have hts := h ts (List.mem_cons_self ..)
    have htss := ih fun us hus => h us (List.mem_cons_of_mem _ hus)
    cases tss with
    | nil =>
      rw [List.intercalate_singleton]
      exact hts
    | cons us tss =>
      rw [List.intercalate_cons_cons, List.all_append, List.all_append, hts, htss]
      rfl

theorem isReadable_tokens (h : v.Printable) : v.tokens.all isReadable = true := by
  induction h with
  | null | boolean | number | text => rfl
  | array _ ih =>
    rw [tokens, itemTokens_eq, List.all_cons, List.all_append, isReadable_intercalate]
    · rfl
    · exact List.forall_mem_map.2 ih
  | object _ ih =>
    rw [tokens, memberTokens_eq, List.all_cons, List.all_append, isReadable_intercalate]
    · rfl
    · exact List.forall_mem_map.2 ih

/-- **Characters that are cut into the tokens of a value are read as the value.** -/
theorem parse?_of_cuts {cs : List Char} (h : v.Printable) (hdepth : v.depth ≤ maxDepth)
    (hcuts : Cuts cs v.tokens) : parse? (String.ofList cs) = some v := by
  have hsteps : (value []).steps maxDepth v.tokens = some (complete v []) :=
    steps_tokens h (by rw [List.length_nil]; omega)
  rw [parse?, String.toList_ofList, hcuts.readAll_eq, Option.bind_some,
    if_pos (isReadable_tokens h), ofTokens?, hsteps]
  rfl

theorem parse?_compact (h : v.Printable) (hdepth : v.depth ≤ maxDepth) :
    parse? v.compact = some v :=
  parse?_of_cuts h hdepth (cuts_compactChars h)

theorem parse?_indented (h : v.Printable) (hdepth : v.depth ≤ maxDepth) :
    parse? v.indented = some v :=
  parse?_of_cuts h hdepth (cuts_indentedChars h 0)

/-- The end of its last line may follow a value. -/
theorem parse?_indented_line (h : v.Printable) (hdepth : v.depth ≤ maxDepth) :
    parse? (v.indented ++ "\n") = some v := by
  have hcuts := (cuts_indentedChars h 0).append_blank (c := '\n') rfl
  have hline : v.indented ++ "\n" = String.ofList (indentedChars 0 v ++ ['\n']) := by
    rw [String.ofList_append]
    rfl
  rw [hline]
  exact parse?_of_cuts h hdepth hcuts

/-! ### Values and forms -/

namespace State

/-- The arrays and objects that are open. -/
def opened : State → Nat
  | value stack => stack.length
  | firstItem stack => stack.length + 1
  | firstName stack => stack.length + 1
  | name _ stack => stack.length + 1
  | colon _ _ stack => stack.length + 1
  | complete _ stack => stack.length

theorem beginValue_of_lt {limit' : Nat} {s : State} {t : Token}
    (h : beginValue limit stack t = some s) (hlt : stack.length < limit') :
    beginValue limit' stack t = some s ∧ s.opened ≤ stack.length + 1 := by
  rw [beginValue.eq_def] at h
  split at h
  case h_5 | h_6 =>
    split at h
    · obtain rfl := Option.some.inj h
      exact ⟨if_pos hlt, Nat.le_refl _⟩
    · cases h
  case h_7 => cases h
  all_goals
    obtain rfl := Option.some.inj h
    exact ⟨rfl, Nat.le_succ _⟩

/-- A token opens one array or object at most, and only if that is allowed. -/
theorem step_of_lt {limit' : Nat} {s s' : State} {t : Token} (h : s.step limit t = some s')
    (hlt : s.opened < limit') : s.step limit' t = some s' ∧ s'.opened ≤ s.opened + 1 := by
  rw [step.eq_def] at h
  split at h
  case h_1 => exact beginValue_of_lt h hlt
  case h_3 stack t hne =>
    rw [step]
    · exact beginValue_of_lt h hlt
    · exact hne
  case h_12 => cases h
  all_goals
    obtain rfl := Option.some.inj h
    exact ⟨rfl, by simp only [opened, List.length_cons]; omega⟩

theorem steps_of_le {limit' : Nat} {s s' : State} {ts : List Token}
    (h : s.steps limit ts = some s') (hle : s.opened + ts.length ≤ limit') :
    s.steps limit' ts = some s' := by
  induction ts generalizing s with
  | nil => exact h
  | cons t ts ih =>
    rw [List.length_cons] at hle
    rw [steps] at h
    split at h
    · cases h
    next next hstep =>
      obtain ⟨hstep', hopened⟩ := step_of_lt hstep (show s.opened < limit' by omega)
      rw [steps_cons hstep']
      exact ih h (by omega)

end State

/-- **What is read as a value has the form of that value.** -/
theorem parseForm?_of_parse? {text : String} (h : parse? text = some v) :
    parseForm? text = some v := by
  rw [parse?] at h
  obtain ⟨ts, hts, h⟩ := Option.bind_eq_some_iff.1 h
  split at h
  · obtain ⟨s, hsteps, hresult⟩ := Option.bind_eq_some_iff.1 h
    have hform : (value []).steps ts.length ts = some s :=
      steps_of_le hsteps (by simp [opened])
    rw [parseForm?, hts, Option.bind_some, ofTokens?, hform]
    exact hresult
  · cases h

end Json

end ColumnFilter
