import ColumnFilter.Proofs.Json.Reading

/-!
# Which forms are values

A text may have the form of JSON and still be read as nothing, because one of its parts stands
for nothing or because too many brackets are around one another.  `WholeWithin n` says of a
form that all its parts stand for something, with `n` arrays and objects around any of them at
most.  What has been read so far can be whole in the same way, whatever the state, and a token
keeps it so exactly if it stands for something itself and opens nothing too deep
(`State.whole_iff_of_step`).  So a text is read as a value exactly if it has the form of one
and that is whole (`parse?_eq_some_iff`).
-/

namespace ColumnFilter.Json

variable {limit bound n : Nat} {stack : List Frame}

/-! ### Whole values -/

/-- Every part of the value stands for something, and no part has more than `n` arrays and objects
around it. -/
inductive WholeWithin : Nat → Json → Prop
  | null {n : Nat} : WholeWithin n null
  | boolean {n : Nat} {b : Bool} : WholeWithin n (boolean b)
  | number {n : Nat} {x : Number} : WholeWithin n (number x)
  | text {n : Nat} {s : String} : WholeWithin n (text s)
  | array {n : Nat} {items : List Json} : (∀ v ∈ items, WholeWithin n v) →
      WholeWithin (n + 1) (array items)
  | object {n : Nat} {members : List (String × Json)} : (∀ m ∈ members, WholeWithin n m.2) →
      WholeWithin (n + 1) (object members)

/-- Every member has a name, and its value is whole. -/
def MembersWhole (n : Nat) (members : List (Option String × Json)) : Prop :=
  ∀ m ∈ members, m.1.isSome = true ∧ m.2.WholeWithin n

/-- An array within `depth` arrays and objects has items within one more. -/
theorem wholeWithin_array_iff {items : List Json} {depth : Nat} :
    (array items).WholeWithin (limit - depth) ↔
      depth < limit ∧ ∀ v ∈ items, v.WholeWithin (limit - (depth + 1)) := by
  constructor
  · intro h
    generalize hn : limit - depth = n at h
    cases h with
    | @array m _ hitems =>
      obtain rfl : m = limit - (depth + 1) := by omega
      exact ⟨by omega, hitems⟩
  · rintro ⟨hlt, hitems⟩
    have hsucc : limit - depth = limit - (depth + 1) + 1 := by omega
    rw [hsucc]
    exact .array hitems

theorem wholeWithin_object_iff {members : List (String × Json)} {depth : Nat} :
    (object members).WholeWithin (limit - depth) ↔
      depth < limit ∧ ∀ m ∈ members, m.2.WholeWithin (limit - (depth + 1)) := by
  constructor
  · intro h
    generalize hn : limit - depth = n at h
    cases h with
    | @object m _ hmembers =>
      obtain rfl : m = limit - (depth + 1) := by omega
      exact ⟨by omega, hmembers⟩
  · rintro ⟨hlt, hmembers⟩
    have hsucc : limit - depth = limit - (depth + 1) + 1 := by omega
    rw [hsucc]
    exact .object hmembers

theorem not_wholeWithin_unreadable : ¬unreadable.WholeWithin n := nofun

/-- Members make up an object if all of them have a name. -/
theorem ofMembers_cases (members : List (Option String × Json)) :
    (∃ ms, members = named ms) ∨
      (∃ m ∈ members, m.1 = none) ∧ ofMembers members = unreadable := by
  have hcases : (∃ ms, members = named ms) ∨ (∃ m ∈ members, m.1 = none) ∧
      (members.mapM fun m => m.1.map (·, m.2)) = none := by
    induction members with
    | nil => exact .inl ⟨[], rfl⟩
    | cons m members ih =>
      obtain ⟨name, v⟩ := m
      cases name with
      | none => exact .inr ⟨⟨_, List.mem_cons_self .., rfl⟩, by rw [List.mapM_cons]; rfl⟩
      | some s =>
        rcases ih with ⟨ms, rfl⟩ | ⟨⟨m, hm, hname⟩, hnone⟩
        · exact .inl ⟨(s, v) :: ms, rfl⟩
        · refine .inr ⟨⟨m, List.mem_cons_of_mem _ hm, hname⟩, ?_⟩
          rw [List.mapM_cons, hnone]
          rfl
  rcases hcases with hnamed | ⟨hmem, hnone⟩
  · exact .inl hnamed
  · exact .inr ⟨hmem, by rw [ofMembers, hnone]⟩

theorem membersWhole_nil : MembersWhole n [] := nofun

theorem membersWhole_concat {members : List (Option String × Json)} {name : Option String}
    {v : Json} : MembersWhole n (members ++ [(name, v)]) ↔
      MembersWhole n members ∧ name.isSome = true ∧ v.WholeWithin n := by
  rw [MembersWhole, List.forall_mem_append, List.forall_mem_singleton]
  rfl

theorem wholeWithin_ofMembers_iff {members : List (Option String × Json)} {depth : Nat} :
    (ofMembers members).WholeWithin (limit - depth) ↔
      depth < limit ∧ MembersWhole (limit - (depth + 1)) members := by
  rcases ofMembers_cases members with ⟨ms, rfl⟩ | ⟨⟨m, hm, hname⟩, hunreadable⟩
  · rw [ofMembers_named, wholeWithin_object_iff, MembersWhole, named, List.forall_mem_map]
    simp
  · rw [hunreadable]
    constructor
    · intro h
      exact absurd h not_wholeWithin_unreadable
    · rintro ⟨-, hms⟩
      have hsome := (hms m hm).1
      rw [hname] at hsome
      cases hsome

/-! ### Whole states -/

/-- What an array or object holds so far is whole. -/
def Frame.Whole (n : Nat) : Frame → Prop
  | array items => ∀ v ∈ items, v.WholeWithin n
  | object members name => MembersWhole n members ∧ name.isSome = true

/-- All that is open is whole, with at most `limit` of it. -/
def StackWhole (limit : Nat) : List Frame → Prop
  | [] => True
  | frame :: stack =>
    stack.length < limit ∧ frame.Whole (limit - (stack.length + 1)) ∧ StackWhole limit stack

namespace State

/-- All that has been read is whole, with at most `limit` arrays and objects open at once. -/
def Whole (limit : Nat) : State → Prop
  | value stack => StackWhole limit stack
  | firstItem stack => stack.length < limit ∧ StackWhole limit stack
  | firstName stack => stack.length < limit ∧ StackWhole limit stack
  | name members stack =>
    stack.length < limit ∧ MembersWhole (limit - (stack.length + 1)) members ∧
      StackWhole limit stack
  | colon members s stack =>
    stack.length < limit ∧ MembersWhole (limit - (stack.length + 1)) members ∧ s.isSome = true ∧
      StackWhole limit stack
  | complete v stack => v.WholeWithin (limit - stack.length) ∧ StackWhole limit stack

theorem whole_iff_of_beginValue {s : State} {t : Token} (h : beginValue limit stack t = some s) :
    s.Whole bound ↔
      StackWhole bound stack ∧ t.isReadable = true ∧ beginValue bound stack t = some s := by
  rw [beginValue.eq_def] at h
  split at h
  case h_7 => cases h
  case h_5 | h_6 =>
    split at h
    · obtain rfl := Option.some.inj h
      simp [Whole, beginValue, Token.isReadable, and_comm]
    · cases h
  case h_1 =>
    obtain rfl := Option.some.inj h
    simp [Whole, beginValue, Token.isReadable, WholeWithin.null]
  case h_2 =>
    obtain rfl := Option.some.inj h
    simp [Whole, beginValue, Token.isReadable, WholeWithin.boolean]
  case h_3 x =>
    obtain rfl := Option.some.inj h
    cases x with
    | none => simp [Whole, Token.isReadable, not_wholeWithin_unreadable]
    | some x => simp [Whole, beginValue, Token.isReadable, WholeWithin.number]
  case h_4 s =>
    obtain rfl := Option.some.inj h
    cases s with
    | none => simp [Whole, Token.isReadable, not_wholeWithin_unreadable]
    | some s => simp [Whole, beginValue, Token.isReadable, WholeWithin.text]

/-- **A token keeps what has been read whole** exactly if it stands for something and is allowed
to open what it opens. -/
theorem whole_iff_of_step {s s' : State} {t : Token} (h : s.step limit t = some s') :
    s'.Whole bound ↔ s.Whole bound ∧ t.isReadable = true ∧ s.step bound t = some s' := by
  rw [step.eq_def] at h
  split at h
  case h_1 => exact whole_iff_of_beginValue h
  case h_3 stack t hne =>
    rw [whole_iff_of_beginValue h, step]
    · simp [Whole, StackWhole, Frame.Whole]
    · exact hne
  case h_12 => cases h
  -- what ends was allowed to be open, and is whole if all that it holds is
  case h_2 | h_4 | h_9 | h_11 =>
    obtain rfl := Option.some.inj h
    simp [Whole, StackWhole, Frame.Whole, step, Token.isReadable, wholeWithin_array_iff,
      wholeWithin_object_iff, wholeWithin_ofMembers_iff, membersWhole_concat, or_imp, forall_and,
      and_assoc, and_comm, and_left_comm]
  -- what is put on the stack is part of it
  all_goals
    obtain rfl := Option.some.inj h
    simp [Whole, StackWhole, Frame.Whole, step, Token.isReadable, membersWhole_nil,
      membersWhole_concat, or_imp, forall_and, and_assoc, and_comm, and_left_comm]

/-- What is read from tokens that stand for something is whole. -/
theorem whole_of_steps {s s' : State} {ts : List Token} (h : s.steps limit ts = some s')
    (hreadable : ts.all Token.isReadable = true) (hs : s.Whole limit) : s'.Whole limit := by
  induction ts generalizing s with
  | nil =>
    obtain rfl := Option.some.inj h
    exact hs
  | cons t ts ih =>
    rw [List.all_cons, Bool.and_eq_true] at hreadable
    rw [steps] at h
    split at h
    · cases h
    next next hstep =>
      have hnext : next.Whole limit := (whole_iff_of_step hstep).2 ⟨hs, hreadable.1, hstep⟩
      exact ih h hreadable.2 hnext

/-- What is whole is read from tokens that stand for something, with no more open than allowed. -/
theorem steps_of_whole {s s' : State} {ts : List Token} (h : s.steps limit ts = some s')
    (hs' : s'.Whole bound) :
    s.Whole bound ∧ ts.all Token.isReadable = true ∧ s.steps bound ts = some s' := by
  induction ts generalizing s with
  | nil =>
    obtain rfl := Option.some.inj h
    exact ⟨hs', rfl, rfl⟩
  | cons t ts ih =>
    rw [steps] at h
    split at h
    · cases h
    next next hstep =>
      obtain ⟨hnext, hts, hsteps⟩ := ih h
      obtain ⟨hs, ht, hbound⟩ := (whole_iff_of_step hstep).1 hnext
      refine ⟨hs, ?_, ?_⟩
      · rw [List.all_cons, ht, hts]
        rfl
      · rw [steps_cons hbound, hsteps]

theorem result?_eq_some_iff {s : State} {v : Json} :
    s.result? = some v ↔ s = complete v [] := by
  constructor
  · intro h
    rw [result?.eq_def] at h
    split at h
    · rw [Option.some.inj h]
    · cases h
  · rintro rfl
    rfl

end State

open State

/-- **A text is read as a value exactly if it has the form of that value and the form is whole.** -/
theorem parse?_eq_some_iff {text : String} {v : Json} :
    parse? text = some v ↔ parseForm? text = some v ∧ v.WholeWithin maxDepth := by
  constructor
  · intro h
    refine ⟨parseForm?_of_parse? h, ?_⟩
    rw [parse?] at h
    obtain ⟨ts, -, h⟩ := Option.bind_eq_some_iff.1 h
    split at h
    next hreadable =>
      obtain ⟨s, hsteps, hresult⟩ := Option.bind_eq_some_iff.1 h
      obtain rfl := result?_eq_some_iff.1 hresult
      exact (whole_of_steps hsteps hreadable trivial).1
    next => cases h
  · rintro ⟨h, hwhole⟩
    rw [parseForm?] at h
    obtain ⟨ts, hts, h⟩ := Option.bind_eq_some_iff.1 h
    obtain ⟨s, hsteps, hresult⟩ := Option.bind_eq_some_iff.1 h
    obtain rfl := result?_eq_some_iff.1 hresult
    have hs : (complete v []).Whole maxDepth := ⟨hwhole, trivial⟩
    obtain ⟨-, hreadable, hbounded⟩ := steps_of_whole hsteps hs
    rw [parse?, hts, Option.bind_some, if_pos hreadable, ofTokens?, hbounded]
    rfl

end ColumnFilter.Json
