import ColumnFilter.CommandLine.Command
import ColumnFilter.Proofs.Stored.Kept

/-!
# Printing a filter and rendering what is printed

`parse` prints the stored form of a filter and `render` prints the canonical text of a
stored filter, so one undoes the other but for what JSON does not keep.  Nothing fails on
the way: `render_of_parse` says that the second command always prints the text of the
part that is kept, and that this is the text of the filter exactly if all of its numbers
are finite.  A literal too great for a double is read as an infinity, so there are texts
with other numbers in them.
-/

namespace ColumnFilter.CommandLine

theorem Outcome.line_inj {s t : String} : line s = line t ↔ s = t := by
  rw [line, line, Outcome.mk.injEq, String.append_left_inj]
  exact and_iff_right rfl

/-- **What `parse` prints is rendered as the kept part of the filter**, whether it comes from a
file or not, and so as the filter itself exactly if each of its numbers is finite. -/
theorem render_of_parse {expression : String} {declarations : Declarations}
    {input : Option String} {f : Filter}
    (hfilter : Command.filter? expression declarations input = some f)
    (hreads : ∀ c ∈ f.conditions, ∀ x, Scalar.number x ∈ c.value.items → x.isFinite = true →
      x.ReadsBack) (file : Option String) :
    ∃ printed, (Command.parse expression declarations).run input = ⟨.success, printed⟩ ∧
      (Command.render file).run (some printed) = .line f.kept.text ∧
      ((Command.render file).run (some printed) = .line f.text ↔
        ∀ c ∈ f.conditions, ∀ x, Scalar.number x ∈ c.value.items → x.isFinite = true) := by
  have hrender : (Command.render file).run (some (f.toJson.indented ++ "\n")) =
      .line f.kept.text := by
    rw [Command.run, Option.bind_some, Filter.ofAnyStored?_indented_line hreads]
  refine ⟨f.toJson.indented ++ "\n", ?_, hrender, ?_⟩
  · rw [Command.run, hfilter]
    rfl
  · rw [hrender, Outcome.line_inj]
    exact f.text_kept_eq_iff

/-- A list with a number, and a text between other quotes. -/
theorem render_of_parse_twoColumns :
    ∃ printed, (Command.parse "AGE in (2.10e1, x) or name='no'"
        ⟨none, [⟨"age", .number⟩, ⟨"name", .string⟩]⟩).run none = ⟨.success, printed⟩ ∧
      (Command.render none).run (some printed) =
        .line "age in (21, \"x\") or name = \"no\"" := by
  have hfilter : Command.filter? "AGE in (2.10e1, x) or name='no'"
      ⟨none, [⟨"age", .number⟩, ⟨"name", .string⟩]⟩ none =
        some ⟨[⟨"age", .oneOf, .list [.number (Decimal.toNumber false ⟨21, 0⟩), .text "x"]⟩,
          ⟨"name", .equal, .single (.text "no")⟩], [.or]⟩ := by
    decide +kernel
  have hreads : (Decimal.toNumber false ⟨21, 0⟩).ReadsBack := by decide +kernel
  refine (render_of_parse hfilter ?_ none).imp fun printed h => ⟨h.1, h.2.1.trans ?_⟩
  · intro c hc x hx _
    simp only [List.mem_cons, List.not_mem_nil, or_false] at hc
    obtain rfl | rfl := hc
    · simp only [Value.items, List.mem_cons, List.not_mem_nil, Scalar.number.injEq, reduceCtorEq,
        or_false] at hx
      rw [hx]
      exact hreads
    · simp [Value.items] at hx
  · decide +kernel

/-- A number too great for a double comes back as `null`. -/
theorem render_parse_tooGreat :
    (Command.filter? "age > 1e400" ⟨none, [⟨"age", .number⟩]⟩ none).map Filter.text =
        some "age > inf" ∧
      ((Command.parse "age > 1e400" ⟨none, [⟨"age", .number⟩]⟩).run none).status = .success ∧
      (Command.render none).run (some ((Command.parse "age > 1e400"
        ⟨none, [⟨"age", .number⟩]⟩).run none).output) = .line "age > null" := by
  decide +kernel

end ColumnFilter.CommandLine
