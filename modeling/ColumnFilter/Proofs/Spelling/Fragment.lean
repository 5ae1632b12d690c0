import ColumnFilter.Grammar.Fragment
import ColumnFilter.Proofs.Spelling.Phrase

/-!
# Parts of a spelling as whole texts

A fragment is matched with nothing behind it.  What is matched so is what its pattern
matches as far as the text goes (`Grammar.isSome_run_only_iff`), so every part of a spelled
condition is the fragment that it is meant to be.
-/

namespace ColumnFilter

namespace Grammar

open Pattern

variable {p : Pattern} {r : Rule} {cs : List Char} {m : Match}

theorem isSome_run_only (h : run p 0 cs = some m) (hrest : m.rest = []) :
    (run (only r p) 0 cs).isSome = true := by
  rw [only, run, run_seq_of_some h, hrest]
  rfl

theorem isSome_run_only_of_none (h : run p 0 cs = none) :
    (run (only r p) 0 cs).isSome = false := by
  rw [only, run, run_seq_of_none h]
  rfl

/-- What is matched as a whole text is what the pattern matches of it, with the end of the input
marked behind it. -/
theorem exists_of_run_only (h : run (only r p) 0 cs = some m) :
    ∃ a, run p 0 cs = some a ∧ a.rest = [] ∧ a.text = cs ∧
      m.trees = [.mk r 0 cs (a.trees ++ [.mk .endOfInput (Text.byteLength cs) [] []])] := by
  obtain ⟨_, hwhole, rfl⟩ := run_node_eq_some.1 h
  obtain ⟨a, _, ha, hend, rfl⟩ := run_seq_eq_some.1 hwhole
  obtain ⟨_, hfinish, rfl⟩ := run_leaf_eq_some.1 hend
  obtain ⟨hrest, rfl⟩ := run_finish_eq_some.1 hfinish
  have htext : a.text = cs := by rw [← text_append_rest ha, hrest, List.append_nil]
  refine ⟨a, ha, hrest, htext, ?_⟩
  simp [htext]

theorem isSome_run_only_iff :
    (run (only r p) 0 cs).isSome = true ↔ ∃ m, run p 0 cs = some m ∧ m.rest = [] := by
  constructor
  · intro h
    obtain ⟨m, hm⟩ := Option.isSome_iff_exists.1 h
    obtain ⟨a, ha, hrest, -⟩ := exists_of_run_only hm
    exact ⟨a, ha, hrest⟩
  · rintro ⟨m, hm, hrest⟩
    exact isSome_run_only hm hrest

/-- What is matched where nothing follows is matched as a whole text. -/
theorem isSome_run_only_self {trees : List Tree} (h : run p 0 (cs ++ []) = some ⟨cs, trees, []⟩) :
    (run (only r p) 0 cs).isSome = true := by
  rw [List.append_nil] at h
  exact isSome_run_only h rfl

end Grammar

namespace Spelling

open Pattern Grammar

theorem Condition.accepts_column (c : Condition) :
    Fragment.column.accepts (String.ofList c.column) = true := by
  rw [Fragment.accepts, Fragment.run, String.toList_ofList]
  exact isSome_run_only_self (run_column 0 c.column_ne_nil c.column_isWord .nil)

theorem accepts_comparatorSingle {op : Operator} (h : op.takesList = false) :
    Fragment.comparatorSingle.accepts op.symbol = true := by
  rw [Fragment.accepts, Fragment.run]
  exact isSome_run_only_self (run_comparatorSingle h rfl 0)

theorem Keyword.accepts_comparatorMultiple (k : Keyword) :
    Fragment.comparatorMultiple.accepts (String.ofList k.chars) = true := by
  rw [Fragment.accepts, Fragment.run, String.toList_ofList]
  exact isSome_run_only_self (run_comparatorMultiple k 0 [])

theorem ItemList.accepts_itemList (l : ItemList) :
    Fragment.itemList.accepts (String.ofList l.chars) = true := by
  rw [Fragment.accepts, Fragment.run, String.toList_ofList]
  exact isSome_run_only_self (run_itemList l 0 [])

theorem Item.accepts_item (i : Item) :
    Fragment.item.accepts (String.ofList i.chars) = true := by
  rw [Fragment.accepts, Fragment.run, String.toList_ofList]
  exact isSome_run_only_self (run_item i 0 (i.fits_of_stops .nil))

end Spelling

end ColumnFilter
