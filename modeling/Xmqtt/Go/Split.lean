import Mathlib

/-!
# `strings.Split`

The parts of a list between the occurrences of a separator.
-/

namespace Xmqtt.Go

variable {α : Type*} [DecidableEq α] {sep : α}

theorem splitOn_of_notMem {part : List α} (hpart : sep ∉ part) : part.splitOn sep = [part] :=
  List.splitOnP_eq_singleton fun item hmem => by
    simp only [beq_eq_false_iff_ne]
    exact fun heq => hpart (heq ▸ hmem)

theorem splitOn_append_cons {part rest : List α} (hpart : sep ∉ part) :
    (part ++ sep :: rest).splitOn sep = part :: rest.splitOn sep := by
  rw [List.splitOn_eq_splitOnP, List.splitOnP_append_cons part rest (by simp),
    ← List.splitOn_eq_splitOnP, splitOn_of_notMem hpart]
  rfl

/-- The items up to the first separator, or all of them. -/
theorem splitOn_cases (sep : α) (list : List α) :
    list.splitOn sep = [list] ∨ ∃ part rest, list = part ++ sep :: rest ∧
      list.splitOn sep = part :: rest.splitOn sep := by
  by_cases hmem : sep ∈ list
  · obtain ⟨part, rest, rfl, hpart⟩ := List.eq_append_cons_of_mem hmem
    exact Or.inr ⟨part, rest, rfl, splitOn_append_cons hpart⟩
  · exact Or.inl (splitOn_of_notMem hmem)

theorem mem_of_mem_splitOn {list part : List α} {item : α}
    (hpart : part ∈ list.splitOn sep) (hitem : item ∈ part) : item ∈ list := by
  induction hlength : list.length using Nat.strong_induction_on generalizing list with
  | _ length ih =>
      rcases splitOn_cases sep list with hsplit | ⟨first, rest, rfl, hsplit⟩
      · rw [hsplit, List.mem_singleton] at hpart
        exact hpart ▸ hitem
      · rw [hsplit, List.mem_cons] at hpart
        rcases hpart with rfl | hrest
        · exact List.mem_append_left _ hitem
        · rw [List.length_append, List.length_cons] at hlength
          exact List.mem_append_right _ (List.mem_cons_of_mem _
            (ih rest.length (by omega) hrest rfl))

theorem notMem_of_mem_splitOn {list part : List α} (hpart : part ∈ list.splitOn sep) :
    sep ∉ part := by
  induction hlength : list.length using Nat.strong_induction_on generalizing list with
  | _ length ih =>
      by_cases hmem : sep ∈ list
      · obtain ⟨first, rest, rfl, hfirst⟩ := List.eq_append_cons_of_mem hmem
        rw [splitOn_append_cons hfirst, List.mem_cons] at hpart
        rcases hpart with rfl | hrest
        · exact hfirst
        · rw [List.length_append, List.length_cons] at hlength
          exact ih rest.length (by omega) hrest rfl
      · rw [splitOn_of_notMem hmem, List.mem_singleton] at hpart
        exact hpart ▸ hmem

end Xmqtt.Go
