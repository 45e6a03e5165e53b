import Mathlib.Data.List.Infix
import Mathlib.Data.List.Nodup

namespace Autolock
namespace Data

/-!
# Neighbours in a queue

Who comes directly after whom in a list without duplicates, and what becomes of it
when the list grows at its end or loses its first element.
-/

variable {α : Type} {q : List α} {h t u v w : α}

/-- `v` comes directly after `u`. -/
def Adjacent (q : List α) (u v : α) : Prop :=
  [u, v] <:+: q

theorem not_adjacent_nil : ¬Adjacent [] u v := by
  simp [Adjacent]

theorem adjacent_cons : Adjacent (h :: q) u v <-> u = h ∧ q.head? = some v ∨ Adjacent q u v := by
  rw [Adjacent, List.infix_cons_iff, List.cons_prefix_cons]
  refine or_congr_left (and_congr_right fun _ => ?_)
  cases q with
  | nil => simp
  | cons first q => simp [List.cons_prefix_cons, eq_comm]

theorem adjacent_concat :
    Adjacent (q ++ [t]) u v <-> Adjacent q u v ∨ q.getLast? = some u ∧ v = t := by
  induction q with
  | nil => simp [adjacent_cons, not_adjacent_nil]
  | cons first q inductionHypothesis =>
      rw [List.cons_append, adjacent_cons, inductionHypothesis, adjacent_cons]
      cases q with
      | nil => simp [not_adjacent_nil, eq_comm]
      | cons second q =>
          rw [List.getLast?_cons_cons, List.cons_append, List.head?_cons, List.head?_cons]
          tauto

theorem Adjacent.mem_left (adjacent : Adjacent q u v) : u ∈ q :=
  adjacent.subset (List.mem_cons_self ..)

theorem Adjacent.mem_right (adjacent : Adjacent q u v) : v ∈ q :=
  adjacent.subset (List.mem_cons_of_mem u (List.mem_singleton_self v))

/-- Nobody comes before the first. -/
theorem not_adjacent_head (nodup : q.Nodup) (first : q.head? = some v) : ¬Adjacent q u v := by
  cases q with
  | nil => exact not_adjacent_nil
  | cons h q =>
      cases first
      intro adjacent
      rw [List.nodup_cons] at nodup
      rcases adjacent_cons.mp adjacent with ⟨-, second⟩ | later
      · exact nodup.1 (List.mem_of_mem_head? second)
      · exact nodup.1 later.mem_right

theorem Adjacent.unique (nodup : q.Nodup) (first : Adjacent q u v) (second : Adjacent q u w) :
    v = w := by
  induction q with
  | nil => exact absurd first not_adjacent_nil
  | cons h q inductionHypothesis =>
      rw [List.nodup_cons] at nodup
      rcases adjacent_cons.mp first with ⟨rfl, atHead⟩ | later <;>
        rcases adjacent_cons.mp second with ⟨is, atHead'⟩ | later'
      · exact Option.some.inj (atHead.symm.trans atHead')
      · exact absurd later'.mem_left nodup.1
      · exact absurd (is ▸ later.mem_left) nodup.1
      · exact inductionHypothesis nodup.2 later later'

/-- Nobody comes after the last. -/
theorem not_adjacent_last (nodup : q.Nodup) (last : q.getLast? = some u) : ¬Adjacent q u v := by
  induction q with
  | nil => exact not_adjacent_nil
  | cons h q inductionHypothesis =>
      rw [List.nodup_cons] at nodup
      intro adjacent
      cases q with
      | nil => exact absurd adjacent (by simp [adjacent_cons, not_adjacent_nil])
      | cons second q =>
          rw [List.getLast?_cons_cons] at last
          rcases adjacent_cons.mp adjacent with ⟨rfl, -⟩ | later
          · exact nodup.1 (List.mem_of_mem_getLast? last)
          · exact inductionHypothesis nodup.2 last later

/-- Whoever is first and last is alone. -/
theorem eq_singleton (nodup : q.Nodup) (first : q.head? = some u) (last : q.getLast? = some u) :
    q = [u] := by
  cases q with
  | nil => cases first
  | cons h q =>
      cases first
      cases q with
      | nil => rfl
      | cons second q =>
          rw [List.getLast?_cons_cons] at last
          exact absurd (List.mem_of_mem_getLast? last) (List.nodup_cons.mp nodup).1

/-- Everybody but the first comes after somebody. -/
theorem exists_adjacent_before (member : v ∈ q) (notFirst : q.head? ≠ some v) :
    exists u, Adjacent q u v := by
  induction q with
  | nil => exact absurd member List.not_mem_nil
  | cons h q inductionHypothesis =>
      have later : v ∈ q := by
        refine (List.mem_cons.mp member).resolve_left ?_
        rintro rfl
        exact notFirst rfl
      by_cases second : q.head? = some v
      · exact ⟨h, adjacent_cons.mpr (Or.inl ⟨rfl, second⟩)⟩
      · rcases inductionHypothesis later second with ⟨u, adjacent⟩
        exact ⟨u, adjacent_cons.mpr (Or.inr adjacent)⟩

/-- Everybody but the last comes before somebody. -/
theorem exists_adjacent_after (member : u ∈ q) (notLast : q.getLast? ≠ some u) :
    exists v, Adjacent q u v := by
  induction q with
  | nil => exact absurd member List.not_mem_nil
  | cons h q inductionHypothesis =>
      cases q with
      | nil =>
          rcases List.mem_singleton.mp member with rfl
          exact absurd rfl notLast
      | cons second q =>
          rw [List.getLast?_cons_cons] at notLast
          rcases List.mem_cons.mp member with rfl | later
          · exact ⟨second, adjacent_cons.mpr (Or.inl ⟨rfl, rfl⟩)⟩
          · rcases inductionHypothesis later notLast with ⟨v, adjacent⟩
            exact ⟨v, adjacent_cons.mpr (Or.inr adjacent)⟩

end Data
end Autolock
