import Mathlib

/-!
# Rules about a growing log

`Follows rule log`: each record of the log stands in the relation `rule` to what was logged before it.
-/
namespace CodexHost.Foundation
open List

variable {α : Type} {rule : List α → α → Prop} {log : List α}

def Follows (rule : List α → α → Prop) (log : List α) : Prop :=
  ∀ before record after, log = before ++ record :: after → rule before record

theorem follows_nil : Follows rule [] := by
  intro before record after is
  simp at is

/-- One more record has to follow the rule itself. -/
theorem Follows.snoc (follows : Follows rule log) {record : α} (last : rule log record) :
    Follows rule (log ++ [record]) := by
  intro before other after is
  induction after using List.reverseRecOn with
  | nil =>
    obtain ⟨rfl, same⟩ := append_inj' is rfl
    cases same
    exact last
  | append_singleton after final _ =>
    rw [← cons_append, ← append_assoc] at is
    obtain ⟨front, -⟩ := append_inj' is rfl
    exact follows before other after front

/-- Of two records one follows the rule after the other. -/
theorem Follows.pair (follows : Follows rule log) {first second : α} (has : first ∈ log)
    (has' : second ∈ log) : first = second ∨ (∃ before, first ∈ before ∧ rule before second) ∨
      ∃ before, second ∈ before ∧ rule before first := by
  obtain ⟨before, after, rfl⟩ := append_of_mem has
  rw [mem_append, mem_cons] at has'
  rcases has' with earlier | rfl | later
  · exact .inr (.inr ⟨before, earlier, follows before first after rfl⟩)
  · exact .inl rfl
  · obtain ⟨between, rest, rfl⟩ := append_of_mem later
    refine .inr (.inl ⟨before ++ first :: between, by simp, ?_⟩)
    exact follows _ second rest (by simp)

end CodexHost.Foundation
