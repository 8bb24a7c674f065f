import Mathlib

/-!
# The latest of a sequence of values

A register that replaces its value by every given one that is not older holds the latest of the given
values, and of these the last.
-/
namespace CodexHost.Foundation
open List

variable {α β : Type} [LinearOrder β] (time : α → β)

/-- `held` is the latest of the given values, the last of those at one time. -/
def IsLatest (given : List α) : Option α → Prop
  | none => given = []
  | some value => ∃ earlier later, given = earlier ++ value :: later ∧
      (∀ other ∈ earlier, time other ≤ time value) ∧ ∀ other ∈ later, time other < time value

/-- What the register holds after a given value. -/
def latest (held : Option α) (value : α) : Option α :=
  if held.all fun before => time before ≤ time value then some value else held

variable {time} {given : List α} {held : Option α}

theorem IsLatest.le {value other : α} (isLatest : IsLatest time given (some value))
    (member : other ∈ given) : time other ≤ time value := by
  obtain ⟨earlier, later, rfl, before, after⟩ := isLatest
  rcases mem_append.mp member with member | member
  · exact before other member
  · rcases mem_cons.mp member with rfl | member
    · exact le_refl _
    · exact le_of_lt (after other member)

/-- One more value. -/
theorem IsLatest.snoc (isLatest : IsLatest time given held) (value : α) :
    IsLatest time (given ++ [value]) (latest time held value) := by
  unfold latest
  cases held with
  | none =>
    have none : given = [] := isLatest
    exact ⟨[], [], by simp [none], by simp, by simp⟩
  | some before =>
    by_cases older : time before ≤ time value
    · rw [if_pos (by simpa using older)]
      exact ⟨given, [], rfl, fun other member => le_trans (isLatest.le member) older, by simp⟩
    · rw [if_neg (by simpa using older)]
      obtain ⟨earlier, later, rfl, front, back⟩ := isLatest
      refine ⟨earlier, later ++ [value], by simp, front, fun other member => ?_⟩
      rcases mem_append.mp member with member | member
      · exact back other member
      · rw [mem_singleton.mp member]
        exact lt_of_not_ge older

/-- The register holds the latest value of all that it was given. -/
theorem IsLatest.foldl (isLatest : IsLatest time given held) (values : List α) :
    IsLatest time (given ++ values) (values.foldl (latest time) held) := by
  induction values generalizing given held with
  | nil => simpa using isLatest
  | cons value rest ih =>
    have next := ih (isLatest.snoc value)
    rwa [append_assoc] at next

end CodexHost.Foundation
