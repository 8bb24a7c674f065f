import Mathlib

/-!
# Endless runs of a step function

A condition that the steps keep until a goal is reached, and one that does not hold for ever: with
fairness they make a run reach its goal.
-/
namespace CodexHost.Foundation

variable {σ ε : Type} {step : σ → ε → Option σ} {start : σ}

/-- One state and one event after the other, without an end. -/
structure Trace (step : σ → ε → Option σ) (start : σ) where
  states : Nat → σ
  events : Nat → ε
  begins : states 0 = start
  moves : ∀ n, step (states n) (events n) = some (states (n + 1))

/-- A condition that a step keeps, or else the goal is reached. -/
theorem goal_or_pending {pending goal : Nat → Prop} {n : Nat} (begins : pending n)
    (keeps : ∀ m, n ≤ m → pending m → goal m ∨ pending (m + 1)) {later : Nat} (after : n ≤ later) :
    (∃ m, n ≤ m ∧ goal m) ∨ pending later := by
  induction later, after using Nat.le_induction with
  | base => exact .inr begins
  | succ m after ih =>
    rcases ih with reached | waiting
    · exact .inl reached
    · exact (keeps m after waiting).imp (fun goal => ⟨m, after, goal⟩) id

/-- What holds, and not for ever, ends at some step. -/
theorem last_step {condition : Nat → Prop} {n : Nat} (holds : condition n)
    (fair : ∃ m, n ≤ m ∧ ¬condition m) : ∃ m, n ≤ m ∧ condition m ∧ ¬condition (m + 1) := by
  obtain ⟨later, after, stops⟩ := fair
  have ended : (∃ m, n ≤ m ∧ condition m ∧ ¬condition (m + 1)) ∨ condition later :=
    goal_or_pending holds (fun m _ goes =>
      (Classical.em (condition (m + 1))).symm.imp (fun stops => ⟨goes, stops⟩) id) after
  exact ended.resolve_right stops

end CodexHost.Foundation
