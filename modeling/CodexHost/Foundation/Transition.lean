import Mathlib

/-!
# Runs of a step relation

`Run step s events s'`: from `s`, these events one after the other lead to `s'`. What one
step preserves a whole run preserves; a restriction on the steps is a smaller relation.
-/
namespace CodexHost.Foundation

variable {σ ε : Type}

inductive Run (step : σ → ε → σ → Prop) (start : σ) : List ε → σ → Prop where
  | nil : Run step start [] start
  | snoc {events : List ε} {s s' : σ} {event : ε} (before : Run step start events s)
      (last : step s event s') : Run step start (events ++ [event]) s'

/-- The run rule: an invariant of the steps is an invariant of the runs. -/
theorem Run.invariant {step : σ → ε → σ → Prop} {start s : σ} {events : List ε}
    {Inv : σ → Prop} (run : Run step start events s) (holds : Inv start)
    (preserved : ∀ s event s', Inv s → step s event s' → Inv s') : Inv s := by
  induction run with
  | nil => exact holds
  | snoc before last ih => exact preserved _ _ _ ih last

theorem Run.mono {step step' : σ → ε → σ → Prop} {start s : σ} {events : List ε}
    (run : Run step start events s) (weaker : ∀ s event s', step s event s' → step' s event s') :
    Run step' start events s := by
  induction run with
  | nil => exact .nil
  | snoc before last ih => exact ih.snoc (weaker _ _ _ last)

/-- A run of events that are allowed in every state is a run of the allowed steps. -/
theorem Run.restrict {step : σ → ε → σ → Prop} {allowed : σ → ε → Prop} {start s : σ}
    {events : List ε} (run : Run step start events s)
    (always : ∀ event ∈ events, ∀ s, allowed s event) :
    Run (fun s event s' => allowed s event ∧ step s event s') start events s := by
  induction run with
  | nil => exact .nil
  | snoc before last ih =>
    simp only [List.mem_append, List.mem_singleton] at always
    exact (ih fun event member => always event (.inl member)).snoc
      ⟨always _ (.inr rfl) _, last⟩

/-- A deterministic step relation runs through every list of events. -/
theorem Run.of_fold (step : σ → ε → σ) (start : σ) (events : List ε) :
    Run (fun s event s' => step s event = s') start events (events.foldl step start) := by
  induction events using List.reverseRecOn with
  | nil => exact .nil
  | append_singleton before last ih =>
    rw [List.foldl_append]
    exact ih.snoc rfl

/-- Steps that are not always possible: a run through the events that all are. -/
theorem Run.of_foldlM {step : σ → ε → Option σ} {start s : σ} {events : List ε}
    (reached : events.foldlM step start = some s) :
    Run (fun s event s' => step s event = some s') start events s := by
  induction events using List.reverseRecOn generalizing s with
  | nil =>
    cases reached
    exact .nil
  | append_singleton before last ih =>
    rw [List.foldlM_append] at reached
    obtain ⟨middle, reachedMiddle, final⟩ := Option.bind_eq_some_iff.mp reached
    have step : step middle last = some s := by simpa using final
    exact (ih reachedMiddle).snoc step

end CodexHost.Foundation
