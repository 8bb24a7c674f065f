import Mathlib

/-!
# Commands, their weakest preconditions, and single faults

A command reads and changes a state and returns or throws; what it changed before
a throw stays changed, as in an imperative program with exceptions. `wp` is the
weakest precondition with one postcondition for a return and one for a throw, and
the rules below compute it for the combinators of do notation.

The second half adds a fuse: a step counter that makes one chosen step of a command
fail. A command run under every fuse is the command with every single step failing.
-/
namespace CodexHost.Foundation

abbrev Command (ω ε : Type) : Type → Type := ExceptT ε (StateM ω)

namespace Command

variable {ω ε α β : Type}

def exec (c : Command ω ε α) (w : ω) : Except ε α × ω := StateT.run (ExceptT.run c) w

/-- Weakest precondition: `Q` holds after a return, `E` after a throw. -/
def wp (c : Command ω ε α) (Q : α → ω → Prop) (E : ε → ω → Prop) (w : ω) : Prop :=
  match c.exec w with
  | (.ok a, w') => Q a w'
  | (.error e, w') => E e w'

@[simp] theorem exec_pure (a : α) (w : ω) : (pure a : Command ω ε α).exec w = (.ok a, w) := rfl

@[simp] theorem exec_throw (e : ε) (w : ω) : (throw e : Command ω ε α).exec w = (.error e, w) := rfl

@[simp] theorem exec_get (w : ω) : (get : Command ω ε ω).exec w = (.ok w, w) := rfl

theorem exec_bind (c : Command ω ε α) (f : α → Command ω ε β) (w : ω) : (c >>= f).exec w = match c.exec w with
      | (.ok a, w') => (f a).exec w'
      | (.error e, w') => (.error e, w') := by
  change (match StateT.run (ExceptT.run c) w with
    | (r, w') => StateT.run (ExceptT.bindCont f r) w') = _
  unfold exec
  rcases StateT.run (ExceptT.run c) w with ⟨_ | _, w'⟩ <;> rfl

theorem exec_tryCatch (c : Command ω ε α) (f : ε → Command ω ε α) (w : ω) :
    (tryCatch c f).exec w = match c.exec w with
      | (.ok a, w') => (.ok a, w')
      | (.error e, w') => (f e).exec w' := by
  change (match StateT.run (ExceptT.run c) w with
    | (r, w') => StateT.run (match r with
      | .ok a => (pure (.ok a) : StateM ω (Except ε α))
      | .error e => ExceptT.run (f e)) w') = _
  unfold exec
  rcases StateT.run (ExceptT.run c) w with ⟨_ | _, w'⟩ <;> rfl

variable {Q Q' : α → ω → Prop} {E E' : ε → ω → Prop} {w : ω}

theorem wp_iff (c : Command ω ε α) : c.wp Q E w ↔ (∀ a w', c.exec w = (.ok a, w') → Q a w') ∧
      (∀ e w', c.exec w = (.error e, w') → E e w') := by
  unfold wp
  rcases c.exec w with ⟨_ | _, w'⟩ <;> simp

theorem wp_mono {c : Command ω ε α} (h : c.wp Q E w) (returned : ∀ a w', Q a w' → Q' a w')
    (thrown : ∀ e w', E e w' → E' e w') : c.wp Q' E' w := by
  rw [wp_iff] at h ⊢
  exact ⟨fun a w' he => returned a w' (h.1 a w' he), fun e w' he => thrown e w' (h.2 e w' he)⟩

/-- What holds after a return and after a throw holds of the state left behind. -/
theorem wp_after {c : Command ω ε α} {P : ω → Prop} (h : c.wp (fun _ => P) (fun _ => P) w) :
    P (c.exec w).2 := by
  unfold wp at h
  rcases outcome : c.exec w with ⟨_ | _, w'⟩ <;> rw [outcome] at h <;> exact h

@[simp] theorem wp_pure (a : α) : (pure a : Command ω ε α).wp Q E w ↔ Q a w := Iff.rfl

@[simp] theorem wp_throw (e : ε) : (throw e : Command ω ε α).wp Q E w ↔ E e w := Iff.rfl

@[simp] theorem wp_get {Q : ω → ω → Prop} : (get : Command ω ε ω).wp Q E w ↔ Q w w := Iff.rfl

@[simp] theorem wp_modify {Q : PUnit → ω → Prop} (f : ω → ω) :
    (modify f : Command ω ε PUnit).wp Q E w ↔ Q ⟨⟩ (f w) := Iff.rfl

@[simp] theorem wp_set {Q : PUnit → ω → Prop} (v : ω) :
    (set v : Command ω ε PUnit).wp Q E w ↔ Q ⟨⟩ v := Iff.rfl

@[simp] theorem wp_bind {Q : β → ω → Prop} (c : Command ω ε α) (f : α → Command ω ε β) :
    (c >>= f).wp Q E w ↔ c.wp (fun a w' => (f a).wp Q E w') E w := by
  unfold wp
  rw [exec_bind]
  rcases c.exec w with ⟨_ | _, w'⟩ <;> rfl

@[simp] theorem wp_tryCatch (c : Command ω ε α) (f : ε → Command ω ε α) :
    (tryCatch c f).wp Q E w ↔ c.wp Q (fun e w' => (f e).wp Q E w') w := by
  unfold wp
  rw [exec_tryCatch]
  rcases c.exec w with ⟨_ | _, w'⟩ <;> rfl

/-- A result computed without touching the state. -/
def lift (r : Except ε α) : Command ω ε α :=
  match r with
  | .ok a => pure a
  | .error e => throw e

@[simp] theorem wp_lift (r : Except ε α) : (lift r : Command ω ε α).wp Q E w ↔
      (∀ a, r = .ok a → Q a w) ∧ (∀ e, r = .error e → E e w) := by
  cases r <;> simp [lift]

/-- Whether it returns or throws, the command keeps `I`. -/
def Keeps (I : ω → Prop) (c : Command ω ε α) : Prop :=
  ∀ w, I w → c.wp (fun _ => I) (fun _ => I) w

section Keeps
variable {I : ω → Prop}

theorem Keeps.exec {c : Command ω ε α} (keeps : Keeps I c) {w : ω} (holds : I w) : I (c.exec w).2 :=
  wp_after (keeps w holds)

theorem keeps_pure (a : α) : Keeps I (pure a : Command ω ε α) := fun _ holds => holds

theorem keeps_throw (e : ε) : Keeps I (throw e : Command ω ε α) := fun _ holds => holds

theorem keeps_lift (r : Except ε α) : Keeps I (lift r : Command ω ε α) := by
  cases r with
  | ok a => exact keeps_pure a
  | error e => exact keeps_throw e

theorem keeps_bind {c : Command ω ε α} {f : α → Command ω ε β} (first : Keeps I c)
    (next : ∀ a, Keeps I (f a)) : Keeps I (c >>= f) := by
  intro w holds
  rw [wp_bind]
  exact wp_mono (first w holds) (fun a w' h => next a w' h) fun _ _ h => h

theorem keeps_tryCatch {c : Command ω ε α} {f : ε → Command ω ε α} (body : Keeps I c)
    (handler : ∀ e, Keeps I (f e)) : Keeps I (tryCatch c f) := by
  intro w holds
  rw [wp_tryCatch]
  exact wp_mono (body w holds) (fun _ _ h => h) fun e w' h => handler e w' h

end Keeps

end Command

/-- A state together with the step, counted from now, that is going to fail and
what that failure leaves behind; no step fails once the fuse is gone. -/
structure Fused (ρ σ : Type) where
  fuse : Option (Nat × ρ)
  state : σ

namespace Command

variable {ρ σ ε : Type} {Q : Unit → Fused ρ σ → Prop} {E : ε → Fused ρ σ → Prop}

/-- One step that can fail: `effect` when it succeeds, `broken` and a throw when the
fuse has burnt down to it. -/
def ioStep (failure : ε) (effect : σ → σ) (broken : ρ → σ → σ) : Command (Fused ρ σ) ε Unit := do
  let w ← get
  match w.fuse with
  | none => set { w with state := effect w.state }
  | some (n + 1, residue) => set (⟨some (n, residue), effect w.state⟩ : Fused ρ σ)
  | some (0, residue) =>
    set (⟨none, broken residue w.state⟩ : Fused ρ σ)
    throw failure

/-- A step either succeeds, burning the fuse without exhausting it, or is the one
that fails, after which nothing else will. -/
theorem wp_ioStep {failure : ε} {effect : σ → σ} {broken : ρ → σ → σ} {w : Fused ρ σ}
    (returned : ∀ fuse, (fuse = none ↔ w.fuse = none) → Q () ⟨fuse, effect w.state⟩)
    (failed : w.fuse ≠ none → ∀ residue, E failure ⟨none, broken residue w.state⟩) :
    (ioStep failure effect broken).wp Q E w := by
  obtain ⟨fuse, state⟩ := w
  match fuse with
  | none => exact returned none (by simp)
  | some (n + 1, residue) => exact returned (some (n, residue)) (by simp)
  | some (0, residue) => exact failed (by simp) residue

/-- A step keeps what its effect and what it leaves behind both keep. -/
theorem keeps_ioStep {I : σ → Prop} {failure : ε} {effect : σ → σ} {broken : ρ → σ → σ}
    (returned : ∀ state, I state → I (effect state))
    (failed : ∀ residue state, I state → I (broken residue state)) :
    Keeps (fun w => I w.state) (ioStep failure effect broken) := fun w holds =>
  wp_ioStep (fun _ _ => returned w.state holds) fun _ residue => failed residue w.state holds

end Command

end CodexHost.Foundation
