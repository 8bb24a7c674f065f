import Mathlib

/-!
# Links followed to their end

A relation that leads from an element to no more than one other: following it from an element
either comes to a last element, which is unique, or never ends.
-/
namespace CodexHost.Foundation
open Relation

variable {α : Type} {link : α → α → Prop} {a b c : α}

/-- Following the links from the element never ends. -/
def Endless (link : α → α → Prop) (a : α) : Prop :=
  ∃ walk : Nat → α, walk 0 = a ∧ ∀ n, link (walk n) (walk (n + 1))

/-- The second element is the last one reached from the first. -/
def EndsAt (link : α → α → Prop) (a b : α) : Prop := ReflTransGen link a b ∧ ∀ c, ¬ link b c

theorem endless_iff_not_acc : Endless link a ↔ ¬ Acc (flip link) a :=
  (not_acc_iff_exists_descending_chain (r := flip link)).symm

theorem Endless.of_cycle (cycle : TransGen link a a) : Endless link a := by
  rw [endless_iff_not_acc]
  intro acc
  have above : Acc (TransGen (flip link)) a := acc.transGen
  clear acc
  induction above with
  | intro a _ ih => exact ih a (transGen_swap.mpr cycle) cycle

theorem Endless.of_reached (reached : ReflTransGen link a b) (endless : Endless link b) :
    Endless link a := by
  induction reached using ReflTransGen.head_induction_on with
  | refl => exact endless
  | head first _ ih =>
    rw [endless_iff_not_acc] at ih ⊢
    exact fun acc => ih (acc.inv first)

/-- Something that every link lowers ends every walk. -/
theorem not_endless_of_lowered (depth : α → Nat)
    (lower : ∀ a b, link a b → depth b < depth a) : ¬ Endless link a := by
  rw [endless_iff_not_acc, not_not]
  exact Subrelation.accessible (fun {b c} next => lower c b next)
    (InvImage.accessible depth (Nat.lt_wfRel.wf.apply _))

theorem EndsAt.of_link (next : link a b) (ends : EndsAt link b c) : EndsAt link a c :=
  ⟨ends.1.head next, ends.2⟩

section Deterministic
variable (functional : Relator.RightUnique link)
include functional

theorem EndsAt.unique (ends : EndsAt link a b) (ends' : EndsAt link a c) : b = c := by
  rcases ends.1.total_of_right_unique functional ends'.1 with on | on
  · rcases on.cases_head with same | ⟨d, next, -⟩
    · exact same
    · exact absurd next (ends.2 d)
  · rcases on.cases_head with same | ⟨d, next, -⟩
    · exact same.symm
    · exact absurd next (ends'.2 d)

theorem EndsAt.not_endless (ends : EndsAt link a b) : ¬ Endless link a := by
  rw [endless_iff_not_acc, not_not]
  obtain ⟨reached, last⟩ := ends
  induction reached using ReflTransGen.head_induction_on with
  | refl => exact .intro _ fun c next => absurd next (last c)
  | head next _ ih => exact .intro _ fun c other => functional next other ▸ ih

end Deterministic

end CodexHost.Foundation
