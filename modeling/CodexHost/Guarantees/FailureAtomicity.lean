import CodexHost.Guarantees.RestartFaithfulness

/-!
# Failure atomicity

A single I/O step that fails, whichever it is, makes the operation reject, leaves memory
as it was, and leaves files from which a start loads what was in memory. By design a start
discards a `creating` record without a native session to resume or import from.
-/
namespace CodexHost.Guarantees
open Foundation Source.SharedContracts Source.MappingStore

/-- The step of the turn that was to fail was reached. -/
def FaultFired (parseUrl : UrlParser) (turn : Turn) (w : StoreWorld) : Prop :=
  turn.fault ≠ none ∧ ((turn.operation.body parseUrl turn.now).exec ⟨turn.fault, w⟩).2.fuse = none

/-- Unless the operation is best effort, a fault that fires is thrown, not swallowed. -/
theorem StoreSound.fault_rejects {parseUrl : UrlParser} {w : StoreWorld} (sound : StoreSound w)
    {turn : Turn} (strict : bestEffort turn.operation = false)
    (fired : FaultFired parseUrl turn w) :
    (∃ error, (turn.take parseUrl w).1 = .error error) ∧ StoreRollback w (turn.take parseUrl w).2 := by
  have settles : Settles turn.operation (turn.operation.body parseUrl turn.now)
      ⟨turn.fault, w⟩ := body_settles sound.consistent strict
  unfold Settles at settles
  rw [Command.wp_iff] at settles
  obtain ⟨returned, thrown⟩ := settles
  cases outcome : (turn.take parseUrl w).1 with
  | ok _ =>
    obtain ⟨-, burnt⟩ := returned () _ (Prod.ext outcome rfl)
    have unarmed := (burnt (sound.mirrored.readable sound.consistent)).mp fired.2
    exact absurd unarmed fired.1
  | error error => exact ⟨⟨error, rfl⟩, thrown error _ (Prod.ext outcome rfl)⟩

/-- A rename whose first step fails. -/
def brokenRename : Turn := ⟨1, some (0, none), .setTitle "a" "renamed"⟩

def provisionalWorld : StoreWorld :=
  [StoreEvent.queued firstTurn].foldl (fun w event => event.happen (fun _ => none) w)
    (newStore creationOrder 0)

theorem brokenRename_fired : FaultFired (fun _ => none) brokenRename provisionalWorld := by
  refine ⟨by decide, ?_⟩
  have spent : ((brokenRename.operation.body (fun _ => none) brokenRename.now).exec
      ⟨brokenRename.fault, provisionalWorld⟩).2.fuse.isNone = true := by decide +kernel
  exact Option.isNone_iff_eq_none.mp spent

end CodexHost.Guarantees
