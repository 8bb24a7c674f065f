import CodexHost.Source.MappingStore.Runs

/-!
# Delegation calls in flight

`createDelegation`, `setDelegationStatus` and `removeDelegation` do not pass through the
write queue. Each runs its checks at once, awaits its file operations, and then updates
the map and the indexes; between these three stretches any other call can run. The
temporary file of a replacement is seen by nobody, so all that the others observe of the
awaited part is the rename (or the removal), or that it failed.
-/
namespace CodexHost.Source.MappingStore
open Foundation Source.SharedContracts

def DelegationCall.delegationId : DelegationCall → HostThreadId
  | .create input => input.delegationId
  | .setStatus delegationId _ => delegationId
  | .remove delegationId => delegationId

/-- A call between its checks and its end: whether its file operation has happened. -/
structure PendingCall where
  call : DelegationCall
  effect : DelegationEffect
  landed : Bool
  deriving DecidableEq, Repr

/-- A store with its delegation calls in flight, under arbitrary numbers. -/
structure DelegationSystem where
  world : StoreWorld
  calls : OrderedMap Nat PendingCall

inductive DelegationEvent where
  /-- The call runs up to its first `await`; it may end there. -/
  | begin (caller : Nat) (now : Timestamp) (call : DelegationCall)
  /-- The rename or the removal of its file. -/
  | land (caller : Nat)
  /-- A file operation before that fails, and the call rejects. -/
  | fail (caller : Nat)
  /-- The call resumes after its file operation, and ends. -/
  | settle (caller : Nat)

/-- The system after the event; none when the event is not possible in this state. -/
def DelegationEvent.happen (s : DelegationSystem) : DelegationEvent → Option DelegationSystem
  | .begin caller now call =>
    if s.calls.has caller then none
    else match call.start now s.world.store with
      | .error _ | .ok none => some s
      | .ok (some effect) => some { s with calls := s.calls.set caller ⟨call, effect, false⟩ }
  | .land caller =>
    match s.calls.get? caller with
    | some ⟨call, effect, false⟩ =>
      some { s with
        world := { s.world with disk := effect.onDisk s.world.disk }
        calls := s.calls.set caller ⟨call, effect, true⟩ }
    | _ => none
  | .fail caller =>
    match s.calls.get? caller with
    | some ⟨_, _, false⟩ => some { s with calls := s.calls.delete caller }
    | _ => none
  | .settle caller =>
    match s.calls.get? caller with
    | some ⟨_, effect, true⟩ =>
      some { s with
        world := (effect.finish.exec ⟨none, s.world⟩).2.state
        calls := s.calls.delete caller }
    | _ => none

def DelegationStep (s : DelegationSystem) (event : DelegationEvent) (s' : DelegationSystem) : Prop :=
  event.happen s = some s'

/-- No call in flight. -/
def DelegationSystem.idle (world : StoreWorld) : DelegationSystem := ⟨world, .empty⟩

end CodexHost.Source.MappingStore
