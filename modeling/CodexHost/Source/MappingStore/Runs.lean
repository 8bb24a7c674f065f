import CodexHost.Foundation.Transition
import CodexHost.Source.MappingStore.Delegations
import CodexHost.Source.MappingStore.Initialize

/-!
# Runs of the mapping store

The queue of `#enqueue` and the life of a store directory. A turn is one entry of the
queue from its start to its end, with its clock reading and the step of it that fails, if
one does. A restart closes the store and initializes a new one over the same files.
-/
namespace CodexHost.Source.MappingStore
open Foundation Source.SharedContracts

/-- `initialize()` of a new store over these files. -/
def start (order : DirectoryOrder) (now : Timestamp) (fault : Option (Nat × Residue))
    (disk : Disk) : Except StoreError Unit × StoreWorld :=
  let result := (initializeStore order now).exec ⟨fault, ⟨disk, .constructed⟩⟩
  (result.1, result.2.state)

structure Turn where
  now : Timestamp
  fault : Option (Nat × Residue)
  operation : QueuedOperation

/-- What the caller of the operation gets, and the world it leaves. -/
def Turn.take (parseUrl : UrlParser) (turn : Turn) (w : StoreWorld) : Except StoreError Unit × StoreWorld :=
  let result := (turn.operation.body parseUrl turn.now).exec ⟨turn.fault, w⟩
  (result.1, result.2.state)

/-- The entries of the queue take their turns one after the other. -/
def QueueStep (parseUrl : UrlParser) (w : StoreWorld) (turn : Turn) (w' : StoreWorld) : Prop :=
  (turn.take parseUrl w).2 = w'

/-- What happens to a store directory: a queued operation, a delegation call that runs
without another one in between, or the close of the store and a new `initialize()`. -/
inductive StoreEvent where
  | queued (turn : Turn)
  | delegation (now : Timestamp) (fault : Option (Nat × Residue)) (call : DelegationCall)
  | restart (order : DirectoryOrder) (now : Timestamp)

def StoreEvent.happen (parseUrl : UrlParser) (w : StoreWorld) : StoreEvent → StoreWorld
  | .queued turn => (turn.take parseUrl w).2
  | .delegation now fault call => ((call.body now).exec ⟨fault, w⟩).2.state
  | .restart order now => (start order now none w.disk).2

def LifeStep (parseUrl : UrlParser) (w : StoreWorld) (event : StoreEvent) (w' : StoreWorld) : Prop :=
  event.happen parseUrl w = w'

/-- A store that was initialized over an empty directory. -/
def newStore (order : DirectoryOrder) (now : Timestamp) : StoreWorld :=
  (start order now none .blank).2

end CodexHost.Source.MappingStore
