import CodexHost.Foundation.ReservedSlots
import CodexHost.Foundation.Transition
import CodexHost.Source.HostRuntime.ExternalThreadQueue

/-!
# Reserved items of a Thread's queue

What the queue of a Thread should be: an item that is being steered keeps its place, and the Thread
stays paused as long as it has items, reserved or not. The code forgets both when the last visible item
goes, and remembers them with the reservation.
-/
namespace CodexHost.Guarantees.QueueReservations
open Foundation Source.HostRuntime.ExternalQueue Source.ProtocolCore OrderedMap List Option ExternalThreadQueue

/-- The queue of a Thread as it should be. -/
structure IdealQueue where
  slots : List (Slot Nat)
  pausedReason : Option PausedReason

/-- The IDs of the items and the reason, unless there are no items. -/
abbrev View := Option (List Nat × Option PausedReason)

namespace IdealQueue

def view (ideal : IdealQueue) : View :=
  if Slot.visible ideal.slots = [] then none else some (Slot.visible ideal.slots, ideal.pausedReason)

/-- A Thread without items is not paused. -/
def settle (ideal : IdealQueue) : IdealQueue := if ideal.slots = [] then ⟨[], none⟩ else ideal

def add (ideal : IdealQueue) (id : Nat) : IdealQueue :=
  { ideal with slots := ideal.slots ++ [⟨id, false⟩] }

def remove (ideal : IdealQueue) (id : Nat) : IdealQueue :=
  settle { ideal with slots := Slot.remove id ideal.slots }

def mark (ideal : IdealQueue) (id : Nat) (held : Bool) : IdealQueue :=
  { ideal with slots := Slot.mark id held ideal.slots }

/-- Only reservations outlive this. -/
def clear (ideal : IdealQueue) : IdealQueue := ⟨ideal.slots.filter (·.held), none⟩

end IdealQueue

/-- The queue, the reservations that are neither accepted nor restored, and the ideal queues. -/
structure State where
  queue : ExternalThreadQueue
  taken : List (String × TakenSubmission)
  ideal : String → IdealQueue

def initial : State := ⟨.initial, [], fun _ => ⟨[], none⟩⟩

inductive Operation where
  | add (threadId : String) (input : Input) (clientUserMessageId : Option String)
    (presentationInput : Option Input) (sourceHostId : Option String) (generated : String)
  | update (threadId : String) (itemId : Nat) (input : Input) (presentationInput : Option Input)
  | delete (threadId : String) (itemId : Nat)
  | reorder (threadId : String) (itemIds : List Nat)
  | takeSteered (threadId : String) (clientUserMessageId : Option String) (input : JsonValue)
  | acceptSteered (reservation : Nat)
  | restore (reservation : Nat)
  | pause (threadId : String) (reason : PausedReason)
  | resume (threadId : String)
  | clear (threadId : String)

def ids (queue : ExternalThreadQueue) (threadId : String) : List Nat := (queue.submissions threadId).map (·.id)

section Steps
variable (externalTurnInputText : JsonValue → Except String String)

def State.on (s : State) (threadId : String) (change : IdealQueue → IdealQueue) : String → IdealQueue :=
  Function.update s.ideal threadId (change (s.ideal threadId))

def step (s : State) : Operation → Option State
  | .add threadId input client presentation source generated =>
    let queue := (s.queue.add threadId input client presentation source generated).2
    some { s with
      queue
      ideal := if queue.next = s.queue.next then s.ideal else s.on threadId (·.add s.queue.next) }
  | .update threadId itemId input presentation =>
    some { s with queue := (s.queue.update threadId itemId input presentation).2 }
  | .delete threadId itemId =>
    some { s with
      queue := (s.queue.delete threadId itemId).2
      ideal := if itemId ∈ ids s.queue threadId then s.on threadId (·.remove itemId) else s.ideal }
  | .reorder threadId itemIds =>
    let queue := (s.queue.reorder threadId itemIds).2
    some { s with
      queue
      ideal := s.on threadId fun ideal => { ideal with slots := Slot.refill ideal.slots (ids queue threadId) } }
  | .takeSteered threadId client input =>
    match s.queue.takeSteered externalTurnInputText threadId client input with
    | (.ok (some taken), queue) =>
      some
        { queue
          taken := s.taken ++ [(threadId, taken)]
          ideal := s.on threadId (·.mark taken.submission.id true) }
    | (_, queue) => some { s with queue }
  | .acceptSteered reservation =>
    s.taken[reservation]?.map fun entry =>
      { queue := s.queue.acceptSteered entry.1 entry.2
        taken := s.taken.eraseIdx reservation
        ideal := s.on entry.1 (·.remove entry.2.submission.id) }
  | .restore reservation =>
    s.taken[reservation]?.map fun entry =>
      { queue := s.queue.restore entry.1 entry.2
        taken := s.taken.eraseIdx reservation
        ideal := s.on entry.1 (·.mark entry.2.submission.id false) }
  | .pause threadId reason =>
    some { s with
      queue := (s.queue.pause threadId reason).2
      ideal := if (s.queue.pause threadId reason).1 then s.on threadId ({ · with pausedReason := some reason }) else s.ideal }
  | .resume threadId =>
    some { s with
      queue := (s.queue.resume threadId).2
      ideal := if (s.queue.resume threadId).1 then s.on threadId ({ · with pausedReason := none }) else s.ideal }
  | .clear threadId =>
    some { s with queue := s.queue.clear threadId, ideal := s.on threadId (·.clear) }

end Steps

/-- The operation does not bring a dropped queue back with another reason, and an item is restored to
the place of its reservation. -/
def Sound (s : State) : Operation → Prop
  | .add threadId input client presentation source generated =>
    (s.queue.add threadId input client presentation source generated).2.next ≠ s.queue.next →
      s.queue.has threadId = true ∨ (s.ideal threadId).pausedReason = none
  | .restore reservation => ∀ entry ∈ s.taken[reservation]?,
    (s.queue.has entry.1 = true ∨ (s.ideal entry.1).pausedReason = entry.2.pausedReason) ∧
      min entry.2.index (s.queue.submissions entry.1).length =
        Slot.place entry.2.submission.id (s.ideal entry.1).slots
  | _ => True

instance (s : State) : (operation : Operation) → Decidable (Sound s operation)
  | .add .. => inferInstanceAs (Decidable (_ ≠ _ → _ ∨ _))
  | .restore reservation => inferInstanceAs (Decidable (∀ entry ∈ s.taken[reservation]?, _ ∧ _))
  | .update .. | .delete .. | .reorder .. | .takeSteered .. | .acceptSteered _ | .pause .. | .resume _
  | .clear _ => isTrue trivial

section View
variable {queue : ExternalThreadQueue} {threadId : String}

def seen (objects : Nat → ExternalQueuedSubmission) (state : ThreadState) : List Nat × Option PausedReason :=
  (state.items.map fun item => (objects item).id, state.pausedReason)

def viewOf (queue : ExternalThreadQueue) (threadId : String) : View :=
  (queue.states.get? threadId).map (seen queue.objects)

theorem ids_eq (queue : ExternalThreadQueue) (threadId : String) :
    ids queue threadId = (viewOf queue threadId).elim [] Prod.fst := by
  rw [ids, submissions, viewOf]
  cases queue.states.get? threadId with
  | none => rfl
  | some state => simp [seen]

/-- The items are objects that were made. -/
def Made (queue : ExternalThreadQueue) : Prop :=
  ∀ threadId state, queue.states.get? threadId = some state → ∀ item ∈ state.items, item < queue.next

/-- One Thread gets another state. -/
theorem viewOf_set (state : ThreadState) (other : String) :
    viewOf { queue with states := queue.states.set threadId state } other =
      if other = threadId then some (seen queue.objects state) else viewOf queue other := by
  rw [viewOf, viewOf, get?_set]
  split <;> rfl

theorem viewOf_prune (state : ThreadState) (other : String) : viewOf (queue.prune threadId state) other =
      if other = threadId then
        if state.items.length = 0 then none else some (seen queue.objects state)
      else viewOf queue other := by
  rw [prune]
  split
  · rw [viewOf, viewOf, get?_delete]
    split <;> rfl
  · exact viewOf_set state other

theorem viewOf_made (made : Made queue) (object : ExternalQueuedSubmission) (receipts : OrderedMap String Nat)
    (state : ThreadState) (other : String) :
    viewOf { queue with
        objects := Function.update queue.objects queue.next object
        next := queue.next + 1
        receipts
        states := queue.states.set threadId state } other =
      if other = threadId then some (seen (Function.update queue.objects queue.next object) state)
      else viewOf queue other := by
  rw [viewOf, get?_set]
  split
  · rfl
  · rw [viewOf]
    cases is : queue.states.get? other with
    | none => rfl
    | some old =>
      have same : ∀ item ∈ old.items,
          (Function.update queue.objects queue.next object item).id = (queue.objects item).id := by
        intro item member
        have below := made other old is item member
        rw [Function.update_of_ne (by omega)]
      simp only [map_some, seen]
      rw [map_congr_left same]

theorem viewOf_rewrite (item : Nat) (input : Input) (presentation : Option Input) (other : String) :
    viewOf (queue.rewrite item input presentation) other = viewOf queue other := by
  have same : ∀ number, ((queue.rewrite item input presentation).objects number).id =
      (queue.objects number).id := by
    intro number
    by_cases here : number = item <;> simp [rewrite, here]
  rw [viewOf, viewOf]
  congr 1
  funext state
  simp only [seen, same]

theorem view_isSome (state : ThreadState) (is : queue.states.get? threadId = some state) :
    viewOf queue threadId = some (seen queue.objects state) := by
  rw [viewOf, is]
  rfl

theorem has_iff : queue.has threadId = true ↔ ids queue threadId ≠ [] := by
  simp [ExternalThreadQueue.has, ids, length_pos_iff]

end View

namespace IdealQueue
variable {ideal : IdealQueue} {id : Nat}

theorem view_settle : ideal.settle.view = ideal.view := by
  rw [settle]
  split
  · rename_i empty
    simp [view, empty, Slot.visible]
  · rfl

theorem settle_slots : ideal.settle.slots = ideal.slots := by
  rw [settle]
  split
  · rename_i empty
    exact empty.symm
  · rfl

theorem remove_slots : (ideal.remove id).slots = Slot.remove id ideal.slots := settle_slots

theorem view_eq {objects : Nat → ExternalQueuedSubmission} {state : ThreadState}
    (items : state.items.map (fun item => (objects item).id) = Slot.visible ideal.slots)
    (reason : state.pausedReason = ideal.pausedReason) :
    (if state.items.length = 0 then none else some (seen objects state)) = ideal.view := by
  have empty : state.items.length = 0 ↔ Slot.visible ideal.slots = [] := by
    rw [← items, map_eq_nil_iff, length_eq_zero_iff]
  simp only [view, ← empty, seen, items, reason]

end IdealQueue

section Made
variable {queue queue' : ExternalThreadQueue} {threadId : String} {state : ThreadState}

theorem Made.set (made : Made queue) (next : queue.next ≤ queue'.next)
    (states : queue'.states = queue.states.set threadId state)
    (below : ∀ item ∈ state.items, item < queue'.next) : Made queue' := by
  intro other old is item member
  rw [states, get?_set] at is
  split at is
  · cases is
    exact below item member
  · exact (made other old is item member).trans_le next

theorem Made.delete (made : Made queue) (next : queue.next ≤ queue'.next)
    (states : queue'.states = queue.states.delete threadId) : Made queue' := by
  intro other old is item member
  rw [states] at is
  exact (made other old (kept_of_delete is).2 item member).trans_le next

theorem Made.prune (made : Made queue) (below : ∀ item ∈ state.items, item < queue.next) :
    Made (queue.prune threadId state) := by
  rw [ExternalThreadQueue.prune]
  split
  · exact made.delete le_rfl rfl
  · exact made.set le_rfl rfl below

end Made

section Lists
variable {α : Type} {f : α → Nat}

variable {items : List α}

theorem map_eraseIdx_findIdx {a index : Nat} (nodup : (items.map f).Nodup)
    (found : items.findIdx? (fun item => f item = a) = some index) :
    (items.eraseIdx index).map f = (items.map f).filter (· ≠ a) ∧ a ∈ items.map f := by
  induction items generalizing index with
  | nil => cases found
  | cons item rest ih =>
    rw [map_cons, nodup_cons] at nodup
    rw [findIdx?_cons] at found
    by_cases here : f item = a
    · simp only [here, decide_true, if_true, some.injEq] at found
      subst found
      rw [← here, eraseIdx_zero, tail_cons, map_cons]
      refine ⟨?_, mem_cons_self⟩
      rw [filter_cons_of_neg (by simp), filter_eq_self.mpr]
      intro other member
      exact decide_eq_true fun same => nodup.1 (same ▸ member)
    · simp only [here, decide_false, Bool.false_eq_true, if_false, map_eq_some_iff] at found
      obtain ⟨index, found, rfl⟩ := found
      obtain ⟨is, member⟩ := ih nodup.2 found
      rw [eraseIdx_cons_succ, map_cons, map_cons, is, filter_cons_of_pos (by simpa using here)]
      exact ⟨rfl, mem_cons_of_mem _ member⟩

theorem not_mem_of_findIdx {a : Nat}
    (missing : items.findIdx? (fun item => f item = a) = none) : a ∉ items.map f := by
  rw [findIdx?_eq_none_iff] at missing
  intro member
  obtain ⟨item, within, is⟩ := mem_map.mp member
  exact absurd is (by simpa using missing item within)

theorem map_eraseIdx_idxOf [DecidableEq α] {item : α} (nodup : (items.map f).Nodup) (member : item ∈ items) :
    (items.eraseIdx (items.idxOf item)).map f = (items.map f).filter (· ≠ f item) := by
  rw [List.eraseIdx_idxOf_eq_erase, (nodup.of_map f).erase_eq_filter, List.filter_map]
  congr 1
  refine List.filter_congr fun other within => ?_
  have same := List.inj_on_of_nodup_map nodup within member
  by_cases here : other = item
  · simp [here]
  · have apart : f other ≠ f item := fun is => here (same is)
    simp [here, apart]

theorem map_named {items named : List α} {order : List Nat}
    (found : order.mapM (fun id => items.find? fun item => f item = id) = some named) :
    named.map f = order ∧ named ⊆ items := by
  induction order generalizing named with
  | nil =>
    cases found
    exact ⟨rfl, nil_subset items⟩
  | cons id order ih =>
    rw [mapM_cons] at found
    obtain ⟨first, isFirst, found⟩ := bind_eq_some_iff.mp found
    obtain ⟨others, areOthers, last⟩ := bind_eq_some_iff.mp found
    cases last
    obtain ⟨is, members⟩ := ih areOthers
    have same : f first = id := by simpa using find?_some isFirst
    exact ⟨by rw [map_cons, is, same], cons_subset.mpr ⟨mem_of_find?_eq_some isFirst, members⟩⟩

theorem perm_reorder {items named : List α} {order : List Nat} (nodup : (items.map f).Nodup)
    (distinct : order.Nodup)
    (found : order.mapM (fun id => items.find? fun item => f item = id) = some named) :
    ((named ++ items.filter fun item => f item ∉ order).map f).Perm (items.map f) := by
  obtain ⟨is, members⟩ := map_named found
  have rest : (items.filter fun item => f item ∉ order).map f = (items.map f).filter (· ∉ order) := by
    rw [List.filter_map]
    rfl
  have parts := List.filter_append_perm (· ∈ order) (items.map f)
  rw [List.map_append, is, rest]
  simp only [← decide_not] at parts
  refine (List.Perm.append_right _ ?_).trans parts
  rw [List.perm_ext_iff_of_nodup distinct (nodup.filter _)]
  intro id
  simp only [List.mem_filter, decide_eq_true_eq]
  refine ⟨fun member => ⟨?_, member⟩, fun both => both.2⟩
  rw [← is] at member
  exact List.map_subset f members member

end Lists

end CodexHost.Guarantees.QueueReservations
