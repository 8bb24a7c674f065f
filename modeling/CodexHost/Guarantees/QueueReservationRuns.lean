import CodexHost.Guarantees.QueueReservations

/-!
# Runs with reserved items

Every operation of the queue, under the condition that it does not bring a dropped queue back with
another reason, keeps what the clients see equal to the ideal queues.
-/
namespace CodexHost.Guarantees.QueueReservations
open Foundation Source.HostRuntime.ExternalQueue Source.ProtocolCore List Option Function Slot IdealQueue ExternalThreadQueue Nat

structure Inv (s : State) : Prop where
  view : ∀ threadId, viewOf s.queue threadId = (s.ideal threadId).view
  made : Made s.queue
  nodup : ∀ threadId, (Slot.items (s.ideal threadId).slots).Nodup
  bound : ∀ threadId, ∀ id ∈ Slot.items (s.ideal threadId).slots, id < s.queue.next
  held : ∀ entry ∈ s.taken, ⟨entry.2.submission.id, true⟩ ∈ (s.ideal entry.1).slots
  distinct : (s.taken.map fun entry => (entry.1, entry.2.submission.id)).Nodup

namespace Inv
variable {s : State} {threadId : String}

theorem initial : Inv initial where
  view _ := rfl
  made _ _ is := by cases is
  nodup _ := nodup_nil
  bound _ _ member := by cases member
  held _ member := by cases member
  distinct := nodup_nil

theorem ids_eq_visible (inv : Inv s) (threadId : String) :
    ids s.queue threadId = Slot.visible (s.ideal threadId).slots := by
  rw [ids_eq, inv.view, IdealQueue.view]
  split
  · rename_i none
    exact none.symm
  · rfl

theorem ids_nodup (inv : Inv s) (threadId : String) : (ids s.queue threadId).Nodup := by
  rw [inv.ids_eq_visible]
  exact visible_nodup (inv.nodup threadId)

variable {state : ThreadState}

theorem ids_state (inv : Inv s) (is : s.queue.states.get? threadId = some state) :
    state.items.map (fun item => (s.queue.objects item).id) = Slot.visible (s.ideal threadId).slots ∧
      state.pausedReason = (s.ideal threadId).pausedReason ∧ state.items ≠ [] := by
  have view := inv.view threadId
  rw [view_isSome state is, IdealQueue.view] at view
  split at view
  · cases view
  · rename_i some
    rw [Option.some.injEq, Prod.mk.injEq] at view
    refine ⟨view.1, view.2, fun empty => some ?_⟩
    rw [← view.1, seen, empty]
    rfl

theorem not_has (inv : Inv s) (is : s.queue.states.get? threadId = none) :
    Slot.visible (s.ideal threadId).slots = [] := by
  have view := inv.view threadId
  rw [viewOf, is, IdealQueue.view] at view
  split at view
  · assumption
  · cases view

variable {queue : ExternalThreadQueue} {ideal : IdealQueue}

section
variable (inv : Inv s)
include inv

section
variable (others : ∀ other, other ≠ threadId → viewOf queue other = viewOf s.queue other)
include others

theorem advance
    (here : viewOf queue threadId = ideal.view) (made : Made queue) (next : s.queue.next ≤ queue.next)
    (nodup : (Slot.items ideal.slots).Nodup) (bound : ∀ id ∈ Slot.items ideal.slots, id < queue.next)
    {taken : List (String × TakenSubmission)}
    (held : ∀ entry ∈ taken, if entry.1 = threadId then ⟨entry.2.submission.id, true⟩ ∈ ideal.slots
      else entry ∈ s.taken)
    (distinct : (taken.map fun entry => (entry.1, entry.2.submission.id)).Nodup) :
    Inv { queue, taken, ideal := Function.update s.ideal threadId ideal } where
  view other := by
    change viewOf queue other = (Function.update s.ideal threadId ideal other).view
    rw [update_apply]
    split
    · rename_i same
      rw [same, here]
    · rename_i apart
      rw [others other apart, inv.view]
  made
  nodup other := by
    change (items (Function.update s.ideal threadId ideal other).slots).Nodup
    rw [update_apply]
    split
    · exact nodup
    · exact inv.nodup other
  bound other id member := by
    change id ∈ items (Function.update s.ideal threadId ideal other).slots at member
    rw [update_apply] at member
    split at member
    · exact bound id member
    · exact (inv.bound other id member).trans_le next
  held entry member := by
    change _ ∈ (Function.update s.ideal threadId ideal entry.1).slots
    have held := held entry member
    rw [update_apply]
    split at held
    · rwa [if_pos (by assumption)]
    · rw [if_neg (by assumption)]
      exact inv.held entry held
  distinct

theorem keep
    (here : viewOf queue threadId = ideal.view) (made : Made queue) (next : s.queue.next ≤ queue.next)
    (nodup : (Slot.items ideal.slots).Nodup) (bound : ∀ id ∈ Slot.items ideal.slots, id < queue.next)
    (held : ∀ id, ⟨id, true⟩ ∈ (s.ideal threadId).slots → ⟨id, true⟩ ∈ ideal.slots) :
    Inv { s with queue, ideal := Function.update s.ideal threadId ideal } := by
  refine inv.advance others here made next nodup bound ?_ inv.distinct
  intro entry member
  split
  · rename_i same
    exact held _ (same ▸ inv.held entry member)
  · exact member

end

theorem same (views : ∀ other, viewOf queue other = viewOf s.queue other) (made : Made queue)
    (next : s.queue.next ≤ queue.next) : Inv { s with queue } where
  view other := (views other).trans (inv.view other)
  made
  nodup := inv.nodup
  bound other id member := (inv.bound other id member).trans_le next
  held := inv.held
  distinct := inv.distinct

theorem below (is : s.queue.states.get? threadId = some state) :
    ∀ item ∈ state.items, item < s.queue.next := inv.made threadId state is

theorem pruned (is : s.queue.states.get? threadId = some state) {index : Nat}
    (items : (state.items.eraseIdx index).map (fun item => (s.queue.objects item).id) =
      Slot.visible ideal.slots)
    (reason : state.pausedReason = ideal.pausedReason) :
    let queue := s.queue.prune threadId { state with items := state.items.eraseIdx index }
    (∀ other, other ≠ threadId → viewOf queue other = viewOf s.queue other) ∧
      viewOf queue threadId = ideal.view ∧ Made queue := by
  refine ⟨fun other apart => ?_, ?_, ?_⟩
  · rw [viewOf_prune, if_neg apart]
  · rw [viewOf_prune, if_pos rfl]
    let rest : ThreadState := { state with items := state.items.eraseIdx index }
    exact view_eq items reason
  · exact inv.made.prune fun item member => inv.below is item (mem_of_mem_eraseIdx member)

theorem update (itemId : Nat) (input : Input) (presentation : Option Input) :
    Inv { s with queue := (s.queue.update threadId itemId input presentation).2 } := by
  rw [ExternalThreadQueue.update]
  split
  · exact inv
  · dsimp only
    split
    · refine inv.same (fun other => ?_) inv.made le_rfl
      rw [viewOf_rewrite, viewOf_rewrite]
    · exact inv.same (viewOf_rewrite _ input presentation) inv.made le_rfl

theorem not_reserved {id : Nat} (member : id ∈ Slot.visible (s.ideal threadId).slots) :
    ⟨id, true⟩ ∉ (s.ideal threadId).slots := by
  intro held
  have nodup := (items_perm _).nodup_iff.mp (inv.nodup threadId)
  exact disjoint_of_nodup_append nodup (mem_reserved.mpr held) member

theorem delete (itemId : Nat) : Inv { s with
      queue := (s.queue.delete threadId itemId).2
      ideal := if itemId ∈ ids s.queue threadId then s.on threadId (·.remove itemId) else s.ideal } := by
  rw [inv.ids_eq_visible, ExternalThreadQueue.delete]
  cases is : s.queue.states.get? threadId with
  | none =>
    rw [inv.not_has is]
    exact inv
  | some state =>
    obtain ⟨items, reason, -⟩ := inv.ids_state is
    have nodup := inv.ids_nodup threadId
    rw [inv.ids_eq_visible, ← items] at nodup
    dsimp only
    cases found : state.items.findIdx? fun item => (s.queue.objects item).id = itemId with
    | none =>
      rw [← items, if_neg (not_mem_of_findIdx found)]
      exact inv
    | some index =>
      obtain ⟨left, member⟩ := map_eraseIdx_findIdx nodup found
      rw [items] at left member
      rw [if_pos member]
      rw [← Slot.visible_remove, ← IdealQueue.remove_slots] at left
      rw [IdealQueue.remove_slots] at left
      let ideal : IdealQueue := { s.ideal threadId with slots := Slot.remove itemId (s.ideal threadId).slots }
      have visible : _ = Slot.visible ideal.slots := left
      obtain ⟨others, here, made⟩ := inv.pruned is visible reason
      refine inv.keep others (here.trans IdealQueue.view_settle.symm) made le_rfl ?_ ?_ ?_
      · rw [IdealQueue.remove_slots]
        exact (inv.nodup threadId).sublist (filter_sublist.map _)
      · intro id member
        rw [IdealQueue.remove_slots] at member
        exact inv.bound threadId id ((filter_sublist.map _).subset member)
      · intro id held
        rw [IdealQueue.remove_slots]
        refine mem_filter.mpr ⟨held, decide_eq_true fun same => ?_⟩
        exact inv.not_reserved member (same ▸ held)

theorem refilled (perm : (ids queue threadId).Perm (Slot.visible (s.ideal threadId).slots))
    (others : ∀ other, other ≠ threadId → viewOf queue other = viewOf s.queue other)
    (here : viewOf queue threadId = (viewOf s.queue threadId).map fun seen => (ids queue threadId, seen.2))
    (made : Made queue) (next : queue.next = s.queue.next) :
    Inv { s with
      queue
      ideal := s.on threadId fun ideal => { ideal with slots := Slot.refill ideal.slots (ids queue threadId) } } := by
  obtain ⟨visible, reserved⟩ := Slot.refill_spec perm.length_eq
  have items := Slot.items_refill perm
  refine inv.keep others ?_ made next.ge (items.nodup_iff.mpr (inv.nodup threadId)) ?_ ?_
  · rw [here, inv.view, IdealQueue.view, IdealQueue.view, visible]
    by_cases none : Slot.visible (s.ideal threadId).slots = []
    · rw [if_pos none, if_pos (perm_nil.mp (none ▸ perm))]
      rfl
    · rw [if_neg none, if_neg fun empty => none (nil_perm.mp (by rwa [empty] at perm))]
      rfl
  · intro id member
    rw [next]
    exact inv.bound threadId id (items.mem_iff.mp member)
  · intro id held
    rw [← Slot.mem_reserved] at held ⊢
    exact reserved.symm ▸ held

theorem reorder (itemIds : List Nat) :
    let queue := (s.queue.reorder threadId itemIds).2
    Inv { s with
      queue
      ideal := s.on threadId fun ideal => { ideal with slots := Slot.refill ideal.slots (ids queue threadId) } } := by
  have same : viewOf s.queue threadId =
      (viewOf s.queue threadId).map fun seen => (ids s.queue threadId, seen.2) := by
    rw [ids_eq]
    cases viewOf s.queue threadId <;> rfl
  have unchanged := inv.refilled (by rw [inv.ids_eq_visible]) (fun _ _ => rfl) same inv.made rfl
  rw [ExternalThreadQueue.reorder]
  cases is : s.queue.states.get? threadId with
  | none => exact unchanged
  | some state =>
    obtain ⟨items, reason, some⟩ := inv.ids_state is
    have nodup := inv.ids_nodup threadId
    rw [inv.ids_eq_visible, ← items] at nodup
    dsimp only
    split
    · exact unchanged
    · rename_i fits
      rw [not_or, not_not] at fits
      split
      · exact unchanged
      · rename_i reordered found
        let state' : ThreadState :=
          { state with
            items := reordered ++ state.items.filter fun item => (s.queue.objects item).id ∉ itemIds }
        let queue := { s.queue with states := s.queue.states.set threadId state' }
        have seen : ∀ other, viewOf queue other = _ := viewOf_set state'
        have idsHere := ids_eq queue threadId
        rw [seen, if_pos rfl] at idsHere
        refine inv.refilled ?_ (fun other apart => ?_) ?_ ?_ rfl
        · rw [idsHere, ← items]
          exact perm_reorder nodup fits.2 found
        · rw [seen, if_neg apart]
        · rw [idsHere, seen, if_pos rfl, view_isSome state is]
          rfl
        · refine inv.made.set le_rfl rfl fun item member => inv.below is item ?_
          rcases mem_append.mp member with named | other
          · exact (map_named found).2 named
          · exact mem_of_mem_filter other

/-- The state that `add` and `restore` change. -/
theorem opened {reason : Option PausedReason}
    (same : s.queue.has threadId = true ∨ (s.ideal threadId).pausedReason = reason) :
    let state := (s.queue.states.get? threadId).getD ⟨[], reason⟩
    state.items.map (fun item => (s.queue.objects item).id) = visible (s.ideal threadId).slots ∧
      state.pausedReason = (s.ideal threadId).pausedReason ∧ ∀ item ∈ state.items, item < s.queue.next := by
  rw [has_iff, inv.ids_eq_visible] at same
  cases is : s.queue.states.get? threadId with
  | none =>
    have none := inv.not_has is
    refine ⟨none.symm, ?_, by simp⟩
    rcases same with some | same
    · exact absurd none some
    · exact same.symm
  | some state =>
    obtain ⟨items, reason, -⟩ := inv.ids_state is
    exact ⟨items, reason, inv.below is⟩

end

theorem insert_view (made : Made queue)
    (below : ∀ item ∈ state.items, item < queue.next) (object : ExternalQueuedSubmission)
    (receipts : OrderedMap String Nat) (index : Nat) :
    let queue' : ExternalThreadQueue :=
      { queue with
        objects := Function.update queue.objects queue.next object
        next := queue.next + 1
        receipts
        states := queue.states.set threadId { state with items := state.items.insertIdx index queue.next } }
    (∀ other, other ≠ threadId → viewOf queue' other = viewOf queue other) ∧
      (index ≤ state.items.length → viewOf queue' threadId =
        some ((state.items.map fun item => (queue.objects item).id).insertIdx index object.id,
          state.pausedReason)) ∧
      Made queue' := by
  refine ⟨fun other apart => ?_, fun within => ?_, ?_⟩
  · rw [viewOf_made made, if_neg apart]
  · have same : ∀ item ∈ state.items,
        (Function.update queue.objects queue.next object item).id = (queue.objects item).id := by
      intro item member
      rw [update_of_ne (below item member).ne]
    rw [viewOf_made made, if_pos rfl, seen]
    rw [map_insertIdx, map_congr_left same, update_self]
  · refine made.set (le_succ _) rfl fun item member => ?_
    rcases eq_or_mem_of_mem_insertIdx member with rfl | old
    · exact lt_succ_self _
    · exact (below item old).trans (lt_succ_self _)

variable {s' : State}

section Steering
variable (externalTurnInputText : JsonValue → Except String String)

theorem takeSteered_cases (queue : ExternalThreadQueue) (threadId : String) (client : Option String)
    (input : JsonValue) :
    (∃ state item, queue.states.get? threadId = some state ∧ item ∈ state.items ∧
      queue.takeSteered externalTurnInputText threadId client input =
        (.ok (some ⟨queue.objects item, (queue.objects item).sourceHostId, state.items.idxOf item,
          state.pausedReason⟩),
          queue.prune threadId { state with items := state.items.eraseIdx (state.items.idxOf item) })) ∨
    ∃ answer, (∀ taken, answer ≠ .ok (some taken)) ∧
      queue.takeSteered externalTurnInputText threadId client input = (answer, queue) := by
  unfold takeSteered
  split
  · rename_i client state is
    dsimp only
    split
    · exact .inr ⟨.ok none, by simp, rfl⟩
    · rename_i item others found
      have member : item ∈ state.items := by
        have first : item ∈ state.items.filter
            fun item => (queue.objects item).clientUserMessageId = client := by
          rw [found]
          exact mem_cons_self
        exact mem_of_mem_filter first
      split
      · exact .inr ⟨.error _, by simp, rfl⟩
      · split
        · exact .inr ⟨.error _, by simp, rfl⟩
        · exact .inr ⟨.error _, by simp, rfl⟩
        · split
          · exact .inr ⟨.error _, by simp, rfl⟩
          · exact .inl ⟨state, item, is, member, rfl⟩
  · exact .inr ⟨.ok none, by simp, rfl⟩

theorem takeSteered (inv : Inv s) {client : Option String} {input : JsonValue}
    (steps : step externalTurnInputText s (.takeSteered threadId client input) = some s') : Inv s' := by
  rw [step] at steps
  rcases takeSteered_cases externalTurnInputText s.queue threadId client input with
    ⟨state, item, is, member, answer⟩ | ⟨answer, refused, same⟩
  · rw [answer] at steps
    cases steps
    obtain ⟨items, reason, -⟩ := inv.ids_state is
    have nodup := inv.ids_nodup threadId
    rw [inv.ids_eq_visible, ← items] at nodup
    have left := map_eraseIdx_idxOf nodup member
    rw [items, ← Slot.visible_reserve] at left
    have visible : (s.queue.objects item).id ∈ Slot.visible (s.ideal threadId).slots := by
      rw [← items]
      exact mem_map_of_mem member
    let ideal := (s.ideal threadId).mark (s.queue.objects item).id true
    have left : _ = Slot.visible ideal.slots := left
    obtain ⟨others, here, made⟩ := inv.pruned is left reason
    refine inv.advance others here made le_rfl ?_ ?_ ?_ ?_
    · change (Slot.items (Slot.mark _ true _)).Nodup
      rw [Slot.items_mark]
      exact inv.nodup threadId
    · change ∀ id ∈ Slot.items (Slot.mark _ true _), _
      rw [Slot.items_mark]
      exact inv.bound threadId
    · intro entry within
      rcases mem_append.mp within with earlier | last
      · split
        · rename_i same
          have held := inv.held entry earlier
          rw [same] at held
          refine (Slot.mem_mark_of_ne fun same => ?_).mpr held
          exact inv.not_reserved visible (same ▸ held)
        · exact earlier
      · rw [mem_singleton] at last
        subst last
        rw [if_pos rfl]
        exact Slot.mem_mark_self (Slot.mem_visible_items visible)
    · rw [map_append, nodup_append]
      refine ⟨inv.distinct, nodup_singleton _, ?_⟩
      intro pair earlier last isLast same
      rw [map_singleton, mem_singleton] at isLast
      rw [same, isLast, List.mem_map] at earlier
      obtain ⟨entry, within, is⟩ := earlier
      obtain ⟨sameThread, sameItem⟩ := Prod.mk.inj is
      have held := inv.held entry within
      rw [sameThread, sameItem] at held
      exact inv.not_reserved visible held
  · rw [same] at steps
    cases answer with
    | error error =>
      cases steps
      exact inv
    | ok given =>
      cases given with
      | some taken => exact absurd rfl (refused taken)
      | none =>
        cases steps
        exact inv

variable {reservation : Nat}

theorem not_again {entry : String × TakenSubmission} (inv : Inv s)
    (is : s.taken[reservation]? = some entry) {other : String × TakenSubmission}
    (member : other ∈ s.taken.eraseIdx reservation) (same : other.1 = entry.1) :
    other.2.submission.id ≠ entry.2.submission.id := by
  intro sameItem
  obtain ⟨within, is⟩ := List.getElem?_eq_some_iff.mp is
  have perm := (List.getElem_cons_eraseIdx_perm within).map fun entry => (entry.1, entry.2.submission.id)
  have distinct := perm.nodup_iff.mpr inv.distinct
  rw [List.map_cons, List.nodup_cons, is] at distinct
  exact distinct.1 (List.mem_map.mpr ⟨other, member, by rw [same, sameItem]⟩)

theorem released (inv : Inv s) {entry : String × TakenSubmission}
    (is : s.taken[reservation]? = some entry)
    (others : ∀ other, other ≠ entry.1 → viewOf queue other = viewOf s.queue other)
    (here : viewOf queue entry.1 = ideal.view) (made : Made queue) (next : s.queue.next ≤ queue.next)
    (items : (Slot.items ideal.slots).Sublist (Slot.items (s.ideal entry.1).slots))
    (held : ∀ id ≠ entry.2.submission.id, ⟨id, true⟩ ∈ (s.ideal entry.1).slots → ⟨id, true⟩ ∈ ideal.slots) :
    Inv
      { queue
        taken := s.taken.eraseIdx reservation
        ideal := Function.update s.ideal entry.1 ideal } := by
  refine inv.advance others here made next ((inv.nodup entry.1).sublist items) ?_ ?_ ?_
  · intro id member
    exact (inv.bound entry.1 id (items.subset member)).trans_le next
  · intro other member
    have within := mem_of_mem_eraseIdx member
    split
    · rename_i same
      have reserved := inv.held other within
      rw [same] at reserved
      exact held _ (inv.not_again is member same) reserved
    · exact within
  · exact inv.distinct.sublist ((eraseIdx_sublist _ _).map _)

theorem acceptSteered (inv : Inv s)
    (steps : step externalTurnInputText s (.acceptSteered reservation) = some s') : Inv s' := by
  obtain ⟨entry, is, rfl⟩ := map_eq_some_iff.mp steps
  have member := mem_of_getElem? is
  have reserved := inv.held entry member
  have hidden : (Slot.visible (s.ideal entry.1).slots).filter (· ≠ entry.2.submission.id) =
      Slot.visible (s.ideal entry.1).slots := by
    rw [filter_eq_self]
    intro id visible
    have other : id ≠ entry.2.submission.id := by
      intro same
      rw [same] at visible
      exact inv.not_reserved visible reserved
    simpa using other
  obtain ⟨steers, accepted⟩ : ∃ steers, s.queue.acceptSteered entry.1 entry.2 =
      { s.queue with acceptedSteers := steers } := ⟨_, rfl⟩
  rw [accepted]
  have same : ∀ other, viewOf { s.queue with acceptedSteers := steers } other = viewOf s.queue other :=
    fun _ => rfl
  refine inv.released is (fun other _ => same other) ?_ inv.made le_rfl ?_ ?_
  · refine (same entry.1).trans ((inv.view entry.1).trans (Eq.trans ?_ IdealQueue.view_settle.symm))
    simp only [IdealQueue.view, Slot.visible_remove, hidden]
  · rw [IdealQueue.remove_slots]
    exact filter_sublist.map _
  · intro id other held
    rw [IdealQueue.remove_slots]
    exact mem_filter.mpr ⟨held, by simpa using other⟩

theorem restore (inv : Inv s) (sound : Sound s (.restore reservation))
    (steps : step externalTurnInputText s (.restore reservation) = some s') : Inv s' := by
  obtain ⟨⟨threadId, taken⟩, is, rfl⟩ := Option.map_eq_some_iff.mp steps
  obtain ⟨reason, place⟩ := sound (threadId, taken) is
  have member := List.mem_of_getElem? is
  have reserved := inv.held _ member
  obtain ⟨visible, within⟩ := Slot.visible_release (inv.nodup threadId) reserved
  obtain ⟨items, sameReason, below⟩ := inv.opened reason
  rw [ExternalThreadQueue.restore]
  generalize (s.queue.states.get? threadId).getD ⟨[], taken.pausedReason⟩ = state at items sameReason below ⊢
  have absent : (state.items.any fun item => (s.queue.objects item).id = taken.submission.id) = false := by
    rw [List.any_eq_false]
    intro item here same
    have seen : (s.queue.objects item).id ∈ Slot.visible (s.ideal threadId).slots := by
      rw [← items]
      exact List.mem_map_of_mem here
    rw [of_decide_eq_true same] at seen
    exact inv.not_reserved seen reserved
  rw [absent]
  have length : (s.queue.submissions threadId).length = state.items.length := by
    have ids := congrArg List.length (inv.ids_eq_visible threadId)
    rw [← items, List.length_map, CodexHost.Guarantees.QueueReservations.ids, List.length_map] at ids
    exact ids
  rw [length] at place
  obtain ⟨others, here, made⟩ := insert_view inv.made below taken.submission s.queue.receipts
    (min taken.index state.items.length)
  refine inv.released is others ?_ made (Nat.le_succ _) ?_ ?_
  · refine (here (Nat.min_le_right _ _)).trans ?_
    rw [items, place, ← visible, sameReason, IdealQueue.view, if_neg]
    · rfl
    · change Slot.visible (Slot.mark _ false _) ≠ []
      rw [visible]
      exact List.ne_nil_of_mem ((List.mem_insertIdx within).mpr (.inl rfl))
  · change (Slot.items (Slot.mark _ false _)).Sublist _
    rw [Slot.items_mark]
  · intro id other held
    exact (Slot.mem_mark_of_ne other).mpr held

end Steering

section
variable (inv : Inv s)
include inv

/-- Another reason, or none, for a Thread that has a queue. -/
theorem reason (is : s.queue.states.get? threadId = some state) (reason : Option PausedReason) :
    Inv { s with
      queue := { s.queue with states := s.queue.states.set threadId { state with pausedReason := reason } }
      ideal := s.on threadId ({ · with pausedReason := reason }) } := by
  obtain ⟨items, -, some⟩ := inv.ids_state is
  have below : ∀ item ∈ { state with pausedReason := reason }.items, item < s.queue.next :=
    fun item member => inv.below is item member
  refine inv.keep (fun other apart => ?_) ?_ (inv.made.set le_rfl rfl below) le_rfl (inv.nodup threadId)
    (inv.bound threadId) fun _ held => held
  · rw [viewOf_set, if_neg apart]
  · rw [viewOf_set, if_pos rfl, IdealQueue.view]
    rw [← items, if_neg (by simpa using some)]
    rfl

theorem pause (reason : PausedReason) : Inv { s with
      queue := (s.queue.pause threadId reason).2
      ideal := if (s.queue.pause threadId reason).1 then s.on threadId ({ · with pausedReason := some reason })
        else s.ideal } := by
  rw [ExternalThreadQueue.pause]
  split
  · exact inv
  · rename_i state is
    split
    · exact inv
    · exact inv.reason is (some reason)

theorem resume : Inv { s with
      queue := (s.queue.resume threadId).2
      ideal := if (s.queue.resume threadId).1 then s.on threadId ({ · with pausedReason := none })
        else s.ideal } := by
  rw [ExternalThreadQueue.resume]
  split
  · exact inv
  · rename_i state is
    split
    · exact inv
    · exact inv.reason is none

theorem clear :
    Inv { s with queue := s.queue.clear threadId, ideal := s.on threadId (·.clear) } := by
  have visible : Slot.visible ((s.ideal threadId).clear).slots = [] := Slot.visible_held _
  refine inv.keep (fun other apart => ?_) ?_ (inv.made.delete le_rfl rfl) le_rfl
    ((inv.nodup threadId).sublist (filter_sublist.map _)) ?_ ?_
  · rw [viewOf, ExternalThreadQueue.clear, OrderedMap.get?_delete, if_neg apart]
    rfl
  · rw [viewOf, ExternalThreadQueue.clear, OrderedMap.get?_delete, if_pos rfl, IdealQueue.view, if_pos visible]
    rfl
  · intro id member
    exact inv.bound threadId id ((filter_sublist.map _).subset member)
  · intro id held
    exact mem_filter.mpr ⟨held, rfl⟩

theorem add {input : Input} {client : Option String} {presentation : Option Input}
    {source : Option String} {generated : String}
    (sound : Sound s (.add threadId input client presentation source generated)) :
    let queue := (s.queue.add threadId input client presentation source generated).2
    Inv { s with
      queue
      ideal := if queue.next = s.queue.next then s.ideal else s.on threadId (·.add s.queue.next) } := by
  rw [Sound] at sound
  revert sound
  rw [ExternalThreadQueue.add]
  split
  · dsimp only
    split <;> exact fun _ => by simpa using inv
  · dsimp only
    split
    · exact fun _ => by simpa using inv
    · intro sound
      obtain ⟨items, reason, below⟩ := inv.opened (sound (Nat.succ_ne_self _))
      generalize (s.queue.states.get? threadId).getD ⟨[], none⟩ = state at items reason below ⊢
      rw [if_neg (Nat.succ_ne_self _)]
      let item : ExternalQueuedSubmission :=
        ⟨s.queue.next, client.getD generated, input, presentation, source⟩
      rw [← insertIdx_length_self]
      obtain ⟨others, here, made⟩ := insert_view inv.made below item
        (s.queue.keepReceipt threadId client s.queue.next) state.items.length
      have slots : Slot.items ((s.ideal threadId).add s.queue.next).slots =
          Slot.items (s.ideal threadId).slots ++ [s.queue.next] := by
        rw [IdealQueue.add, Slot.items, map_append]
        rfl
      have visible : Slot.visible ((s.ideal threadId).add s.queue.next).slots =
          Slot.visible (s.ideal threadId).slots ++ [s.queue.next] := Slot.visible_append _ _
      refine inv.keep others ?_ made (Nat.le_succ _) ?_ ?_ fun id held => mem_append_left _ held
      · refine (here le_rfl).trans ?_
        have ends : (Slot.visible (s.ideal threadId).slots).insertIdx _ s.queue.next = _ :=
          insertIdx_length_self
        rw [← items, length_map, items] at ends
        rw [items, ends, reason, IdealQueue.view, visible, if_neg (by simp)]
        rfl
      · rw [slots, nodup_append]
        refine ⟨inv.nodup threadId, nodup_singleton _, ?_⟩
        intro id earlier last isLast same
        rw [mem_singleton.mp isLast] at same
        have older := inv.bound threadId id earlier
        omega
      · intro id member
        rw [slots, mem_append, mem_singleton] at member
        rcases member with earlier | last
        · exact (inv.bound threadId id earlier).trans (Nat.lt_succ_self _)
        · exact last ▸ Nat.lt_succ_self _

theorem step {externalTurnInputText : JsonValue → Except String String} {operation : Operation} (sound : Sound s operation)
    (steps : QueueReservations.step externalTurnInputText s operation = some s') : Inv s' := by
  cases operation with
  | add => cases steps; exact inv.add sound
  | update threadId itemId input presentation => cases steps; exact inv.update itemId input presentation
  | delete threadId itemId => cases steps; exact inv.delete itemId
  | reorder threadId itemIds => cases steps; exact inv.reorder itemIds
  | takeSteered => exact inv.takeSteered externalTurnInputText steps
  | acceptSteered => exact inv.acceptSteered externalTurnInputText steps
  | restore => exact inv.restore externalTurnInputText sound steps
  | pause threadId reason => cases steps; exact inv.pause reason
  | resume => cases steps; exact inv.resume
  | clear => cases steps; exact inv.clear

end

end Inv

/-- What the clients see is what the ideal queues hold, each item once. -/
structure Kept (s : State) : Prop where
  ids : ∀ threadId, ids s.queue threadId = Slot.visible (s.ideal threadId).slots
  once : ∀ threadId, (QueueReservations.ids s.queue threadId).Nodup
  reason : ∀ threadId, s.queue.has threadId = true →
    (s.queue.snapshot threadId).2 = (s.ideal threadId).pausedReason

theorem Inv.kept {s : State} (inv : Inv s) : Kept s where
  ids := inv.ids_eq_visible
  once := inv.ids_nodup
  reason threadId has := by
    rw [snapshot]
    cases is : s.queue.states.get? threadId with
    | none =>
      rw [has_iff, inv.ids_eq_visible, inv.not_has is] at has
      exact absurd rfl has
    | some state => exact (inv.ids_state is).2.1

section Runs
variable {externalTurnInputText : JsonValue → Except String String} {operations : List Operation} {s : State}

end Runs

def sampleInput (text : String) : Input :=
  [[(Utf16.ofString "type", .string (Utf16.ofString "text")),
    (Utf16.ofString "text", .string (Utf16.ofString text))]]

/-- The text of an input that is one of the sample inputs. -/
def sampleText : JsonValue → Except String String
  | .array [.object item] =>
    match ["a", "b", "c"].find? (JsonObject.hasText item "text" ·) with
    | some text => .ok text
    | none => .error "Unsupported external input item or invalid attachment path"
  | _ => .error "External input must be a non-empty array"

def sampleAdd (text : String) : Operation := .add "t" (sampleInput text) (some text) none none "u"

def sampleTake (text : String) : Operation := .takeSteered "t" (some text) (inputJson (sampleInput text))

def sampleRun : List Operation :=
  [sampleAdd "a", sampleAdd "b", .pause "t" .failed, sampleTake "a", .resume "t", .restore 0]

def soundStep (s : State) (operation : Operation) : Option State :=
  if Sound s operation then step sampleText s operation else none

def run (operations : List Operation) : Option State := operations.foldlM (step sampleText) initial

/-- The reserved item was the only one of a paused Thread; another one comes before it is back. -/
def resumedRun : List Operation :=
  [sampleAdd "a", .pause "t" .failed, sampleTake "a", sampleAdd "b", .restore 0]

/-- The item in front of the reserved one goes. -/
def reorderedRun : List Operation :=
  [sampleAdd "a", sampleAdd "b", sampleAdd "c", sampleTake "b", .delete "t" 0, .restore 0]

end CodexHost.Guarantees.QueueReservations
