import CodexHost.Source.HostRuntime.OfficialRequestBroker

/-!
# Internal requests settle once

Every event that is not a request settles the pending entries that it concerns, in their order, and each
settlement retires one id. So the ids that are known as retired are those of the last settlements, as many
as the bound allows.
-/
namespace CodexHost.Guarantees.InternalRequests
open Foundation Source.ProtocolCore OrderedMap
open Source.HostRuntime Source.HostRuntime.OfficialRequestBroker

/-- How an event settles a pending request with this id. -/
def settlementBy : Event → Utf16 → Option Settlement
  | .request _, _ => none
  | .handle value, id => if messageId value = some id then some (.resolve value) else none
  | .sendFailed failed error, id => if failed = id then some (.reject error) else none
  | .timedOut failed, id => if failed = id then some (.reject timedOut) else none
  | .failAll error, _ => some (.reject error)

/-- The first of a request's answer, its send failure, its time-out and the failure of all. -/
def firstSettlement (run : List Event) (id : Utf16) : Option Settlement :=
  run.findSome? fun event => settlementBy event id

def requestId : Event → Option Utf16
  | .request id => some id
  | _ => none

/-- The ids that `nextId` has given, in the order of the promises. -/
def requestIds (run : List Event) : List Utf16 := run.filterMap requestId

/-- `nextId` gives internal ids, and none twice. -/
structure Fresh (run : List Event) : Prop where
  nodup : (requestIds run).Nodup
  internal : ∀ id ∈ requestIds run, INTERNAL_REQUEST_PREFIX.isPrefixOf id = true

def settlementsOf (broker : OfficialRequestBroker) (promise : Nat) : List Settlement :=
  (broker.settled.filter fun entry => entry.1 = promise).map Prod.snd

/-- The promises that were settled last, as many as ids are kept. -/
def lastSettled (broker : OfficialRequestBroker) : List Nat :=
  (broker.settled.map Prod.fst).rtake MAX_RETIRED_IDS

variable {event : Event} {id : Utf16}

section Steps

/-- The ids known as retired are the last ones of a list. -/
structure Window (broker : OfficialRequestBroker) (ids : List Utf16) : Prop where
  set : broker.retired = broker.retiredOrder
  order : broker.retiredOrder = ids.rtake MAX_RETIRED_IDS

theorem rtake_snoc (ids : List Utf16) (id : Utf16) {limit : Nat} (positive : 0 < limit) :
    (ids ++ [id]).rtake limit =
      if (ids.rtake limit ++ [id]).length > limit then (ids.rtake limit ++ [id]).tail
      else ids.rtake limit ++ [id] := by
  have count : (ids.rtake limit).length = min ids.length limit := by
    rw [List.rtake, List.length_drop]
    omega
  rw [List.length_append, count, List.length_singleton]
  rcases Nat.lt_or_ge ids.length limit with short | long
  · rw [if_neg (by omega), List.rtake, List.rtake, List.length_append, List.length_singleton,
      Nat.sub_eq_zero_of_le (by omega), Nat.sub_eq_zero_of_le (by omega), List.drop_zero, List.drop_zero]
  · have first : (ids ++ [id]).length - limit = ids.length - limit + 1 := by
      rw [List.length_append, List.length_singleton]
      omega
    rw [if_pos (by omega), List.rtake, List.rtake, first, ← List.tail_drop,
      List.drop_append_of_le_length (by omega)]

theorem Window.retired {broker : OfficialRequestBroker} {ids : List Utf16} (window : Window broker ids) (nodup : (ids ++ [id]).Nodup) (some : ∀ other ∈ ids ++ [id], other ≠ []) :
    Window (retire broker id) (ids ++ [id]) := by
  have suffix : (ids.rtake MAX_RETIRED_IDS).Sublist ids := List.drop_sublist _ _
  have unknown : id ∉ ids.rtake MAX_RETIRED_IDS := by
    intro known
    exact (List.nodup_append.1 nodup).2.2 id (suffix.subset known) id (by simp) rfl
  have kept : (ids.rtake MAX_RETIRED_IDS ++ [id]).Nodup := nodup.sublist (suffix.append_right _)
  have next := rtake_snoc ids id (by decide : 0 < MAX_RETIRED_IDS)
  have set := window.set.trans window.order
  rw [retire, if_neg (by rw [set]; simpa using unknown)]
  dsimp only
  rw [set, window.order]
  split
  · rename_i full
    rw [if_pos full] at next
    cases order : ids.rtake MAX_RETIRED_IDS ++ [id] with
    | nil => simp at order
    | cons expired order' =>
      rw [order] at kept next
      have present : expired ≠ [] := by
        refine some expired ((suffix.append_right _).subset ?_)
        rw [order]
        exact List.mem_cons_self
      rw [List.nodup_cons] at kept
      refine ⟨?_, next.symm⟩
      dsimp only
      rw [if_pos present, List.filter_cons_of_neg (by simp), List.filter_eq_self]
      intro other later
      have differs : other ≠ expired := fun same => kept.1 (same ▸ later)
      simpa using differs
  · rename_i room
    rw [if_neg room] at next
    exact ⟨rfl, next.symm⟩

section
variable (broker : OfficialRequestBroker)
include broker

@[simp] theorem retire_pending (id : Utf16) :
    (retire broker id).pending = broker.pending := by
  rw [retire]
  split
  · rfl
  · dsimp only
    split
    · split <;> rfl
    · rfl

@[simp] theorem retire_settled (id : Utf16) :
    (retire broker id).settled = broker.settled := by
  rw [retire]
  split
  · rfl
  · dsimp only
    split
    · split <;> rfl
    · rfl

@[simp] theorem retire_timers (id : Utf16) :
    (retire broker id).timers = broker.timers := by
  rw [retire]
  split
  · rfl
  · dsimp only
    split
    · split <;> rfl
    · rfl

@[simp] theorem retire_promises (id : Utf16) :
    (retire broker id).promises = broker.promises := by
  rw [retire]
  split
  · rfl
  · dsimp only
    split
    · split <;> rfl
    · rfl

end

/-- A pending entry and how it is settled. -/
abbrev Hit : Type := Utf16 × PendingRequest × Settlement

/-- Entries have been settled, one after the other. -/
structure Settles (before after : OfficialRequestBroker) (hits : List Hit) : Prop where
  promises : after.promises = before.promises
  settled : after.settled = before.settled ++ hits.map fun hit => (hit.2.1.promise, hit.2.2)
  timers : ∀ timer ∈ before.timers, (∀ hit ∈ hits, hit.2.1.timeout ≠ timer) → timer ∈ after.timers
  window : ∀ ids, Window before ids → (ids ++ hits.map Prod.fst).Nodup →
    (∀ id ∈ ids ++ hits.map Prod.fst, id ≠ []) → Window after (ids ++ hits.map Prod.fst)

theorem settles_none (broker : OfficialRequestBroker) : Settles broker broker [] :=
  ⟨rfl, by simp, fun _ running _ => running, fun ids window _ _ => by simpa using window⟩

theorem Settles.finished {before after : OfficialRequestBroker} {hits : List Hit}
    (settles : Settles before after hits) (hit : Hit) :
    Settles before (finish after hit.1 hit.2.1 hit.2.2) (hits ++ [hit]) := by
  refine ⟨?_, ?_, ?_, ?_⟩
  · rw [finish, settle, retire_promises]
    exact settles.promises
  · simp [finish, settle, clearTimeout, settles.settled]
  · intro timer running others
    have still := settles.timers timer running fun other earlier => others other (by simp [earlier])
    have differs := others hit (by simp)
    simpa [finish, settle, clearTimeout, still] using fun same : timer = _ => differs same.symm
  · intro ids window nodup some
    rw [List.map_append, ← List.append_assoc] at nodup some ⊢
    have earlier : Window after (ids ++ hits.map Prod.fst) :=
      settles.window ids window (nodup.sublist (List.sublist_append_left _ _))
        fun id taken => some id (List.mem_append_left _ taken)
    have cleared : Window (clearTimeout after hit.2.1.timeout) (ids ++ hits.map Prod.fst) :=
      ⟨earlier.set, earlier.order⟩
    have last := cleared.retired nodup some
    exact ⟨last.set, last.order⟩

theorem settles_all (hits : List Hit) {before after : OfficialRequestBroker} {earlier : List Hit}
    (settles : Settles before after earlier) :
    Settles before (hits.foldl (fun broker hit => finish broker hit.1 hit.2.1 hit.2.2) after)
      (earlier ++ hits) := by
  induction hits generalizing after earlier with
  | nil => simpa using settles
  | cons hit hits ih =>
    have next := ih (settles.finished hit)
    rw [List.append_assoc] at next
    exact next

/-- The entries that an event settles. -/
def hitsOf (event : Event) (entries : List (Utf16 × PendingRequest)) : List Hit :=
  entries.filterMap fun entry => (settlementBy event entry.1).map fun settlement =>
    (entry.1, entry.2, settlement)

/-- An element with a value of its own is the only one that is kept for the value. -/
theorem filter_unique {A B : Type} [DecidableEq B] {f : A → B} {elements : List A}
    (nodup : (elements.map f).Nodup) {element : A} (has : element ∈ elements) :
    elements.filter (fun other => f other = f element) = [element] := by
  induction elements with
  | nil => simp at has
  | cons first elements ih =>
    rw [List.map_cons, List.nodup_cons] at nodup
    rcases List.mem_cons.1 has with rfl | later
    · have none : elements.filter (fun other => f other = f element) = [] := by
        rw [List.filter_eq_nil_iff]
        intro other taken
        have differs : f other ≠ f element := fun same => nodup.1 (same ▸ List.mem_map_of_mem taken)
        simpa using differs
      simp [none]
    · have differs : f first ≠ f element := fun same => nodup.1 (same ▸ List.mem_map_of_mem later)
      rw [List.filter_cons_of_neg (by simpa using differs), ih nodup.2 later]

variable {settlement : Settlement}

section
variable (only : ∀ other, settlementBy event other = if id = other then some settlement else none)
include only

theorem hitsOf_one
    (pending : OrderedMap Utf16 PendingRequest) :
    hitsOf event pending.entries =
      ((pending.get? id).map fun request => (id, request, settlement)).toList := by
  have pick : hitsOf event pending.entries =
      (pending.entries.filter fun entry => entry.1 = id).map fun entry => (entry.1, entry.2, settlement) := by
    rw [← List.filterMap_eq_map, List.filterMap_filter, hitsOf]
    apply List.filterMap_congr
    intro entry _
    rw [only]
    by_cases same : id = entry.1
    · simp [same]
    · simp [same, Ne.symm same]
  rw [pick]
  cases entry : pending.get? id with
  | none =>
    have none : pending.entries.filter (fun entry => entry.1 = id) = [] := by
      rw [List.filter_eq_nil_iff]
      intro other taken same
      rw [decide_eq_true_eq] at same
      have some := (mem_entries_iff pending id other.2).1 (by rwa [← same])
      rw [entry] at some
      simp at some
    rw [none]
    rfl
  | some request =>
    have taken := (mem_entries_iff pending id request).2 entry
    rw [filter_unique pending.keys_nodup taken]
    rfl

theorem unhit_one
    (pending : OrderedMap Utf16 PendingRequest) :
    (pending.delete id).entries =
      pending.entries.filter fun entry => (settlementBy event entry.1).isNone := by
  apply List.filter_congr
  intro entry _
  rw [only]
  by_cases same : entry.1 = id
  · simp [same]
  · simp [same, Ne.symm same]

/-- One entry is settled by the event that concerns its id. -/
theorem settles_one {broker after : OfficialRequestBroker}
    (found : ∀ request, broker.pending.get? id = some request → after =
      finish { broker with pending := broker.pending.delete id } id request settlement)
    (absent : broker.pending.get? id = none → after = broker) :
    Settles broker after (hitsOf event broker.pending.entries) ∧ after.pending.entries =
      broker.pending.entries.filter fun entry => (settlementBy event entry.1).isNone := by
  rw [hitsOf_one only, ← unhit_one only]
  cases entry : broker.pending.get? id with
  | none =>
    rw [absent entry]
    refine ⟨settles_none broker, Eq.symm (List.filter_eq_self.2 ?_)⟩
    intro other has
    rw [decide_eq_true_eq]
    intro same
    have some := (mem_entries_iff broker.pending id other.2).1 (by rwa [← same])
    rw [entry] at some
    simp at some
  | some request =>
    rw [found request entry]
    have start : Settles broker { broker with pending := broker.pending.delete id } [] :=
      ⟨rfl, by simp, fun _ running _ => running, fun ids window _ _ => by
        rw [List.map_nil, List.append_nil]
        exact ⟨window.set, window.order⟩⟩
    exact ⟨start.finished (id, request, settlement), by simp [finish, settle, clearTimeout]⟩

end

theorem perform_settles (broker : OfficialRequestBroker) (other : requestId event = none) :
    Settles broker (perform broker event) (hitsOf event broker.pending.entries) ∧
      (perform broker event).pending.entries =
        broker.pending.entries.filter fun entry => (settlementBy event entry.1).isNone := by
  have nothing (after : OfficialRequestBroker) (same : after = broker)
      (no : ∀ id, settlementBy event id = none) :
      Settles broker after (hitsOf event broker.pending.entries) ∧ after.pending.entries =
        broker.pending.entries.filter fun entry => (settlementBy event entry.1).isNone := by
    subst same
    have hits : hitsOf event after.pending.entries = [] := by simp [hitsOf, no]
    rw [hits]
    exact ⟨settles_none after, by simp [no]⟩
  cases event with
  | request id => simp [requestId] at other
  | sendFailed id error =>
    refine settles_one (fun _ => rfl) (fun request entry => ?_) fun entry => ?_
    · rw [perform, fail, entry]
    · rw [perform, fail, entry]
  | timedOut id =>
    refine settles_one (fun _ => rfl) (fun request entry => ?_) fun entry => ?_
    · rw [perform, fail, entry]
    · rw [perform, fail, entry]
  | handle value =>
    cases named : messageId value with
    | none => exact nothing _ (by rw [perform, handle, named]) fun id => by simp [settlementBy, named]
    | some id =>
      have only : ∀ other, settlementBy (.handle value) other =
          if id = other then some (.resolve value) else none := by
        intro other
        simp [settlementBy, named]
      refine settles_one only (fun request entry => ?_) fun entry => ?_
      · rw [perform, handle, named]
        dsimp only
        rw [entry]
      · rw [perform, handle, named]
        dsimp only
        rw [entry]
  | failAll error =>
    have hits : hitsOf (.failAll error) broker.pending.entries =
        broker.pending.entries.map fun entry => (entry.1, entry.2, .reject error) := by
      simp [hitsOf, settlementBy]
    have all := settles_all (hitsOf (.failAll error) broker.pending.entries) (settles_none broker)
    rw [List.nil_append, hits, List.foldl_map] at all
    rw [hits]
    refine ⟨⟨all.promises, all.settled, all.timers, fun ids window nodup some => ?_⟩, ?_⟩
    · have last := all.window ids window nodup some
      exact ⟨last.set, last.order⟩
    · simp [perform, failAll, settlementBy, OrderedMap.empty]

end Steps

variable {promise : Nat}

/-- What holds of the broker after a run: each promise is pending, with its timer running, or settled. -/
structure Tracks (run : List Event) (broker : OfficialRequestBroker) : Prop where
  promises : broker.promises = (requestIds run).length
  named : ∀ entry ∈ broker.pending.entries, (requestIds run)[entry.2.promise]? = some entry.1
  timeouts : ∀ entry ∈ broker.pending.entries, entry.2.timeout = entry.2.promise
  running : ∀ entry ∈ broker.pending.entries, entry.2.timeout ∈ broker.timers
  accounted : (broker.pending.entries.map (·.2.promise) ++ broker.settled.map Prod.fst).Perm
    (List.range broker.promises)
  window : Window broker (broker.settled.map fun entry => (requestIds run).getD entry.1 [])

section Facts
variable {run : List Event} {broker : OfficialRequestBroker} (tracks : Tracks run broker)
include tracks

theorem Tracks.promises_nodup :
    (broker.pending.entries.map (·.2.promise) ++ broker.settled.map Prod.fst).Nodup :=
  tracks.accounted.nodup_iff.2 List.nodup_range

theorem Tracks.settled_lt (settled : promise ∈ broker.settled.map Prod.fst) :
    promise < (requestIds run).length := by
  rw [← tracks.promises, ← List.mem_range]
  exact tracks.accounted.subset (List.mem_append_right _ settled)

/-- A promise that is not settled has its entry. -/
theorem Tracks.entry_of_unsettled (named : (requestIds run)[promise]? = some id)
    (unsettled : promise ∉ broker.settled.map Prod.fst) :
    ∃ request, (id, request) ∈ broker.pending.entries ∧ request.promise = promise := by
  obtain ⟨below, _⟩ := List.getElem?_eq_some_iff.1 named
  rw [← tracks.promises, ← List.mem_range, ← tracks.accounted.mem_iff, List.mem_append] at below
  obtain ⟨entry, has, rfl⟩ := List.mem_map.1 (below.resolve_right unsettled)
  have same := (tracks.named entry has).symm.trans named
  rw [Option.some.injEq] at same
  exact ⟨entry.2, by rwa [← same], rfl⟩

theorem Tracks.pending_ids (pending : broker.pending.has id = true) : id ∈ requestIds run := by
  obtain ⟨request, found⟩ := (has_iff _ _).1 pending
  exact List.mem_of_getElem? (tracks.named _ ((mem_entries_iff _ _ _).2 found))

theorem Tracks.retired_iff (id : Utf16) : id ∈ broker.retired ↔
    ∃ promise ∈ lastSettled broker, (requestIds run)[promise]? = some id := by
  have suffix : (lastSettled broker).Sublist (broker.settled.map Prod.fst) := List.drop_sublist _ _
  have ids : broker.retired = (lastSettled broker).map fun promise => (requestIds run).getD promise [] := by
    rw [tracks.window.set, tracks.window.order, lastSettled, List.rtake, List.rtake, List.map_drop,
      List.map_map, List.length_map, List.length_map]
    rfl
  rw [ids, List.mem_map]
  constructor
  · rintro ⟨promise, settled, rfl⟩
    have below := tracks.settled_lt (suffix.subset settled)
    exact ⟨promise, settled, by rw [List.getD_eq_getElem _ _ below, List.getElem?_eq_getElem below]⟩
  · rintro ⟨promise, settled, named⟩
    exact ⟨promise, settled, by rw [List.getD_eq_getElem?_getD, named, Option.getD_some]⟩

theorem Tracks.accepted (fresh : Fresh (run ++ [.request id])) : broker.request id = { broker with
      promises := broker.promises + 1
      timers := broker.timers ++ [broker.promises]
      pending := broker.pending.set id { promise := broker.promises, timeout := broker.promises } } ∧
    (broker.pending.set id { promise := broker.promises, timeout := broker.promises }).entries =
      broker.pending.entries ++ [(id, { promise := broker.promises, timeout := broker.promises })] := by
  have ids : requestIds (run ++ [.request id]) = requestIds run ++ [id] := by
    simp [requestIds, requestId]
  have unused : id ∉ requestIds run := by
    have nodup := fresh.nodup
    rw [ids, List.nodup_append] at nodup
    exact fun used => nodup.2.2 id used id (by simp) rfl
  have internal := fresh.internal id (by rw [ids]; simp)
  have unknown : broker.pending.has id = false :=
    Bool.eq_false_iff.2 fun pending => unused (tracks.pending_ids pending)
  have live : broker.retired.contains id = false := by
    rw [← Bool.not_eq_true, List.contains_iff_mem]
    intro retired
    obtain ⟨promise, _, named⟩ := (tracks.retired_iff id).1 retired
    exact unused (List.mem_of_getElem? named)
  refine ⟨?_, ?_⟩
  · rw [request]
    rw [internal, unknown, live]
    rfl
  · rw [OrderedMap.set, dif_neg]
    intro taken
    have known := (mem_keys_iff broker.pending id).1 taken
    rw [← has_iff, unknown] at known
    simp at known

end Facts

theorem requestIds_snoc {run : List Event} (other : requestId event = none) :
    requestIds (run ++ [event]) = requestIds run := by
  simp [requestIds, other]

theorem Fresh.init {run : List Event} (fresh : Fresh (run ++ [event])) : Fresh run := by
  have part : (requestIds run).Sublist (requestIds (run ++ [event])) := by
    rw [requestIds, requestIds, List.filterMap_append]
    exact List.sublist_append_left _ _
  exact ⟨fresh.nodup.sublist part, fun id used => fresh.internal id (part.subset used)⟩

theorem getD_injective {ids : List Utf16} (nodup : ids.Nodup) {i j : Nat} (first : i < ids.length)
    (second : j < ids.length) (same : ids.getD i [] = ids.getD j []) : i = j := by
  rw [List.getD_eq_getElem _ _ first, List.getD_eq_getElem _ _ second] at same
  exact (nodup.getElem_inj_iff).1 same

/-- The entries that stay and those that are settled are all entries. -/
theorem hits_perm (event : Event) (entries : List (Utf16 × PendingRequest)) :
    ((entries.filter fun entry => (settlementBy event entry.1).isNone).map (·.2.promise) ++
      (hitsOf event entries).map (·.2.1.promise)).Perm (entries.map (·.2.promise)) := by
  induction entries with
  | nil => exact List.Perm.refl _
  | cons entry entries ih =>
    cases hit : settlementBy event entry.1 with
    | none => simpa [hitsOf, hit] using ih.cons entry.2.promise
    | some settlement =>
      have next := ih.cons entry.2.promise
      refine List.Perm.trans ?_ next
      simp [hitsOf, hit, List.perm_middle]

theorem tracks_request {run : List Event} {broker : OfficialRequestBroker} (tracks : Tracks run broker) (fresh : Fresh (run ++ [.request id])) :
    Tracks (run ++ [.request id]) (broker.request id) := by
  obtain ⟨accepted, entries⟩ := tracks.accepted fresh
  have ids : requestIds (run ++ [.request id]) = requestIds run ++ [id] := by
    simp [requestIds, requestId]
  rw [accepted]
  refine ⟨?_, ?_, ?_, ?_, ?_, ?_⟩
  · rw [ids, List.length_append, tracks.promises, List.length_singleton]
  · intro entry has
    rw [entries, List.mem_append, List.mem_singleton] at has
    rcases has with earlier | rfl
    · have named := tracks.named entry earlier
      obtain ⟨below, _⟩ := List.getElem?_eq_some_iff.1 named
      rw [ids, List.getElem?_append_left below, named]
    · rw [ids, tracks.promises, List.getElem?_concat_length]
  · intro entry has
    rw [entries, List.mem_append, List.mem_singleton] at has
    rcases has with earlier | rfl
    · exact tracks.timeouts entry earlier
    · rfl
  · intro entry has
    rw [entries, List.mem_append, List.mem_singleton] at has
    rcases has with earlier | rfl
    · exact List.mem_append_left _ (tracks.running entry earlier)
    · exact List.mem_append_right _ (List.mem_singleton.2 rfl)
  · rw [entries, List.map_append, List.append_assoc, List.range_succ]
    have moved : (List.map (·.2.promise) broker.pending.entries ++ (broker.settled.map Prod.fst ++
        [broker.promises])).Perm (List.range broker.promises ++ [broker.promises]) := by
      rw [← List.append_assoc]
      exact tracks.accounted.append_right _
    exact (List.Perm.append_left _ List.perm_append_comm).trans moved
  · have same : (broker.settled.map fun entry => (requestIds (run ++ [.request id])).getD entry.1 []) =
        broker.settled.map fun entry => (requestIds run).getD entry.1 [] := by
      apply List.map_congr_left
      intro entry settled
      rw [ids, List.getD_append _ _ _ _ (tracks.settled_lt (List.mem_map_of_mem settled))]
    exact ⟨tracks.window.set, by rw [same]; exact tracks.window.order⟩

theorem tracks_other {run : List Event} {broker : OfficialRequestBroker} (tracks : Tracks run broker)
    (fresh : Fresh run) (other : requestId event = none) :
    Tracks (run ++ [event]) (perform broker event) := by
  obtain ⟨settles, entries⟩ := perform_settles broker other
  have kept : ∀ entry ∈ (perform broker event).pending.entries, entry ∈ broker.pending.entries ∧
      settlementBy event entry.1 = none := by
    intro entry has
    rw [entries, List.mem_filter, Option.isNone_iff_eq_none] at has
    exact has
  have hit : ∀ hit ∈ hitsOf event broker.pending.entries, (hit.1, hit.2.1) ∈ broker.pending.entries ∧
      settlementBy event hit.1 = some hit.2.2 := by
    intro hit taken
    simp only [hitsOf, List.mem_filterMap, Option.map_eq_some_iff] at taken
    obtain ⟨entry, has, settlement, by_, rfl⟩ := taken
    exact ⟨has, by_⟩
  have accounted : ((perform broker event).pending.entries.map (·.2.promise) ++
      (perform broker event).settled.map Prod.fst).Perm (List.range broker.promises) := by
    rw [entries, settles.settled, List.map_append, List.map_map]
    refine List.Perm.trans ?_ tracks.accounted
    refine List.Perm.trans ?_ ((hits_perm event broker.pending.entries).append_right _)
    rw [List.append_assoc]
    exact List.Perm.append_left _ List.perm_append_comm
  have ids : ((perform broker event).settled.map fun entry => (requestIds run).getD entry.1 []) =
      (broker.settled.map fun entry => (requestIds run).getD entry.1 []) ++
        (hitsOf event broker.pending.entries).map Prod.fst := by
    rw [settles.settled, List.map_append, List.map_map]
    congr 1
    apply List.map_congr_left
    intro hit' taken
    have named := tracks.named _ (hit hit' taken).1
    simp [List.getD_eq_getElem?_getD, named]
  have below : ∀ entry ∈ (perform broker event).settled, entry.1 < (requestIds run).length := by
    intro entry settled
    rw [← tracks.promises, ← List.mem_range]
    exact accounted.subset (List.mem_append_right _ (List.mem_map_of_mem settled))
  have distinct := (List.nodup_append.1 (accounted.nodup_iff.2 List.nodup_range)).2.1
  refine ⟨?_, ?_, ?_, ?_, ?_, ?_⟩
  · rw [settles.promises, requestIds_snoc other, tracks.promises]
  · intro entry has
    rw [requestIds_snoc other]
    exact tracks.named entry (kept entry has).1
  · exact fun entry has => tracks.timeouts entry (kept entry has).1
  · intro entry has
    refine settles.timers _ (tracks.running entry (kept entry has).1) fun hit' taken same => ?_
    have promise : hit'.2.1.promise = entry.2.promise := by
      rw [← tracks.timeouts _ (hit hit' taken).1, same, tracks.timeouts _ (kept entry has).1]
    have named := tracks.named _ (hit hit' taken).1
    rw [promise, tracks.named entry (kept entry has).1, Option.some.injEq] at named
    have by_ := (hit hit' taken).2
    rw [← named, (kept entry has).2] at by_
    simp at by_
  · rw [settles.promises]
    exact accounted
  · rw [requestIds_snoc other, ids]
    refine settles.window _ tracks.window ?_ ?_
    · rw [← ids]
      have map : ((perform broker event).settled.map Prod.fst).map (fun n => (requestIds run).getD n []) =
          (perform broker event).settled.map fun entry => (requestIds run).getD entry.1 [] := by
        rw [List.map_map]
        rfl
      rw [← map]
      refine distinct.map_on fun i first j second same => ?_
      obtain ⟨entry, settled, rfl⟩ := List.mem_map.1 first
      obtain ⟨entry', settled', rfl⟩ := List.mem_map.1 second
      exact getD_injective fresh.nodup (below entry settled) (below entry' settled') same
    · rw [← ids]
      intro id taken empty
      obtain ⟨entry, settled, rfl⟩ := List.mem_map.1 taken
      have used := List.getD_eq_getElem (requestIds run) [] (below entry settled)
      have internal := fresh.internal _ (List.getElem_mem (below entry settled))
      rw [← used, empty] at internal
      exact absurd internal (by decide)

theorem after_snoc (run : List Event) (event : Event) :
    after (run ++ [event]) = perform (after run) event := by
  rw [after, after, List.foldl_append, List.foldl_cons, List.foldl_nil]

theorem tracks_after (run : List Event) (fresh : Fresh run) : Tracks run (after run) := by
  induction run using List.reverseRecOn with
  | nil =>
    exact ⟨rfl, by simp [after, initial, OrderedMap.empty], by simp [after, initial, OrderedMap.empty],
      by simp [after, initial, OrderedMap.empty], List.Perm.refl _, rfl, rfl⟩
  | append_singleton run event ih =>
    have tracks := ih fresh.init
    rw [after_snoc]
    cases request : requestId event with
    | none => exact tracks_other tracks fresh.init request
    | some id =>
      cases event with
      | request id => exact tracks_request tracks fresh
      | _ => simp [requestId] at request

theorem settlementsOf_eq_nil {broker : OfficialRequestBroker} :
    settlementsOf broker promise = [] ↔ promise ∉ broker.settled.map Prod.fst := by
  rw [settlementsOf, List.map_eq_nil_iff, List.filter_eq_nil_iff]
  constructor
  · intro none settled
    obtain ⟨entry, has, rfl⟩ := List.mem_map.1 settled
    exact none entry has (by simp)
  · intro unsettled entry has same
    rw [decide_eq_true_eq] at same
    exact unsettled (same ▸ List.mem_map_of_mem has)

theorem hitsOf_filter (event : Event) (entries : List (Utf16 × PendingRequest)) (promise : Nat) :
    (hitsOf event entries).filter (fun hit => hit.2.1.promise = promise) =
      hitsOf event (entries.filter fun entry => entry.2.promise = promise) := by
  rw [hitsOf, hitsOf, List.filter_filterMap, List.filterMap_filter]
  apply List.filterMap_congr
  intro entry _
  by_cases same : entry.2.promise = promise
  · cases hit : settlementBy event entry.1 <;> simp [same]
  · cases hit : settlementBy event entry.1 <;> simp [same]

/-- An event adds to a promise's settlements what it does to the request, if the request is pending. -/
theorem settlementsOf_perform {run : List Event} {broker : OfficialRequestBroker}
    (tracks : Tracks run broker) (other : requestId event = none) (named : (requestIds run)[promise]? = some id) :
    settlementsOf (perform broker event) promise = settlementsOf broker promise ++
      if settlementsOf broker promise = [] then (settlementBy event id).toList else [] := by
  have settles := (perform_settles broker other).1
  have added : settlementsOf (perform broker event) promise = settlementsOf broker promise ++
      (hitsOf event (broker.pending.entries.filter fun entry => entry.2.promise = promise)).map
        fun hit => hit.2.2 := by
    rw [settlementsOf, settles.settled, List.filter_append, List.map_append, List.filter_map, List.map_map,
      ← hitsOf_filter]
    rfl
  have parts := List.nodup_append.1 tracks.promises_nodup
  rw [added]
  congr 1
  by_cases unsettled : promise ∈ broker.settled.map Prod.fst
  · rw [if_neg (by rwa [settlementsOf_eq_nil, not_not])]
    have none : (broker.pending.entries.filter fun entry => entry.2.promise = promise) = [] := by
      rw [List.filter_eq_nil_iff]
      intro entry has same
      rw [decide_eq_true_eq] at same
      exact parts.2.2 _ (List.mem_map_of_mem has) _ unsettled same
    rw [none]
    rfl
  · obtain ⟨request, has, rfl⟩ := tracks.entry_of_unsettled named unsettled
    rw [if_pos (settlementsOf_eq_nil.2 unsettled), filter_unique parts.1 has, hitsOf]
    cases hit : settlementBy event id <;> simp [hit]

theorem requestIds_append (before later : List Event) (id : Utf16) :
    (requestIds (before ++ .request id :: later))[(requestIds before).length]? = some id := by
  rw [requestIds, List.filterMap_append, ← requestIds, List.getElem?_append_right (Nat.le_refl _),
    Nat.sub_self]
  rfl

/-- Whatever comes after a request, its promise is settled by the first event that concerns it. -/
theorem settlementsOf_after (before later : List Event) (id : Utf16)
    (fresh : Fresh (before ++ .request id :: later)) :
    settlementsOf (after (before ++ .request id :: later)) (requestIds before).length =
      (firstSettlement later id).toList := by
  induction later using List.reverseRecOn with
  | nil =>
    have tracks := tracks_after before fresh.init
    have accepted := (tracks.accepted fresh).1
    rw [after_snoc, perform, accepted]
    exact settlementsOf_eq_nil.2 fun settled => Nat.lt_irrefl _ (tracks.settled_lt settled)
  | append_singleton later event ih =>
    have split : before ++ .request id :: (later ++ [event]) =
        (before ++ .request id :: later) ++ [event] := by simp
    rw [split] at fresh ⊢
    have earlier := ih fresh.init
    have tracks := tracks_after _ fresh.init
    rw [after_snoc, firstSettlement, List.findSome?_append]
    cases request : requestId event with
    | none =>
      rw [settlementsOf_perform tracks request (requestIds_append before later id), earlier, firstSettlement]
      cases first : later.findSome? (fun event => settlementBy event id) with
      | none => cases hit : settlementBy event id <;> simp [hit]
      | some settlement => simp
    | some other =>
      cases event with
      | request other =>
        rw [perform, (tracks.accepted fresh).1]
        have nothing : List.findSome? (fun event => settlementBy event id) [.request other] = none := rfl
        rw [nothing, Option.or_none]
        exact earlier
      | _ => simp [requestId] at request

theorem running_of_unsettled {run : List Event} {broker : OfficialRequestBroker} (tracks : Tracks run broker)
    (named : (requestIds run)[promise]? = some id) (unsettled : settlementsOf broker promise = []) :
    promise ∈ broker.timers := by
  obtain ⟨request, has, rfl⟩ := tracks.entry_of_unsettled named (settlementsOf_eq_nil.1 unsettled)
  rw [← tracks.timeouts _ has]
  exact tracks.running _ has

/-- Which messages the broker takes as answers of its own. -/
theorem handle_iff {run : List Event} {broker : OfficialRequestBroker}
    (tracks : Tracks run broker) (value : JsonValue) :
    (broker.handle value).1 = true ↔ ∃ id promise, messageId value = some id ∧
      (requestIds run)[promise]? = some id ∧
      (settlementsOf broker promise = [] ∨ promise ∈ lastSettled broker) := by
  rw [handle]
  cases named : messageId value with
  | none => simp
  | some id =>
    dsimp only
    cases entry : broker.pending.get? id with
    | none =>
      rw [List.contains_iff_mem, tracks.retired_iff id]
      constructor
      · rintro ⟨promise, last, number⟩
        exact ⟨id, promise, rfl, number, .inr last⟩
      · rintro ⟨other, promise, is, number, unsettled | last⟩
        · rw [Option.some.injEq] at is
          subst is
          obtain ⟨request, has, -⟩ := tracks.entry_of_unsettled number (settlementsOf_eq_nil.1 unsettled)
          have pending := (mem_entries_iff _ _ _).1 has
          rw [entry] at pending
          simp at pending
        · exact ⟨promise, last, is ▸ number⟩
    | some request =>
      have has := (mem_entries_iff _ _ _).2 entry
      have unsettled : request.promise ∉ broker.settled.map Prod.fst := fun settled =>
        (List.nodup_append.1 tracks.promises_nodup).2.2 _ (List.mem_map_of_mem has) _ settled rfl
      exact ⟨fun _ => ⟨id, request.promise, rfl, tracks.named _ has, .inl (settlementsOf_eq_nil.2 unsettled)⟩,
        fun _ => rfl⟩

/-- Each promise is settled by the first event that concerns its request, and by no other. A message is
taken exactly if its id is that of a promise that is unsettled or among the last that were settled. -/
theorem internal_requests_settled (run : List Event) (fresh : Fresh run) :
    (∀ before id later, run = before ++ .request id :: later →
      settlementsOf (after run) (requestIds before).length = (firstSettlement later id).toList ∧
      (firstSettlement later id = none → (requestIds before).length ∈ (after run).timers)) ∧
    ∀ value, ((after run).handle value).1 = true ↔ ∃ id promise, messageId value = some id ∧
      (requestIds run)[promise]? = some id ∧
      (settlementsOf (after run) promise = [] ∨ promise ∈ lastSettled (after run)) := by
  have tracks := tracks_after run fresh
  refine ⟨fun before id later is => ?_, handle_iff tracks⟩
  subst is
  have settled := settlementsOf_after before later id fresh
  refine ⟨settled, fun none => running_of_unsettled tracks (requestIds_append before later id) ?_⟩
  rw [settled, none]
  rfl

def firstId : Utf16 := Utf16.ofString "codexhost:official:one"

def answerTo (id : Utf16) : JsonValue := .object [(Utf16.ofString "id", .string id)]

/-- One request, its answer and the time-out that comes too late. -/
theorem internal_requests_settled_one :
    settlementsOf (after [.request firstId, .handle (answerTo firstId), .timedOut firstId]) 0 =
      [.resolve (answerTo firstId)] := by
  have fresh : Fresh [.request firstId, .handle (answerTo firstId), .timedOut firstId] :=
    ⟨by decide, by decide⟩
  exact ((internal_requests_settled _ fresh).1 [] firstId _ rfl).1

/-- A fresh id for each number. -/
def numberedId (number : Nat) : Utf16 := INTERNAL_REQUEST_PREFIX ++ List.replicate (number + 1) 97

/-- So many requests, each of them timed out before the next. -/
def flood (count : Nat) : List Event :=
  (List.range count).flatMap fun number => [.request (numberedId number), .timedOut (numberedId number)]

theorem flood_succ (count : Nat) : flood (count + 1) =
    flood count ++ [.request (numberedId count)] ++ [.timedOut (numberedId count)] := by
  simp [flood, List.range_succ]

theorem requestIds_flood (count : Nat) : requestIds (flood count) = (List.range count).map numberedId := by
  induction count with
  | zero => rfl
  | succ count ih =>
    rw [flood_succ, requestIds_snoc rfl, requestIds, List.filterMap_append, ← requestIds, ih,
      List.range_succ, List.map_append]
    rfl

theorem numberedId_injective : Function.Injective numberedId := by
  intro i j same
  have length := congrArg List.length same
  simp only [numberedId, List.length_append, List.length_replicate] at length
  omega

theorem fresh_flood (count : Nat) : Fresh (flood count) := by
  constructor
  · rw [requestIds_flood]
    exact List.nodup_range.map numberedId_injective
  · rw [requestIds_flood]
    intro id used
    obtain ⟨number, _, rfl⟩ := List.mem_map.1 used
    rw [List.isPrefixOf_iff_prefix]
    exact List.prefix_append _ _

/-- The promises of a flood are settled in their order. -/
theorem settled_flood (count : Nat) : (after (flood count)).settled.map Prod.fst = List.range count ∧
    (after (flood count)).pending.entries = [] := by
  induction count with
  | zero => exact ⟨rfl, rfl⟩
  | succ count ih =>
    have fresh := fresh_flood (count + 1)
    rw [flood_succ] at fresh ⊢
    have tracks := tracks_after _ fresh.init.init
    have number : (after (flood count)).promises = count := by
      rw [tracks.promises, requestIds_flood, List.length_map, List.length_range]
    obtain ⟨accepted, entries⟩ := tracks.accepted fresh.init
    rw [ih.2, number, List.nil_append] at entries
    obtain ⟨settles, kept⟩ := perform_settles (after (flood count ++ [.request (numberedId count)]))
      (rfl : requestId (.timedOut (numberedId count)) = none)
    rw [after_snoc, perform, accepted, number] at settles kept
    rw [after_snoc, after_snoc, perform, accepted, number]
    rw [entries] at kept
    refine ⟨?_, by rw [kept]; simp [settlementBy]⟩
    rw [settles.settled, entries, List.map_append, ih.1, List.range_succ]
    simp [hitsOf, settlementBy]

/-- The first of 1025 timed-out requests is forgotten: its late answer is passed on. -/
theorem late_answer_passed_on :
    ¬ ∀ run, Fresh run → ∀ value id, messageId value = some id → id ∈ requestIds run →
      ((after run).handle value).1 = true := by
  intro always
  have fresh := fresh_flood 1025
  have issued : numberedId 0 ∈ requestIds (flood 1025) := by
    rw [requestIds_flood]
    exact List.mem_map_of_mem (by simp)
  have taken := always _ fresh (answerTo (numberedId 0)) (numberedId 0) rfl issued
  obtain ⟨id, promise, is, named, known⟩ := (handle_iff (tracks_after _ fresh) _).1 taken
  have same : numberedId 0 = id := Option.some.inj is
  rw [requestIds_flood, ← same, List.getElem?_map, Option.map_eq_some_iff] at named
  obtain ⟨number, has, equal⟩ := named
  rw [numberedId_injective equal, List.getElem?_eq_some_iff] at has
  obtain ⟨below, zero⟩ := has
  rw [List.getElem_range] at zero
  subst zero
  have settled := (settled_flood 1025).1
  rcases known with unsettled | last
  · rw [settlementsOf_eq_nil, settled] at unsettled
    exact unsettled (by simp)
  · rw [lastSettled, settled, List.rtake, List.length_range, List.range_eq_range', List.drop_range',
      List.mem_range'] at last
    have limit : 1025 - MAX_RETIRED_IDS = 1 := rfl
    omega

end CodexHost.Guarantees.InternalRequests
