import CodexHost.Source.HarnessBroker.Connection

/-!
# The numbers of a broker connection

Both sides number a line before they refuse it as too long. When nothing is sent after a refused line,
and every response fits, no side rejects a number, and the connection lives.
-/
namespace CodexHost.Guarantees.BrokerNumbering
open Foundation Source.HarnessBroker Source.HarnessBroker.Connection List Option Client Server

/-- A line of the client has been refused. -/
def Refused (client : Client) : Prop := ∃ id, (id, Reply.notDelivered) ∈ client.replies

/-- No line is sent after a refused one, and the line of a response fits. -/
def Meets (s : State) : Event → Prop
  | .request bytes => fitsFrame bytes = true → ¬Refused s.client
  | .respond value error => s.server.faulted = [] ∧ fitsFrame (value.getD error) = true
  | .output _ bytes => fitsFrame bytes = true → s.server.faulted = []
  | _ => True

def responseId : ServerFrame → Option Nat
  | .response _ id _ => some id
  | .output _ _ => none

/-- The requests under way: to the server, in its queue, at work, and back as responses. -/
def carried (s : State) : List Nat :=
  s.requests.map (·.id) ++ s.server.queue.map (·.id) ++ s.server.working.toList ++
    s.frames.filterMap responseId

/-- The numbers under way are those that come next. -/
structure Numbered (s : State) : Prop where
  requests : (s.server.queue ++ s.requests).map (·.sequence) =
    List.range' (s.server.inputSequence + 1) (s.server.queue ++ s.requests).length
  sent : ¬Refused s.client →
    s.server.inputSequence + (s.server.queue ++ s.requests).length = s.client.inputSequence
  frames : s.client.failure = none →
    s.frames.map (·.sequence) = List.range' (s.client.outputSequence + 1) s.frames.length
  written : s.client.failure = none → s.server.faulted = [] →
    s.client.outputSequence + s.frames.length = s.server.outputSequence
  client : s.client.failure ≠ some .sequence
  server : s.server.failure ≠ some .sequence ∧ s.server.failure ≠ some .response

/-- Every waiting caller has its request under way, and no side has given the connection up. -/
structure Living (s : State) : Prop where
  client : s.client.failure = none
  server : s.server.failure = none
  under : (carried s).Perm s.client.pending
  few : s.client.pending.length ≤ HARNESS_BROKER_MAX_PENDING_REQUESTS

section Steps
variable {s next : State}

theorem range'_snoc {numbers : List Nat} {start last : Nat}
    (is : numbers = List.range' start numbers.length) (here : start + numbers.length = last) :
    numbers ++ [last] = List.range' start (numbers ++ [last]).length := by
  rw [length_append, length_singleton, range'_concat, ← is, Nat.one_mul, here]

theorem range'_head {first : Nat} {rest : List Nat} {start : Nat}
    (is : first :: rest = List.range' start (first :: rest).length) :
    first = start ∧ rest = List.range' (start + 1) rest.length := by
  exact List.cons.inj is

theorem Refused.mono {client later : Client} (kept : client.replies ⊆ later.replies)
    (refused : Refused client) : Refused later := by
  obtain ⟨id, member⟩ := refused
  exact ⟨id, kept member⟩

/-- A step of the client that leaves what is under way to the server. -/
theorem Numbered.client_step (numbered : Numbered s) {client : Client} {frames : List ServerFrame}
    (input : client.inputSequence = s.client.inputSequence) (kept : s.client.replies ⊆ client.replies)
    (arrived : client.failure = none →
      frames.map (·.sequence) = List.range' (client.outputSequence + 1) frames.length ∧
        (s.server.faulted = [] → client.outputSequence + frames.length = s.server.outputSequence))
    (failure : client.failure ≠ some .sequence) :
    Numbered { s with client := client, frames := frames } := by
  refine ⟨numbered.requests, fun unrefused => ?_, fun alive => (arrived alive).1,
    fun alive => (arrived alive).2, failure, numbered.server⟩
  rw [input]
  exact numbered.sent fun refused => unrefused (refused.mono kept)

/-- A step of the server that sends a line, or refuses it. -/
theorem Numbered.server_step (numbered : Numbered s) {server : Server} {frame : Option ServerFrame}
    (input : server.inputSequence = s.server.inputSequence) (queue : server.queue = s.server.queue)
    (output : server.outputSequence = s.server.outputSequence + 1)
    (sent : ∀ sent, frame = some sent → sent.sequence = s.server.outputSequence + 1 ∧ s.server.faulted = [])
    (refused : frame = none → server.faulted ≠ [])
    (failure : server.failure ≠ some .sequence ∧ server.failure ≠ some .response) :
    Numbered { s with server := server, frames := s.frames ++ frame.toList } := by
  cases frame with
  | none =>
    refine ⟨?_, ?_, ?_, ?_, numbered.client, failure⟩
    · rw [input, queue]
      exact numbered.requests
    · rw [input, queue]
      exact numbered.sent
    · rw [toList_none, append_nil]
      exact numbered.frames
    · exact fun _ none => absurd none (refused rfl)
  | some line =>
    obtain ⟨number, none⟩ := sent line rfl
    refine ⟨?_, ?_, fun alive => ?_, fun alive _ => ?_, numbered.client, failure⟩
    · rw [input, queue]
      exact numbered.requests
    · rw [input, queue]
      exact numbered.sent
    · have here := numbered.written alive none
      have before := numbered.frames alive
      rw [← length_map (f := (·.sequence))] at before here
      have after := @range'_snoc _ _ (s.server.outputSequence + 1) before (by omega)
      simp only [toList_some, map_append, map_cons, map_nil, number]
      rw [after]
      simp only [length_append, length_map, length_singleton]
    · have here := numbered.written alive none
      simp only [toList_some, length_append, length_singleton, output]
      omega

/-- The steps of the client's side. -/
theorem Numbered.frame (numbered : Numbered s) {line : ServerFrame} {rest : List ServerFrame}
    (is : s.frames = line :: rest) :
    Numbered { s with client := s.client.frame line, frames := rest } := by
  by_cases alive : s.client.failure = none
  · have before := numbered.frames alive
    have written := numbered.written alive
    rw [is, map_cons, length_cons, ← length_map (f := (·.sequence)), ← length_cons] at before
    rw [is, length_cons] at written
    obtain ⟨number, after⟩ := range'_head before
    rw [length_map] at after
    have arrived : rest.map (·.sequence) = List.range' (line.sequence + 1) rest.length ∧
        (s.server.faulted = [] → line.sequence + rest.length = s.server.outputSequence) := by
      rw [number]
      exact ⟨after, fun none => by have := written none; omega⟩
    have lives : ¬s.client.failure.isSome = true := by
      rw [alive]
      decide
    unfold Client.frame
    rw [if_neg lives, if_neg (not_not.mpr number)]
    cases line with
    | output _ session =>
      exact numbered.client_step rfl (fun _ member => member) (fun _ => arrived) numbered.client
    | response _ id ok =>
      dsimp only
      split
      · exact numbered.client_step rfl (subset_append_left _ _) (fun _ => arrived) numbered.client
      · rw [Client.fail, if_neg lives]
        exact numbered.client_step rfl (subset_append_left _ _) nofun nofun
  · have failed : s.client.failure.isSome = true := isSome_iff_ne_none.mpr alive
    rw [Client.frame, if_pos failed]
    exact numbered.client_step rfl (fun _ member => member) (fun none => absurd none alive) numbered.client

theorem respond_eq {server : Server} {id : Nat} {value : Option Nat} {error : Nat}
    (fits : fitsFrame (value.getD error) = true) :
    server.respond id value error =
      ({ server with working := none, outputSequence := server.outputSequence + 1 },
        some (.response (server.outputSequence + 1) id value.isSome)) := by
  cases value with
  | none =>
    have fits : fitsFrame error = true := fits
    simp only [respond, send, fits, if_true, isSome_none]
  | some bytes =>
    have fits : fitsFrame bytes = true := fits
    simp only [respond, send, fits, if_true, isSome_some]

/-- A step that meets the condition keeps the numbers. -/
theorem Numbered.step (numbered : Numbered s) {event : Event} (meets : Meets s event)
    (step : step s event = some next) : Numbered next := by
  cases event with
  | request bytes =>
    simp only [Connection.step, request] at step
    split at step
    · cases step
    · split at step
      · cases step
      · by_cases fits : fitsFrame bytes = true
        · rw [if_pos fits] at step
          cases step
          have sent := numbered.sent (meets fits)
          have before := numbered.requests
          refine ⟨?_, fun _ => ?_, numbered.frames, numbered.written, numbered.client, numbered.server⟩
          · rw [← length_map (f := (·.sequence))] at before sent
            have after := @range'_snoc _ _ (s.client.inputSequence + 1) before (by omega)
            simp only [toList_some, ← append_assoc, map_append, map_cons, map_nil] at after ⊢
            rw [after]
            simp only [length_append, length_map, length_singleton]
          · simp only [toList_some, ← append_assoc, length_append, length_singleton] at sent ⊢
            omega
        · rw [if_neg fits] at step
          cases step
          refine ⟨?_, fun unrefused => ?_, numbered.frames, numbered.written, numbered.client,
            numbered.server⟩
          · rw [toList_none, append_nil]
            exact numbered.requests
          · exact absurd ⟨s.nextId, mem_append_right _ mem_cons_self⟩ unrefused
  | arrive =>
    simp only [Connection.step] at step
    split at step
    · cases step
    · next frame requests is =>
      split at step
      · cases step
      · cases step
        have same : s.server.queue ++ [frame] ++ requests = s.server.queue ++ s.requests := by
          rw [is, append_assoc, singleton_append]
        refine ⟨?_, ?_, numbered.frames, numbered.written, numbered.client, ?_⟩
        · rw [same]
          exact numbered.requests
        · rw [same]
          exact numbered.sent
        · split <;> exact ⟨nofun, nofun⟩
  | handle =>
    simp only [Connection.step] at step
    split at step
    · cases step
    · split at step
      · cases step
      · next frame queue is =>
        have before := numbered.requests
        have sent := numbered.sent
        rw [is, cons_append, map_cons, length_cons, ← length_map (f := (·.sequence)), ← length_cons] at before
        rw [is, cons_append, length_cons] at sent
        obtain ⟨number, after⟩ := range'_head before
        rw [length_map] at after
        rw [if_neg (not_not.mpr number)] at step
        cases step
        refine ⟨?_, fun unrefused => ?_, numbered.frames, numbered.written, numbered.client, numbered.server⟩
        · rw [number]
          exact after
        · have := sent unrefused
          dsimp only
          omega
  | respond value error =>
    simp only [Connection.step] at step
    split at step
    · cases step
    · next id _ =>
      split at step
      · cases step
      · cases step
        obtain ⟨none, fits⟩ := meets
        rw [respond_eq fits]
        refine numbered.server_step rfl rfl rfl ?_ nofun numbered.server
        rintro _ ⟨⟩
        exact ⟨rfl, none⟩
  | output session bytes =>
    simp only [Connection.step, send] at step
    split at step
    · cases step
    · cases step
      by_cases fits : fitsFrame bytes = true
      · rw [if_pos fits]
        refine numbered.server_step rfl rfl rfl ?_ nofun numbered.server
        rintro _ ⟨⟩
        exact ⟨rfl, meets fits⟩
      · rw [if_neg fits]
        exact numbered.server_step rfl rfl rfl nofun (fun _ => cons_ne_nil _ _) numbered.server
  | receive =>
    simp only [Connection.step] at step
    split at step
    · cases step
    · next is =>
      cases step
      exact numbered.frame is
  | timeout id =>
    simp only [Connection.step] at step
    split at step
    · cases step
      exact numbered.client_step rfl (subset_append_left _ _)
        (fun alive => ⟨numbered.frames alive, numbered.written alive⟩) numbered.client
    · cases step
  | clientClosed =>
    simp only [Connection.step] at step
    split at step
    · cases step
      unfold fail
      split
      · exact numbered
      · exact numbered.client_step rfl (subset_append_left _ _) nofun nofun
    · cases step
  | serverClosed =>
    simp only [Connection.step] at step
    split at step
    · cases step
      exact ⟨numbered.requests, numbered.sent, numbered.frames, numbered.written, numbered.client,
        nofun, nofun⟩
    · cases step

/-- A step that meets the condition, and is no timeout, keeps the connection alive. -/
theorem Living.step (living : Living s) (numbered : Numbered s) {event : Event} (meets : Meets s event)
    (patient : ∀ id, event ≠ .timeout id) (step : step s event = some next) : Living next := by
  obtain ⟨client, server, under, few⟩ := living
  have counts := perm_iff_count.mp under
  have length := under.length_eq
  simp only [carried, count_append, length_append, length_map] at counts length
  cases event with
  | request bytes =>
    simp only [Connection.step, request] at step
    split at step
    · cases step
    · split at step
      · cases step
      · next more =>
        by_cases fits : fitsFrame bytes = true
        · rw [if_pos fits] at step
          cases step
          refine ⟨client, server, perm_iff_count.mpr fun id => ?_, ?_⟩
          · have count := counts id
            simp only [carried, toList_some, map_append, map_cons, map_nil, count_append]
            omega
          · rw [length_append, length_singleton]
            omega
        · rw [if_neg fits] at step
          cases step
          refine ⟨client, server, ?_, few⟩
          rw [carried, toList_none, append_nil]
          exact under
  | arrive =>
    simp only [Connection.step] at step
    split at step
    · cases step
    · next frame requests is =>
      split at step
      · cases step
      · cases step
        rw [is, length_cons] at length
        have room : ¬HARNESS_BROKER_MAX_PENDING_REQUESTS <
            (s.server.queue ++ [frame]).length + s.server.working.toList.length := by
          rw [length_append, length_singleton]
          omega
        refine ⟨client, if_neg room, perm_iff_count.mpr fun id => ?_, few⟩
        have count := counts id
        rw [is, map_cons, count_cons] at count
        simp only [carried, map_append, map_cons, map_nil, count_append, count_cons, count_nil]
        omega
  | handle =>
    simp only [Connection.step] at step
    split at step
    · cases step
    · next free =>
      split at step
      · cases step
      · next frame queue is =>
        have before := numbered.requests
        rw [is, cons_append, map_cons, length_cons, ← length_map (f := (·.sequence)), ← length_cons] at before
        rw [if_neg (not_not.mpr (range'_head before).1)] at step
        cases step
        have idle : s.server.working = none := by
          simp only [Bool.or_eq_true, not_or, Bool.not_eq_true, isSome_eq_false_iff,
            isNone_iff_eq_none] at free
          exact free.2
        refine ⟨client, server, perm_iff_count.mpr fun id => ?_, few⟩
        have count := counts id
        rw [is, idle, map_cons, count_cons, toList_none, count_nil] at count
        simp only [carried, count_append, toList_some, count_cons, count_nil]
        omega
  | respond value error =>
    simp only [Connection.step] at step
    split at step
    · cases step
    · next id working =>
      split at step
      · cases step
      · cases step
        rw [respond_eq meets.2]
        refine ⟨client, server, perm_iff_count.mpr fun other => ?_, few⟩
        have count := counts other
        rw [working, toList_some] at count
        simp only [carried, count_append, toList_none, count_nil, toList_some,
          filterMap_append, filterMap_cons, responseId, filterMap_nil]
        omega
  | output session bytes =>
    simp only [Connection.step, send] at step
    split at step
    · cases step
    · cases step
      by_cases fits : fitsFrame bytes = true
      · rw [if_pos fits]
        refine ⟨client, server, ?_, few⟩
        simp only [carried, toList_some, filterMap_append, filterMap_cons, responseId,
          filterMap_nil, append_nil, isSome_some, if_true]
        exact under
      · rw [if_neg fits]
        refine ⟨client, server, ?_, few⟩
        rw [carried, toList_none, append_nil]
        exact under
  | receive =>
    simp only [Connection.step] at step
    split at step
    · cases step
    · next line rest is =>
      cases step
      have before := numbered.frames client
      rw [is, map_cons, length_cons, ← length_map (f := (·.sequence)), ← length_cons] at before
      have lives : ¬s.client.failure.isSome = true := by
        rw [client]
        decide
      unfold frame
      rw [if_neg lives, if_neg (not_not.mpr (range'_head before).1)]
      cases line with
      | output _ session =>
        refine ⟨client, server, perm_iff_count.mpr fun id => ?_, few⟩
        have count := counts id
        rw [is, filterMap_cons_none rfl] at count
        simp only [carried, count_append]
        omega
      | response _ id ok =>
        have waiting : id ∈ s.client.pending := by
          refine under.mem_iff.mp (mem_append_right _ ?_)
          rw [is]
          exact mem_cons_self
        dsimp only
        rw [if_pos waiting]
        refine ⟨client, server, perm_iff_count.mpr fun other => ?_, ?_⟩
        · have count := counts other
          rw [is] at count
          simp only [filterMap_cons, responseId, count_cons] at count
          simp only [carried, count_append, count_erase]
          omega
        · exact Nat.le_trans length_erase_le few
  | timeout id => exact absurd rfl (patient id)
  | clientClosed =>
    simp only [Connection.step, server, isSome_none, Bool.false_eq_true, if_false] at step
    cases step
  | serverClosed =>
    simp only [Connection.step, client, isSome_none, Bool.false_and, Bool.false_eq_true, if_false] at step
    cases step

end Steps

/-- A step that meets the condition. -/
def MeetingStep (s : State) (event : Event) (next : State) : Prop :=
  Meets s event ∧ step s event = some next

theorem numbered_initial : Numbered initial :=
  ⟨rfl, fun _ => rfl, fun _ => rfl, fun _ _ => rfl, nofun, nofun, nofun⟩

theorem living_initial : Living initial := ⟨rfl, rfl, .nil, Nat.zero_le _⟩

theorem living_run {events : List Event} {s : State} (run : Run MeetingStep initial events s)
    (patient : ∀ id, Event.timeout id ∉ events) : Living s ∧ Numbered s := by
  induction run with
  | nil => exact ⟨living_initial, numbered_initial⟩
  | @snoc events s s' event before last ih =>
    obtain ⟨living, numbered⟩ := ih fun id member => patient id (mem_append_left _ member)
    refine ⟨living.step numbered last.1 ?_ last.2, numbered.step last.1 last.2⟩
    rintro id rfl
    exact patient id (mem_append_right _ mem_cons_self)

/-- A request that is answered, and one that is refused as too long. -/
def answeredThenRefused : State where
  client := ⟨3, 2, [], none, [(0, .answered true), (1, .notDelivered)], []⟩
  server := ⟨2, 2, [], none, none, []⟩
  requests := []
  frames := []
  nextId := 2

theorem answeredThenRefused_run : Run MeetingStep initial
    [.request 100, .arrive, .handle, .respond (some 50) 0, .receive, .request 8388609] answeredThenRefused := by
  have one := Run.nil.snoc (show MeetingStep initial (.request 100) _ from ⟨fun _ => nofun, rfl⟩)
  have two := one.snoc (show MeetingStep _ .arrive _ from ⟨trivial, rfl⟩)
  have three := two.snoc (show MeetingStep _ .handle _ from ⟨trivial, rfl⟩)
  have four := three.snoc (show MeetingStep _ (.respond (some 50) 0) _ from ⟨⟨rfl, rfl⟩, rfl⟩)
  have five := four.snoc (show MeetingStep _ .receive _ from ⟨trivial, rfl⟩)
  exact five.snoc ⟨nofun, rfl⟩

end CodexHost.Guarantees.BrokerNumbering
