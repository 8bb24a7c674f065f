import CodexHost.Foundation.Selection
import CodexHost.Source.DeepseekHarness.Journal

/-!
# What an opened journal has

The history that `openModernJournal` returns is numbered from zero up to the cursor, and the live
items go on right after it. The final check decides the history; for the live items the invariant
ties what the consumer got and what still waits to what the pump took from the stream. The stream
has been released wherever something failed.
-/
namespace CodexHost.Guarantees.JournalOpening
open Foundation Source.DeepseekHarness.Journal List Option JournalState LiveBuffer

section Numbers

/-- So many numbers, one after the other. -/
def following (first : Int) (count : Nat) : List Int :=
  (List.range count).map fun index : Nat => first + index

/-- The events have the numbers from the first on, without a gap and each once. -/
def Numbered (first : Int) (events : List ModernJournalEvent) : Prop :=
  events.map (·.seq) = following first events.length

theorem following_succ (first : Int) (count : Nat) :
    following first (count + 1) = first :: following (first + 1) count := by
  unfold following
  rw [List.range_succ_eq_map, List.map_cons, List.map_map]
  refine congrArg₂ List.cons (by simp) (List.map_congr_left fun index _ => ?_)
  simp only [Function.comp_apply, Nat.succ_eq_add_one]
  omega

variable {first : Int}

theorem numbered_cons {event : ModernJournalEvent} {rest : List ModernJournalEvent} :
    Numbered first (event :: rest) ↔ event.seq = first ∧ Numbered (first + 1) rest := by
  rw [Numbered, map_cons, length_cons, following_succ, List.cons.injEq, Numbered]

theorem numbered_append {front rest : List ModernJournalEvent} :
    Numbered first (front ++ rest) ↔ Numbered first front ∧ Numbered (first + front.length) rest := by
  induction front generalizing first with
  | nil => simp [Numbered, following]
  | cons event front ih =>
    rw [cons_append, numbered_cons, numbered_cons, ih, length_cons, and_assoc]
    have same : first + 1 + (front.length : Int) = first + ((front.length + 1 : Nat) : Int) := by
      omega
    rw [same]

theorem numbered_of_contiguous {event : ModernJournalEvent} {rest : List ModernJournalEvent}
    (joined : contiguous (event :: rest) = true) : Numbered event.seq (event :: rest) := by
  induction rest generalizing event with
  | nil => exact numbered_cons.mpr ⟨rfl, rfl⟩
  | cons second rest ih =>
    simp only [contiguous, Bool.and_eq_true, decide_eq_true_eq] at joined
    have rest := ih joined.2
    rw [joined.1] at rest
    exact numbered_cons.mpr ⟨rfl, rest⟩

/-- Numbered events that are those of a log are a segment of it. -/
theorem Numbered.of_log {events : List ModernJournalEvent}
    (numbered : Numbered first events) {log : Int → ModernJournalEvent}
    (told : ∀ event ∈ events, event = log event.seq) :
    events = (following first events.length).map log := by
  rw [← numbered, List.map_map]
  exact ((List.map_congr_left told).symm.trans (List.map_id _)).symm

/-- The events among live items. -/
def liveEvents (items : List ModernJournalLiveItem) : List ModernJournalEvent :=
  items.filterMap fun
    | .event event => some event
    | .assistantStream _ => none

end Numbers

variable {H : Type} {profile : DeepSeekModernProfile H} {limits : ResolvedOptions}
  {request : ModernJournalOpenRequest} {s s' : JournalState H}

variable {value : Wire} {opening : OpeningSnapshot H} {paging : Paging}

section Parsers
variable {P : ModernJournalEvent → Prop}

/-- Every event that the profile reads from the records of a snapshot or a page has the property. -/
def RecordsHold (profile : DeepSeekModernProfile H) (P : ModernJournalEvent → Prop) (value : Wire) : Prop :=
  ∀ records, member value "records" = some (.array records) → ∀ record ∈ records,
    ∀ remaining events, profile.parseHistoryRecord record remaining = .ok events → ∀ event ∈ events, P event

variable {label : String}

theorem readRecord_holds {logicalLimit : Int} {record : Wire} {soFar result : List ModernJournalEvent × Nat}
    (read : readRecord profile limits label logicalLimit soFar record = .ok result)
    (holds : ∀ event ∈ soFar.1, P event)
    (told : ∀ remaining events, profile.parseHistoryRecord record remaining = .ok events →
      ∀ event ∈ events, P event) : ∀ event ∈ result.1, P event := by
  simp only [readRecord, bind_ok] at read
  obtain ⟨_, -, expanded, parsed, read⟩ := read
  split at read
  · exact (throw_ok.mp read).elim
  · rw [← pure_ok.mp read]
    exact forall_mem_append.mpr ⟨holds, told _ _ parsed⟩

theorem checkWindow_same {window result : ParsedWindow} {expectedLastSeq : Int}
    (checked : checkWindow window expectedLastSeq label = .ok result) : result = window := by
  unfold checkWindow at checked
  split at checked
  · split at checked
    · cases checked
    · cases checked
      rfl
  · split at checked
    · cases checked
    · simp only [bind_ok] at checked
      obtain ⟨_, -, checked⟩ := checked
      split at checked
      · exact (throw_ok.mp checked).elim
      · split at checked
        · exact (throw_ok.mp checked).elim
        · exact (pure_ok.mp checked).symm

section
variable (told : RecordsHold profile P value)
include told

theorem parseWindow_holds {hasMore : Bool} {expectedLastSeq : Int}
    {window : ParsedWindow}
    (parsed : parseWindow profile limits (member value "records") hasMore expectedLastSeq label =
      .ok window) : ∀ event ∈ window.events, P event := by
  unfold parseWindow at parsed
  split at parsed
  · next records found =>
    split at parsed
    · cases parsed
    · simp only [bind_ok] at parsed
      obtain ⟨read, looped, checked⟩ := parsed
      rw [checkWindow_same checked]
      have all : (fun soFar : List ModernJournalEvent × Nat => ∀ event ∈ soFar.1, P event) read :=
        foldlM_kept looped (by simp) fun soFar record result member holds read =>
          readRecord_holds (P := P) read holds (told records found record member)
      exact all
  · cases parsed

theorem parsePage_holds {throughSeq expectedLastSeq : Int} {window : ParsedWindow}
    (parsed : parsePage profile limits value throughSeq expectedLastSeq = .ok window) :
    ∀ event ∈ window.events, P event := by
  unfold parsePage at parsed
  split at parsed
  · split at parsed
    · exact parseWindow_holds told parsed
    · cases parsed
  · cases parsed

theorem parseOpeningSnapshot_holds
    (parsed : parseOpeningSnapshot profile limits value request = .ok opening) :
    ∀ event ∈ opening.events, P event := by
  unfold parseOpeningSnapshot at parsed
  split at parsed
  · cases parsed
  · split at parsed
    · cases parsed
    · simp only [bind_ok] at parsed
      obtain ⟨_, -, _, -, _, -, window, windowParsed, _, -, _, -, parsed⟩ := parsed
      split at parsed
      · exact (throw_ok.mp parsed).elim
      · rw [← pure_ok.mp parsed]
        exact parseWindow_holds told windowParsed

end

theorem readPage_spec
    {read : Paging × Nat} (parsed : s.readPage profile limits opening paging value = .ok read) :
    ∃ page first rest, parsePage profile limits value opening.cursor (paging.oldestSeq - 1) = .ok page ∧
      page.events = first :: rest ∧ first.seq < paging.oldestSeq ∧
      read.1.segments = paging.segments ++ [page.events] ∧
      read.1.pageRequests = paging.pageRequests := by
  simp only [readPage, bind_ok] at parsed
  obtain ⟨page, pageParsed, parsed⟩ := parsed
  split at parsed
  · exact (throw_ok.mp parsed).elim
  · next first rest is =>
    split at parsed
    · exact (throw_ok.mp parsed).elim
    · next progress =>
      split at parsed
      · exact (throw_ok.mp parsed).elim
      · obtain ⟨retained, -, parsed⟩ := bind_ok.mp parsed
        rw [← pure_ok.mp parsed]
        exact ⟨page, first, rest, pageParsed, is, by omega, rfl, rfl⟩

/-- The check on the whole history. -/
theorem joinHistory_spec {segments : List (List ModernJournalEvent)}
    {journal : ModernJournal H} (joined : joinHistory profile opening segments = .ok journal) :
    journal.cursor = opening.cursor ∧ journal.events = segments.reverse.flatten ∧
      (journal.events.length : Int) = journal.cursor + 1 ∧ Numbered 0 journal.events := by
  simp only [joinHistory] at joined
  split at joined
  · exact (throw_ok.mp joined).elim
  · next complete =>
    rw [not_or, not_not, not_and, not_not] at complete
    obtain ⟨_, checked, joined⟩ := bind_ok.mp joined
    obtain ⟨count, -, joined⟩ := bind_ok.mp joined
    rw [← pure_ok.mp joined]
    refine ⟨rfl, rfl, complete.1, ?_⟩
    unfold assertContiguous at checked
    split at checked
    · next contiguous =>
      cases is : segments.reverse.flatten with
      | nil => exact rfl
      | cons event rest =>
        rw [is] at complete contiguous
        have zero : event.seq = 0 := by
          simpa using complete.2 (by have := complete.1; simp at this; omega)
        exact zero ▸ numbered_of_contiguous contiguous
    · cases checked

end Parsers

variable {event : Event}

variable (profile limits s) in
/-- How the history loop goes on: with a request, with a failure, or with the journal. -/
theorem advance_cases (opening : OpeningSnapshot H) (paging : Paging) :
    (paging.pageRequests < limits.maxPageRequests ∧ s.advance profile limits opening paging = { s with
      control := .page opening { paging with pageRequests := paging.pageRequests + 1 }
      pageCalls := s.pageCalls + 1 }) ∨
    (∃ error, s.advance profile limits opening paging = s.historyFailed error) ∨
    (∃ journal, joinHistory profile opening paging.segments = .ok journal ∧
      s.advance profile limits opening paging = { s with control := .returned journal }) := by
  unfold advance
  split
  · split
    · exact .inr (.inl ⟨_, rfl⟩)
    · next fewer => exact .inl ⟨by omega, rfl⟩
  · split
    · exact .inr (.inl ⟨_, rfl⟩)
    · split
      · exact .inr (.inl ⟨_, rfl⟩)
      · next journal joined => exact .inr (.inr ⟨journal, joined, rfl⟩)

/-- The state in which the pump starts. -/
def opened (s : JournalState H) (opening : OpeningSnapshot H) (buffer : LiveBuffer) :
    JournalState H := { s with
  retainedHistoryBytes := opening.retainedBytes
  liveBuffer := buffer
  expectedLiveSeq := opening.cursor + 1
  assistantRevision := opening.assistantStream.revision
  pump := .reading }

variable (profile limits request) in
/-- What a step can do. -/
inductive Moves (s : JournalState H) : Event → JournalState H → Prop where
  | openingFailed {answer : Streamed} (bytes : Nat) (error : ModernJournalError)
      (first : s.control = .first) :
      Moves s (.first answer) ({ s with retainedHistoryBytes := bytes }.openingFailed error)
  | opens {value : Wire} {opening : OpeningSnapshot H} {buffer : LiveBuffer}
      (first : s.control = .first)
      (parsed : parseOpeningSnapshot profile limits value request = .ok opening)
      (pushed : openingBuffer profile limits opening.assistantStream = .ok buffer)
      (paging : Paging) (segments : paging.segments = [opening.events])
      (requests : paging.pageRequests = 0) :
      Moves s (.first (.item value)) ((opened s opening buffer).advance profile limits opening paging)
  | historyFailed {answer : PageAnswer} {opening : OpeningSnapshot H} {paging : Paging}
      (here : s.control = .page opening paging) (error : ModernJournalError) :
      Moves s (.page answer) (s.historyFailed error)
  | pages {value : Wire} {opening : OpeningSnapshot H} {paging : Paging} {read : Paging × Nat}
      (here : s.control = .page opening paging)
      (parsed : s.readPage profile limits opening paging value = .ok read) :
      Moves s (.page (.ok value))
        ({ s with retainedHistoryBytes := read.2 }.advance profile limits opening read.1)
  | accepts {value : Wire} {next : JournalState H} (reading : s.pump = .reading)
      (accepted : s.accept profile limits value = .ok next) : Moves s (.live (.item value)) next
  | acceptsLast {value : Wire} {next : JournalState H} (reading : s.pump = .reading)
      (accepted : s.accept profile limits value = .ok next) :
      Moves s (.live (.item value)) next.pumpEnded
  | pumpEnds {answer : Streamed} (reading : s.pump = .reading) : Moves s (.live answer) s.pumpEnded
  | pumpFails {answer : Streamed} (reading : s.pump = .reading) (error : ModernJournalError) :
      Moves s (.live answer) (s.pumpFailed error)
  | followReturned (pending : s.returnFollow = .pending) :
      Moves s .followReturned { s with returnFollow := .settled }
  | pumpReleased (releasing : s.pump = .releasing) : Moves s .pumpReleased { s with pump := .ended }
  | thrown {failure : ModernJournalError} (releasing : s.control = .releasing failure)
      (settled : s.returnFollow = .settled) : Moves s .thrown { s with control := .failed failure }
  | iterate {journal : ModernJournal H} (returned : s.control = .returned journal) :
      Moves s .iterate { s with liveClaimed := true }
  | takes {item : ModernJournalLiveItem} {buffer : LiveBuffer} (claimed : s.liveClaimed = true)
      (taken : s.liveBuffer.next = some (.item item, buffer)) :
      Moves s .next { s with liveBuffer := buffer, delivered := s.delivered ++ [item] }
  | takesNone : Moves s .next s
  | closes {journal : ModernJournal H} (returned : s.control = .returned journal) :
      Moves s .close s.close

theorem next_stopped {buffer after : LiveBuffer} {taken : Taken}
    (is : buffer.next = some (taken, after)) (stopped : ∀ item, taken ≠ .item item) :
    after = buffer := by
  unfold LiveBuffer.next at is
  split at is
  · cases is
    rfl
  · cases is
    exact (stopped _ rfl).elim
  · split at is
    · cases is
      rfl
    · cases is

theorem moves_first {answer : Streamed} (first : s.control = .first) :
    Moves profile limits request s (.first answer) (s.onFirst profile limits request answer) := by
  unfold onFirst
  split
  · exact .openingFailed s.retainedHistoryBytes _ first
  · exact .openingFailed s.retainedHistoryBytes _ first
  · split
    · exact .openingFailed s.retainedHistoryBytes _ first
    · split
      · exact .openingFailed _ _ first
      · next parsed _ _ pushed => exact .opens first parsed pushed _ rfl rfl

theorem moves_page {answer : PageAnswer} (here : s.control = .page opening paging) :
    Moves profile limits request s (.page answer) (s.onPage profile limits opening paging answer) := by
  unfold onPage
  split
  · exact .historyFailed here _
  · exact .historyFailed here _
  · split
    · exact .historyFailed here _
    · split
      · exact .historyFailed here _
      · next parsed => exact .pages here parsed

theorem moves_live {answer : Streamed} (reading : s.pump = .reading) :
    Moves profile limits request s (.live answer) (s.onLive profile limits answer) := by
  unfold onLive
  split
  · split
    · exact .pumpEnds reading
    · exact .pumpFails reading _
  · exact .pumpFails reading _
  · split
    · exact .pumpFails reading _
    · next accepted =>
      split
      · exact .acceptsLast reading accepted
      · exact .accepts reading accepted

theorem moves_of_step (moved : step profile limits request s event = some s') :
    Moves profile limits request s event s' := by
  cases event with
  | first answer =>
    simp only [step] at moved
    split at moved
    · next first =>
      cases moved
      exact moves_first first
    · cases moved
  | page answer =>
    simp only [step] at moved
    split at moved
    · next opening paging here =>
      cases moved
      exact moves_page here
    · cases moved
  | live answer =>
    simp only [step, ite_none_right_eq_some] at moved
    obtain ⟨reading, ⟨⟩⟩ := moved
    exact moves_live reading
  | followReturned =>
    simp only [step, ite_none_right_eq_some] at moved
    obtain ⟨pending, ⟨⟩⟩ := moved
    exact .followReturned pending
  | pumpReleased =>
    simp only [step, ite_none_right_eq_some] at moved
    obtain ⟨⟨releasing, -⟩, ⟨⟩⟩ := moved
    exact .pumpReleased releasing
  | thrown =>
    simp only [step] at moved
    split at moved
    · next failure releasing =>
      rw [ite_none_right_eq_some] at moved
      obtain ⟨⟨settled, -⟩, ⟨⟩⟩ := moved
      exact .thrown releasing settled
    · cases moved
  | iterate =>
    simp only [step] at moved
    split at moved
    · next journal returned =>
      split at moved
      · next claimed =>
        cases moved
        have same : { s with liveClaimed := true } = s := by rw [← claimed]
        exact same ▸ Moves.iterate returned
      · cases moved
        exact .iterate returned
    · cases moved
  | next =>
    simp only [step, ite_none_right_eq_some, map_eq_some_iff] at moved
    obtain ⟨claimed, ⟨taken, buffer⟩, is, rfl⟩ := moved
    cases taken with
    | item item => exact .takes claimed is
    | ended =>
      cases next_stopped is (fun item other => nomatch other)
      simpa using Moves.takesNone
    | failed error =>
      cases next_stopped is (fun item other => nomatch other)
      simpa using Moves.takesNone
  | close =>
    simp only [step] at moved
    split at moved
    · next journal returned =>
      cases moved
      exact .closes returned
    · cases moved

theorem close_fields : s.close.control = s.control ∧ s.close.accepted = s.accepted ∧
    s.close.delivered = s.delivered ∧ s.close.pageCalls = s.pageCalls ∧
    s.close.expectedLiveSeq = s.expectedLiveSeq := by
  unfold close
  split
  · exact ⟨rfl, rfl, rfl, rfl, rfl⟩
  · exact ⟨rfl, rfl, rfl, rfl, rfl⟩

section
variable (error : ModernJournalError)
include error

theorem historyFailed_control :
    (s.historyFailed error).control = .releasing (s.pumpFailure.getD error) :=
  close_fields.1

theorem historyFailed_pageCalls :
    (s.historyFailed error).pageCalls = s.pageCalls :=
  close_fields.2.2.2.1

theorem historyFailed_accepted : (s.historyFailed error).accepted = s.accepted :=
  close_fields.2.1

theorem pumpFailed_fields :
    (s.pumpFailed error).control = s.control ∧ (s.pumpFailed error).accepted = s.accepted ∧
    (s.pumpFailed error).delivered = s.delivered ∧ (s.pumpFailed error).pageCalls = s.pageCalls ∧
    (s.pumpFailed error).expectedLiveSeq = s.expectedLiveSeq := by
  unfold pumpFailed
  split
  · exact ⟨rfl, rfl, rfl, rfl, rfl⟩
  · exact ⟨rfl, rfl, rfl, rfl, rfl⟩

end

/-- What an accepted item does: a frame goes to the buffer, an event has the expected number. -/
theorem accept_cases {next : JournalState H} (accepted : s.accept profile limits value = .ok next) :
    (∃ frame bytes buffer, s.liveBuffer.push (.assistantStream frame) bytes = .ok buffer ∧
      next = { s with assistantRevision := frame.revision, liveBuffer := buffer }) ∨
    (∃ event bytes retained buffer, profile.parseLiveItem value = .ok (.event event) ∧
      event.seq = s.expectedLiveSeq ∧ s.liveBuffer.push (.event event) bytes = .ok buffer ∧
      next = { s with
        expectedLiveSeq := s.expectedLiveSeq + 1
        retainedHistoryBytes := retained
        liveBuffer := buffer
        accepted := s.accepted ++ [event] }) := by
  simp only [accept, parseLiveItem, bind_ok, pure_ok] at accepted
  obtain ⟨_, ⟨bytes, -, item, parsed, rfl⟩, accepted⟩ := accepted
  simp only at accepted
  split at accepted
  · split at accepted
    · exact (throw_ok.mp accepted).elim
    · obtain ⟨buffer, pushed, accepted⟩ := bind_ok.mp accepted
      exact .inl ⟨_, bytes, buffer, pushed, (pure_ok.mp accepted).symm⟩
  · split at accepted
    · exact (throw_ok.mp accepted).elim
    · next event expected =>
      obtain ⟨retained, -, accepted⟩ := bind_ok.mp accepted
      obtain ⟨buffer, pushed, accepted⟩ := bind_ok.mp accepted
      exact .inr ⟨event, bytes, retained, buffer, parsed, not_not.mp expected, pushed,
        (pure_ok.mp accepted).symm⟩

/-- Every request counts. -/
structure Bounded (limits : ResolvedOptions) (s : JournalState H) : Prop where
  bound : s.pageCalls ≤ limits.maxPageRequests
  counts : ∀ opening paging, s.control = .page opening paging → paging.pageRequests = s.pageCalls
  unasked : s.control = .first → s.pageCalls = 0

theorem bounded_same (bounded : Bounded limits s) (control : s'.control = s.control)
    (calls : s'.pageCalls = s.pageCalls) : Bounded limits s' := by
  refine ⟨calls ▸ bounded.bound, ?_, ?_⟩
  · rw [control, calls]
    exact bounded.counts
  · rw [control, calls]
    exact bounded.unasked

theorem bounded_settled (bounded : Bounded limits s) (calls : s'.pageCalls = s.pageCalls)
    (first : s'.control ≠ .first) (paging : ∀ opening paging, s'.control ≠ .page opening paging) :
    Bounded limits s' :=
  ⟨calls ▸ bounded.bound, fun _ _ is => (paging _ _ is).elim, fun is => (first is).elim⟩

theorem bounded_advance (opening : OpeningSnapshot H) (bounded : Bounded limits s)
    (counted : paging.pageRequests = s.pageCalls) :
    Bounded limits (s.advance profile limits opening paging) := by
  rcases advance_cases profile limits s opening paging with
    ⟨fewer, is⟩ | ⟨error, is⟩ | ⟨journal, -, is⟩
  · rw [is]
    refine ⟨?_, ?_, fun first => nomatch first⟩
    · simp only
      omega
    · intro _ _ same
      cases same
      simp only [counted]
  · rw [is]
    refine bounded_settled bounded (historyFailed_pageCalls error) ?_ ?_
    · simp [historyFailed_control]
    · simp [historyFailed_control]
  · rw [is]
    exact bounded_settled bounded rfl (fun first => nomatch first) fun _ _ page => nomatch page

theorem bounded_moves (moved : Moves profile limits request s event s')
    (bounded : Bounded limits s) : Bounded limits s' := by
  cases moved with
  | openingFailed bytes error first =>
    exact bounded_settled bounded rfl (fun first => nomatch first) fun _ _ page => nomatch page
  | opens first parsed pushed paging segments requests =>
    refine bounded_advance _ (bounded_same bounded rfl rfl) ?_
    exact requests.trans (bounded.unasked first).symm
  | historyFailed here error =>
    refine bounded_settled bounded (historyFailed_pageCalls error) ?_ ?_
    · simp [historyFailed_control]
    · simp [historyFailed_control]
  | pages here parsed =>
    obtain ⟨_, _, _, -, -, -, -, requests⟩ := readPage_spec parsed
    refine bounded_advance _ (bounded_same bounded rfl rfl) ?_
    exact requests.trans (bounded.counts _ _ here)
  | accepts reading accepted | acceptsLast reading accepted =>
    rcases accept_cases accepted with ⟨_, _, _, -, rfl⟩ | ⟨_, _, _, _, -, -, -, rfl⟩
    · exact bounded_same bounded rfl rfl
    · exact bounded_same bounded rfl rfl
  | pumpFails reading error =>
    exact bounded_same bounded (pumpFailed_fields error).1 (pumpFailed_fields error).2.2.2.1
  | thrown releasing settled =>
    exact bounded_settled bounded rfl (fun first => nomatch first) fun _ _ page => nomatch page
  | closes returned => exact bounded_same bounded close_fields.1 close_fields.2.2.2.1
  | pumpEnds | followReturned | pumpReleased | iterate | takes =>
    exact bounded_same bounded rfl rfl
  | takesNone => exact bounded

/-- The stream is released once, and has been wherever something failed. -/
structure Released (s : JournalState H) : Prop where
  once : s.returnCalls = if s.returnFollow = .uncalled then 0 else 1
  closing : s.closing = true → s.returnFollow ≠ .uncalled
  pump : s.pumpFailure.isSome = true → s.returnFollow ≠ .uncalled
  releasing : ∀ failure, s.control = .releasing failure → s.returnFollow ≠ .uncalled
  failed : ∀ failure, s.control = .failed failure → s.returnFollow = .settled

theorem returnOnce_called : s.returnOnce.returnFollow ≠ .uncalled := by
  simp only [returnOnce]
  split
  · decide
  · assumption

theorem returnOnce_released (once : s.returnCalls = if s.returnFollow = .uncalled then 0 else 1)
    (failed : ∀ failure, s.control = .failed failure → s.returnFollow = .settled) :
    Released s.returnOnce := by
  refine ⟨?_, fun _ => returnOnce_called, fun _ => returnOnce_called,
    fun _ _ => returnOnce_called, ?_⟩
  · rw [if_neg returnOnce_called]
    simp only [returnOnce]
    split
    · next uncalled => rw [once, if_pos uncalled]
    · next called => rw [once, if_neg called]
  · intro failure is
    simp [returnOnce, failed failure is]

/-- Nothing that the release is about has changed but the place of the opening. -/
theorem released_moved (released : Released s) (follow : s'.returnFollow = s.returnFollow)
    (calls : s'.returnCalls = s.returnCalls) (closing : s'.closing = s.closing)
    (pump : s'.pumpFailure = s.pumpFailure)
    (releasing : ∀ failure, s'.control = .releasing failure → s'.returnFollow ≠ .uncalled)
    (failed : ∀ failure, s'.control = .failed failure → s'.returnFollow = .settled) : Released s' := by
  refine ⟨?_, ?_, ?_, releasing, failed⟩
  · rw [follow, calls]
    exact released.once
  · rw [follow, closing]
    exact released.closing
  · rw [follow, pump]
    exact released.pump

theorem released_same (released : Released s) (follow : s'.returnFollow = s.returnFollow)
    (calls : s'.returnCalls = s.returnCalls) (closing : s'.closing = s.closing)
    (pump : s'.pumpFailure = s.pumpFailure) (control : s'.control = s.control) : Released s' := by
  refine released_moved released follow calls closing pump ?_ ?_
  · rw [follow, control]
    exact released.releasing
  · rw [follow, control]
    exact released.failed

theorem close_released (once : s.returnCalls = if s.returnFollow = .uncalled then 0 else 1)
    (closing : s.closing = true → s.returnFollow ≠ .uncalled)
    (pump : s.pumpFailure.isSome = true → s.returnFollow ≠ .uncalled)
    (failed : ∀ failure, s.control = .failed failure → s.returnFollow = .settled) :
    Released s.close := by
  unfold close
  split
  · next closed => exact ⟨once, closing, pump, fun _ _ => closing closed, failed⟩
  · exact returnOnce_released once failed

theorem historyFailed_released (released : Released s) (error : ModernJournalError) :
    Released (s.historyFailed error) :=
  close_released released.once released.closing released.pump fun _ is => nomatch is

theorem pumpFailed_released (released : Released s) (error : ModernJournalError) :
    Released (s.pumpFailed error) := by
  unfold pumpFailed
  split
  · exact released_same released rfl rfl rfl rfl rfl
  · exact returnOnce_released released.once released.failed

theorem advance_released (opening : OpeningSnapshot H) (paging : Paging) (released : Released s) :
    Released (s.advance profile limits opening paging) := by
  rcases advance_cases profile limits s opening paging with
    ⟨-, is⟩ | ⟨error, is⟩ | ⟨journal, -, is⟩
  · rw [is]
    exact released_moved released rfl rfl rfl rfl (fun _ is => nomatch is) fun _ is => nomatch is
  · rw [is]
    exact historyFailed_released released error
  · rw [is]
    exact released_moved released rfl rfl rfl rfl (fun _ is => nomatch is) fun _ is => nomatch is

theorem released_moves (moved : Moves profile limits request s event s')
    (released : Released s) : Released s' := by
  cases moved with
  | openingFailed bytes error first => exact returnOnce_released released.once fun _ is => nomatch is
  | opens first parsed pushed paging segments requests =>
    exact advance_released _ _ (released_same released rfl rfl rfl rfl rfl)
  | historyFailed here error => exact historyFailed_released released error
  | pages here parsed => exact advance_released _ _ (released_same released rfl rfl rfl rfl rfl)
  | accepts reading accepted | acceptsLast reading accepted =>
    rcases accept_cases accepted with ⟨_, _, _, -, rfl⟩ | ⟨_, _, _, _, -, -, -, rfl⟩
    · exact released_same released rfl rfl rfl rfl rfl
    · exact released_same released rfl rfl rfl rfl rfl
  | pumpFails reading error => exact pumpFailed_released released error
  | followReturned pending =>
    have once := released.once
    rw [pending] at once
    have called : ReturnFollow.settled ≠ .uncalled := by decide
    exact ⟨once, fun _ => called, fun _ => called, fun _ _ => called, fun _ _ => rfl⟩
  | thrown releasing settled =>
    exact released_moved released rfl rfl rfl rfl (fun _ is => nomatch is) fun _ _ => settled
  | closes returned =>
    exact close_released released.once released.closing released.pump released.failed
  | pumpEnds | pumpReleased | iterate | takes => exact released_same released rfl rfl rfl rfl rfl
  | takesNone => exact released

variable {cursor : Int}

section Live

/-- The buffer takes items and hands them out. -/
def Running (buffer : LiveBuffer) : Prop := buffer.done = false ∧ buffer.failure = none

/-- The events that wait in the buffer. -/
def waiting (buffer : LiveBuffer) : List ModernJournalEvent := liveEvents (buffer.items.map Prod.fst)

theorem liveEvents_append (front rest : List ModernJournalLiveItem) :
    liveEvents (front ++ rest) = liveEvents front ++ liveEvents rest :=
  filterMap_append

variable {item : ModernJournalLiveItem}

theorem push_cases {buffer after : LiveBuffer} {bytes : Nat} (pushed : buffer.push item bytes = .ok after) :
    (Running buffer ∧ Running after ∧ waiting after = waiting buffer ++ liveEvents [item]) ∨
    (¬Running buffer ∧ after = buffer) := by
  unfold push at pushed
  split at pushed
  · next stopped =>
    cases pushed
    refine .inr ⟨?_, rfl⟩
    rintro ⟨going, sound⟩
    simp [going, sound] at stopped
  · next going =>
    simp only [Bool.or_eq_true, not_or, Bool.not_eq_true, isSome_eq_false_iff, isNone_iff_eq_none] at going
    split at pushed
    · cases pushed
    · split at pushed
      · cases pushed
      · cases pushed
        refine .inl ⟨going, going, ?_⟩
        simp only [waiting, map_append, liveEvents_append]
        rfl

variable {buffer : LiveBuffer}

theorem end_stopped (emptied : ¬Running buffer → buffer.items = []) :
    ¬Running buffer.end ∧ buffer.end.items = [] := by
  unfold LiveBuffer.end
  split
  · next done =>
    have stopped : ¬Running buffer := fun running => by simp [running.1] at done
    exact ⟨stopped, emptied stopped⟩
  · exact ⟨fun running => Bool.noConfusion running.1, rfl⟩

theorem fail_stopped (emptied : ¬Running buffer → buffer.items = [])
    (error : ModernJournalError) : ¬Running (buffer.fail error) ∧ (buffer.fail error).items = [] := by
  unfold fail
  split
  · next stopped =>
    have stopped : ¬Running buffer := fun running => by simp [running.1, running.2] at stopped
    exact ⟨stopped, emptied stopped⟩
  · exact ⟨(fun running => nomatch running.2), rfl⟩

theorem next_item {buffer after : LiveBuffer} (taken : buffer.next = some (.item item, after)) :
    (∃ bytes, buffer.items = (item, bytes) :: after.items) ∧ (Running after ↔ Running buffer) := by
  unfold LiveBuffer.next at taken
  split at taken
  · cases taken
  · next items =>
    cases taken
    exact ⟨⟨_, items⟩, Iff.rfl⟩
  · split at taken
    · cases taken
    · cases taken

/-- Only frames wait in the buffer of an opening. -/
theorem openingBuffer_spec {assistantStream : DeepSeekAssistantBaseline}
    (pushed : openingBuffer profile limits assistantStream = .ok buffer) :
    Running buffer ∧ waiting buffer = [] := by
  simp only [openingBuffer, bind_ok] at pushed
  obtain ⟨frames, -, pushed⟩ := pushed
  have kept : (fun buffer => Running buffer ∧ waiting buffer = []) buffer := by
    have empty (maxItems maxBytes : Nat) :
        Running (.new maxItems maxBytes) ∧ waiting (.new maxItems maxBytes) = [] :=
      ⟨⟨rfl, rfl⟩, rfl⟩
    refine foldlM_kept pushed (empty _ _) fun buffer frame after _ holds pushed => ?_
    obtain ⟨bytes, -, pushed⟩ := bind_ok.mp pushed
    rcases push_cases pushed with ⟨-, running, more⟩ | ⟨stopped, -⟩
    · exact ⟨running, more.trans (by rw [holds.2]; rfl)⟩
    · exact (stopped holds.1).elim
  exact kept

/-- What the consumer got and what waits for it are the events that the pump took, and these are
numbered from the cursor on. -/
structure Lively (cursor : Int) (s : JournalState H) : Prop where
  expected : s.expectedLiveSeq = cursor + 1 + s.accepted.length
  numbered : Numbered (cursor + 1) s.accepted
  running : Running s.liveBuffer → liveEvents s.delivered ++ waiting s.liveBuffer = s.accepted
  emptied : ¬Running s.liveBuffer → s.liveBuffer.items = []
  got : liveEvents s.delivered <+: s.accepted

section
variable (lively : Lively cursor s)
include lively

/-- The buffer was stopped. -/
theorem lively_stopped
    (expected : s'.expectedLiveSeq = s.expectedLiveSeq) (accepted : s'.accepted = s.accepted)
    (delivered : s'.delivered = s.delivered)
    (stopped : ¬Running s'.liveBuffer ∧ s'.liveBuffer.items = []) : Lively cursor s' where
  expected := by rw [expected, accepted, lively.expected]
  numbered := accepted ▸ lively.numbered
  running := fun running => (stopped.1 running).elim
  emptied := fun _ => stopped.2
  got := by rw [accepted, delivered]; exact lively.got

/-- Nothing of it has changed. -/
theorem lively_same
    (expected : s'.expectedLiveSeq = s.expectedLiveSeq) (accepted : s'.accepted = s.accepted)
    (delivered : s'.delivered = s.delivered) (buffer : s'.liveBuffer = s.liveBuffer) :
    Lively cursor s' where
  expected := by rw [expected, accepted, lively.expected]
  numbered := accepted ▸ lively.numbered
  running := by rw [buffer, accepted, delivered]; exact lively.running
  emptied := buffer ▸ lively.emptied
  got := by rw [accepted, delivered]; exact lively.got

theorem lively_pumpEnded : Lively cursor s.pumpEnded :=
  lively_stopped lively rfl rfl rfl (end_stopped lively.emptied)

theorem lively_pumpFailed (error : ModernJournalError) :
    Lively cursor (s.pumpFailed error) := by
  unfold pumpFailed
  split
  · exact lively_pumpEnded lively
  · exact lively_stopped lively rfl rfl rfl (fail_stopped lively.emptied error)

theorem lively_close : Lively cursor s.close := by
  unfold close
  split
  · exact lively
  · exact lively_stopped lively rfl rfl rfl (end_stopped lively.emptied)

theorem lively_accepts
    (accepted : s.accept profile limits value = .ok s') : Lively cursor s' := by
  rcases accept_cases accepted with
    ⟨frame, bytes, buffer, pushed, rfl⟩ | ⟨event, bytes, retained, buffer, -, seq, pushed, rfl⟩
  · rcases push_cases pushed with ⟨running, after, more⟩ | ⟨stopped, rfl⟩
    · refine ⟨lively.expected, lively.numbered, fun _ => ?_, fun stopped => (stopped after).elim,
        lively.got⟩
      rw [more]
      exact (congrArg _ (append_nil _)).trans (lively.running running)
    · exact lively_same lively rfl rfl rfl rfl
  · have numbered : Numbered (cursor + 1) (s.accepted ++ [event]) := by
      refine numbered_append.mpr ⟨lively.numbered, numbered_cons.mpr ⟨?_, rfl⟩⟩
      rw [seq, lively.expected]
    have expected : s.expectedLiveSeq + 1 = cursor + 1 + (s.accepted ++ [event]).length := by
      rw [lively.expected, length_append, length_singleton]
      omega
    have got : liveEvents s.delivered <+: s.accepted ++ [event] :=
      lively.got.trans (prefix_append _ _)
    rcases push_cases pushed with ⟨running, after, more⟩ | ⟨stopped, rfl⟩
    · refine ⟨expected, numbered, fun _ => ?_, fun stopped => (stopped after).elim, got⟩
      rw [more, ← append_assoc, lively.running running]
      rfl
    · exact ⟨expected, numbered, fun running => (stopped running).elim, lively.emptied, got⟩

theorem lively_takes (taken : s.liveBuffer.next = some (.item item, buffer)) :
    Lively cursor { s with liveBuffer := buffer, delivered := s.delivered ++ [item] } := by
  obtain ⟨⟨bytes, items⟩, running⟩ := next_item taken
  have going : Running s.liveBuffer := by
    by_contra stopped
    rw [lively.emptied stopped] at items
    cases items
  have first : waiting s.liveBuffer = liveEvents [item] ++ waiting buffer := by
    rw [waiting, items, map_cons]
    exact liveEvents_append [item] _
  have all : liveEvents (s.delivered ++ [item]) ++ waiting buffer = s.accepted := by
    rw [← lively.running going, first, liveEvents_append, append_assoc]
  exact ⟨lively.expected, lively.numbered, fun _ => all,
    fun stopped => (stopped (running.mpr going)).elim, ⟨_, all⟩⟩

end

end Live

/-- The cursor, once it is known and as long as nothing has failed. -/
def cursorOf : Control H → Option Int
  | .page opening _ => some opening.cursor
  | .returned journal => some journal.cursor
  | _ => none

theorem advance_first (opening : OpeningSnapshot H) (paging : Paging) :
    (s.advance profile limits opening paging).control ≠ .first := by
  rcases advance_cases profile limits s opening paging with ⟨-, is⟩ | ⟨error, is⟩ | ⟨journal, -, is⟩
  · simp [is]
  · simp [is, historyFailed_control]
  · simp [is]

/-- Before the opening snapshot nothing has happened. -/
theorem unopened_moves (moved : Moves profile limits request s event s')
    (unopened : s.control = .first → s = .start) : s'.control = .first → s' = .start := by
  cases moved with
  | openingFailed bytes error first => exact fun other => nomatch other
  | opens first parsed pushed paging => exact fun other => (advance_first _ _ other).elim
  | historyFailed here error => simp [historyFailed_control]
  | pages here parsed => exact fun other => (advance_first _ _ other).elim
  | accepts reading accepted =>
    intro first
    have control : s'.control = s.control := by
      rcases accept_cases accepted with ⟨_, _, _, -, rfl⟩ | ⟨_, _, _, _, -, -, -, rfl⟩
      · rfl
      · rfl
    rw [unopened (control ▸ first)] at reading
    cases reading
  | @acceptsLast value next reading accepted =>
    intro first
    have control : next.control = s.control := by
      rcases accept_cases accepted with ⟨_, _, _, -, rfl⟩ | ⟨_, _, _, _, -, -, -, rfl⟩
      · rfl
      · rfl
    rw [unopened (control.symm.trans first)] at reading
    cases reading
  | pumpEnds reading =>
    intro first
    rw [unopened first] at reading
    cases reading
  | pumpFails reading error =>
    intro first
    rw [unopened ((pumpFailed_fields error).1.symm.trans first)] at reading
    cases reading
  | followReturned pending =>
    intro first
    rw [unopened first] at pending
    cases pending
  | pumpReleased releasing =>
    intro first
    rw [unopened first] at releasing
    cases releasing
  | thrown releasing settled => exact fun other => nomatch other
  | iterate returned =>
    intro first
    cases returned.symm.trans first
  | takes claimed taken =>
    intro first
    rw [unopened first] at claimed
    cases claimed
  | takesNone => exact unopened
  | closes returned =>
    intro first
    cases returned.symm.trans (close_fields.1.symm.trans first)

theorem lively_advance (lively : Lively opening.cursor s)
    (at_cursor : cursorOf (s.advance profile limits opening paging).control = some cursor) :
    Lively cursor (s.advance profile limits opening paging) := by
  rcases advance_cases profile limits s opening paging with
    ⟨-, is⟩ | ⟨error, is⟩ | ⟨journal, joined, is⟩
  · rw [is] at at_cursor ⊢
    cases at_cursor
    exact lively_same lively rfl rfl rfl rfl
  · rw [is, historyFailed_control] at at_cursor
    cases at_cursor
  · rw [is] at at_cursor ⊢
    cases at_cursor
    rw [(joinHistory_spec joined).1]
    exact lively_same lively rfl rfl rfl rfl

/-- The invariant of the live items, where there is a cursor. -/
def LiveKept (s : JournalState H) : Prop := ∀ cursor, cursorOf s.control = some cursor → Lively cursor s

theorem liveKept_moves (moved : Moves profile limits request s event s')
    (unopened : s.control = .first → s = .start) (live : LiveKept s) : LiveKept s' := by
  cases moved with
  | openingFailed bytes error first => exact fun cursor is => nomatch is
  | opens first parsed pushed paging =>
    intro cursor is
    refine lively_advance ?_ is
    obtain ⟨running, nothing⟩ := openingBuffer_spec pushed
    rw [unopened first]
    exact ⟨(Int.add_zero _).symm, rfl, fun _ => nothing, fun stopped => (stopped running).elim,
      nil_prefix⟩
  | historyFailed here error =>
    intro cursor is
    rw [historyFailed_control] at is
    cases is
  | @pages value opening paging read here parsed =>
    intro cursor is
    have lively := live opening.cursor (by rw [here]; rfl)
    refine lively_advance ?_ is
    exact lively_same lively rfl rfl rfl rfl
  | accepts reading accepted =>
    intro cursor is
    refine lively_accepts (live cursor ?_) accepted
    rcases accept_cases accepted with ⟨_, _, _, -, rfl⟩ | ⟨_, _, _, _, -, -, -, rfl⟩
    · exact is
    · exact is
  | acceptsLast reading accepted =>
    intro cursor is
    refine lively_pumpEnded (lively_accepts (live cursor ?_) accepted)
    rcases accept_cases accepted with ⟨_, _, _, -, rfl⟩ | ⟨_, _, _, _, -, -, -, rfl⟩
    · exact is
    · exact is
  | pumpEnds reading => exact fun cursor is => lively_pumpEnded (live cursor is)
  | pumpFails reading error =>
    intro cursor is
    rw [(pumpFailed_fields error).1] at is
    exact lively_pumpFailed (live cursor is) error
  | thrown releasing settled => exact fun cursor is => nomatch is
  | takes claimed taken => exact fun cursor is => lively_takes (live cursor is) taken
  | closes returned =>
    intro cursor is
    rw [close_fields.1] at is
    exact lively_close (live cursor is)
  | followReturned | pumpReleased | iterate =>
    exact fun cursor is => lively_same (live cursor is) rfl rfl rfl rfl
  | takesNone => exact live

section Records
variable {P : ModernJournalEvent → Prop}

/-- Every event that the profile reads from an answer of the remote has the property. -/
def Reads (profile : DeepSeekModernProfile H) (P : ModernJournalEvent → Prop) : Event → Prop
  | .first (.item value) => RecordsHold profile P value
  | .page (.ok value) => RecordsHold profile P value
  | .live (.item value) => ∀ event, profile.parseLiveItem value = .ok (.event event) → P event
  | _ => True

/-- The history is complete, and every event in the state has the property. -/
structure Recorded (P : ModernJournalEvent → Prop) (s : JournalState H) : Prop where
  paging : ∀ opening paging, s.control = .page opening paging →
    ∀ segment ∈ paging.segments, ∀ event ∈ segment, P event
  journal : ∀ journal, s.control = .returned journal →
    (journal.events.length : Int) = journal.cursor + 1 ∧ Numbered 0 journal.events ∧
      ∀ event ∈ journal.events, P event
  live : ∀ event ∈ s.accepted, P event

theorem recorded_same (recorded : Recorded P s) (control : s'.control = s.control)
    (accepted : s'.accepted = s.accepted) : Recorded P s' := by
  refine ⟨?_, ?_, accepted ▸ recorded.live⟩
  · rw [control]
    exact recorded.paging
  · rw [control]
    exact recorded.journal

/-- Once the opening has failed only the live events count. -/
theorem recorded_failed (recorded : Recorded P s) (accepted : s'.accepted = s.accepted)
    (paging : ∀ opening paging, s'.control ≠ .page opening paging)
    (journal : ∀ journal, s'.control ≠ .returned journal) : Recorded P s' :=
  ⟨fun _ _ is => (paging _ _ is).elim, fun _ is => (journal _ is).elim, accepted ▸ recorded.live⟩

theorem recorded_historyFailed (recorded : Recorded P s) (error : ModernJournalError) :
    Recorded P (s.historyFailed error) := by
  refine recorded_failed recorded (historyFailed_accepted error) ?_ ?_
  · simp [historyFailed_control]
  · simp [historyFailed_control]

theorem recorded_advance (live : ∀ event ∈ s.accepted, P event) (recorded : Recorded P s)
    (segments : ∀ segment ∈ paging.segments, ∀ event ∈ segment, P event) :
    Recorded P (s.advance profile limits opening paging) := by
  rcases advance_cases profile limits s opening paging with
    ⟨-, is⟩ | ⟨error, is⟩ | ⟨journal, joined, is⟩
  · rw [is]
    refine ⟨?_, (fun _ is => nomatch is), live⟩
    rintro _ _ ⟨⟩
    exact segments
  · rw [is]
    exact recorded_historyFailed recorded error
  · rw [is]
    refine ⟨(fun _ _ is => nomatch is), ?_, live⟩
    rintro _ ⟨⟩
    obtain ⟨-, events, complete, numbered⟩ := joinHistory_spec joined
    refine ⟨complete, numbered, ?_⟩
    rw [events]
    intro event member
    obtain ⟨segment, inSegments, member⟩ := mem_flatten.mp member
    exact segments segment (mem_reverse.mp inSegments) event member

theorem recorded_accepts (recorded : Recorded P s) (told : Reads profile P (.live (.item value)))
    (accepted : s.accept profile limits value = .ok s') : Recorded P s' := by
  rcases accept_cases accepted with ⟨_, _, _, -, rfl⟩ | ⟨event, _, _, _, parsed, -, -, rfl⟩
  · exact recorded_same recorded rfl rfl
  · refine ⟨recorded.paging, recorded.journal, forall_mem_append.mpr ⟨recorded.live, ?_⟩⟩
    exact fun other member => mem_singleton.mp member ▸ told event parsed

theorem recorded_moves (moved : Moves profile limits request s event s')
    (told : Reads profile P event) (recorded : Recorded P s) : Recorded P s' := by
  cases moved with
  | openingFailed bytes error first =>
    exact recorded_failed recorded rfl (fun _ _ is => nomatch is) fun _ is => nomatch is
  | opens first parsed pushed paging segments =>
    refine recorded_advance recorded.live (recorded_same recorded rfl rfl) ?_
    rw [segments]
    intro segment member
    rw [mem_singleton.mp member]
    exact parseOpeningSnapshot_holds told parsed
  | historyFailed here error => exact recorded_historyFailed recorded error
  | pages here parsed =>
    refine recorded_advance recorded.live (recorded_same recorded rfl rfl) ?_
    obtain ⟨page, _, _, pageParsed, -, -, segments, -⟩ := readPage_spec parsed
    rw [segments]
    refine forall_mem_append.mpr ⟨recorded.paging _ _ here, ?_⟩
    intro segment member
    rw [mem_singleton.mp member]
    exact parsePage_holds told pageParsed
  | accepts reading accepted => exact recorded_accepts recorded told accepted
  | acceptsLast reading accepted =>
    exact recorded_same (recorded_accepts recorded told accepted) rfl rfl
  | pumpFails reading error =>
    exact recorded_same recorded (pumpFailed_fields error).1 (pumpFailed_fields error).2.1
  | thrown releasing settled =>
    exact recorded_failed recorded rfl (fun _ _ is => nomatch is) fun _ is => nomatch is
  | closes returned => exact recorded_same recorded close_fields.1 close_fields.2.1
  | pumpEnds | followReturned | pumpReleased | iterate | takes => exact recorded_same recorded rfl rfl
  | takesNone => exact recorded

end Records

section Runs

variable (profile limits request) in
/-- The steps lead to this state. -/
def Reaches (events : List Event) (s : JournalState H) : Prop :=
  Run (fun s event s' => step profile limits request s event = some s') .start events s

variable {events : List Event}

section
variable (reaches : Reaches profile limits request events s)
include reaches

theorem reaches_bounded : Bounded limits s :=
  reaches.invariant ⟨Nat.zero_le _, (fun _ _ is => nomatch is), fun _ => rfl⟩
    fun _ _ _ bounded moved => bounded_moves (moves_of_step moved) bounded

theorem reaches_released : Released s :=
  reaches.invariant
    ⟨rfl, Bool.noConfusion, Bool.noConfusion, (fun _ is => nomatch is), (fun _ is => nomatch is)⟩
    fun _ _ _ released moved => released_moves (moves_of_step moved) released

theorem reaches_unopened
    (first : s.control = .first) : s = .start := by
  induction reaches with
  | nil => rfl
  | snoc before last ih => exact unopened_moves (moves_of_step last) ih first

theorem reaches_live : LiveKept s := by
  induction reaches with
  | nil => exact fun _ is => nomatch is
  | snoc before last ih => exact liveKept_moves (moves_of_step last) (reaches_unopened before) ih

theorem reaches_recorded {P : ModernJournalEvent → Prop}
    (told : ∀ event ∈ events, Reads profile P event) : Recorded P s := by
  induction reaches with
  | nil =>
    exact ⟨(fun _ _ is => nomatch is), (fun _ is => nomatch is), fun _ member => nomatch member⟩
  | snoc before last ih =>
    rw [forall_mem_append] at told
    exact recorded_moves (moves_of_step last) (told.2 _ (mem_singleton_self _)) (ih told.1)

end

theorem reads_anything (event : Event) : Reads profile (fun _ => True) event := by
  unfold Reads RecordsHold
  split
  · exact fun _ _ _ _ _ _ _ _ _ => trivial
  · exact fun _ _ _ _ _ _ _ _ _ => trivial
  · exact fun _ _ => trivial
  · trivial

/-- An opened journal, whatever the remote sends and in whatever order: the history has the numbers
from zero to the cursor, the consumer gets the numbers after it, with a truthful remote these are the
events of its log; the requests are bounded, and what failed has released the stream. -/
theorem journal_opened (reaches : Reaches profile limits request events s) :
    (∀ journal, s.control = .returned journal →
      (journal.events.length : Int) = journal.cursor + 1 ∧ Numbered 0 journal.events ∧
      Numbered (journal.cursor + 1) (liveEvents s.delivered) ∧
      Numbered (journal.cursor + 1) s.accepted ∧
      (Running s.liveBuffer → liveEvents s.delivered ++ waiting s.liveBuffer = s.accepted) ∧
      ∀ log : Int → ModernJournalEvent,
        (∀ event ∈ events, Reads profile (fun read => read = log read.seq) event) →
        journal.events = (following 0 journal.events.length).map log ∧
        liveEvents s.delivered = (following (journal.cursor + 1) (liveEvents s.delivered).length).map log) ∧
    s.pageCalls ≤ limits.maxPageRequests ∧ s.returnCalls ≤ 1 ∧
    (∀ failure, s.control = .failed failure → s.returnFollow = .settled ∧ s.returnCalls = 1) ∧
    (s.pumpFailure.isSome = true → s.returnCalls = 1) := by
  have released := reaches_released reaches
  have called (is : s.returnFollow ≠ .uncalled) : s.returnCalls = 1 :=
    released.once.trans (if_neg is)
  refine ⟨?_, (reaches_bounded reaches).bound, ?_, ?_, fun failed => called (released.pump failed)⟩
  · intro journal returned
    obtain ⟨complete, numbered, -⟩ :=
      (reaches_recorded reaches fun event _ => reads_anything event).journal journal returned
    have lively := reaches_live reaches journal.cursor (by rw [returned]; rfl)
    obtain ⟨rest, delivered⟩ := lively.got
    have following : Numbered (journal.cursor + 1) (liveEvents s.delivered) :=
      (numbered_append.mp (delivered ▸ lively.numbered)).1
    refine ⟨complete, numbered, following, lively.numbered, lively.running, fun log truthful => ?_⟩
    have recorded := reaches_recorded reaches truthful
    refine ⟨numbered.of_log (recorded.journal journal returned).2.2, following.of_log ?_⟩
    exact fun event member => recorded.live event (lively.got.subset member)
  · rw [released.once]
    split
    · decide
    · decide
  · intro failure failed
    have settled := released.failed failure failed
    exact ⟨settled, called (by rw [settled]; decide)⟩

end Runs

/-- A format whose records are single events. -/
def sampleProfile : DeepSeekModernProfile Unit where
  snapshotKeys := ["type", "header", "cursor", "records", "hasMore", "projections", "assistantStream"]
  parseHeader := fun _ _ => .ok ()
  parseHistoryRecord := fun record _ =>
    match asCursor (member record "seq") with
    | some seq => .ok [⟨seq, record⟩]
    | none => .error (protocolError "journal event has invalid scalar fields")
  parseLiveItem := fun value =>
    match asCursor (member value "seq") with
    | some seq => .ok (.event ⟨seq, value⟩)
    | none => .error (protocolError "journal event has invalid scalar fields")
  parseAssistantBaseline := fun _ => .ok ⟨0, none⟩
  expandAssistantStream := fun _ => .ok []
  inheritedEventCount := fun _ _ => .ok none

def sampleRecord (seq : Int) : Wire := .object [(Utf16.ofString "seq", .number (.integer seq))]

def sampleSnapshot : Wire := .object [ (Utf16.ofString "type", .string (Utf16.ofString "snapshot")),
  (Utf16.ofString "header", .object []),
  (Utf16.ofString "cursor", .number (.integer 1)),
  (Utf16.ofString "records", .array [sampleRecord 1]),
  (Utf16.ofString "hasMore", .bool true),
  (Utf16.ofString "projections", .object [
    (Utf16.ofString "asOfSeq", .number (.integer 1)), (Utf16.ofString "values", .object [])]),
  (Utf16.ofString "assistantStream", .object [(Utf16.ofString "revision", .number (.integer 0))])]

def samplePage : Wire := .object [
  (Utf16.ofString "records", .array [sampleRecord 0]), (Utf16.ofString "hasMore", .bool false)]

/-- A live event comes before the page. -/
def sampleEvents : List Event := [.first (.item sampleSnapshot), .live (.item (sampleRecord 2)),
  .page (.ok samplePage), .iterate, .next]

theorem journal_opened_sample : ∃ s journal,
    sampleEvents.foldlM (step sampleProfile defaultLimits ⟨"s", none⟩) .start = some s ∧
    s.control = .returned journal ∧ (liveEvents s.delivered).map (·.seq) = [2] ∧
    (journal.events.length : Int) = journal.cursor + 1 ∧ Numbered 0 journal.events := by
  have ran : sampleEvents.foldlM (step sampleProfile defaultLimits ⟨"s", none⟩) .start = some _ := rfl
  obtain ⟨complete, numbered, -⟩ := (journal_opened (Run.of_foldlM ran)).1 _ rfl
  exact ⟨_, _, ran, rfl, rfl, complete, numbered⟩

end CodexHost.Guarantees.JournalOpening
