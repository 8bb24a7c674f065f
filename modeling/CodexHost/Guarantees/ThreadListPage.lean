import CodexHost.Guarantees.OfficialReader
import CodexHost.Guarantees.ThreadListOrder

/-!
# One page of the aggregated Thread list

A page is a prefix of the merge of what is left of both sources, and its next cursor stands
for the rest of that merge.
-/
namespace CodexHost.Guarantees.ThreadList
open Foundation Source.ProtocolCore Source.HostRuntime List PageFilling

/-- The merge of External rows with official rows, in the order of `compareThreadListEntries`. -/
def mergeRows (direction : ThreadListSortDirection) (external official : List ThreadListEntry) :
    List ThreadListEntry :=
  List.merge external official fun left right =>
    decide (compareThreadListEntries left right direction ≤ 0)

section Fill
variable {r : Reading} {input : AggregateThreadListInput} {direction : ThreadListSortDirection}

/-- Where a filling page stands: what is left of both sources. The External page holds at
least as many rows as the page has room for. -/
structure FillingAt (r : Reading) (state : PageFilling) (rest : List ThreadListEntry)
    (position room : Nat) : Prop where
  stands : r.At state.budget state.reader position
  accounted : r.Accounted position state.output.length
  external : ∃ n, room ≤ n ∧ state.external = rest.take n

/-- What filling a page has done. -/
structure Filled (r : Reading) (direction : ThreadListSortDirection) (before : PageFilling)
    (rest : List ThreadListEntry) (position room : Nat) (after : PageFilling)
    (taken rest' : List ThreadListEntry) (position' : Nat) : Prop where
  stands : r.At after.budget after.reader position'
  split : rest = taken ++ rest'
  external : before.external = taken ++ after.external
  page : after.output = before.output ++ (mergeRows direction rest (r.remaining position)).take room
  left : mergeRows direction rest' (r.remaining position') =
    (mergeRows direction rest (r.remaining position)).drop room
  anchor : after.lastExternalAnchor = (taken.getLast?.map externalAnchor).or before.lastExternalAnchor
  seen : 0 < room ∨ r.Seen before.reader → r.Seen after.reader
  /-- A page that is not full has used up the official list. -/
  stop : (mergeRows direction rest (r.remaining position)).length < room → after.reader.officialDone = true

theorem filled_external (state : PageFilling) {before after : PageFilling} {e : ThreadListEntry}
    {rest taken rest' : List ThreadListEntry} {position position₁ position' room : Nat}
    (first : ∀ o ∈ (r.remaining position).head?, compareThreadListEntries e o direction ≤ 0)
    (same : r.remaining position₁ = r.remaining position) (seen : r.Seen state.reader)
    (external : state.external = before.external) (output : state.output = before.output)
    (shown : before.external.head? = some e)
    (filled : Filled r direction (state.pushExternal e) rest position₁ room after taken rest' position') :
    Filled r direction before (e :: rest) position (room + 1) after (e :: taken) rest' position' := by
  have step : mergeRows direction (e :: rest) (r.remaining position) =
      e :: mergeRows direction rest (r.remaining position) :=
    merge_cons_left fun o member => by simpa using first o member
  refine ⟨filled.stands, by rw [filled.split, cons_append], ?_, ?_, ?_, ?_,
    fun _ => filled.seen (.inr seen), ?_⟩
  · have tail := filled.external
    simp only [pushExternal, external] at tail
    obtain ⟨head, others⟩ : ∃ others, before.external = e :: others := by
      cases list : before.external with
      | nil =>
        rw [list] at shown
        cases shown
      | cons head others =>
        rw [list] at shown
        cases shown
        exact ⟨others, rfl⟩
    rw [others, tail_cons] at tail
    rw [others, tail, cons_append]
  · rw [filled.page, step, same, take_succ_cons]
    simp [pushExternal, output]
  · rw [filled.left, step, same, drop_succ_cons]
  · rw [filled.anchor]
    cases taken with
    | nil => rfl
    | cons t taken => simp [getLast?_cons]
  · intro short
    rw [step, length_cons] at short
    exact filled.stop (by rw [same]; omega)

theorem filled_official (state : PageFilling) {before after : PageFilling} {o : ThreadListEntry}
    {rest taken rest' : List ThreadListEntry} {position position₁ position' room : Nat}
    (first : ∀ e ∈ rest.head?, ¬ compareThreadListEntries e o direction ≤ 0)
    (next : r.remaining position = o :: r.remaining position₁) (seen : r.Seen state.reader)
    (external : state.external = before.external) (output : state.output = before.output)
    (anchor : state.lastExternalAnchor = before.lastExternalAnchor)
    (filled : Filled r direction (state.pushOfficial o) rest position₁ room after taken rest' position') :
    Filled r direction before rest position (room + 1) after taken rest' position' := by
  have step : mergeRows direction rest (r.remaining position) =
      o :: mergeRows direction rest (r.remaining position₁) := by
    rw [next]
    exact merge_cons_right fun e member => by simpa using first e member
  refine ⟨filled.stands, filled.split, ?_, ?_, ?_, ?_, fun _ => filled.seen (.inr seen), ?_⟩
  · rw [← external]
    exact filled.external
  · rw [filled.page, step, take_succ_cons]
    simp [pushOfficial, output]
  · rw [filled.left, step, drop_succ_cons]
  · rw [filled.anchor]
    simp [pushOfficial, anchor]
  · intro short
    rw [step, length_cons] at short
    exact filled.stop (by omega)

/-- One turn of the loop, after its official row is known. -/
theorem fillPage_succ (sorts : input.query.sortDirection = direction) (room : Nat)
    {state next : PageFilling} {budget : Nat} {reader : OfficialReader}
    {entry : Option ThreadListEntry}
    (ran : ensureOfficial input r.owned state.budget state.reader = .ok (budget, reader, entry))
    (pushed : { state with budget, reader }.pushFirst direction entry = some next) :
    fillPage input r.owned (room + 1) state = fillPage input r.owned room next := by
  simp only [fillPage, ran, bind, Except.bind, sorts, pushed]

/-- The loop that fills a page, by induction on its room. -/
theorem fillPage_spec (serves : Serves input r direction)
    (sorts : input.query.sortDirection = direction) {room : Nat} :
    ∀ {state : PageFilling} {rest : List ThreadListEntry} {position : Nat},
      FillingAt r state rest position room → state.output.length + room ≤ r.limit →
      ∃ after taken rest' position', fillPage input r.owned room state = .ok after ∧
        Filled r direction state rest position room after taken rest' position' := by
  induction room with
  | zero =>
    intro state rest position filling fits
    refine ⟨state, [], rest, position, rfl, filling.stands, rfl, rfl, ?_, ?_, rfl, ?_, ?_⟩
    · simp
    · simp
    · rintro (positive | seen)
      · omega
      · exact seen
    · intro short
      omega
  | succ room ih =>
    intro state rest position filling fits
    obtain ⟨n, large, external⟩ := filling.external
    obtain ⟨budget', reader', entry, position', ran, ensured⟩ :=
      ensureOfficial_spec serves filling.stands filling.accounted (by omega)
    let ready : PageFilling := { state with budget := budget', reader := reader' }
    have same : ready.output = state.output := rfl
    have shown : state.external.head? = rest.head? := by
      rw [external, head?_take, if_neg (by omega)]
    -- An External row goes first.
    have takeExternal : ∀ e others, rest = e :: others →
        (∀ o ∈ entry, compareThreadListEntries e o direction ≤ 0) →
        ∃ after taken rest' position', fillPage input r.owned (room + 1) state = .ok after ∧
          Filled r direction state rest position (room + 1) after taken rest' position' := by
      intro e others cons first
      have filling' : FillingAt r (ready.pushExternal e) others position' room := by
        refine ⟨ensured.stands, ?_, n - 1, by omega, ?_⟩
        · have accounted := ensured.accounted
          simp only [Reading.Accounted, pushExternal, same, length_append, length_singleton] at *
          omega
        · obtain ⟨m, rfl⟩ : ∃ m, n = m + 1 := ⟨n - 1, by omega⟩
          show state.external.tail = _
          rw [external, cons, take_succ_cons]
          rfl
      obtain ⟨after, taken, rest', position'', filled, done⟩ := ih filling' (by
        show (state.output ++ [e]).length + room ≤ r.limit
        rw [length_append, length_singleton]
        omega)
      have pushed : ready.pushFirst direction entry = some (ready.pushExternal e) := by
        have head : ready.external.head? = some e := by
          show state.external.head? = some e
          rw [shown, cons]
          rfl
        cases entry with
        | none => simp only [pushFirst, head]
        | some o => simp only [pushFirst, head, if_pos (first o rfl)]
      refine ⟨after, e :: taken, rest', position'', (fillPage_succ sorts room ran pushed).trans filled, ?_⟩
      rw [cons]
      refine filled_external ready ?_ ensured.remaining ensured.seen rfl rfl ?_ done
      · intro o member
        rw [← ensured.remaining, ← ensured.head] at member
        exact first o member
      · rw [shown, cons]
        rfl
    -- An official row goes first.
    have takeOfficial : ∀ o, entry = some o →
        (∀ e ∈ rest.head?, ¬ compareThreadListEntries e o direction ≤ 0) →
        ∃ after taken rest' position'', fillPage input r.owned (room + 1) state = .ok after ∧
          Filled r direction state rest position (room + 1) after taken rest' position'' := by
      intro o given first
      obtain ⟨stands, tail⟩ := ensured.push o given
      have next : r.remaining position = o :: r.remaining (position' + 1) := by
        have head := ensured.head
        rw [given, ensured.remaining] at head
        rw [tail, ensured.remaining]
        exact (cons_head?_tail head.symm).symm
      have filling' : FillingAt r (ready.pushOfficial o) rest (position' + 1) room := by
        refine ⟨stands, ?_, n, by omega, external⟩
        have accounted := ensured.accounted
        have mono := r.ownedBefore_mono (Nat.le_add_right position' 1)
        simp only [Reading.Accounted, pushOfficial, same, length_append, length_singleton] at *
        omega
      obtain ⟨after, taken, rest', position'', filled, done⟩ := ih filling' (by
        show (state.output ++ [o]).length + room ≤ r.limit
        rw [length_append, length_singleton]
        omega)
      have pushed : ready.pushFirst direction entry = some (ready.pushOfficial o) := by
        have head : ready.external.head? = rest.head? := shown
        rw [given]
        cases rest with
        | nil => simp only [pushFirst, head, head?_nil]
        | cons e others =>
          simp only [pushFirst, head, head?_cons, if_neg (first e rfl)]
      exact ⟨after, taken, rest', position'', (fillPage_succ sorts room ran pushed).trans filled,
        filled_official ready first next ensured.seen rfl rfl rfl done⟩
    cases rest with
    | nil =>
      cases entry with
      | none =>
        have nothing : r.remaining position = [] := by
          rw [← head?_eq_none_iff, ← ensured.remaining]
          exact ensured.head.symm
        have stopped : fillPage input r.owned (room + 1) state = .ok ready := by
          have head : ready.external.head? = none := shown
          have none : ready.pushFirst direction none = none := by
            simp only [pushFirst, head]
          simp only [fillPage, ran, bind, Except.bind, sorts]
          rw [none]
        refine ⟨ready, [], [], position', stopped, ensured.stands, rfl, ?_, ?_, ?_, rfl,
          fun _ => ensured.seen, fun _ => ensured.stop rfl⟩
        · rfl
        · simp [nothing, mergeRows, ready]
        · rw [ensured.remaining, nothing]
          simp [mergeRows]
      | some o => exact takeOfficial o rfl fun e member => by cases member
    | cons e others =>
      cases entry with
      | none => exact takeExternal e others rfl fun o member => by cases member
      | some o =>
        by_cases first : compareThreadListEntries e o direction ≤ 0
        · refine takeExternal e others rfl fun o' member => ?_
          cases member
          exact first
        · refine takeOfficial o rfl fun e' member => ?_
          cases member
          exact first

end Fill

/-- The External rows of the query and the rows of the official list, both fixed. -/
structure Lists (input : AggregateThreadListInput) (direction : ThreadListSortDirection) where
  matching : List ThreadListEntry
  rows : List Thread
  place : Nat → String
  back : Nat → Nat → Option String
  supported : input.query.supportsExternal = true
  sortKey : input.query.sortKey ≠ .sectionPosition
  matches_ : matchingExternalThreads input.toExternalThreadListInput input.query = .ok matching
  external : ∀ e ∈ matching, e.source = .external
  distinct : (matching.map (·.thread.id)).Nodup
  pages : PagesExactly input direction rows place back
  dated : ∀ row ∈ rows, HasTimestamp input.query.sortKey row

namespace Lists
variable {input : AggregateThreadListInput} {direction : ThreadListSortDirection}
  (lists : Lists input direction)

/-- The id is of an External Thread. -/
abbrev owned (_ : Lists input direction) : String → Bool :=
  isExternalId input.toExternalThreadListInput

def ownedCount : Nat := lists.rows.countP fun row => lists.owned row.id

/-- The External rows in the order of the list. -/
def sorted : List ThreadListEntry := sortThreadListEntries direction lists.matching

/-- The entries of the official rows from a position on, without those of External Threads. -/
def official (position : Nat) : List ThreadListEntry :=
  ((lists.rows.drop position).filter fun row => !lists.owned row.id).map
    (officialEntry input.query.sortKey)

/-- What a call at the position with this limit reads. -/
def reading (limit position : Nat) (ended : Bool) (positive : 1 ≤ limit) : Reading :=
  { rows := lists.rows, place := lists.place, back := lists.back, owned := lists.owned
    sortKey := input.query.sortKey, limit, origin := position, ended, positive }

theorem sorted_perm : lists.sorted.Perm lists.matching := perm_insertionSort _ _

theorem sorted_external : ∀ e ∈ lists.sorted, e.source = .external := by
  intro e member
  exact lists.external e (lists.sorted_perm.subset member)

theorem sorted_compare : lists.sorted.Pairwise fun a b => compareThreadListEntries a b direction ≤ 0 := by
  have total : Std.Total fun a b : ThreadListEntry => compareThreadListEntries a b direction ≤ 0 :=
    ⟨compare_le_total direction⟩
  have trans : IsTrans ThreadListEntry fun a b => compareThreadListEntries a b direction ≤ 0 :=
    ⟨fun _ _ _ => compare_le_trans⟩
  exact pairwise_insertionSort _ _

/-- The External rows are in strict order. -/
theorem sorted_after : lists.sorted.Pairwise fun a b => After direction (externalAnchor a) b := by
  have apart : lists.sorted.Pairwise fun a b => a.thread.id ≠ b.thread.id := by
    have nodup : (lists.sorted.map (·.thread.id)).Nodup :=
      (lists.sorted_perm.map _).nodup_iff.mpr lists.distinct
    exact pairwise_map.mp nodup
  refine (lists.sorted_compare.and apart).imp_of_mem ?_
  rintro a b here there ⟨order, different⟩
  exact after_of_compare (lists.sorted_external a here) (lists.sorted_external b there) different order

/-- The merged list from a position on. -/
def merged (rest : List ThreadListEntry) (position : Nat) : List ThreadListEntry :=
  mergeRows direction rest (lists.official position)

/-- The External rows after an anchor. -/
def after (anchor : Option ThreadListExternalAnchor) : List ThreadListEntry :=
  lists.sorted.filter (isAfterAnchor anchor direction)

theorem merged_sorted (sorted : (lists.official 0).Pairwise fun a b =>
      compareThreadListEntries a b direction ≤ 0) :
    (lists.merged lists.sorted 0).Pairwise fun a b => compareThreadListEntries a b direction ≤ 0 := by
  have total : Std.Total fun a b : ThreadListEntry => compareThreadListEntries a b direction ≤ 0 :=
    ⟨compare_le_total direction⟩
  have trans : IsTrans ThreadListEntry fun a b => compareThreadListEntries a b direction ≤ 0 :=
    ⟨fun _ _ _ => compare_le_trans⟩
  exact lists.sorted_compare.merge sorted

/-- The cursor stands before these External rows and this position of the official list. -/
structure StandsAt (cursor : HostThreadListCursor) (rest : List ThreadListEntry) (position : Nat) : Prop where
  fingerprint : cursor.queryFingerprint = input.query.queryFingerprint
  sameDirection : cursor.sortDirection = direction
  external : rest = if cursor.externalDone then [] else lists.after cursor.externalAnchor
  official : if cursor.officialDone then position = lists.rows.length
    else Addresses lists.place cursor.officialCursor position
  bound : position ≤ lists.rows.length

/-- A page is the first rows of the merged list, and its cursors stand for its ends. -/
structure IsPage (cursor : HostThreadListCursor) (rest : List ThreadListEntry)
    (position limit : Nat) (page : AggregatedThreadListPage) (rest' : List ThreadListEntry)
    (position' : Nat) : Prop where
  data : page.data = ((lists.merged rest position).take limit).map (·.thread)
  left : lists.merged rest' position' = (lists.merged rest position).drop limit
  last : page.nextCursor = none → lists.merged rest' position' = []
  next : ∀ after, page.nextCursor = some after →
    lists.StandsAt after rest' position' ∧ limit ≤ (lists.merged rest position).length ∧
      (after.officialDone = false → position' < lists.rows.length)
  backwards : page.backwardsCursor = (lists.merged rest position).head?.map fun first =>
    let before := if cursor.officialDone then none else lists.back position limit
    { queryFingerprint := input.query.queryFingerprint
      sortDirection := opposite direction
      officialCursor := before
      officialDone := before.isNone
      externalAnchor := some (backwardsAnchor first)
      externalDone := false }

/-- Where a listing without a cursor starts. -/
def startAt (_ : Lists input direction) : HostThreadListCursor :=
  startCursor { input.query with sortDirection := direction }

theorem standsAt_start : lists.StandsAt lists.startAt lists.sorted 0 := by
  refine ⟨rfl, rfl, ?_, .inl ⟨rfl, rfl⟩, Nat.zero_le _⟩
  have all : lists.after none = lists.sorted := filter_eq_self.mpr fun _ _ => rfl
  simp [startAt, startCursor, all]

theorem listExternal (cursor : Option HostThreadListCursor) (limit : Nat)
    (anchor : Option ThreadListExternalAnchor) :
    listExternalThreadMetadata input.toExternalThreadListInput
        (pageQuery input direction cursor limit) anchor =
      .ok ⟨(lists.after anchor).take limit, limit < (lists.after anchor).length⟩ := by
  have supported : ((pageQuery input direction cursor limit).supportsExternal) = true :=
    lists.supported
  have sortKey : (pageQuery input direction cursor limit).sortKey ≠ .sectionPosition := lists.sortKey
  have same : matchingExternalThreads input.toExternalThreadListInput
      (pageQuery input direction cursor limit) = .ok lists.matching := lists.matches_
  simp only [listExternalThreadMetadata, supported, sortKey, same, Bool.not_true, decide_false,
    Bool.or_self, Bool.false_eq_true, if_false, bind, Except.bind, pure, Except.pure]
  rfl

/-- The External rows after the last one of a page are those that the page left. -/
theorem after_last {anchor : Option ThreadListExternalAnchor} {taken rest' : List ThreadListEntry}
    (split : lists.after anchor = taken ++ rest') :
    lists.after ((taken.getLast?.map externalAnchor).or anchor) = rest' := by
  rcases eq_nil_or_concat taken with rfl | ⟨front, last, rfl⟩
  · simpa using split
  · have strict : (lists.after anchor).Pairwise fun a b =>
        After direction (externalAnchor a) b := lists.sorted_after.sublist filter_sublist
    have member : last ∈ lists.after anchor := by
      rw [split]
      simp
    have reached := (isAfterAnchor_iff _ _ _).mp (mem_filter.mp member).2
    have narrow : lists.after (some (externalAnchor last)) =
        (lists.after anchor).filter (isAfterAnchor (some (externalAnchor last)) direction) := by
      rw [after, after, filter_filter]
      apply filter_congr
      intro e _
      rw [Bool.eq_iff_iff, Bool.and_eq_true, isAfterAnchor_iff, isAfterAnchor_iff]
      constructor
      · intro later
        exact ⟨later, fun a given => (reached a given).trans (later _ rfl)⟩
      · exact And.left
    have sorted : (front ++ last :: rest').Pairwise fun a b =>
        isAfterAnchor (some (externalAnchor a)) direction b = true := by
      rw [split, concat_eq_append, append_assoc, singleton_append] at strict
      refine strict.imp fun {a b} order => ?_
      rw [isAfterAnchor_iff]
      rintro _ ⟨⟩
      exact order
    have irrefl : ∀ a : ThreadListEntry, ¬ isAfterAnchor (some (externalAnchor a)) direction a = true := by
      intro a itself
      rw [isAfterAnchor_iff] at itself
      exact After.irrefl direction a (itself _ rfl)
    have trans : ∀ a b c : ThreadListEntry, isAfterAnchor (some (externalAnchor a)) direction b = true →
        isAfterAnchor (some (externalAnchor b)) direction c = true →
        isAfterAnchor (some (externalAnchor a)) direction c = true := by
      intro a b c first second
      rw [isAfterAnchor_iff] at *
      rintro _ ⟨⟩
      exact (first _ rfl).trans (second _ rfl)
    have drop := filter_after irrefl trans sorted
    rw [concat_eq_append, getLast?_append, getLast?_singleton]
    show lists.after (some (externalAnchor last)) = rest'
    rw [narrow, split, concat_eq_append, append_assoc, singleton_append]
    simpa using drop

/-- What is left of the External rows is what is left of the External page and what the page
left out. -/
theorem left_nil_iff {rest taken left rest' : List ThreadListEntry} {limit : Nat}
    (split : rest = taken ++ rest') (page : rest.take limit = taken ++ left) :
    rest' = [] ↔ left = [] ∧ rest.length ≤ limit := by
  have total := congrArg List.length split
  have shown := congrArg List.length page
  simp only [length_append, length_take] at total shown
  rw [← length_eq_zero_iff, ← length_eq_zero_iff]
  omega

variable {cursor : HostThreadListCursor} {rest : List ThreadListEntry} {position limit : Nat}

/-- The input of a call. -/
def call (input : AggregateThreadListInput) (direction : ThreadListSortDirection)
    (given : Option HostThreadListCursor) (limit : Nat) : AggregateThreadListInput :=
  { input with query := pageQuery input direction given limit }

theorem serves (given : Option HostThreadListCursor) (ended : Bool) (positive : 1 ≤ limit)
    (few : lists.ownedCount ≤ 254 * limit) :
    Serves (call input direction given limit) (lists.reading limit position ended positive) direction :=
  ⟨⟨given, rfl⟩, lists.pages, rfl, lists.dated, few⟩

/-- The External page of a call. -/
def externalPage (cursor : HostThreadListCursor) (limit : Nat) : ExternalThreadListPage :=
  if cursor.externalDone then ⟨[], false⟩
  else ⟨(lists.after cursor.externalAnchor).take limit, limit < (lists.after cursor.externalAnchor).length⟩

theorem externalPage_eq (stands : lists.StandsAt cursor rest position) :
    lists.externalPage cursor limit = ⟨rest.take limit, limit < rest.length⟩ := by
  rw [externalPage, stands.external]
  split <;> simp

/-- The loop's variables before the first row. -/
def startFilling (cursor : HostThreadListCursor) (page : ExternalThreadListPage) : PageFilling :=
  { budget := MAX_OFFICIAL_PAGE_REQUESTS
    reader :=
      { officialCursor := cursor.officialCursor
        officialDone := cursor.officialDone
        officialBatchStart := cursor.officialCursor
        officialBatch := none
        officialEntries := []
        officialIndex := 0
        firstOfficialBackwardsCursor := none }
    external := page.data
    output := []
    lastExternalAnchor := cursor.externalAnchor }

theorem startFilling_at (stands : lists.StandsAt cursor rest position) (positive : 1 ≤ limit) :
    FillingAt (lists.reading limit position cursor.officialDone positive)
      (startFilling cursor (lists.externalPage cursor limit)) rest position limit := by
  refine ⟨?_, ?_, limit, le_rfl, ?_⟩
  · have official := stands.official
    cases done : cursor.officialDone with
    | true =>
      rw [done] at official
      exact .done done rfl official (by simp [Reading.Seen, reading, startFilling])
    | false =>
      rw [done] at official
      exact .idle done rfl rfl rfl official stands.bound (by simp [reading, startFilling]) rfl
        (.inr ⟨rfl, rfl⟩)
  · show position ≤ position + _ + 0
    omega
  · simp only [startFilling, lists.externalPage_eq stands]

theorem pageOf_nextCursor {query : DecodedThreadListRequest} {start : HostThreadListCursor}
    {page : ExternalThreadListPage} {state : PageFilling} {officialCursor : Option String}
    {officialDone externalDone : Bool}
    (remaining : (!state.external.isEmpty || page.hasMore ||
      (query.limit = 0 && !start.externalDone)) = !externalDone) :
    (pageOf query start page state officialCursor officialDone).nextCursor =
      if externalDone && officialDone then none
      else some
        { queryFingerprint := query.queryFingerprint
          sortDirection := query.sortDirection
          officialCursor, officialDone
          externalAnchor := state.lastExternalAnchor
          externalDone } := by
  simp only [pageOf, remaining]
  cases externalDone <;> cases officialDone <;> rfl

/-- A call from a cursor within the request bound returns a page of the merged list. -/
theorem aggregate_page (stands : lists.StandsAt cursor rest position) (positive : 1 ≤ limit)
    (few : lists.ownedCount ≤ 254 * limit) {given : Option HostThreadListCursor}
    (start : given.getD lists.startAt = cursor) :
    ∃ page rest' position', aggregateThreadList (call input direction given limit) = .ok page ∧
      lists.IsPage cursor rest position limit page rest' position' := by
  have serves : Serves (call input direction given limit)
      (lists.reading limit position cursor.officialDone positive) direction :=
    lists.serves given cursor.officialDone positive few
  obtain ⟨after, taken, rest', position', ran, filled⟩ :=
    fillPage_spec serves rfl (lists.startFilling_at stands positive) (by
      show 0 + limit ≤ limit
      omega)
  obtain ⟨nextCursor, nextDone, resumed, ended, goes, done⟩ := nextOfficial_spec serves filled.stands
    (filled.seen (.inl positive))
  let page := pageOf (call input direction given limit).query cursor
    (lists.externalPage cursor limit) after nextCursor nextDone
  refine ⟨page, rest', position', ?_, ?_⟩
  · have run : ∀ external, external = lists.externalPage cursor limit → (do
        let state ← fillPage (call input direction given limit) lists.owned limit
          (startFilling cursor external)
        let next ← nextOfficial (call input direction given limit) state.budget state.reader
        return pageOf (call input direction given limit).query cursor external state next.1 next.2) =
          .ok page := by
      rintro _ rfl
      rw [show fillPage (call input direction given limit) lists.owned limit
        (startFilling cursor (lists.externalPage cursor limit)) = .ok after from ran]
      show (nextOfficial (call input direction given limit) after.budget after.reader >>= _) = _
      rw [show nextOfficial (call input direction given limit) after.budget after.reader =
        .ok (nextCursor, nextDone) from resumed]
      rfl
    have begin_ : (call input direction given limit).query.cursor.getD
        (startCursor (call input direction given limit).query) = cursor := start
    have supported : (!(call input direction given limit).query.supportsExternal ||
        decide ((call input direction given limit).query.sortKey = .sectionPosition)) = false := by
      simp [call, pageQuery, lists.supported, lists.sortKey]
    unfold aggregateThreadList
    simp only [supported, Bool.false_eq_true, if_false, begin_]
    split
    · next finished => exact run ⟨[], false⟩ (by rw [externalPage, if_pos finished])
    · next going =>
      have external := lists.listExternal given limit cursor.externalAnchor
      rw [show listExternalThreadMetadata (call input direction given limit).toExternalThreadListInput
        (call input direction given limit).query cursor.externalAnchor = _ from external]
      exact run _ (by rw [externalPage, if_neg going])
  · have shown : rest.take limit = taken ++ after.external := by
      rw [← filled.external, startFilling, lists.externalPage_eq stands]
    have output : after.output = (lists.merged rest position).take limit := filled.page
    have left : lists.merged rest' position' = (lists.merged rest position).drop limit := filled.left
    have remaining : (!after.external.isEmpty || (lists.externalPage cursor limit).hasMore ||
        (limit = 0 && !cursor.externalDone)) = !decide (rest' = []) := by
      have nil := left_nil_iff filled.split shown
      have apart : limit ≠ 0 := by omega
      rw [Bool.eq_iff_iff]
      simp only [lists.externalPage_eq stands, Bool.or_eq_true, Bool.not_eq_true',
        isEmpty_eq_false_iff, decide_eq_true_eq, Bool.and_eq_true, apart, false_and, or_false,
        decide_eq_false_iff_not, nil, not_and_or, Nat.not_le]
    have finished : position' = lists.rows.length → lists.official position' = [] := by
      rintro rfl
      rw [official, drop_length]
      rfl
    let goesOn : HostThreadListCursor :=
      { queryFingerprint := input.query.queryFingerprint
        sortDirection := direction
        officialCursor := nextCursor
        officialDone := nextDone
        externalAnchor := after.lastExternalAnchor
        externalDone := decide (rest' = []) }
    have next : page.nextCursor = if decide (rest' = []) && nextDone then none else some goesOn :=
      pageOf_nextCursor remaining
    refine ⟨by rw [← output]; rfl, left, ?_, ?_, ?_⟩
    · intro last
      rw [next] at last
      split at last
      · next past =>
        rw [Bool.and_eq_true, decide_eq_true_eq] at past
        simp [merged, mergeRows, past.1, finished (ended past.2)]
      · cases last
    · intro following continued
      rw [next] at continued
      split at continued
      · cases continued
      · next more =>
        cases continued
        rw [Bool.and_eq_true, decide_eq_true_eq] at more
        refine ⟨⟨rfl, rfl, ?_, ?_, ?_⟩, ?_, ?_⟩
        · show rest' = if decide (rest' = []) = true then [] else lists.after after.lastExternalAnchor
          split
          · next past => exact of_decide_eq_true past
          · next left' =>
            have split := filled.split
            rw [stands.external] at split
            split at split
            · have none : rest' = [] := (append_eq_nil_iff.mp split.symm).2
              rw [none] at left'
              exact absurd rfl left'
            · rw [filled.anchor]
              exact (lists.after_last split).symm
        · show if nextDone then _ else _
          cases nextDone with
          | true => exact ended rfl
          | false => exact (goes rfl).1
        · cases nextDone with
          | true => exact (ended rfl).le
          | false => exact (goes rfl).2.le
        · -- A page that is not full has used up both lists.
          by_contra short
          have full := done (filled.stop (by
            show (lists.merged rest position).length < limit
            omega))
          have past : lists.merged rest' position' = [] := by
            rw [left, drop_eq_nil_of_le (by omega)]
          have none : rest' = [] := by
            have size := congrArg List.length past
            rw [merged, mergeRows, length_merge, length_nil] at size
            exact length_eq_zero_iff.mp (by omega)
          exact more ⟨none, full⟩
        · exact fun going => (goes going).2
    · have first : after.output.head? = (lists.merged rest position).head? := by
        rw [output, head?_take, if_neg (by omega)]
      have seen : after.reader.firstOfficialBackwardsCursor.join =
          if cursor.officialDone then none else lists.back position limit := by
        have kept : after.reader.firstOfficialBackwardsCursor =
            if cursor.officialDone then none else some (lists.back position limit) :=
          filled.seen (.inl positive)
        rw [kept]
        split <;> rfl
      show after.output.head?.map _ = _
      rw [first]
      simp only [seen]
      rfl

/-- A request with a cursor of this list, or without one, returns a page of the merged list. -/
theorem listThreads_page {given : Option HostThreadListCursor}
    (stands : lists.StandsAt (given.getD lists.startAt) rest position) (positive : 1 ≤ limit)
    (few : lists.ownedCount ≤ 254 * limit) :
    ∃ page rest' position', listThreads input direction given limit = .ok page ∧
      lists.IsPage (given.getD lists.startAt) rest position limit page rest' position' := by
  obtain ⟨page, rest', position', ran, isPage⟩ :=
    lists.aggregate_page stands positive few (show given.getD lists.startAt = _ from rfl)
  refine ⟨page, rest', position', ?_, isPage⟩
  cases given with
  | none => exact ran
  | some cursor =>
    have fits : decodeHostThreadListCursor (pageQuery input direction none limit) cursor = .ok cursor := by
      have fingerprint : cursor.queryFingerprint = input.query.queryFingerprint := stands.fingerprint
      have sameDirection : cursor.sortDirection = direction := stands.sameDirection
      simp [decodeHostThreadListCursor, pageQuery, fingerprint, sameDirection]
    show ((some <$> decodeHostThreadListCursor (pageQuery input direction none limit) cursor) >>= _) = _
    rw [fits]
    exact ran

end Lists

end CodexHost.Guarantees.ThreadList
