import CodexHost.Guarantees.SessionTrees
import CodexHost.Guarantees.ThreadListPage

/-!
# Forward pagination of the Thread list

Following `nextCursor` from the first page to the last concatenates to the merge of the
External rows with the official rows of other Threads, whatever the limits of the calls.
-/
namespace CodexHost.Guarantees.ThreadList
open Foundation Source.SharedContracts Source.MappingStore OrderedMap List
open Source.ProtocolCore Source.HostRuntime

section SessionTrees
variable {records : List StoredThreadRecordV1}

/-- No stored Thread is its own ancestor through subagents and Forks: each lies deeper than
the one it comes from. -/
def Acyclic (records : List StoredThreadRecordV1) : Prop :=
  ∃ depth : String → Nat, ∀ record ∈ records, ∀ source,
    sessionTreeSource (recordsById records) record = some source →
      depth source.hostThreadId < depth record.hostThreadId

/-- Every record gets the ID of its Session tree. -/
theorem resolveExternalSessionTreeIds_ok (distinct : Distinct records) (acyclic : Acyclic records) :
    ∃ ids, resolveExternalSessionTreeIds records = .ok ids ∧
      ∀ record ∈ records, ids.has record.hostThreadId = true := by
  obtain ⟨depth, deeper⟩ := acyclic
  cases ran : resolveExternalSessionTreeIds records with
  | ok ids => exact ⟨ids, rfl, (resolved_spec distinct ran).2⟩
  | error message =>
    have all := resolveExternalSessionTreeIds_spec distinct
    rw [ran] at all
    obtain ⟨-, record, -, endless⟩ := all
    refine absurd endless (not_endless_of_lowered (fun record => depth record.hostThreadId) fun a b link => ?_)
    exact deeper a link.1 b ((sessionTreeSource_iff distinct link.1).mpr link)

end SessionTrees

section Matching
variable {input : AggregateThreadListInput}

/-- What is given of the External Threads. -/
structure ExternalThreads (input : AggregateThreadListInput) : Prop where
  distinct : (input.records.map (·.hostThreadId)).Nodup
  stable : ∀ record ∈ input.records, record.hostThreadId ≠ ""
  acyclic : Acyclic input.records
  sharedDistinct : (input.sharedThreads.map (·.id)).Nodup
  sharedDated : ∀ thread ∈ input.sharedThreads, HasTimestamp input.query.sortKey thread

/-- The IDs of the External Threads that match the query. -/
def matchingExternalIds (input : AggregateThreadListInput) : List String :=
  let shared := input.sharedThreads.map (·.id)
  ((input.records.filter (matchesQuery input.toExternalThreadListInput input.query)).map
    (·.hostThreadId)).filter (· ∉ shared) ++ shared

theorem mapM_forall₂ {α β : Type} (f : α → Except String β) (related : α → β → Prop)
    {list : List α} (ok : ∀ a ∈ list, ∃ b, f a = .ok b ∧ related a b) :
    ∃ results, list.mapM f = .ok results ∧ List.Forall₂ related list results := by
  induction list with
  | nil => exact ⟨[], rfl, .nil⟩
  | cons a rest ih =>
    obtain ⟨b, first, here⟩ := ok a mem_cons_self
    obtain ⟨results, others, all⟩ := ih fun c member => ok c (mem_cons_of_mem a member)
    refine ⟨b :: results, ?_, .cons here all⟩
    rw [mapM_cons, first]
    show (rest.mapM f >>= _) = _
    rw [others]
    rfl

/-- The entry is the External row of this ID. -/
def IsExternal (id : String) (entry : ThreadListEntry) : Prop :=
  entry.source = .external ∧ entry.thread.id = id

theorem isExternal_all {α : Type} {idOf : α → String} {list : List α} {entries : List ThreadListEntry}
    (all : List.Forall₂ (fun a entry => IsExternal (idOf a) entry) list entries) :
    (∀ entry ∈ entries, entry.source = .external) ∧ entries.map (·.thread.id) = list.map idOf := by
  induction all with
  | nil => simp
  | cons here _ ih =>
    obtain ⟨sources, ids⟩ := ih
    refine ⟨?_, by rw [map_cons, map_cons, here.2, ids]⟩
    intro entry member
    rcases mem_cons.mp member with rfl | later
    · exact here.1
    · exact sources entry later

section
variable (threads : ExternalThreads input)
include threads

theorem externalThreadListEntries_ok :
    ∃ entries, externalThreadListEntries input.toExternalThreadListInput input.query = .ok entries ∧
      (∀ entry ∈ entries, entry.source = .external) ∧
      entries.map (·.thread.id) =
        (input.records.filter (matchesQuery input.toExternalThreadListInput input.query)).map
          (·.hostThreadId) := by
  obtain ⟨ids, resolved, known⟩ := resolveExternalSessionTreeIds_ok threads.distinct threads.acyclic
  obtain ⟨entries, ran, all⟩ := mapM_forall₂
    (externalThreadListEntry input.toExternalThreadListInput input.query ids)
    (fun record entry => IsExternal record.hostThreadId entry) (by
      intro record (member : record ∈ input.records.filter
        (matchesQuery input.toExternalThreadListInput input.query))
      have here := (mem_filter.mp member).1
      obtain ⟨sessionId, found⟩ := (has_iff _ _).mp (known record here)
      have stable := threads.stable record here
      simp only [externalThreadListEntry, found, dif_pos stable]
      exact ⟨_, rfl, rfl, rfl⟩)
  refine ⟨entries, ?_, isExternal_all all⟩
  simp only [externalThreadListEntries, resolved, bind, Except.bind]
  exact ran

theorem sharedThreadListEntries_ok :
    ∃ entries, input.sharedThreads.mapM (sharedThreadListEntry input.query.sortKey) = .ok entries ∧
      (∀ entry ∈ entries, entry.source = .external) ∧
      entries.map (·.thread.id) = input.sharedThreads.map (·.id) := by
  obtain ⟨entries, ran, all⟩ := mapM_forall₂ (sharedThreadListEntry input.query.sortKey)
    (fun thread entry => IsExternal thread.id entry) (by
      intro thread (member : thread ∈ input.sharedThreads)
      obtain ⟨timestamp, valid⟩ := threads.sharedDated thread member
      refine ⟨⟨.external, thread, timestamp⟩, ?_, rfl, rfl⟩
      simp only [sharedThreadListEntry, valid]
      rfl)
  exact ⟨entries, ran, isExternal_all all⟩

/-- The External rows of the query are those of the matching Threads, each once. -/
theorem matchingExternalThreads_ok :
    ∃ matching, matchingExternalThreads input.toExternalThreadListInput input.query = .ok matching ∧
      (∀ entry ∈ matching, entry.source = .external) ∧
      matching.map (·.thread.id) = matchingExternalIds input := by
  obtain ⟨shared, sharedRan, sharedExternal, sharedIds⟩ := sharedThreadListEntries_ok threads
  obtain ⟨stored, storedRan, storedExternal, storedIds⟩ := externalThreadListEntries_ok threads
  refine ⟨stored.filter (fun entry => entry.thread.id ∉ shared.map (·.thread.id)) ++ shared,
    ?_, ?_, ?_⟩
  · simp only [matchingExternalThreads, sharedRan, storedRan, bind, Except.bind, pure, Except.pure]
  · intro entry member
    rcases mem_append.mp member with here | here
    · exact storedExternal entry (mem_filter.mp here).1
    · exact sharedExternal entry here
  · rw [map_append, sharedIds, matchingExternalIds, ← storedIds, filter_map]
    rfl

theorem matchingExternalIds_nodup : (matchingExternalIds input).Nodup := by
  have stored : ((input.records.filter
      (matchesQuery input.toExternalThreadListInput input.query)).map (·.hostThreadId)).Nodup :=
    threads.distinct.sublist (filter_sublist.map _)
  refine nodup_append.mpr ⟨stored.filter _, threads.sharedDistinct, ?_⟩
  rintro _ here _ there rfl
  exact absurd there (by simpa using (mem_filter.mp here).2)

end

end Matching

/-- The rows of at most this many calls: the first without a cursor or with the given one, each
later one with the next cursor of the call before, until there is none. -/
def followPages (input : AggregateThreadListInput) (direction : ThreadListSortDirection) :
    Nat → (Nat → Nat) → Option HostThreadListCursor → Except String (List Thread)
  | 0, _, _ => .error "More pages follow"
  | calls + 1, limits, cursor => do
    let page ← listThreads input direction cursor (limits 0)
    match page.nextCursor with
    | none => return page.data
    | some next => return page.data ++ (← followPages input direction calls (limits <| · + 1) next)

/-- The rows of the official list in this direction, listed by exact cursors. -/
structure OfficialRows (input : AggregateThreadListInput) (direction : ThreadListSortDirection) where
  rows : List Thread
  place : Nat → String
  back : Nat → Nat → Option String
  pages : PagesExactly input direction rows place back
  dated : ∀ row ∈ rows, HasTimestamp input.query.sortKey row

/-- The rows of the official list that are of External Threads. -/
def OfficialRows.ownedCount {input : AggregateThreadListInput} {direction : ThreadListSortDirection}
    (official : OfficialRows input direction) : Nat :=
  official.rows.countP fun row => isExternalId input.toExternalThreadListInput row.id

/-- The entries of the official rows that are not of External Threads. -/
def OfficialRows.entries {input : AggregateThreadListInput} {direction : ThreadListSortDirection}
    (official : OfficialRows input direction) : List ThreadListEntry :=
  (official.rows.filter fun row => !isExternalId input.toExternalThreadListInput row.id).map
    (officialEntry input.query.sortKey)

namespace Lists
variable {input : AggregateThreadListInput} {direction : ThreadListSortDirection}
  (lists : Lists input direction)

/-- Every call but the last gives a row, so there are enough of them. -/
theorem followPages_ok (calls : Nat) :
    ∀ (limits : Nat → Nat) (given : Option HostThreadListCursor) (rest : List ThreadListEntry)
      (position : Nat), (∀ n, 1 ≤ limits n) → (∀ n, lists.ownedCount ≤ 254 * limits n) →
      lists.StandsAt (given.getD lists.startAt) rest position →
      (lists.merged rest position).length < calls →
      followPages input direction calls limits given = .ok ((lists.merged rest position).map (·.thread)) := by
  induction calls with
  | zero =>
    intro limits given rest position positive few stands enough
    omega
  | succ calls ih =>
    intro limits given rest position positive few stands enough
    obtain ⟨page, rest', position', ran, isPage⟩ :=
      lists.listThreads_page stands (positive 0) (few 0)
    have all : (lists.merged rest position).map (·.thread) =
        page.data ++ (lists.merged rest' position').map (·.thread) := by
      rw [isPage.data, isPage.left, ← map_append, take_append_drop]
    rw [followPages, ran, all]
    cases next : page.nextCursor with
    | none =>
      rw [isPage.last next, map_nil, append_nil]
      simp only [bind, Except.bind, next]
      rfl
    | some following =>
      obtain ⟨stands', full, -⟩ := isPage.next following next
      have shorter : (lists.merged rest' position').length < calls := by
        have one := positive 0
        rw [isPage.left, length_drop]
        omega
      have others := ih (fun n => limits (n + 1)) (some following) rest' position'
        (fun n => positive (n + 1)) (fun n => few (n + 1)) stands' shorter
      simp only [bind, Except.bind, next, others]
      rfl

end Lists

section Forward
variable {input : AggregateThreadListInput} {direction : ThreadListSortDirection}

/-- The list that `matchingExternalThreads` and the official rows make up. -/
def OfficialRows.lists (official : OfficialRows input direction) (threads : ExternalThreads input)
    (supported : input.query.supportsExternal = true)
    (sortKey : input.query.sortKey ≠ .sectionPosition) {matching : List ThreadListEntry}
    (matches_ : matchingExternalThreads input.toExternalThreadListInput input.query = .ok matching)
    (external : ∀ entry ∈ matching, entry.source = .external)
    (ids : matching.map (·.thread.id) = matchingExternalIds input) : Lists input direction :=
  { matching, rows := official.rows, place := official.place, back := official.back
    supported, sortKey, matches_, external
    distinct := ids ▸ matchingExternalIds_nodup threads
    pages := official.pages, dated := official.dated }

/-- Following the next cursors lists every matching row once, in the merged order. -/
def ListsForward (input : AggregateThreadListInput) (direction : ThreadListSortDirection)
    (official : OfficialRows input direction) (limits : Nat → Nat) : Prop :=
  ∃ (matching entries : List ThreadListEntry) (calls : Nat),
    matchingExternalThreads input.toExternalThreadListInput input.query = .ok matching ∧
    matching.map (·.thread.id) = matchingExternalIds input ∧
    followPages input direction calls limits none = .ok (entries.map (·.thread)) ∧
    entries.Perm (matching ++ official.entries) ∧
    entries.Pairwise (fun a b => compareThreadListEntries a b direction ≤ 0) ∧
    entries.filter (·.source = .official) = official.entries

end Forward

section Crowded
variable {input : AggregateThreadListInput} {direction : ThreadListSortDirection}

/-- A call that has to pass over more rows of External Threads than its requests can bring
fails. -/
theorem ensureOfficial_exceeds (official : OfficialRows input direction) {owned : String → Bool}
    {limit : Nat} (positive : 1 ≤ limit)
    (query : ∃ cursor, input.query = pageQuery input direction cursor limit)
    (all : ∀ row ∈ official.rows, owned row.id = true) (budget : Nat) :
    ∀ (reader : OfficialReader) (position : Nat), reader.officialDone = false →
      reader.officialBatch = none → reader.officialEntries = [] → reader.officialIndex = 0 →
      Addresses official.place reader.officialCursor position →
      position + budget * limit < official.rows.length →
      ∃ message, ensureOfficial input owned budget reader = .error message := by
  induction budget with
  | zero =>
    intro reader position going batch empty start cursor long
    have still : reader.finishBatch = reader := by
      rw [OfficialReader.finishBatch, batch]
    unfold ensureOfficial
    simp [passOwned_of_empty empty, going, empty, start, still]
  | succ budget ih =>
    intro reader position going batch empty start cursor long
    have still : reader.finishBatch = reader := by
      rw [OfficialReader.finishBatch, batch]
    obtain ⟨hostCursor, query⟩ := query
    let page : OfficialPage := ⟨(official.rows.drop position).take limit,
      cursorAt official.rows official.place (position + limit), official.back position limit⟩
    let entries := page.data.map (officialEntry input.query.sortKey)
    have spent : (budget + 1) * limit = budget * limit + limit := Nat.succ_mul budget limit
    have size : entries.length = limit := by
      simp only [entries, page, length_map, length_take, length_drop]
      omega
    have answer : input.requestOfficialPage ⟨input.query, reader.officialCursor,
        max 1 input.query.limit⟩ = .ok page := by
      rw [show input.query.limit = limit by rw [query]; rfl, Nat.max_eq_right positive, query]
      exact official.pages hostCursor limit _ position limit cursor (by omega) positive
    have decoded : page.data.mapM (officialThreadListEntry input.query.sortKey) = .ok entries := by
      apply mapM_ok
      intro row member
      exact officialThreadListEntry_ok (official.dated row (drop_subset _ _ (take_subset _ _ member)))
    have nonempty : entries ≠ [] := by
      intro none
      rw [none] at size
      simp at size
      omega
    let started := reader.startBatch page entries
    have passed : ∀ entry ∈ entries, owned entry.thread.id = true := by
      intro entry member
      obtain ⟨row, here, rfl⟩ := mem_map.mp member
      exact all row (drop_subset _ _ (take_subset _ _ here))
    have index : (started.passOwned owned).officialIndex = limit := by
      show 0 + ((entries.drop 0).takeWhile fun entry => owned entry.thread.id).length = limit
      rw [drop_zero, takeWhile_eq_self_iff.mpr passed, size, Nat.zero_add]
    have more : page.nextCursor = some (official.place (position + limit)) := by
      simp only [page, cursorAt]
      rw [if_pos (by omega)]
    have finished : ensureOfficial input owned budget started =
        ensureOfficial input owned budget (started.passOwned owned).finishBatch :=
      ensureOfficial_finish going (by
        rw [index]
        show ¬ limit < entries.length
        omega) rfl rfl rfl
    obtain ⟨message, failed⟩ := ih (started.passOwned owned).finishBatch (position + limit) (by
        show page.nextCursor.isNone = false
        rw [more]
        rfl) rfl rfl rfl (.inr more) (by omega)
    refine ⟨message, ?_⟩
    unfold ensureOfficial
    simp only [passOwned_of_empty empty, going, empty, start, still, length_nil, Nat.lt_irrefl,
      Bool.false_eq_true, if_false, answer, decoded, bind, Except.bind, nonempty]
    exact finished.trans failed

/-- The first call fails when the official list begins with too many rows of External Threads. -/
theorem listThreads_exceeds (official : OfficialRows input direction)
    (supported : input.query.supportsExternal = true)
    (sortKey : input.query.sortKey ≠ .sectionPosition)
    (all : ∀ row ∈ official.rows, isExternalId input.toExternalThreadListInput row.id = true)
    {limit : Nat} (positive : 1 ≤ limit)
    (long : MAX_OFFICIAL_PAGE_REQUESTS * limit < official.rows.length) :
    ∃ message, listThreads input direction none limit = .error message := by
  let here : AggregateThreadListInput := { input with query := pageQuery input direction none limit }
  let start := startCursor here.query
  have ran : listThreads input direction none limit = aggregateThreadList here := rfl
  let official' : OfficialRows here direction :=
    { rows := official.rows, place := official.place, back := official.back
      pages := official.pages, dated := official.dated }
  have exceeds : ∀ external, ∃ message, fillPage here (isExternalId input.toExternalThreadListInput)
      limit (Lists.startFilling start external) = .error message := by
    intro external
    obtain ⟨room, rfl⟩ : ∃ room, limit = room + 1 := ⟨limit - 1, by omega⟩
    obtain ⟨message, failed⟩ := ensureOfficial_exceeds official' positive ⟨none, rfl⟩ all
      MAX_OFFICIAL_PAGE_REQUESTS (Lists.startFilling start external).reader 0 rfl rfl rfl rfl
      (.inl ⟨rfl, rfl⟩) (by rwa [Nat.zero_add])
    refine ⟨message, ?_⟩
    unfold fillPage
    show (ensureOfficial here _ MAX_OFFICIAL_PAGE_REQUESTS
      (Lists.startFilling start external).reader >>= _) = _
    rw [failed]
    rfl
  have afterPage : ∀ external, ∃ message, (do
      let state ← fillPage here (isExternalId input.toExternalThreadListInput) limit
        (Lists.startFilling start external)
      let next ← nextOfficial here state.budget state.reader
      return pageOf here.query start external state next.1 next.2) = .error message := by
    intro external
    obtain ⟨message, failed⟩ := exceeds external
    refine ⟨message, ?_⟩
    rw [failed]
    rfl
  rw [ran]
  unfold aggregateThreadList
  simp only [show here.query.supportsExternal = true from supported,
    show ¬ here.query.sortKey = .sectionPosition from sortKey, Bool.not_true, decide_false,
    Bool.or_self, Bool.false_eq_true, if_false]
  show ∃ message, (listExternalThreadMetadata here.toExternalThreadListInput here.query
    start.externalAnchor >>= _) = .error message
  cases listExternalThreadMetadata here.toExternalThreadListInput here.query start.externalAnchor with
  | error message => exact ⟨message, rfl⟩
  | ok external => exact afterPage external

end Crowded

/-- A cursor as a run of letters, one for each row before it. -/
def unaryCursor (index : Nat) : String := String.ofList (List.replicate index 'i')

/-- An official source that lists these rows in each direction, with the cursor back to the rows
before a page. -/
def unarySource (rows : ThreadListSortDirection → List Thread) (params : OfficialThreadListParams) :
    Except String OfficialPage :=
  let list := rows params.query.sortDirection
  let index := params.cursor.elim 0 String.length
  .ok ⟨(list.drop index).take params.limit, cursorAt list unaryCursor (index + params.limit),
    if index < list.length then some (unaryCursor (list.length - index)) else none⟩

theorem unarySource_pages {input : AggregateThreadListInput}
    (rows : ThreadListSortDirection → List Thread) (direction : ThreadListSortDirection)
    (source : input.requestOfficialPage = unarySource rows) :
    PagesExactly input direction (rows direction) unaryCursor fun index _ =>
      if index < (rows direction).length then some (unaryCursor ((rows direction).length - index))
      else none := by
  intro hostCursor hostLimit cursor index limit addresses _ _
  have found : cursor.elim 0 String.length = index := by
    rcases addresses with ⟨rfl, rfl⟩ | rfl
    · rfl
    · simp [unaryCursor]
  rw [source]
  simp only [unarySource, found]
  rfl

def sampleQuery : DecodedThreadListRequest :=
  { archived := false, cwd := none, isPinned := none, limit := 1, modelProviders := none
    parentThreadId := none, ancestorThreadId := none, projectId := none, searchTerm := none
    sectionId := none, sortDirection := .desc, sortKey := .updatedAt, sourceKinds := none
    queryFingerprint := "query", cursor := none, supportsExternal := true }

def sampleRow (id : String) (updatedAt : Int) (stable : id ≠ "") : Thread :=
  { id, createdAt := .integer 0, updatedAt := .integer updatedAt, recencyAt := .absent
    rest := .given "", stable }

def sampleInput (records : List StoredThreadRecordV1)
    (rows : ThreadListSortDirection → List Thread) : AggregateThreadListInput :=
  { records, sharedThreads := [], runtimeFor := fun _ => none, placementOf := fun _ => none
    toLowerCase := id, query := sampleQuery, requestOfficialPage := unarySource rows }

/-- An official list whose rows are all dated. -/
def sampleOfficial (records : List StoredThreadRecordV1) (rows : ThreadListSortDirection → List Thread)
    (dated : ∀ direction, ∀ row ∈ rows direction, HasTimestamp .updatedAt row)
    (direction : ThreadListSortDirection) :
    OfficialRows (sampleInput records rows) direction :=
  { rows := rows direction, place := unaryCursor, back := _
    pages := unarySource_pages rows direction rfl
    dated := dated direction }

theorem sampleRow_dated (id : String) (stable : id ≠ "") :
    HasTimestamp .updatedAt (sampleRow id 7 stable) := ⟨7, rfl⟩

/-- A failing first call lists nothing. -/
theorem not_listsForward {input : AggregateThreadListInput} {direction : ThreadListSortDirection}
    {official : OfficialRows input direction} {limits : Nat → Nat} {message : String}
    (failed : listThreads input direction none (limits 0) = .error message) :
    ¬ ListsForward input direction official limits := by
  rintro ⟨matching, entries, calls, -, -, followed, -⟩
  cases calls with
  | zero => cases followed
  | succ calls =>
    rw [followPages, failed] at followed
    cases followed

/-- A stored Thread and its Fork. -/
def forkPair : List StoredThreadRecordV1 :=
  [sampleRecord "a" 7000 none, sampleRecord "b" 7000 (some ⟨"a", "turn"⟩)]

def pairRows : List Thread := [sampleRow "o" 7 (by decide), sampleRow "a" 7 (by decide)]

theorem pairRows_dated : ∀ row ∈ pairRows, HasTimestamp .updatedAt row := by
  intro row member
  simp only [pairRows, mem_cons, not_mem_nil, or_false] at member
  rcases member with rfl | rfl <;> exact sampleRow_dated _ _

theorem forkPair_acyclic : Acyclic forkPair := by
  refine ⟨fun id => if id = "a" then 0 else 1, ?_⟩
  intro record member source next
  simp only [forkPair, mem_cons, not_mem_nil, or_false] at member
  rcases member with rfl | rfl
  · cases next
  · have root : sessionTreeSource (recordsById forkPair)
        (sampleRecord "b" 7000 (some ⟨"a", "turn"⟩)) = some (sampleRecord "a" 7000 none) := by decide
    have same : source = sampleRecord "a" 7000 none := by
      rw [← Option.some.injEq, ← root]
      exact next.symm
    rw [same]
    decide

def pairInput : AggregateThreadListInput := sampleInput forkPair fun _ => pairRows

theorem pairInput_threads : ExternalThreads pairInput :=
  ⟨by decide, by decide, forkPair_acyclic, by decide, by simp [pairInput, sampleInput]⟩

/-- Two stored Threads that are Forks of each other. -/
def forkCycle : List StoredThreadRecordV1 :=
  [sampleRecord "a" 0 (some ⟨"b", "turn"⟩), sampleRecord "b" 0 (some ⟨"a", "turn"⟩)]

/-- 257 stored Threads, which the official list shows too. -/
def crowd : List StoredThreadRecordV1 :=
  (List.range 257).map fun n => sampleRecord (unaryCursor (n + 1)) 0 none

theorem unaryCursor_stable (n : Nat) : unaryCursor (n + 1) ≠ "" := by
  intro none
  have length := congrArg String.length none
  simp [unaryCursor] at length

def crowdRows : List Thread :=
  (List.range 257).map fun n => sampleRow (unaryCursor (n + 1)) 7 (unaryCursor_stable n)

theorem crowdRows_dated : ∀ row ∈ crowdRows, HasTimestamp .updatedAt row := by
  intro row member
  obtain ⟨n, -, rfl⟩ := mem_map.mp member
  exact sampleRow_dated _ _

def crowdOfficial : OfficialRows (sampleInput crowd fun _ => crowdRows) .desc :=
  sampleOfficial crowd (fun _ => crowdRows) (fun _ => crowdRows_dated) .desc

theorem crowd_fails : ∃ message,
    listThreads (sampleInput crowd fun _ => crowdRows) .desc none 1 = .error message := by
  refine listThreads_exceeds crowdOfficial rfl (by decide) ?_ le_rfl ?_
  · intro row member
    obtain ⟨n, here, rfl⟩ := mem_map.mp member
    have known : sampleRecord (unaryCursor (n + 1)) 0 none ∈ crowd := mem_map.mpr ⟨n, here, rfl⟩
    rw [isExternalId, Bool.or_eq_true, any_eq_true]
    exact .inl ⟨_, known, by simp [sampleRecord, sampleRow]⟩
  · show 256 * 1 < crowdRows.length
    rw [crowdRows, length_map, length_range]
    decide

end CodexHost.Guarantees.ThreadList
