import CodexHost.Source.HostRuntime.ThreadListAggregator

/-!
# Reading the official list batch by batch

Over a source that pages by exact cursors, the reader of a call stands at a position of the
official list: before a batch, inside one, or at the end. `ensureOfficial` moves it over the
rows of owned Threads and gives the row it then stands at; each request but the first pays for
itself with the rows of the batch before.
-/
namespace CodexHost.Guarantees.ThreadList
open Source.ProtocolCore Source.HostRuntime List OfficialReader Nat

/-- The query of a call. -/
def pageQuery (input : AggregateThreadListInput) (direction : ThreadListSortDirection)
    (cursor : Option HostThreadListCursor) (limit : Nat) : DecodedThreadListRequest :=
  { input.query with limit, sortDirection := direction, cursor }

/-- The cursor stands for the index; none stands for the first. -/
def Addresses (place : Nat → String) (cursor : Option String) (index : Nat) : Prop :=
  (cursor = none ∧ index = 0) ∨ cursor = some (place index)

/-- The cursor that a page of `rows` up to `index` continues with. -/
def cursorAt (rows : List Thread) (place : Nat → String) (index : Nat) : Option String :=
  if index < rows.length then some (place index) else none

/-- In this direction the source lists `rows` by exact cursors. `back` gives the backwards
cursors. -/
def PagesExactly (input : AggregateThreadListInput) (direction : ThreadListSortDirection)
    (rows : List Thread) (place : Nat → String) (back : Nat → Nat → Option String) : Prop :=
  ∀ hostCursor hostLimit cursor index limit, Addresses place cursor index → index ≤ rows.length → 1 ≤ limit →
    input.requestOfficialPage ⟨pageQuery input direction hostCursor hostLimit, cursor, limit⟩ =
      .ok ⟨(rows.drop index).take limit, cursorAt rows place (index + limit), back index limit⟩

/-- The entry of an official row with a valid timestamp. -/
def officialEntry (sortKey : ThreadListSortKey) (row : Thread) : ThreadListEntry :=
  ⟨.official, row, (threadListTimestamp row sortKey).toOption.getD 0⟩

/-- The row has the timestamp that the list is sorted by. -/
def HasTimestamp (sortKey : ThreadListSortKey) (row : Thread) : Prop :=
  ∃ timestamp, threadListTimestamp row sortKey = .ok timestamp

theorem officialThreadListEntry_ok {sortKey : ThreadListSortKey} {row : Thread}
    (dated : HasTimestamp sortKey row) :
    officialThreadListEntry sortKey row = .ok (officialEntry sortKey row) := by
  obtain ⟨timestamp, valid⟩ := dated
  simp only [officialThreadListEntry, officialEntry, valid]
  rfl

theorem mapM_ok {α β : Type} {f : α → Except String β} {g : α → β} {list : List α}
    (ok : ∀ a ∈ list, f a = .ok (g a)) : list.mapM f = .ok (list.map g) := by
  induction list with
  | nil => rfl
  | cons a rest ih =>
    rw [mapM_cons, ok a mem_cons_self, ih fun b member => ok b (mem_cons_of_mem a member)]
    rfl

/-- The rows that a call reads: the list, and where it began. -/
structure Reading where
  rows : List Thread
  place : Nat → String
  back : Nat → Nat → Option String
  owned : String → Bool
  sortKey : ThreadListSortKey
  /-- The limit of the call. -/
  limit : Nat
  /-- The position at which the call began. -/
  origin : Nat
  /-- The call began with the official list done. -/
  ended : Bool
  positive : 1 ≤ limit

namespace Reading
variable (r : Reading)

/-- The rows of owned Threads before a position. -/
def ownedBefore (position : Nat) : Nat := (r.rows.take position).countP fun row => r.owned row.id

/-- The entries that are still to come from a position on. -/
def remaining (position : Nat) : List ThreadListEntry :=
  ((r.rows.drop position).filter fun row => !r.owned row.id).map (officialEntry r.sortKey)

/-- The reader keeps the backwards cursor of the first page, unless the list was done. -/
def Seen (reader : OfficialReader) : Prop :=
  reader.firstOfficialBackwardsCursor =
    if r.ended then none else some (r.back r.origin r.limit)

/-- The reader has this budget left and stands before the row at this position. -/
inductive At (budget : Nat) (reader : OfficialReader) (position : Nat) : Prop where
  | done (finished : reader.officialDone = true) (empty : reader.officialEntries = [])
      (ended : position = r.rows.length) (first : r.Seen reader)
  | idle (going : reader.officialDone = false) (batch : reader.officialBatch = none)
      (empty : reader.officialEntries = []) (start : reader.officialIndex = 0)
      (cursor : Addresses r.place reader.officialCursor position)
      (bound : position ≤ r.rows.length)
      (paid : r.origin + (MAX_OFFICIAL_PAGE_REQUESTS - budget) * r.limit ≤ position)
      (began : r.ended = false)
      (first : (r.Seen reader ∧ position < r.rows.length) ∨
        (reader.firstOfficialBackwardsCursor = none ∧ position = r.origin))
  | reading (from_ : Nat) (page : OfficialPage) (going : reader.officialDone = false)
      (batch : reader.officialBatch = some page)
      (next : page.nextCursor = cursorAt r.rows r.place (from_ + r.limit))
      (entries : reader.officialEntries = ((r.rows.drop from_).take r.limit).map (officialEntry r.sortKey))
      (cursor : Addresses r.place reader.officialBatchStart from_) (bound : from_ < r.rows.length)
      (inside : reader.officialIndex ≤ reader.officialEntries.length)
      (stands : position = from_ + reader.officialIndex)
      (paid : r.origin + (MAX_OFFICIAL_PAGE_REQUESTS - budget) * r.limit ≤ from_ + r.limit)
      (left : 1 ≤ budget) (began : r.ended = false) (first : r.Seen reader)

/-- So far as many rows were read as are accounted for by owned rows and by output. -/
def Accounted (position output : Nat) : Prop :=
  position ≤ r.origin + r.ownedBefore position + output

theorem ownedBefore_le (position : Nat) : r.ownedBefore position ≤ r.rows.countP fun row => r.owned row.id :=
  (take_sublist position r.rows).countP_le

theorem ownedBefore_mono {position later : Nat} (le : position ≤ later) :
    r.ownedBefore position ≤ r.ownedBefore later :=
  (take_sublist_take_left le).countP_le

/-- Passing over owned rows. -/
theorem skip_owned (position k : Nat) (fits : position + k ≤ r.rows.length)
    (owned : ∀ row ∈ (r.rows.drop position).take k, r.owned row.id = true) :
    r.remaining (position + k) = r.remaining position ∧
      r.ownedBefore (position + k) = r.ownedBefore position + k := by
  have split : r.rows.drop position = (r.rows.drop position).take k ++ r.rows.drop (position + k) := by
    rw [← drop_drop, take_append_drop]
  have none : ((r.rows.drop position).take k).filter (fun row => !r.owned row.id) = [] := by
    rw [filter_eq_nil_iff]
    intro row member
    simp [owned row member]
  constructor
  · rw [remaining, remaining, split, filter_append, none, nil_append]
  · rw [ownedBefore, take_add, countP_append, ownedBefore]
    have all : ((r.rows.drop position).take k).countP (fun row => r.owned row.id) = k := by
      rw [countP_eq_length.mpr owned, length_take, length_drop]
      omega
    rw [all]

/-- At a row of another Thread, that row is the next one to come. -/
theorem remaining_cons {position : Nat} {row : Thread} {rest : List Thread}
    (here : r.rows.drop position = row :: rest) (other : r.owned row.id = false) :
    r.remaining position = officialEntry r.sortKey row :: r.remaining (position + 1) := by
  have next : r.rows.drop (position + 1) = rest := by
    rw [← tail_drop, here, tail_cons]
  rw [remaining, here, filter_cons, if_pos (by simp [other]), map_cons, remaining, next]

theorem remaining_end {position : Nat} (ended : r.rows.length ≤ position) : r.remaining position = [] := by
  rw [remaining, drop_eq_nil_of_le ended]
  rfl

end Reading

theorem passOwned_of_empty {owned : String → Bool} {reader : OfficialReader}
    (empty : reader.officialEntries = []) : reader.passOwned owned = reader := by
  cases reader
  simp_all [passOwned]

/-- After the longest prefix that is skipped, the next element is not. -/
theorem not_skipped {α : Type} (skip : α → Bool) {list : List α} {a : α} {rest : List α}
    (after : list.drop (list.takeWhile skip).length = a :: rest) : skip a = false := by
  induction list with
  | nil => cases after
  | cons b list ih =>
    cases skipped : skip b with
    | false =>
      rw [takeWhile_cons_of_neg (by simp [skipped])] at after
      cases after
      exact skipped
    | true =>
      rw [takeWhile_cons_of_pos skipped] at after
      exact ih after

section Ensure
variable {r : Reading} {input : AggregateThreadListInput} {budget : Nat} {reader : OfficialReader}
  {position output : Nat}

/-- What `ensureOfficial` gives. -/
structure Ensured (r : Reading) (position output budget' : Nat) (reader' : OfficialReader)
    (entry : Option ThreadListEntry) (position' : Nat) : Prop where
  stands : r.At budget' reader' position'
  accounted : r.Accounted position' output
  remaining : r.remaining position' = r.remaining position
  seen : r.Seen reader'
  head : entry = (r.remaining position').head?
  stop : entry = none → reader'.officialDone = true
  push : ∀ e, entry = some e →
    r.At budget' { reader' with officialIndex := reader'.officialIndex + 1 } (position' + 1) ∧
      r.remaining (position' + 1) = (r.remaining position').tail

theorem ensured_done (stands : r.At budget reader position) (finished : reader.officialDone = true)
    (accounted : r.Accounted position output) :
    Ensured r position output budget reader none position := by
  cases stands with
  | done _ empty ended first =>
    refine ⟨.done finished empty ended first, accounted, rfl, first, ?_, fun _ => finished,
      fun _ given => by cases given⟩
    rw [r.remaining_end (by omega)]
    rfl
  | idle going => simp [finished] at going
  | reading from_ page going => simp [finished] at going

/-- The row at the index of a batch is of another Thread. -/
theorem ensured_row {from_ : Nat} {page : OfficialPage} (going : reader.officialDone = false)
    (batch : reader.officialBatch = some page)
    (next : page.nextCursor = cursorAt r.rows r.place (from_ + r.limit))
    (entries : reader.officialEntries = ((r.rows.drop from_).take r.limit).map (officialEntry r.sortKey))
    (cursor : Addresses r.place reader.officialBatchStart from_) (within : from_ < r.rows.length)
    (inside : reader.officialIndex < reader.officialEntries.length)
    (paid : r.origin + (MAX_OFFICIAL_PAGE_REQUESTS - budget) * r.limit ≤ from_ + r.limit)
    (left : 1 ≤ budget) (began : r.ended = false) (first : r.Seen reader)
    (other : ∀ row rest, r.rows.drop (from_ + reader.officialIndex) = row :: rest → r.owned row.id = false)
    (accounted : r.Accounted (from_ + reader.officialIndex) output)
    (remaining : r.remaining (from_ + reader.officialIndex) = r.remaining position) :
    Ensured r position output budget reader reader.officialEntries[reader.officialIndex]?
      (from_ + reader.officialIndex) := by
  have size : reader.officialEntries.length = min r.limit (r.rows.length - from_) := by
    rw [entries, length_map, length_take, length_drop]
  have bound : from_ + reader.officialIndex < r.rows.length := by omega
  have here := drop_eq_getElem_cons bound
  have come := r.remaining_cons here (other _ _ here)
  refine ⟨.reading from_ page going batch next entries cursor within inside.le rfl paid left began first,
    accounted, remaining, first, ?_, ?_, fun e given => ⟨?_, ?_⟩⟩
  · rw [come, head?_cons, entries, getElem?_map, getElem?_take_of_lt (by omega),
      getElem?_drop, getElem?_eq_getElem bound]
    rfl
  · intro none
    rw [getElem?_eq_none_iff] at none
    omega
  · exact .reading from_ page going batch next entries cursor within (succ_le_of_lt inside) rfl paid
      left began first
  · rw [come, tail_cons]

/-- What is given of the call. -/
structure Serves (input : AggregateThreadListInput) (r : Reading)
    (direction : ThreadListSortDirection) : Prop where
  query : ∃ cursor, input.query = pageQuery input direction cursor r.limit
  pages : PagesExactly input direction r.rows r.place r.back
  sortKey : r.sortKey = input.query.sortKey
  dated : ∀ row ∈ r.rows, HasTimestamp r.sortKey row
  /-- The owned rows are few enough for the request bound. -/
  few : (r.rows.countP fun row => r.owned row.id) ≤ 254 * r.limit

variable {direction : ThreadListSortDirection}

section
variable (serves : Serves input r direction)
include serves

theorem Serves.request {cursor : Option String} {index limit : Nat}
    (addresses : Addresses r.place cursor index) (bound : index ≤ r.rows.length)
    (positive : 1 ≤ limit) :
    input.requestOfficialPage ⟨input.query, cursor, limit⟩ =
      .ok ⟨(r.rows.drop index).take limit, cursorAt r.rows r.place (index + limit), r.back index limit⟩ := by
  obtain ⟨hostCursor, query⟩ := serves.query
  rw [query]
  exact serves.pages hostCursor r.limit cursor index limit addresses bound positive

theorem Serves.entries (index limit : Nat) :
    ((r.rows.drop index).take limit).mapM (officialThreadListEntry input.query.sortKey) =
      .ok (((r.rows.drop index).take limit).map (officialEntry r.sortKey)) := by
  apply mapM_ok
  intro row member
  rw [← serves.sortKey]
  exact officialThreadListEntry_ok (serves.dated row (drop_subset _ _ (take_subset _ _ member)))

/-- Before a request the rows read so far pay for the requests made. -/
theorem Serves.funded
    (paid : r.origin + (MAX_OFFICIAL_PAGE_REQUESTS - budget) * r.limit ≤ position)
    (accounted : r.Accounted position output) (room : output < r.limit) : 2 ≤ budget := by
  have owned := r.ownedBefore_le position
  have few := serves.few
  unfold Reading.Accounted at accounted
  by_contra short
  have spent : 255 ≤ MAX_OFFICIAL_PAGE_REQUESTS - budget := by
    unfold MAX_OFFICIAL_PAGE_REQUESTS
    omega
  have cost := mul_le_mul_right r.limit spent
  omega

end

/-- One turn of the loop after a batch whose rows are all used goes on as from the state
before the next batch. -/
theorem ensureOfficial_finish {owned : String → Bool} (going : reader.officialDone = false)
    (used : ¬ (reader.passOwned owned).officialIndex < (reader.passOwned owned).officialEntries.length)
    (empty : (reader.passOwned owned).finishBatch.officialEntries = [])
    (start : (reader.passOwned owned).finishBatch.officialIndex = 0)
    (batch : (reader.passOwned owned).finishBatch.officialBatch = none) :
    ensureOfficial input owned budget reader =
      ensureOfficial input owned budget (reader.passOwned owned).finishBatch := by
  have still : (reader.passOwned owned).officialDone = false := going
  have same : (reader.passOwned owned).finishBatch.finishBatch = (reader.passOwned owned).finishBatch := by
    rw [finishBatch, batch]
  conv_lhs => rw [ensureOfficial.eq_def]
  conv_rhs => rw [ensureOfficial.eq_def]
  simp only [passOwned_of_empty empty, still, Bool.false_eq_true, if_false, used, same, empty, start,
    length_nil, lt_irrefl]
  split <;> rfl

/-- The state of the reader after a request that brought the rows from its position on. -/
def afterRequest (r : Reading) (reader : OfficialReader) (position : Nat) : OfficialReader :=
  let page : OfficialPage := ⟨(r.rows.drop position).take r.limit,
    cursorAt r.rows r.place (position + r.limit), r.back position r.limit⟩
  let entries := page.data.map (officialEntry r.sortKey)
  if entries = [] then (reader.startBatch page entries).skipEmptyBatch page
  else reader.startBatch page entries

theorem afterRequest_at (going : reader.officialDone = false)
    (cursor : Addresses r.place reader.officialCursor position) (bound : position ≤ r.rows.length)
    (paid : r.origin + (MAX_OFFICIAL_PAGE_REQUESTS - (budget + 1)) * r.limit ≤ position)
    (left : 1 ≤ budget) (began : r.ended = false)
    (first : (r.Seen reader ∧ position < r.rows.length) ∨
      (reader.firstOfficialBackwardsCursor = none ∧ position = r.origin)) :
    r.At budget (afterRequest r reader position) position := by
  have known : some (reader.firstOfficialBackwardsCursor.getD (r.back position r.limit)) =
      if r.ended then none else some (r.back r.origin r.limit) := by
    rcases first with ⟨seen, -⟩ | ⟨unknown, rfl⟩
    · rw [seen, began]
      rfl
    · rw [unknown, began]
      rfl
  have spent : MAX_OFFICIAL_PAGE_REQUESTS - budget ≤ MAX_OFFICIAL_PAGE_REQUESTS - (budget + 1) + 1 := by omega
  have cost := Nat.mul_le_mul_right r.limit spent
  rw [Nat.add_mul, Nat.one_mul] at cost
  unfold afterRequest
  by_cases more : position < r.rows.length
  · have nonempty : ((r.rows.drop position).take r.limit).map (officialEntry r.sortKey) ≠ [] := by
      have positive := r.positive
      rw [ne_eq, map_eq_nil_iff, take_eq_nil_iff, drop_eq_nil_iff]
      omega
    rw [if_neg nonempty]
    exact .reading position _ going rfl rfl rfl cursor more (Nat.zero_le _) rfl (by omega) left began known
  · have ended : position = r.rows.length := by omega
    have empty : ((r.rows.drop position).take r.limit).map (officialEntry r.sortKey) = [] := by
      rw [drop_eq_nil_of_le (by omega), take_nil, map_nil]
    have last : cursorAt r.rows r.place (position + r.limit) = none := by
      rw [cursorAt, if_neg (by omega)]
    rw [if_pos empty, OfficialReader.skipEmptyBatch, if_pos (.inl last)]
    exact .done rfl empty ended known

theorem ensureOfficial_request (serves : Serves input r direction)
    (going : reader.officialDone = false) (batch : reader.officialBatch = none)
    (empty : reader.officialEntries = []) (start : reader.officialIndex = 0)
    (cursor : Addresses r.place reader.officialCursor position) (bound : position ≤ r.rows.length) :
    ensureOfficial input r.owned (budget + 1) reader =
      ensureOfficial input r.owned budget (afterRequest r reader position) := by
  have finished : reader.finishBatch = reader := by
    rw [finishBatch, batch]
  obtain ⟨hostCursor, query⟩ := serves.query
  have limit : max 1 input.query.limit = r.limit := by
    rw [query]
    exact max_eq_right r.positive
  have answer := serves.request cursor bound r.positive
  have entries := serves.entries position r.limit
  conv_lhs => rw [ensureOfficial.eq_def]
  simp only [passOwned_of_empty empty, going, Bool.false_eq_true, if_false, empty, start,
    length_nil, lt_irrefl, finished, limit, answer, entries, bind, Except.bind]
  rfl

/-- What passing over the owned rows of a batch does. -/
theorem passOwned_reading {from_ : Nat} (entries : reader.officialEntries =
      ((r.rows.drop from_).take r.limit).map (officialEntry r.sortKey))
    (within : from_ ≤ r.rows.length)
    (inside : reader.officialIndex ≤ reader.officialEntries.length)
    (stands : position = from_ + reader.officialIndex) :
    ∃ k, (reader.passOwned r.owned).officialIndex = reader.officialIndex + k ∧
      reader.officialIndex + k ≤ reader.officialEntries.length ∧
      r.remaining (position + k) = r.remaining position ∧
      r.ownedBefore (position + k) = r.ownedBefore position + k ∧
      (reader.officialIndex + k < reader.officialEntries.length → ∀ row rest,
        r.rows.drop (position + k) = row :: rest → r.owned row.id = false) := by
  have size : reader.officialEntries.length = min r.limit (r.rows.length - from_) := by
    rw [entries, length_map, length_take, length_drop]
  have ahead : reader.officialEntries.drop reader.officialIndex =
      ((r.rows.drop position).take (r.limit - reader.officialIndex)).map (officialEntry r.sortKey) := by
    rw [entries, ← map_drop, drop_take, drop_drop, stands]
  let rowsLeft := (r.rows.drop position).take (r.limit - reader.officialIndex)
  let passed := rowsLeft.takeWhile fun row => r.owned row.id
  have pass : (reader.passOwned r.owned).officialIndex = reader.officialIndex + passed.length := by
    simp only [passOwned, ahead, takeWhile_map, length_map]
    rfl
  have isPrefix : passed <+: rowsLeft := takeWhile_prefix _
  have leftSize : rowsLeft.length = reader.officialEntries.length - reader.officialIndex := by
    rw [← length_drop, ahead, length_map]
  have short := isPrefix.length_le
  have taken : (r.rows.drop position).take passed.length = passed :=
    (prefix_iff_eq_take.mp (isPrefix.trans (List.take_prefix _ _))).symm
  have owned : ∀ row ∈ (r.rows.drop position).take passed.length, r.owned row.id = true := by
    intro row member
    rw [taken] at member
    exact mem_takeWhile_imp (p := fun row : Thread => r.owned row.id) member
  obtain ⟨remaining, counted⟩ := r.skip_owned position passed.length (by omega) owned
  refine ⟨passed.length, pass, by omega, remaining, counted, ?_⟩
  intro more row rest here
  have next : rowsLeft.drop passed.length = row :: rest.take
      (r.limit - reader.officialIndex - passed.length - 1) := by
    rw [drop_take, drop_drop, here]
    obtain ⟨n, count⟩ : ∃ n, r.limit - reader.officialIndex - passed.length = n + 1 :=
      ⟨r.limit - reader.officialIndex - passed.length - 1, by omega⟩
    rw [count, take_succ_cons]
    rfl
  exact not_skipped (fun row : Thread => r.owned row.id) next

/-- The spec of `ensureOfficial`: within its budget it gives the next row of another Thread. -/
theorem ensureOfficial_spec (serves : Serves input r direction)
    (stands : r.At budget reader position) (accounted : r.Accounted position output)
    (room : output < r.limit) :
    ∃ budget' reader' entry position',
      ensureOfficial input r.owned budget reader = .ok (budget', reader', entry) ∧
        Ensured r position output budget' reader' entry position' := by
  induction budget generalizing reader position with
  | zero =>
    cases stands with
    | done finished empty ended first =>
      refine ⟨0, reader, none, position, ?_, ensured_done (.done finished empty ended first) finished
        accounted⟩
      rw [ensureOfficial.eq_def]
      simp only [passOwned_of_empty empty, finished, if_true]
    | idle going batch empty start cursor bound paid began first =>
      have funded := serves.funded paid accounted room
      omega
    | reading from_ page going batch next entries cursor within inside stands paid left began first => omega
  | succ budget ih =>
    have finish : ∀ {budget : Nat} {reader : OfficialReader} {position : Nat},
        r.At budget reader position → reader.officialDone = true → r.Accounted position output →
        ∃ budget' reader' entry position',
          ensureOfficial input r.owned budget reader = .ok (budget', reader', entry) ∧
            Ensured r position output budget' reader' entry position' := by
      intro budget reader position stands finished accounted
      cases stands with
      | done _ empty ended first =>
        refine ⟨budget, reader, none, position, ?_, ensured_done (.done finished empty ended first)
          finished accounted⟩
        rw [ensureOfficial.eq_def]
        simp only [passOwned_of_empty empty, finished, if_true]
      | idle going => simp [finished] at going
      | reading from_ page going => simp [finished] at going
    -- A turn that makes a request leaves a batch to look at with one request less.
    have request : ∀ {reader : OfficialReader} {position : Nat}, reader.officialDone = false →
        reader.officialBatch = none → reader.officialEntries = [] → reader.officialIndex = 0 →
        Addresses r.place reader.officialCursor position → position ≤ r.rows.length →
        r.origin + (MAX_OFFICIAL_PAGE_REQUESTS - (budget + 1)) * r.limit ≤ position →
        r.ended = false →
        ((r.Seen reader ∧ position < r.rows.length) ∨
          (reader.firstOfficialBackwardsCursor = none ∧ position = r.origin)) →
        r.Accounted position output →
        ∃ budget' reader' entry position',
          ensureOfficial input r.owned (budget + 1) reader = .ok (budget', reader', entry) ∧
            Ensured r position output budget' reader' entry position' := by
      intro reader position going batch empty start cursor bound paid began first accounted
      have funded := serves.funded paid accounted room
      rw [ensureOfficial_request serves going batch empty start cursor bound]
      exact ih (afterRequest_at going cursor bound paid (by omega) began first) accounted
    cases stands with
    | done finished empty ended first =>
      exact finish (.done finished empty ended first) finished accounted
    | idle going batch empty start cursor bound paid began first =>
      exact request going batch empty start cursor bound paid began first accounted
    | reading from_ page going batch next entries cursor within inside stands paid left began first =>
      obtain ⟨k, index, fits, remaining, counted, other⟩ :=
        passOwned_reading entries within.le inside stands
      have size : reader.officialEntries.length = min r.limit (r.rows.length - from_) := by
        rw [entries, length_map, length_take, length_drop]
      have accounted' : r.Accounted (position + k) output := by
        unfold Reading.Accounted at *
        omega
      have position' : from_ + (reader.passOwned r.owned).officialIndex = position + k := by omega
      by_cases here : reader.officialIndex + k < reader.officialEntries.length
      · have inBatch : (reader.passOwned r.owned).officialIndex <
            (reader.passOwned r.owned).officialEntries.length := by
          rw [index]
          exact here
        refine ⟨budget + 1, reader.passOwned r.owned,
          reader.officialEntries[(reader.passOwned r.owned).officialIndex]?, _, ?_,
          ensured_row going batch next entries cursor within inBatch paid left began first ?_ ?_ ?_⟩
        · have still : (reader.passOwned r.owned).officialDone = false := going
          rw [ensureOfficial.eq_def]
          simp only [still, Bool.false_eq_true, if_false, inBatch, if_true]
          rfl
        · rw [position']
          exact other here
        · rw [position']
          exact accounted'
        · rw [position']
          exact remaining
      · have used : ¬ (reader.passOwned r.owned).officialIndex <
            (reader.passOwned r.owned).officialEntries.length := by
          rw [index]
          exact here
        let before : OfficialReader :=
          { reader.passOwned r.owned with
            officialCursor := page.nextCursor
            officialDone := page.nextCursor.isNone
            officialBatch := none
            officialEntries := []
            officialIndex := 0 }
        have finished : (reader.passOwned r.owned).finishBatch = before := by
          have kept : (reader.passOwned r.owned).officialBatch = some page := batch
          rw [finishBatch, kept]
        rw [ensureOfficial_finish going used (by rw [finished]) (by rw [finished])
          (by rw [finished]), finished]
        by_cases more : from_ + r.limit < r.rows.length
        · have cursor' : before.officialCursor = some (r.place (from_ + r.limit)) := by
            show page.nextCursor = _
            rw [next, cursorAt, if_pos more]
          have goes : before.officialDone = false := by
            show before.officialCursor.isNone = false
            rw [cursor']
            rfl
          have ended : position + k = from_ + r.limit := by omega
          obtain ⟨budget', reader', entry, after, ran, ensured⟩ :=
            request goes rfl rfl rfl (.inr (by rw [cursor', ← ended])) (by omega) (by omega)
              began (.inl ⟨first, by omega⟩) accounted'
          exact ⟨budget', reader', entry, after, ran, ensured.stands, ensured.accounted,
            ensured.remaining.trans remaining, ensured.seen, ensured.head,
            ensured.stop, ensured.push⟩
        · have ends : before.officialDone = true := by
            have last : page.nextCursor = none := by
              rw [next, cursorAt, if_neg more]
            show page.nextCursor.isNone = true
            rw [last]
            rfl
          have stands' : r.At (budget + 1) before (position + k) :=
            .done ends rfl (by omega) first
          obtain ⟨budget', reader', entry, after, ran, ensured⟩ := finish stands' ends accounted'
          exact ⟨budget', reader', entry, after, ran, ensured.stands, ensured.accounted,
            ensured.remaining.trans remaining, ensured.seen, ensured.head,
            ensured.stop, ensured.push⟩

/-- The official part of the next cursor stands for the position of the reader. -/
theorem nextOfficial_spec (serves : Serves input r direction)
    (stands : r.At budget reader position) (seen : r.Seen reader) :
    ∃ cursor done, nextOfficial input budget reader = .ok (cursor, done) ∧
      (done = true → position = r.rows.length) ∧
      (done = false → Addresses r.place cursor position ∧ position < r.rows.length) ∧
      (reader.officialDone = true → done = true) := by
  cases stands with
  | done finished empty ended first =>
    refine ⟨reader.officialCursor, reader.officialDone, ?_, fun _ => ended, ?_, id⟩
    · unfold nextOfficial
      cases reader.officialBatch with
      | none => rfl
      | some batch => simp only [finished, if_true]
    · intro going
      rw [finished] at going
      cases going
  | idle going batch empty start cursor bound paid began first =>
    have inside : position < r.rows.length := by
      rcases first with ⟨-, inside⟩ | ⟨unknown, -⟩
      · exact inside
      · rw [Reading.Seen, unknown, began] at seen
        cases seen
    refine ⟨reader.officialCursor, reader.officialDone, ?_, ?_, fun _ => ⟨cursor, inside⟩, id⟩
    · unfold nextOfficial
      rw [batch]
    · intro finished
      rw [going] at finished
      cases finished
  | reading from_ page going batch next entries cursor within inside stands paid left began first =>
    have size : reader.officialEntries.length = min r.limit (r.rows.length - from_) := by
      rw [entries, length_map, length_take, length_drop]
    have unfinished : reader.officialDone = true → false = true := by
      rw [going]
      exact id
    by_cases unused : reader.officialIndex = 0
    · refine ⟨reader.officialBatchStart, false, ?_, by simp, fun _ => ⟨?_, by omega⟩, unfinished⟩
      · simp only [nextOfficial, batch, going, Bool.false_eq_true, if_false, unused, if_true]
      · rw [stands, unused]
        exact cursor
    · by_cases partly : reader.officialIndex < reader.officialEntries.length
      · have answer := serves.request cursor within.le (show 1 ≤ reader.officialIndex by omega)
        have later : cursorAt r.rows r.place (from_ + reader.officialIndex) = some (r.place position) := by
          rw [cursorAt, if_pos (by omega), stands]
        have count : ((r.rows.drop from_).take reader.officialIndex).length = reader.officialIndex := by
          rw [length_take, length_drop]
          omega
        obtain ⟨n, rfl⟩ : ∃ n, budget = n + 1 := ⟨budget - 1, by omega⟩
        refine ⟨some (r.place position), false, ?_, by simp,
          fun _ => ⟨.inr rfl, by omega⟩, unfinished⟩
        simp only [nextOfficial, batch, going, Bool.false_eq_true, if_false, unused, partly, if_true,
          requestOfficial, answer, later, bind, Except.bind, pure, Except.pure, count, ne_eq,
          not_true_eq_false, false_or, reduceCtorEq]
      · refine ⟨page.nextCursor, page.nextCursor.isNone, ?_, ?_, ?_, ?_⟩
        · simp only [nextOfficial, batch, going, Bool.false_eq_true, if_false, unused, partly]
        · intro last
          rw [next, cursorAt] at last
          split at last
          · cases last
          · omega
        · intro more
          rw [next, cursorAt] at more
          split at more
          · refine ⟨.inr ?_, by omega⟩
            have ended : position = from_ + r.limit := by omega
            rw [next, cursorAt, if_pos (by assumption), ended]
          · cases more
        · intro finished
          rw [going] at finished
          cases finished

end Ensure

end CodexHost.Guarantees.ThreadList
