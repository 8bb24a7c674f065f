import CodexHost.Guarantees.ThreadListForward

/-!
# Backwards pagination of the Thread list

From the backwards cursor of a page, the list in the opposite direction shows the rows before the
page, except for two kinds: External rows with the timestamp of the first row of the page, and
official rows when the page starts after the end of the official list.
-/
namespace CodexHost.Guarantees.ThreadList
open Foundation Source.MappingStore Source.ProtocolCore List Option
open Source.HostRuntime

variable {cursor : Option HostThreadListCursor}

section Runs
variable {input : AggregateThreadListInput} {direction : ThreadListSortDirection}

/-- The limit is at least 1 and lets a call pass over the rows of External Threads. -/
def OfficialRows.Allows (official : OfficialRows input direction) (limit : Nat) : Prop :=
  1 ≤ limit ∧ official.ownedCount ≤ 254 * limit

/-- The cursor is reached by following next cursors, after these rows. -/
inductive Follows (official : OfficialRows input direction) : Option HostThreadListCursor → List Thread → Prop
  | start : Follows official none []
  | next {cursor : Option HostThreadListCursor} {rows : List Thread} {limit : Nat}
      {page : AggregatedThreadListPage} {following : HostThreadListCursor}
      (before : Follows official cursor rows) (allowed : official.Allows limit)
      (ran : listThreads input direction cursor limit = .ok page)
      (goesOn : page.nextCursor = some following) :
      Follows official (some following) (rows ++ page.data)

/-- A listing that ends gives the same rows whatever calls it was allowed. -/
theorem followPages_mono {calls more : Nat} {limits : Nat → Nat} {rows : List Thread} (le : calls ≤ more)
    (ended : followPages input direction calls limits cursor = .ok rows) :
    followPages input direction more limits cursor = .ok rows := by
  induction calls generalizing more limits cursor rows with
  | zero => cases ended
  | succ calls ih =>
    obtain ⟨more, rfl⟩ : ∃ n, more = n + 1 := ⟨more - 1, by omega⟩
    rw [followPages] at ended ⊢
    cases ran : listThreads input direction cursor (limits 0) with
    | error message =>
      rw [ran] at ended
      cases ended
    | ok page =>
      simp only [ran, bind, Except.bind] at ended ⊢
      cases next : page.nextCursor with
      | none =>
        rw [next] at ended
        exact ended
      | some following =>
        simp only [next] at ended ⊢
        cases others : followPages input direction calls (limits <| · + 1) (some following) with
        | error message =>
          rw [others] at ended
          cases ended
        | ok rest =>
          rw [others] at ended
          rw [ih (Nat.le_of_succ_le_succ le) others]
          exact ended

theorem followPages_unique {calls calls' : Nat} {limits : Nat → Nat} {rows rows' : List Thread}
    (ended : followPages input direction calls limits cursor = .ok rows)
    (ended' : followPages input direction calls' limits cursor = .ok rows') : rows = rows' := by
  have first := followPages_mono (Nat.le_max_left calls calls') ended
  have second := followPages_mono (Nat.le_max_right calls calls') ended'
  rw [first] at second
  exact Except.ok.inj second

end Runs

variable {row : Thread}

namespace Lists
variable {input : AggregateThreadListInput} {direction : ThreadListSortDirection}
  (lists : Lists input direction)

/-- What is left of the External rows at a cursor is a tail of them. -/
theorem StandsAt.suffix {cursor : HostThreadListCursor} {rest : List ThreadListEntry} {position : Nat}
    {lists : Lists input direction} (stands : lists.StandsAt cursor rest position) :
    ∃ front, lists.sorted = front ++ rest := by
  rw [stands.external]
  split
  · exact ⟨lists.sorted, (append_nil _).symm⟩
  · refine ⟨lists.sorted.takeWhile fun e => !isAfterAnchor cursor.externalAnchor direction e, ?_⟩
    have inherit : ∀ a b : ThreadListEntry, After direction (externalAnchor a) b →
        isAfterAnchor cursor.externalAnchor direction a = true →
        isAfterAnchor cursor.externalAnchor direction b = true := by
      intro a b order reached
      rw [isAfterAnchor_iff] at *
      exact fun anchor given => (reached anchor given).trans order
    rw [after, filter_eq_dropWhile inherit lists.sorted_after, takeWhile_append_dropWhile]

variable {preceding : List Thread}

theorem follows_stands {official : OfficialRows input direction} (rows : lists.rows = official.rows) (follows : Follows official cursor preceding) :
    ∃ rest position, lists.StandsAt (cursor.getD lists.startAt) rest position ∧
      ((cursor.getD lists.startAt).officialDone = false → position < lists.rows.length ∨ position = 0) ∧
      preceding = ((lists.merged lists.sorted 0).take preceding.length).map (·.thread) ∧
      lists.merged rest position = (lists.merged lists.sorted 0).drop preceding.length := by
  induction follows with
  | start => exact ⟨lists.sorted, 0, lists.standsAt_start, fun _ => Or.inr rfl, by simp, by simp⟩
  | @next cursor passed limit page following before allowed ran goesOn ih =>
    obtain ⟨rest, position, stands, -, shown, left⟩ := ih
    have few : lists.ownedCount ≤ 254 * limit := by
      rw [ownedCount, rows]
      exact allowed.2
    obtain ⟨page', rest', position', ran', isPage⟩ := lists.listThreads_page stands allowed.1 few
    cases Except.ok.inj (ran.symm.trans ran')
    obtain ⟨stands', full, inside⟩ := isPage.next following goesOn
    have size : page.data.length = limit := by
      rw [isPage.data, length_map, length_take]
      omega
    refine ⟨rest', position', stands', fun going => Or.inl (inside going), ?_, ?_⟩
    · rw [length_append, take_add, map_append, ← shown, size, isPage.data, left]
    · rw [isPage.left, left, drop_drop, length_append, size]

/-- The official rows before a position, without those of External Threads. -/
def officialBefore (position : Nat) : List Thread :=
  (lists.rows.take position).filter fun row => !lists.owned row.id

theorem official_split (position : Nat) : lists.official 0 =
      (lists.officialBefore position).map (officialEntry input.query.sortKey) ++ lists.official position := by
  rw [official, official, officialBefore, drop_zero, ← map_append, ← filter_append, take_append_drop]

/-- The rows before a page are the External rows and the official rows before it. -/
theorem mem_preceding {rest front : List ThreadListEntry} {position n : Nat}
    (split : lists.sorted = front ++ rest)
    (left : lists.merged rest position = (lists.merged lists.sorted 0).drop n)
    (entry : ThreadListEntry) :
    entry ∈ (lists.merged lists.sorted 0).take n ↔ entry ∈ front ∨
        entry ∈ (lists.officialBefore position).map (officialEntry input.query.sortKey) := by
  have whole := take_append_drop n (lists.merged lists.sorted 0)
  have all : (lists.merged lists.sorted 0).Perm (lists.sorted ++ lists.official 0) :=
    merge_perm_append _
  have later : (lists.merged rest position).Perm (rest ++ lists.official position) :=
    merge_perm_append _
  have sides : lists.sorted ++ lists.official 0 = front ++ rest ++
      ((lists.officialBefore position).map (officialEntry input.query.sortKey) ++
        lists.official position) := by
    rw [← split, ← lists.official_split position]
  rw [sides, ← whole, ← left] at all
  have perm : ((lists.merged lists.sorted 0).take n ++ (rest ++ lists.official position)).Perm
      (front ++ (lists.officialBefore position).map (officialEntry input.query.sortKey) ++
        (rest ++ lists.official position)) := by
    refine (later.append_left _).symm.trans (all.trans ?_)
    rw [append_assoc, append_assoc]
    refine List.Perm.append_left front ?_
    rw [← append_assoc, ← append_assoc]
    exact perm_append_comm.append_right _
  rw [((perm_append_right_iff _).mp perm).mem_iff, mem_append]

/-- The official list of the opposite direction is the reverse, and its backwards cursors are
exact: they stand before the rows that precede the page. -/
structure Turned (lists : Lists input direction) (back : Lists input (opposite direction)) : Prop where
  matching : back.matching = lists.matching
  rows : back.rows = lists.rows.reverse
  turn : ∀ index limit, 1 ≤ limit → lists.back index limit =
    if index < lists.rows.length then some (back.place (lists.rows.length - index)) else none
  owned : ∀ e ∈ lists.matching, lists.owned e.thread.id = true

section Turn
variable {lists : Lists input direction} {back : Lists input (opposite direction)}
  {rest front : List ThreadListEntry} {position limit : Nat} {first : ThreadListEntry}

/-- Where the backwards cursor of a page starts in the opposite official list. -/
def turnedPosition (lists : Lists input direction) (position : Nat) : Nat :=
  if position < lists.rows.length then lists.rows.length - position else lists.rows.length

theorem standsAt_back (turned : Turned lists back) {cursor before : HostThreadListCursor}
    {page : AggregatedThreadListPage} {rest' : List ThreadListEntry} {position' : Nat}
    (stands : lists.StandsAt cursor rest position) (positive : 1 ≤ limit)
    (isPage : lists.IsPage cursor rest position limit page rest' position')
    (given : page.backwardsCursor = some before) :
    ∃ first, (lists.merged rest position).head? = some first ∧
      back.StandsAt before (back.after (some (backwardsAnchor first))) (turnedPosition lists position) := by
  rw [isPage.backwards] at given
  obtain ⟨first, head, rfl⟩ := map_eq_some_iff.mp given
  have size : back.rows.length = lists.rows.length := by rw [turned.rows, length_reverse]
  refine ⟨first, head, rfl, rfl, rfl, ?_, ?_⟩
  · have official := stands.official
    have turn := turned.turn position limit positive
    unfold turnedPosition
    cases done : cursor.officialDone with
    | true =>
      rw [done] at official
      simp only [if_true] at official
      simp [official, size]
    | false =>
      by_cases within : position < lists.rows.length
      · simp only [Bool.false_eq_true, if_false, turn, if_pos within, isNone_some]
        exact .inr rfl
      · simp only [Bool.false_eq_true, if_false, turn, if_neg within, isNone_none, if_true]
        exact size.symm
  · rw [size, turnedPosition]
    split <;> omega

variable {e : ThreadListEntry}

variable (turned : Turned lists back)
include turned

/-- The thread of an External row is listed if and only if its entry is. -/
theorem external_mem_merged
    (member : e ∈ lists.matching) {rest : List ThreadListEntry}
    (subset : ∀ e ∈ rest, e ∈ back.matching) {position : Nat} :
    e.thread ∈ (back.merged rest position).map (·.thread) ↔ e ∈ rest := by
  constructor
  · intro listed
    obtain ⟨other, here, same⟩ := mem_map.mp listed
    rcases mem_append.mp ((merge_perm_append _).subset here) with external | official
    · have matched : other ∈ lists.matching := turned.matching ▸ subset other external
      have equal : other = e := inj_on_of_nodup_map lists.distinct matched member (congrArg (·.id) same)
      rwa [← equal]
    · obtain ⟨row, kept, rfl⟩ := mem_map.mp official
      have own := turned.owned e member
      have foreign := (mem_filter.mp kept).2
      have id : row.id = e.thread.id := congrArg (·.id) same
      rw [id, own] at foreign
      cases foreign
  · intro listed
    exact mem_map_of_mem ((merge_perm_append _).symm.subset (mem_append_left _ listed))

/-- The thread of an official row of another Thread is listed if and only if the row is left. -/
theorem official_mem_merged
    (foreign : lists.owned row.id = false) {rest : List ThreadListEntry}
    (subset : ∀ e ∈ rest, e ∈ back.matching) {position : Nat} :
    row ∈ (back.merged rest position).map (·.thread) ↔ row ∈ back.rows.drop position := by
  constructor
  · intro listed
    obtain ⟨entry, here, same⟩ := mem_map.mp listed
    rcases mem_append.mp ((merge_perm_append _).subset here) with external | official
    · have own := turned.owned entry (turned.matching ▸ subset entry external)
      rw [same, foreign] at own
      cases own
    · obtain ⟨row', kept, rfl⟩ := mem_map.mp official
      cases same
      exact (mem_filter.mp kept).1
  · intro left
    refine mem_map.mpr ⟨officialEntry input.query.sortKey row, ?_, rfl⟩
    refine (merge_perm_append _).symm.subset (mem_append_right _ ?_)
    exact mem_map_of_mem (mem_filter.mpr ⟨left, by
      show (!lists.owned row.id) = true
      rw [foreign]
      rfl⟩)

/-- An External row before the page is after the backwards cursor unless it has the timestamp of
the first row of the page and no greater ID than the anchor. -/
theorem mem_back_after
    (member : e ∈ lists.matching) (order : compareThreadListEntries e first direction ≤ 0) :
    e ∈ back.after (some (backwardsAnchor first)) ↔ (e.timestamp = first.timestamp →
        EcmaString.lessThan (backwardsAnchor first).threadId e.thread.id) := by
  have known : e ∈ back.sorted := by
    rw [back.sorted_perm.mem_iff, turned.matching]
    exact member
  have reached : e ∈ back.after (some (backwardsAnchor first)) ↔
      After (opposite direction) (backwardsAnchor first) e := by
    rw [after, mem_filter, isAfterAnchor_iff]
    simp [known]
  have anchor : (backwardsAnchor first).timestamp = first.timestamp := rfl
  rw [compare_le_iff] at order
  rw [reached, After, earlier_opposite, anchor]
  rcases order with earlier | ⟨same, -⟩
  · refine ⟨fun _ same => ?_, fun _ => .inl earlier⟩
    rw [same] at earlier
    exact absurd earlier (Earlier.irrefl direction _)
  · have never := Earlier.irrefl direction first.timestamp
    simp [never, same]

/-- An official row before the page is before the page in the opposite list too, unless the page
starts at the end of the official list. -/
theorem mem_back_rows (member : row ∈ lists.rows.take position) :
    row ∈ back.rows.drop (turnedPosition lists position) ↔ position < lists.rows.length := by
  rw [turned.rows, turnedPosition]
  by_cases within : position < lists.rows.length
  · rw [if_pos within, drop_reverse, mem_reverse]
    have size : lists.rows.length - (lists.rows.length - position) = position := by omega
    simpa [size, within] using member
  · rw [if_neg within, drop_eq_nil_of_le (by rw [length_reverse])]
    simp [within]

/-- An External row is among the rows before the page if and only if its entry is. -/
theorem external_mem_preceding {n : Nat} (split : lists.sorted = front ++ rest)
    (left : lists.merged rest position = (lists.merged lists.sorted 0).drop n)
    (shown : preceding = ((lists.merged lists.sorted 0).take n).map (·.thread)) (member : e ∈ lists.matching) : e.thread ∈ preceding ↔ e ∈ front := by
  rw [shown]
  constructor
  · intro before
    obtain ⟨other, here, same⟩ := mem_map.mp before
    rcases (lists.mem_preceding split left other).mp here with external | official
    · have matched : other ∈ lists.matching := lists.sorted_perm.subset (by
        rw [split]
        exact mem_append_left rest external)
      have equal : other = e := inj_on_of_nodup_map lists.distinct matched member (congrArg (·.id) same)
      rwa [← equal]
    · obtain ⟨row, kept, rfl⟩ := mem_map.mp official
      have own := turned.owned e member
      have foreign := (mem_filter.mp kept).2
      have id : row.id = e.thread.id := congrArg (·.id) same
      rw [id, own] at foreign
      cases foreign
  · intro before
    exact mem_map_of_mem ((lists.mem_preceding split left e).mpr (.inl before))

/-- When the rows before a page are all listed from its backwards cursor. -/
theorem preceding_listed_iff {n : Nat} (split : lists.sorted = front ++ rest)
    (left : lists.merged rest position = (lists.merged lists.sorted 0).drop n)
    (shown : preceding = ((lists.merged lists.sorted 0).take n).map (·.thread))
    (sorted : (lists.official 0).Pairwise fun a b => compareThreadListEntries a b direction ≤ 0)
    (head : (lists.merged rest position).head? = some first) :
    (∀ row ∈ preceding, row ∈ (back.merged (back.after (some (backwardsAnchor first)))
        (turnedPosition lists position)).map (·.thread)) ↔
      (∀ e ∈ lists.matching, e.thread ∈ preceding → e.timestamp = first.timestamp →
        EcmaString.lessThan (backwardsAnchor first).threadId e.thread.id) ∧
      (position < lists.rows.length ∨ lists.officialBefore position = []) := by
  have subset : ∀ e ∈ back.after (some (backwardsAnchor first)), e ∈ back.matching := by
    intro e member
    exact back.sorted_perm.subset (mem_filter.mp member).1
  have fromFront : ∀ e ∈ front, e ∈ lists.matching := by
    intro e member
    exact lists.sorted_perm.subset (by
      rw [split]
      exact mem_append_left rest member)
  have order : ∀ e ∈ front, compareThreadListEntries e first direction ≤ 0 := by
    intro e member
    have whole := lists.merged_sorted sorted
    rw [← take_append_drop n (lists.merged lists.sorted 0), ← left] at whole
    exact (pairwise_append.mp whole).2.2 e ((lists.mem_preceding split left e).mpr (.inl member))
      first (mem_of_mem_head? head)
  have external : ∀ e ∈ front, (e.thread ∈ (back.merged (back.after (some (backwardsAnchor first)))
      (turnedPosition lists position)).map (·.thread) ↔ (e.timestamp = first.timestamp →
        EcmaString.lessThan (backwardsAnchor first).threadId e.thread.id)) := by
    intro e member
    rw [external_mem_merged turned (fromFront e member) subset]
    exact mem_back_after turned (fromFront e member) (order e member)
  have official : ∀ row ∈ lists.officialBefore position,
      (row ∈ (back.merged (back.after (some (backwardsAnchor first)))
        (turnedPosition lists position)).map (·.thread) ↔ position < lists.rows.length) := by
    intro row member
    obtain ⟨before, foreign⟩ := mem_filter.mp member
    rw [official_mem_merged turned (by simpa using foreign) subset]
    exact mem_back_rows turned before
  constructor
  · intro all
    refine ⟨?_, ?_⟩
    · intro e member before
      have here := (external_mem_preceding turned split left shown member).mp before
      exact (external e here).mp (all _ before)
    · rcases eq_nil_or_concat (lists.officialBefore position) with none | ⟨others, row, some⟩
      · exact .inr none
      · have member : row ∈ lists.officialBefore position := by simp [some]
        refine .inl ((official row member).mp (all row ?_))
        rw [shown]
        exact mem_map.mpr ⟨officialEntry input.query.sortKey row,
          (lists.mem_preceding split left _).mpr (.inr (mem_map_of_mem member)), rfl⟩
  · rintro ⟨ids, within⟩ row member
    have here := member
    rw [shown] at here
    obtain ⟨e, before, rfl⟩ := mem_map.mp here
    rcases (lists.mem_preceding split left e).mp before with inFront | isOfficial
    · exact (external e inFront).mpr (ids e (fromFront e inFront) member)
    · obtain ⟨row, kept, rfl⟩ := mem_map.mp isOfficial
      refine (official row kept).mpr ?_
      rcases within with inside | none
      · exact inside
      · rw [none] at kept
        cases kept

/-- At a followed cursor, official rows before the page are out of reach only if the cursor says
that the official list is done. -/
theorem official_reached_iff {n : Nat}
    (stands : lists.StandsAt (cursor.getD lists.startAt) rest position)
    (inside : (cursor.getD lists.startAt).officialDone = false → position < lists.rows.length ∨ position = 0)
    (split : lists.sorted = front ++ rest)
    (left : lists.merged rest position = (lists.merged lists.sorted 0).drop n)
    (shown : preceding = ((lists.merged lists.sorted 0).take n).map (·.thread)) :
    (position < lists.rows.length ∨ lists.officialBefore position = []) ↔
      ((∃ before, cursor = some before ∧ before.officialDone = true) →
        ∀ entry ∈ lists.official 0, entry.thread ∉ preceding) := by
  constructor
  · rintro reached ⟨before, rfl, done⟩ entry member shownBefore
    have official := stands.official
    rw [getD_some, if_pos done] at official
    have none : lists.officialBefore position = [] := by
      rcases reached with within | none
      · omega
      · exact none
    rw [shown] at shownBefore
    obtain ⟨other, here, same⟩ := mem_map.mp shownBefore
    rcases (lists.mem_preceding split left other).mp here with external | isOfficial
    · have own := turned.owned other (lists.sorted_perm.subset (by
        rw [split]
        exact mem_append_left rest external))
      obtain ⟨row, kept, rfl⟩ := mem_map.mp member
      have foreign := (mem_filter.mp kept).2
      have id : other.thread.id = row.id := congrArg (·.id) same
      rw [← id, own] at foreign
      cases foreign
    · rw [none] at isOfficial
      cases isOfficial
  · intro unseen
    cases going : (cursor.getD lists.startAt).officialDone with
    | false =>
      rcases inside going with within | start
      · exact .inl within
      · rw [start]
        exact .inr rfl
    | true =>
      refine .inr (eq_nil_iff_forall_not_mem.mpr fun row member => ?_)
      have done : ∃ before, cursor = some before ∧ before.officialDone = true := by
        cases cursor with
        | none => cases going
        | some before => exact ⟨before, rfl, going⟩
      refine unseen done (officialEntry input.query.sortKey row) ?_ ?_
      · rw [lists.official_split position]
        exact mem_append_left _ (mem_map_of_mem member)
      · rw [shown]
        exact mem_map.mpr ⟨officialEntry input.query.sortKey row,
          (lists.mem_preceding split left _).mpr (.inr (mem_map_of_mem member)), rfl⟩

end Turn

end Lists

section Backward
variable {input : AggregateThreadListInput} {direction : ThreadListSortDirection}

/-- The official list in both directions, with exact cursors back. -/
structure ReversibleRows (input : AggregateThreadListInput) (direction : ThreadListSortDirection) where
  forward : OfficialRows input direction
  backward : OfficialRows input (opposite direction)
  reversed : backward.rows = forward.rows.reverse
  turn : ∀ index limit, 1 ≤ limit → forward.back index limit =
    if index < forward.rows.length then some (backward.place (forward.rows.length - index)) else none

/-- Listing from the backwards cursor of the page in the opposite direction ends, whatever the
limits, and shows all of these rows. -/
def ListsBack (official : ReversibleRows input direction) (page : AggregatedThreadListPage)
    (preceding : List Thread) : Prop :=
  ∀ cursor, page.backwardsCursor = some cursor → ∀ limits, (∀ n, official.forward.Allows (limits n)) →
      ∃ calls rows, followPages input (opposite direction) calls limits (some cursor) = .ok rows ∧
        ∀ row ∈ preceding, row ∈ rows

/-- The rows that the code turns back to: the first row of the page shares its timestamp with no
External row before it, up to IDs after the anchor, and the official list did not end before the
page while it has rows before it. -/
def Turnable (official : ReversibleRows input direction) (cursor : Option HostThreadListCursor)
    (preceding : List Thread) : Prop :=
  ∀ matching first, matchingExternalThreads input.toExternalThreadListInput input.query = .ok matching →
    (mergeRows direction (sortThreadListEntries direction matching)
      official.forward.entries)[preceding.length]? = some first →
    (∀ entry ∈ matching, entry.thread ∈ preceding → entry.timestamp = first.timestamp →
      EcmaString.lessThan (backwardsAnchor first).threadId entry.thread.id) ∧
    ((∃ before, cursor = some before ∧ before.officialDone = true) →
      ∀ entry ∈ official.forward.entries, entry.thread ∉ preceding)

/-- Both lists of a reversible source, over the same External rows. -/
theorem ReversibleRows.lists (official : ReversibleRows input direction)
    (threads : ExternalThreads input) (supported : input.query.supportsExternal = true)
    (sortKey : input.query.sortKey ≠ .sectionPosition) :
    ∃ (lists : Lists input direction) (back : Lists input (opposite direction)), lists.Turned back ∧
      matchingExternalThreads input.toExternalThreadListInput input.query = .ok lists.matching ∧
      lists.rows = official.forward.rows ∧
      lists.official 0 = official.forward.entries ∧
      lists.ownedCount = official.forward.ownedCount ∧
      back.ownedCount = official.forward.ownedCount := by
  obtain ⟨matching, matches_, external, ids⟩ := matchingExternalThreads_ok threads
  refine ⟨official.forward.lists threads supported sortKey matches_ external ids,
    official.backward.lists threads supported sortKey matches_ external ids,
    ⟨rfl, official.reversed, official.turn, ?_⟩, matches_, rfl, ?_, rfl, ?_⟩
  · intro e (member : e ∈ matching)
    have id : e.thread.id ∈ matchingExternalIds input := by
      rw [← ids]
      exact List.mem_map_of_mem member
    show isExternalId input.toExternalThreadListInput e.thread.id = true
    rw [isExternalId, Bool.or_eq_true, List.any_eq_true, List.any_eq_true]
    rcases List.mem_append.mp id with stored | shared
    · obtain ⟨record, kept, same⟩ := List.mem_map.mp (List.mem_filter.mp stored).1
      exact .inl ⟨record, (List.mem_filter.mp kept).1, by simpa using same⟩
    · obtain ⟨thread, here, same⟩ := List.mem_map.mp shared
      exact .inr ⟨thread, here, by simpa using same⟩
  · rfl
  · show official.backward.rows.countP _ = _
    rw [official.reversed, List.countP_reverse]
    rfl

end Backward

/-- Rows newest first, and the other way round. -/
def bothWays (newestFirst : List Thread) : ThreadListSortDirection → List Thread
  | .desc => newestFirst
  | .asc => newestFirst.reverse

/-- The reversible official list of a sample. -/
def sampleReversible (records : List StoredThreadRecordV1) (newestFirst : List Thread)
    (dated : ∀ row ∈ newestFirst, HasTimestamp .updatedAt row) :
    ReversibleRows (sampleInput records (bothWays newestFirst)) .desc :=
  have bothDated : ∀ direction, ∀ row ∈ bothWays newestFirst direction, HasTimestamp .updatedAt row := by
    intro direction row member
    cases direction with
    | asc => exact dated row (List.mem_reverse.mp member)
    | desc => exact dated row member
  { forward := sampleOfficial records (bothWays newestFirst) bothDated .desc
    backward := sampleOfficial records (bothWays newestFirst) bothDated .asc
    reversed := rfl
    turn := fun _ _ _ => rfl }

theorem official_named : "o" ≠ "" := by decide

def newerRow : List Thread := [sampleRow "o" 7 official_named]

theorem newerRow_dated : ∀ row ∈ newerRow, HasTimestamp .updatedAt row := by
  intro row member
  rw [newerRow, mem_singleton] at member
  rw [member]
  exact sampleRow_dated _ _

/-- The page of a call that succeeds. -/
def pageOfCall (input : AggregateThreadListInput) (cursor : Option HostThreadListCursor) :
    AggregatedThreadListPage :=
  (listThreads input .desc cursor 1).toOption.getD ⟨[], none, none⟩

/-- Two stored Threads updated in the same second. -/
def tiedInput : AggregateThreadListInput :=
  sampleInput [sampleRecord "a" 7000 none, sampleRecord "b" 7000 none] (bothWays [])

/-- A stored Thread older than the only official row. -/
def olderInput : AggregateThreadListInput :=
  sampleInput [sampleRecord "a" 6000 none] (bothWays newerRow)

theorem not_listsBack {input : AggregateThreadListInput} {direction : ThreadListSortDirection}
    {official : ReversibleRows input direction} {page : AggregatedThreadListPage}
    {preceding rows : List Thread} {cursor : HostThreadListCursor} {calls limit : Nat}
    (turns : page.backwardsCursor = some cursor) (allowed : official.forward.Allows limit)
    (ended : followPages input (opposite direction) calls (fun _ => limit) (some cursor) = .ok rows)
    (before : row ∈ preceding) (missing : row ∉ rows) : ¬ ListsBack official page preceding := by
  intro all
  obtain ⟨calls', rows', ended', includes⟩ := all cursor turns (fun _ => limit) fun _ => allowed
  rw [followPages_unique ended ended'] at missing
  exact missing (includes row before)

/-- A stored Thread and its Fork, updated in the same second. -/
def forkInput : AggregateThreadListInput := sampleInput forkPair (bothWays [])

theorem forkInput_threads : ExternalThreads forkInput :=
  ⟨by decide, by decide, forkPair_acyclic, by decide, by simp [forkInput, sampleInput]⟩

/-- The cursor after the first row. -/
def tiedCursor : HostThreadListCursor := ⟨"query", .desc, none, true, some ⟨7, "a"⟩, false⟩

theorem forkInput_follows :
    Follows (sampleReversible forkPair [] fun _ member => by cases member).forward (some tiedCursor)
      (pageOfCall forkInput none).data := by
  have first : listThreads forkInput .desc none 1 = .ok (pageOfCall forkInput none) := by rfl
  exact .next .start ⟨le_rfl, by decide⟩ first (by decide)

end CodexHost.Guarantees.ThreadList
