import CodexHost.Foundation.KWayMerge
import CodexHost.Guarantees.MergedListCursor

/-!
# Merging the Thread lists of several sessions

Every session answers one-row requests with pages of a fixed list. A call of
`mergeThreadListPages` takes the first rows of the merge of what is left of the lists, and its
cursor stands for the rest; so the pages that a client follows are the merge of the whole lists.
-/
namespace CodexHost.Guarantees.DelegationThreadList
open Foundation Source.HostRuntime.Delegation List Option

variable {Item : Type}

/-- A fixed list in pages of one row or none, and the cursors of its pages after the first. -/
structure Paging (Item : Type) where
  pages : List (Option Item)
  place : Nat → Utf16
  nonempty : ∀ k, place k ≠ []
  fresh : ∀ k, place (k + 1) ≠ place k

namespace Paging
variable (paging : Paging Item)

/-- The position before a page. -/
def positionAt (k : Nat) : SessionPosition :=
  if k < paging.pages.length then some (if k = 0 then none else some (paging.place k)) else none

/-- The rows from a page on. -/
def rowsFrom (k : Nat) : List Item := (paging.pages.drop k).filterMap id

def rows : List Item := paging.rowsFrom 0

/-- The empty pages from a page on. -/
def emptyFrom (k : Nat) : Nat := (paging.pages.drop k).countP Option.isNone

/-- The head of a session whose next row is on this page. -/
def headAt (k : Nat) : Option (SessionHead Item) :=
  (paging.pages[k]?).join.map fun row => ⟨row, (paging.positionAt (k + 1)).join⟩

/-- The session answers requests for one row with its pages. -/
def AnsweredBy (base : ThreadListInput)
    (list : ThreadListInput → Except DelegationControlError (DelegationThreadListResult Item)) :
    Prop :=
  ∀ k, k < paging.pages.length → list { base with limit := 1, cursor := (paging.positionAt k).join } =
      .ok ⟨(paging.pages[k]?).join.toList, (paging.positionAt (k + 1)).join⟩

theorem positionAt_resumable (k : Nat) : Resumable (paging.positionAt k) := by
  unfold positionAt Resumable
  split
  · split
    · simp
    · simpa using paging.nonempty k
  · simp

variable {k : Nat}

theorem positionAt_end (ended : paging.pages.length ≤ k) : paging.positionAt k = none := by
  rw [positionAt, if_neg (by omega)]

theorem positionAt_inside (inside : k < paging.pages.length) :
    paging.positionAt k = some (paging.positionAt k).join := by
  rw [positionAt, if_pos inside]
  rfl

/-- The continuation of a page is the position of the next one. -/
theorem positionAt_succ (k : Nat) :
    (paging.positionAt (k + 1)).join.map some = paging.positionAt (k + 1) := by
  unfold positionAt
  split <;> simp

/-- No page continues with the cursor that it was requested with. -/
theorem continues (k : Nat) : ¬ ((paging.positionAt (k + 1)).join.isSome = true ∧
    (paging.positionAt (k + 1)).join = (paging.positionAt k).join) := by
  by_cases more : k + 1 < paging.pages.length
  · by_cases first : k = 0
    · subst first
      have second : 1 < paging.pages.length := more
      simp [positionAt, second, show 0 < paging.pages.length by omega]
    · simp [positionAt, more, show k < paging.pages.length by omega, first, fresh]
  · simp [positionAt, more]

theorem rowsFrom_none (empty : paging.pages[k]? = some none) : paging.rowsFrom k = paging.rowsFrom (k + 1) ∧
      paging.emptyFrom k = paging.emptyFrom (k + 1) + 1 := by
  obtain ⟨inside, here⟩ := List.getElem?_eq_some_iff.mp empty
  rw [rowsFrom, emptyFrom, List.drop_eq_getElem_cons inside, here]
  exact ⟨rfl, List.countP_cons_of_pos rfl⟩

theorem rowsFrom_some {row : Item} (filled : paging.pages[k]? = some (some row)) :
    paging.rowsFrom k = row :: paging.rowsFrom (k + 1) ∧ paging.emptyFrom k = paging.emptyFrom (k + 1) := by
  obtain ⟨inside, here⟩ := List.getElem?_eq_some_iff.mp filled
  rw [rowsFrom, emptyFrom, List.drop_eq_getElem_cons inside, here]
  exact ⟨rfl, List.countP_cons_of_neg (by simp)⟩

theorem rowsFrom_end (ended : paging.pages.length ≤ k) : paging.rowsFrom k = [] := by
  rw [rowsFrom, drop_eq_nil_of_le ended]
  rfl

end Paging

section Reading
variable {paging : Paging Item} {base input : ThreadListInput}
  {list : ThreadListInput → Except DelegationControlError (DelegationThreadListResult Item)}

/-- A session stands before the page with its next row, or at its end. -/
structure SessionAt (base : ThreadListInput) (paging : Paging Item) (state : SessionState Item)
    (page : Nat) : Prop where
  answers : paging.AnsweredBy base state.list
  position : state.position = paging.positionAt page
  head : state.head = paging.headAt page
  atRow : paging.pages.length ≤ page ∨ ∃ row, paging.pages[page]? = some (some row)

/-- Reading the next head passes over empty pages only. -/
theorem readHead_spec (answers : paging.AnsweredBy base list)
    (same : ∀ cursor, { input with limit := 1, cursor } = { base with limit := 1, cursor })
    (budget spare : Nat) : ∀ (page : Nat), paging.emptyFrom page + 1 + spare ≤ budget →
      ∃ state page', readHead input list budget (paging.positionAt page) = .ok state ∧
        SessionAt base paging state page' ∧ paging.rowsFrom page' = paging.rowsFrom page ∧
        state.list = list ∧ paging.emptyFrom (page' + 1) + spare ≤ state.budget := by
  induction budget with
  | zero =>
    intro page enough
    omega
  | succ budget ih =>
    intro page enough
    by_cases inside : page < paging.pages.length
    · have answer := answers page inside
      cases content : paging.pages[page] with
      | none =>
        have empty : paging.pages[page]? = some none := by
          rw [getElem?_eq_getElem inside, content]
        obtain ⟨rows, count⟩ := paging.rowsFrom_none empty
        obtain ⟨state, page', ran, stands, kept, isList, left⟩ := ih (page + 1) (by omega)
        refine ⟨state, page', ?_, stands, kept.trans rows.symm, isList, left⟩
        rw [paging.positionAt_inside inside, readHead, same, answer, empty]
        simp only [bind, Except.bind, join_some, toList_none, length_nil,
          Nat.not_lt_zero, false_or, paging.continues page, if_false, head?_nil,
          paging.positionAt_succ]
        exact ran
      | some row =>
        have filled : paging.pages[page]? = some (some row) := by
          rw [getElem?_eq_getElem inside, content]
        obtain ⟨-, count⟩ := paging.rowsFrom_some filled
        refine ⟨⟨list, paging.positionAt page, budget, paging.headAt page⟩, page, ?_,
          ⟨answers, rfl, rfl, .inr ⟨row, filled⟩⟩, rfl, rfl, by
            show _ ≤ budget
            omega⟩
        rw [paging.positionAt_inside inside, readHead, same, answer, filled]
        simp only [bind, Except.bind, join_some, toList_some, length_singleton,
          Nat.lt_irrefl, false_or, paging.continues page, if_false, head?_cons, Paging.headAt,
          filled, map_some]
    · have ended : paging.pages.length ≤ page := by omega
      refine ⟨⟨list, none, budget + 1, none⟩, page, ?_, ⟨answers, ?_, ?_, .inl ended⟩, rfl, rfl, ?_⟩
      · rw [paging.positionAt_end ended, readHead]
      · exact (paging.positionAt_end ended).symm
      · rw [Paging.headAt, getElem?_eq_none ended]
        rfl
      · have none : paging.emptyFrom (page + 1) = 0 := by
          rw [Paging.emptyFrom, drop_eq_nil_of_le (by omega)]
          rfl
        show _ ≤ budget + 1
        omega

end Reading

section Merging
variable {base input : ThreadListInput} {compare : Item → Item → Int}

/-- The comparison of rows. -/
def less (compare : Item → Item → Int) (left right : Item) : Bool := compare left right < 0

/-- The loop over the heads is the scan for the first best row. -/
theorem bestHead_eq (compare : Item → Item → Int) (best : Option (Nat × SessionHead Item))
    (index : Nat) (sessions : List (SessionState Item)) :
    bestHead compare best index sessions =
      scanBest (fun left right => less compare left.row right.row) best index
        (sessions.map (·.head)) := by
  induction sessions generalizing best index with
  | nil => rfl
  | cons session sessions ih =>
    rw [bestHead, map_cons, ih]
    cases session.head with
    | none => rfl
    | some head =>
      cases best with
      | none => rfl
      | some given =>
        rw [scanBest, betterHead]
        simp [less]

/-- A session and the page it stands before. -/
abbrev Spot (Item : Type) := Paging Item × Nat

def spotRows (spot : Spot Item) : List Item := spot.1.rowsFrom spot.2

def spotPosition (spot : Spot Item) : SessionPosition := spot.1.positionAt spot.2

/-- Where the sessions of a call stand, with requests to spare for a page with this much room. -/
structure Standing (base : ThreadListInput) (room : Nat) (spots : List (Spot Item))
    (states : List (SessionState Item)) : Prop where
  count : spots.length = states.length
  each : ∀ (index : Nat) (spot : Spot Item) (state : SessionState Item), spots[index]? = some spot →
    states[index]? = some state →
    SessionAt base spot.1 state spot.2 ∧ spot.1.emptyFrom (spot.2 + 1) + (room - 1) ≤ state.budget

theorem SessionAt.rows {paging : Paging Item} {state : SessionState Item} {page : Nat}
    (stands : SessionAt base paging state page) :
    (paging.rowsFrom page).head? = state.head.map (·.row) := by
  rw [stands.head, Paging.headAt]
  rcases stands.atRow with ended | ⟨row, filled⟩
  · rw [paging.rowsFrom_end ended, getElem?_eq_none ended]
    rfl
  · rw [(paging.rowsFrom_some filled).1, filled]
    rfl

variable {room : Nat} {states : List (SessionState Item)} {index : Nat}

theorem Standing.spot {spots : List (Spot Item)}
    (standing : Standing base room spots states) {state : SessionState Item}
    (here : states[index]? = some state) : ∃ spot : Spot Item, spots[index]? = some spot ∧
      SessionAt base spot.1 state spot.2 ∧
      spot.1.emptyFrom (spot.2 + 1) + (room - 1) ≤ state.budget := by
  obtain ⟨inside, -⟩ := List.getElem?_eq_some_iff.mp here
  have there := List.getElem?_eq_getElem (show index < spots.length by rw [standing.count]; exact inside)
  exact ⟨_, there, standing.each index _ state there here⟩

theorem Standing.map_eq {β : Type} {spots : List (Spot Item)} (standing : Standing base room spots states)
    (f : Spot Item → β) (g : SessionState Item → β)
    (same : ∀ (spot : Spot Item) state, SessionAt base spot.1 state spot.2 → f spot = g state) :
    spots.map f = states.map g := by
  apply ext_getElem?
  intro index
  rw [getElem?_map, getElem?_map]
  cases state : states[index]? with
  | none =>
    rw [getElem?_eq_none_iff, ← standing.count, ← getElem?_eq_none_iff] at state
    rw [state]
    rfl
  | some state' =>
    obtain ⟨spot, here, stands, -⟩ := standing.spot state
    rw [here]
    exact congrArg some (same spot state' stands)

theorem Standing.heads {spots : List (Spot Item)} (standing : Standing base room spots states) :
    (spots.map spotRows).map List.head? = (states.map (·.head)).map (Option.map (·.row)) := by
  rw [List.map_map, List.map_map]
  exact standing.map_eq _ _ fun _ _ stands => stands.rows

theorem Standing.positions {spots : List (Spot Item)} (standing : Standing base room spots states) :
    states.map (·.position) = spots.map spotPosition :=
  (standing.map_eq spotPosition (·.position) fun _ _ stands => stands.position.symm).symm

theorem modify_eq_set {α : Type} {list : List α} {a : α} (f : α → α)
    (here : list[index]? = some a) : list.modify index f = list.set index (f a) := by
  apply List.ext_getElem?
  intro other
  by_cases same : index = other
  · subst same
    obtain ⟨inside, rfl⟩ := List.getElem?_eq_some_iff.mp here
    simp [inside]
  · simp [same]

theorem map_set_same {α β : Type} (f : α → β) {list : List α} {a b : α}
    (here : list[index]? = some a) (same : f b = f a) : (list.set index b).map f = list.map f := by
  obtain ⟨inside, rfl⟩ := List.getElem?_eq_some_iff.mp here
  rw [List.map_set, same]
  have whole := @List.set_getElem_self _ (list.map f) index (by simpa using inside)
  rwa [List.getElem_map] at whole

/-- The best head is that of a session before the page with its row. -/
theorem Standing.best {spots : List (Spot Item)}
    (standing : Standing base room spots states) {best : SessionHead Item}
    (found : bestHead compare none 0 states = some (index, best)) :
    firstBest (less compare) ((spots.map spotRows).map List.head?) = some (index, best.row) ∧
    ∃ spot state, spots[index]? = some spot ∧ states[index]? = some state ∧
      best.nextCursor.map some = spot.1.positionAt (spot.2 + 1) ∧
      spotRows spot = best.row :: spot.1.rowsFrom (spot.2 + 1) := by
  rw [bestHead_eq] at found
  have head := firstBest_found found
  refine ⟨?_, ?_⟩
  · have mapped := @scanBest_map _ (less compare) _ SessionHead.row none 0 (states.map (·.head))
    rw [found] at mapped
    rw [standing.heads, firstBest]
    exact mapped.symm
  · rw [getElem?_map] at head
    obtain ⟨state, here, isHead⟩ := map_eq_some_iff.mp head
    obtain ⟨spot, there, stands, -⟩ := standing.spot here
    refine ⟨spot, state, there, here, ?_⟩
    rw [stands.head, Paging.headAt] at isHead
    rcases stands.atRow with ended | ⟨row, filled⟩
    · rw [getElem?_eq_none ended] at isHead
      cases isHead
    · rw [filled] at isHead
      cases isHead
      exact ⟨Paging.positionAt_succ _ _, (Paging.rowsFrom_some _ filled).1⟩

theorem Standing.ended {spots : List (Spot Item)}
    (standing : Standing base room spots states) (none : bestHead compare none 0 states = none) :
    firstBest (less compare) ((spots.map spotRows).map List.head?) = Option.none ∧
      ∀ state ∈ states, state.position = Option.none := by
  rw [bestHead_eq] at none
  have noHead := firstBest_none none
  refine ⟨?_, ?_⟩
  · have mapped := @scanBest_map _ (less compare) _ SessionHead.row Option.none 0 (states.map (·.head))
    rw [show scanBest (fun left right => less compare left.row right.row) Option.none 0
      (states.map (·.head)) = Option.none from none] at mapped
    rw [standing.heads, firstBest]
    exact mapped.symm
  · intro state member
    obtain ⟨index, here⟩ := mem_iff_getElem?.mp member
    obtain ⟨spot, -, stands, -⟩ := standing.spot here
    have empty := noHead state.head (mem_map_of_mem member)
    rw [stands.position]
    rcases stands.atRow with ended | ⟨row, filled⟩
    · exact Paging.positionAt_end _ ended
    · rw [stands.head, Paging.headAt, filled] at empty
      cases empty

/-- What filling a page does to the sessions. -/
structure Emitted (compare : Item → Item → Int) (room : Nat) (spots : List (Spot Item))
    (ended : List (SessionState Item)) (emitted : List Item) (spots' : List (Spot Item)) : Prop where
  rows : emitted = (mergeSteps (less compare) room (spots.map spotRows)).1.map Prod.snd
  left : spots'.map spotRows = (mergeSteps (less compare) room (spots.map spotRows)).2
  same : spots'.map Prod.fst = spots.map Prod.fst
  positions : ended.map (·.position) = spots'.map spotPosition
  done : emitted.length < room → ∀ spot ∈ spots', spotPosition spot = none

/-- Taking the next row of a session in the merge. -/
theorem set_rows {spots : List (Spot Item)} {spot spot' : Spot Item} {row : Item}
    (here : spots[index]? = some spot) (next : spotRows spot = row :: spotRows spot') :
    (spots.set index spot').map spotRows = (spots.map spotRows).modify index List.tail := by
  have at_ : (spots.map spotRows)[index]? = some (row :: spotRows spot') := by
    rw [getElem?_map, here, map_some, next]
  rw [modify_eq_set List.tail at_, map_set, tail_cons]

/-- The loop that fills a page, by induction on its room. -/
theorem emitRows_spec (same : ∀ cursor, { input with limit := 1, cursor } = { base with limit := 1, cursor })
    (room : Nat) : ∀ (spots : List (Spot Item)) (states : List (SessionState Item))
      (threads : List Item), Standing base room spots states →
      ∃ ended emitted spots', emitRows input compare room states threads =
        .ok (ended, threads ++ emitted) ∧ Emitted compare room spots ended emitted spots' := by
  induction room with
  | zero =>
    intro spots states threads standing
    exact ⟨states, [], spots, by rw [emitRows, List.append_nil], rfl, rfl, rfl, standing.positions,
      by simp⟩
  | succ room ih =>
    intro spots states threads standing
    cases best : bestHead compare none 0 states with
    | none =>
      obtain ⟨stop, all⟩ := standing.ended best
      refine ⟨states, [], spots, ?_, ?_, ?_, rfl, standing.positions, ?_⟩
      · rw [emitRows, best, List.append_nil]
      · rw [mergeSteps, stop]
        rfl
      · rw [mergeSteps, stop]
      · intro _ spot member
        have position : spotPosition spot ∈ states.map (·.position) := by
          rw [standing.positions]
          exact List.mem_map_of_mem member
        obtain ⟨state, here, equal⟩ := List.mem_map.mp position
        rw [← equal]
        exact all state here
    | some taken =>
      obtain ⟨index, head⟩ := taken
      obtain ⟨first, spot, state, here, there, position, rows⟩ := standing.best best
      let next : Spot Item := (spot.1, spot.2 + 1)
      let moved := states.modify index fun session =>
        { session with position := head.nextCursor.map some }
      have isMoved : moved[index]? = some { state with position := head.nextCursor.map some } := by
        rw [List.getElem?_modify_eq, there]
        rfl
      obtain ⟨stands, budget⟩ := standing.each index spot state here there
      cases room with
      | zero =>
        refine ⟨moved, [head.row], spots.set index next, ?_, ?_, ?_, ?_, ?_, ?_⟩
        · rw [emitRows, best]
        · rw [mergeSteps, first]
          rfl
        · rw [mergeSteps, first, set_rows here rows]
          rfl
        · exact map_set_same Prod.fst here rfl
        · rw [List.map_set, ← standing.positions]
          simp only [moved]
          rw [modify_eq_set _ there, List.map_set, position]
          rfl
        · intro short
          simp at short
      | succ room =>
        obtain ⟨read, page, ran, reads, kept, -, spare⟩ :=
          readHead_spec stands.answers same state.budget room (spot.2 + 1) (by omega)
        have standing' : Standing base (room + 1) (spots.set index (spot.1, page))
            (moved.set index read) := by
          refine ⟨by simp [moved, standing.count], ?_⟩
          intro other spot' state' atSpot atState
          by_cases equal : index = other
          · subst equal
            obtain ⟨inside, -⟩ := List.getElem?_eq_some_iff.mp here
            obtain ⟨inside', -⟩ := List.getElem?_eq_some_iff.mp isMoved
            rw [List.getElem?_set_self inside] at atSpot
            rw [List.getElem?_set_self inside'] at atState
            cases atSpot
            cases atState
            exact ⟨reads, spare⟩
          · rw [List.getElem?_set_ne equal] at atSpot atState
            rw [List.getElem?_modify_ne _ _ equal] at atState
            obtain ⟨stands', budget'⟩ := standing.each other spot' state' atSpot atState
            exact ⟨stands', by omega⟩
        obtain ⟨ended, emitted, spots', filled, done⟩ :=
          ih (spots.set index (spot.1, page)) (moved.set index read) (threads ++ [head.row]) standing'
        have rows' : (spots.set index (spot.1, page)).map spotRows =
            (spots.map spotRows).modify index List.tail :=
          set_rows here (by
            rw [rows]
            exact congrArg (head.row :: ·) kept.symm)
        refine ⟨ended, head.row :: emitted, spots', ?_, ?_, ?_, ?_, done.positions, ?_⟩
        · rw [emitRows, best]
          simp only [moved] at isMoved
          simp only [isMoved]
          rw [← position] at ran
          rw [List.append_assoc, List.singleton_append] at filled
          rw [ran]
          exact filled
        · rw [mergeSteps, first, done.rows, rows']
          rfl
        · rw [mergeSteps, first, done.left, rows']
        · rw [done.same]
          exact map_set_same Prod.fst here rfl
        · intro short
          exact done.done (by simpa using short)

end Merging

section Calls
variable {base : ThreadListInput} {compare : Item → Item → Int}

/-- The lists of sessions that answer with pages. -/
abbrev SessionLists (Item : Type) :=
  List (ThreadListInput → Except DelegationControlError (DelegationThreadListResult Item))

theorem emptyFrom_le (paging : Paging Item) (k : Nat) : paging.emptyFrom k ≤ paging.emptyFrom 0 :=
  (drop_sublist k paging.pages).countP_le

theorem Standing.cons {room : Nat} {spot : Spot Item} {state : SessionState Item}
    {spots : List (Spot Item)} {states : List (SessionState Item)}
    (first : SessionAt base spot.1 state spot.2)
    (spare : spot.1.emptyFrom (spot.2 + 1) + (room - 1) ≤ state.budget)
    (others : Standing base room spots states) :
    Standing base room (spot :: spots) (state :: states) := by
  refine ⟨by simp [others.count], ?_⟩
  intro index spot' state' atSpot atState
  cases index with
  | zero =>
    cases atSpot
    cases atState
    exact ⟨first, spare⟩
  | succ index => exact others.each index spot' state' atSpot atState

/-- Reading the heads of all sessions. -/
theorem readHeads_spec {input : ThreadListInput}
    (same : ∀ cursor, { input with limit := 1, cursor } = { base with limit := 1, cursor })
    {room : Nat} (some_ : 1 ≤ room) {lists : SessionLists Item} {spots : List (Spot Item)}
    (answers : List.Forall₂ (fun list (spot : Spot Item) => spot.1.AnsweredBy base list) lists spots)
    (few : ∀ spot ∈ spots, spot.1.emptyFrom 0 + room ≤ MAX_SESSION_PAGE_REQUESTS) :
    ∃ states spots', ((lists.zip (spots.map spotPosition)).mapM fun (list, position) =>
        readHead input list MAX_SESSION_PAGE_REQUESTS position) = .ok states ∧
      Standing base room spots' states ∧ spots'.map spotRows = spots.map spotRows ∧
      spots'.map Prod.fst = spots.map Prod.fst := by
  induction answers with
  | nil => exact ⟨[], [], rfl, ⟨rfl, fun _ _ _ none => by cases none⟩, rfl, rfl⟩
  | @cons list spot lists spots answer answers ih =>
    have enough := few spot mem_cons_self
    have fewer := emptyFrom_le spot.1 spot.2
    obtain ⟨state, page, ran, stands, kept, -, spare⟩ :=
      readHead_spec answer same MAX_SESSION_PAGE_REQUESTS (room - 1) spot.2 (by omega)
    obtain ⟨states, spots', others, standing, rows, pagings⟩ :=
      ih fun other member => few other (mem_cons_of_mem spot member)
    refine ⟨state :: states, (spot.1, page) :: spots', ?_, standing.cons stands spare, ?_, ?_⟩
    · have first : readHead input list MAX_SESSION_PAGE_REQUESTS (spotPosition spot) = .ok state := ran
      rw [map_cons, zip_cons_cons, mapM_cons]
      simp only [first, others, bind, Except.bind]
      rfl
    · rw [map_cons, map_cons, rows]
      exact congrArg (· :: spots.map spotRows) kept
    · rw [map_cons, map_cons, pagings]

/-- The cursor that stands for these spots. -/
def spotsCursor (base : ThreadListInput) (generation : Utf16) (spots : List (Spot Item)) : Utf16 :=
  encodeCursor (mergedListCursor base.cwd base.sort generation (spots.map spotPosition))

theorem encodeCursor_ne_nil (cwd : Option Utf16) (sort : ThreadListSort) (generation : Utf16)
    (positions : List SessionPosition) :
    encodeCursor (mergedListCursor cwd sort generation positions) ≠ [] := by
  intro empty
  have text := decodeCursorText_encodeCursor (mergedListCursor cwd sort generation positions)
  have nothing : decodeCursorText [] = some [] := by decide
  rw [empty, nothing] at text
  cases text

theorem spotsCursor_ne_nil (generation : Utf16) (spots : List (Spot Item)) :
    spotsCursor base generation spots ≠ [] := encodeCursor_ne_nil _ _ _ _

theorem decodeCursor_spotsCursor {input : ThreadListInput} (cwd : input.cwd = base.cwd)
    (sort : input.sort = base.sort) (generation : Utf16) (spots : List (Spot Item)) :
    decodeCursor (spotsCursor base generation spots) input spots.length generation =
      .ok (spots.map spotPosition) := by
  have resumable : ∀ position ∈ spots.map spotPosition, Resumable position := by
    intro position member
    obtain ⟨spot, -, rfl⟩ := mem_map.mp member
    exact Paging.positionAt_resumable _ _
  have decoded := @decodeCursor_encodeCursor input generation _ resumable
  rwa [length_map, cwd, sort] at decoded

theorem startPositions_some {sessions : Nat} {input : ThreadListInput} {generation cursor : Utf16}
    (given : input.cursor = some cursor) (filled : cursor ≠ []) :
    startPositions sessions input generation = decodeCursor cursor input sessions generation := by
  have kept : (some cursor).filter (· ≠ []) = some cursor := by simp [filled]
  rw [startPositions, given, kept]

theorem startPositions_spots {input : ThreadListInput} (cwd : input.cwd = base.cwd)
    (sort : input.sort = base.sort) {generation : Utf16} {spots : List (Spot Item)}
    (stands : input.cursor = some (spotsCursor base generation spots) ∨
      (input.cursor = none ∧ spots.map spotPosition = List.replicate spots.length (some none))) :
    startPositions spots.length input generation = .ok (spots.map spotPosition) := by
  rcases stands with given | ⟨absent, same⟩
  · rw [startPositions_some given (spotsCursor_ne_nil generation spots), decodeCursor_spotsCursor cwd sort]
  · rw [same, startPositions, absent]
    rfl

/-- A call from where the sessions stand. -/
theorem mergeThreadListPages_spec {limit : Int} (bounds : 1 ≤ limit ∧ limit ≤ 100)
    {lists : SessionLists Item} {spots : List (Spot Item)} (generation : Utf16)
    (answers : List.Forall₂ (fun list (spot : Spot Item) => spot.1.AnsweredBy base list) lists spots)
    (few : ∀ spot ∈ spots, (spot.1.emptyFrom 0 : Int) + limit ≤ MAX_SESSION_PAGE_REQUESTS)
    {cursor : Option Utf16}
    (stands : cursor = some (spotsCursor base generation spots) ∨
      (cursor = none ∧ spots.map spotPosition = List.replicate spots.length (some none))) :
    ∃ page spots', mergeThreadListPages lists { base with limit, cursor } compare generation = .ok page ∧
      page.threads = (mergeSteps (less compare) limit.toNat (spots.map spotRows)).1.map Prod.snd ∧
      spots'.map spotRows = (mergeSteps (less compare) limit.toNat (spots.map spotRows)).2 ∧
      spots'.map Prod.fst = spots.map Prod.fst ∧
      page.nextCursor = (if (spots'.map spotPosition).any Option.isSome then
        some (spotsCursor base generation spots') else none) ∧
      (page.threads.length < limit.toNat → page.nextCursor = none) := by
  let input : ThreadListInput := { base with limit, cursor }
  have size : lists.length = spots.length := answers.length_eq
  have positions : startPositions spots.length input generation = .ok (spots.map spotPosition) :=
    startPositions_spots rfl rfl stands
  obtain ⟨states, spots₁, heads, standing, rows, pagings⟩ :=
    @readHeads_spec _ base input (fun _ => rfl) _ (show 1 ≤ limit.toNat by omega) _ _ answers (by
      intro spot member
      have here := few spot member
      omega)
  obtain ⟨ended, emitted, spots', ran, done⟩ := @emitRows_spec _ base input compare (fun _ => rfl)
    limit.toNat spots₁ states [] standing
  have page : mergeThreadListPages lists input compare generation = .ok ⟨emitted,
      if (spots'.map spotPosition).any Option.isSome then
        some (spotsCursor base generation spots') else none⟩ := by
    have allowed : ¬ (input.limit ≤ 0 ∨ 100 < input.limit) := by
      show ¬ (limit ≤ 0 ∨ 100 < limit)
      omega
    rw [mergeThreadListPages, if_neg allowed, size, positions]
    simp only [bind, Except.bind, heads]
    rw [show input.limit.toNat = limit.toNat from rfl, ran]
    simp only [done.positions]
    rfl
  refine ⟨_, spots', page, ?_, ?_, done.same.trans pagings, rfl, ?_⟩
  · rw [← rows]
    exact done.rows
  · rw [← rows]
    exact done.left
  · intro short
    refine if_neg ?_
    rw [List.any_eq_true]
    rintro ⟨position, member, more⟩
    obtain ⟨spot, here, rfl⟩ := List.mem_map.mp member
    rw [done.done short spot here] at more
    cases more

/-- Following the cursors of the pages, with the limits of the calls. -/
def followThreadLists (lists : SessionLists Item) (base : ThreadListInput)
    (compare : Item → Item → Int) (generation : Utf16) :
    Nat → (Nat → Int) → Option Utf16 → Except DelegationControlError (List Item)
  | 0, _, _ => .error (internalError "More pages follow")
  | calls + 1, limits, cursor => do
    let page ← mergeThreadListPages lists { base with limit := limits 0, cursor } compare generation
    match page.nextCursor with
    | none => return page.threads
    | some next =>
      return page.threads ++
        (← followThreadLists lists base compare generation calls (limits <| · + 1) (some next))

/-- Without a cursor, nothing is left of any list. -/
theorem rows_ended {spots : List (Spot Item)}
    (none : ¬ (spots.map spotPosition).any Option.isSome = true) : total (spots.map spotRows) = 0 := by
  rw [total_eq_zero_iff]
  intro rows member
  obtain ⟨spot, here, rfl⟩ := mem_map.mp member
  refine spot.1.rowsFrom_end ?_
  by_contra inside
  refine none (any_eq_true.mpr ⟨_, mem_map_of_mem here, ?_⟩)
  rw [spotPosition, spot.1.positionAt_inside (by omega)]
  rfl

/-- The pages from where the sessions stand, by induction on the calls. -/
theorem followThreadLists_ok {lists : SessionLists Item} {pagings : List (Paging Item)}
    (answers : List.Forall₂ (fun list paging => paging.AnsweredBy base list) lists pagings)
    {generation : Utf16} (calls : Nat) :
    ∀ (limits : Nat → Int) (spots : List (Spot Item)) (cursor : Option Utf16),
      (∀ n, 1 ≤ limits n ∧ limits n ≤ 100) →
      (∀ paging ∈ pagings, ∀ n, (paging.emptyFrom 0 : Int) + limits n ≤ MAX_SESSION_PAGE_REQUESTS) →
      spots.map Prod.fst = pagings →
      (cursor = some (spotsCursor base generation spots) ∨
        (cursor = none ∧ spots.map spotPosition = List.replicate spots.length (some none))) →
      total (spots.map spotRows) < calls →
      followThreadLists lists base compare generation calls limits cursor =
        .ok ((mergeTagged (less compare) (spots.map spotRows)).map Prod.snd) := by
  induction calls with
  | zero =>
    intro _ _ _ _ _ _ _ enough
    omega
  | succ calls ih =>
    intro limits spots cursor bounds few same stands enough
    have each : List.Forall₂ (fun list (spot : Spot Item) => spot.1.AnsweredBy base list) lists spots := by
      rw [← same, forall₂_map_right_iff] at answers
      exact answers
    have fewEach : ∀ spot ∈ spots, (spot.1.emptyFrom 0 : Int) + limits 0 ≤ MAX_SESSION_PAGE_REQUESTS := by
      intro spot member
      refine few spot.1 ?_ 0
      rw [← same]
      exact mem_map_of_mem member
    obtain ⟨page, spots', ran, threads, left, pagings', next, short⟩ :=
      @mergeThreadListPages_spec _ base compare _ (bounds 0) _ _ generation each fewEach _ stands
    obtain ⟨count, -⟩ := @mergeSteps_count _ (less compare) (limits 0).toNat (spots.map spotRows)
    have all := @mergeTagged_steps _ (less compare) (limits 0).toNat (spots.map spotRows)
    rw [← left] at count all
    rw [followThreadLists, ran, all, map_append, ← threads]
    simp only [bind, Except.bind]
    by_cases more : (spots'.map spotPosition).any Option.isSome = true
    · rw [if_pos more] at next
      have full : ¬ page.threads.length < (limits 0).toNat := by
        intro few
        rw [short few] at next
        cases next
      have positive := (bounds 0).1
      rw [threads, length_map] at full
      have rest := ih (fun n => limits (n + 1)) spots' (some (spotsCursor base generation spots'))
        (fun n => bounds (n + 1)) (fun paging member n => few paging member (n + 1))
        (pagings'.trans same) (.inl rfl) (by omega)
      rw [next]
      simp only [rest]
      rfl
    · rw [if_neg more] at next
      have nothing : mergeTagged (less compare) (spots'.map spotRows) = [] :=
        mergeSteps_empty _ (rows_ended more)
      rw [next, nothing, map_nil, append_nil]
      rfl

/-- The merge of the whole lists, each row with the index of its session. -/
def mergedRows (compare : Item → Item → Int) (pagings : List (Paging Item)) : List (Nat × Item) :=
  mergeTagged (less compare) (pagings.map Paging.rows)

/-- Following the cursors shows the merge of the whole lists: the rows of each session in their
order, and of sorted lists a sorted one with ties in the order of the sessions. -/
structure ListsMerged (lists : SessionLists Item) (base : ThreadListInput)
    (compare : Item → Item → Int) (generation : Utf16) (pagings : List (Paging Item))
    (limits : Nat → Int) : Prop where
  followed : ∃ calls, followThreadLists lists base compare generation calls limits none =
    .ok ((mergedRows compare pagings).map Prod.snd)
  each : ∀ index, ((mergedRows compare pagings).filter (·.1 = index)).map Prod.snd =
    ((pagings.map Paging.rows)[index]?).getD []
  sorted : WeakOrder (less compare) →
    (∀ paging ∈ pagings, paging.rows.Pairwise fun a b => less compare b a = false) →
    (mergedRows compare pagings).Pairwise fun x y =>
      less compare y.2 x.2 = false ∧ (less compare x.2 y.2 = false → x.1 ≤ y.1)

end Calls

/-- Pages with cursors of one letter, repeated. -/
def unaryPaging (pages : List (Option Int)) : Paging Int where
  pages
  place := fun k => List.replicate (k + 1) 97
  nonempty := fun k => by simp
  fresh := fun k same => by simpa using congrArg List.length same

/-- A session that answers with the page that a cursor of repeated letters names. -/
def unaryList (pages : List (Option Int)) (input : ThreadListInput) :
    Except DelegationControlError (DelegationThreadListResult Int) :=
  let page := input.cursor.elim 0 (·.length - 1)
  .ok ⟨(pages[page]?).join.toList, ((unaryPaging pages).positionAt (page + 1)).join⟩

theorem unaryList_answers (pages : List (Option Int)) (base : ThreadListInput) :
    (unaryPaging pages).AnsweredBy base (unaryList pages) := by
  intro k inside
  have page : ((unaryPaging pages).positionAt k).join.elim 0 (·.length - 1) = k := by
    rw [Paging.positionAt, if_pos inside]
    by_cases first : k = 0 <;> simp [first, unaryPaging]
  simp only [unaryList, page]
  rfl

def sampleInput : ThreadListInput := ⟨none, none, 1, none, .updatedDesc⟩

def samplePages : List (List (Option Int)) := [[some 1, none, some 3], [some 1, some 2]]

/-- A session with more empty pages than requests fails the call. -/
theorem readHead_exceeds {paging : Paging Item} {base : ThreadListInput}
    {list : ThreadListInput → Except DelegationControlError (DelegationThreadListResult Item)}
    (answers : paging.AnsweredBy base list) (budget : Nat) :
    ∀ page, page + budget < paging.pages.length → (∀ content ∈ paging.pages, content = none) →
      readHead base list budget (paging.positionAt page) =
        .error (internalError "Thread list exceeded its request bound") := by
  induction budget with
  | zero =>
    intro page inside _
    rw [paging.positionAt_inside (by omega), readHead]
  | succ budget ih =>
    intro page inside empty
    have here : paging.pages[page]? = some none := by
      rw [getElem?_eq_getElem (by omega)]
      exact congrArg some (empty _ (getElem_mem _))
    rw [paging.positionAt_inside (by omega), readHead, answers page (by omega), here]
    simp only [bind, Except.bind, join_some, toList_none, length_nil,
      Nat.not_lt_zero, false_or, paging.continues page, if_false, head?_nil,
      paging.positionAt_succ]
    exact ih (page + 1) (by omega) empty

def emptyPages : List (Option Int) := List.replicate 257 none

/-- A session that answers a request for one row with two. -/
def pairList (_ : ThreadListInput) : Except DelegationControlError (DelegationThreadListResult Int) :=
  .ok ⟨[1, 2], none⟩

theorem emptyPages_length : (unaryPaging emptyPages).pages.length = 257 := length_replicate

theorem emptyPages_fails : mergeThreadListPages [unaryList emptyPages] sampleInput (· - ·) [103] =
    .error (internalError "Thread list exceeded its request bound") := by
  have failed := readHead_exceeds (unaryList_answers emptyPages sampleInput) MAX_SESSION_PAGE_REQUESTS 0 (by
      rw [emptyPages_length]
      decide) (fun _ => eq_of_mem_replicate)
  have first : (unaryPaging emptyPages).positionAt 0 = some none := by
    rw [Paging.positionAt, emptyPages_length]
    rfl
  rw [first] at failed
  have allowed : ¬ (sampleInput.limit ≤ 0 ∨ 100 < sampleInput.limit) := by decide
  rw [mergeThreadListPages, if_neg allowed]
  simp only [startPositions, sampleInput, filter_none, length_singleton,
    replicate_one, zip_cons_cons, zip_nil_right, mapM_cons, mapM_nil,
    bind, Except.bind]
  simp only [sampleInput] at failed
  rw [failed]

end CodexHost.Guarantees.DelegationThreadList
