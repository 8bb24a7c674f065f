import CodexHost.Foundation.Selection
import CodexHost.Source.HostRuntime.ExternalThreadHistory

/-!
# Following the cursors of a Thread's history

The cursor after a page stands for the Turns that come after it in the direction of the request. So the
pages that follow one another are the whole history, whatever their limits, and the backwards cursor of
a page leads through its first Turn to the Turns before it.
-/
namespace CodexHost.Guarantees.HistoryPages
open Foundation Source.ProtocolCore Source.HostRuntime List Utf16
open Source.HostRuntime.ExternalThreadHistory

/-- The ID of a Turn that has one. -/
def turnKey (turn : JsonObject) : Utf16 :=
  match id turn "Turn" with
  | .ok key => key
  | .error _ => []

/-- Every Turn has an ID of its own. -/
structure Distinct (turns : List JsonObject) : Prop where
  named : ∀ turn ∈ turns, id turn "Turn" = .ok (turnKey turn)
  once : (turns.map turnKey).Nodup

/-- The Turns in the order of a direction. -/
def directed (direction : SortDirection) (turns : List JsonObject) : List JsonObject :=
  match direction with
  | .asc => turns
  | .desc => turns.reverse

def opposite : SortDirection → SortDirection
  | .asc => .desc
  | .desc => .asc

theorem directed_opposite (direction : SortDirection) (turns : List JsonObject) :
    directed (opposite direction) turns = (directed direction turns).reverse := by
  cases direction with
  | asc => rfl
  | desc => exact (reverse_reverse turns).symm

section Anchor
variable {turns before after : List JsonObject} {turn : JsonObject} {direction : SortDirection}

theorem Distinct.directed (distinct : Distinct turns) (direction : SortDirection) :
    Distinct (directed direction turns) := by
  cases direction with
  | asc => exact distinct
  | desc =>
    refine ⟨fun turn member => distinct.named turn (mem_reverse.mp member), ?_⟩
    rw [HistoryPages.directed, map_reverse, nodup_reverse]
    exact distinct.once

theorem turnKey_ne (named : id turn "Turn" = .ok (turnKey turn)) : turnKey turn ≠ [] := by
  intro empty
  rw [empty] at named
  unfold ExternalThreadHistory.id at named
  split at named
  · split at named
    · cases named
    · next some =>
      cases named
      exact some rfl
  · cases named

/-- The search finds the Turn with the ID. -/
theorem findIndex_turn (distinct : Distinct (before ++ turn :: after)) :
    findIndex (isAnchor (turnKey turn)) (before ++ turn :: after) = .ok (some before.length) := by
  induction before with
  | nil =>
    simp [findIndex, isAnchor, distinct.named turn (by simp), bind, Except.bind, pure, Except.pure]
  | cons first rest ih =>
    have later : Distinct (rest ++ turn :: after) :=
      ⟨fun other member => distinct.named other (mem_cons_of_mem first member),
        (nodup_cons.mp distinct.once).2⟩
    have apart : turnKey first ≠ turnKey turn := by
      intro same
      refine (nodup_cons.mp distinct.once).1 ?_
      rw [same]
      exact mem_map_of_mem (by simp)
    simp [findIndex, isAnchor, distinct.named first (by simp), ih later, bind, Except.bind, pure,
      Except.pure, apart]

theorem turnEntries_start : turnEntries turns direction none = .ok (directed direction turns) := by
  cases direction with
  | asc => rfl
  | desc =>
    simp only [turnEntries, turnsFrom, directed, pure, Except.pure, reduceCtorEq, if_false]
    rw [take_of_length_le (by omega)]

/-- The entries from an anchor on, with it or after it. -/
theorem turnEntries_anchor (distinct : Distinct turns)
    (split : directed direction turns = before ++ turn :: after) (includeAnchor : Bool) :
    turnEntries turns direction (some ⟨turnKey turn, includeAnchor⟩) =
      .ok (if includeAnchor then turn :: after else after) := by
  have found := findIndex_turn (split ▸ distinct.directed direction)
  cases direction with
  | asc =>
    have is : turns = before ++ turn :: after := split
    subst is
    have at_ : turnEntries (before ++ turn :: after) .asc (some ⟨turnKey turn, includeAnchor⟩) =
        .ok (turnsFrom (before ++ turn :: after) .asc (before.length + if includeAnchor then 0 else 1)) := by
      simp [turnEntries, found, bind, Except.bind, pure, Except.pure]
    rw [at_, turnsFrom]
    cases includeAnchor with
    | true => simp
    | false =>
      have next : (before.length + 1 : Int).toNat = before.length + 1 := by omega
      simp [next]
  | desc =>
    have isReverse : turns.reverse = before ++ turn :: after := split
    have is : turns = (after.reverse ++ [turn]) ++ before.reverse := by
      rw [← reverse_reverse turns, isReverse]
      simp
    have size : turns.length - 1 - before.length = after.length := by
      rw [is]
      simp
    have foundLast : findLastIndex (isAnchor (turnKey turn)) turns = .ok (some after.length) := by
      have reversed : findIndex (isAnchor (turnKey turn)) turns.reverse = .ok (some before.length) :=
        isReverse ▸ found
      simp [findLastIndex, reversed, bind, Except.bind, pure, Except.pure, size]
    have at_ : turnEntries turns .desc (some ⟨turnKey turn, includeAnchor⟩) =
        .ok (turnsFrom turns .desc (after.length + if includeAnchor then 0 else -1)) := by
      simp [turnEntries, foundLast, bind, Except.bind, pure, Except.pure]
    rw [at_, turnsFrom]
    cases includeAnchor with
    | true =>
      have last : (after.length + (if true = true then 0 else -1) + 1 : Int).toNat =
          (after.reverse ++ [turn]).length := by
        simp
      rw [last, is, take_left]
      simp
    | false =>
      have last : (after.length + (if false = true then 0 else -1) + 1 : Int).toNat =
          after.reverse.length := by
        rw [length_reverse, if_neg Bool.false_ne_true]
        omega
      rw [last, is, append_assoc, take_left]
      simp

end Anchor

theorem parseCursor_serializeCursor {anchor : Utf16} (some : anchor ≠ []) (includeAnchor : Bool) :
    parseCursor (.some (.string (serializeCursor anchor includeAnchor))) =
      .ok (.some ⟨anchor, includeAnchor⟩) := by
  have regular : Json.Regular JsonNumber.format (.object [(ofString "anchor", .string anchor),
        (ofString "includeAnchor", .bool includeAnchor)]) := by
    have keys : [ofString "anchor", ofString "includeAnchor"].Nodup := by decide
    exact ⟨keys, trivial, trivial, trivial⟩
  have filled : anchor.length > 0 := length_pos_iff.mpr some
  simp only [parseCursor, optionalText, serializeCursor, text_ofText,
    Json.parse_write JsonNumber.format regular, bind, Except.bind, Option.bind]
  have anchorIs : JsonObject.get [(ofString "anchor", .string anchor),
      (ofString "includeAnchor", .bool includeAnchor)] "anchor" = .some (.string anchor) := by
    rfl
  have includeIs : JsonObject.get [(ofString "anchor", .string anchor),
      (ofString "includeAnchor", .bool includeAnchor)] "includeAnchor" =
        .some (.bool includeAnchor) := by
    rfl
  simp only [cursorOf, anchorIs, includeIs, if_pos filled]
  rfl

/-- A request for a page. -/
def request (limit : JsonValue) (direction : SortDirection) (cursor : Option Utf16) (view : ItemsView) :
    JsonObject :=
  [(Utf16.ofString "limit", limit), (Utf16.ofString "sortDirection",
      .string (Utf16.ofString (match direction with | .asc => "asc" | .desc => "desc"))),
    (Utf16.ofString "cursor", cursor.elim .null .string),
    (Utf16.ofString "itemsView", .string (Utf16.ofString (match view with
      | .notLoaded => "notLoaded" | .summary => "summary" | .full => "full")))]

/-- The page of these entries. -/
def pageOf (entries : List JsonObject) (limit : Nat) (view : ItemsView) : ExternalHistoryPage where
  data := (entries.take limit).map (turnWithItemsView · view)
  nextCursor :=
    if limit < entries.length then
      (entries.take limit).getLast?.map fun last => serializeCursor (turnKey last) false
    else none
  backwardsCursor := entries.head?.map fun first => serializeCursor (turnKey first) true

variable {limit : Nat}

theorem pageSize_pos {value : Option JsonValue} (is : pageSize value = .ok limit) : 0 < limit := by
  unfold pageSize at is
  split at is
  · cases is
    decide
  · cases is
    decide
  · split at is
    · cases is
      unfold MAX_PAGE_SIZE
      omega
    · cases is
  · cases is

section Page
variable {turns entries : List JsonObject} {direction : SortDirection} {cursor : Option Utf16}

/-- The entries that a request with the cursor starts with: the rest of the Turns. -/
def CursorAt (turns : List JsonObject) (direction : SortDirection) (cursor : Option Utf16)
    (entries : List JsonObject) : Prop :=
  (∃ parsed, parseCursor (some (cursor.elim .null .string)) = .ok parsed ∧
    turnEntries turns direction parsed = .ok entries) ∧
  ∃ before, directed direction turns = before ++ entries

theorem cursorAt_start : CursorAt turns direction none (directed direction turns) :=
  ⟨⟨none, rfl, turnEntries_start⟩, [], rfl⟩

theorem cursorAt_anchor (distinct : Distinct turns) {before after : List JsonObject} {turn : JsonObject}
    (split : directed direction turns = before ++ turn :: after) (includeAnchor : Bool) :
    CursorAt turns direction (some (serializeCursor (turnKey turn) includeAnchor))
      (if includeAnchor then turn :: after else after) := by
  have named := (distinct.directed direction).named turn (by simp [split])
  refine ⟨⟨some ⟨turnKey turn, includeAnchor⟩, parseCursor_serializeCursor (turnKey_ne named) _,
    turnEntries_anchor distinct split includeAnchor⟩, ?_⟩
  cases includeAnchor with
  | true => exact ⟨before, split⟩
  | false => exact ⟨before ++ [turn], by simp [split]⟩

theorem pageEntries_eq (named : ∀ turn ∈ entries, id turn "Turn" = .ok (turnKey turn))
    (some : 0 < limit) : pageEntries entries (id · "Turn") limit = .ok (entries.take limit,
        if limit < entries.length then
          (entries.take limit).getLast?.map fun last => serializeCursor (turnKey last) false
        else none,
        entries.head?.map fun first => serializeCursor (turnKey first) true) := by
  have first : (entries.take limit).head? = entries.head? := by
    rw [head?_take, if_neg (by omega)]
  unfold pageEntries
  simp only [first]
  cases isHead : entries.head? with
  | none =>
    rw [head?_eq_none_iff] at isHead
    rw [isHead]
    simp [pure, Except.pure, bind, Except.bind]
  | some head =>
    have isNamed := named head (mem_of_mem_head? isHead)
    cases isLast : (entries.take limit).getLast? with
    | none => simp [isNamed, pure, Except.pure, bind, Except.bind]
    | some last =>
      have lastNamed := named last (mem_of_mem_take (mem_of_getLast? isLast))
      by_cases more : limit < entries.length <;>
        simp [isNamed, lastNamed, more, pure, Except.pure, bind, Except.bind]

/-- A request is answered with the page of its entries. -/
theorem listExternalTurns_request (distinct : Distinct turns)
    (at_ : CursorAt turns direction cursor entries) (limit : JsonValue) (view : ItemsView) :
    listExternalTurns turns (request limit direction cursor view) =
      (pageSize (some limit)).map (pageOf entries · view) := by
  obtain ⟨⟨parsed, parses, isEntries⟩, before, split⟩ := at_
  have named : ∀ turn ∈ entries, id turn "Turn" = .ok (turnKey turn) := fun turn member =>
    (distinct.directed direction).named turn (by simp [split, member])
  have sort : sortDirection ((request limit direction cursor view).get "sortDirection") .desc =
      .ok direction := by
    cases direction <;> rfl
  have isView : itemsView ((request limit direction cursor view).get "itemsView") = .ok view := by
    cases view <;> rfl
  have isCursor : (request limit direction cursor view).get "cursor" = some (cursor.elim .null .string) := rfl
  have isLimit : (request limit direction cursor view).get "limit" = some limit := rfl
  unfold listExternalTurns
  rw [sort, isCursor, parses, isLimit, isView]
  cases size : pageSize (some limit) with
  | error error => rfl
  | ok count =>
    have page := pageEntries_eq named (pageSize_pos size)
    simp [bind, Except.bind, isEntries, page, pure, Except.pure, Except.map, pageOf]

/-- The next cursor stands for the rest of the entries. -/
theorem cursorAt_next (distinct : Distinct turns) (at_ : CursorAt turns direction cursor entries) (view : ItemsView) {next : Utf16}
    (is : (pageOf entries limit view).nextCursor = some next) :
    limit < entries.length ∧ CursorAt turns direction next (entries.drop limit) := by
  obtain ⟨-, before, split⟩ := at_
  simp only [pageOf] at is
  split at is
  · next more =>
    obtain ⟨last, isLast, rfl⟩ := Option.map_eq_some_iff.mp is
    obtain ⟨front, isFront⟩ := getLast?_eq_some_iff.mp isLast
    have whole : front ++ last :: entries.drop limit = entries := by
      conv_rhs => rw [← take_append_drop limit entries, isFront]
      simp
    have parts : directed direction turns = (before ++ front) ++ last :: entries.drop limit := by
      rw [split, append_assoc, whole]
    exact ⟨more, cursorAt_anchor distinct parts false⟩
  · cases is

end Page

/-- The pages of requests that follow the next cursors to the end, with the limits of the requests. -/
inductive Reading (turns : List JsonObject) (direction : SortDirection) (view : ItemsView) :
    Option Utf16 → List JsonValue → List ExternalHistoryPage → Prop
  | last {cursor : Option Utf16} {limit : JsonValue} {page : ExternalHistoryPage}
      (is : listExternalTurns turns (request limit direction cursor view) = .ok page)
      (ends : page.nextCursor = none) : Reading turns direction view cursor [limit] [page]
  | more {cursor : Option Utf16} {limit : JsonValue} {limits : List JsonValue}
      {page : ExternalHistoryPage} {pages : List ExternalHistoryPage} {next : Utf16}
      (is : listExternalTurns turns (request limit direction cursor view) = .ok page)
      (continues : page.nextCursor = some next)
      (later : Reading turns direction view (some next) limits pages) :
      Reading turns direction view cursor (limit :: limits) (page :: pages)

/-- The Turns of the pages. -/
def turnsOf (pages : List ExternalHistoryPage) : List JsonObject := pages.flatMap (·.data)

section Reading
variable {turns entries : List JsonObject} {direction : SortDirection} {cursor : Option Utf16}
  {view : ItemsView} {limits : List JsonValue} {pages : List ExternalHistoryPage}

/-- The pages are the entries, and each starts where the pages before it end. -/
theorem reading_turns (reading : Reading turns direction view cursor limits pages)
    (distinct : Distinct turns) (at_ : CursorAt turns direction cursor entries) :
    turnsOf pages = entries.map (turnWithItemsView · view) ∧
    ∀ earlier page later, pages = earlier ++ page :: later → ∃ before rest, entries = before ++ rest ∧
      (rest = [] → entries = []) ∧ turnsOf earlier = before.map (turnWithItemsView · view) ∧
      page.backwardsCursor = rest.head?.map fun first => serializeCursor (turnKey first) true := by
  induction reading generalizing entries with
  | @last cursor limit page is ends =>
    rw [listExternalTurns_request distinct at_, map_ok] at is
    obtain ⟨count, size, rfl⟩ := is
    have positive := pageSize_pos size
    have all : entries.length ≤ count := by
      by_contra more
      have filled : (entries.take count).getLast? ≠ none := by
        grind
      simp only [pageOf] at ends
      rw [if_pos (by omega), Option.map_eq_none_iff] at ends
      exact filled ends
    constructor
    · simp [turnsOf, pageOf, take_of_length_le all]
    · intro earlier page later parts
      have single : earlier = [] ∧ page = pageOf entries count view := by
        cases earlier with
        | nil =>
          cases parts
          exact ⟨rfl, rfl⟩
        | cons first others => simp at parts
      refine ⟨[], entries, rfl, fun none => none, by simp [single.1, turnsOf], ?_⟩
      rw [single.2]
      rfl
  | @more cursor limit limits page pages next is continues _ ih =>
    rw [listExternalTurns_request distinct at_, map_ok] at is
    obtain ⟨count, size, rfl⟩ := is
    obtain ⟨more, rest⟩ := cursorAt_next distinct at_ view continues
    obtain ⟨data, cursors⟩ := ih rest
    constructor
    · unfold turnsOf at data ⊢
      rw [flatMap_cons, data]
      simp only [pageOf]
      rw [← map_append, take_append_drop]
    · intro earlier page later parts
      cases earlier with
      | nil =>
        cases parts
        exact ⟨[], entries, rfl, fun none => none, rfl, rfl⟩
      | cons first others =>
        cases parts
        obtain ⟨before, rest, split, filled, front, back⟩ := cursors others page later rfl
        refine ⟨entries.take count ++ before, rest, ?_, fun none => ?_, ?_, back⟩
        · rw [append_assoc, ← split, take_append_drop]
        · exact absurd (drop_eq_nil_iff.mp (filled none)) (by omega)
        · unfold turnsOf at front ⊢
          rw [flatMap_cons, front, map_append]
          rfl

/-- Enough accepted limits read to the end. -/
theorem reading_ends (distinct : Distinct turns) (limits : List JsonValue)
    (accepted : ∀ limit ∈ limits, ∃ count, pageSize (some limit) = .ok count)
    (at_ : CursorAt turns direction cursor entries) (enough : entries.length < limits.length) :
    ∃ used pages, used <+: limits ∧ Reading turns direction view cursor used pages := by
  induction limits generalizing cursor entries with
  | nil => simp at enough
  | cons limit limits ih =>
    obtain ⟨count, size⟩ := accepted limit mem_cons_self
    have is := listExternalTurns_request distinct at_ limit view
    rw [size] at is
    cases continues : (pageOf entries count view).nextCursor with
    | none => exact ⟨[limit], _, by simp, .last is continues⟩
    | some next =>
      obtain ⟨more, rest⟩ := cursorAt_next distinct at_ view continues
      have shorter : (entries.drop count).length < limits.length := by
        have positive := pageSize_pos size
        rw [length_drop]
        simp only [length_cons] at enough
        omega
      obtain ⟨used, pages, isPrefix, reading⟩ :=
        ih (fun other member => accepted other (mem_cons_of_mem limit member)) rest shorter
      obtain ⟨unused, rfl⟩ := isPrefix
      exact ⟨limit :: used, _, ⟨unused, rfl⟩, .more is continues reading⟩

end Reading

/-- Following the next cursors gives the whole history in the direction of the requests, with whatever
limits. The backwards cursor of a page leads, in the opposite direction, through the first Turn of the
page to exactly the Turns that neither it nor the pages after it have. -/
theorem history_pages (turns : List JsonObject) (distinct : Distinct turns) (direction : SortDirection)
    (view : ItemsView) :
    (∀ limits : List JsonValue, (∀ limit ∈ limits, ∃ count, pageSize (some limit) = .ok count) →
      turns.length < limits.length →
      ∃ used pages, used <+: limits ∧ Reading turns direction view none used pages) ∧
    ∀ limits pages, Reading turns direction view none limits pages →
      turnsOf pages = (directed direction turns).map (turnWithItemsView · view) ∧
      ∀ earlier page later, pages = earlier ++ page :: later → (page.backwardsCursor = none ↔ turns = []) ∧
        ∀ cursor, page.backwardsCursor = some cursor → ∃ before anchor after,
          directed direction turns = before ++ anchor :: after ∧
          turnsOf (page :: later) = (anchor :: after).map (turnWithItemsView · view) ∧
          ∀ otherView : ItemsView,
            (∀ limits : List JsonValue, (∀ limit ∈ limits, ∃ count, pageSize (some limit) = .ok count) →
              turns.length < limits.length → ∃ used pages, used <+: limits ∧
                Reading turns (opposite direction) otherView (some cursor) used pages) ∧
            ∀ limits pages, Reading turns (opposite direction) otherView (some cursor) limits pages →
              turnsOf pages = (anchor :: before.reverse).map (turnWithItemsView · otherView) := by
  have size (direction : SortDirection) : (directed direction turns).length = turns.length := by
    cases direction with
    | asc => rfl
    | desc => exact length_reverse
  constructor
  · intro limits accepted enough
    exact reading_ends distinct limits accepted cursorAt_start (by rwa [size])
  · intro limits pages reading
    obtain ⟨data, cursors⟩ := reading_turns reading distinct cursorAt_start
    refine ⟨data, fun earlier page later parts => ?_⟩
    obtain ⟨before, rest, split, filled, front, back⟩ := cursors earlier page later parts
    have here : turnsOf (page :: later) = rest.map (turnWithItemsView · view) := by
      rw [parts, split, map_append] at data
      unfold turnsOf at data front ⊢
      rw [flatMap_append, front] at data
      exact append_cancel_left data
    cases rest with
    | nil =>
      have none : directed direction turns = [] := filled rfl
      have empty : turns = [] := length_eq_zero_iff.mp (by rw [← size direction, none]; rfl)
      exact ⟨⟨fun _ => empty, fun _ => back⟩, fun cursor is => nomatch back.symm.trans is⟩
    | cons anchor after =>
      have filled : turns ≠ [] := by
        rintro rfl
        cases direction <;> simp [directed] at split
      have some : page.backwardsCursor ≠ none := by
        rw [back]
        exact nofun
      refine ⟨⟨fun none => absurd none some, fun none => absurd none filled⟩, ?_⟩
      intro cursor is
      rw [back] at is
      cases is
      refine ⟨before, anchor, after, split, here, fun otherView => ?_⟩
      have reversed : directed (opposite direction) turns = after.reverse ++ anchor :: before.reverse := by
        rw [directed_opposite, split]
        simp
      have at_ := cursorAt_anchor distinct reversed true
      constructor
      · intro limits accepted enough
        refine reading_ends distinct limits accepted at_ ?_
        have whole := size direction
        rw [split] at whole
        simp only [if_true, length_append, length_cons, length_reverse] at whole ⊢
        omega
      · intro limits pages reading
        exact (reading_turns reading distinct at_).1

def sampleTurns : List JsonObject :=
  [[(Utf16.ofString "id", .string (Utf16.ofString "a"))],
    [(Utf16.ofString "id", .string (Utf16.ofString "b"))]]

theorem sampleTurns_distinct : Distinct sampleTurns where
  named := by
    intro turn member
    simp only [sampleTurns, mem_cons, not_mem_nil, or_false] at member
    rcases member with rfl | rfl <;> rfl
  once := by decide

/-- Two Turns, one on a page. -/
theorem history_pages_sample : ∃ used pages, Reading sampleTurns .desc .summary none used pages ∧
    turnsOf pages = sampleTurns.reverse.map (turnWithItemsView · .summary) := by
  obtain ⟨ends, whole⟩ := history_pages sampleTurns sampleTurns_distinct .desc .summary
  obtain ⟨used, pages, -, reading⟩ := ends (List.replicate 3 (.number (.integer 1)))
    (fun limit member => ⟨1, by rw [eq_of_mem_replicate member]; rfl⟩) (by decide)
  exact ⟨used, pages, reading, (whole used pages reading).1⟩

end CodexHost.Guarantees.HistoryPages
