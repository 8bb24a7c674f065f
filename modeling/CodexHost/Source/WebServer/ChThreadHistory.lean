import CodexHost.Source.HostRuntime.ClientSnapshotCompaction

/-!
# The history of a Thread in the Web server

`packages/web-server/src/ch-thread-history.ts`, over a Host with the client channel. Turns are objects, which
the window and a request in flight share. What the view makes of Turns is an input: whether and where an
update throws. The commands, the queue and the other parts of a snapshot are left out.
-/
namespace CodexHost.Source.WebServer.ChThreadHistory
open Foundation Source.HostRuntime.ClientSnapshotCompaction

/-- The fingerprint is absent from paginated reads. -/
structure ChTurn where
  turn : Turn
  fingerprint : Option Text

structure Objects where
  get : Nat → ChTurn
  next : Nat

namespace Objects

def initial : Objects := ⟨fun _ => ⟨⟨[], [], [], .empty⟩, none⟩, 0⟩

def make (object : ChTurn) (objects : Objects) : Objects :=
  ⟨Function.update objects.get objects.next object, objects.next + 1⟩

def idOf (objects : Objects) (ref : Nat) : Utf16 := (objects.get ref).turn.id

end Objects

/-- `new Map(this.thread.turns.map((turn) => [turn.id, turn]))` -/
abbrev HeldTurns := OrderedMap Utf16 Nat

/-- The rest of a thread record. -/
structure ThreadRecord where
  updatedAt : Int
  active : Bool
  deriving DecidableEq, Repr

/-- The gap to the loaded tail is filled from the page at the cursor. -/
structure Filling where
  thread : ThreadRecord
  descending : List Nat
  recentCursor : Option Text
  cursor : Text
  seen : List Text
  newestKnown : Utf16

/-- What a refresh waits for. -/
inductive Refreshing where
  | snapshot (held : HeldTurns) (knownTurns : List (Utf16 × Text)) (force : Bool)
  | fullSnapshot (held : HeldTurns) (force : Bool)
  | page (filling : Filling)

/-- An answer from which the client has built a snapshot. The result is `none` where it refused. -/
structure Reconstruction where
  snapshot : ClientThreadSnapshot
  answer : List ServedTurn
  result : Option (List ChTurn)

structure State where
  objects : Objects
  turns : List Nat
  thread : ThreadRecord
  loaded : Bool
  retired : Bool
  refreshing : Option Refreshing
  loadingOlder : Option Text
  cursor : Option Text
  seenCursors : List Text
  /-- For the properties only. -/
  log : List Reconstruction

def initial (thread : ThreadRecord) : State :=
  ⟨.initial, [], thread, false, false, none, none, none, [], []⟩

def KNOWN_TURNS : Nat := 16

/-- `null` and the empty string are falsy. -/
def truthy (cursor : Option Text) : Bool := cursor.any (· ≠ [])

/-- How an update of the view ends: it may throw before the thread is assigned, or after. -/
inductive UpdateEnd where
  | done | refused | failed
  deriving DecidableEq, Repr

def forgetKnownTurns (s : State) : State :=
  { s with
    objects := { s.objects with
      get := fun ref =>
        if ref ∈ s.turns then { s.objects.get ref with fingerprint := none } else s.objects.get ref } }

def heldTurns (s : State) : HeldTurns :=
  OrderedMap.empty.setAll (s.turns.map fun ref => (s.objects.idOf ref, ref))

def knownTurns (s : State) : List (Utf16 × Text) :=
  (s.turns.drop (s.turns.length - KNOWN_TURNS)).filterMap fun ref =>
    ((s.objects.get ref).fingerprint.filter (· ≠ [])).map fun fingerprint => (s.objects.idOf ref, fingerprint)

def unresolved (objects : Objects) (held : HeldTurns) (answer : List ServedTurn) : Bool :=
  answer.any fun served =>
    served.unchanged &&
      ((held.get? served.turn.id).bind fun ref => (objects.get ref).fingerprint) ≠ served.fingerprint

/-- The objects of an answer: the held ones for placeholders, and new ones. -/
def resolve (held : HeldTurns) : List ServedTurn → Objects → Option (List Nat × Objects)
  | [], objects => some ([], objects)
  | served :: rest, objects =>
    if served.unchanged then
      match held.get? served.turn.id with
      | none => none
      | some ref => (resolve held rest objects).map fun resolved => (ref :: resolved.1, resolved.2)
    else
      (resolve held rest (objects.make ⟨served.turn, served.fingerprint⟩)).map fun resolved =>
        (objects.next :: resolved.1, resolved.2)

section Refresh

def newestKnown (s : State) : Option Utf16 := s.turns.getLast?.map s.objects.idOf

def update (s : State) (thread : ThreadRecord) (turns : List Nat) : UpdateEnd → State
  | .refused => s
  | _ => if s.retired then s else { s with thread, turns }

local instance : LawfulBEq Utf16 := inferInstance

/-- The end of a refresh: the window with the Turns that were read. -/
def finish (s : State) (thread : ThreadRecord) (descending : List Nat) (recentCursor : Option Text)
    (newest : Option Utf16) (ends : UpdateEnd) : State :=
  let s := { s with refreshing := none }
  let ids := descending.map s.objects.idOf
  if ¬ ids.Nodup then s
  else if s.loaded && newest.any (· ∉ ids) then s
  else if !s.loaded then
    let s := update { s with cursor := recentCursor } thread descending.reverse ends
    { s with loaded := ends = .done && !s.retired }
  else
    let s := if newest.isNone then { s with cursor := recentCursor } else s
    let newTurns := newest.elim descending fun id => descending.takeWhile fun ref => s.objects.idOf ref ≠ id
    let known := s.turns.map s.objects.idOf
    let merged := s.turns.map fun ref =>
      (descending.find? fun other => s.objects.idOf other = s.objects.idOf ref).getD ref
    update s thread (merged ++ newTurns.reverse.filter fun ref => s.objects.idOf ref ∉ known) ends

/-- The loop that fills the gap to the loaded tail, up to the next page. -/
def fill (s : State) (thread : ThreadRecord) (descending : List Nat) (recentCursor cursor : Option Text)
    (seen : List Text) (newest : Option Utf16) (ends : UpdateEnd) : State :=
  match newest, cursor with
  | some newest, some next =>
    if s.loaded && descending.all (s.objects.idOf · ≠ newest) && truthy cursor then
      if next ∈ seen then { s with refreshing := none }
      else
        { s with
          refreshing := some (.page
            { thread, descending, recentCursor, cursor := next, seen := next :: seen, newestKnown := newest }) }
    else finish s thread descending recentCursor (some newest) ends
  | newest, _ => finish s thread descending recentCursor newest ends

/-- A refresh with its snapshot. `fresh` says that the head was read within the last minute. -/
def receive (s : State) (snapshot : ClientThreadSnapshot) (descending : List Nat) (force fresh : Bool)
    (ends : UpdateEnd) : State :=
  let thread : ThreadRecord := ⟨snapshot.updatedAt, snapshot.active⟩
  if s.retired then { s with refreshing := none }
  else if !force && s.loaded && fresh && thread.updatedAt = s.thread.updatedAt && !thread.active &&
      !s.thread.active then
    { s with thread, refreshing := none }
  else fill s thread descending snapshot.nextCursor snapshot.nextCursor [] (newestKnown s) ends

/-- The snapshot that the client builds from an answer, and the rest of the refresh. -/
def reconstruct (s : State) (snapshot : ClientThreadSnapshot) (answer : List ServedTurn) (held : HeldTurns)
    (force fresh : Bool) (ends : UpdateEnd) : State :=
  match resolve held answer s.objects with
  | none => { s with refreshing := none, log := s.log ++ [⟨snapshot, answer, none⟩] }
  | some (refs, objects) =>
    receive { s with objects, log := s.log ++ [⟨snapshot, answer, some (refs.map objects.get)⟩] } snapshot refs
      force fresh ends

end Refresh

/-- `page` refuses a page that does not advance the cursor or repeats a Turn. -/
def pageOk (cursor : Text) (data : List Turn) (nextCursor : Option Text) : Bool :=
  !(truthy nextCursor && nextCursor = some cursor) && !(data.isEmpty && truthy nextCursor) &&
    (data.map (·.id)).Nodup

/-- The objects of a page. -/
def pageObjects : List Turn → Objects → List Nat × Objects
  | [], objects => ([], objects)
  | turn :: rest, objects =>
    let others := pageObjects rest (objects.make ⟨turn, none⟩)
    (objects.next :: others.1, others.2)

inductive Event where
  | refresh (force : Bool)
  /-- The Host answers the snapshot request in flight. -/
  | snapshot (snapshot : ClientThreadSnapshot) (fresh : Bool) (ends : UpdateEnd)
  | page (data : List Turn) (nextCursor : Option Text) (ends : UpdateEnd)
  | refreshFails
  | loadOlder
  | olderPage (data : List Turn) (nextCursor : Option Text) (ends : UpdateEnd)
  | olderFails
  | forgetKnownTurns
  | retire

section Runs
variable (digest : Text → Text)

/-- The answer of the Host to a request for a snapshot. -/
def answerOf (snapshot : ClientThreadSnapshot) (knownTurns : List (Utf16 × Text)) : List ServedTurn :=
  compactClientSnapshot digest snapshot ⟨some knownTurns, false⟩

def step (s : State) : Event → State
  | .refresh force =>
    match s.refreshing with
    | some _ => s
    | none => { s with refreshing := some (.snapshot (heldTurns s) (knownTurns s) force) }
  | .snapshot snapshot fresh ends =>
    match s.refreshing with
    | some (.snapshot held knownTurns force) =>
      let answer := answerOf digest snapshot knownTurns
      if unresolved s.objects held answer then { s with refreshing := some (.fullSnapshot held force) }
      else reconstruct s snapshot answer held force fresh ends
    | some (.fullSnapshot held force) =>
      let answer := answerOf digest snapshot []
      if answer.any (·.unchanged) then
        { s with refreshing := none, log := s.log ++ [⟨snapshot, answer, none⟩] }
      else reconstruct s snapshot answer held force fresh ends
    | _ => s
  | .page data nextCursor ends =>
    match s.refreshing with
    | some (.page filling) =>
      if pageOk filling.cursor data nextCursor then
        let (refs, objects) := pageObjects data s.objects
        fill { s with objects } filling.thread (filling.descending ++ refs) filling.recentCursor nextCursor
          filling.seen (some filling.newestKnown) ends
      else { s with refreshing := none }
    | _ => s
  | .refreshFails => { s with refreshing := none }
  | .loadOlder =>
    if s.loadingOlder.isSome || !truthy s.cursor then s else { s with loadingOlder := s.cursor }
  | .olderPage data nextCursor ends =>
    match s.loadingOlder with
    | none => s
    | some cursor =>
      let s := { s with loadingOlder := none }
      if !pageOk cursor data nextCursor then s
      else if truthy nextCursor && nextCursor.any (· ∈ s.seenCursors) then s
      else if s.retired || ends ≠ .done then s
      else
        let (refs, objects) := pageObjects data s.objects
        { s with
          objects, turns := refs.reverse ++ s.turns, seenCursors := cursor :: s.seenCursors, cursor := nextCursor }
  | .olderFails => { s with loadingOlder := none }
  | .forgetKnownTurns => forgetKnownTurns s
  | .retire => { s with retired := true }

def run (s : State) (events : List Event) : State := events.foldl (step digest) s

end Runs

end CodexHost.Source.WebServer.ChThreadHistory
