import CodexHost.Source.WebServer.ChThreadHistory

/-!
# Compacted snapshots

Every object whose fingerprint is still there has the content that the fingerprint was made of. So a
placeholder that the client resolves stands for the Turn that the Host has now, whatever epoch, page or
snapshot the held object came from.
-/
namespace CodexHost.Guarantees.SnapshotCompaction
open Foundation Source.HostRuntime.ClientSnapshotCompaction List Function Json
  CodexHost.Source.WebServer.ChThreadHistory

section Fingerprints
variable {digest : Text → Text}

theorem members_injective {members members' : Members} (same : members.entries = members'.entries) :
    members = members' := by
  cases members
  cases members'
  cases same
  rfl

theorem item_injective {item item' : Item} (same : item.toJson = item'.toJson) : item = item' := by
  cases item
  cases item'
  simp only [Item.toJson, object.injEq, List.cons.injEq, Prod.mk.injEq, string.injEq, true_and] at same
  obtain ⟨rfl, rfl, members⟩ := same
  rw [members_injective members]

theorem turn_injective {turn turn' : Turn} (same : turn.toJson = turn'.toJson) : turn = turn' := by
  cases turn
  cases turn'
  simp only [Turn.toJson, object.injEq, List.cons.injEq, Prod.mk.injEq, string.injEq,
    array.injEq, true_and] at same
  obtain ⟨rfl, rfl, items, members⟩ := same
  rw [members_injective members, map_injective_iff.mpr (fun _ _ => item_injective) items]

theorem nul_not_mem {turn : Turn} (regular : turn.Regular) :
    '\x00' ∉ Json.write JsonNumber.format turn.toJson := by
  intro member
  exact absurd (printable_write JsonNumber.format regular _ member) (by decide)

theorem split_last {α : Type} {c : α} {front front' back back' : List α} (none : c ∉ back) (none' : c ∉ back')
    (same : front ++ c :: back = front' ++ c :: back') : front = front' ∧ back = back' := by
  induction front generalizing front' with
  | nil =>
    cases front' with
    | nil => exact ⟨rfl, (List.cons.inj same).2⟩
    | cons d front' =>
      have inside : c ∈ back := by
        rw [(List.cons.inj same).2]
        simp
      exact absurd inside none
  | cons d front ih =>
    cases front' with
    | nil =>
      have inside : c ∈ back' := by
        rw [← (List.cons.inj same).2]
        simp
      exact absurd inside none'
    | cons d' front' =>
      rw [cons_append, cons_append, List.cons.injEq] at same
      obtain ⟨rfl, rest⟩ := same
      obtain ⟨rfl, rfl⟩ := ih rest
      exact ⟨rfl, rfl⟩

/-- A fingerprint determines the epoch and the Turn. -/
theorem fingerprint_injective (injective : Function.Injective digest) {epoch epoch' : Text} {turn turn' : Turn}
    (regular : turn.Regular) (regular' : turn'.Regular)
    (same : fingerprint digest epoch turn = fingerprint digest epoch' turn') : epoch = epoch' ∧ turn = turn' := by
  obtain ⟨epochs, texts⟩ := split_last (nul_not_mem regular) (nul_not_mem regular') (injective same)
  have back := parse_write JsonNumber.format regular
  rw [texts, parse_write JsonNumber.format regular', Option.some.injEq] at back
  exact ⟨epochs, turn_injective back.symm⟩

end Fingerprints

variable {held : HeldTurns} {objects : Objects} {made : List ChTurn}

section Objects
variable (digest : Text → Text)

/-- The fingerprint was made of the Turn, in some epoch. -/
def Genuine (object : ChTurn) : Prop :=
  ∀ print, object.fingerprint = some print →
    ∃ epoch, print = fingerprint digest epoch object.turn ∧ object.turn.Regular

/-- A Turn as a full read serves it. -/
def fullTurn (snapshot : ClientThreadSnapshot) (turn : Turn) : ChTurn where
  turn
  fingerprint :=
    if settled turn snapshot.activeTurnId then some (fingerprint digest snapshot.epoch turn) else none

variable {digest} {snapshot : ClientThreadSnapshot} {turn : Turn} {known : List (Utf16 × Text)}

theorem genuine_full (regular : turn.Regular) : Genuine digest (fullTurn digest snapshot turn) := by
  intro print is
  rw [fullTurn] at is
  split at is
  · cases is
    exact ⟨_, rfl, regular⟩
  · cases is

theorem eq_fullTurn {object : ChTurn} (turns : object.turn = turn)
    (prints : object.fingerprint = (fullTurn digest snapshot turn).fingerprint) :
    object = fullTurn digest snapshot turn := by
  cases object
  subst turns
  exact congrArg _ prints

/-- A Turn that is sent in full, or a placeholder with the fingerprint that it has now. -/
theorem compactTurn_cases (digest : Text → Text) (snapshot : ClientThreadSnapshot) (turn : Turn)
    (known : List (Utf16 × Text)) :
    compactTurn digest snapshot ⟨some known, false⟩ turn =
        ⟨turn, (fullTurn digest snapshot turn).fingerprint, false⟩ ∨
      (fullTurn digest snapshot turn).fingerprint = some (fingerprint digest snapshot.epoch turn) ∧
        (turn.id, fingerprint digest snapshot.epoch turn) ∈ known ∧
        compactTurn digest snapshot ⟨some known, false⟩ turn =
          ⟨⟨turn.id, turn.status, [], .empty⟩, some (fingerprint digest snapshot.epoch turn), true⟩ := by
  rw [compactTurn, fullTurn]
  cases settled turn snapshot.activeTurnId with
  | false => exact .inl rfl
  | true =>
    simp only [servedTurn, Bool.not_true, Bool.false_eq_true, if_false, if_true]
    split
    · rename_i has
      exact .inr ⟨trivial, (OrderedMap.mem_of_get?_setAll has).resolve_right (by rintro ⟨⟩), rfl⟩
    · exact .inl rfl

/-- What the client has to find for what is sent. -/
def Stands (held : HeldTurns) (objects : Objects) (served : ServedTurn) (object : ChTurn) : Prop :=
  if served.unchanged then
    ∃ ref < objects.next, held.get? served.turn.id = some ref ∧ objects.get ref = object
  else object = ⟨served.turn, served.fingerprint⟩

/-- A placeholder that the client resolves stands for the Turn as it is now. -/
theorem stands_of_resolved (injective : Function.Injective digest)
    (genuine : ∀ ref, Genuine digest (objects.get ref))
    (below : ∀ id ref, held.get? id = some ref → ref < objects.next) (regular : turn.Regular)
    (resolved : unresolved objects held [compactTurn digest snapshot ⟨some known, false⟩ turn] = false) :
    Stands held objects (compactTurn digest snapshot ⟨some known, false⟩ turn)
      (fullTurn digest snapshot turn) := by
  rcases compactTurn_cases digest snapshot turn known with full | ⟨print, -, placeholder⟩
  · rw [full, Stands, if_neg Bool.false_ne_true]
    rfl
  · rw [placeholder] at resolved ⊢
    simp only [unresolved, any_cons, any_nil, Bool.or_false, Bool.true_and, decide_eq_false_iff_not,
      ne_eq, not_not] at resolved
    obtain ⟨ref, has, prints⟩ := Option.bind_eq_some_iff.mp resolved
    refine ⟨ref, below _ _ has, has, ?_⟩
    obtain ⟨epoch, made, regular'⟩ := genuine ref _ prints
    obtain ⟨-, same⟩ := fingerprint_injective injective regular regular' made
    exact eq_fullTurn same.symm (prints.trans print.symm)

/-- Objects that are there stay, and every other one comes from the list. -/
structure Grows (objects objects' : Objects) (made : List ChTurn) : Prop where
  next : objects.next ≤ objects'.next
  old : ∀ ref < objects.next, objects'.get ref = objects.get ref
  either : ∀ ref, objects'.get ref = objects.get ref ∨ objects'.get ref ∈ made

theorem Grows.make (objects : Objects) (object : ChTurn) {objects' : Objects}
    (rest : Grows (objects.make object) objects' made) :
    Grows objects objects' (object :: made) ∧ objects'.get objects.next = object ∧
      objects.next < objects'.next where
  left := {
    next := (Nat.le_succ _).trans rest.next
    old := by
      intro ref below
      rw [rest.old ref (below.trans (Nat.lt_succ_self _))]
      exact update_of_ne below.ne _ _
    either := by
      intro ref
      rcases rest.either ref with same | member
      · rw [same]
        by_cases here : ref = objects.next
        · rw [here]
          exact .inr (mem_cons.mpr (.inl (update_self ..)))
        · exact .inl (update_of_ne here _ _)
      · exact .inr (mem_cons_of_mem _ member) }
  right := by
    refine ⟨?_, Nat.lt_of_succ_le rest.next⟩
    rw [rest.old objects.next (Nat.lt_succ_self _)]
    exact update_self ..

theorem Stands.later {objects objects' : Objects} {served : ServedTurn}
    {object : ChTurn} (stands : Stands held objects served object) (grows : Grows objects objects' made) :
    Stands held objects' served object := by
  rw [Stands] at stands ⊢
  split
  · rename_i unchanged
    rw [if_pos unchanged] at stands
    obtain ⟨ref, below, has, is⟩ := stands
    exact ⟨ref, below.trans_le grows.next, has, (grows.old ref below).trans is⟩
  · rename_i unchanged
    rwa [if_neg unchanged] at stands

theorem Grows.refl (objects : Objects) : Grows objects objects [] := ⟨le_rfl, fun _ _ => rfl, fun _ => .inl rfl⟩

theorem resolve_spec {answer : List ServedTurn} {turns : List ChTurn}
    (stand : List.Forall₂ (Stands held objects) answer turns) :
    ∃ refs objects', resolve held answer objects = some (refs, objects') ∧ refs.map objects'.get = turns ∧
      Grows objects objects' turns ∧ ∀ ref ∈ refs, ref < objects'.next := by
  induction answer generalizing turns objects with
  | nil =>
    cases stand
    exact ⟨[], objects, rfl, rfl, Grows.refl objects, nofun⟩
  | cons served answer ih =>
    cases stand with
    | @cons _ object _ turns here stand =>
      rw [resolve]
      rw [Stands] at here
      split
      · rename_i unchanged
        rw [if_pos unchanged] at here
        obtain ⟨ref, below, has, is⟩ := here
        obtain ⟨refs, objects', resolved, are, grows, inside⟩ := ih stand
        rw [has]
        refine ⟨ref :: refs, objects', by dsimp only; rw [resolved]; rfl, ?_, ⟨grows.next, grows.old, ?_⟩, ?_⟩
        · rw [map_cons, are, grows.old ref below, is]
        · exact fun other => (grows.either other).imp_right (mem_cons_of_mem _)
        · rw [forall_mem_cons]
          exact ⟨below.trans_le grows.next, inside⟩
      · rename_i unchanged
        rw [if_neg unchanged] at here
        subst here
        have made := (Grows.make objects ⟨served.turn, served.fingerprint⟩ (Grows.refl _)).1
        obtain ⟨refs, objects', resolved, are, grows, inside⟩ := ih (stand.imp fun _ _ stands => stands.later made)
        obtain ⟨grows, is, below⟩ := Grows.make objects _ grows
        refine ⟨objects.next :: refs, objects', by rw [resolved]; rfl, ?_, grows, ?_⟩
        · rw [map_cons, are, is]
        · rw [forall_mem_cons]
          exact ⟨below, inside⟩

/-- The objects of a page have no fingerprint. -/
theorem pageObjects_spec (data : List Turn) (objects : Objects) :
    Grows objects (pageObjects data objects).2 (data.map (⟨·, none⟩)) ∧
      ∀ ref ∈ (pageObjects data objects).1, ref < (pageObjects data objects).2.next := by
  induction data generalizing objects with
  | nil => exact ⟨Grows.refl objects, nofun⟩
  | cons turn data ih =>
    obtain ⟨grows, inside⟩ := ih (objects.make ⟨turn, none⟩)
    obtain ⟨grows, -, below⟩ := Grows.make objects _ grows
    refine ⟨grows, ?_⟩
    rw [pageObjects, forall_mem_cons]
    exact ⟨below, inside⟩

theorem genuine_page (data : List Turn) : ∀ object ∈ data.map (⟨·, none⟩), Genuine digest object := by
  intro object member
  obtain ⟨turn, -, rfl⟩ := mem_map.mp member
  exact nofun

end Objects

section Runs
variable (digest : Text → Text)

/-- The client has built the snapshot that a full read gives, with the Turns of the Host. -/
def Transparent (record : Reconstruction) : Prop :=
  record.result = some (record.snapshot.turns.map (fullTurn digest record.snapshot))

/-- The objects that a request in flight refers to. -/
def Refers (objects : Objects) : Refreshing → Prop
  | .snapshot held _ _ | .fullSnapshot held _ => ∀ id ref, held.get? id = some ref → ref < objects.next
  | .page filling => ∀ ref ∈ filling.descending, ref < objects.next

structure Inv (s : State) : Prop where
  genuine : ∀ ref, Genuine digest (s.objects.get ref)
  turns : ∀ ref ∈ s.turns, ref < s.objects.next
  refreshing : ∀ waiting, s.refreshing = some waiting → Refers s.objects waiting
  log : ∀ record ∈ s.log, Transparent digest record

variable {digest} {s : State}

theorem Refers.later {objects objects' : Objects} {waiting : Refreshing} (refers : Refers objects waiting)
    (next : objects.next ≤ objects'.next) : Refers objects' waiting := by
  cases waiting with
  | snapshot held knownTurns force => exact fun id ref has => (refers id ref has).trans_le next
  | fullSnapshot held force => exact fun id ref has => (refers id ref has).trans_le next
  | page filling => exact fun ref member => (refers ref member).trans_le next

theorem Inv.initial (thread : ThreadRecord) : Inv digest (initial thread) where
  genuine _ _ is := by cases is
  turns := nofun
  refreshing := nofun
  log := nofun

theorem Inv.idle (inv : Inv digest s) (cursor : Option Text) :
    Inv digest { s with refreshing := none, cursor } :=
  ⟨inv.genuine, inv.turns, nofun, inv.log⟩

/-- More objects that are genuine. -/
theorem Inv.grow (inv : Inv digest s)
    (grows : Grows s.objects objects made) (genuine : ∀ object ∈ made, Genuine digest object) :
    Inv digest { s with objects } where
  genuine ref := by
    rcases grows.either ref with same | member
    · change Genuine digest (objects.get ref)
      rw [same]
      exact inv.genuine ref
    · exact genuine _ member
  turns ref member := (inv.turns ref member).trans_le grows.next
  refreshing waiting is := (inv.refreshing waiting is).later grows.next
  log := inv.log

theorem Inv.updated (inv : Inv digest s) {turns : List Nat} (below : ∀ ref ∈ turns, ref < s.objects.next)
    (thread : ThreadRecord) (ends : UpdateEnd) : Inv digest (update s thread turns ends) := by
  have replaced : Inv digest (if s.retired then s else { s with thread, turns }) := by
    split
    · exact inv
    · exact ⟨inv.genuine, below, inv.refreshing, inv.log⟩
  cases ends with
  | done | failed => exact replaced
  | refused => exact inv

/-- The window with what was read is made of objects that are there. -/
theorem merged_below (turns : ∀ ref ∈ s.turns, ref < s.objects.next) {descending newTurns : List Nat}
    (below : ∀ ref ∈ descending, ref < s.objects.next) (new : newTurns ⊆ descending) (same : Nat → Nat → Bool)
    (fresh : Nat → Bool) : ∀ ref ∈ (s.turns.map fun ref => (descending.find? (same ref)).getD ref) ++
      newTurns.reverse.filter fresh, ref < s.objects.next := by
  intro ref member
  rcases mem_append.mp member with merged | added
  · obtain ⟨old, inTurns, rfl⟩ := mem_map.mp merged
    cases found : descending.find? (same old) with
    | none => exact turns old inTurns
    | some other => exact below other (mem_of_find?_eq_some found)
  · exact below ref (new (mem_reverse.mp (mem_of_mem_filter added)))

variable {descending : List Nat}

theorem Inv.finished (inv : Inv digest s)
    (below : ∀ ref ∈ descending, ref < s.objects.next) (thread : ThreadRecord) (recentCursor : Option Text)
    (newest : Option Utf16) (ends : UpdateEnd) :
    Inv digest (finish s thread descending recentCursor newest ends) := by
  rw [finish]
  split
  · exact inv.idle _
  · split
    · exact inv.idle _
    · split
      · have reversed : ∀ ref ∈ descending.reverse, ref < s.objects.next :=
          fun ref member => below ref (mem_reverse.mp member)
        have done := (inv.idle recentCursor).updated reversed thread ends
        exact ⟨done.genuine, done.turns, done.refreshing, done.log⟩
      · cases newest with
        | none => exact (inv.idle _).updated (merged_below inv.turns below (fun _ member => member) _ _) thread ends
        | some newest =>
          exact (inv.idle _).updated (merged_below inv.turns below (takeWhile_subset _) _ _) thread ends

theorem Inv.filled (inv : Inv digest s)
    (below : ∀ ref ∈ descending, ref < s.objects.next) (thread : ThreadRecord)
    (recentCursor cursor : Option Text) (seen : List Text) (newest : Option Utf16) (ends : UpdateEnd) :
    Inv digest (fill s thread descending recentCursor cursor seen newest ends) := by
  rw [fill.eq_def]
  split
  · split
    · split
      · exact inv.idle _
      · refine ⟨inv.genuine, inv.turns, fun waiting is => ?_, inv.log⟩
        cases is
        exact below
    · exact inv.finished below thread recentCursor _ ends
  · exact inv.finished below thread recentCursor _ ends

theorem Inv.received (inv : Inv digest s)
    (below : ∀ ref ∈ descending, ref < s.objects.next) (snapshot : ClientThreadSnapshot) (force fresh : Bool)
    (ends : UpdateEnd) : Inv digest (receive s snapshot descending force fresh ends) := by
  rw [receive]
  split
  · exact inv.idle _
  · split
    · exact ⟨inv.genuine, inv.turns, nofun, inv.log⟩
    · exact inv.filled below _ _ _ _ _ ends

/-- Where no Turn is known there is no placeholder. -/
theorem full_answer (digest : Text → Text) (snapshot : ClientThreadSnapshot) :
    (answerOf digest snapshot []).any (·.unchanged) = false := by
  rw [any_eq_false]
  intro served member
  obtain ⟨turn, -, rfl⟩ := mem_map.mp (show served ∈ snapshot.turns.map _ from member)
  rcases compactTurn_cases digest snapshot turn [] with full | ⟨-, known, -⟩
  · rw [full]
    exact Bool.false_ne_true
  · cases known

section
variable (injective : Function.Injective digest)
include injective

theorem Inv.reconstructed (inv : Inv digest s)
    {snapshot : ClientThreadSnapshot} {known : List (Utf16 × Text)}
    (below : ∀ id ref, held.get? id = some ref → ref < s.objects.next)
    (resolved : unresolved s.objects held (answerOf digest snapshot known) = false) (force fresh : Bool)
    (ends : UpdateEnd) :
    Inv digest (reconstruct s snapshot (answerOf digest snapshot known) held force fresh ends) := by
  have stand : List.Forall₂ (Stands held s.objects) (answerOf digest snapshot known)
      (snapshot.turns.map (fullTurn digest snapshot)) := by
    have each : ∀ turn ∈ snapshot.turns, Stands held s.objects
        (compactTurn digest snapshot ⟨some known, false⟩ turn) (fullTurn digest snapshot turn) := by
      intro turn member
      refine stands_of_resolved injective inv.genuine below (snapshot.regular turn member) ?_
      rw [unresolved, any_eq_false] at resolved ⊢
      intro served is
      rw [mem_singleton.mp is]
      exact resolved _ (mem_map_of_mem member)
    change List.Forall₂ _ (snapshot.turns.map (compactTurn digest snapshot ⟨some known, false⟩)) _
    rw [forall₂_map_left_iff, forall₂_map_right_iff, forall₂_same]
    exact each
  obtain ⟨refs, objects, resolves, are, grows, inside⟩ := resolve_spec stand
  have genuine : ∀ object ∈ snapshot.turns.map (fullTurn digest snapshot), Genuine digest object := by
    intro object member
    obtain ⟨turn, inTurns, rfl⟩ := mem_map.mp member
    exact genuine_full (snapshot.regular turn inTurns)
  have grown := inv.grow grows genuine
  have logged : Inv digest { s with
      objects, log := s.log ++ [⟨snapshot, answerOf digest snapshot known, some (refs.map objects.get)⟩] } := by
    refine ⟨grown.genuine, grown.turns, grown.refreshing, ?_⟩
    rw [forall_mem_append, forall_mem_singleton]
    exact ⟨inv.log, congrArg some are⟩
  rw [reconstruct, resolves]
  exact logged.received inside snapshot force fresh ends

theorem Inv.stepped (inv : Inv digest s) (event : Event) :
    Inv digest (step digest s event) := by
  cases event with
  | refresh force =>
    rw [step.eq_def]
    dsimp only
    split
    · exact inv
    · refine ⟨inv.genuine, inv.turns, fun waiting is => ?_, inv.log⟩
      cases is
      intro id ref has
      obtain ⟨ref', member, is⟩ := mem_map.mp ((OrderedMap.mem_of_get?_setAll has).resolve_right (by rintro ⟨⟩))
      cases is
      exact inv.turns ref member
  | snapshot snapshot fresh ends =>
    rw [step.eq_def]
    dsimp only
    split
    · rename_i held known force flying
      have refers := inv.refreshing _ flying
      split
      · refine ⟨inv.genuine, inv.turns, fun waiting is => ?_, inv.log⟩
        cases is
        exact refers
      · rename_i resolved
        exact inv.reconstructed injective refers (Bool.of_not_eq_true resolved) force fresh ends
    · rename_i held force flying
      have refers := inv.refreshing _ flying
      have full := full_answer digest snapshot
      split
      · rename_i placeholder
        rw [full] at placeholder
        cases placeholder
      · refine inv.reconstructed injective refers ?_ force fresh ends
        rw [unresolved, any_eq_false]
        intro served member
        rw [any_eq_false] at full
        simp [full served member]
    · exact inv
  | page data nextCursor ends =>
    rw [step.eq_def]
    dsimp only
    split
    · rename_i filling flying
      split
      · obtain ⟨grows, inside⟩ := pageObjects_spec data s.objects
        have read : ∀ ref ∈ filling.descending, ref < s.objects.next := inv.refreshing _ flying
        refine (inv.grow grows (genuine_page data)).filled (fun ref member => ?_) _ _ _ _ _ ends
        rcases mem_append.mp member with old | new
        · exact (read ref old).trans_le grows.next
        · exact inside ref new
      · exact inv.idle _
    · exact inv
  | refreshFails => exact inv.idle _
  | loadOlder =>
    rw [step.eq_def]
    dsimp only
    split
    · exact inv
    · exact ⟨inv.genuine, inv.turns, inv.refreshing, inv.log⟩
  | olderPage data nextCursor ends =>
    rw [step.eq_def]
    dsimp only
    split
    · exact inv
    · have waiting : Inv digest { s with loadingOlder := none } :=
        ⟨inv.genuine, inv.turns, inv.refreshing, inv.log⟩
      split
      · exact waiting
      · split
        · exact waiting
        · split
          · exact waiting
          · obtain ⟨grows, inside⟩ := pageObjects_spec data s.objects
            have grown := inv.grow grows (genuine_page data)
            refine ⟨grown.genuine, fun ref member => ?_, grown.refreshing, grown.log⟩
            rcases mem_append.mp member with new | old
            · exact inside ref (mem_reverse.mp new)
            · exact grown.turns ref old
  | olderFails | retire => exact ⟨inv.genuine, inv.turns, inv.refreshing, inv.log⟩
  | forgetKnownTurns =>
    refine ⟨fun ref => ?_, inv.turns, inv.refreshing, inv.log⟩
    change Genuine digest (if ref ∈ s.turns then { s.objects.get ref with fingerprint := none } else s.objects.get ref)
    split
    · rintro _ ⟨⟩
    · exact inv.genuine ref

theorem inv_run (inv : Inv digest s) (events : List Event) :
    Inv digest (run digest s events) := by
  induction events generalizing s with
  | nil => exact inv
  | cons event events ih => exact ih (inv.stepped injective event)

end

/-- In every run, each snapshot that the client builds has the Turns of the Host's snapshot in their order, and
the fingerprints that a full read gives. -/
theorem snapshots_transparent (injective : Function.Injective digest) (thread : ThreadRecord)
    (events : List Event) : ∀ record ∈ (run digest (initial thread) events).log, Transparent digest record ∧
        record.result.map (·.map ChTurn.turn) = some record.snapshot.turns := by
  intro record member
  have built := (inv_run injective (Inv.initial thread) events).log record member
  refine ⟨built, ?_⟩
  rw [built, Option.map_some, map_map]
  exact congrArg some (map_id _)

end Runs

def sampleTurn : Turn where
  id := key "turn"
  status := key "completed"
  items := [⟨key "item", key "agentMessage", ⟨[(key "text", .string (key "Done"))], by decide⟩⟩]
  members := .empty

def sampleSnapshot : ClientThreadSnapshot where
  epoch := "epoch".toList
  activeTurnId := none
  updatedAt := 1
  active := false
  turns := [sampleTurn]
  nextCursor := none
  regular := by
    intro turn member
    rw [List.mem_singleton.mp member]
    exact ⟨by decide, trivial, trivial, ⟨⟨by decide, trivial, trivial, trivial, trivial⟩, trivial⟩, trivial⟩

/-- The second answer has a placeholder for the Turn of the first one. -/
def sampleEvents : List Event :=
  [.refresh false, .snapshot sampleSnapshot false .done, .refresh true, .snapshot sampleSnapshot false .done]

theorem snapshots_transparent_sample :
    let log := (run id (initial ⟨0, false⟩) sampleEvents).log
    log.map (fun record => record.answer.map (·.unchanged)) = [[false], [true]] ∧
      ∀ record ∈ log, Transparent id record ∧
        record.result.map (·.map ChTurn.turn) = some record.snapshot.turns :=
  ⟨by decide, snapshots_transparent injective_id ⟨0, false⟩ sampleEvents⟩

end CodexHost.Guarantees.SnapshotCompaction
