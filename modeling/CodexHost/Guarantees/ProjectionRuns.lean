import CodexHost.Guarantees.ProjectionRows

/-!
# The rows in every run

What one event does to a Session is what has arrived with it (`step_brings`). The order of a seed
or baseline and the changes that are newer does not matter: both orders leave the highest of the
same candidates.
-/
namespace CodexHost.Guarantees.ProjectionRuns
open Foundation Source.DeepseekHarness List ControlStore
open Guarantees.ProjectionRows

variable {V : Type} {measure : String → V → Nat} {maxKeys : Nat}

/-- A waiter is resolved only with a row that it has asked for. -/
def Honest (waiter : Waiter V) : Prop :=
  ∀ row, waiter.outcome = some (.resolved row) →
    waiter.afterSeq < row.seq ∧ waiter.predicate row.value = some true

variable {row : ProjectionRow V} {event : Event V}

section Waiters
variable {s s' : ControlStore V} {waiter : Waiter V}

theorem Honest.settle (honest : Honest waiter) {outcome : WaitOutcome V}
    (fair : ∀ row, outcome = .resolved row →
      waiter.afterSeq < row.seq ∧ waiter.predicate row.value = some true) :
    Honest (waiter.settle outcome) := by
  unfold Waiter.settle
  split
  · exact honest
  · exact fun row is => fair row (Option.some_inj.mp is)

theorem judge_fair {row asked : ProjectionRow V} (judged : waiter.judge row = some (.resolved asked)) :
    waiter.afterSeq < asked.seq ∧ waiter.predicate asked.value = some true := by
  unfold Waiter.judge at judged
  split at judged
  · cases judged
  · next above =>
    split at judged
    · next agrees =>
      cases judged
      exact ⟨Int.lt_of_not_ge above, agrees⟩
    · cases judged
    · cases judged

theorem Honest.notify (honest : Honest waiter) (id key : String) (row : Option (ProjectionRow V)) :
    Honest (waiter.notify id key row) := by
  unfold Waiter.notify
  split
  · split
    · next outcome judged =>
      obtain ⟨found, -, judged⟩ := Option.bind_eq_some_iff.mp judged
      refine honest.settle fun row is => ?_
      rw [is] at judged
      exact judge_fair judged
    · exact honest
  · exact honest

theorem Honest.notifyAll (honest : Honest waiter) (id : String) (rows : String → Option (ProjectionRow V))
    (keys : List String) :
    Honest (keys.foldl (fun waiter key => waiter.notify id key (rows key)) waiter) := by
  induction keys generalizing waiter with
  | nil => exact honest
  | cons key rest ih => exact ih (honest.notify id key _)

/-- Every waiter of the store is honest. -/
def AllHonest (s : ControlStore V) : Prop := ∀ waiter ∈ s.waiters, Honest waiter

theorem AllHonest.reject (honest : AllHonest s) (predicate : Waiter V → Bool) (error : StoreError) :
    AllHonest (s.rejectWaiters predicate error) := by
  intro waiter member
  obtain ⟨before, was, rfl⟩ := mem_map.mp member
  split
  · exact (honest before was).settle nofun
  · exact honest before was

theorem waitNow_fair {aborted : Bool} (now : s.waitNow waiter aborted = some (.resolved row)) :
    waiter.afterSeq < row.seq ∧ waiter.predicate row.value = some true := by
  unfold waitNow at now
  split at now
  · cases now
  · split at now
    · cases now
    · split at now
      · cases now
      · split at now
        · next outcome judged =>
          cases now
          obtain ⟨found, -, judged⟩ := Option.bind_eq_some_iff.mp judged
          exact judge_fair judged
        · split at now <;> cases now

/-- A store that has failed stays so, and it is not closed here. -/
def Stays (s s' : ControlStore V) : Prop :=
  (s.fault.isSome = true → s'.fault.isSome = true) ∧ s'.closing = s.closing

theorem usable_of_stays (stays : Stays s s') (usable : s'.unusable = none) : s.unusable = none := by
  unfold unusable at usable ⊢
  cases fault : s.fault with
  | some error =>
    obtain ⟨_, is⟩ := Option.isSome_iff_exists.mp (stays.1 (by simp [fault]))
    simp [is] at usable
  | none =>
    cases fault' : s'.fault with
    | some error => simp [fault'] at usable
    | none =>
      cases closing : s.closing with
      | false => simp
      | true => simp [fault', stays.2, closing] at usable

theorem running_of_usable (usable : s.unusable = none) : s.fault = none ∧ s.closing = false := by
  unfold unusable at usable
  split at usable
  · cases usable
  · next none =>
    exact ⟨none, by simpa using usable⟩

/-- What the store does to its waiters, its fault and its closing. -/
def Goes (s s' : ControlStore V) : Prop := (AllHonest s → AllHonest s') ∧ Stays s s'

theorem goes_refl (s : ControlStore V) : Goes s s := ⟨id, id, rfl⟩

theorem Goes.trans {s'' : ControlStore V} (first : Goes s s') (second : Goes s' s'') : Goes s s'' :=
  ⟨second.1 ∘ first.1, second.2.1 ∘ first.2.1, second.2.2.trans first.2.2⟩

theorem goes_fail (s : ControlStore V) (error : StoreError) : Goes s (s.fail error) := by
  unfold ControlStore.fail
  split
  · exact goes_refl s
  · exact ⟨fun honest => AllHonest.reject (s := { s with fault := some error }) honest _ _, fun _ => rfl, rfl⟩

theorem goes_streamFailed (s : ControlStore V) (error : StoreError) : Goes s (s.streamFailed error) := by
  unfold ControlStore.streamFailed
  split
  · exact goes_refl s
  · split
    · exact goes_refl s
    · exact goes_fail s error

theorem goes_sessions (s : ControlStore V) (sessions : OrderedMap String (SessionState V)) :
    Goes s { s with sessions := sessions } := ⟨id, id, rfl⟩

variable [DecidableEq V]

theorem goes_publish (s : ControlStore V) (id : String) (before after : SessionState V) :
    Goes s (s.publish id before after) := by
  refine ⟨fun honest waiter member => ?_, fun failed => failed, rfl⟩
  obtain ⟨old, was, rfl⟩ := mem_map.mp member
  exact (honest old was).notifyAll id _ _

theorem goes_apply (s : ControlStore V) (id : String) (seq : Int) (change : ProjectionChange V) :
    Goes s (s.apply measure id seq change) := by
  unfold ControlStore.apply
  split
  · exact goes_refl s
  · split
    · exact goes_fail s _
    · exact (goes_sessions s _).trans (goes_publish _ _ _ _)

theorem goes_applyAll (s : ControlStore V) (id : String) (seq : Int)
    (changes : List (ProjectionChange V)) : Goes s (s.applyAll measure id seq changes) := by
  induction changes generalizing s with
  | nil => exact goes_refl s
  | cons change rest ih =>
    unfold ControlStore.applyAll
    simp only
    split
    · exact goes_apply s id seq change
    · exact (goes_apply s id seq change).trans (ih _)

theorem goes_replace {projections : OrderedMap String (ProjectionBaseline V)}
    {requireComplete : Bool} (ok : s.replace measure projections requireComplete = .ok s') : Goes s s' := by
  have published : ∀ (entries : List (String × SessionState V)) (s : ControlStore V)
      (before : String → SessionState V),
      Goes s (entries.foldl (fun s entry => s.publish entry.1 (before entry.1) entry.2) s) := by
    intro entries
    induction entries with
    | nil => exact fun s _ => goes_refl s
    | cons entry rest ih => exact fun s before => (goes_publish s _ _ _).trans (ih _ before)
  unfold ControlStore.replace at ok
  cases picked : pickAll (s.replacement measure projections requireComplete) s.sessions.entries with
  | error error =>
    rw [picked] at ok
    cases ok
  | ok replacements =>
    rw [picked] at ok
    cases ok
    exact (goes_sessions s _).trans
      (published replacements _ fun id => (s.sessions.get? id).getD .empty)

theorem goes_seedSession (s : ControlStore V) (id : String) (session : SessionState V)
    (seed : ProjectionBaseline V) : Goes s (s.seedSession measure id session seed) := by
  unfold ControlStore.seedSession
  split
  · exact goes_fail s _
  · exact (goes_sessions s _).trans (goes_publish _ _ _ _)

/-- Only `close` closes the store. -/
theorem step_goes (moved : step measure s event = some s') :
    Goes s s' ∨ event = .close := by
  cases event with
  | start =>
    simp only [step, Option.ite_none_left_eq_some, Option.some.injEq] at moved
    obtain ⟨-, rfl⟩ := moved
    exact .inl (goes_refl s)
  | attach id seed =>
    cases moved
    left
    unfold ControlStore.attach
    split
    · exact goes_refl s
    · split
      · split
        · exact goes_refl s
        · exact goes_seedSession s _ _ _
      · split
        · exact goes_refl s
        · have added := goes_sessions s (s.sessions.set id .empty)
          cases seed with
          | none => exact added
          | some seed => exact added.trans (goes_seedSession _ _ _ _)
  | seed id seed =>
    cases moved
    left
    unfold ControlStore.seed
    split
    · exact goes_refl s
    · split
      · exact goes_refl s
      · exact goes_seedSession s _ _ _
  | detach id =>
    cases moved
    left
    unfold ControlStore.detach
    split
    · exact goes_refl s
    · exact ⟨fun honest => AllHonest.reject (s := { s with sessions := _ }) honest _ _, fun failed => failed, rfl⟩
  | replaceBaseline projections =>
    cases moved
    left
    unfold ControlStore.replaceBaseline
    split
    · exact goes_refl s
    · split
      · exact goes_fail s _
      · next after replaced => exact goes_replace replaced
  | frame frame =>
    simp only [step, Option.ite_none_right_eq_some, Option.some.injEq] at moved
    obtain ⟨-, rfl⟩ := moved
    left
    unfold ControlStore.receive
    cases frame with
    | baseline projections =>
      simp only
      split
      · exact goes_streamFailed s _
      · split
        · exact goes_streamFailed s _
        · next after replaced =>
          have goes : Goes s after := goes_replace replaced
          exact goes
    | projection id seq changes =>
      simp only
      split
      · exact goes_applyAll s id seq changes
      · exact goes_streamFailed s _
  | streamFailed error =>
    simp only [step, Option.ite_none_right_eq_some, Option.some.injEq] at moved
    obtain ⟨-, rfl⟩ := moved
    exact .inl (goes_streamFailed s error)
  | seedFailed error =>
    cases moved
    exact .inl (goes_fail s error)
  | waitFor id key afterSeq predicate aborted =>
    cases moved
    refine .inl ⟨fun honest waiter member => ?_, fun failed => failed, rfl⟩
    rcases mem_append.mp member with old | new
    · exact honest waiter old
    · rw [mem_singleton.mp new]
      exact fun row is => waitNow_fair is
  | giveUp number error =>
    cases moved
    refine .inl ⟨fun honest waiter member => ?_, fun failed => failed, rfl⟩
    obtain ⟨index, is⟩ := mem_iff_getElem?.mp member
    rw [getElem?_modify, Option.map_eq_map, Option.map_eq_some_iff] at is
    obtain ⟨before, was, rfl⟩ := is
    have before := honest before (mem_of_getElem? was)
    split
    · exact before.settle (by rintro _ ⟨⟩)
    · exact before
  | close => exact .inr rfl

theorem step_honest (honest : AllHonest s) (moved : step measure s event = some s') : AllHonest s' := by
  rcases step_goes moved with goes | rfl
  · exact goes.1 honest
  · cases moved
    exact AllHonest.reject (s := { s with closing := true }) honest _ _

theorem step_stays (moved : step measure s event = some s') :
    s'.closing = true ∧ s'.sessions = .empty ∨ Stays s s' := by
  rcases step_goes moved with goes | rfl
  · exact .inr goes.2
  · cases moved
    exact .inl ⟨rfl, rfl⟩

end Waiters

theorem kept_empty : Kept measure (SessionState.empty : SessionState V) := by
  have small : 2 ≤ MAX_SESSION_PROJECTION_BYTES := by decide
  exact ⟨⟨rfl, rfl, small⟩, nofun⟩

variable {changes : List (String × ProjectionRow V)} {key : String} {arrivals : List (Arrival V)}
  {baseline : ProjectionBaseline V}

section Rows
variable {s s' : ControlStore V} {session next : SessionState V}

/-- The sequence of a key that is held before and after does not decrease. -/
def Advances (session next : SessionState V) : Prop :=
  ∀ key row row', session.rows.get? key = some row → next.rows.get? key = some row' → row.seq ≤ row'.seq

/-- Changes only add keys and raise their sequence. -/
def Raises (session next : SessionState V) : Prop :=
  ∀ key row, session.rows.get? key = some row → ∃ row', next.rows.get? key = some row' ∧ row.seq ≤ row'.seq

theorem Raises.advances (raises : Raises session next) : Advances session next := by
  intro key row row' before after
  obtain ⟨found, is, above⟩ := raises key row before
  cases is.symm.trans after
  exact above

/-- An event brings changes, or one baseline. -/
theorem arrivalsOf_shape (id : String) (event : Event V) : (∃ changes : List (String × ProjectionRow V),
      arrivalsOf id event = changes.map fun change => .change change.1 change.2) ∨
    ∃ baseline, arrivalsOf id event = [.snapshot baseline] := by
  have optional : ∀ seed : Option (ProjectionBaseline V), (∃ changes : List (String × ProjectionRow V),
        seed.toList.map Arrival.snapshot = changes.map fun change => .change change.1 change.2) ∨
      ∃ baseline, seed.toList.map Arrival.snapshot = [.snapshot baseline] := by
    intro seed
    cases seed with
    | none => exact .inl ⟨[], rfl⟩
    | some seed => exact .inr ⟨seed, rfl⟩
  cases event with
  | attach other seed =>
    simp only [arrivalsOf]
    split
    · exact optional seed
    · exact .inl ⟨[], rfl⟩
  | seed other seed =>
    simp only [arrivalsOf]
    split
    · exact .inr ⟨seed, rfl⟩
    · exact .inl ⟨[], rfl⟩
  | replaceBaseline projections => exact optional _
  | frame frame =>
    cases frame with
    | baseline projections => exact optional _
    | projection other seq changes =>
      simp only [arrivalsOf]
      split
      · exact .inl ⟨changes.map fun change => (change.key, ⟨change.value, seq⟩), by
          rw [map_map]
          rfl⟩
      · exact .inl ⟨[], rfl⟩
  | _ => exact .inl ⟨[], rfl⟩

variable [DecidableEq V]

theorem kept_arrive (kept : Kept measure session) {arrival : Arrival V}
    (arrived : arrive measure maxKeys session arrival = .ok next) : Kept measure next := by
  cases arrival with
  | snapshot baseline => exact kept.reconcile arrived
  | change key row => exact kept.apply arrived

theorem kept_arriveAll (kept : Kept measure session)
    (arrived : arrivals.foldlM (arrive measure maxKeys) session = .ok next) : Kept measure next := by
  induction arrivals generalizing session with
  | nil =>
    cases arrived
    exact kept
  | cons arrival rest ih =>
    rw [foldlM_cons] at arrived
    cases one : arrive measure maxKeys session arrival with
    | error error =>
      rw [one] at arrived
      cases arrived
    | ok middle =>
      rw [one] at arrived
      exact ih (kept_arrive kept one) arrived

/-- What holds of the store. -/
structure Sound (measure : String → V → Nat) (s : ControlStore V) : Prop where
  kept : ∀ id session, s.sessions.get? id = some session → Kept measure session
  closed : s.closing = true → s.sessions = .empty
  honest : AllHonest s

theorem applyAll_empty (empty : s.sessions = .empty) (id : String) (seq : Int)
    (changes : List (ProjectionChange V)) :
    (s.applyAll measure id seq changes).sessions = .empty := by
  have nothing : ∀ change, s.apply measure id seq change = s := by
    intro change
    simp [apply, empty]
  induction changes with
  | nil => exact empty
  | cons change rest ih =>
    unfold ControlStore.applyAll
    simp only [nothing]
    split
    · exact empty
    · exact ih

/-- A closed store has no Session any more. -/
theorem step_closed (closing : s.closing = true) (empty : s.sessions = .empty)
    (moved : step measure s event = some s') : s'.sessions = .empty := by
  have unusable : s.unusable.isSome = true := by
    unfold ControlStore.unusable
    cases s.fault <;> simp [closing]
  cases event with
  | start =>
    simp only [step, Option.ite_none_left_eq_some, Option.some.injEq] at moved
    obtain ⟨-, rfl⟩ := moved
    exact empty
  | attach id seed =>
    cases moved
    rwa [ControlStore.attach, if_pos unusable]
  | seed id seed =>
    cases moved
    rwa [ControlStore.seed, if_pos unusable]
  | detach id =>
    cases moved
    rwa [ControlStore.detach, if_pos (by simp [empty])]
  | replaceBaseline projections =>
    cases moved
    rwa [ControlStore.replaceBaseline, if_pos unusable]
  | frame frame =>
    simp only [step, Option.ite_none_right_eq_some, Option.some.injEq] at moved
    obtain ⟨-, rfl⟩ := moved
    unfold ControlStore.receive
    cases frame with
    | baseline projections =>
      simp only
      split
      · rwa [streamFailed_sessions]
      · split
        · rwa [streamFailed_sessions]
        · next after replaced =>
          obtain ⟨replacements, picked, sessions, -⟩ := replace_ok replaced
          rw [empty] at picked sessions
          cases picked
          exact sessions
    | projection id seq changes =>
      simp only
      split
      · exact applyAll_empty empty id seq changes
      · rwa [streamFailed_sessions]
  | streamFailed error =>
    simp only [step, Option.ite_none_right_eq_some, Option.some.injEq] at moved
    obtain ⟨-, rfl⟩ := moved
    rwa [streamFailed_sessions]
  | seedFailed error =>
    cases moved
    exact (fail_sessions error).1.trans empty
  | waitFor id key afterSeq predicate aborted =>
    cases moved
    exact empty
  | giveUp number error =>
    cases moved
    exact empty
  | close =>
    cases moved
    rfl

theorem step_sound (sound : Sound measure s) (moved : step measure s event = some s') : Sound measure s' := by
  have honest := step_honest sound.honest moved
  cases closing : s.closing with
  | true =>
    have empty := step_closed closing (sound.closed closing) moved
    refine ⟨fun id session is => ?_, fun _ => empty, honest⟩
    rw [empty] at is
    cases is
  | false =>
    refine ⟨fun id next is => ?_, fun closed => ?_, honest⟩
    · obtain ⟨session, result, seeded, finds, ⟨accepted, -, -, folded⟩, rfl⟩ :=
        step_brings closing moved is
      have before : Kept measure session := by
        rcases finds with found | ⟨-, rfl⟩
        · exact sound.kept id session found
        · exact kept_empty
      have after := kept_arriveAll before folded
      exact ⟨⟨after.counted.each, after.counted.total, after.counted.limit⟩, after.newest⟩
    · rcases step_stays moved with ⟨-, empty⟩ | stays
      · exact empty
      · rw [stays.2, closing] at closed
        cases closed

theorem apply_raises (applied : session.apply measure maxKeys key row = .ok next) : Raises session next := by
  intro other held is
  obtain ⟨current, was, older, rfl⟩ | ⟨newer, stored⟩ := apply_cases applied
  · exact ⟨held, is, le_rfl⟩
  · obtain ⟨-, rfl⟩ := store_ok stored
    simp only [OrderedMap.get?_set]
    split
    · next same =>
      subst same
      exact ⟨row, rfl, (newer held is).le⟩
    · exact ⟨held, is, le_rfl⟩

theorem reconcile_advances (counted : Counted measure session)
    (ok : session.reconcile measure maxKeys baseline = .ok next) : Advances session next := by
  intro key row row' before after
  rw [(reconcile_ok counted ok).rows, reconciled, before] at after
  cases named : baseline.values.get? key with
  | none =>
    simp only [named, Option.ite_none_right_eq_some, Option.some.injEq] at after
    rw [after.2]
  | some value =>
    simp only [named, Option.some.injEq] at after
    subst after
    split
    · next below => exact below.le
    · exact le_rfl

theorem changes_raise (folded : (changes.map fun change => Arrival.change change.1 change.2).foldlM
      (arrive measure maxKeys) session = .ok next) : Raises session next := by
  induction changes generalizing session with
  | nil =>
    cases folded
    exact fun key row is => ⟨row, is, le_rfl⟩
  | cons change rest ih =>
    rw [map_cons, foldlM_cons] at folded
    cases one : arrive measure maxKeys session (.change change.1 change.2) with
    | error error =>
      rw [one] at folded
      cases folded
    | ok middle =>
      rw [one] at folded
      intro key row is
      obtain ⟨held, there, above⟩ := apply_raises one key row is
      obtain ⟨last, here, higher⟩ := ih folded key held there
      exact ⟨last, here, above.trans higher⟩

theorem step_advances (sound : Sound measure s)
    (moved : step measure s event = some s') {id : String} (before : s.sessions.get? id = some session)
    (after : s'.sessions.get? id = some next) : Advances session next := by
  have running : s.closing = false := by
    cases closing : s.closing with
    | false => rfl
    | true =>
      rw [sound.closed closing] at before
      cases before
  obtain ⟨found, result, seeded, finds, ⟨accepted, part, -, folded⟩, rfl⟩ :=
    step_brings running moved after
  have same : found = session := by
    rcases finds with is | ⟨none, -⟩
    · exact Option.some_inj.mp (is.symm.trans before)
    · cases none.symm.trans before
  subst same
  have advances : Advances found result := by
    rcases arrivalsOf_shape id event with ⟨changes, shape⟩ | ⟨baseline, shape⟩
    · rw [shape] at part
      have some' : accepted = (changes.take accepted.length).map fun change =>
          .change change.1 change.2 := by
        rw [map_take]
        exact prefix_iff_eq_take.mp part
      rw [some'] at folded
      exact (changes_raise folded).advances
    · rw [shape] at part
      rcases prefix_cons_iff.mp part with rfl | ⟨rest, rfl, none⟩
      · cases folded
        exact Raises.advances fun key row is => ⟨row, is, le_rfl⟩
      · rw [prefix_nil] at none
        subst none
        rw [foldlM_cons] at folded
        cases one : arrive measure s.maxKeys found (.snapshot baseline) with
        | error error =>
          rw [one] at folded
          cases folded
        | ok middle =>
          rw [one] at folded
          cases folded
          exact reconcile_advances (sound.kept id found before).counted one
  exact advances

end Rows

section Orders
variable {session next : SessionState V}

/-- The rows that a key may have in the end. -/
def candidates (key : String) (before : List (ProjectionRow V)) : Arrival V → List (ProjectionRow V)
  | .snapshot baseline => before.filter (baseline.asOfSeq < ·.seq) ++
      ((baseline.values.get? key).map (⟨·, baseline.asOfSeq⟩)).toList
  | .change other row => if other = key then before ++ [row] else before

/-- The row of a key is the highest candidate. -/
def Top (all : List (ProjectionRow V)) : Option (ProjectionRow V) → Prop
  | none => all = []
  | some row => Highest all row

theorem Top.unique {first second : List (ProjectionRow V)} {one other : Option (ProjectionRow V)}
    (top : Top first one) (top' : Top second other) (same : ∀ row, row ∈ first ↔ row ∈ second) :
    one = other := by
  cases one with
  | none =>
    have top : first = [] := top
    cases other with
    | none => rfl
    | some row => simpa [top] using (same row).mpr top'.1
  | some row =>
    cases other with
    | none =>
      have top' : second = [] := top'
      simpa [top'] using (same row).mp top.1
    | some row' =>
      rcases top.2 row' ((same row').mpr top'.1) with below | equal
      · rcases top'.2 row ((same row).mp top.1) with above | equal
        · omega
        · rw [equal]
      · rw [equal]

variable {all : List (ProjectionRow V)}

/-- A filter that the highest row passes keeps it the highest. -/
theorem Highest.filter (highest : Highest all row) {asOfSeq : Int} (above : asOfSeq < row.seq) :
    Highest (all.filter (asOfSeq < ·.seq)) row :=
  ⟨mem_filter.mpr ⟨highest.1, by simpa using above⟩,
    fun other member => highest.2 other (mem_of_mem_filter member)⟩

theorem Highest.filter_nil (highest : Highest all row) {asOfSeq : Int} (notAbove : row.seq ≤ asOfSeq) :
    all.filter (asOfSeq < ·.seq) = [] := by
  refine filter_eq_nil_iff.mpr fun other member => ?_
  simp only [decide_eq_true_eq]
  rcases highest.2 other member with below | rfl <;> omega

theorem mem_candidates_changes (changes : ∀ arrival ∈ arrivals, ∃ name row, arrival = .change name row)
    (before : List (ProjectionRow V)) (row : ProjectionRow V) :
    row ∈ arrivals.foldl (candidates key) before ↔ row ∈ before ∨ .change key row ∈ arrivals := by
  induction arrivals generalizing before with
  | nil => simp
  | cons arrival rest ih =>
    obtain ⟨name, told, rfl⟩ := changes arrival mem_cons_self
    rw [foldl_cons, ih fun other member => changes other (mem_cons_of_mem _ member)]
    simp only [candidates]
    by_cases same : name = key
    · subst same
      simp [or_assoc]
    · simp [same, Ne.symm same]

/-- One baseline and newer changes, in any order: the same candidates. -/
theorem mem_candidates (newer : ∀ change ∈ changes, baseline.asOfSeq < change.2.seq)
    (order : arrivals.Perm (.snapshot baseline :: changes.map fun change => .change change.1 change.2))
    (before : List (ProjectionRow V)) (row : ProjectionRow V) :
    row ∈ arrivals.foldl (candidates key) before ↔
      (row ∈ before ∧ baseline.asOfSeq < row.seq) ∨ (key, row) ∈ changes ∨
        ∃ value, baseline.values.get? key = some value ∧ row = ⟨value, baseline.asOfSeq⟩ := by
  obtain ⟨first, last, rfl⟩ := append_of_mem (order.mem_iff.mpr mem_cons_self)
  have others : (first ++ last).Perm (changes.map fun change => .change change.1 change.2) :=
    (perm_middle.symm.trans order).cons_inv
  have all : ∀ arrival ∈ first ++ last, ∃ name row, arrival = .change name row := by
    intro arrival member
    obtain ⟨change, -, rfl⟩ := mem_map.mp (others.mem_iff.mp member)
    exact ⟨change.1, change.2, rfl⟩
  have told : ∀ row, Arrival.change key row ∈ first ++ last ↔ (key, row) ∈ changes := by
    intro row
    rw [others.mem_iff, mem_map]
    constructor
    · rintro ⟨⟨name, other⟩, member, same⟩
      cases same
      exact member
    · exact fun member => ⟨(key, row), member, rfl⟩
  have inFirst : ∀ row, row ∈ first.foldl (candidates key) before ↔ _ :=
    mem_candidates_changes (fun arrival member => all arrival (mem_append_left _ member)) before
  rw [foldl_append, foldl_cons,
    mem_candidates_changes fun arrival member => all arrival (mem_append_right _ member)]
  simp only [candidates, mem_append, mem_filter, decide_eq_true_eq, inFirst,
    Option.mem_toList, Option.map_eq_some_iff, ← told]
  have above : Arrival.change key row ∈ first → baseline.asOfSeq < row.seq := fun member =>
    newer _ ((told row).mp (mem_append_left _ member))
  grind

variable [DecidableEq V]

theorem Top.apply {key name : String} (top : Top all (session.rows.get? key))
    (applied : session.apply measure maxKeys name row = .ok next) :
    Top (candidates key all (.change name row)) (next.rows.get? key) := by
  simp only [candidates]
  obtain ⟨current, was, older, rfl⟩ | ⟨newer, stored⟩ := apply_cases applied
  · split
    · next same =>
      subst same
      rw [show (session.tell name row).rows = session.rows from rfl, was]
      rw [was] at top
      exact Highest.keep top older
    · exact top
  · obtain ⟨-, rfl⟩ := store_ok stored
    simp only [OrderedMap.get?_set]
    by_cases same : name = key
    · subst same
      rw [if_pos rfl, if_pos rfl]
      cases was : session.rows.get? name with
      | none =>
        rw [was] at top
        rw [show all = [] from top]
        exact highest_singleton row
      | some current =>
        rw [was] at top
        exact Highest.append top (newer current was)
    · rw [if_neg same, if_neg (Ne.symm same)]
      exact top

theorem Top.reconcile (counted : Counted measure session) (top : Top all (session.rows.get? key))
    (ok : session.reconcile measure maxKeys baseline = .ok next) :
    Top (candidates key all (.snapshot baseline)) (next.rows.get? key) := by
  have spec := reconcile_ok counted ok
  rw [spec.rows, reconciled]
  simp only [candidates]
  cases was : session.rows.get? key with
  | none =>
    rw [was] at top
    rw [show all = [] from top]
    cases baseline.values.get? key with
    | none => exact rfl
    | some value => exact highest_singleton _
  | some current =>
    rw [was] at top
    cases named : baseline.values.get? key with
    | none =>
      simp only [Option.map_none, Option.toList_none, append_nil]
      split
      · next above => exact Highest.filter top above
      · next notAbove => exact Highest.filter_nil top (by omega)
    | some value =>
      simp only [Option.map_some, Option.toList_some]
      by_cases above : baseline.asOfSeq < current.seq
      · rw [if_neg (by omega)]
        exact Highest.keep (Highest.filter top above) (.inl above)
      · rw [Highest.filter_nil top (by omega), nil_append]
        split
        · exact highest_singleton _
        · next notBelow =>
          -- the baseline has the row itself
          have level : current.seq = baseline.asOfSeq := by omega
          have equal := spec.agrees key current value was named level
          rw [← equal, ← level]
          exact highest_singleton current

theorem Top.arriveAll (kept : Kept measure session) (top : Top all (session.rows.get? key))
    (arrived : arrivals.foldlM (arrive measure maxKeys) session = .ok next) :
    Top (arrivals.foldl (candidates key) all) (next.rows.get? key) := by
  induction arrivals generalizing session all with
  | nil =>
    cases arrived
    exact top
  | cons arrival rest ih =>
    rw [foldlM_cons] at arrived
    cases one : arrive measure maxKeys session arrival with
    | error error =>
      rw [one] at arrived
      cases arrived
    | ok middle =>
      rw [one] at arrived
      refine ih (kept_arrive kept one) ?_ arrived
      cases arrival with
      | snapshot baseline => exact top.reconcile kept.counted one
      | change name row => exact top.apply one

end Orders

section Runs

theorem initial_sound (maxSessions maxKeys maxWaiters : Nat) :
    Sound measure (ControlStore.initial maxSessions maxKeys maxWaiters : ControlStore V) :=
  ⟨nofun, nofun, nofun⟩

variable [DecidableEq V] {s s' : ControlStore V} {events : List (Event V)} {id : String}

def Reaches (measure : String → V → Nat) (maxSessions maxKeys maxWaiters : Nat)
    (events : List (Event V)) (s : ControlStore V) : Prop :=
  Run (fun s event s' => step measure s event = some s') (.initial maxSessions maxKeys maxWaiters)
    events s

/-- A run in which the Session stays attached. -/
def Attached (measure : String → V → Nat) (id : String) (s : ControlStore V)
    (events : List (Event V)) (s' : ControlStore V) : Prop :=
  Run (fun s event s' => step measure s event = some s' ∧ (s'.sessions.get? id).isSome = true) s
    events s'

theorem reaches_sound {maxSessions maxWaiters : Nat}
    (reached : Reaches measure maxSessions maxKeys maxWaiters events s) : Sound measure s := by
  unfold Reaches at reached
  exact reached.invariant (initial_sound _ _ _) fun _ _ _ sound moved => step_sound sound moved

/-- In a run without a failure the row of a key is the highest of its candidates. -/
theorem attached_top {session : SessionState V} (sound : Sound measure s)
    (found : s.sessions.get? id = some session) (ran : Attached measure id s events s')
    (usable : s'.unusable = none) (key : String) :
    Sound measure s' ∧ ∃ next, s'.sessions.get? id = some next ∧
      Top ((events.flatMap (arrivalsOf id)).foldl (candidates key) (session.rows.get? key).toList)
        (next.rows.get? key) := by
  unfold Attached at ran
  induction ran with
  | nil =>
    refine ⟨sound, session, found, ?_⟩
    cases session.rows.get? key with
    | none => exact rfl
    | some row => exact highest_singleton row
  | @snoc events middle after event before last ih =>
    obtain ⟨moved, attached⟩ := last
    obtain ⟨next, is⟩ := Option.isSome_iff_exists.mp attached
    rcases step_stays moved with ⟨-, empty⟩ | stays
    · rw [empty] at is
      cases is
    obtain ⟨soundMiddle, session', here, top⟩ := ih (usable_of_stays stays usable)
    obtain ⟨-, running⟩ := running_of_usable (usable_of_stays stays usable)
    obtain ⟨other, result, seeded, finds, ⟨accepted, -, all, folded⟩, rfl⟩ :=
      step_brings running moved is
    have same : other = session' := by
      rcases finds with there | ⟨none, -⟩
      · exact Option.some_inj.mp (there.symm.trans here)
      · cases none.symm.trans here
    subst same
    cases all (running_of_usable usable).1
    refine ⟨step_sound soundMiddle moved, _, is, ?_⟩
    rw [flatMap_append, foldl_append, flatMap_cons, flatMap_nil, append_nil]
    have topAfter := top.arriveAll (soundMiddle.kept id other here) folded
    exact topAfter

/-- The rows do not depend on the order of a baseline and the changes that are newer. -/
theorem order_irrelevant (sound : Sound measure s) {first second : List (Event V)}
    {s₁ s₂ : ControlStore V} (attached : (s.sessions.get? id).isSome = true)
    (ran₁ : Attached measure id s first s₁) (ran₂ : Attached measure id s second s₂)
    (usable₁ : s₁.unusable = none) (usable₂ : s₂.unusable = none)
    (newer : ∀ change ∈ changes, baseline.asOfSeq < change.2.seq)
    (order₁ : (first.flatMap (arrivalsOf id)).Perm
      (.snapshot baseline :: changes.map fun change => .change change.1 change.2))
    (order₂ : (second.flatMap (arrivalsOf id)).Perm
      (.snapshot baseline :: changes.map fun change => .change change.1 change.2)) (key : String) :
    (s₁.sessions.get? id).bind (·.rows.get? key) = (s₂.sessions.get? id).bind (·.rows.get? key) := by
  obtain ⟨session, found⟩ := Option.isSome_iff_exists.mp attached
  obtain ⟨-, next₁, is₁, top₁⟩ := attached_top sound found ran₁ usable₁ key
  obtain ⟨-, next₂, is₂, top₂⟩ := attached_top sound found ran₂ usable₂ key
  rw [is₁, is₂]
  refine top₁.unique top₂ fun row => ?_
  rw [mem_candidates newer order₁, mem_candidates newer order₂]

/-- The events that replace rows as a whole. -/
def replaces : Event V → Bool
  | .seed .. => true
  | .replaceBaseline _ => true
  | .frame (.baseline _) => true
  | _ => false

/-- A replacement that fails leaves all Sessions as they were. -/
theorem failed_replacement (whole : replaces event = true) (works : s.fault = none)
    (moved : step measure s event = some s') (failed : s'.fault.isSome = true) :
    s'.sessions = s.sessions := by
  have unfailed : ∀ {after : ControlStore V}, after.fault = s.fault → after.fault.isSome = true →
      after.sessions = s.sessions := by
    intro after same failed
    rw [same, works] at failed
    cases failed
  cases event with
  | seed id seed =>
    cases moved
    unfold ControlStore.seed at failed ⊢
    split
    · rfl
    next usable =>
    rw [if_neg usable] at failed
    split
    · rfl
    next session found =>
    simp only [found] at failed
    unfold ControlStore.seedSession at failed ⊢
    split
    · exact (fail_sessions _).1
    next result made =>
    simp only [made] at failed
    exact unfailed rfl failed
  | replaceBaseline projections =>
    cases moved
    unfold ControlStore.replaceBaseline at failed ⊢
    split
    · rfl
    · next usable =>
      rw [if_neg usable] at failed
      split
      · exact (fail_sessions _).1
      · next after replaced =>
        obtain ⟨-, -, -, fault, -⟩ := replace_ok replaced
        simp only [replaced] at failed
        exact unfailed fault failed
  | frame frame =>
    simp only [step, Option.ite_none_right_eq_some, Option.some.injEq] at moved
    obtain ⟨-, rfl⟩ := moved
    cases frame with
    | projection id seq changes => cases whole
    | baseline projections =>
      unfold ControlStore.receive at failed ⊢
      simp only at failed ⊢
      split
      · exact streamFailed_sessions _
      · next first =>
        rw [if_neg first] at failed
        split
        · exact streamFailed_sessions _
        · next after replaced =>
          obtain ⟨-, -, -, fault, -⟩ := replace_ok replaced
          simp only [replaced] at failed
          rw [fault, works] at failed
          cases failed
  | _ => cases whole

end Runs

def opening : List (Event Nat) :=
  [.start, .frame (.baseline .empty), .attach "s" none, .frame (.projection "s" 7 [⟨"k", 1⟩])]

/-- The row of the key. -/
def rowOf (s : ControlStore Nat) : Option (ProjectionRow Nat) :=
  (s.sessions.get? "s").bind (·.rows.get? "k")

end CodexHost.Guarantees.ProjectionRuns
