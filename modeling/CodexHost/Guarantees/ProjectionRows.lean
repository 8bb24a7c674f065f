import CodexHost.Source.DeepseekHarness.ControlStore

/-!
# The rows of a Session

A row is the newest of what was applied to its key since it was last absent, whatever the order.
The counted bytes are those of the rows, and a waiter gets a row that it has asked for.
-/
namespace CodexHost.Guarantees.ProjectionRows
open Foundation Source.DeepseekHarness OrderedMap List Option ControlStore SessionState

variable {V : Type} {measure : String → V → Nat} {maxKeys : Nat}

/-- The row has the highest sequence of all that was applied. -/
def Highest (applied : List (ProjectionRow V)) (row : ProjectionRow V) : Prop :=
  row ∈ applied ∧ ∀ other ∈ applied, other.seq < row.seq ∨ other = row

/-- The bytes of the rows in JSON. -/
def rowsBytes (measure : String → V → Nat) (rows : OrderedMap String (ProjectionRow V)) : Nat :=
  2 + (rows.entries.length - 1) + (rows.entries.map fun entry => measure entry.1 entry.2.value).sum

structure Counted (measure : String → V → Nat) (session : SessionState V) : Prop where
  each : session.rowBytes.entries =
    session.rows.entries.map fun entry => (entry.1, measure entry.1 entry.2.value)
  total : session.bytes = rowsBytes measure session.rows
  limit : session.bytes ≤ MAX_SESSION_PROJECTION_BYTES

/-- What holds of a Session. -/
structure Kept (measure : String → V → Nat) (session : SessionState V) : Prop where
  counted : Counted measure session
  newest : ∀ key row, session.rows.get? key = some row → Highest (session.applied key) row

variable {baseline : ProjectionBaseline V}

section Sessions
variable {session next : SessionState V}

theorem Counted.rowBytes (counted : Counted measure session) (key : String) :
    session.rowBytes.get? key = (session.rows.get? key).map fun row => measure key row.value := by
  have lookup : ∀ entries : List (String × ProjectionRow V),
      (entries.map fun entry => (entry.1, measure entry.1 entry.2.value)).lookup key =
        (entries.lookup key).map fun row => measure key row.value := by
    intro entries
    induction entries with
    | nil => rfl
    | cons entry rest ih =>
      obtain ⟨name, row⟩ := entry
      by_cases here : key = name
      · subst here
        simp
      · have different : (key == name) = false := by simpa using here
        simpa [lookup_cons, different] using ih
  rw [OrderedMap.get?, counted.each, lookup]
  rfl

theorem Highest.append {applied : List (ProjectionRow V)} {row newer : ProjectionRow V}
    (highest : Highest applied row) (above : row.seq < newer.seq) :
    Highest (applied ++ [newer]) newer := by
  refine ⟨by simp, fun other member => ?_⟩
  rcases mem_append.mp member with old | new
  · rcases highest.2 other old with below | rfl
    · exact .inl (by omega)
    · exact .inl above
  · exact .inr (mem_singleton.mp new)

theorem Highest.keep {applied : List (ProjectionRow V)} {row older : ProjectionRow V}
    (highest : Highest applied row) (below : older.seq < row.seq ∨ older = row) :
    Highest (applied ++ [older]) row := by
  refine ⟨mem_append_left _ highest.1, fun other member => ?_⟩
  rcases mem_append.mp member with old | new
  · exact highest.2 other old
  · rw [mem_singleton.mp new]
    exact below

theorem highest_singleton (row : ProjectionRow V) : Highest [row] row :=
  ⟨mem_singleton_self row, fun _ member => .inr (mem_singleton.mp member)⟩

variable {key : String} {row : ProjectionRow V}

theorem store_ok (stored : session.store measure key row = .ok next) :
    session.bytesWith measure key row ≤ MAX_SESSION_PROJECTION_BYTES ∧ next = { session.tell key row with
        rows := session.rows.set key row
        rowBytes := session.rowBytes.set key (measure key row.value)
        bytes := session.bytesWith measure key row } := by
  unfold store at stored
  split at stored
  · cases stored
  · next within =>
    cases stored
    exact ⟨Nat.le_of_not_lt within, rfl⟩

/-- A change that is not newer is told only; a newer one is stored. -/
theorem apply_cases [DecidableEq V] (applied : session.apply measure maxKeys key row = .ok next) :
    (∃ current, session.rows.get? key = some current ∧ (row.seq < current.seq ∨ row = current) ∧
        next = session.tell key row) ∨
      ((∀ current, session.rows.get? key = some current → current.seq < row.seq) ∧
        session.store measure key row = .ok next) := by
  unfold SessionState.apply at applied
  split at applied
  · next current is =>
    split at applied
    · next below =>
      cases applied
      exact .inl ⟨current, is, .inl below, rfl⟩
    · split at applied
      · next same =>
        split at applied
        · next equal =>
          cases applied
          have here : row = current := by
            cases row
            cases current
            simp_all
          exact .inl ⟨current, is, .inr here, rfl⟩
        · cases applied
      · refine .inr ⟨fun other found => ?_, applied⟩
        rw [is] at found
        cases found
        omega
  · next absent =>
    split at applied
    · cases applied
    · refine .inr ⟨fun other found => ?_, applied⟩
      rw [absent] at found
      cases found

theorem bytesWith_eq (counted : Counted measure session) (key : String) (row : ProjectionRow V) :
    session.bytesWith measure key row = rowsBytes measure (session.rows.set key row) := by
  have sum := session.rows.sum_set (fun key row => measure key row.value) key row
  have length := session.rows.length_set key row
  rw [bytesWith, counted.rowBytes, counted.total]
  cases is : session.rows.get? key with
  | none =>
    have unknown : session.rows.has key = false := by simp [is]
    simp only [is, unknown, rowsBytes, map_none, getD_none, isNone_none,
      Bool.true_and, decide_eq_true_eq, Bool.false_eq_true, if_false] at sum length ⊢
    split <;> omega
  | some current =>
    have known : session.rows.has key = true := by simp [OrderedMap.has, is]
    have member := (session.rows.mem_entries_iff key current).mpr is
    have within : measure key current.value ≤
        (session.rows.entries.map fun entry => measure entry.1 entry.2.value).sum :=
      le_sum_of_mem (mem_map.mpr ⟨_, member, rfl⟩)
    simp only [is, known, rowsBytes, map_some, getD_some, isNone_some,
      Bool.false_and, Bool.false_eq_true, if_false, if_true, Nat.add_zero] at sum length ⊢
    omega

theorem Kept.apply [DecidableEq V] (kept : Kept measure session) (applied : session.apply measure maxKeys key row = .ok next) :
    Kept measure next := by
  obtain ⟨current, is, older, rfl⟩ | ⟨newer, stored⟩ := apply_cases applied
  · refine ⟨⟨kept.counted.each, kept.counted.total, kept.counted.limit⟩, fun other found here => ?_⟩
    simp only [SessionState.tell]
    split
    · next same =>
      subst same
      cases is.symm.trans here
      rw [applyAt, is]
      exact (kept.newest other current is).keep older
    · exact kept.newest other found here
  · obtain ⟨within, rfl⟩ := store_ok stored
    refine ⟨⟨?_, bytesWith_eq kept.counted key row, within⟩, fun other found here => ?_⟩
    · exact set_entries_map (f := fun key row => measure key row.value)
        kept.counted.each key row
    · simp only [SessionState.tell]
      rw [get?_set] at here
      split at here
      · next same =>
        cases here
        subst same
        rw [if_pos rfl, applyAt]
        cases is : session.rows.get? other with
        | none => exact highest_singleton _
        | some current => exact (kept.newest other current is).append (newer current is)
      · next different =>
        rw [if_neg different]
        exact kept.newest other found here

/-- The row that a key has after the baseline. -/
def reconciled (session : SessionState V) (baseline : ProjectionBaseline V) (key : String) :
    Option (ProjectionRow V) :=
  match session.rows.get? key, baseline.values.get? key with
  | some current, some value =>
    some (if current.seq < baseline.asOfSeq then ⟨value, baseline.asOfSeq⟩ else current)
  | some current, none => if current.seq > baseline.asOfSeq then some current else none
  | none, some value => some ⟨value, baseline.asOfSeq⟩
  | none, none => none

/-- What `#reconcile` says of a Session and a baseline: the rows that come out, and that nothing is
in conflict at the sequence of the baseline. -/
structure Reconciled (measure : String → V → Nat) (session : SessionState V)
    (baseline : ProjectionBaseline V) (next : SessionState V) : Prop where
  rows : ∀ key, next.rows.get? key = reconciled session baseline key
  agrees : ∀ key current value, session.rows.get? key = some current →
    baseline.values.get? key = some value → current.seq = baseline.asOfSeq → current.value = value
  counted : Counted measure next
  seeded : next.seeded = session.seeded
  applied : ∀ key, next.applied key = if (next.rows.get? key).isNone then [] else
    session.applyAt key ((baseline.values.get? key).map (⟨·, baseline.asOfSeq⟩))

section
variable (counted : Counted measure session)
include counted

theorem pickValue_ok [DecidableEq V] {asOfSeq : Int}
    {entry : String × V} {pick : Option (String × ProjectionRow V × Nat)}
    (picked : session.pickValue measure asOfSeq entry = .ok pick) :
    ∃ row, pick = some (entry.1, row, measure entry.1 row.value) ∧
      match session.rows.get? entry.1 with
      | none => row = ⟨entry.2, asOfSeq⟩
      | some current =>
        (row = if current.seq < asOfSeq then ⟨entry.2, asOfSeq⟩ else current) ∧
          (current.seq = asOfSeq → current.value = entry.2) := by
  unfold pickValue at picked
  rw [counted.rowBytes] at picked
  cases is : session.rows.get? entry.1 with
  | none =>
    rw [is] at picked
    cases picked
    exact ⟨_, rfl, rfl⟩
  | some current =>
    rw [is] at picked
    simp only [map_some, getD_some] at picked
    split at picked
    · next above =>
      cases picked
      exact ⟨current, rfl, by rw [if_neg (by omega)], fun same => by omega⟩
    · split at picked
      · next same =>
        split at picked
        · cases picked
        · next equal =>
          cases picked
          exact ⟨current, rfl, by rw [if_neg (by omega)], fun _ => not_not.mp equal⟩
      · next below different =>
        cases picked
        exact ⟨_, rfl, by rw [if_pos (by omega)], fun same => absurd same different⟩

theorem pickRow_ok
    {entry : String × ProjectionRow V} (own : session.rows.get? entry.1 = some entry.2)
    {pick : Option (String × ProjectionRow V × Nat)}
    (picked : session.pickRow baseline entry = .ok pick) :
    pick = (if baseline.values.has entry.1 = false ∧ entry.2.seq > baseline.asOfSeq then
      some (entry.1, entry.2, measure entry.1 entry.2.value) else none) := by
  unfold pickRow at picked
  rw [counted.rowBytes, own] at picked
  split at picked
  · next known =>
    cases picked
    simp [known]
  · next unknown =>
    split at picked
    · next above =>
      cases picked
      simp [unknown, above]
    · split at picked
      · cases picked
      · next below _ =>
        cases picked
        simp [below]

/-- What is picked is the rows that come out, with their bytes. -/
theorem mem_picks [DecidableEq V] {stated newer : List (String × ProjectionRow V × Nat)}
    (first : pickAll (session.pickValue measure baseline.asOfSeq) baseline.values.entries = .ok stated)
    (second : pickAll (session.pickRow baseline) session.rows.entries = .ok newer)
    (key : String) (row : ProjectionRow V) (bytes : Nat) :
    (key, row, bytes) ∈ stated ++ newer ↔
      reconciled session baseline key = some row ∧ bytes = measure key row.value := by
  rw [mem_append, mem_pickAll first, mem_pickAll second]
  constructor
  · rintro (⟨⟨name, value⟩, member, picked⟩ | ⟨⟨name, current⟩, member, picked⟩)
    · obtain ⟨row', same, target⟩ := pickValue_ok counted picked
      cases same
      have named := (mem_entries_iff _ _ _).mp member
      refine ⟨?_, rfl⟩
      unfold reconciled
      cases is : session.rows.get? name with
      | none =>
        rw [is] at target
        simp only [named, target]
      | some current =>
        rw [is] at target
        simp only [named, target.1]
    · have own := (mem_entries_iff _ _ _).mp member
      have pick := pickRow_ok counted own picked
      split at pick
      · next here =>
        cases pick
        have absent := (has_eq_false_iff _ _).mp here.1
        refine ⟨?_, rfl⟩
        simp only [reconciled, own, absent]
        exact if_pos here.2
      · cases pick
  · rintro ⟨target, rfl⟩
    cases named : baseline.values.get? key with
    | some value =>
      have member := (mem_entries_iff _ _ _).mpr named
      obtain ⟨pick, picked⟩ := pick_of_mem first member
      obtain ⟨row', rfl, found⟩ := pickValue_ok counted picked
      refine Or.inl ⟨(key, value), member, ?_⟩
      have same : row' = row := by
        simp only [reconciled, named] at target
        cases is : session.rows.get? key with
        | none =>
          rw [is] at target found
          exact found.trans (some_inj.mp target)
        | some current =>
          rw [is] at target found
          exact found.1.trans (some_inj.mp target)
      rw [picked, same]
    | none =>
      cases is : session.rows.get? key with
      | none => simp [reconciled, is, named] at target
      | some current =>
        simp only [reconciled, is, named, ite_none_right_eq_some, some.injEq] at target
        obtain ⟨above, rfl⟩ := target
        have member := (mem_entries_iff _ _ _).mpr is
        obtain ⟨pick, picked⟩ := pick_of_mem second member
        have pick := pickRow_ok counted is picked
        have unknown : baseline.values.has key = false := by simp [named]
        rw [if_pos ⟨unknown, above⟩] at pick
        exact Or.inr ⟨(key, current), member, picked.trans (congrArg Except.ok pick)⟩

theorem picks_nodup [DecidableEq V] {stated newer : List (String × ProjectionRow V × Nat)}
    (first : pickAll (session.pickValue measure baseline.asOfSeq) baseline.values.entries = .ok stated)
    (second : pickAll (session.pickRow baseline) session.rows.entries = .ok newer) :
    ((stated ++ newer).map (·.1)).Nodup := by
  have old := pickAll_sublist (·.1) (·.1) first fun entry pick picked => by
    obtain ⟨row, same, -⟩ := pickValue_ok counted picked
    cases same
    rfl
  have new := pickAll_sublist (·.1) (·.1) second fun entry pick picked => by
    unfold pickRow at picked
    repeat' split at picked
    all_goals cases picked
    rfl
  rw [map_append, nodup_append]
  refine ⟨baseline.values.keys_nodup.sublist old, session.rows.keys_nodup.sublist new, ?_⟩
  rintro key there other here rfl
  obtain ⟨value, named⟩ := (mem_keys_iff _ _).mp (old.subset there)
  obtain ⟨⟨name, row, bytes⟩, picked, rfl⟩ := mem_map.mp here
  obtain ⟨⟨name', current⟩, member, is⟩ := (mem_pickAll second _).mp picked
  have pick := pickRow_ok counted ((mem_entries_iff _ _ _).mp member) is
  split at pick
  · next unknown =>
    cases pick
    rw [has_eq_false_iff] at unknown
    rw [unknown.1] at named
    cases named
  · cases pick

end

theorem projectionMapBytes_eq {rowBytes : OrderedMap String Nat} {rows : OrderedMap String (ProjectionRow V)}
    (each : rowBytes.entries = rows.entries.map fun entry => (entry.1, measure entry.1 entry.2.value)) :
    projectionMapBytes rowBytes = rowsBytes measure rows := by
  simp only [projectionMapBytes, rowsBytes, OrderedMap.values, each, List.length_map, List.map_map]
  rfl

theorem reconcile_ok [DecidableEq V] (counted : Counted measure session)
    (ok : session.reconcile measure maxKeys baseline = .ok next) :
    Reconciled measure session baseline next := by
  unfold reconcile at ok
  split at ok
  · cases ok
  next stated first =>
  split at ok
  · cases ok
  next newer second =>
  simp only at ok
  split at ok
  · cases ok
  split at ok
  · cases ok
  next within =>
  cases ok
  have nodup := picks_nodup counted first second
  have rowsNodup : (((stated ++ newer).map fun pick => (pick.1, pick.2.1)).map Prod.fst).Nodup := by
    rw [List.map_map]
    exact nodup
  have bytesNodup : (((stated ++ newer).map fun pick => (pick.1, pick.2.2)).map Prod.fst).Nodup := by
    rw [List.map_map]
    exact nodup
  have each : (OrderedMap.empty.setAll ((stated ++ newer).map fun pick => (pick.1, pick.2.2))).entries =
      (OrderedMap.empty.setAll ((stated ++ newer).map fun pick => (pick.1, pick.2.1))).entries.map
        fun entry => (entry.1, measure entry.1 entry.2.value) := by
    rw [OrderedMap.entries_setAll_empty rowsNodup, OrderedMap.entries_setAll_empty bytesNodup, List.map_map]
    refine List.map_congr_left fun pick member => ?_
    obtain ⟨-, bytes⟩ := (mem_picks counted first second pick.1 pick.2.1 pick.2.2).mp member
    simp [bytes]
  refine ⟨fun key => ?_, fun key current value is named same => ?_,
    ⟨each, projectionMapBytes_eq each, Nat.le_of_not_lt within⟩, rfl, fun _ => rfl⟩
  · refine Option.ext fun row => ?_
    rw [← OrderedMap.mem_entries_iff, OrderedMap.entries_setAll_empty rowsNodup, List.mem_map]
    constructor
    · rintro ⟨⟨name, row', bytes⟩, member, same⟩
      cases same
      exact ((mem_picks counted first second _ _ _).mp member).1
    · intro target
      exact ⟨(key, row, measure key row.value), (mem_picks counted first second _ _ _).mpr ⟨target, rfl⟩, rfl⟩
  · obtain ⟨pick, picked⟩ := pick_of_mem first ((OrderedMap.mem_entries_iff _ _ _).mpr named)
    obtain ⟨row, -, found⟩ := pickValue_ok counted picked
    simp only [is] at found
    exact found.2 same

theorem Kept.reconcile [DecidableEq V] (kept : Kept measure session)
    (ok : session.reconcile measure maxKeys baseline = .ok next) : Kept measure next := by
  have spec := reconcile_ok kept.counted ok
  refine ⟨spec.counted, fun key row is => ?_⟩
  rw [spec.applied, is, if_neg (by simp)]
  rw [spec.rows, reconciled] at is
  unfold applyAt
  cases was : session.rows.get? key with
  | none =>
    cases named : baseline.values.get? key with
    | none => simp [was, named] at is
    | some value =>
      simp only [was, named, some.injEq] at is
      subst is
      exact highest_singleton _
  | some current =>
    have before := kept.newest key current was
    cases named : baseline.values.get? key with
    | none =>
      simp only [was, named, ite_none_right_eq_some, some.injEq] at is
      obtain ⟨-, rfl⟩ := is
      simpa using before
    | some value =>
      simp only [was, named, some.injEq] at is
      subst is
      simp only [isSome_some, if_true, map_some, toList_some]
      split
      · next below => exact before.append below
      · next notBelow =>
        refine before.keep ?_
        by_cases same : current.seq = baseline.asOfSeq
        · refine .inr ?_
          rw [← spec.agrees key current value was named same, ← same]
        · exact .inl (by
            simp only
            omega)

end Sessions

/-- What comes to a Session: a seed or baseline, or a change. -/
inductive Arrival (V : Type) where
  | snapshot (baseline : ProjectionBaseline V)
  | change (key : String) (row : ProjectionRow V)

def arrive [DecidableEq V] (measure : String → V → Nat) (maxKeys : Nat) (session : SessionState V) :
    Arrival V → Except StoreError (SessionState V)
  | .snapshot baseline => session.reconcile measure maxKeys baseline
  | .change key row => session.apply measure maxKeys key row

/-- What an event brings to a Session. -/
def arrivalsOf (sessionId : String) : Event V → List (Arrival V)
  | .attach id seed => if id = sessionId then seed.toList.map .snapshot else []
  | .seed id seed => if id = sessionId then [.snapshot seed] else []
  | .replaceBaseline projections => (projections.get? sessionId).toList.map .snapshot
  | .frame (.baseline projections) => (projections.get? sessionId).toList.map .snapshot
  | .frame (.projection id seq changes) =>
    if id = sessionId then changes.map fun change => .change change.key ⟨change.value, seq⟩ else []
  | _ => []

/-- What has arrived at a Session has made another of it; only a failure keeps some of it away. -/
def Accepts [DecidableEq V] (measure : String → V → Nat) (maxKeys : Nat) (session next : SessionState V)
    (arrivals : List (Arrival V)) (fault : Option StoreError) : Prop :=
  ∃ accepted, accepted <+: arrivals ∧ (fault = none → accepted = arrivals) ∧
    accepted.foldlM (arrive measure maxKeys) session = .ok next

section Stores
variable {s s' : ControlStore V} {sessionId : String} {session next : SessionState V}

theorem fail_sessions (error : StoreError) : (s.fail error).sessions = s.sessions ∧
    (s.fail error).closing = s.closing ∧ (s.fail error).maxKeys = s.maxKeys := by
  unfold fail
  split <;> exact ⟨rfl, rfl, rfl⟩

theorem fail_fault (error : StoreError) (running : s.closing = false) :
    (s.fail error).fault.isSome = true := by
  unfold fail
  cases fault : s.fault with
  | some fault => simp [fault]
  | none => simp [running, rejectWaiters]

variable {id : String}

theorem get?_set_cases {sessions : OrderedMap String (SessionState V)}
    {stored : SessionState V} (is : (sessions.set id stored).get? sessionId = some next) :
    id = sessionId ∧ next = stored ∨ id ≠ sessionId ∧ sessions.get? sessionId = some next := by
  rw [get?_set] at is
  split at is
  · next here =>
    cases is
    exact .inl ⟨here.symm, rfl⟩
  · next there => exact .inr ⟨fun same => there same.symm, is⟩

theorem streamFailed_sessions (error : StoreError) : (s.streamFailed error).sessions = s.sessions := by
  unfold streamFailed
  split
  · rfl
  · split
    · rfl
    · exact (fail_sessions error).1

variable {error : StoreError}

theorem streamFailed_fault (running : s.closing = false)
    (definite : error.code ≠ .unavailable) : (s.streamFailed error).fault.isSome = true := by
  unfold streamFailed
  rw [if_neg (by simp [running]), if_neg (by simp [definite])]
  exact fail_fault error running

theorem unusable_running (running : s.closing = false) : s.unusable = s.fault := by
  unfold unusable
  cases s.fault <;> simp [running]

variable [DecidableEq V]

theorem accepts_nothing (fault : Option StoreError) : Accepts measure maxKeys session session [] fault :=
  ⟨[], prefix_refl _, fun _ => rfl, rfl⟩

/-- Nothing is accepted by a store that has failed. -/
theorem accepts_failed (arrivals : List (Arrival V)) {fault : Option StoreError}
    (failed : fault.isSome = true) : Accepts measure maxKeys session session arrivals fault := by
  refine ⟨[], nil_prefix, fun none => ?_, rfl⟩
  rw [none] at failed
  cases failed

theorem accepts_one {arrival : Arrival V} (arrived : arrive measure maxKeys session arrival = .ok next)
    (fault : Option StoreError) : Accepts measure maxKeys session next [arrival] fault := by
  refine ⟨[arrival], prefix_refl _, fun _ => rfl, ?_⟩
  rw [foldlM_cons, arrived]
  rfl

theorem Accepts.trans {middle : SessionState V} {first second : List (Arrival V)}
    {fault : Option StoreError} (before : Accepts measure maxKeys session middle first none)
    (after : Accepts measure maxKeys middle next second fault) :
    Accepts measure maxKeys session next (first ++ second) fault := by
  obtain ⟨_, -, all, accepted⟩ := before
  obtain ⟨more, part, rest, acceptedToo⟩ := after
  cases all rfl
  refine ⟨first ++ more, (prefix_append_right_inj first).mpr part, fun none => ?_, ?_⟩
  · rw [rest none]
  · rw [foldlM_append, accepted]
    exact acceptedToo

theorem apply_accepts (running : s.closing = false) {seq : Int} {change : ProjectionChange V}
    (is : (s.apply measure id seq change).sessions.get? sessionId = some next) :
    ∃ session, s.sessions.get? sessionId = some session ∧ Accepts measure s.maxKeys session next
        (if id = sessionId then [.change change.key ⟨change.value, seq⟩] else [])
        (s.apply measure id seq change).fault := by
  unfold ControlStore.apply at is ⊢
  cases found : s.sessions.get? id with
  | none =>
    rw [found] at is
    have other : id ≠ sessionId := by
      rintro rfl
      rw [found] at is
      cases is
    rw [if_neg other]
    exact ⟨next, is, accepts_nothing _⟩
  | some session =>
    rw [found] at is
    simp only at is ⊢
    split at is
    · next error failed =>
      rw [(fail_sessions error).1] at is
      exact ⟨next, is, accepts_failed _ (fail_fault error running)⟩
    · next after applied =>
      rcases get?_set_cases is with ⟨rfl, rfl⟩ | ⟨other, is⟩
      · rw [if_pos rfl]
        exact ⟨session, found, @accepts_one _ _ _ _ _ _ (.change change.key ⟨change.value, seq⟩) applied _⟩
      · rw [if_neg other]
        exact ⟨next, is, accepts_nothing _⟩

theorem apply_kept (id : String) (seq : Int) (change : ProjectionChange V) :
    (s.apply measure id seq change).closing = s.closing ∧
    (s.apply measure id seq change).maxKeys = s.maxKeys := by
  unfold ControlStore.apply
  split
  · exact ⟨rfl, rfl⟩
  · split
    · next error _ => exact (fail_sessions error).2
    · exact ⟨rfl, rfl⟩

theorem applyAll_accepts (running : s.closing = false) {seq : Int} {changes : List (ProjectionChange V)}
    (is : (s.applyAll measure id seq changes).sessions.get? sessionId = some next) :
    ∃ session, s.sessions.get? sessionId = some session ∧ Accepts measure s.maxKeys session next
        (if id = sessionId then changes.map fun change => .change change.key ⟨change.value, seq⟩
          else [])
        (s.applyAll measure id seq changes).fault := by
  induction changes generalizing s with
  | nil => exact ⟨next, is, by simpa using accepts_nothing _⟩
  | cons change rest ih =>
    obtain ⟨closing, keys⟩ : (s.apply measure id seq change).closing = s.closing ∧
        (s.apply measure id seq change).maxKeys = s.maxKeys := apply_kept id seq change
    unfold ControlStore.applyAll at is ⊢
    simp only at is ⊢
    split at is
    · next failed =>
      -- the rest of the frame is dropped
      rw [if_pos failed]
      obtain ⟨session, found, accepted, part, -, folded⟩ := apply_accepts running is
      refine ⟨session, found, accepted, ?_, fun none => ?_, folded⟩
      · refine part.trans ?_
        split
        · exact ⟨_, singleton_append⟩
        · exact prefix_refl _
      · rw [none] at failed
        cases failed
    · next going =>
      rw [if_neg going]
      rw [Bool.not_eq_true, isSome_eq_false_iff, isNone_iff_eq_none] at going
      obtain ⟨middle, foundMiddle, after⟩ := ih (closing.trans running) is
      obtain ⟨session, found, before⟩ := apply_accepts running foundMiddle
      rw [going] at before
      rw [keys] at after
      refine ⟨session, found, ?_⟩
      have both := before.trans after
      split at both
      · next here => simpa [here] using both
      · next there => simpa [there] using both

variable {seed : ProjectionBaseline V}

theorem seedSession_sessions {before : SessionState V} (running : s.closing = false)
    (is : (s.seedSession measure id before seed).sessions.get? sessionId = some next) :
    (id = sessionId ∧ ∃ result, before.reconcile measure s.maxKeys seed = .ok result ∧
        next = { result with seeded := true }) ∨
      s.sessions.get? sessionId = some next ∧
        (id ≠ sessionId ∨ (s.seedSession measure id before seed).fault.isSome = true) := by
  unfold seedSession at is ⊢
  split at is
  · next error failed =>
    rw [(fail_sessions error).1] at is
    exact .inr ⟨is, .inr (fail_fault error running)⟩
  · next result reconciled =>
    rcases get?_set_cases is with ⟨here, rfl⟩ | ⟨other, is⟩
    · exact .inl ⟨here, result, reconciled, rfl⟩
    · exact .inr ⟨is, .inl other⟩

/-- The waiters hear of a replacement; nothing else changes then. -/
theorem publishAll_kept (entries : List (String × SessionState V)) (before : String → SessionState V) :
    let published := entries.foldl (fun s entry => s.publish entry.1 (before entry.1) entry.2) s
    published.sessions = s.sessions ∧ published.fault = s.fault ∧ published.closing = s.closing ∧
      published.maxKeys = s.maxKeys := by
  induction entries generalizing s with
  | nil => exact ⟨rfl, rfl, rfl, rfl⟩
  | cons entry rest ih => exact ih

variable {projections : OrderedMap String (ProjectionBaseline V)} {requireComplete : Bool}

theorem replace_ok (ok : s.replace measure projections requireComplete = .ok s') :
    ∃ replacements, pickAll (s.replacement measure projections requireComplete)
        s.sessions.entries = .ok replacements ∧
      s'.sessions = s.sessions.setAll replacements ∧ s'.fault = s.fault ∧
      s'.closing = s.closing ∧ s'.maxKeys = s.maxKeys := by
  unfold ControlStore.replace at ok
  cases picked : pickAll (s.replacement measure projections requireComplete) s.sessions.entries with
  | error error =>
    rw [picked] at ok
    cases ok
  | ok replacements =>
    rw [picked] at ok
    cases ok
    exact ⟨replacements, rfl, publishAll_kept (s := { s with
      sessions := s.sessions.setAll replacements }) replacements
        fun id => (s.sessions.get? id).getD .empty⟩

theorem replacement_name {entry made : String × SessionState V}
    (is : s.replacement measure projections requireComplete entry = .ok (some made)) :
    made.1 = entry.1 ∧ ∃ block, projections.get? entry.1 = some block ∧
      entry.2.reconcile measure s.maxKeys block = .ok made.2 := by
  unfold replacement at is
  split at is
  · split at is <;> cases is
  · next block named =>
    split at is
    · cases is
    · cases reconciled : entry.2.reconcile measure s.maxKeys block with
      | error error =>
        rw [reconciled] at is
        cases is
      | ok result =>
        rw [reconciled] at is
        cases is
        exact ⟨rfl, block, named, reconciled⟩

theorem replacement_none {entry : String × SessionState V}
    (is : s.replacement measure projections requireComplete entry = .ok none) :
    projections.get? entry.1 = none := by
  unfold replacement at is
  split at is
  · next absent => exact absent
  · split at is
    · cases is
    · cases reconciled : entry.2.reconcile measure s.maxKeys _ <;> rw [reconciled] at is <;> cases is

/-- A replacement reconciles each attached Session that the baseline has. -/
theorem replace_sessions (ok : s.replace measure projections requireComplete = .ok s')
    (is : s'.sessions.get? sessionId = some next) :
    ∃ session, s.sessions.get? sessionId = some session ∧
      match projections.get? sessionId with
      | none => next = session
      | some block => session.reconcile measure s.maxKeys block = .ok next := by
  obtain ⟨replacements, picked, sessions, -⟩ := replace_ok ok
  have sublist := pickAll_sublist (·.1) (·.1) picked fun entry made made' =>
    (replacement_name made').1
  have nodup : (replacements.map Prod.fst).Nodup := s.sessions.keys_nodup.sublist sublist
  rw [sessions, get?_setAll_of_nodup nodup] at is
  cases found : replacements.lookup sessionId with
  | some made =>
    rw [found] at is
    cases is
    have member := (lookup_eq_some_iff_mem nodup _ _).mp found
    obtain ⟨⟨name, session⟩, entry, ok⟩ := (mem_pickAll picked _).mp member
    obtain ⟨rfl, block, named, reconciled⟩ := replacement_name ok
    refine ⟨session, (mem_entries_iff _ _ _).mp entry, ?_⟩
    rw [named]
    exact reconciled
  | none =>
    rw [found] at is
    have unchanged : s.sessions.get? sessionId = some next := is
    refine ⟨next, unchanged, ?_⟩
    obtain ⟨one, looked⟩ := pick_of_mem picked ((mem_entries_iff _ _ _).mpr unchanged)
    cases one with
    | none =>
      rw [replacement_none looked]
    | some made =>
      have member := (mem_pickAll picked made).mpr ⟨_, (mem_entries_iff _ _ _).mpr unchanged, looked⟩
      have there : made.1 = sessionId := (replacement_name looked).1
      have known : (sessionId, made.2) ∈ replacements := by
        rw [← there]
        exact member
      rw [(lookup_eq_some_iff_mem nodup _ _).mpr known] at found
      cases found

/-- The event has brought the arrivals to the Session that it has found, perhaps a new one. -/
def Brings (measure : String → V → Nat) (s s' : ControlStore V) (sessionId : String)
    (next : SessionState V) (arrivals : List (Arrival V)) : Prop :=
  ∃ session result seeded, (s.sessions.get? sessionId = some session ∨
      s.sessions.get? sessionId = none ∧ session = .empty) ∧
    Accepts measure s.maxKeys session result arrivals s'.fault ∧
    next = { result with seeded := seeded }

theorem brings_same {arrivals : List (Arrival V)} (is : s.sessions.get? sessionId = some next)
    (nothing : s'.fault.isSome = true ∨ arrivals = []) :
    Brings measure s s' sessionId next arrivals := by
  refine ⟨next, next, next.seeded, .inl is, ?_, rfl⟩
  rcases nothing with failed | none
  · exact accepts_failed _ failed
  · rw [none]
    exact accepts_nothing _

section
variable (running : s.closing = false)
include running

/-- A seed reaches the Session that it is for. -/
theorem seedSession_brings {before : SessionState V} (finds : s.sessions.get? id = some before)
    (is : (s.seedSession measure id before seed).sessions.get? sessionId = some next) :
    Brings measure s (s.seedSession measure id before seed) sessionId next
      (if id = sessionId then [.snapshot seed] else []) := by
  rcases seedSession_sessions running is with ⟨rfl, result, reconciled, rfl⟩ | ⟨is, other⟩
  · rw [if_pos rfl]
    exact ⟨before, result, true, .inl finds, @accepts_one _ _ _ _ _ _ (.snapshot seed) reconciled _, rfl⟩
  · refine brings_same is ?_
    rcases other with different | failed
    · exact .inr (if_neg different)
    · exact .inl failed

theorem seed_brings
    (is : (s.seed measure id seed).sessions.get? sessionId = some next) :
    Brings measure s (s.seed measure id seed) sessionId next
      (if id = sessionId then [.snapshot seed] else []) := by
  unfold ControlStore.seed at is ⊢
  rw [unusable_running running] at is ⊢
  by_cases failed : s.fault.isSome = true
  · rw [if_pos failed] at is ⊢
    exact brings_same is (.inl failed)
  · rw [if_neg failed] at is ⊢
    cases found : s.sessions.get? id with
    | none =>
      rw [found] at is
      have different : id ≠ sessionId := by
        rintro rfl
        rw [found] at is
        cases is
      exact brings_same is (.inr (if_neg different))
    | some before =>
      rw [found] at is
      exact seedSession_brings running found is

theorem attach_brings {seed : Option (ProjectionBaseline V)}
    (is : (s.attach measure id seed).sessions.get? sessionId = some next) :
    Brings measure s (s.attach measure id seed) sessionId next
      (if id = sessionId then seed.toList.map .snapshot else []) := by
  unfold ControlStore.attach at is ⊢
  rw [unusable_running running] at is ⊢
  by_cases failed : s.fault.isSome = true
  · rw [if_pos failed] at is ⊢
    exact brings_same is (.inl failed)
  rw [if_neg failed] at is ⊢
  cases found : s.sessions.get? id with
  | some before =>
    rw [found] at is
    cases seed with
    | none => exact brings_same is (.inr (by simp))
    | some seed => exact seedSession_brings running found is
  | none =>
    rw [found] at is
    by_cases full : s.sessions.entries.length ≥ s.maxSessions
    · rw [if_pos full] at is ⊢
      have different : id ≠ sessionId := by
        rintro rfl
        rw [found] at is
        cases is
      exact brings_same is (.inr (if_neg different))
    rw [if_neg full] at is ⊢
    -- the Session is attached empty, and then perhaps seeded
    have fresh : ∀ {session : SessionState V}, (s.sessions.set id .empty).get? sessionId = some session ∨
          (s.sessions.set id .empty).get? sessionId = none ∧ session = .empty →
        s.sessions.get? sessionId = some session ∨ s.sessions.get? sessionId = none ∧ session = .empty := by
      intro session finds
      rw [get?_set] at finds
      split at finds
      · next here =>
        subst here
        rcases finds with same | ⟨none, -⟩
        · exact .inr ⟨found, (some_inj.mp same).symm⟩
        · cases none
      · exact finds
    cases seed with
    | none =>
      rcases get?_set_cases is with ⟨rfl, rfl⟩ | ⟨different, is⟩
      · exact ⟨.empty, .empty, false, .inr ⟨found, rfl⟩, by simpa using accepts_nothing _, rfl⟩
      · exact brings_same is (.inr (if_neg different))
    | some seed =>
      obtain ⟨session, result, seeded, finds, accepts, rfl⟩ := seedSession_brings
        (s := { s with sessions := s.sessions.set id .empty }) running
        (get?_set_self _ _ _) is
      exact ⟨session, result, seeded, fresh finds, accepts, rfl⟩

end

theorem replace_brings {after : ControlStore V}
    (ok : s.replace measure projections requireComplete = .ok after)
    (sessions : s'.sessions = after.sessions) (is : s'.sessions.get? sessionId = some next) :
    Brings measure s s' sessionId next ((projections.get? sessionId).toList.map .snapshot) := by
  rw [sessions] at is
  obtain ⟨session, found, made⟩ := replace_sessions ok is
  refine ⟨session, next, next.seeded, .inl found, ?_, rfl⟩
  cases named : projections.get? sessionId with
  | none =>
    rw [named] at made
    cases made
    exact accepts_nothing _
  | some block =>
    rw [named] at made
    exact @accepts_one _ _ _ _ _ _ (.snapshot block) made _

theorem reconcile_definite {session : SessionState V} (failed : session.reconcile measure maxKeys baseline = .error error) :
    error.code ≠ .unavailable := by
  unfold reconcile at failed
  split at failed
  · next _ is =>
    cases failed
    obtain ⟨entry, -, is⟩ := pickAll_error is
    unfold pickValue at is
    repeat' split at is
    all_goals cases is
    rintro ⟨⟩
  · split at failed
    · next _ is =>
      cases failed
      obtain ⟨entry, -, is⟩ := pickAll_error is
      unfold pickRow at is
      repeat' split at is
      all_goals cases is
      rintro ⟨⟩
    · simp only at failed
      repeat' split at failed
      all_goals cases failed <;> rintro ⟨⟩

/-- A stream that sends a bad baseline is not opened again. -/
theorem replace_definite (failed : s.replace measure projections requireComplete = .error error) :
    error.code ≠ .unavailable := by
  unfold ControlStore.replace at failed
  cases picked : pickAll (s.replacement measure projections requireComplete) s.sessions.entries with
  | ok replacements =>
    rw [picked] at failed
    cases failed
  | error first =>
    rw [picked] at failed
    cases failed
    obtain ⟨entry, -, is⟩ := pickAll_error picked
    unfold ControlStore.replacement at is
    split at is
    · split at is <;> cases is
      exact nofun
    · next block _ =>
      split at is
      · cases is
        exact nofun
      · cases reconciled : entry.2.reconcile measure s.maxKeys block with
        | ok result =>
          rw [reconciled] at is
          cases is
        | error other =>
          rw [reconciled] at is
          cases is
          exact reconcile_definite reconciled

theorem receive_brings (running : s.closing = false) {frame : ControlFrame V}
    (is : (s.receive measure frame).sessions.get? sessionId = some next) :
    Brings measure s (s.receive measure frame) sessionId next (arrivalsOf sessionId (.frame frame)) := by
  have failing : ∀ error : StoreError, error.code ≠ .unavailable →
      (s.streamFailed error).sessions.get? sessionId = some next →
      Brings measure s (s.streamFailed error) sessionId next (arrivalsOf sessionId (.frame frame)) := by
    intro error definite is
    rw [streamFailed_sessions] at is
    exact brings_same is (.inl (streamFailed_fault running definite))
  unfold receive at is ⊢
  cases frame with
  | baseline projections =>
    simp only at is ⊢
    by_cases second : s.generationOpened = true
    · rw [if_pos second] at is ⊢
      exact failing _ (by decide) is
    · rw [if_neg second] at is ⊢
      cases replaced : s.replace measure projections s.opened with
      | error error =>
        rw [replaced] at is
        exact failing error (replace_definite replaced) is
      | ok after =>
        rw [replaced] at is
        exact replace_brings replaced rfl is
  | projection id seq changes =>
    simp only at is ⊢
    by_cases opened : s.generationOpened = true
    · rw [if_pos opened] at is ⊢
      obtain ⟨session, found, accepts⟩ := applyAll_accepts running is
      exact ⟨session, next, next.seeded, .inl found, accepts, rfl⟩
    · rw [if_neg opened] at is ⊢
      exact failing _ (by decide) is

/-- Every event brings its arrivals to a Session, unless the store fails. -/
theorem step_brings (running : s.closing = false) {event : Event V}
    (moved : step measure s event = some s') (is : s'.sessions.get? sessionId = some next) :
    Brings measure s s' sessionId next (arrivalsOf sessionId event) := by
  cases event with
  | start =>
    simp only [step, ite_none_left_eq_some, some.injEq] at moved
    obtain ⟨-, rfl⟩ := moved
    exact brings_same is (.inr rfl)
  | attach id seed =>
    cases moved
    exact attach_brings running is
  | seed id seed =>
    cases moved
    exact seed_brings running is
  | detach id =>
    cases moved
    unfold detach at is
    split at is
    · exact brings_same is (.inr rfl)
    · have deleted : (s.sessions.delete id).get? sessionId = some next := is
      exact brings_same (kept_of_delete deleted).2 (.inr rfl)
  | replaceBaseline projections =>
    cases moved
    unfold replaceBaseline at is ⊢
    rw [unusable_running running] at is ⊢
    by_cases failed : s.fault.isSome = true
    · rw [if_pos failed] at is ⊢
      exact brings_same is (.inl failed)
    · rw [if_neg failed] at is ⊢
      cases replaced : s.replace measure projections true with
      | error error =>
        rw [replaced] at is
        rw [(fail_sessions error).1] at is
        exact brings_same is (.inl (fail_fault error running))
      | ok after =>
        rw [replaced] at is
        exact replace_brings replaced rfl is
  | frame frame =>
    simp only [step, ite_none_right_eq_some, some.injEq] at moved
    obtain ⟨-, rfl⟩ := moved
    exact receive_brings running is
  | streamFailed error =>
    simp only [step, ite_none_right_eq_some, some.injEq] at moved
    obtain ⟨-, rfl⟩ := moved
    rw [streamFailed_sessions] at is
    exact brings_same is (.inr rfl)
  | seedFailed error =>
    cases moved
    rw [(fail_sessions error).1] at is
    exact brings_same is (.inr rfl)
  | waitFor id key afterSeq predicate aborted =>
    cases moved
    exact brings_same is (.inr rfl)
  | giveUp waiter error =>
    cases moved
    exact brings_same is (.inr rfl)
  | close =>
    cases moved
    cases is

end Stores

end CodexHost.Guarantees.ProjectionRows
