import CodexHost.Guarantees.RestartFaithfulness
import CodexHost.Source.HostRuntime.ExternalThreads

/-!
# The reconciliation of Turn mappings

A reconciliation is refused for a Thread that is not ready, for a mapping list that names a Host Turn
or a native Turn twice or pairs a stored one with another counterpart, and for a list that makes no
valid record. Otherwise the stored list becomes the given one, and the same list again changes nothing.
-/
namespace CodexHost.Guarantees
open Foundation Source Source.SharedContracts OrderedMap List Option
open Source.MappingStore

section Positions
variable {mappings : List StoredTurnMappingV1} {key : StoredTurnMappingV1 → String}

/-- The map from a key of the mappings to the position of the last one with it. -/
def positions (key : StoredTurnMappingV1 → String) (mappings : List StoredTurnMappingV1) :
    OrderedMap String Nat :=
  OrderedMap.empty.setAll (mappings.zipIdx.map fun e => (key e.1, e.2))

theorem start_positions : MergeState.start mappings =
    ⟨mappings, positions (·.hostTurnId) mappings, positions nativeTurnKey mappings⟩ := rfl

/-- Different keys all have their positions. -/
theorem position_iff (nodup : (mappings.map key).Nodup) (k : String) (i : Nat) :
    (positions key mappings).get? k = some i ↔ ∃ mapping, mappings[i]? = some mapping ∧ key mapping = k := by
  have keys : ((mappings.zipIdx.map fun e => (key e.1, e.2)).map Prod.fst) = mappings.map key := by
    rw [List.map_map]
    conv_rhs => rw [← List.zipIdx_map_fst 0 mappings, List.map_map]
    rfl
  rw [positions, OrderedMap.get?_setAll_of_nodup (keys ▸ nodup), OrderedMap.get?_empty, Option.or_none,
    OrderedMap.lookup_eq_some_iff_mem (keys ▸ nodup), List.mem_map]
  constructor
  · rintro ⟨⟨mapping, position⟩, member, same⟩
    cases same
    exact ⟨mapping, List.mk_mem_zipIdx_iff_getElem?.mp member, rfl⟩
  · rintro ⟨mapping, stored, rfl⟩
    exact ⟨(mapping, i), List.mk_mem_zipIdx_iff_getElem?.mpr stored, rfl⟩

/-- A test of the mapping with a key, if there is one. -/
theorem matched_any (nodup : (mappings.map key).Nodup) (k : String) (P : StoredTurnMappingV1 → Bool) :
    (((positions key mappings).get? k).bind (mappings[·]?)).any P = false ↔
      ∀ mapping ∈ mappings, key mapping = k → P mapping = false := by
  rw [Option.any_eq_false]
  constructor
  · intro passes mapping member keyed
    obtain ⟨i, stored⟩ := List.mem_iff_getElem?.mp member
    have found := (position_iff nodup k i).mpr ⟨mapping, stored, keyed⟩
    simpa using passes mapping (Option.bind_eq_some_iff.mpr ⟨i, found, stored⟩)
  · intro passes mapping found
    obtain ⟨i, isPosition, stored⟩ := Option.bind_eq_some_iff.mp found
    obtain ⟨same, stored', keyed⟩ := (position_iff nodup k i).mp isPosition
    cases stored'.symm.trans stored
    simpa using passes mapping (List.mem_of_getElem? stored) keyed

end Positions

/-- A stored Host Turn is given with its native Turn, and a stored native Turn with its Host Turn. -/
def Fits (stored : List StoredTurnMappingV1) (given : StoredTurnMappingV1) : Prop :=
  ∀ mapping ∈ stored, (mapping.hostTurnId = given.hostTurnId → mapping.nativeTurnRef = given.nativeTurnRef) ∧
    (nativeTurnKey mapping = nativeTurnKey given → mapping.hostTurnId = given.hostTurnId)

theorem nativeTurnKey_congr {mapping other : StoredTurnMappingV1}
    (same : mapping.nativeTurnRef = other.nativeTurnRef) :
    nativeTurnKey mapping = nativeTurnKey other := by
  unfold nativeTurnKey
  rw [same]

section Loop
variable {stored : List StoredTurnMappingV1}

theorem reconcileLoop_cons (unique : UniqueMappings stored) (seenHost seenNative : List String)
    (given : StoredTurnMappingV1) (rest : List StoredTurnMappingV1) :
    reconcileLoop (MergeState.start stored) seenHost seenNative (given :: rest) = .ok () ↔
      (Fits stored given ∧ given.hostTurnId ∉ seenHost ∧ nativeTurnKey given ∉ seenNative) ∧
      reconcileLoop (MergeState.start stored) (given.hostTurnId :: seenHost)
        (nativeTurnKey given :: seenNative) rest = .ok () := by
  have host := matched_any unique.hostTurns given.hostTurnId (·.nativeTurnRef ≠ given.nativeTurnRef)
  have native := matched_any unique.nativeTurns (nativeTurnKey given) (·.hostTurnId ≠ given.hostTurnId)
  have split : Fits stored given ↔ (∀ mapping ∈ stored, mapping.hostTurnId = given.hostTurnId →
        decide (mapping.nativeTurnRef ≠ given.nativeTurnRef) = false) ∧
      ∀ mapping ∈ stored, nativeTurnKey mapping = nativeTurnKey given →
        decide (mapping.hostTurnId ≠ given.hostTurnId) = false := by
    simp only [Fits, decide_eq_false_iff_not, ne_eq, not_not]
    exact ⟨fun fits => ⟨fun mapping member => (fits mapping member).1,
      fun mapping member => (fits mapping member).2⟩,
      fun both mapping member => ⟨both.1 mapping member, both.2 mapping member⟩⟩
  rw [← host, ← native] at split
  have atHost := position_iff unique.hostTurns given.hostTurnId
  have atNative := position_iff unique.nativeTurns (nativeTurnKey given)
  rw [reconcileLoop, start_positions]
  generalize (positions (·.hostTurnId) stored).get? given.hostTurnId = hostMatch at atHost split ⊢
  generalize (positions nativeTurnKey stored).get? (nativeTurnKey given) = nativeMatch at atNative split ⊢
  split
  · next conflict =>
    obtain ⟨isHost, -, apart⟩ := conflict
    simp only [reduceCtorEq, false_iff]
    rintro ⟨⟨fits, -⟩, -⟩
    -- The two matches are one mapping when the given one fits.
    obtain ⟨i, isPosition⟩ := isSome_iff_exists.mp isHost
    obtain ⟨mapping, here, sameHost⟩ := (atHost i).mp isPosition
    have same := nativeTurnKey_congr ((fits mapping (mem_of_getElem? here)).1 sameHost)
    exact apart (isPosition.trans ((atNative i).mpr ⟨mapping, here, same⟩).symm)
  · split
    · next conflict =>
      simp only [reduceCtorEq, false_iff]
      rintro ⟨⟨fits, -⟩, -⟩
      exact absurd conflict (Bool.eq_false_iff.mp (split.mp fits).1)
    · next hostFits =>
      split
      · next conflict =>
        simp only [reduceCtorEq, false_iff]
        rintro ⟨⟨fits, -⟩, -⟩
        exact absurd conflict (Bool.eq_false_iff.mp (split.mp fits).2)
      · next nativeFits =>
        have fits := split.mpr ⟨Bool.eq_false_iff.mpr hostFits, Bool.eq_false_iff.mpr nativeFits⟩
        split
        · next seen =>
          simp only [reduceCtorEq, false_iff]
          rintro ⟨⟨-, host, native⟩, -⟩
          exact seen.elim host native
        · next fresh =>
          rw [not_or] at fresh
          exact ⟨fun rest => ⟨⟨fits, fresh⟩, rest⟩, And.right⟩

/-- The loop accepts the lists that fit and have no identity twice. -/
theorem reconcileLoop_ok_iff (unique : UniqueMappings stored) (mappings : List StoredTurnMappingV1) :
    ∀ seenHost seenNative, reconcileLoop (MergeState.start stored) seenHost seenNative mappings = .ok () ↔
        (∀ given ∈ mappings, Fits stored given ∧ given.hostTurnId ∉ seenHost ∧
          nativeTurnKey given ∉ seenNative) ∧ UniqueMappings mappings := by
  induction mappings with
  | nil => exact fun _ _ => ⟨fun _ => ⟨by simp, nodup_nil, nodup_nil⟩, fun _ => rfl⟩
  | cons given rest ih =>
    intro seenHost seenNative
    rw [reconcileLoop_cons unique, ih]
    constructor
    · rintro ⟨first, later, nodup⟩
      refine ⟨fun other member => ?_, ⟨?_, ?_⟩⟩
      · rcases mem_cons.mp member with rfl | member
        · exact first
        · obtain ⟨fits, host, native⟩ := later other member
          exact ⟨fits, fun seen => host (mem_cons_of_mem _ seen),
            fun seen => native (mem_cons_of_mem _ seen)⟩
      · rw [map_cons, nodup_cons]
        refine ⟨fun twice => ?_, nodup.hostTurns⟩
        obtain ⟨other, member, same⟩ := mem_map.mp twice
        exact (later other member).2.1 (same ▸ mem_cons_self)
      · rw [map_cons, nodup_cons]
        refine ⟨fun twice => ?_, nodup.nativeTurns⟩
        obtain ⟨other, member, same⟩ := mem_map.mp twice
        exact (later other member).2.2 (same ▸ mem_cons_self)
    · rintro ⟨all, host, native⟩
      rw [map_cons, nodup_cons] at host native
      refine ⟨all given mem_cons_self, fun other member => ?_, host.2, native.2⟩
      obtain ⟨fits, freshHost, freshNative⟩ := all other (mem_cons_of_mem _ member)
      refine ⟨fits, fun seen => ?_, fun seen => ?_⟩
      · rcases mem_cons.mp seen with same | seen
        · exact host.1 (same ▸ mem_map_of_mem member)
        · exact freshHost seen
      · rcases mem_cons.mp seen with same | seen
        · exact native.1 (same ▸ mem_map_of_mem member)
        · exact freshNative seen

end Loop

/-- The Turn Refs of a valid record belong to its Harness and its native Session. -/
theorem refineTurnMappings_owned {record : StoredThreadCoreV1} {ref : NativeSessionRef}
    (session : record.nativeSessionRef = some ref) (mappings : List StoredTurnMappingV1) :
    ∀ index hostTurnIds nativeTurnKeys,
      refineTurnMappings record index hostTurnIds nativeTurnKeys mappings = [] →
      ∀ mapping ∈ mappings, mapping.nativeTurnRef.harnessId = record.harnessId ∧
        mapping.nativeTurnRef.nativeSessionId = ref.nativeSessionId := by
  induction mappings with
  | nil => simp
  | cons first rest ih =>
    intro index hostTurnIds nativeTurnKeys clean mapping member
    simp only [refineTurnMappings, append_eq_nil_iff] at clean
    obtain ⟨⟨⟨-, own⟩, -⟩, later⟩ := clean
    rcases mem_cons.mp member with rfl | member
    · simp only [refineTurnRef, session, any_some, append_eq_nil_iff] at own
      grind
    · exact ih _ _ _ later mapping member

theorem accepted_owned {record : StoredThreadRecordV1} (accepted : record.accepted)
    {ref : NativeSessionRef} (session : record.nativeSessionRef = some ref) :
    ∀ mapping ∈ record.turnMappings, mapping.nativeTurnRef.harnessId = record.harnessId ∧
      mapping.nativeTurnRef.nativeSessionId = ref.nativeSessionId := by
  simp only [StoredThreadRecordV1.accepted, Bool.and_eq_true, List.isEmpty_iff] at accepted
  have clean := accepted.2
  simp only [refineThreadRecord, List.append_eq_nil_iff] at clean
  exact refineTurnMappings_owned session _ _ _ _ clean.2

/-- In one Session a native Turn key is one Turn Ref. -/
theorem nativeTurnRef_of_key {mapping other : StoredTurnMappingV1}
    (harness : mapping.nativeTurnRef.harnessId = other.nativeTurnRef.harnessId)
    (session : mapping.nativeTurnRef.nativeSessionId = other.nativeTurnRef.nativeSessionId)
    (same : nativeTurnKey mapping = nativeTurnKey other) :
    mapping.nativeTurnRef = other.nativeTurnRef := by
  unfold nativeTurnKey at same
  cases isRef : mapping.nativeTurnRef
  cases isOther : other.nativeTurnRef
  simp_all

/-- Another Thread has one of the Host Turns or native Turns. -/
def Taken (store : StoreState) (id : HostThreadId) (mappings : List StoredTurnMappingV1) : Prop :=
  ∃ other record, other ≠ id ∧ store.records.get? other = some record ∧
    ∃ mapping ∈ record.turnMappings, ∃ given ∈ mappings,
      mapping.hostTurnId = given.hostTurnId ∨ nativeTurnKey mapping = nativeTurnKey given

/-- The mappings agree on which Host Turn a native Turn has. -/
def SamePairs (stored mappings : List StoredTurnMappingV1) : Prop :=
  ∀ mapping ∈ stored, ∀ given ∈ mappings,
    mapping.hostTurnId = given.hostTurnId ↔ mapping.nativeTurnRef = given.nativeTurnRef

/-- The record with other Turn mappings, as a reconciliation would save it. -/
def reconciled (now : Timestamp) (current : StoredThreadRecordV1)
    (mappings : List StoredTurnMappingV1) : StoredThreadRecordV1 :=
  revised now false current { current with turnMappings := mappings }

/-- Why the mappings of a stored Thread are not reconciled. -/
inductive Refuses (now : Timestamp) (store : StoreState) (id : HostThreadId)
    (current : StoredThreadRecordV1) (mappings : List StoredTurnMappingV1) : Prop where
  | unready (unready : current.state ≠ .ready ∨ current.nativeSessionRef = none)
  | hostTwice (twice : ¬ (mappings.map (·.hostTurnId)).Nodup)
  | nativeTwice (twice : ¬ (mappings.map (·.nativeTurnRef)).Nodup)
  | repaired (apart : ¬ SamePairs current.turnMappings mappings)
  | invalid (differs : current.turnMappings ≠ mappings)
      (invalid : (reconciled now current mappings).accepted = false)
  | taken (taken : Taken store id mappings)

section Verdict
variable {now : Timestamp} {store : StoreState} {id : HostThreadId} {current : StoredThreadRecordV1}
  {mappings : List StoredTurnMappingV1}

theorem catchUsage_valid {fields : StoredThreadMetadataFields}
    (measured : fields.usageMeasurements.all storedUsageMeasurementsSchema) :
    fields.catchUsage = fields := by
  obtain ⟨usage, preview, projectId, workspace, daybreak, git⟩ := fields
  cases usage with
  | none => rfl
  | some values =>
    have valid : storedUsageMeasurementsSchema values = true := measured
    simp [StoredThreadMetadataFields.catchUsage, valid]

/-- A record with valid measurements is parsed as it is. -/
theorem schema_ok_iff {record next : StoredThreadRecordV1}
    (measured : record.usageMeasurements.all storedUsageMeasurementsSchema) :
    storedThreadRecordV1Schema record = .ok next ↔ record.accepted = true ∧ next = record := by
  have same := @catchUsage_valid record.toStoredThreadMetadataFields measured
  unfold storedThreadRecordV1Schema
  rw [same]
  split
  · next accepted =>
    rw [Except.ok.injEq]
    exact ⟨fun is => ⟨accepted, is.symm⟩, fun is => is.2.symm⟩
  · next fails => simp [fails]

/-- The validation over the whole store finds the identities that another Thread has. -/
theorem validateGlobal_reconciled (consistent : StoreConsistent store)
    (stored : store.records.get? id = some current)
    (fits : ∀ given ∈ mappings, Fits current.turnMappings given) :
    validateGlobal store.indexes (reconciled now current mappings) (some id) = .ok () ↔
      ¬ Taken store id mappings := by
  have thread : ∀ record ∈ store.records.values, ∃ other, store.records.get? other = some record ∧
      record.hostThreadId = other ∧ (other ≠ id → SeparateIdentities record current) ∧
      (other = id → record = current) := by
    intro record member
    obtain ⟨other, there⟩ := (store.records.mem_values_iff record).mp member
    refine ⟨other, there, (consistent.records.parsed other record there).keyed, fun apart =>
      consistent.records.separate other id record current there stored apart, ?_⟩
    rintro rfl
    exact Option.some.inj (there.symm.trans stored)
  rw [validateGlobal_ok_iff consistent.projects.threads]
  constructor
  · rintro ⟨-, -, free⟩ ⟨other, record, apart, there, mapping, member, given, isGiven, shares⟩
    have isOther := (consistent.records.parsed other record there).keyed
    obtain ⟨host, native⟩ := free given isGiven record
      ((store.records.mem_values_iff record).mpr ⟨other, there⟩) mapping member
    have same := host (shares.elim (fun same => same) native)
    rw [isOther, some.injEq] at same
    exact apart same
  · intro free
    refine ⟨fun record member same => ?_, fun record member ref ref' isRef isRef' same => ?_,
      fun given isGiven record member mapping isMapping => ?_⟩
    · obtain ⟨other, -, isOther, separate, -⟩ := thread record member
      by_cases here : other = id
      · rw [isOther, here]
      · exact absurd same (separate here).createRequest
    · obtain ⟨other, -, isOther, separate, -⟩ := thread record member
      by_cases here : other = id
      · rw [isOther, here]
      · exact absurd same ((separate here).session ref ref' isRef isRef')
    · obtain ⟨other, there, isOther, -, isCurrent⟩ := thread record member
      by_cases here : other = id
      · rw [isOther, here]
        refine ⟨fun _ => rfl, fun same => (fits given isGiven mapping ?_).2 same⟩
        exact isCurrent here ▸ isMapping
      · have apart := fun shares => free ⟨other, record, here, there, mapping, isMapping, given,
          isGiven, shares⟩
        exact ⟨fun same => absurd (.inl same) apart, fun same => absurd (.inr same) apart⟩

/-- The change is refused only for a reason. -/
theorem reconcile_refuses (parsed : Parsed id current) {error : StoreError}
    (refused : reconcileTurnMappings mappings store current = .error error) :
    Refuses now store id current mappings := by
  unfold reconcileTurnMappings at refused
  split at refused
  · next unready => exact .unready unready
  · next ready =>
    by_contra none
    have unique := accepted_unique_mappings parsed.accepted
    have pairs : SamePairs current.turnMappings mappings := by_contra fun apart => none (.repaired apart)
    have isOk : reconcileLoop (MergeState.start current.turnMappings) [] [] mappings = .ok () := by
      by_cases same : current.turnMappings = mappings
      · refine (reconcileLoop_ok_iff unique mappings [] []).mpr
          ⟨fun given member => ⟨?_, by simp, by simp⟩, same ▸ unique⟩
        intro mapping isMapping
        refine ⟨(pairs mapping isMapping given member).mp, fun key => ?_⟩
        rw [unique.native_eq_of_host isMapping (same ▸ member) key]
      · -- The saved record would be valid, so that a native Turn key names one Turn Ref.
        have accepted : (reconciled now current mappings).accepted = true :=
          by_contra fun invalid => none (.invalid same (Bool.eq_false_iff.mpr invalid))
        obtain ⟨ref, session⟩ := ne_none_iff_exists'.mp (not_or.mp ready).2
        have owns := @accepted_owned (reconciled now current mappings) accepted ref session
        have owned := accepted_owned parsed.accepted session
        refine (reconcileLoop_ok_iff unique mappings [] []).mpr
          ⟨fun given member => ⟨fun mapping isMapping => ?_, by simp, by simp⟩,
            accepted_unique_mappings accepted⟩
        have isGiven := owns given member
        have isStored := owned mapping isMapping
        refine ⟨(pairs mapping isMapping given member).mp, fun key => ?_⟩
        exact (pairs mapping isMapping given member).mpr (nativeTurnRef_of_key
          (isStored.1.trans isGiven.1.symm) (isStored.2.trans isGiven.2.symm) key)
    simp [isOk, Except.map] at refused

/-- A list that the change accepts fits and names every identity once. -/
theorem reconcile_accepts (parsed : Parsed id current) {proposed : Option StoredThreadRecordV1}
    (is : reconcileTurnMappings mappings store current = .ok proposed) :
    (current.state = .ready ∧ current.nativeSessionRef ≠ none) ∧
      (∀ given ∈ mappings, Fits current.turnMappings given) ∧ UniqueMappings mappings ∧
      proposed = if current.turnMappings = mappings then none
        else some { current with turnMappings := mappings } := by
  unfold reconcileTurnMappings at is
  split at is
  · cases is
  · next ready =>
    rw [not_or, not_not] at ready
    cases loop : reconcileLoop (MergeState.start current.turnMappings) [] [] mappings with
    | error error => simp [loop, Except.map] at is
    | ok done =>
      obtain ⟨fits, unique⟩ := (reconcileLoop_ok_iff (accepted_unique_mappings parsed.accepted)
        mappings [] []).mp loop
      simp only [loop, Except.map, Except.ok.injEq] at is
      exact ⟨ready, fun given member => (fits given member).1, unique, is.symm⟩

/-- What it proposes for the record, if it proposes something. -/
theorem reconcile_proposes (parsed : Parsed id current) {changed : StoredThreadRecordV1}
    (is : reconcileTurnMappings mappings store current = .ok (some changed)) :
    current.turnMappings ≠ mappings ∧ revised now false current changed = reconciled now current mappings := by
  have proposed := (reconcile_accepts parsed is).2.2.2
  split at proposed
  · cases proposed
  · next differs =>
    cases proposed
    exact ⟨differs, rfl⟩

/-- Fitting lists agree on the pairs. -/
theorem samePairs_of_fits (fits : ∀ given ∈ mappings, Fits current.turnMappings given) :
    SamePairs current.turnMappings mappings := by
  intro mapping isMapping given member
  obtain ⟨host, native⟩ := fits given member mapping isMapping
  exact ⟨host, fun same => native (nativeTurnKey_congr same)⟩

theorem not_taken_own (consistent : StoreConsistent store)
    (stored : store.records.get? id = some current) : ¬ Taken store id current.turnMappings := by
  rintro ⟨other, record, apart, there, mapping, isMapping, given, member, shares⟩
  have separate := consistent.records.separate other id record current there stored apart
  exact shares.elim (separate.hostTurn mapping isMapping given member)
    (separate.nativeTurn mapping isMapping given member)

theorem nativeTurnRefs_nodup (nodup : (mappings.map nativeTurnKey).Nodup) :
    (mappings.map (·.nativeTurnRef)).Nodup := by
  refine List.Nodup.of_map (fun ref => nativeTurnKey ⟨"", ref, none⟩) ?_
  rw [List.map_map]
  exact nodup

/-- An accepted list whose record can be saved is not refused. -/
theorem not_refuses (consistent : StoreConsistent store)
    (stored : store.records.get? id = some current) {proposed : Option StoredThreadRecordV1}
    (accepts : reconcileTurnMappings mappings store current = .ok proposed)
    (saves : current.turnMappings ≠ mappings →
      (reconciled now current mappings).accepted = true ∧ ¬ Taken store id mappings) :
    ¬ Refuses now store id current mappings := by
  obtain ⟨ready, fits, unique, -⟩ :=
    reconcile_accepts (consistent.records.parsed id current stored) accepts
  intro refuses
  cases refuses with
  | unready unready => exact unready.elim (· ready.1) ready.2
  | hostTwice twice => exact twice unique.hostTurns
  | nativeTwice twice => exact twice (nativeTurnRefs_nodup unique.nativeTurns)
  | repaired apart => exact apart (samePairs_of_fits fits)
  | invalid differs invalid => exact Bool.eq_false_iff.mp invalid (saves differs).1
  | taken taken =>
    by_cases same : current.turnMappings = mappings
    · exact not_taken_own consistent stored (same ▸ taken)
    · exact (saves same).2 taken

theorem reconcile_saves (consistent : StoreConsistent store)
    (stored : store.records.get? id = some current) {changed next : StoredThreadRecordV1}
    (is : reconcileTurnMappings mappings store current = .ok (some changed))
    (valid : storedThreadRecordV1Schema (revised now false current changed) = .ok next) :
    (reconciled now current mappings).accepted = true ∧ next = reconciled now current mappings := by
  have parsed := consistent.records.parsed id current stored
  rw [(reconcile_proposes parsed is).2] at valid
  exact (@schema_ok_iff (reconciled now current mappings) next parsed.measurements).mp valid

end Verdict

/-- A turn of an operation that goes through `#update` ends as the update does. -/
theorem take_update {parseUrl : UrlParser} {turn : Turn} {w : StoreWorld} {id : HostThreadId}
    {change : Change} {preserve : Bool} {current : StoredThreadRecordV1}
    (is : turn.operation.asUpdate parseUrl = some (id, change, preserve))
    (consistent : StoreConsistent w.store) (stored : w.store.records.get? id = some current) :
    ∃ result w', UpdateOutcome turn.now id change preserve current ⟨turn.fault, w⟩ result w' ∧
      turn.take parseUrl w = (result.map fun _ => (), w'.state) := by
  have spec : (update turn.now id change preserve).wp
      (fun next => UpdateOutcome turn.now id change preserve current ⟨turn.fault, w⟩ (.ok next))
      (fun error => UpdateOutcome turn.now id change preserve current ⟨turn.fault, w⟩ (.error error))
      ⟨turn.fault, w⟩ := wp_update (asUpdate_keepsThread is) consistent stored
  have body : turn.operation.body parseUrl turn.now =
      (update turn.now id change preserve >>= fun _ => pure ()) := by
    unfold QueuedOperation.body
    rw [is]
  unfold Turn.take
  rw [body, Command.exec_bind]
  rw [Command.wp_iff] at spec
  rcases outcome : (update turn.now id change preserve).exec ⟨turn.fault, w⟩ with ⟨error | next, w'⟩
  · exact ⟨.error error, w', spec.2 error w' outcome, rfl⟩
  · exact ⟨.ok next, w', spec.1 next w' outcome, rfl⟩

section Outcome
variable {parseUrl : UrlParser} {w : StoreWorld} {turn : Turn} {id : HostThreadId}
  {mappings : List StoredTurnMappingV1} {current : StoredThreadRecordV1}

/-- What a reconciliation that returns leaves. -/
structure Reconciles (parseUrl : UrlParser) (turn : Turn) (w : StoreWorld) (id : HostThreadId)
    (current : StoredThreadRecordV1) (mappings : List StoredTurnMappingV1) : Prop where
  pairs : SamePairs current.turnMappings mappings
  stored : (turn.take parseUrl w).2.store.records.get? id =
    some (if current.turnMappings = mappings then current else reconciled turn.now current mappings)
  others : ∀ other, other ≠ id →
    (turn.take parseUrl w).2.store.records.get? other = w.store.records.get? other
  again : ∀ again : Turn, again.operation = turn.operation →
    again.take parseUrl (turn.take parseUrl w).2 = (.ok (), (turn.take parseUrl w).2)

section
variable (consistent : StoreConsistent w.store)
include consistent

variable (stored : w.store.records.get? id = some current)
include stored

/-- A Thread that has the mappings already is left as it is. -/
theorem take_same
    (is : turn.operation = .reconcileTurnMappings id current.turnMappings)
    (ready : current.state = .ready ∧ current.nativeSessionRef ≠ none) :
    turn.take parseUrl w = (.ok (), w) := by
  have parsed := consistent.records.parsed id current stored
  have isUpdate : turn.operation.asUpdate parseUrl =
      some (id, reconcileTurnMappings current.turnMappings, false) := by rw [is]; rfl
  have noReason : ∀ error, reconcileTurnMappings current.turnMappings w.store current ≠ .error error := by
    intro error refused
    have unique := accepted_unique_mappings parsed.accepted
    cases @reconcile_refuses 0 _ _ _ _ parsed error refused with
    | unready unready => exact unready.elim (· ready.1) ready.2
    | hostTwice twice => exact twice unique.hostTurns
    | nativeTwice twice => exact twice (nativeTurnRefs_nodup unique.nativeTurns)
    | repaired apart =>
      refine apart fun mapping isMapping given member => ⟨fun same => ?_, fun same => ?_⟩
      · rw [inj_on_of_nodup_map unique.hostTurns isMapping member same]
      · rw [unique.native_eq_of_host isMapping member (nativeTurnKey_congr same)]
    | invalid differs => exact differs rfl
    | taken taken => exact not_taken_own consistent stored taken
  obtain ⟨result, w', outcome, took⟩ := take_update isUpdate consistent stored
  have unchanged : ∀ proposed, reconcileTurnMappings current.turnMappings w.store current =
      .ok proposed → proposed = none := by
    intro proposed accepted
    rw [(reconcile_accepts parsed accepted).2.2.2, if_pos rfl]
  cases outcome with
  | refused error refused => exact absurd refused (noReason error)
  | kept => exact took
  | invalid changed _ accepted => cases unchanged _ accepted
  | clashes changed _ _ accepted | saved changed _ _ accepted => cases unchanged _ accepted
  | unsaved changed _ _ _ accepted => cases unchanged _ accepted

variable (is : turn.operation = .reconcileTurnMappings id mappings)
include is

theorem take_refused
    (refuses : Refuses turn.now w.store id current mappings) :
    ∃ error, turn.take parseUrl w = (.error error, w) := by
  have isUpdate : turn.operation.asUpdate parseUrl =
      some (id, reconcileTurnMappings mappings, false) := by rw [is]; rfl
  obtain ⟨result, w', outcome, took⟩ := take_update isUpdate consistent stored
  have parsed := consistent.records.parsed id current stored
  have saves : ∀ {changed next : StoredThreadRecordV1},
      reconcileTurnMappings mappings w.store current = .ok (some changed) →
      storedThreadRecordV1Schema (revised turn.now false current changed) = .ok next →
      validateGlobal w.store.indexes next (some id) = .ok () → False := by
    intro changed next accepted valid passed
    obtain ⟨fine, rfl⟩ := reconcile_saves consistent stored accepted valid
    have free := (validateGlobal_reconciled consistent stored (reconcile_accepts parsed accepted).2.1).mp
      passed
    exact not_refuses consistent stored accepted (fun _ => ⟨fine, free⟩) refuses
  cases outcome with
  | refused error => exact ⟨error, took⟩
  | kept accepted =>
    refine absurd refuses (not_refuses consistent stored accepted fun differs => ?_)
    have nothing := (reconcile_accepts parsed accepted).2.2.2
    rw [if_neg differs] at nothing
    cases nothing
  | invalid changed issues => exact ⟨.zod issues, took⟩
  | clashes changed next error => exact ⟨error, took⟩
  | saved changed next _ accepted valid passed => exact (saves accepted valid passed).elim
  | unsaved changed next _ _ accepted valid passed => exact (saves accepted valid passed).elim

/-- A reconciliation that fails was refused, unless a file step failed. -/
theorem take_failed {error : StoreError}
    (fails : (turn.take parseUrl w).1 = .error error) :
    (Refuses turn.now w.store id current mappings ∨ turn.fault ≠ none) ∧
      (turn.take parseUrl w).2.store = w.store := by
  have isUpdate : turn.operation.asUpdate parseUrl =
      some (id, reconcileTurnMappings mappings, false) := by rw [is]; rfl
  obtain ⟨result, w', outcome, took⟩ := take_update isUpdate consistent stored
  have parsed := consistent.records.parsed id current stored
  rw [took] at fails ⊢
  cases outcome with
  | refused _ refused => exact ⟨.inl (reconcile_refuses parsed refused), rfl⟩
  | kept | saved => cases fails
  | invalid changed issues accepted invalid =>
    obtain ⟨differs, same⟩ := @reconcile_proposes turn.now _ _ _ _ parsed _ accepted
    refine ⟨.inl (.invalid differs (Bool.eq_false_iff.mpr fun fine => ?_)), rfl⟩
    have valid := (@schema_ok_iff (reconciled turn.now current mappings) _ parsed.measurements).mpr
      ⟨fine, rfl⟩
    rw [same, valid] at invalid
    cases invalid
  | clashes changed next _ accepted valid clash =>
    refine ⟨.inl (.taken (by_contra fun free => ?_)), rfl⟩
    obtain ⟨-, rfl⟩ := reconcile_saves consistent stored accepted valid
    rw [(validateGlobal_reconciled consistent stored (reconcile_accepts parsed accepted).2.1).mpr
      free] at clash
    cases clash
  | unsaved changed next _ _ accepted valid passed armed rollback =>
    exact ⟨.inr armed, rollback.store⟩

/-- A reconciliation that returns has stored the given list. -/
theorem take_reconciles
    (returns : (turn.take parseUrl w).1 = .ok ()) :
    Reconciles parseUrl turn w id current mappings := by
  have isUpdate : turn.operation.asUpdate parseUrl =
      some (id, reconcileTurnMappings mappings, false) := by rw [is]; rfl
  have later := @take_consistent parseUrl turn w consistent
  obtain ⟨result, w', outcome, took⟩ := take_update isUpdate consistent stored
  have parsed := consistent.records.parsed id current stored
  rw [took] at returns later
  cases outcome with
  | refused | invalid | clashes | unsaved => cases returns
  | kept accepted =>
    obtain ⟨ready, fits, -, proposed⟩ := reconcile_accepts parsed accepted
    have same : current.turnMappings = mappings := by
      by_contra differs
      rw [if_neg differs] at proposed
      cases proposed
    refine ⟨samePairs_of_fits fits, ?_, fun other _ => by rw [took], fun again isSame => ?_⟩
    · rw [took, if_pos same]
      exact stored
    · rw [took]
      exact take_same consistent stored (by rw [isSame, is, same]) ready
  | saved changed next _ accepted valid passed store =>
    obtain ⟨ready, fits, -, -⟩ := reconcile_accepts parsed accepted
    obtain ⟨differs, -⟩ := @reconcile_proposes turn.now _ _ _ _ parsed _ accepted
    obtain ⟨-, rfl⟩ := reconcile_saves consistent stored accepted valid
    have now : w'.state.store.records.get? id = some (reconciled turn.now current mappings) := by
      rw [store]
      exact get?_set_self _ _ _
    refine ⟨samePairs_of_fits fits, ?_, fun other apart => ?_, fun again isSame => ?_⟩
    · rw [took, if_neg differs]
      exact now
    · rw [took, store]
      exact get?_set_of_ne _ _ apart
    · rw [took]
      exact take_same later now (by rw [isSame, is]; rfl) ready

end

end Outcome

/-- Over every run of a store: a reconciliation is refused exactly for one of the reasons, and then
changes nothing; one that fails otherwise met a failing file step and leaves the records; one that
returns has stored the given list in place of the old one. -/
theorem reconciliation_outcome (parseUrl : UrlParser) (order : DirectoryOrder) (now : Timestamp)
    (events : List StoreEvent) (w : StoreWorld)
    (run : Run (LifeStep parseUrl) (newStore order now) events w) (turn : Turn) (id : HostThreadId)
    (mappings : List StoredTurnMappingV1) (current : StoredThreadRecordV1)
    (is : turn.operation = .reconcileTurnMappings id mappings)
    (stored : w.store.records.get? id = some current) :
    (Refuses turn.now w.store id current mappings → ∃ error, turn.take parseUrl w = (.error error, w)) ∧
    (∀ error, (turn.take parseUrl w).1 = .error error →
      (Refuses turn.now w.store id current mappings ∨ turn.fault ≠ none) ∧
        (turn.take parseUrl w).2.store = w.store) ∧
    ((turn.take parseUrl w).1 = .ok () → Reconciles parseUrl turn w id current mappings) := by
  have consistent := (life_sound run).consistent
  exact ⟨take_refused consistent stored is, fun error => take_failed consistent stored is,
    take_reconciles consistent stored is⟩

/-- A ready Thread with one Turn. -/
def readyEvents : List StoreEvent :=
  [.queued firstTurn, calmTurn (.commitReady ⟨"a", sessionOne, some [turnOne]⟩)]

def readyWorld : StoreWorld :=
  readyEvents.foldl (fun w event => event.happen (fun _ => none) w) (newStore creationOrder 0)

/-- A second native Turn comes before the stored one. -/
def reorderTurn : Turn :=
  ⟨0, none, .reconcileTurnMappings "a" [⟨"t2", ⟨"codex", "s1", "n2"⟩, none⟩, turnOne]⟩

def readyRecord : StoredThreadRecordV1 :=
  (readyWorld.store.records.get? "a").getD (provisionalRecord 0
    { hostThreadId := "a", createRequestId := "request-a", harnessId := "codex"
      importSourceRef := none, cwd := "/work", title := none, transportModelId := "model"
      ephemeral := false, historyMode := .paginated, projectlessWorkspace := none
      forkSource := none, subagent := none })

theorem reconciliation_outcome_reorder : Reconciles (fun _ => none) reorderTurn readyWorld "a" readyRecord
      [⟨"t2", ⟨"codex", "s1", "n2"⟩, none⟩, turnOne] :=
  (reconciliation_outcome (fun _ => none) creationOrder 0 readyEvents readyWorld
    (Run.of_fold _ _ _) reorderTurn "a" _ readyRecord rfl (by decide +kernel)).2.2 (by decide +kernel)

/-- The stored native Turn with another Host Turn. -/
def repairTurn : Turn :=
  ⟨0, none, .reconcileTurnMappings "a" [⟨"t2", turnOne.nativeTurnRef, none⟩]⟩

/-- A repeated native Turn and a stored Host Turn with another native Turn are not the only reasons. -/
theorem reconciliation_refused_otherwise :
    ¬ ∀ (parseUrl : UrlParser) (order : DirectoryOrder) (now : Timestamp)
      (events : List StoreEvent) (w : StoreWorld),
      Run (LifeStep parseUrl) (newStore order now) events w → ∀ (turn : Turn) (id : HostThreadId)
      (mappings : List StoredTurnMappingV1) (current : StoredThreadRecordV1),
      turn.operation = .reconcileTurnMappings id mappings → turn.fault = none →
      w.store.records.get? id = some current → ((∃ error, (turn.take parseUrl w).1 = .error error) ↔
        ¬ (mappings.map (·.nativeTurnRef)).Nodup ∨ ∃ mapping ∈ current.turnMappings,
          ∃ given ∈ mappings, mapping.hostTurnId = given.hostTurnId ∧
            mapping.nativeTurnRef ≠ given.nativeTurnRef) := by
  intro claimed
  have rejected := claimed (fun _ => none) creationOrder 0 readyEvents readyWorld (Run.of_fold _ _ _)
    repairTurn "a" [⟨"t2", turnOne.nativeTurnRef, none⟩] readyRecord rfl rfl (by decide +kernel)
  have fails : ((repairTurn.take (fun _ => none) readyWorld).1.isOk) = false := by decide +kernel
  have reason := rejected.mp (by
    cases outcome : (repairTurn.take (fun _ => none) readyWorld).1 with
    | ok _ =>
      rw [outcome] at fails
      cases fails
    | error error => exact ⟨error, rfl⟩)
  revert reason
  decide

end CodexHost.Guarantees
