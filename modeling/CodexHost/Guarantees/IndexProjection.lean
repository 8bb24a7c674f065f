import CodexHost.Source.MappingStore.Indexes

/-!
# The indexes are the projection of the records

What `#validateGlobal` and `#rebuildIndexes` decide, in terms of the records alone.
`ProjectionOf` says that the six indexes hold exactly the pairs the stored records
give them; `SeparateIdentities` that two records share no identity. Over indexes that
project a list of records, validation accepts exactly the records separate from every
other one (`validateGlobal_ok_iff`), and a rebuild succeeds exactly on separate records
and then projects them (`indexRecords_ok_iff`, `indexRecords_projects`).
-/
namespace CodexHost.Guarantees
open Foundation Source.SharedContracts Source.MappingStore OrderedMap List Option Indexes

/-- The Thread indexes hold exactly what the records give them: no missing entry and
no stale one. -/
structure ThreadProjection (indexes : Indexes) (records : List StoredThreadRecordV1) : Prop where
  createRequests : ∀ key id, indexes.createRequests.get? key = some id ↔
    ∃ r ∈ records, r.createRequestId = key ∧ r.hostThreadId = id
  nativeSessions : ∀ key id, indexes.nativeSessions.get? key = some id ↔
    ∃ r ∈ records, ∃ ref, indexedSession r = some ref ∧ nativeSessionKey ref = key ∧ r.hostThreadId = id
  hostTurns : ∀ key id, indexes.hostTurns.get? key = some id ↔
    ∃ r ∈ records, ∃ m ∈ r.turnMappings, m.hostTurnId = key ∧ r.hostThreadId = id
  nativeTurns : ∀ key turn, indexes.nativeTurns.get? key = some turn ↔
    ∃ r ∈ records, ∃ m ∈ r.turnMappings, nativeTurnKey m = key ∧ m.hostTurnId = turn

structure DelegationProjection (indexes : Indexes) (delegations : List StoredDelegationRecordV1) : Prop where
  delegationChildren : ∀ key id, indexes.delegationChildren.get? key = some id ↔
    ∃ d ∈ delegations, d.childHostThreadId = key ∧ d.delegationId = id
  delegationRequests : ∀ key id, indexes.delegationRequests.get? key = some id ↔
    ∃ d ∈ delegations, d.requestId = some key ∧ d.delegationId = id

structure ProjectionOf (indexes : Indexes) (records : List StoredThreadRecordV1)
    (delegations : List StoredDelegationRecordV1) : Prop where
  threads : ThreadProjection indexes records
  delegations : DelegationProjection indexes delegations

/-- Two records that share no create request, indexed session, Host Turn or native Turn. -/
structure SeparateIdentities (r r' : StoredThreadRecordV1) : Prop where
  createRequest : r.createRequestId ≠ r'.createRequestId
  session : ∀ ref ref', indexedSession r = some ref → indexedSession r' = some ref' →
    nativeSessionKey ref ≠ nativeSessionKey ref'
  hostTurn : ∀ m ∈ r.turnMappings, ∀ m' ∈ r'.turnMappings, m.hostTurnId ≠ m'.hostTurnId
  nativeTurn : ∀ m ∈ r.turnMappings, ∀ m' ∈ r'.turnMappings, nativeTurnKey m ≠ nativeTurnKey m'

theorem SeparateIdentities.symm {r r' : StoredThreadRecordV1} (h : SeparateIdentities r r') :
    SeparateIdentities r' r where
  createRequest := h.createRequest.symm
  session ref ref' hr hr' := (h.session ref' ref hr' hr).symm
  hostTurn m hm m' hm' := (h.hostTurn m' hm' m hm).symm
  nativeTurn m hm m' hm' := (h.nativeTurn m' hm' m hm).symm

/-- Inside one record every Host Turn and every native Turn occurs once. -/
structure UniqueMappings (mappings : List StoredTurnMappingV1) : Prop where
  hostTurns : (mappings.map (·.hostTurnId)).Nodup
  nativeTurns : (mappings.map nativeTurnKey).Nodup

theorem UniqueMappings.native_eq_of_host {mappings : List StoredTurnMappingV1}
    (unique : UniqueMappings mappings) {m m' : StoredTurnMappingV1} (hm : m ∈ mappings)
    (hm' : m' ∈ mappings) (h : nativeTurnKey m = nativeTurnKey m') : m = m' :=
  inj_on_of_nodup_map unique.nativeTurns hm hm' h

/-- The mapping loop reports no issue only when each identity is new when it comes. -/
theorem refineTurnMappings_unique {record : StoredThreadCoreV1} {index : Nat}
    {hostTurnIds nativeTurnKeys : List String} {mappings : List StoredTurnMappingV1}
    (clean : refineTurnMappings record index hostTurnIds nativeTurnKeys mappings = []) :
    UniqueMappings mappings ∧ (∀ m ∈ mappings, m.hostTurnId ∉ hostTurnIds) ∧
      ∀ m ∈ mappings, nativeTurnKey m ∉ nativeTurnKeys := by
  induction mappings generalizing index hostTurnIds nativeTurnKeys with
  | nil => exact ⟨⟨nodup_nil, nodup_nil⟩, by simp, by simp⟩
  | cons mapping rest ih =>
    simp only [refineTurnMappings, append_eq_nil_iff] at clean
    obtain ⟨⟨⟨⟨host, native⟩, -⟩, -⟩, later⟩ := clean
    obtain ⟨unique, hostLater, nativeLater⟩ := ih later
    have hostNew : mapping.hostTurnId ∉ hostTurnIds := by
      intro h
      simp [h] at host
    have nativeNew : nativeTurnKey mapping ∉ nativeTurnKeys := by
      intro h
      simp [h] at native
    refine ⟨⟨?_, ?_⟩, ?_, ?_⟩
    · rw [map_cons, nodup_cons]
      refine ⟨?_, unique.hostTurns⟩
      intro h
      obtain ⟨m, hm, he⟩ := mem_map.mp h
      exact hostLater m hm (he ▸ mem_cons_self)
    · rw [map_cons, nodup_cons]
      refine ⟨?_, unique.nativeTurns⟩
      intro h
      obtain ⟨m, hm, he⟩ := mem_map.mp h
      exact nativeLater m hm (he ▸ mem_cons_self)
    · intro m hm
      rcases mem_cons.mp hm with rfl | hm
      · exact hostNew
      · exact fun h => hostLater m hm (mem_cons_of_mem _ h)
    · intro m hm
      rcases mem_cons.mp hm with rfl | hm
      · exact nativeNew
      · exact fun h => nativeLater m hm (mem_cons_of_mem _ h)

variable {record : StoredThreadRecordV1}

/-- Every record the schema accepts has unique mappings. -/
theorem accepted_unique_mappings (accepted : record.accepted) : UniqueMappings record.turnMappings := by
  simp only [StoredThreadRecordV1.accepted, Bool.and_eq_true, List.isEmpty_iff] at accepted
  have clean := accepted.2
  simp only [refineThreadRecord, List.append_eq_nil_iff] at clean
  exact (refineTurnMappings_unique clean.2).1

section Validate
variable {indexes : Indexes} {records : List StoredThreadRecordV1}

variable (projects : ThreadProjection indexes records)
include projects

theorem validateTurnMappings_ok_iff
    (replacing : Option HostThreadId) (mappings : List StoredTurnMappingV1) :
    validateTurnMappings indexes replacing mappings = .ok () ↔
      ∀ m ∈ mappings, ∀ r ∈ records, ∀ m' ∈ r.turnMappings,
        (m'.hostTurnId = m.hostTurnId → some r.hostThreadId = replacing) ∧
        (nativeTurnKey m' = nativeTurnKey m → m'.hostTurnId = m.hostTurnId) := by
  induction mappings with
  | nil => simp [validateTurnMappings]
  | cons mapping rest ih =>
    have host : (indexes.hostTurns.get? mapping.hostTurnId).any (some · ≠ replacing) = false ↔
        ∀ r ∈ records, ∀ m' ∈ r.turnMappings, m'.hostTurnId = mapping.hostTurnId →
          some r.hostThreadId = replacing := by
      rw [Option.any_eq_false]
      constructor
      · intro h r hr m' hm' he
        simpa using h r.hostThreadId ((projects.hostTurns _ _).mpr ⟨r, hr, m', hm', he, rfl⟩)
      · intro h id hid
        obtain ⟨r, hr, m', hm', he, rfl⟩ := (projects.hostTurns _ _).mp hid
        simpa using h r hr m' hm' he
    have native : (indexes.nativeTurns.get? (nativeTurnKey mapping)).any (· ≠ mapping.hostTurnId) = false ↔
        ∀ r ∈ records, ∀ m' ∈ r.turnMappings, nativeTurnKey m' = nativeTurnKey mapping →
          m'.hostTurnId = mapping.hostTurnId := by
      rw [Option.any_eq_false]
      constructor
      · intro h r hr m' hm' he
        simpa using h m'.hostTurnId ((projects.nativeTurns _ _).mpr ⟨r, hr, m', hm', he, rfl⟩)
      · intro h turn hturn
        obtain ⟨r, hr, m', hm', he, rfl⟩ := (projects.nativeTurns _ _).mp hturn
        simpa using h r hr m' hm' he
    rw [validateTurnMappings]
    split
    · next conflict =>
      simp only [reduceCtorEq, false_iff]
      intro h
      have := host.mpr fun r hr m' hm' => (h mapping List.mem_cons_self r hr m' hm').1
      rw [this] at conflict
      cases conflict
    · next hostFree =>
      split
      · next conflict =>
        simp only [reduceCtorEq, false_iff]
        intro h
        have := native.mpr fun r hr m' hm' => (h mapping List.mem_cons_self r hr m' hm').2
        rw [this] at conflict
        cases conflict
      · next nativeFree =>
        have hostOk := host.mp (Bool.eq_false_iff.mpr hostFree)
        have nativeOk := native.mp (Bool.eq_false_iff.mpr nativeFree)
        rw [ih]
        constructor
        · intro h m hm r hr m' hm'
          rcases List.mem_cons.mp hm with rfl | hm
          · exact ⟨hostOk r hr m' hm', nativeOk r hr m' hm'⟩
          · exact h m hm r hr m' hm'
        · exact fun h m hm => h m (List.mem_cons_of_mem _ hm)

/-- What a passed validation says about every indexed record. The native Turn check
compares Host Turns, not Threads; the Host Turn check beside it makes up for that. -/
theorem validateGlobal_ok_iff
    (record : StoredThreadRecordV1) (replacing : Option HostThreadId) :
    validateGlobal indexes record replacing = .ok () ↔
      (∀ r ∈ records, r.createRequestId = record.createRequestId → some r.hostThreadId = replacing) ∧
      (∀ r ∈ records, ∀ ref ref', indexedSession r = some ref → indexedSession record = some ref' →
        nativeSessionKey ref = nativeSessionKey ref' → some r.hostThreadId = replacing) ∧
      (∀ m ∈ record.turnMappings, ∀ r ∈ records, ∀ m' ∈ r.turnMappings,
        (m'.hostTurnId = m.hostTurnId → some r.hostThreadId = replacing) ∧
        (nativeTurnKey m' = nativeTurnKey m → m'.hostTurnId = m.hostTurnId)) := by
  have create : (indexes.createRequests.get? record.createRequestId).any (some · ≠ replacing) = false
      ↔ ∀ r ∈ records, r.createRequestId = record.createRequestId → some r.hostThreadId = replacing := by
    rw [Option.any_eq_false]
    constructor
    · intro h r hr he
      simpa using h r.hostThreadId ((projects.createRequests _ _).mpr ⟨r, hr, he, rfl⟩)
    · intro h id hid
      obtain ⟨r, hr, he, rfl⟩ := (projects.createRequests _ _).mp hid
      simpa using h r hr he
  have session : (indexedSession record).any (fun ref =>
        (indexes.nativeSessions.get? (nativeSessionKey ref)).any (some · ≠ replacing)) = false ↔
      ∀ r ∈ records, ∀ ref ref', indexedSession r = some ref → indexedSession record = some ref' →
        nativeSessionKey ref = nativeSessionKey ref' → some r.hostThreadId = replacing := by
    rw [Option.any_eq_false]
    constructor
    · intro h r hr ref ref' href href' he
      have free := h ref' href'
      rw [Option.any_eq_false] at free
      simpa using free r.hostThreadId ((projects.nativeSessions _ _).mpr ⟨r, hr, ref, href, he, rfl⟩)
    · intro h ref' href'
      rw [Option.any_eq_false]
      intro id hid
      obtain ⟨r, hr, ref, href, he, rfl⟩ := (projects.nativeSessions _ _).mp hid
      simpa using h r hr ref ref' href href' he
  rw [validateGlobal]
  split
  · next conflict =>
    simp only [reduceCtorEq, false_iff]
    intro h
    rw [create.mpr h.1] at conflict
    cases conflict
  · next createFree =>
    split
    · next conflict =>
      simp only [reduceCtorEq, false_iff]
      intro h
      rw [session.mpr h.2.1] at conflict
      cases conflict
    · next sessionFree =>
      rw [validateTurnMappings_ok_iff projects]
      have createOk := create.mp (Bool.eq_false_iff.mpr createFree)
      have sessionOk := session.mp (Bool.eq_false_iff.mpr sessionFree)
      exact ⟨fun h => ⟨createOk, sessionOk, h⟩, fun h => h.2.2⟩

/-- A record that passes is separate from every record it does not replace. -/
theorem separate_of_validateGlobal {replacing : Option HostThreadId}
    (passed : validateGlobal indexes record replacing = .ok ())
    {r : StoredThreadRecordV1} (hr : r ∈ records) (other : some r.hostThreadId ≠ replacing) :
    SeparateIdentities r record := by
  obtain ⟨create, session, turns⟩ := (validateGlobal_ok_iff projects record replacing).mp passed
  refine ⟨fun h => other (create r hr h), ?_, ?_, ?_⟩
  · intro ref ref' href href' he
    exact other (session r hr ref ref' href href' he)
  · intro m hm m' hm' he
    exact other ((turns m' hm' r hr m hm).1 he)
  · intro m hm m' hm' he
    have sameHost := (turns m' hm' r hr m hm).2 he
    exact other ((turns m' hm' r hr m hm).1 sameHost)

theorem validateGlobal_of_separate (replacing : Option HostThreadId)
    (separate : ∀ r ∈ records, SeparateIdentities r record) :
    validateGlobal indexes record replacing = .ok () := by
  refine (validateGlobal_ok_iff projects record replacing).mpr ⟨?_, ?_, ?_⟩
  · exact fun r hr he => absurd he (separate r hr).createRequest
  · exact fun r hr ref ref' href href' he => absurd he ((separate r hr).session ref ref' href href')
  · intro m hm r hr m' hm'
    exact ⟨fun he => absurd he ((separate r hr).hostTurn m' hm' m hm),
      fun he => absurd he ((separate r hr).nativeTurn m' hm' m hm)⟩

end Validate

theorem threadProjection_cleared : ThreadProjection Indexes.cleared [] := by
  constructor <;> simp [cleared]

/-- Adding a record that is separate from the indexed ones keeps the projection exact:
no entry of another record is overwritten. -/
theorem addRecord_projects {indexes : Indexes} {records : List StoredThreadRecordV1}
    (projects : ThreadProjection indexes records)
    (separate : ∀ r ∈ records, SeparateIdentities r record)
    (unique : UniqueMappings record.turnMappings) :
    ThreadProjection (indexes.addRecord record) (records ++ [record]) := by
  have split : ∀ p : StoredThreadRecordV1 → Prop,
      (∃ r ∈ records ++ [record], p r) ↔ p record ∨ ∃ r ∈ records, p r := by
    intro p
    simp only [mem_append, mem_singleton]
    constructor
    · rintro ⟨r, hr | rfl, h⟩
      · exact .inr ⟨r, hr, h⟩
      · exact .inl h
    · rintro (h | ⟨r, hr, h⟩)
      · exact ⟨record, .inr rfl, h⟩
      · exact ⟨r, .inl hr, h⟩
  constructor
  · intro key id
    rw [split]
    simp only [addRecord, get?_set]
    by_cases hk : key = record.createRequestId
    · subst hk
      simp only [if_true, some.injEq, true_and]
      constructor
      · exact .inl
      · rintro (h | ⟨r, hr, h, -⟩)
        · exact h
        · exact absurd h (separate r hr).createRequest
    · rw [if_neg hk, projects.createRequests]
      simp [Ne.symm hk]
  · intro key id
    rw [split]
    cases hs : indexedSession record with
    | none => simp [addRecord, hs, projects.nativeSessions]
    | some ref =>
      simp only [addRecord, hs, get?_set, some.injEq, exists_eq_left']
      by_cases hk : key = nativeSessionKey ref
      · subst hk
        simp only [if_true, some.injEq, true_and]
        constructor
        · exact .inl
        · rintro (h | ⟨r, hr, ref', href', h, -⟩)
          · exact h
          · exact absurd h ((separate r hr).session ref' ref href' hs)
      · rw [if_neg hk, projects.nativeSessions]
        simp [Ne.symm hk]
  · intro key id
    rw [split]
    simp only [addRecord]
    rw [get?_setAll]
    · rw [projects.hostTurns]
      simp only [List.mem_map, Prod.mk.injEq]
    · intro k v v' hv hv'
      simp only [List.mem_map, Prod.mk.injEq] at hv hv'
      obtain ⟨m, hm, rfl, rfl⟩ := hv
      rcases hv' with ⟨m', -, -, h⟩ | h
      · exact h
      · obtain ⟨r, hr, m', hm', he, -⟩ := (projects.hostTurns _ _).mp h
        exact absurd he ((separate r hr).hostTurn m' hm' m hm)
  · intro key turn
    rw [split]
    simp only [addRecord]
    rw [get?_setAll]
    · rw [projects.nativeTurns]
      simp only [List.mem_map, Prod.mk.injEq]
    · intro k v v' hv hv'
      simp only [List.mem_map, Prod.mk.injEq] at hv hv'
      obtain ⟨m, hm, rfl, rfl⟩ := hv
      rcases hv' with ⟨m', hm', he, h⟩ | h
      · rw [← h, unique.native_eq_of_host hm hm' he.symm]
      · obtain ⟨r, hr, m', hm', he, -⟩ := (projects.nativeTurns _ _).mp h
        exact absurd he ((separate r hr).nativeTurn m' hm' m hm)

/-- The record loop, started over indexes that project the records before it. -/
theorem indexRecords_spec {indexes : Indexes} {done rest : List StoredThreadRecordV1}
    (projects : ThreadProjection indexes done)
    (unique : ∀ r ∈ rest, UniqueMappings r.turnMappings)
    (ids : ((done ++ rest).map (·.hostThreadId)).Nodup) :
    ((indexRecords rest indexes).1 = .ok () ↔
      rest.Pairwise SeparateIdentities ∧ ∀ r ∈ done, ∀ r' ∈ rest, SeparateIdentities r r') ∧
    ((indexRecords rest indexes).1 = .ok () →
      ThreadProjection (indexRecords rest indexes).2 (done ++ rest)) := by
  induction rest generalizing indexes done with
  | nil => simpa [indexRecords] using projects
  | cons record rest ih =>
    have fresh : ∀ r ∈ done, some r.hostThreadId ≠ some record.hostThreadId := by
      intro r hr he
      rw [map_append, nodup_append] at ids
      exact ids.2.2 _ (mem_map.mpr ⟨r, hr, rfl⟩) _
        (mem_map.mpr ⟨record, mem_cons_self, rfl⟩) (Option.some.inj he)
    rw [indexRecords]
    split
    · next error failed =>
      have conflict : ¬ ∀ r ∈ done, SeparateIdentities r record := by
        intro separate
        rw [validateGlobal_of_separate projects _ separate] at failed
        cases failed
      constructor
      · constructor
        · intro h
          cases h
        · intro h
          exact absurd (fun r hr => h.2 r hr record mem_cons_self) conflict
      · intro h
        cases h
    · next passed =>
      have separate : ∀ r ∈ done, SeparateIdentities r record := fun r hr =>
        separate_of_validateGlobal projects passed hr (fresh r hr)
      have added := addRecord_projects projects separate (unique record mem_cons_self)
      have next := ih added (fun r hr => unique r (mem_cons_of_mem _ hr))
        (by simpa [append_assoc] using ids)
      rw [append_assoc, singleton_append] at next
      refine ⟨next.1.trans ?_, next.2⟩
      rw [pairwise_cons]
      constructor
      · rintro ⟨pairwise, before⟩
        refine ⟨⟨fun r hr => before record (by simp) r hr, pairwise⟩, ?_⟩
        intro r hr r' hr'
        rcases mem_cons.mp hr' with rfl | hr'
        · exact separate r hr
        · exact before r (mem_append_left _ hr) r' hr'
      · rintro ⟨⟨head, pairwise⟩, before⟩
        refine ⟨pairwise, ?_⟩
        intro r hr r' hr'
        rcases mem_append.mp hr with hr | hr
        · exact before r hr r' (mem_cons_of_mem _ hr')
        · rw [mem_singleton.mp hr]
          exact head r' hr'

theorem indexRecords_delegations (rest : List StoredThreadRecordV1) (indexes : Indexes) :
    (indexRecords rest indexes).2.delegationChildren = indexes.delegationChildren ∧
    (indexRecords rest indexes).2.delegationRequests = indexes.delegationRequests := by
  induction rest generalizing indexes with
  | nil => exact ⟨rfl, rfl⟩
  | cons record rest ih =>
    rw [indexRecords]
    split
    · exact ⟨rfl, rfl⟩
    · exact ih (indexes.addRecord record)

/-- Two delegations that share neither a child Thread nor a request. -/
structure SeparateDelegations (d d' : StoredDelegationRecordV1) : Prop where
  child : d.childHostThreadId ≠ d'.childHostThreadId
  request : ∀ requestId, d.requestId = some requestId → d'.requestId ≠ some requestId

theorem SeparateDelegations.symm {d d' : StoredDelegationRecordV1} (h : SeparateDelegations d d') :
    SeparateDelegations d' d where
  child := h.child.symm
  request requestId hd' hd := h.request requestId hd hd'

theorem delegationProjection_cleared : DelegationProjection Indexes.cleared [] := by
  constructor <;> simp [cleared]

variable {delegations : List StoredDelegationRecordV1}

theorem addDelegation_projects {indexes : Indexes}
    (projects : DelegationProjection indexes delegations) {delegation : StoredDelegationRecordV1}
    (separate : ∀ d ∈ delegations, SeparateDelegations d delegation) :
    DelegationProjection (indexes.addDelegation delegation) (delegations ++ [delegation]) := by
  constructor
  · intro key id
    simp only [addDelegation, get?_set, mem_append, mem_singleton,
      or_and_right, exists_or, exists_eq_left]
    by_cases hk : key = delegation.childHostThreadId
    · subst hk
      simp only [if_true, some.injEq, true_and]
      constructor
      · exact .inr
      · rintro (⟨d, hd, h, -⟩ | h)
        · exact absurd h (separate d hd).child
        · exact h
    · rw [if_neg hk, projects.delegationChildren]
      simp [Ne.symm hk]
  · intro key id
    simp only [addDelegation, mem_append, mem_singleton, or_and_right, exists_or, exists_eq_left]
    cases hr : delegation.requestId with
    | none => simp [projects.delegationRequests]
    | some requestId =>
      simp only [get?_set, some.injEq]
      by_cases hk : key = requestId
      · subst hk
        simp only [if_true, some.injEq, true_and]
        constructor
        · exact .inr
        · rintro (⟨d, hd, h, -⟩ | h)
          · exact absurd hr ((separate d hd).request key h)
          · exact h
      · rw [if_neg hk, projects.delegationRequests]
        simp [Ne.symm hk]

/-- The delegation loop, started over indexes that project the delegations before it. -/
theorem indexDelegations_spec {indexes : Indexes} (rest : List StoredDelegationRecordV1)
    {done : List StoredDelegationRecordV1} (projects : DelegationProjection indexes done) :
    ((indexDelegations rest indexes).1 = .ok () ↔
      rest.Pairwise SeparateDelegations ∧ ∀ d ∈ done, ∀ d' ∈ rest, SeparateDelegations d d') ∧
    ((indexDelegations rest indexes).1 = .ok () →
      DelegationProjection (indexDelegations rest indexes).2 (done ++ rest)) := by
  induction rest generalizing indexes done with
  | nil => simpa [indexDelegations] using projects
  | cons delegation rest ih =>
    have children : indexes.delegationChildren.has delegation.childHostThreadId = true ↔
        ∃ d ∈ done, d.childHostThreadId = delegation.childHostThreadId := by
      rw [OrderedMap.has_iff]
      constructor
      · rintro ⟨id, hid⟩
        obtain ⟨d, hd, he, -⟩ := (projects.delegationChildren _ _).mp hid
        exact ⟨d, hd, he⟩
      · rintro ⟨d, hd, he⟩
        exact ⟨d.delegationId, (projects.delegationChildren _ _).mpr ⟨d, hd, he, rfl⟩⟩
    have requests : delegation.requestId.any indexes.delegationRequests.has = true ↔
        ∃ requestId, delegation.requestId = some requestId ∧ ∃ d ∈ done, d.requestId = some requestId := by
      rw [Option.any_eq_true]
      constructor
      · rintro ⟨requestId, hr, has⟩
        obtain ⟨id, hid⟩ := (OrderedMap.has_iff _ _).mp has
        obtain ⟨d, hd, he, -⟩ := (projects.delegationRequests _ _).mp hid
        exact ⟨requestId, hr, d, hd, he⟩
      · rintro ⟨requestId, hr, d, hd, he⟩
        exact ⟨requestId, hr, (OrderedMap.has_iff _ _).mpr
          ⟨d.delegationId, (projects.delegationRequests _ _).mpr ⟨d, hd, he, rfl⟩⟩⟩
    have failing : (¬ ∀ d ∈ done, SeparateDelegations d delegation) →
        ¬ ((delegation :: rest).Pairwise SeparateDelegations ∧
          ∀ d ∈ done, ∀ d' ∈ delegation :: rest, SeparateDelegations d d') :=
      fun conflict h => conflict fun d hd => h.2 d hd delegation List.mem_cons_self
    rw [indexDelegations]
    split
    · next taken =>
      obtain ⟨d, hd, he⟩ := children.mp taken
      have conflict := failing fun separate => (separate d hd).child he
      exact ⟨⟨fun h => (by cases h), fun h => absurd h conflict⟩, fun h => (by cases h)⟩
    · next childFree =>
      split
      · next taken =>
        obtain ⟨requestId, hr, d, hd, he⟩ := requests.mp taken
        have conflict := failing fun separate => (separate d hd).request requestId he hr
        exact ⟨⟨fun h => (by cases h), fun h => absurd h conflict⟩, fun h => (by cases h)⟩
      · next requestFree =>
        have separate : ∀ d ∈ done, SeparateDelegations d delegation := by
          intro d hd
          refine ⟨fun he => childFree (children.mpr ⟨d, hd, he⟩), ?_⟩
          intro requestId he hr
          exact requestFree (requests.mpr ⟨requestId, hr, d, hd, he⟩)
        have next := ih (addDelegation_projects projects separate)
        rw [List.append_assoc, List.singleton_append] at next
        refine ⟨next.1.trans ?_, next.2⟩
        rw [List.pairwise_cons]
        constructor
        · rintro ⟨pairwise, before⟩
          refine ⟨⟨fun d hd => before delegation (by simp) d hd, pairwise⟩, ?_⟩
          intro d hd d' hd'
          rcases List.mem_cons.mp hd' with rfl | hd'
          · exact separate d hd
          · exact before d (List.mem_append_left _ hd) d' hd'
        · rintro ⟨⟨head, pairwise⟩, before⟩
          refine ⟨pairwise, ?_⟩
          intro d hd d' hd'
          rcases List.mem_append.mp hd with hd | hd
          · exact before d hd d' (List.mem_cons_of_mem _ hd')
          · rw [List.mem_singleton.mp hd]
            exact head d' hd'

theorem indexDelegations_threads {indexes : Indexes} (rest : List StoredDelegationRecordV1)
    {records : List StoredThreadRecordV1} (projects : ThreadProjection indexes records) :
    ThreadProjection (indexDelegations rest indexes).2 records := by
  induction rest generalizing indexes with
  | nil => exact projects
  | cons delegation rest ih =>
    have keep : ThreadProjection (indexes.addDelegation delegation) records :=
      ⟨projects.createRequests, projects.nativeSessions, projects.hostTurns, projects.nativeTurns⟩
    rw [indexDelegations]
    split
    · exact projects
    · split
      · exact ⟨projects.createRequests, projects.nativeSessions, projects.hostTurns, projects.nativeTurns⟩
      · exact ih keep

/-- A rebuild does not throw exactly when no two records and no two delegations share
an identity. -/
theorem rebuildIndexes_ok_iff {records : List StoredThreadRecordV1}
    (unique : ∀ r ∈ records, UniqueMappings r.turnMappings)
    (ids : (records.map (·.hostThreadId)).Nodup) :
    (rebuildIndexes records delegations).1 = .ok () ↔
      delegations.Pairwise SeparateDelegations ∧ records.Pairwise SeparateIdentities := by
  have first := indexDelegations_spec delegations delegationProjection_cleared
  have threads := indexDelegations_threads delegations threadProjection_cleared
  rw [rebuildIndexes]
  split
  · next error indexes failed =>
    rw [failed] at first
    have notSeparate := first.1
    simp only [reduceCtorEq, false_iff, not_mem_nil, false_implies, implies_true, and_true] at notSeparate ⊢
    exact fun h => notSeparate h.1
  · next indexes passed =>
    rw [passed] at first threads
    have second := indexRecords_spec threads unique (by simpa using ids)
    rw [second.1]
    simp only [not_mem_nil, false_implies, implies_true, and_true, true_iff] at first ⊢
    exact ⟨fun h => ⟨first.1, h⟩, fun h => h.2⟩

theorem rebuildIndexes_projects {records : List StoredThreadRecordV1}
    (unique : ∀ r ∈ records, UniqueMappings r.turnMappings)
    (ids : (records.map (·.hostThreadId)).Nodup)
    (rebuilt : (rebuildIndexes records delegations).1 = .ok ()) :
    ProjectionOf (rebuildIndexes records delegations).2 records delegations := by
  have first := indexDelegations_spec delegations delegationProjection_cleared
  have threads := indexDelegations_threads delegations threadProjection_cleared
  rw [rebuildIndexes] at rebuilt ⊢
  split at rebuilt
  · cases rebuilt
  · next indexes passed =>
    rw [passed] at first threads
    have second := indexRecords_spec threads unique (by simpa using ids)
    have kept := indexRecords_delegations records indexes
    have projected := first.2 rfl
    refine ⟨second.2 rebuilt, ?_, ?_⟩
    · rw [kept.1]
      exact projected.delegationChildren
    · rw [kept.2]
      exact projected.delegationRequests

end CodexHost.Guarantees
