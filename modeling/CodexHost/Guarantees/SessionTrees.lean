import CodexHost.Foundation.LinkWalks
import CodexHost.Source.HostRuntime.ExternalThreadList

/-!
# Session trees of stored Threads

`resolveExternalSessionTreeIds` against the plain walk: each Thread is mapped to the last record
that its parent and fork links lead to. What the memo holds of earlier walks is always the end
of those walks, so a walk that stops at it ends where it would have ended.
-/
namespace CodexHost.Guarantees.ThreadList
open Foundation Source.MappingStore Source.HostRuntime
open Source.SharedContracts OrderedMap List Relation

variable {records : List StoredThreadRecordV1} {record source current : StoredThreadRecordV1}

/-- The Thread that a record comes from: its parent, or else the one it is a Fork of. -/
def comesFrom (record : StoredThreadRecordV1) : Option HostThreadId :=
  match record.subagent, record.forkSource with
  | some subagent, _ => some subagent.parentHostThreadId
  | none, fork => fork.map (·.hostThreadId)

/-- One link among the records: to the record of the Thread that a record comes from. An empty
ID names no Thread. -/
def Linked (records : List StoredThreadRecordV1) (record source : StoredThreadRecordV1) : Prop :=
  record ∈ records ∧ source ∈ records ∧ comesFrom record = some source.hostThreadId ∧ source.hostThreadId ≠ ""

/-- No two records have one ID; the store lists each Thread once. -/
def Distinct (records : List StoredThreadRecordV1) : Prop := (records.map (·.hostThreadId)).Nodup

instance : Decidable (Distinct records) := inferInstanceAs (Decidable (List.Nodup _))

theorem same_of_id (distinct : Distinct records) (here : record ∈ records) (there : source ∈ records)
    (same : record.hostThreadId = source.hostThreadId) : record = source :=
  inj_on_of_nodup_map distinct here there same

theorem linked_functional (distinct : Distinct records) : Relator.RightUnique (Linked records) := by
  rintro _ _ _ ⟨-, here, from_, -⟩ ⟨-, there, from', -⟩
  exact same_of_id distinct here there (Option.some.inj (from_.symm.trans from'))

theorem recordsById_get? {id : String} (found : (recordsById records).get? id = some record) :
    record ∈ records ∧ record.hostThreadId = id := by
  rcases mem_of_get?_setAll found with member | none
  · obtain ⟨record', member', same⟩ := mem_map.mp member
    cases same
    exact ⟨member', rfl⟩
  · simp at none

theorem has_recordsById {id : String} :
    (recordsById records).has id = true ↔ ∃ record ∈ records, record.hostThreadId = id := by
  rw [recordsById, has_setAll, List.map_map]
  simp [OrderedMap.has]

theorem recordsById_of_mem (distinct : Distinct records) (here : record ∈ records) :
    (recordsById records).get? record.hostThreadId = some record := by
  obtain ⟨found, get⟩ := (has_iff _ _).mp (has_recordsById.mpr ⟨record, here, rfl⟩)
  obtain ⟨there, same⟩ := recordsById_get? get
  rwa [same_of_id distinct there here same] at get

/-- The record that the loop goes on to is the one that the link leads to. -/
theorem sessionTreeSource_iff (distinct : Distinct records) (here : record ∈ records) :
    sessionTreeSource (recordsById records) record = some source ↔ Linked records record source := by
  have same : sessionTreeSource (recordsById records) record =
      ((comesFrom record).filter (· ≠ "")).bind (recordsById records).get? := by
    unfold sessionTreeSource comesFrom
    cases record.subagent <;> rfl
  rw [same, Option.bind_eq_some_iff]
  simp only [Option.filter_eq_some_iff, decide_eq_true_eq]
  constructor
  · rintro ⟨id, ⟨from_, named⟩, found⟩
    obtain ⟨there, rfl⟩ := recordsById_get? found
    exact ⟨here, there, from_, named⟩
  · rintro ⟨-, there, from_, named⟩
    exact ⟨_, ⟨from_, named⟩, recordsById_of_mem distinct there⟩

/-- Different records are no more than the records stored by ID. -/
theorem path_length_le {path : List StoredThreadRecordV1} (subset : ∀ record ∈ path, record ∈ records)
    (distinct : Distinct path) : path.length ≤ (recordsById records).entries.length := by
  have keys : path.map (·.hostThreadId) ⊆ (recordsById records).keys := by
    intro id member
    obtain ⟨record, here, rfl⟩ := mem_map.mp member
    rw [mem_keys_iff, ← has_iff, has_recordsById]
    exact ⟨record, subset record here, rfl⟩
  have le := (subperm_of_subset distinct keys).length_le
  rwa [length_map, OrderedMap.keys, length_map] at le

def cycleMessage : String := "External Thread Fork tree contains a cycle"

section Walks
variable {resolved : OrderedMap String String} {path path' : List StoredThreadRecordV1}
  {turns : Nat} {root : String}

/-- The walk from the record ends at the record of this ID. -/
def Root (records : List StoredThreadRecordV1) (record : StoredThreadRecordV1) (root : String) : Prop :=
  ∃ last, EndsAt (Linked records) record last ∧ last.hostThreadId = root

/-- The memo holds ends of walks only. -/
def Memo (records : List StoredThreadRecordV1) (resolved : OrderedMap String String) : Prop :=
  ∀ id root, resolved.get? id = some root →
    ∃ record ∈ records, record.hostThreadId = id ∧ Root records record root

theorem Memo.sound (memo : Memo records resolved) (distinct : Distinct records) (here : record ∈ records)
    (known : resolved.get? record.hostThreadId = some root) : Root records record root := by
  obtain ⟨record', there, same, ends⟩ := memo _ _ known
  rwa [same_of_id distinct there here same] at ends

/-- A loop on its way: it is at a record that all records of its path lead to. -/
structure OnWay (records path : List StoredThreadRecordV1) (current : StoredThreadRecordV1) : Prop where
  here : current ∈ records
  subset : ∀ record ∈ path, record ∈ records
  distinct : Distinct path
  leads : ∀ record ∈ path, TransGen (Linked records) record current

theorem OnWay.start (here : record ∈ records) : OnWay records [] record :=
  ⟨here, by simp, nodup_nil, by simp⟩

/-- The loop goes on to the next record. -/
theorem OnWay.next (way : OnWay records path current) (fresh : current.hostThreadId ∉ path.map (·.hostThreadId))
    (link : Linked records current source) : OnWay records (path ++ [current]) source where
  here := link.2.1
  subset record member := by
    rcases mem_append.mp member with visited | last
    · exact way.subset record visited
    · exact mem_singleton.mp last ▸ way.here
  distinct := by
    rw [Distinct, map_append, nodup_append]
    refine ⟨way.distinct, nodup_singleton _, ?_⟩
    rintro _ visited _ last rfl
    rw [mem_singleton.mp last] at visited
    exact fresh visited
  leads record member := by
    rcases mem_append.mp member with visited | last
    · exact (way.leads record visited).tail link
    · exact mem_singleton.mp last ▸ .single link

/-- A record that the path already has lies on a cycle. -/
theorem OnWay.cycle (way : OnWay records path current) (distinct : Distinct records)
    (visited : current.hostThreadId ∈ path.map (·.hostThreadId)) : Endless (Linked records) current := by
  obtain ⟨record, member, same⟩ := mem_map.mp visited
  have leads := way.leads record member
  rw [same_of_id distinct (way.subset record member) way.here same] at leads
  exact .of_cycle leads

/-- What the loop finds: the root of every record that it passed, the first one at least. -/
structure Found (records path path' : List StoredThreadRecordV1) (current : StoredThreadRecordV1)
    (resolved : OrderedMap String String) (root : String) : Prop where
  ends : Root records current root
  kept : ∀ record ∈ path, record ∈ path'
  subset : ∀ record ∈ path', record ∈ records
  leads : ∀ record ∈ path', Root records record root
  passed : current ∈ path' ∨ resolved.has current.hostThreadId = true

variable (distinct : Distinct records)
include distinct

/-- Every outcome of the loop is that of the plain walk. -/
theorem sessionTreePath_spec (memo : Memo records resolved) (turns : Nat) :
    ∀ path current, OnWay records path current →
      (recordsById records).entries.length < turns + path.length →
      match sessionTreePath (recordsById records) resolved turns path current with
      | .ok (path', root) => Found records path path' current resolved root
      | .error message => message = cycleMessage ∧ Endless (Linked records) current := by
  induction turns with
  | zero =>
    intro path current way enough
    have le := path_length_le way.subset way.distinct
    omega
  | succ turns ih =>
    intro path current way enough
    have before {root : String} (ends : Root records current root) :
        ∀ record ∈ path, Root records record root := by
      intro record member
      obtain ⟨last, ⟨reached, stop⟩, id⟩ := ends
      exact ⟨last, ⟨(way.leads record member).to_reflTransGen.trans reached, stop⟩, id⟩
    unfold sessionTreePath
    cases known : resolved.get? current.hostThreadId with
    | some root =>
      have ends := memo.sound distinct way.here known
      exact ⟨ends, fun _ => id, way.subset, before ends, .inr (by rw [OrderedMap.has, known]; rfl)⟩
    | none =>
      by_cases visited : current.hostThreadId ∈ path.map (·.hostThreadId)
      · rw [if_pos visited]
        exact ⟨rfl, way.cycle distinct visited⟩
      rw [if_neg visited]
      cases next : sessionTreeSource (recordsById records) current with
      | none =>
        have ends : Root records current current.hostThreadId := by
          refine ⟨current, ⟨.refl, fun source link => ?_⟩, rfl⟩
          rw [(sessionTreeSource_iff distinct way.here).mpr link] at next
          cases next
        refine ⟨ends, fun _ => mem_append_left _, fun record member => ?_, fun record member => ?_,
          .inl (by simp)⟩
        all_goals rcases mem_append.mp member with passed | last
        · exact way.subset record passed
        · exact mem_singleton.mp last ▸ way.here
        · exact before ends record passed
        · exact mem_singleton.mp last ▸ ends
      | some source =>
        have link := (sessionTreeSource_iff distinct way.here).mp next
        have rest := ih (path ++ [current]) source (way.next visited link)
          (by rw [length_append, length_singleton]; omega)
        dsimp only
        split at rest
        · obtain ⟨⟨last, ends, id⟩, kept, subset, leads, -⟩ := rest
          exact ⟨⟨last, .of_link link ends, id⟩, fun _ visited => kept _ (mem_append_left _ visited),
            subset, leads, .inl (kept _ (by simp))⟩
        · exact rest.imp_right (.of_reached (.single link))

/-- One call of `resolve`: the memo grows by roots, over the record at least. -/
theorem resolveSessionTree_spec (memo : Memo records resolved)
    (here : record ∈ records) :
    match resolveSessionTree (recordsById records) resolved record with
    | .ok resolved' => Memo records resolved' ∧ (∀ id, resolved.has id = true → resolved'.has id = true) ∧
        resolved'.has record.hostThreadId = true
    | .error message => message = cycleMessage ∧ Endless (Linked records) record := by
  have walk := sessionTreePath_spec distinct memo ((recordsById records).entries.length + 1) []
    record (.start here) (by simp)
  simp only [resolveSessionTree, bind, Except.bind, pure, Except.pure]
  split at walk
  · next path root ran =>
    rw [ran]
    refine ⟨fun id root' found => ?_, fun id known => (has_setAll _ _ _).mpr (.inr known), ?_⟩
    · rcases mem_of_get?_setAll found with member | known
      · obtain ⟨passed, on, same⟩ := mem_map.mp member
        cases same
        exact ⟨passed, walk.subset _ on, rfl, walk.leads _ on⟩
      · exact memo id root' known
    · refine (has_setAll _ _ _).mpr (walk.passed.imp_left fun on => ?_)
      rw [List.map_map]
      exact mem_map.mpr ⟨record, on, rfl⟩
  · next ran =>
    rw [ran]
    exact walk

/-- All calls, one after the other. -/
theorem resolveSessionTrees_spec (list : List StoredThreadRecordV1)
    (subset : ∀ record ∈ list, record ∈ records) :
    ∀ resolved, Memo records resolved →
    match list.foldlM (resolveSessionTree (recordsById records)) resolved with
    | .ok ids => Memo records ids ∧ (∀ id, resolved.has id = true → ids.has id = true) ∧
        ∀ record ∈ list, ids.has record.hostThreadId = true
    | .error message => message = cycleMessage ∧ ∃ record ∈ list, Endless (Linked records) record := by
  induction list with
  | nil => exact fun resolved memo => ⟨memo, fun _ => id, by simp⟩
  | cons record list ih =>
    intro resolved memo
    have first := resolveSessionTree_spec distinct memo (subset record mem_cons_self)
    rw [foldlM_cons]
    split at first
    · next resolved' ran =>
      obtain ⟨memo', grown, here⟩ := first
      have rest := ih (fun record member => subset record (mem_cons_of_mem _ member)) resolved' memo'
      rw [ran]
      show match list.foldlM (resolveSessionTree (recordsById records)) resolved' with
        | .ok ids => _
        | .error message => _
      split at rest
      · obtain ⟨memo'', grown', all⟩ := rest
        exact ⟨memo'', fun id known => grown' id (grown id known), forall_mem_cons.mpr ⟨grown' _ here, all⟩⟩
      · exact ⟨rest.1, exists_mem_cons_of_exists rest.2⟩
    · next ran =>
      rw [ran]
      exact ⟨first.1, record, mem_cons_self, first.2⟩

end Walks

section Outcome
variable {ids : OrderedMap String String}

theorem memo_empty : Memo records OrderedMap.empty := by
  intro id root known
  cases known

section
variable (distinct : Distinct records)
include distinct

theorem resolveExternalSessionTreeIds_spec :
    match resolveExternalSessionTreeIds records with
    | .ok ids => Memo records ids ∧ ∀ record ∈ records, ids.has record.hostThreadId = true
    | .error message => message = cycleMessage ∧ ∃ record ∈ records, Endless (Linked records) record := by
  have all := resolveSessionTrees_spec distinct records (fun _ => id) _ memo_empty
  unfold resolveExternalSessionTreeIds
  split at all
  · exact all.imp_right And.right
  · exact all

section
variable (ran : resolveExternalSessionTreeIds records = .ok ids)
include ran

theorem resolved_spec :
    Memo records ids ∧ ∀ record ∈ records, ids.has record.hostThreadId = true := by
  have all := resolveExternalSessionTreeIds_spec distinct
  rwa [ran] at all

theorem get?_resolved
    (id root : String) : ids.get? id = some root ↔
      ∃ record ∈ records, record.hostThreadId = id ∧ Root records record root := by
  obtain ⟨memo, all⟩ := resolved_spec distinct ran
  refine ⟨memo id root, ?_⟩
  rintro ⟨record, here, rfl, last, ends, rfl⟩
  obtain ⟨root, known⟩ := (has_iff _ _).mp (all record here)
  obtain ⟨last', ends', rfl⟩ := memo.sound distinct here known
  rw [known, ends'.unique (linked_functional distinct) ends]

theorem not_endless
    (here : record ∈ records) : ¬ Endless (Linked records) record := by
  obtain ⟨memo, all⟩ := resolved_spec distinct ran
  obtain ⟨root, known⟩ := (has_iff _ _).mp (all record here)
  obtain ⟨last, ends, -⟩ := memo.sound distinct here known
  exact ends.not_endless (linked_functional distinct)

end

theorem resolve_error_iff :
    resolveExternalSessionTreeIds records = .error cycleMessage ↔
      ∃ record ∈ records, Endless (Linked records) record := by
  have all := resolveExternalSessionTreeIds_spec distinct
  cases ran : resolveExternalSessionTreeIds records with
  | error message =>
    rw [ran] at all
    exact ⟨fun _ => all.2, fun _ => by rw [all.1]⟩
  | ok ids => exact ⟨nofun, fun ⟨_, here, endless⟩ => absurd endless (not_endless distinct ran here)⟩

end

theorem linked_perm {order : List StoredThreadRecordV1} (perm : order.Perm records) :
    Linked order = Linked records := by
  funext record source
  simp only [Linked, perm.mem_iff]

theorem resolve_perm (distinct : Distinct records) {order : List StoredThreadRecordV1}
    (perm : order.Perm records) : (resolveExternalSessionTreeIds order).map OrderedMap.get? =
      (resolveExternalSessionTreeIds records).map OrderedMap.get? := by
  have distinct' : Distinct order := (perm.map _).nodup_iff.mpr distinct
  have same := resolve_error_iff distinct'
  simp only [linked_perm perm, perm.mem_iff] at same
  rw [← resolve_error_iff distinct] at same
  have all := resolveExternalSessionTreeIds_spec distinct
  have all' := resolveExternalSessionTreeIds_spec distinct'
  cases ran : resolveExternalSessionTreeIds records with
  | error message =>
    rw [ran] at all
    rw [same.mpr (by rw [ran, all.1]), all.1]
  | ok ids =>
    cases ran' : resolveExternalSessionTreeIds order with
    | error message =>
      rw [ran'] at all'
      rw [ran', ran, all'.1] at same
      cases same.mp rfl
    | ok ids' =>
      refine congrArg Except.ok (funext fun id => Option.ext fun root => ?_)
      rw [get?_resolved distinct' ran', get?_resolved distinct ran]
      simp only [Root, linked_perm perm, perm.mem_iff]

def sampleRecord (id : String) (updatedAt : Timestamp) (forkSource : Option ForkSource) :
    StoredThreadRecordV1 :=
  { revision := 1, hostThreadId := id, createRequestId := "create", harnessId := "claude"
    state := .ready, nativeSessionRef := some ⟨"claude", "native", none⟩
    importSourceRef := none, cwd := "/work", title := "Title", archived := false
    transportModelId := "model", ephemeral := false, historyMode := .legacy, forkSource
    subagent := none, turnMappings := [], createdAt := 0, updatedAt, unknown := []
    usageMeasurements := none, preview := none, projectId := none, projectlessWorkspace := none
    daybreakEnabled := none, gitInfo := none }

/-- A Fork of a Fork, listed before its sources. -/
def forkChain : List StoredThreadRecordV1 :=
  [sampleRecord "c" 0 (some ⟨"b", "turn"⟩), sampleRecord "b" 0 (some ⟨"a", "turn"⟩), sampleRecord "a" 0 none]

end Outcome

end CodexHost.Guarantees.ThreadList
