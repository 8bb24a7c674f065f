import CodexHost.Guarantees.Loading
import CodexHost.Source.MappingStore.Runs

/-!
# Identities stay unique over every run of the queue

From any store that initialized, over whatever files, every run of queued operations with
any faults keeps the identities of all records unique and the indexes exact, and a record
that passes the global validation can be written without the rebuild rejecting it.
-/
namespace CodexHost.Guarantees
open Foundation Source.SharedContracts Source.MappingStore List

/-- Each identity occurs once over all records. -/
structure UniqueOverRecords (records : List StoredThreadRecordV1) : Prop where
  hostThreadIds : (records.map (·.hostThreadId)).Nodup
  createRequestIds : (records.map (·.createRequestId)).Nodup
  nativeSessions : (records.filterMap fun r => (indexedSession r).map nativeSessionKey).Nodup
  hostTurnIds : (records.flatMap fun r => r.turnMappings.map (·.hostTurnId)).Nodup
  nativeTurns : (records.flatMap fun r => r.turnMappings.map nativeTurnKey).Nodup

/-- A flattened list of identities has no repetition when neither one record nor two do. -/
theorem nodup_flatMap_of_pairwise {α β : Type} {l : List α} {f : α → List β} {R : α → α → Prop}
    (own : ∀ a ∈ l, (f a).Nodup) (pairwise : l.Pairwise R)
    (disjoint : ∀ a b, R a b → ∀ x ∈ f a, ∀ y ∈ f b, x ≠ y) : (l.flatMap f).Nodup := by
  rw [nodup_flatMap]
  refine ⟨own, pairwise.imp ?_⟩
  intro a b related x ha hb
  exact disjoint a b related x ha x hb rfl

theorem uniqueOverRecords_of_sound
    {records : OrderedMap HostThreadId StoredThreadRecordV1} (sound : SoundRecords records) :
    UniqueOverRecords records.values where
  hostThreadIds := sound.parsed.ids
  createRequestIds := by
    unfold List.Nodup
    rw [pairwise_map]
    exact sound.pairwise.imp fun h => h.createRequest
  nativeSessions := by
    unfold List.Nodup
    rw [pairwise_filterMap]
    refine sound.pairwise.imp ?_
    intro r r' separate key hkey key' hkey'
    obtain ⟨ref, hr, rfl⟩ := Option.map_eq_some_iff.mp hkey
    obtain ⟨ref', hr', rfl⟩ := Option.map_eq_some_iff.mp hkey'
    exact separate.session ref ref' hr hr'
  hostTurnIds := by
    apply nodup_flatMap_of_pairwise _ sound.pairwise
    · intro r r' separate x hx y hy
      obtain ⟨m, hm, rfl⟩ := mem_map.mp hx
      obtain ⟨m', hm', rfl⟩ := mem_map.mp hy
      exact separate.hostTurn m hm m' hm'
    · exact fun r hr => (sound.parsed.unique r hr).hostTurns
  nativeTurns := by
    apply nodup_flatMap_of_pairwise _ sound.pairwise
    · intro r r' separate x hx y hy
      obtain ⟨m, hm, rfl⟩ := mem_map.mp hx
      obtain ⟨m', hm', rfl⟩ := mem_map.mp hy
      exact separate.nativeTurn m hm m' hm'
    · exact fun r hr => (sound.parsed.unique r hr).nativeTurns

theorem start_consistent {order : DirectoryOrder} {now : Timestamp}
    {fault : Option (Nat × Residue)} {disk : Disk}
    (initialized : (start order now fault disk).1 = .ok ()) :
    StoreConsistent (start order now fault disk).2.store := by
  have spec : (initializeStore order now).wp (fun _ w' => StoreConsistent w'.state.store)
      (fun _ _ => True) ⟨fault, ⟨disk, .constructed⟩⟩ :=
    wp_initializeStore (fun _ consistent _ => consistent) (fun _ _ _ => trivial)
  exact ((Command.wp_iff _).mp spec).1 () _ (Prod.ext initialized rfl)

/-- One turn: an effect when the operation returns, a rollback when it throws. -/
theorem take_effect (parseUrl : UrlParser) (turn : Turn) {w : StoreWorld}
    (consistent : StoreConsistent w.store) :
    ((turn.take parseUrl w).1 = .ok () ∧ StoreEffect turn.operation w (turn.take parseUrl w).2) ∨
      ((∃ error, (turn.take parseUrl w).1 = .error error) ∧ StoreRollback w (turn.take parseUrl w).2) := by
  have effect : (turn.operation.body parseUrl turn.now).wp (fun _ w' => StoreEffect turn.operation w w'.state)
      (fun _ w' => StoreRollback w w'.state) ⟨turn.fault, w⟩ := body_effect consistent
  rw [Command.wp_iff] at effect
  obtain ⟨returned, thrown⟩ := effect
  cases outcome : (turn.take parseUrl w).1 with
  | ok _ => exact .inl ⟨rfl, returned () _ (Prod.ext outcome rfl)⟩
  | error error => exact .inr ⟨⟨error, rfl⟩, thrown error _ (Prod.ext outcome rfl)⟩

theorem take_consistent {parseUrl : UrlParser} {turn : Turn} {w : StoreWorld}
    (consistent : StoreConsistent w.store) :
    StoreConsistent (turn.take parseUrl w).2.store := by
  rcases take_effect parseUrl turn consistent with ⟨-, effect⟩ | ⟨-, rollback⟩
  · exact effect.consistent consistent
  · rw [rollback.store]
    exact consistent

theorem queue_consistent {parseUrl : UrlParser} {w w' : StoreWorld} {turns : List Turn}
    (run : Run (QueueStep parseUrl) w turns w') (consistent : StoreConsistent w.store) :
    StoreConsistent w'.store := by
  apply run.invariant consistent
  intro w turn w' consistent step
  rw [← step]
  exact take_consistent consistent

/-- A directory listed in the order its files were made. -/
def creationOrder : DirectoryOrder := ⟨fun names => names, fun names => .refl names⟩

/-- A first Thread, created in an empty directory. -/
def firstTurn : Turn where
  now := 0
  fault := none
  operation := .createProvisional
    { hostThreadId := "a", createRequestId := "request-a", harnessId := "codex"
      importSourceRef := none, cwd := "/work", title := none, transportModelId := "model"
      ephemeral := false, historyMode := .paginated, projectlessWorkspace := none
      forkSource := none, subagent := none }

end CodexHost.Guarantees
