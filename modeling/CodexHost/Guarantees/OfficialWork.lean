import CodexHost.Source.HostRuntime.OfficialRuntimeOwner

/-!
# Tokens of official work

A token of the gate belongs to an operation that will call `finish` itself, or to the entry that
`#send` has registered under the request ID. Every event keeps the two apart, except a failed
send: it deletes the entry under its ID without asking whose entry it is.
-/
namespace CodexHost.Guarantees.OfficialWork
open Foundation Source.HostRuntime.OfficialRuntimeOwner OrderedMap List Function State Nat

variable {s s' s'' : State}

/-- The operation holds its token itself: it has no entry among the pending requests. -/
def holds (operation : Operation) : Bool :=
  match operation.stage with
  | .connection _ | .restore .. | .request .. => true
  | .send .. | .done => false

structure Accounts (s : State) : Prop where
  nodup : s.requests.Nodup
  fresh : ∀ n, s.operationCount ≤ n → s.operation n = none
  held : ∀ n operation, s.operation n = some operation → holds operation → n ∈ s.requests
  entry : ∀ c id pending, (s.client c).pending.get? id = some pending →
    pending.token ∈ s.requests ∧ ∃ operation, s.operation pending.token = some operation ∧
      operation.client = c ∧ operation.id = some id ∧ holds operation = false
  owner : ∀ n ∈ s.requests, ∃ operation, s.operation n = some operation ∧ (holds operation ∨
    ∃ id pending, (s.client operation.client).pending.get? id = some pending ∧ pending.token = n)
  sends : ∀ n operation, s.operation n = some operation →
    ∀ runtime written, operation.stage = .send runtime written → operation.id.isSome

/-- A later state: the tokens that it has and the earlier one has not are new. -/
structure Kept (s s' : State) : Prop where
  accounts : Accounts s'
  count : s.operationCount ≤ s'.operationCount
  requests : ∀ n ∈ s'.requests, n ∈ s.requests ∨ s.operationCount ≤ n

theorem Kept.trans (first : Kept s s') (second : Kept s' s'') : Kept s s'' := by
  refine ⟨second.accounts, Nat.le_trans first.count second.count, fun n member => ?_⟩
  have count := first.count
  rcases second.requests n member with before | new
  · exact first.requests n before
  · exact .inr (by omega)

/-- The tokens, the operations and the pending requests are the same. -/
structure SameLedger (s s' : State) : Prop where
  requests : s'.requests = s.requests
  operation : s'.operation = s.operation
  count : s'.operationCount = s.operationCount
  pending : ∀ c, (s'.client c).pending = (s.client c).pending

theorem SameLedger.refl (s : State) : SameLedger s s := ⟨rfl, rfl, rfl, fun _ => rfl⟩

theorem SameLedger.trans (first : SameLedger s s') (second : SameLedger s' s'') : SameLedger s s'' :=
  ⟨second.requests.trans first.requests, second.operation.trans first.operation,
    second.count.trans first.count, fun c => (second.pending c).trans (first.pending c)⟩

theorem SameLedger.kept (same : SameLedger s s') (sound : Accounts s) : Kept s s' := by
  obtain ⟨nodup, fresh, held, entry, owner, sends⟩ := sound
  obtain ⟨requests, operation, count, pending⟩ := same
  refine ⟨⟨?_, ?_, ?_, ?_, ?_, ?_⟩, Nat.le_of_eq count.symm, ?_⟩
  · rwa [requests]
  · rwa [operation, count]
  · rwa [operation, requests]
  · intro c
    rw [pending c, requests, operation]
    exact entry c
  · rw [requests, operation]
    intro n member
    obtain ⟨operation, is, how⟩ := owner n member
    exact ⟨operation, is, by rwa [pending]⟩
  · rwa [operation]
  · rw [requests]
    exact fun n member => .inl member

theorem setClient_client (s : State) (c : Nat) (change : Client → Client) (c' : Nat) :
    (s.setClient c change).client c' = if c' = c then change (s.client c) else s.client c' := by
  simp only [setClient, update_apply]

theorem setClient_same (s : State) (c : Nat) (change : Client → Client)
    (keeps : ∀ client, (change client).pending = client.pending) :
    SameLedger s (s.setClient c change) := by
  refine ⟨rfl, rfl, rfl, fun c' => ?_⟩
  rw [setClient_client]
  split
  · next same => rw [keeps, same]
  · rfl

theorem connection_same (s : State) (c : Nat) : SameLedger s (s.connection c).1 := by
  unfold connection
  split
  · exact .refl s
  · split
    · exact .refl s
    · split
      · exact .refl s
      · exact .refl s
      · exact ⟨rfl, rfl, rfl, (setClient_same s c
          ({ · with connecting := some s.connectingCount }) fun _ => rfl).pending⟩

theorem connected_same (s : State) (number : Nat) (ok : Bool) : SameLedger s (s.connected number ok) := by
  unfold connected
  simp only
  split
  · exact ⟨rfl, rfl, rfl, (setClient_same s (s.connecting number).client
      ({ · with runtime := some s.runtimeCount }) fun _ => rfl).pending⟩
  · exact ⟨rfl, rfl, rfl, fun _ => rfl⟩

theorem setThread_same (s : State) (c : Nat) (thread : String)
    (subscription : Option Subscription) : SameLedger s (s.setThread c thread subscription) :=
  setClient_same s c _ fun _ => rfl

theorem restored_same (s : State) (number : Nat) (ok : Bool) : SameLedger s (s.restored number ok) := by
  obtain ⟨requests, operation, count, pending⟩ := setThread_same s (s.restoring number).client
    (s.restoring number).thread _
  exact ⟨requests, operation, count, pending⟩

theorem restoreForgotten_same (s : State) (number : Nat) : SameLedger s (s.restoreForgotten number) :=
  setThread_same s ..

theorem forgetThread_same (s : State) (c : Nat) (method : String) (thread : Option String) :
    SameLedger s (s.forgetThread c method thread) := by
  unfold forgetThread
  split
  · split
    · exact setThread_same s ..
    · exact .refl s
  · exact .refl s

theorem remember_same (s : State) (c : Nat) (method : String) (thread : Option String)
    (response : Response) : SameLedger s (s.remember c method thread response) := by
  unfold remember
  have forgot := forgetThread_same s c method thread
  split
  · exact .refl s
  · split
    · split
      · next id _ _ =>
        obtain ⟨requests, operation, count, pending⟩ := forgot.trans (setThread_same _ c id
          (some ⟨(s.forgetThread c method thread).subscriptionCount,
            (s.forgetThread c method thread).generation, none⟩))
        exact ⟨requests, operation, count, pending⟩
      · exact forgot
    · exact forgot

theorem restore_same (s : State) (c runtime : Nat) (method : String) (thread : Option String) :
    SameLedger s (s.restore c runtime method thread).1 := by
  unfold restore
  split
  · exact .refl s
  · split
    · exact .refl s
    · split
      · exact .refl s
      · split
        · exact .refl s
        · split
          · exact .refl s
          · exact ⟨rfl, rfl, rfl, (setThread_same s c _ _).pending⟩

section Changes
variable {n : Nat} {operation : Operation}

section
variable (sound : Accounts s)
include sound

variable (is : s.operation n = some operation)
include is

theorem Accounts.own_entry {c : Nat} {id : RequestId}
    {pending : Pending} (present : (s.client c).pending.get? id = some pending) (token : pending.token = n) :
    n ∈ s.requests ∧ operation.client = c ∧ operation.id = some id ∧ holds operation = false := by
  obtain ⟨member, other, is', rest⟩ := sound.entry c id pending present
  rw [token] at member is'
  cases is.symm.trans is'
  exact ⟨member, rest⟩

/-- The stage of one operation changes, with its token and its entry; the others keep theirs. -/
theorem Accounts.change {stage : Stage}
    (operations : s'.operation = update s.operation n (some { operation with stage := stage }))
    (count : s'.operationCount = s.operationCount) (nodup : s'.requests.Nodup)
    (requests : ∀ m ∈ s'.requests, m ∈ s.requests) (others : ∀ m ∈ s.requests, m ≠ n → m ∈ s'.requests)
    (pending : ∀ c id pending, pending.token ≠ n →
      ((s'.client c).pending.get? id = some pending ↔ (s.client c).pending.get? id = some pending))
    (held : holds { operation with stage := stage } → n ∈ s'.requests)
    (entry : ∀ c id pending, (s'.client c).pending.get? id = some pending → pending.token = n →
      n ∈ s'.requests ∧ operation.client = c ∧ operation.id = some id ∧
        holds { operation with stage := stage } = false)
    (owner : n ∈ s'.requests → holds { operation with stage := stage } ∨
      ∃ id pending, (s'.client operation.client).pending.get? id = some pending ∧ pending.token = n)
    (sends : ∀ runtime written, stage = .send runtime written → operation.id.isSome) : Kept s s' := by
  have at' (m : Nat) : s'.operation m =
      if m = n then some { operation with stage := stage } else s.operation m := by
    rw [operations, update_apply]
  refine ⟨⟨nodup, fun m above => ?_, fun m other present holding => ?_, fun c id entered present => ?_,
    fun m member => ?_, fun m other present => ?_⟩, Nat.le_of_eq count.symm,
    fun m member => .inl (requests m member)⟩
  · have absent := sound.fresh m (count ▸ above)
    rw [at', if_neg]
    · exact absent
    · rintro rfl
      cases is.symm.trans absent
  · rw [at'] at present
    split at present
    · next same =>
      cases present
      rw [same]
      exact held holding
    · next apart => exact others m (sound.held m other present holding) apart
  · by_cases own : entered.token = n
    · obtain ⟨member, rest⟩ := entry c id entered present own
      rw [own, at', if_pos rfl]
      exact ⟨member, _, rfl, rest⟩
    · obtain ⟨member, other, present', rest⟩ := sound.entry c id entered ((pending c id entered own).mp present)
      exact ⟨others _ member own, other, by rwa [at', if_neg own], rest⟩
  · rw [at']
    split
    · next same =>
      subst same
      exact ⟨_, rfl, owner member⟩
    · next apart =>
      obtain ⟨other, present, how⟩ := sound.owner m (requests m member)
      refine ⟨other, present, how.imp_right ?_⟩
      rintro ⟨id, entered, found, token⟩
      exact ⟨id, entered, (pending _ id entered (token ▸ apart)).mpr found, token⟩
  · rw [at'] at present
    split at present
    · cases present
      exact sends
    · exact sound.sends m other present

/-- A new stage that needs the token as much as the old one. -/
theorem setStage_kept {stage : Stage}
    (same : holds { operation with stage := stage } = holds operation)
    (sent : ∀ runtime written, stage = .send runtime written → operation.id.isSome) :
    Kept s (s.setStage n stage) := by
  have operations : (s.setStage n stage).operation = update s.operation n (some { operation with stage := stage }) := by
    simp [setStage, is]
  refine sound.change is operations rfl sound.nodup (fun _ => id) (fun _ member _ => member)
    (fun _ _ _ _ => .rfl) (fun holding => ?_) (fun c id pending present token => ?_) (fun member => ?_) sent
  · exact sound.held n operation is (same ▸ holding)
  · obtain ⟨member, client, key, idle⟩ := sound.own_entry is present token
    exact ⟨member, client, key, same.trans idle⟩
  · obtain ⟨other, present, how⟩ := sound.owner n member
    cases is.symm.trans present
    rwa [same]

theorem finish_kept
    (holding : holds operation) : Kept s (s.finish n) := by
  have operations : (s.finish n).operation = update s.operation n (some { operation with stage := .done }) := by
    simp [finish, setStage, release, is]
  refine sound.change is operations rfl (sound.nodup.erase n) (fun _ => mem_of_mem_erase)
    (fun _ member apart => (mem_erase_of_ne apart).mpr member) (fun _ _ _ _ => .rfl) nofun
    (fun c id pending present token => ?_) (fun member => ?_) nofun
  · rw [(sound.own_entry is present token).2.2.2] at holding
    cases holding
  · exact absurd member sound.nodup.not_mem_erase

end

theorem setClient_pending_delete (s : State) (c : Nat) (id : RequestId) (c' : Nat) (id' : RequestId) :
    ((s.setClient c (fun client => { client with
      pending := client.pending.delete id })).client c').pending.get? id' =
        if c' = c ∧ id' = id then none else (s.client c').pending.get? id' := by
  rw [setClient_client]
  by_cases client : c' = c
  · subst client
    rw [if_pos rfl]
    by_cases key : id' = id
    · subst key
      simp
    · simp [key, get?_delete_of_ne _ key]
  · simp [client]

theorem remove_kept (sound : Accounts s) (is : s.operation n = some operation)
    (idle : holds operation = false) {id : RequestId} (key : operation.id = some id)
    (own : ∀ pending, (s.client operation.client).pending.get? id = some pending → pending.token = n) :
    Kept s ((s.setClient operation.client (fun client => { client with
      pending := client.pending.delete id })).release n) := by
  have left := setClient_pending_delete s operation.client id
  have operations : s.operation = update s.operation n (some { operation with stage := operation.stage }) := by
    rw [← is, update_eq_self]
  refine sound.change is operations rfl (sound.nodup.erase n) (fun _ => mem_of_mem_erase)
    (fun _ member apart => (mem_erase_of_ne apart).mpr member) (fun c id' pending apart => ?_)
    (fun holding => ?_) (fun c id' pending present token => ?_) (fun member => ?_) (sound.sends n operation is)
  · refine (congrArg (· = some pending) (left c id')).to_iff.trans ?_
    split
    · next same =>
      refine ⟨by rintro ⟨⟩, fun found => absurd (own pending ?_) apart⟩
      rwa [same.1, same.2] at found
    · exact .rfl
  · exact absurd holding (by simp [idle])
  · have present := (left c id').symm.trans present
    split at present
    · cases present
    · next apart =>
      obtain ⟨-, client, key', -⟩ := sound.own_entry is present token
      exact absurd ⟨client.symm, Option.some_inj.mp (key'.symm.trans key)⟩ apart
  · exact absurd member sound.nodup.not_mem_erase

theorem mem_tokens {c : Nat} {token : Nat} : token ∈ (s.client c).pending.values.map (·.token) ↔
      ∃ id pending, (s.client c).pending.get? id = some pending ∧ pending.token = token := by
  simp only [mem_map, mem_values_iff]
  constructor
  · rintro ⟨pending, ⟨id, found⟩, same⟩
    exact ⟨id, pending, found, same⟩
  · rintro ⟨id, pending, found, same⟩
    exact ⟨pending, ⟨id, found⟩, same⟩

theorem retire_client (s : State) (retired : List Nat) (c : Nat) : ((s.retire retired).client c).pending =
      if c ∈ retired then .empty else (s.client c).pending := by
  simp only [retire]
  split <;> rfl

theorem retire_requests (s : State) (retired : List Nat) (token : Nat) :
    token ∈ (s.retire retired).requests ↔ token ∈ s.requests ∧ ¬ ∃ c ∈ retired,
      ∃ id pending, (s.client c).pending.get? id = some pending ∧ pending.token = token := by
  simp only [retire, mem_filter, decide_eq_true_eq, mem_flatMap, mem_tokens]

theorem retire_kept (sound : Accounts s) (retired : List Nat) : Kept s (s.retire retired) := by
  obtain ⟨nodup, fresh, held, entry, owner, sends⟩ := sound
  refine ⟨⟨nodup.filter _, fresh, fun m other present holding => ?_,
    fun c id pending present => ?_, fun m member => ?_, sends⟩, Nat.le_refl _,
    fun m member => .inl ((retire_requests s retired m).mp member).1⟩
  · refine (retire_requests s retired m).mpr ⟨held m other present holding, ?_⟩
    rintro ⟨c, -, id, pending, found, rfl⟩
    obtain ⟨-, operation, is, -, -, idle⟩ := entry c id pending found
    have same : operation = other := Option.some_inj.mp (is.symm.trans present)
    rw [← same, idle] at holding
    cases holding
  · rw [retire_client] at present
    split at present
    · simp at present
    · next outside =>
      obtain ⟨member, other, present', client, rest⟩ := entry c id pending present
      refine ⟨(retire_requests s retired _).mpr ⟨member, ?_⟩, other, present', client, rest⟩
      rintro ⟨c', inside, id', pending', found, token⟩
      obtain ⟨-, operation, is, client', -⟩ := entry c' id' pending' found
      rw [token, present'] at is
      cases is
      rw [← client', client] at inside
      exact outside inside
  · obtain ⟨member, apart⟩ := (retire_requests s retired m).mp member
    obtain ⟨other, present, how⟩ := owner m member
    refine ⟨other, present, how.imp_right ?_⟩
    rintro ⟨id, pending, found, token⟩
    have outside : other.client ∉ retired := fun inside => apart ⟨_, inside, id, pending, found, token⟩
    exact ⟨id, pending, by rwa [retire_client, if_neg outside], token⟩

/-- `#send` registers its request under an ID that is free. -/
theorem register_kept (sound : Accounts s) (is : s.operation n = some operation)
    (holding : holds operation) {id : RequestId} (key : operation.id = some id)
    (free : (s.client operation.client).pending.has id = false) (pending : Pending)
    (token : pending.token = n) (runtime : Nat) (written : Option Bool) :
    Kept s ((s.setClient operation.client (fun client => { client with
      pending := client.pending.set id pending })).setStage n (.send runtime written)) := by
  have absent : (s.client operation.client).pending.get? id = none := by simpa using free
  have left : ∀ c id', ((s.setClient operation.client (fun client => { client with
      pending := client.pending.set id pending })).client c).pending.get? id' =
      if c = operation.client ∧ id' = id then some pending
        else (s.client c).pending.get? id' := by
    intro c id'
    rw [setClient_client]
    by_cases client : c = operation.client
    · simp [client, get?_set]
    · simp [client]
  have operations : ((s.setClient operation.client (fun client => { client with
      pending := client.pending.set id pending })).setStage n (.send runtime written)).operation =
        update s.operation n (some { operation with stage := .send runtime written }) := by
    simp [setStage, setClient, is]
  refine sound.change is operations rfl sound.nodup (fun _ member => member)
    (fun _ member _ => member) (fun c id' entered apart => ?_) (fun holding => by cases holding)
    (fun c id' entered present own => ?_)
    (fun _ => .inr ⟨id, pending, (left _ _).trans (if_pos ⟨rfl, rfl⟩), token⟩) fun _ _ _ => by simp [key]
  · refine (congrArg (· = some entered) (left c id')).to_iff.trans ?_
    split
    · next same =>
      rw [same.1, same.2, absent]
      refine ⟨fun found => ?_, by rintro ⟨⟩⟩
      cases found
      exact absurd token apart
    · exact .rfl
  · have present := (left c id').symm.trans present
    split at present
    · next same => exact ⟨sound.held n operation is holding, same.1.symm, by rw [same.2]; exact key, rfl⟩
    · rw [(sound.own_entry is present own).2.2.2] at holding
      cases holding

theorem admit_kept (sound : Accounts s) (c : Nat) (id : Option RequestId) (method : String)
    (thread : Option String) (steps : s.admit c id method thread = some s') : Kept s s' := by
  unfold State.admit at steps
  split at steps
  · cases steps
  · obtain ⟨requests, same, count, pending⟩ := connection_same s c
    obtain ⟨nodup, fresh, held, entry, owner, sends⟩ := sound
    have new : s.operationCount ∉ s.requests := by
      intro member
      obtain ⟨operation, is, -⟩ := owner _ member
      rw [fresh _ (Nat.le_refl _)] at is
      cases is
    cases steps
    have other : ∀ m operation, s.operation m = some operation → m ≠ s.operationCount := by
      rintro m operation is rfl
      rw [fresh _ (Nat.le_refl _)] at is
      cases is
    refine ⟨⟨?_, fun m above => ?_, fun m operation present holding => ?_,
      fun c' id' pending' present => ?_, fun m member => ?_, fun m operation present => ?_⟩,
      Nat.le_succ _, fun m member => ?_⟩
    · exact nodup_append.mpr ⟨nodup, nodup_singleton _, by
        rintro m member m' new' rfl
        exact new (mem_singleton.mp new' ▸ member)⟩
    · have above : s.operationCount + 1 ≤ m := above
      simp only [update_apply]
      rw [if_neg (by omega)]
      exact fresh m (by omega)
    · simp only [update_apply] at present
      split at present
      · next eq => exact mem_append_right _ (mem_singleton.mpr eq)
      · exact mem_append_left _ (held m operation present holding)
    · have present : (((s.connection c).1.client c').pending.get? id') = some pending' := present
      rw [pending] at present
      obtain ⟨member, operation, is, rest⟩ := entry c' id' pending' present
      refine ⟨mem_append_left _ member, operation, ?_, rest⟩
      simp only [update_apply]
      rwa [if_neg (other _ operation is)]
    · rcases mem_append.mp member with before | last
      · obtain ⟨operation, is, how⟩ := owner m before
        refine ⟨operation, ?_, how.imp_right ?_⟩
        · simp only [update_apply]
          rwa [if_neg (other _ operation is)]
        · rintro ⟨id', pending', found, token⟩
          exact ⟨id', pending', (congrArg (·.get? id') (pending _)).trans found, token⟩
      · rw [mem_singleton.mp last]
        exact ⟨_, update_self .., .inl rfl⟩
    · simp only [update_apply] at present
      split at present
      · cases present
        nofun
      · exact sends m operation present
    · rcases mem_append.mp member with before | last
      · exact .inl before
      · exact .inr (Nat.le_of_eq (mem_singleton.mp last).symm)

end Changes

end CodexHost.Guarantees.OfficialWork
