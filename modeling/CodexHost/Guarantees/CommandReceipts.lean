import CodexHost.Foundation.Chronicle
import CodexHost.Foundation.JsonNumber
import CodexHost.Foundation.Transition
import CodexHost.Source.HostRuntime.ClientCommandReceipts

/-!
# One submission of a key at a time

An entry stands in the table from the submission it was made for until that is answered as not
submitted, or until it is settled and makes room. So the handlers of a submission find the entry of
their own key, and a key without an entry has no submission that might still count.
-/
namespace CodexHost.Guarantees.CommandReceipts
open Foundation Source.HostRuntime.ClientCommandReceipts OrderedMap List Function CommandReceipts JsonNumber

section Canonical
variable {N : Type}

mutual

/-- Equal up to the order of object keys. -/
def SameUpToOrder : Json N → Json N → Prop
  | .array items, .array items' => SameItems items items'
  | .object members, .object members' => members.length = members'.length ∧ SameMembers members members'
  | value, value' => value = value'

def SameItems : List (Json N) → List (Json N) → Prop
  | [], [] => True
  | item :: items, item' :: items' => SameUpToOrder item item' ∧ SameItems items items'
  | _, _ => False

/-- Each member has its counterpart. -/
def SameMembers : List (Utf16 × Json N) → List (Utf16 × Json N) → Prop
  | [], _ => True
  | (key, value) :: members, members' =>
    (∃ value', (key, value') ∈ members' ∧ SameUpToOrder value value') ∧ SameMembers members members'

end

theorem sorted_perm (members : List (Utf16 × Json N)) : (sorted members).Perm members := by
  have split : ∀ members : List (Utf16 × Json N), (ownMembers members).Perm members := fun members =>
    ((perm_insertionSort _ _).append_right _).trans (filter_append_perm _ members)
  exact (split _).trans (perm_insertionSort _ members)

theorem canonicalMembers_eq (members : List (Utf16 × Json N)) :
    canonicalMembers members = members.map fun member => (member.1, canonical member.2) := by
  induction members with
  | nil => rfl
  | cons member members ih => rw [canonicalMembers, ih, map_cons]

mutual

theorem same_of_canonical : ∀ {value value' : Json N}, canonical value = canonical value' →
    SameUpToOrder value value'
  | .array items, value', same => by
    cases value' <;> simp only [canonical, reduceCtorEq, Json.array.injEq] at same
    exact items_of_canonical same
  | .object members, value', same => by
    cases value' <;> simp only [canonical, reduceCtorEq, Json.object.injEq] at same
    next members' =>
    have perm : (canonicalMembers members).Perm (canonicalMembers members') :=
      ((sorted_perm _).symm.trans (List.Perm.of_eq same)).trans (sorted_perm _)
    refine ⟨?_, members_of_canonical fun member within => perm.mem_iff.mp within⟩
    simpa [canonicalMembers_eq] using perm.length_eq
  | .null, value', same => by
    cases value' <;> simp only [canonical, reduceCtorEq] at same
    rfl
  | .bool _, value', same => by
    cases value' <;> simp only [canonical, reduceCtorEq] at same
    exact same
  | .number _, value', same => by
    cases value' <;> simp only [canonical, reduceCtorEq] at same
    exact same
  | .string _, value', same => by
    cases value' <;> simp only [canonical, reduceCtorEq] at same
    exact same

theorem items_of_canonical : ∀ {items items' : List (Json N)},
    canonicalItems items = canonicalItems items' → SameItems items items'
  | [], [], _ => trivial
  | [], _ :: _, same => by cases same
  | _ :: _, [], same => by cases same
  | _ :: _, _ :: _, same => by
    rw [canonicalItems, canonicalItems, List.cons.injEq] at same
    exact ⟨same_of_canonical same.1, items_of_canonical same.2⟩

theorem members_of_canonical : ∀ {members members' : List (Utf16 × Json N)},
    (∀ member ∈ canonicalMembers members, member ∈ canonicalMembers members') →
    SameMembers members members'
  | [], _, _ => trivial
  | (key, value) :: members, members', within => by
    rw [canonicalMembers, List.forall_mem_cons] at within
    refine ⟨?_, members_of_canonical within.2⟩
    have counterpart := within.1
    rw [canonicalMembers_eq, mem_map] at counterpart
    obtain ⟨⟨key', value'⟩, member, same⟩ := counterpart
    rw [Prod.mk.injEq] at same
    obtain ⟨rfl, same⟩ := same
    exact ⟨value', member, same_of_canonical same.symm⟩

end

variable {format : NumberFormat N}

theorem regularMembers_iff {members : List (Utf16 × Json N)} :
    Json.RegularMembers format members ↔ ∀ member ∈ members, Json.Regular format member.2 := by
  induction members with
  | nil => simp [Json.RegularMembers]
  | cons member members ih => rw [Json.RegularMembers, ih, forall_mem_cons]

mutual

theorem regular_canonical : ∀ {value : Json N}, Json.Regular format value →
    Json.Regular format (canonical value)
  | .array _, regular => regularItems_canonical regular
  | .object members, regular => by
    refine ⟨?_, ?_⟩
    · rw [((sorted_perm _).map Prod.fst).nodup_iff, canonicalMembers_eq, map_map]
      exact regular.1
    · rw [regularMembers_iff]
      intro member within
      exact regularMembers_iff.mp (regularMembers_canonical regular.2) member
        ((sorted_perm _).mem_iff.mp within)
  | .null, _ => trivial
  | .bool _, _ => trivial
  | .number _, regular => regular
  | .string _, _ => trivial

theorem regularItems_canonical : ∀ {items : List (Json N)}, Json.RegularItems format items →
    Json.RegularItems format (canonicalItems items)
  | [], _ => trivial
  | _ :: _, regular => ⟨regular_canonical regular.1, regularItems_canonical regular.2⟩

theorem regularMembers_canonical : ∀ {members : List (Utf16 × Json N)},
    Json.RegularMembers format members → Json.RegularMembers format (canonicalMembers members)
  | [], _ => trivial
  | _ :: _, regular => ⟨regular_canonical regular.1, regularMembers_canonical regular.2⟩

end

/-- The canonical text determines the parameters up to the order of their keys. -/
theorem same_of_canonicalText {params params' : Params format}
    (same : canonicalText format params = canonicalText format params') :
    SameUpToOrder (.object params.members) (.object params'.members) := by
  have back := Json.parse_write format (regular_canonical params.regular)
  have back' := Json.parse_write format (regular_canonical params'.regular)
  rw [canonicalText, canonicalText] at same
  rw [same, back', Option.some.injEq] at back
  exact same_of_canonical back.symm

end Canonical

section Rules
variable {N : Type} {format : NumberFormat N} (digest : List Char → String)

/-- The submission counts no more: it was answered as not submitted, or its entry made room. -/
def Released (log : List (Record format)) (key : Utf16) (submission : Nat) : Prop :=
  (∃ code message, (code = -32602 ∨ code = -32072) ∧
    .settled key submission (.reply (.error code message)) ∈ log) ∨
  ∃ other, other ≠ key ∧ .evicted key submission other ∈ log

variable {submission : Nat}

theorem Released.later {log more : List (Record format)} {key : Utf16}
    (released : Released log key submission) : Released (log ++ more) key submission := by
  rcases released with ⟨code, message, is, member⟩ | ⟨other, different, member⟩
  · exact .inl ⟨code, message, is, mem_append_left more member⟩
  · exact .inr ⟨other, different, mem_append_left more member⟩

/-- What each record says about the records before it. -/
def Rule (before : List (Record format)) : Record format → Prop
  | .submitted key _ => ∀ earlier, .submitted key earlier ∈ before → Released before key earlier
  | .evicted key submission _ => ∃ outcome, .settled key submission outcome ∈ before
  | .ran key params (.result submission) => ∀ params', .ran key params' (.result submission) ∈ before →
    fingerprint format digest params' = fingerprint format digest params
  | _ => True

structure Inv (s : State format) : Prop where
  small : s.entries.entries.length ≤ MAX_ENTRIES
  numbered : ∀ key submission, .submitted key submission ∈ s.log → submission < s.next
  held : ∀ submission task, s.inFlight submission = some task →
    ∃ entry, s.entries.get? task.key = some entry ∧ entry.result = submission ∧ entry.settled = false
  entry : ∀ key entry, s.entries.get? key = some entry → .submitted key entry.result ∈ s.log ∧
    (entry.settled = true → ∃ outcome, .settled key entry.result outcome ∈ s.log)
  gone : ∀ key submission, .submitted key submission ∈ s.log → Released s.log key submission ∨
    ∃ entry, s.entries.get? key = some entry ∧ entry.result = submission
  ran : ∀ key params submission, .ran key params (.result submission) ∈ s.log →
    .submitted key submission ∈ s.log ∧ ∀ entry, s.entries.get? key = some entry →
      entry.result = submission → entry.fingerprint = fingerprint format digest params
  rules : Follows (Rule digest) s.log

variable {digest} {s s' : State format} {key : Utf16} {params : Params format}

theorem Inv.initial : Inv digest (initial format) where
  small := Nat.zero_le _
  numbered _ _ member := by cases member
  held _ _ is := by cases is
  entry _ _ is := by cases is
  gone _ _ member := by cases member
  ran _ _ _ member := by cases member
  rules := follows_nil

/-- The number of the next submission is not in use. -/
theorem Inv.result_lt (inv : Inv digest s) {entry : Receipt} (is : s.entries.get? key = some entry) :
    entry.result < s.next := inv.numbered _ _ (inv.entry _ _ is).1

/-- A record of a call that answers an error, or with the entry of its key. -/
theorem Inv.answered (inv : Inv digest s) {answer : Answer}
    (known : ∀ submission, answer = .result submission → ∃ entry, s.entries.get? key = some entry ∧
      entry.result = submission ∧ entry.fingerprint = fingerprint format digest params) :
    Inv digest { s with log := s.log ++ [.ran key params answer] } where
  small := inv.small
  numbered other submission member := by
    simp only [mem_append, mem_singleton, reduceCtorEq, or_false] at member
    exact inv.numbered other submission member
  held := inv.held
  entry other entry is := by
    obtain ⟨submitted, settled⟩ := inv.entry other entry is
    refine ⟨mem_append_left _ submitted, fun done => ?_⟩
    obtain ⟨outcome, member⟩ := settled done
    exact ⟨outcome, mem_append_left _ member⟩
  gone other submission member := by
    simp only [mem_append, mem_singleton, reduceCtorEq, or_false] at member
    exact (inv.gone other submission member).imp_left Released.later
  ran other params' submission member := by
    simp only [mem_append, mem_singleton, Record.ran.injEq] at member
    rcases member with member | ⟨rfl, rfl, rfl⟩
    · obtain ⟨submitted, prints⟩ := inv.ran other params' submission member
      exact ⟨mem_append_left _ submitted, prints⟩
    · obtain ⟨entry, is, rfl, print⟩ := known submission rfl
      refine ⟨mem_append_left _ (inv.entry _ _ is).1, fun entry' is' _ => ?_⟩
      rw [is, Option.some.injEq] at is'
      exact is' ▸ print
  rules := by
    refine inv.rules.snoc ?_
    cases answer with
    | error code message => trivial
    | result submission =>
      intro params' member
      obtain ⟨entry, is, same, print⟩ := known submission rfl
      rw [← print]
      exact ((inv.ran _ _ _ member).2 entry is same).symm

/-- A settled entry leaves the table for another key. -/
def evict (s : State format) (oldest : Utf16 × Receipt) (forKey : Utf16) : State format :=
  { s with
    entries := s.entries.delete oldest.1
    log := s.log ++ [.evicted oldest.1 oldest.2.result forKey] }

theorem Inv.evict (inv : Inv digest s) {oldest : Utf16 × Receipt}
    (is : s.entries.get? oldest.1 = some oldest.2) (settled : oldest.2.settled = true)
    (other : key ≠ oldest.1) : Inv digest (evict s oldest key) where
  small := (length_filter_le _ _).trans inv.small
  numbered name submission member := by
    simp only [CommandReceipts.evict, mem_append, mem_singleton, reduceCtorEq, or_false] at member
    exact inv.numbered name submission member
  held submission task flying := by
    obtain ⟨entry, has, result, open_⟩ := inv.held submission task flying
    have apart : task.key ≠ oldest.1 := by
      intro same
      rw [same, is, Option.some.injEq] at has
      rw [← has, settled] at open_
      cases open_
    exact ⟨entry, by rw [CommandReceipts.evict, get?_delete_of_ne _ apart, has], result, open_⟩
  entry name entry has := by
    obtain ⟨submitted, done⟩ := inv.entry name entry (kept_of_delete has).2
    refine ⟨mem_append_left _ submitted, fun isSettled => ?_⟩
    obtain ⟨outcome, member⟩ := done isSettled
    exact ⟨outcome, mem_append_left _ member⟩
  gone name submission member := by
    simp only [CommandReceipts.evict, mem_append, mem_singleton, reduceCtorEq, or_false] at member
    rcases inv.gone name submission member with released | ⟨entry, has, result⟩
    · exact .inl released.later
    · by_cases here : name = oldest.1
      · refine .inl (.inr ⟨key, here ▸ other, mem_append_right _ ?_⟩)
        rw [here, is, Option.some.injEq] at has
        rw [mem_singleton, here, has, result]
      · exact .inr ⟨entry, by rw [CommandReceipts.evict, get?_delete_of_ne _ here, has], result⟩
  ran name params submission member := by
    simp only [CommandReceipts.evict, mem_append, mem_singleton, reduceCtorEq, or_false] at member
    obtain ⟨submitted, prints⟩ := inv.ran name params submission member
    exact ⟨mem_append_left _ submitted, fun entry has => prints entry (kept_of_delete has).2⟩
  rules := inv.rules.snoc ((inv.entry _ _ is).2 settled)

/-- A new submission of a key without an entry. -/
def submit (digest : List Char → String) (s : State format) (key : Utf16) (params : Params format) :
    State format :=
  { entries := entered format digest s.entries key params s.next
    inFlight := Function.update s.inFlight s.next (some ⟨key, .waiting⟩)
    next := s.next + 1
    log := s.log ++ [.submitted key s.next, .ran key params (.result s.next)] }

theorem get?_entered (digest : List Char → String) (entries : Entries) (key name : Utf16) (params : Params format) (submission : Nat) :
    ∃ entry, entry.result = submission ∧ entry.settled = false ∧
      entry.fingerprint = fingerprint format digest params ∧
      (entered format digest entries key params submission).get? name =
        if name = key then some entry else entries.get? name :=
  ⟨_, rfl, rfl, rfl, get?_set _ _ _ _⟩

theorem mem_submit {record : Record format} : record ∈ (submit digest s key params).log ↔
      record ∈ s.log ∨ record = .submitted key s.next ∨ record = .ran key params (.result s.next) := by
  simp [submit]

section
variable (inv : Inv digest s)
include inv

theorem Inv.submit (absent : s.entries.get? key = none)
    (room : s.entries.entries.length < MAX_ENTRIES) : Inv digest (submit digest s key params) where
  small := by
    have size := length_set s.entries key
      { fingerprint := fingerprint format digest params, result := s.next, settled := false,
        threadId := textMember params.members "threadId",
        clientId := textMember params.members "clientUserMessageId", turnId := none }
    have grows : (if s.entries.has key then 0 else 1) ≤ 1 := by split <;> omega
    rw [CommandReceipts.submit, entered, size]
    omega
  numbered name submission member := by
    rw [mem_submit] at member
    change submission < s.next + 1
    rcases member with member | member | member
    · have below := inv.numbered name submission member
      omega
    · cases member
      omega
    · cases member
  held submission task flying := by
    obtain ⟨entry, result, open_, -, lookup⟩ :=
      get?_entered digest s.entries key task.key params s.next
    rw [CommandReceipts.submit] at flying ⊢
    dsimp only at flying ⊢
    by_cases new : submission = s.next
    · subst new
      rw [update_self, Option.some.injEq] at flying
      subst flying
      exact ⟨entry, by rw [lookup, if_pos rfl], result, open_⟩
    · rw [update_of_ne new] at flying
      obtain ⟨old, has, isOld, openOld⟩ := inv.held submission task flying
      have apart : task.key ≠ key := by
        intro same
        rw [same, absent] at has
        cases has
      exact ⟨old, by rw [lookup, if_neg apart, has], isOld, openOld⟩
  entry name entry has := by
    obtain ⟨new, result, open_, -, lookup⟩ :=
      get?_entered digest s.entries key name params s.next
    rw [CommandReceipts.submit, lookup] at has
    simp only [mem_submit]
    by_cases here : name = key
    · rw [if_pos here, Option.some.injEq] at has
      subst has
      rw [here, result, open_]
      exact ⟨.inr (.inl rfl), fun done => by cases done⟩
    · rw [if_neg here] at has
      obtain ⟨submitted, done⟩ := inv.entry name entry has
      refine ⟨.inl submitted, fun settled => ?_⟩
      obtain ⟨outcome, member⟩ := done settled
      exact ⟨outcome, .inl member⟩
  gone name submission member := by
    obtain ⟨new, result, -, -, lookup⟩ :=
      get?_entered digest s.entries key name params s.next
    rw [mem_submit] at member
    rcases member with member | member | member
    · rcases inv.gone name submission member with released | ⟨entry, has, isEntry⟩
      · exact .inl released.later
      · have apart : name ≠ key := by
          intro same
          rw [same, absent] at has
          cases has
        exact .inr ⟨entry, by rw [CommandReceipts.submit, lookup, if_neg apart, has], isEntry⟩
    · cases member
      exact .inr ⟨new, by rw [CommandReceipts.submit, lookup, if_pos rfl], result⟩
    · cases member
  ran name params' submission member := by
    obtain ⟨new, result, -, print, lookup⟩ :=
      get?_entered digest s.entries key name params s.next
    rw [mem_submit] at member ⊢
    rw [CommandReceipts.submit, lookup]
    rcases member with member | member | member
    · obtain ⟨submitted, prints⟩ := inv.ran name params' submission member
      refine ⟨.inl submitted, fun entry has isEntry => ?_⟩
      by_cases here : name = key
      · rw [if_pos here, Option.some.injEq] at has
        have below := inv.numbered _ _ submitted
        rw [← isEntry, ← has, result] at below
        exact absurd below (Nat.lt_irrefl _)
      · rw [if_neg here] at has
        exact prints entry has isEntry
    · cases member
    · cases member
      refine ⟨.inr (.inl rfl), fun entry has _ => ?_⟩
      rw [if_pos rfl, Option.some.injEq] at has
      exact has ▸ print
  rules := by
    have first : Follows (Rule digest) (s.log ++ [.submitted key s.next]) := by
      refine inv.rules.snoc fun earlier member => ?_
      rcases inv.gone key earlier member with released | ⟨entry, has, -⟩
      · exact released
      · rw [absent] at has
        cases has
    have second : Rule digest (s.log ++ [.submitted key s.next]) (.ran key params (.result s.next)) := by
      intro params' member
      simp only [mem_append, mem_singleton, reduceCtorEq, or_false] at member
      have below := inv.numbered _ _ (inv.ran _ _ _ member).1
      exact absurd below (Nat.lt_irrefl _)
    have both := first.snoc second
    rwa [append_assoc] at both

/-- What a call can do: answer, or submit after making room if that is needed. -/
theorem run_cases (key : Utf16) (params : Params format) :
    (∃ answer, (∀ submission, answer = .result submission → ∃ entry,
        s.entries.get? key = some entry ∧ entry.result = submission ∧
        entry.fingerprint = fingerprint format digest params) ∧
      s.run digest key params = { s with log := s.log ++ [.ran key params answer] }) ∨
    s.entries.get? key = none ∧
      (s.entries.entries.length < MAX_ENTRIES ∧ s.run digest key params = submit digest s key params ∨
      ∃ oldest, s.entries.get? oldest.1 = some oldest.2 ∧ oldest.2.settled = true ∧
        s.run digest key params = submit digest (evict s oldest key) key params) := by
  cases found : s.entries.get? key with
  | some existing =>
    have old := inv.result_lt found
    refine .inl ?_
    by_cases same : existing.fingerprint = fingerprint format digest params
    · refine ⟨.result existing.result, fun submission is => ?_, ?_⟩
      · cases is
        exact ⟨existing, rfl, rfl, same⟩
      · have other : existing.result ≠ s.next := by omega
        simp [State.run, run, found, same, other]
    · refine ⟨.error (-32602) "Message ID was already used with different input",
        fun submission is => (by cases is), ?_⟩
      simp [State.run, run, found, same]
  | none =>
    by_cases full : s.entries.entries.length ≥ MAX_ENTRIES
    · cases search : s.entries.entries.find? (·.2.settled) with
      | none =>
        refine .inl ⟨.error (-32090) "Too many pending client commands",
          fun submission is => (by cases is), ?_⟩
        simp [State.run, run, found, full, search]
      | some oldest =>
        have settled : oldest.2.settled = true := by simpa using find?_some search
        have member := mem_of_find?_eq_some search
        refine .inr ⟨rfl, .inr ⟨oldest, (s.entries.mem_entries_iff _ _).mp member, settled, ?_⟩⟩
        simp [State.run, run, found, full, search, submit, evict]
    · refine .inr ⟨rfl, .inl ⟨by omega, ?_⟩⟩
      simp [State.run, run, found, full, submit]

theorem Inv.run : Inv digest (s.run digest key params) := by
  rcases run_cases inv key params with
    ⟨answer, known, is⟩ | ⟨absent, ⟨room, is⟩ | ⟨oldest, has, settled, is⟩⟩
  · rw [is]
    exact inv.answered known
  · rw [is]
    exact inv.submit absent room
  · have other : key ≠ oldest.1 := by
      intro same
      rw [← same, absent] at has
      cases has
    have member := (s.entries.mem_entries_iff _ _).mpr has
    rw [is]
    refine (inv.evict has settled other).submit ?_ ?_
    · rw [CommandReceipts.evict, get?_delete_of_ne _ other, absent]
    · have shorter : (s.entries.delete oldest.1).entries.length < s.entries.entries.length :=
        length_filter_lt_length_iff_exists.mpr ⟨oldest, member, by simp⟩
      exact shorter.trans_le inv.small

theorem Inv.progress (submission : Nat) (progress : Progress N) :
    Inv digest (s.progress submission progress) where
  small := inv.small
  numbered := inv.numbered
  held other task flying := by
    rw [State.progress] at flying ⊢
    dsimp only at flying ⊢
    by_cases here : other = submission
    · subst here
      rw [update_self] at flying
      obtain ⟨old, before, rfl⟩ := Option.map_eq_some_iff.mp flying
      exact inv.held other old before
    · rw [update_of_ne here] at flying
      exact inv.held other task flying
  entry := inv.entry
  gone := inv.gone
  ran := inv.ran
  rules := inv.rules

end

/-- The handlers find the entry of their own submission. -/
theorem settle_entries {entries : Entries} {entry : Receipt} (outcome : Outcome N)
    (is : entries.get? key = some entry) :
    ∃ settled, settled.result = entry.result ∧ settled.fingerprint = entry.fingerprint ∧
      settled.settled = true ∧
      (settle entries key entry.result outcome).entries.length ≤ entries.entries.length ∧
      ∀ name, (settle entries key entry.result outcome).get? name =
        if name = key then
          match outcome with
          | .reply reply => if notSubmitted reply then none else some settled
          | .rejected => some settled
        else entries.get? name := by
  have has : entries.has key = true := (entries.has_iff key).mpr ⟨entry, is⟩
  cases outcome with
  | rejected =>
    refine ⟨{ entry with settled := true, turnId := none.or entry.turnId }, rfl, rfl, rfl, ?_, fun name => ?_⟩
    · simp [settle, is, OrderedMap.length_set, has]
    · simp only [settle, is, if_true]
      exact OrderedMap.get?_set _ _ _ _
  | reply reply =>
    refine ⟨{ entry with settled := true, turnId := (turnIdOf reply).or entry.turnId }, rfl, rfl, rfl, ?_,
      fun name => ?_⟩
    · simp only [settle, is, if_true]
      split
      · refine (List.length_filter_le _ _).trans ?_
        rw [OrderedMap.length_set, has, if_pos rfl]
        omega
      · rw [OrderedMap.length_set, has, if_pos rfl]
        omega
    · simp only [settle, is, if_true]
      split
      · rw [OrderedMap.get?_delete, OrderedMap.get?_set]
        split <;> rfl
      · exact OrderedMap.get?_set _ _ _ _

/-- The state after the handlers of a submission. -/
def handled (s : State format) (key : Utf16) (submission : Nat) (outcome : Outcome N) : State format :=
  { s with
    entries := settle s.entries key submission outcome
    inFlight := Function.update s.inFlight submission none
    log := s.log ++ [.settled key submission outcome] }

variable (inv : Inv digest s)
include inv

theorem Inv.handled {progress : Progress N} (outcome : Outcome N)
    (flying : s.inFlight submission = some ⟨key, progress⟩) :
    Inv digest (handled s key submission outcome) := by
  obtain ⟨entry, has, rfl, open_⟩ := inv.held submission _ flying
  obtain ⟨settled, result, print, done, small, lookup⟩ := settle_entries outcome has
  have kept : ∀ name other, (settle s.entries key entry.result outcome).get? name = some other →
      name = key ∧ other = settled ∨ name ≠ key ∧ s.entries.get? name = some other := by
    intro name other is
    rw [lookup] at is
    by_cases here : name = key
    · rw [if_pos here] at is
      refine .inl ⟨here, ?_⟩
      cases outcome with
      | rejected => exact (Option.some.inj is).symm
      | reply reply =>
        dsimp only at is
        split at is
        · cases is
        · exact (Option.some.inj is).symm
    · rw [if_neg here] at is
      exact .inr ⟨here, is⟩
  exact
    { small := small.trans inv.small
      numbered := fun name other member => by
        simp only [handled, mem_append, mem_singleton, reduceCtorEq,
          or_false] at member
        exact inv.numbered name other member
      held := fun other task flies => by
        rw [handled] at flies ⊢
        dsimp only at flies ⊢
        have apart : other ≠ entry.result := by
          rintro rfl
          rw [update_self] at flies
          cases flies
        rw [update_of_ne apart] at flies
        obtain ⟨old, is, isOld, openOld⟩ := inv.held other task flies
        have names : task.key ≠ key := by
          intro same
          rw [same, has, Option.some.injEq] at is
          exact apart (is ▸ isOld.symm)
        exact ⟨old, by rw [lookup, if_neg names, is], isOld, openOld⟩
      entry := fun name other is => by
        rcases kept name other is with ⟨rfl, rfl⟩ | ⟨-, is⟩
        · rw [result]
          exact ⟨mem_append_left _ (inv.entry _ _ has).1, fun _ =>
            ⟨outcome, mem_append_right _ mem_cons_self⟩⟩
        · obtain ⟨submitted, isDone⟩ := inv.entry name other is
          refine ⟨mem_append_left _ submitted, fun isSettled => ?_⟩
          obtain ⟨answer, member⟩ := isDone isSettled
          exact ⟨answer, mem_append_left _ member⟩
      gone := fun name other member => by
        simp only [handled, mem_append, mem_singleton, reduceCtorEq,
          or_false] at member
        rcases inv.gone name other member with released | ⟨old, is, isOld⟩
        · exact .inl released.later
        · by_cases here : name = key
          · subst here
            rw [has, Option.some.injEq] at is
            subst is
            subst isOld
            by_cases refused : ∃ code message, (code = -32602 ∨ code = -32072) ∧
                outcome = .reply (.error code message)
            · obtain ⟨code, message, is, rfl⟩ := refused
              exact .inl (.inl ⟨code, message, is, mem_append_right _ mem_cons_self⟩)
            · refine .inr ⟨settled, ?_, result⟩
              rw [handled, lookup, if_pos rfl]
              cases outcome with
              | rejected => rfl
              | reply reply =>
                dsimp only
                cases reply with
                | result value => rfl
                | error code message =>
                  have is : notSubmitted (.error code message : ConsoleHostReply N) = false := by
                    by_contra does
                    refine refused ⟨code, message, ?_, rfl⟩
                    simpa [notSubmitted, or_iff_not_imp_left] using does
                  rw [is, if_neg Bool.false_ne_true]
          · exact .inr ⟨old, by rw [handled, lookup, if_neg here, is], isOld⟩
      ran := fun name params' other member => by
        simp only [handled, mem_append, mem_singleton, reduceCtorEq,
          or_false] at member
        obtain ⟨submitted, prints⟩ := inv.ran name params' other member
        refine ⟨mem_append_left _ submitted, fun found is isFound => ?_⟩
        rcases kept name found is with ⟨rfl, rfl⟩ | ⟨-, is⟩
        · rw [print]
          exact prints entry has (result ▸ isFound)
        · exact prints found is isFound
      rules := inv.rules.snoc trivial }

theorem Inv.step {event : Event format} (steps : step digest s event = some s') :
    Inv digest s' := by
  cases event with
  | run key params =>
    cases steps
    exact inv.run
  | call submission =>
    simp only [Source.HostRuntime.ClientCommandReceipts.step] at steps
    split at steps <;> cases steps
    exact inv.progress submission .called
  | answer submission outcome =>
    simp only [Source.HostRuntime.ClientCommandReceipts.step] at steps
    split at steps <;> cases steps
    exact inv.progress submission (.answered outcome)
  | settle submission =>
    simp only [Source.HostRuntime.ClientCommandReceipts.step] at steps
    split at steps
    · next key outcome flying =>
      cases steps
      exact inv.handled outcome flying
    · cases steps

theorem Inv.sole {submission submission' : Nat} {task task' : Submission N}
    (flying : s.inFlight submission = some task) (flying' : s.inFlight submission' = some task')
    (same : task.key = task'.key) : submission = submission' := by
  obtain ⟨entry, is, rfl, -⟩ := inv.held submission task flying
  obtain ⟨entry', is', rfl, -⟩ := inv.held submission' task' flying'
  rw [same, is', Option.some.injEq] at is
  rw [is]

theorem Inv.fingerprint_eq {params params' : Params format}
    (ran : .ran key params (.result submission) ∈ s.log)
    (ran' : .ran key params' (.result submission) ∈ s.log) :
    fingerprint format digest params = fingerprint format digest params' := by
  rcases inv.rules.pair ran ran' with same | ⟨before, earlier, rule⟩ | ⟨before, earlier, rule⟩
  · cases same
    rfl
  · exact rule params earlier
  · exact (rule params' earlier).symm

end Rules

section Runs
variable {N : Type}

/-- Different canonical texts of the calls have different digests. -/
def CollisionFree {format : NumberFormat N} (digest : List Char → String) (events : List (Event format)) :
    Prop :=
  ∀ key key' params params', .run key params ∈ events → .run key' params' ∈ events →
    digest (canonicalText format params) = digest (canonicalText format params') →
    canonicalText format params = canonicalText format params'

section Records
variable {format : NumberFormat N} (digest : List Char → String) {s : State format}

theorem mem_run {key : Utf16} {params : Params format} {name : Utf16} {used : Params format}
    {answer : Answer} (member : .ran name used answer ∈ (s.run digest key params).log) :
    .ran name used answer ∈ s.log ∨ name = key ∧ used = params := by
  rw [State.run] at member
  split at member
  · simp only [mem_append, mem_map, mem_cons, not_mem_nil, or_false, reduceCtorEq,
      false_or, and_false, exists_false, Record.ran.injEq] at member
    exact member.imp_right fun last => ⟨last.1, last.2.1⟩
  · simp only [mem_append, mem_map, mem_singleton, or_false, reduceCtorEq, and_false,
      exists_false, Record.ran.injEq] at member
    exact member.imp_right fun last => ⟨last.1, last.2.1⟩

/-- The records of calls are about the calls that were made. -/
theorem ran_of_run {events : List (Event format)}
    (run : Run (fun s event s' => step digest s event = some s') (initial format) events s)
    {key : Utf16} {params : Params format} {answer : Answer} (member : .ran key params answer ∈ s.log) :
    .run key params ∈ events := by
  induction run with
  | nil => cases member
  | @snoc events s s' event before last ih =>
    rw [mem_append, mem_singleton]
    cases event with
    | run name used =>
      cases last
      rcases mem_run digest member with earlier | ⟨rfl, rfl⟩
      · exact .inl (ih earlier)
      · exact .inr rfl
    | call submission =>
      simp only [step] at last
      split at last <;> cases last
      exact .inl (ih member)
    | answer submission outcome =>
      simp only [step] at last
      split at last <;> cases last
      exact .inl (ih member)
    | settle submission =>
      simp only [step] at last
      split at last <;> cases last
      simp only [mem_append, mem_singleton, reduceCtorEq, or_false] at member
      exact .inl (ih member)

end Records

/-- What holds after any calls, submissions, answers and handlers. -/
structure AtMostOnce {format : NumberFormat N} (s : State format) : Prop where
  sole : ∀ submission submission' task task', s.inFlight submission = some task →
    s.inFlight submission' = some task' → task.key = task'.key → submission = submission'
  again : ∀ before key submission after, s.log = before ++ .submitted key submission :: after →
    ∀ earlier, .submitted key earlier ∈ before → Released before key earlier
  evicted : ∀ before key submission other after, s.log = before ++ .evicted key submission other :: after →
      ∃ outcome, .settled key submission outcome ∈ before
  held : ∀ submission task, s.inFlight submission = some task →
    ∃ entry, s.entries.get? task.key = some entry ∧ entry.result = submission ∧ entry.settled = false
  small : s.entries.entries.length ≤ 256
  shared : ∀ key params params' submission, .ran key params (.result submission) ∈ s.log →
    .ran key params' (.result submission) ∈ s.log →
      SameUpToOrder (.object params.members) (.object params'.members)

/-- A key has one submission in flight at most, and another one only after the last was answered as not
submitted or made room when it was settled; calls share a result only for the same parameters. -/
theorem receipts_at_most_once {format : NumberFormat N} {digest : List Char → String}
    {events : List (Event format)} {s : State format}
    (run : Run (fun s event s' => step digest s event = some s') (initial format) events s)
    (collisionFree : CollisionFree digest events) : AtMostOnce s := by
  have inv : Inv digest s := run.invariant Inv.initial fun _ _ _ inv steps => inv.step steps
  exact
    { sole := fun _ _ _ _ flying flying' same => inv.sole flying flying' same
      again := fun before key submission after is => inv.rules before (.submitted key submission) after is
      evicted := fun before key submission other after is =>
        inv.rules before (.evicted key submission other) after is
      held := inv.held
      small := inv.small
      shared := fun key params params' submission ran ran' =>
        same_of_canonicalText (collisionFree key key params params' (ran_of_run digest run ran)
          (ran_of_run digest run ran') (inv.fingerprint_eq ran ran')) }

def sampleMembers (front back : String × Int) : List (Utf16 × Json JsonNumber) :=
  [front, back].map fun member => (Utf16.ofString member.1, .number (.integer member.2))

def sampleParams : Params JsonNumber.format where
  members := sampleMembers ("a", 1) ("b", 2)
  regular := ⟨by decide, JsonNumber.faithful_natural 1, JsonNumber.faithful_natural 2, trivial⟩

def sampleParams' : Params JsonNumber.format where
  members := sampleMembers ("b", 2) ("a", 1)
  regular := ⟨by decide, JsonNumber.faithful_natural 2, JsonNumber.faithful_natural 1, trivial⟩

/-- The digest of the canonical text of the sample. -/
def sampleDigest (text : List Char) : String :=
  if text = "\x7b\"a\":1,\"b\":2\x7d".toList then
    "43258cff783fe7036d8a43033f830adfc60ec037382473548ac742b888292777"
  else String.ofList text

/-- A command is sent twice, refused as busy, and sent again. -/
def sampleEvents : List (Event JsonNumber.format) :=
  let key := Utf16.ofString "k"
  [.run key sampleParams, .call 0, .run key sampleParams', .answer 0 (.reply (.error (-32072) "busy")),
    .settle 0, .run key sampleParams']

theorem receipts_at_most_once_sample :
    ∃ runs : (sampleEvents.foldlM (step sampleDigest) (initial JsonNumber.format)).isSome = true,
      AtMostOnce ((sampleEvents.foldlM (step sampleDigest) (initial JsonNumber.format)).get runs) := by
  refine ⟨by decide +kernel, receipts_at_most_once (Run.of_foldlM (Option.some_get _).symm) ?_⟩
  have same : canonicalText format sampleParams' =
      canonicalText format sampleParams := by decide +kernel
  have sample : ∀ key params, .run key params ∈ sampleEvents →
      canonicalText format params = canonicalText format sampleParams := by
    intro key params member
    simp only [sampleEvents, mem_cons, not_mem_nil, Event.run.injEq, reduceCtorEq, or_false,
      false_or] at member
    rcases member with ⟨-, rfl⟩ | ⟨-, rfl⟩ | ⟨-, rfl⟩
    · rfl
    · exact same
    · exact same
  intro key key' params params' member member' _
  rw [sample key params member, sample key' params' member']

end Runs

end CodexHost.Guarantees.CommandReceipts
