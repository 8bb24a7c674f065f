import CodexHost.Source.HostRuntime.RemoteSocketLock

/-!
# One call at a time runs its protected action

A call publishes that it is choosing before it lists the directory for its ticket, and lists
the directory again with the ticket published. So of two calls with tickets, the second
listing of one meets the other while it chooses, with its ticket, or before it began to
choose; in the last case the ticket of the other comes out higher.
-/
namespace CodexHost.Source.HostRuntime.SocketLockStage

/-- Choosing, and published as choosing. -/
def chooses : SocketLockStage → Bool
  | .surveying .choosing | .listing .choosing _ | .reading .choosing _ | .ticketing _ => true
  | _ => false

/-- The ticket of a call that has published it and does not yet give up. -/
def ticket? : SocketLockStage → Option Nat
  | .surveying (.waiting ticket _) | .listing (.waiting ticket _) _
  | .reading (.waiting ticket _) _ | .guarding ticket _ | .openedGuard ticket _
  | .writingGuard ticket _ | .inspecting ticket _ | .acting ticket _ | .delaying ticket _ =>
    some ticket
  | _ => none

/-- The ticket of a call that found itself first. -/
def passed? : SocketLockStage → Option Nat
  | .guarding ticket _ | .openedGuard ticket _ | .writingGuard ticket _ | .inspecting ticket _
  | .acting ticket _ => some ticket
  | _ => none

def gone : SocketLockStage → Bool
  | .releasingGuard _ | .unlinkingGuard | .withdrawing | .removing | .finished => true
  | _ => false

theorem ticket?_of_passed? {stage : SocketLockStage} {ticket : Nat}
    (passed : stage.passed? = some ticket) : stage.ticket? = some ticket := by
  cases stage <;> simp_all [passed?, ticket?]

theorem chooses_of_ticket? {stage : SocketLockStage} {ticket : Nat}
    (held : stage.ticket? = some ticket) : stage.chooses = false := by
  cases stage with
  | surveying use | listing use names | reading use scan =>
    cases use
    · cases held
    · rfl
  | ticketing _ => cases held
  | _ => rfl

end CodexHost.Source.HostRuntime.SocketLockStage

namespace CodexHost.Guarantees.SocketLock
open Foundation Source.SharedContracts Source.HostRuntime OrderedMap List Option Function SocketLockStage SocketLockEvent CatalogScan SocketContenders Bool SocketLockWorld EcmaString

theorem isLockEntryName_lockEntryName (ownerToken : String) :
    isLockEntryName (lockEntryName ownerToken) = true := by
  have split : (lockEntryName ownerToken).toList =
      lockEntryPrefix.toList ++ ownerToken.toList ++ lockEntrySuffix.toList := by
    simp only [lockEntryName, String.toList_append]
  rw [isLockEntryName, split, and_eq_true, isPrefixOf_iff_prefix, isSuffixOf_iff_suffix]
  exact ⟨⟨_, (append_assoc ..).symm⟩, ⟨_, rfl⟩⟩

theorem lockEntryName_injective : Function.Injective lockEntryName := by
  intro a b same
  have lists := congrArg String.toList same
  simp only [lockEntryName, String.toList_append] at lists
  exact String.toList_inj.mp (append_cancel_left (append_cancel_right lists))

section Bakery
variable {P : Type} {contenders : SocketContenders P}

theorem entryPath_injective : Function.Injective contenders.entryPath := fun _ _ same =>
  contenders.ownerToken_injective (lockEntryName_injective same)

theorem parse_choosingRecord (p : P) :
    parseLockRecord (some (contenders.choosingRecord p)) = some (contenders.choosingRecord p) := by
  have valid := contenders.valid p
  simp [parseLockRecord, choosingRecord, valid]

theorem parse_ownRecord (p : P) {ticket : Nat} (positive : 0 < ticket) (safe : ticket ≤ maxSafeInteger) :
    parseLockRecord (some (contenders.ownRecord p ticket)) = some (contenders.ownRecord p ticket) := by
  have valid : validOwnerFields (contenders.ownRecord p ticket) = true := contenders.valid p
  have nonzero : ticket ≠ 0 := by omega
  simp only [parseLockRecord, filter_some, valid]
  simp [ownRecord, safe, nonzero]

/-- The tickets order the calls: of two, one has priority. -/
theorem priority_total {p q : P} (apart : p ≠ q) (ticket ticket' : Nat) :
    recordHasPriority (contenders.ownRecord p ticket) (contenders.ownRecord q ticket') = true ∨
    recordHasPriority (contenders.ownRecord q ticket') (contenders.ownRecord p ticket) = true := by
  simp only [recordHasPriority, or_eq_true, and_eq_true, decide_eq_true_eq]
  simp only [ownRecord]
  rcases lt_trichotomy ticket ticket' with less | same | more
  · exact .inl (.inl less)
  · rcases lessThan_trichotomy (contenders.ownerToken p) (contenders.ownerToken q) with
      before | equal | after
    · exact .inl (.inr ⟨same, before⟩)
    · exact absurd (contenders.ownerToken_injective equal) apart
    · exact .inr (.inr ⟨same.symm, after⟩)
  · exact .inr (.inl more)

theorem priority_asymm {left right : RemoteSocketLockRecord}
    (first : recordHasPriority left right = true) : recordHasPriority right left = false := by
  simp only [recordHasPriority, or_eq_true, and_eq_true, decide_eq_true_eq] at first
  simp only [recordHasPriority, or_eq_false_iff, and_eq_false_iff, decide_eq_false_iff_not]
  rcases first with less | ⟨same, before⟩
  · omega
  · have notAfter : ¬ lessThan right.ownerToken left.ownerToken := fun after =>
      lessThan_irrefl _ (lessThan_trans before after)
    exact ⟨by omega, .inr notAfter⟩

/-- The register of a call holds what its stage says. -/
structure Registered (contenders : SocketContenders P) (w : SocketLockWorld P) (p : P) : Prop where
  choosing : (w.stage p).chooses = true → ∃ file, w.directory.get? (contenders.entryPath p) = some file ∧
      file.source = some (contenders.choosingRecord p)
  next : ∀ ticket, w.stage p = .ticketing ticket → 0 < ticket ∧ ticket ≤ maxSafeInteger
  ticket : ∀ ticket, (w.stage p).ticket? = some ticket → 0 < ticket ∧ ticket ≤ maxSafeInteger ∧
    ∃ file, w.directory.get? (contenders.entryPath p) = some file ∧
      file.source = some (contenders.ownRecord p ticket)
  before : w.stage p = .absent ∨ w.stage p = .announcing → w.directory.get? (contenders.entryPath p) = none

/-- `q` has no ticket, or one after the ticket of `p`, and will have no other: a listing for
its ticket that has begun shows the register of `p`. -/
structure Follows (contenders : SocketContenders P) (w : SocketLockWorld P) (p : P) (ticket : Nat)
    (q : P) : Prop where
  listing : ∀ names, w.stage q = .listing .choosing names →
    contenders.entryPath p ∈ names ∨ contenders.entryPath p ∈ w.due q
  reading : ∀ scan, w.stage q = .reading .choosing scan →
    contenders.entryPath p ∈ scan.names ∨ ticket ≤ maximumTicket scan.entries
  ticketing : ∀ ticket', w.stage q = .ticketing ticket' → ticket < ticket'
  ticket : ∀ ticket', (w.stage q).ticket? = some ticket' →
    recordHasPriority (contenders.ownRecord p ticket) (contenders.ownRecord q ticket') = true

/-- What the listing with the ticket of `p` has established about `q`: that it follows, that
it is still to be read, or that it blocks. -/
structure Cleared (contenders : SocketContenders P) (w : SocketLockWorld P) (p q : P) : Prop where
  listing : ∀ ticket attempt names, w.stage p = .listing (.waiting ticket attempt) names →
    Follows contenders w p ticket q ∨ contenders.entryPath q ∈ names ∨ contenders.entryPath q ∈ w.due p
  reading : ∀ ticket attempt scan, w.stage p = .reading (.waiting ticket attempt) scan →
    Follows contenders w p ticket q ∨ contenders.entryPath q ∈ scan.names ∨
      blockedByBakery (contenders.ownRecord p ticket) scan.entries = true
  passed : ∀ ticket, (w.stage p).passed? = some ticket → Follows contenders w p ticket q

structure Bakery (contenders : SocketContenders P) (w : SocketLockWorld P) : Prop where
  registered : ∀ p, Registered contenders w p
  trusting : ∀ p use scan, w.stage p = .reading use scan →
    scan.progress = .unread ∨ ∃ metadata, scan.progress = .found metadata
  cleared : ∀ p q, p ≠ q → Cleared contenders w p q

/-- One step of a scan that considers nothing abandoned. -/
inductive Reads (w : SocketLockWorld P) (scan : CatalogScan) : CatalogScan → Prop where
  | found {name : String} {rest : List String} (file : LockEntryFile)
      (names : scan.names = name :: rest) :
      Reads w scan { scan with progress := .found file }
  | vanished {name : String} {rest : List String} (names : scan.names = name :: rest)
      (absent : w.directory.get? name = none) : Reads w scan scan.next
  | taken {name : String} {rest : List String} (metadata : LockEntryFile) {file : LockEntryFile}
      (names : scan.names = name :: rest) (present : w.directory.get? name = some file) :
      Reads w scan (scan.take (lockEntrySnapshot name metadata file))

/-- The steps of a call that write nothing in the directory. -/
inductive Advance (contenders : SocketContenders P) (w : SocketLockWorld P) (p : P) :
    SocketLockStage → Prop where
  | called (was : w.stage p = .absent) : Advance contenders w p .announcing
  | listName {use : CatalogUse} {names : List String} (name : String)
      (was : w.stage p = .listing use names) :
      Advance contenders w p (.listing use (names ++ [name]))
  | endListing {use : CatalogUse} {names : List String} (was : w.stage p = .listing use names)
      (complete : w.due p ⊆ names) :
      Advance contenders w p (.reading use ⟨names.filter isLockEntryName, .unread, [], false⟩)
  | reads {use : CatalogUse} {scan scan' : CatalogScan} (was : w.stage p = .reading use scan)
      (step : Reads w scan scan') : Advance contenders w p (.reading use scan')
  | chosen {scan : CatalogScan} (was : w.stage p = .reading .choosing scan)
      (complete : scan.names = []) (safe : maximumTicket scan.entries < maxSafeInteger) :
      Advance contenders w p (.ticketing (maximumTicket scan.entries + 1))
  | first {ticket attempt : Nat} {scan : CatalogScan}
      (was : w.stage p = .reading (.waiting ticket attempt) scan) (complete : scan.names = [])
      (free : blockedByBakery (contenders.ownRecord p ticket) scan.entries = false) :
      Advance contenders w p (.guarding ticket attempt)
  | holds {stage : SocketLockStage} {ticket : Nat} (was : (w.stage p).passed? = some ticket)
      (now : stage.passed? = some ticket) : Advance contenders w p stage
  | retries {stage : SocketLockStage} {ticket attempt : Nat}
      (was : (w.stage p).ticket? = some ticket)
      (now : stage = .delaying ticket attempt ∨ stage = .surveying (.waiting ticket attempt)) :
      Advance contenders w p stage
  | leaves {stage : SocketLockStage} (now : stage.gone = true) : Advance contenders w p stage

variable {w w' : SocketLockWorld P} {p q : P}

/-- A call that never had a ticket or gave it up follows everyone. -/
theorem follows_of_idle {ticket : Nat} (still : (w.stage q).chooses = false)
    (free : (w.stage q).ticket? = none) : Follows contenders w p ticket q where
  listing names same := by
    rw [same] at still
    cases still
  reading scan same := by
    rw [same] at still
    cases still
  ticketing ticket' same := by
    rw [same] at still
    cases still
  ticket ticket' same := by
    rw [free] at same
    cases same

/-- A call that has not begun its listing will see every register there is. -/
theorem follows_of_surveying {ticket : Nat} (stage : w.stage q = .surveying .choosing) :
    Follows contenders w p ticket q := by
  constructor <;> rw [stage] <;> simp [ticket?]

theorem follows_of_listing {ticket : Nat} {names : List String} (stage : w.stage q = .listing .choosing names)
    (sees : contenders.entryPath p ∈ names ∨ contenders.entryPath p ∈ w.due q) :
    Follows contenders w p ticket q := by
  constructor <;> rw [stage]
  · rintro _ ⟨⟩
    exact sees
  all_goals simp [ticket?]

theorem follows_of_reading {ticket : Nat} {scan : CatalogScan} (stage : w.stage q = .reading .choosing scan)
    (sees : contenders.entryPath p ∈ scan.names ∨ ticket ≤ maximumTicket scan.entries) :
    Follows contenders w p ticket q := by
  constructor <;> rw [stage]
  · simp
  · rintro _ ⟨⟩
    exact sees
  all_goals simp [ticket?]

theorem follows_of_ticketing {ticket ticket' : Nat} (stage : w.stage q = .ticketing ticket')
    (less : ticket < ticket') : Follows contenders w p ticket q := by
  constructor <;> rw [stage]
  · simp
  · simp
  · rintro _ ⟨⟩
    exact less
  · simp [ticket?]

theorem follows_of_ticket {ticket ticket' : Nat} (held : (w.stage q).ticket? = some ticket')
    (prior : recordHasPriority (contenders.ownRecord p ticket) (contenders.ownRecord q ticket') =
      true) : Follows contenders w p ticket q := by
  constructor
  · intro names stage
    rw [stage] at held
    cases held
  · intro scan stage
    rw [stage] at held
    cases held
  · intro other stage
    rw [stage] at held
    cases held
  · intro other stage
    rw [held] at stage
    cases stage
    exact prior

theorem idle_of_gone {stage : SocketLockStage} (gone : stage.gone = true) :
    stage.chooses = false ∧ stage.ticket? = none ∧ stage.passed? = none := by
  cases stage <;> first | exact ⟨rfl, rfl, rfl⟩ | cases gone

theorem Registered.follows_of_absent (registered : Registered contenders w q)
    (absent : w.directory.get? (contenders.entryPath q) = none) {ticket : Nat} :
    Follows contenders w p ticket q := by
  apply follows_of_idle
  · by_contra chooses
    rw [not_eq_false] at chooses
    obtain ⟨file, present, -⟩ := registered.choosing chooses
    rw [absent] at present
    cases present
  · by_contra holds
    obtain ⟨ticket', held⟩ := ne_none_iff_exists'.mp holds
    obtain ⟨-, -, file, present, -⟩ := registered.ticket ticket' held
    rw [absent] at present
    cases present

/-- What the frame of a step keeps of `Follows`. -/
theorem Follows.frame {ticket : Nat} (follows : Follows contenders w p ticket q)
    (stage : w'.stage q = w.stage q)
    (due : contenders.entryPath p ∈ w.due q → contenders.entryPath p ∈ w'.due q) :
    Follows contenders w' p ticket q where
  listing names same := by
    rw [stage] at same
    exact (follows.listing names same).imp_right due
  reading scan same := follows.reading scan (stage ▸ same)
  ticketing ticket' same := follows.ticketing ticket' (stage ▸ same)
  ticket ticket' same := follows.ticket ticket' (stage ▸ same)

theorem maximumTicket_append (entries : List LockEntrySnapshot) (entry : LockEntrySnapshot) :
    maximumTicket (entries ++ [entry]) =
      max (maximumTicket entries) ((entry.record.map (·.ticket)).getD 0) := by
  simp [maximumTicket]

theorem blockedByBakery_append (own : RemoteSocketLockRecord) (entries : List LockEntrySnapshot)
    (entry : LockEntrySnapshot) :
    blockedByBakery own (entries ++ [entry]) =
      (blockedByBakery own entries || blockedByBakery own [entry]) := by
  simp [blockedByBakery, any_append]

theorem take_names (scan : CatalogScan) (snapshot : LockEntrySnapshot) :
    (scan.take snapshot).names = scan.names.tail := by
  unfold CatalogScan.take
  split <;> rfl

theorem take_maximum (scan : CatalogScan) (snapshot : LockEntrySnapshot) :
    maximumTicket (scan.take snapshot).entries =
      max (maximumTicket scan.entries) ((snapshot.record.map (·.ticket)).getD 0) := by
  unfold CatalogScan.take
  split
  · next malformed => simp [CatalogScan.unsettle, CatalogScan.next, malformed]
  · exact maximumTicket_append _ _

theorem take_blocked (own : RemoteSocketLockRecord) (scan : CatalogScan) (snapshot : LockEntrySnapshot) :
    blockedByBakery own (scan.take snapshot).entries =
      (blockedByBakery own scan.entries || blockedByBakery own [snapshot]) := by
  unfold CatalogScan.take
  split
  · next malformed => simp [CatalogScan.unsettle, CatalogScan.next, blockedByBakery, malformed]
  · exact blockedByBakery_append _ _ _

variable {metadata file : LockEntryFile}

/-- The snapshot of a register with a record that passes the check has that record. -/
theorem snapshot_record {record : RemoteSocketLockRecord}
    (source : file.source = some record) (parsed : parseLockRecord (some record) = some record) :
    (lockEntrySnapshot (lockEntryName record.ownerToken) metadata file).record = some record := by
  simp [lockEntrySnapshot, source, parsed]

theorem snapshot_choosing (source : file.source = some (contenders.choosingRecord q)) :
    (lockEntrySnapshot (contenders.entryPath q) metadata file).record =
      some (contenders.choosingRecord q) := snapshot_record source (parse_choosingRecord q)

theorem snapshot_own {ticket : Nat} (positive : 0 < ticket)
    (safe : ticket ≤ maxSafeInteger) (source : file.source = some (contenders.ownRecord q ticket)) :
    (lockEntrySnapshot (contenders.entryPath q) metadata file).record =
      some (contenders.ownRecord q ticket) := snapshot_record source (parse_ownRecord q positive safe)

variable {scan scan' : CatalogScan}

/-- A scan for a ticket does not lose the register of a call that holds one. -/
theorem reads_choosing {ticket : Nat}
    (registered : Registered contenders w p) (held : (w.stage p).ticket? = some ticket)
    (sees : contenders.entryPath p ∈ scan.names ∨ ticket ≤ maximumTicket scan.entries)
    (step : Reads w scan scan') :
    contenders.entryPath p ∈ scan'.names ∨ ticket ≤ maximumTicket scan'.entries := by
  obtain ⟨positive, safe, file, present, source⟩ := registered.ticket ticket held
  cases step with
  | found file names => exact sees
  | @vanished name rest names absent =>
    rcases sees with member | high
    · rw [names, mem_cons] at member
      rcases member with rfl | member
      · rw [present] at absent
        cases absent
      · exact .inl (by simpa [CatalogScan.next, names] using member)
    · exact .inr high
  | @taken name rest metadata file' names present' =>
    rw [take_names, take_maximum, names, tail_cons]
    rcases sees with member | high
    · rw [names, mem_cons] at member
      rcases member with rfl | member
      · rw [present] at present'
        cases present'
        rw [snapshot_own positive safe source]
        exact .inr (le_max_right _ _)
      · exact .inl member
    · exact .inr (le_trans high (le_max_left _ _))

/-- What a call that reads the register of another learns about it. -/
theorem follows_or_blocks {file metadata : LockEntryFile} {ticket : Nat} (apart : p ≠ q)
    (registered : Registered contenders w q)
    (present : w.directory.get? (contenders.entryPath q) = some file) :
    Follows contenders w p ticket q ∨ blockedByBakery (contenders.ownRecord p ticket)
      [lockEntrySnapshot (contenders.entryPath q) metadata file] = true := by
  have token : contenders.ownerToken q ≠ contenders.ownerToken p := fun same =>
    apart (contenders.ownerToken_injective same).symm
  by_cases chooses : (w.stage q).chooses = true
  · obtain ⟨file', present', source⟩ := registered.choosing chooses
    rw [present] at present'
    cases present'
    right
    rw [blockedByBakery, any_cons, snapshot_choosing source]
    simp [choosingRecord, ownRecord, token]
  · rw [not_eq_true] at chooses
    cases held : (w.stage q).ticket? with
    | none => exact .inl (follows_of_idle chooses held)
    | some ticket' =>
      obtain ⟨positive, safe, file', present', source⟩ := registered.ticket ticket' held
      rw [present] at present'
      cases present'
      rcases priority_total apart ticket ticket' with mine | theirs
      · exact .inl (follows_of_ticket held mine)
      · right
        rw [blockedByBakery, any_cons, snapshot_own positive safe source]
        have other : (contenders.ownRecord q ticket').ownerToken ≠
            (contenders.ownRecord p ticket).ownerToken := token
        simp [other, theirs]

/-- `q` goes on without writing: it still follows a call that holds a ticket. -/
theorem Follows.advance {ticket : Nat} {stage : SocketLockStage}
    (follows : Follows contenders w p ticket q) (registered : Registered contenders w p)
    (held : (w.stage p).ticket? = some ticket) (step : Advance contenders w q stage)
    (after : w'.stage q = stage) (due : w'.due q = w.due q) :
    Follows contenders w' p ticket q := by
  cases step with
  | called was => apply follows_of_idle <;> rw [after] <;> rfl
  | @listName use names name was =>
    cases use with
    | choosing =>
      apply follows_of_listing after
      rw [due, mem_append]
      rcases follows.listing names was with member | member
      · exact .inl (.inl member)
      · exact .inr member
    | waiting ticket' attempt =>
      apply follows_of_ticket (by rw [after]; rfl)
      exact follows.ticket ticket' (by rw [was]; rfl)
  | @endListing use names was complete =>
    cases use with
    | choosing =>
      apply follows_of_reading after
      have member : contenders.entryPath p ∈ names := by
        rcases follows.listing names was with member | member
        · exact member
        · exact complete member
      exact .inl (mem_filter.mpr ⟨member, isLockEntryName_lockEntryName _⟩)
    | waiting ticket' attempt =>
      apply follows_of_ticket (by rw [after]; rfl)
      exact follows.ticket ticket' (by rw [was]; rfl)
  | @reads use scan scan' was step =>
    cases use with
    | choosing =>
      apply follows_of_reading after
      exact reads_choosing registered held (follows.reading _ was) step
    | waiting ticket' attempt =>
      apply follows_of_ticket (by rw [after]; rfl)
      exact follows.ticket ticket' (by rw [was]; rfl)
  | @chosen scan was complete safe =>
    apply follows_of_ticketing after
    rcases follows.reading scan was with member | high
    · rw [complete] at member
      cases member
    · omega
  | @first ticket' attempt scan was complete free =>
    apply follows_of_ticket (by rw [after]; rfl)
    exact follows.ticket ticket' (by rw [was]; rfl)
  | @holds _ ticket' was now =>
    have held' : (w'.stage q).ticket? = some ticket' := by
      rw [after]
      exact ticket?_of_passed? now
    exact follows_of_ticket held' (follows.ticket ticket' (ticket?_of_passed? was))
  | @retries _ ticket' attempt was now =>
    have held' : (w'.stage q).ticket? = some ticket' := by
      rw [after]
      rcases now with rfl | rfl <;> rfl
    exact follows_of_ticket held' (follows.ticket ticket' was)
  | leaves now =>
    obtain ⟨idle, free, -⟩ := idle_of_gone now
    apply follows_of_idle <;> rw [after] <;> assumption

/-- A scan with a ticket establishes about the call of each name it deals with that it
follows, or finds itself blocked. -/
theorem reads_waiting {ticket : Nat} (apart : p ≠ q) (registered : Registered contenders w q)
    (sees : Follows contenders w p ticket q ∨ contenders.entryPath q ∈ scan.names ∨
      blockedByBakery (contenders.ownRecord p ticket) scan.entries = true)
    (step : Reads w scan scan') :
    Follows contenders w p ticket q ∨ contenders.entryPath q ∈ scan'.names ∨
      blockedByBakery (contenders.ownRecord p ticket) scan'.entries = true := by
  cases step with
  | found file names => exact sees
  | @vanished name rest names absent =>
    rcases sees with follows | member | blocked
    · exact .inl follows
    · rw [names, mem_cons] at member
      rcases member with rfl | member
      · exact .inl (registered.follows_of_absent absent)
      · exact .inr (.inl (by simpa [CatalogScan.next, names] using member))
    · exact .inr (.inr blocked)
  | @taken name rest metadata file names present =>
    rw [take_names, take_blocked, names, tail_cons, or_eq_true]
    rcases sees with follows | member | blocked
    · exact .inl follows
    · rw [names, mem_cons] at member
      rcases member with rfl | member
      · rcases follows_or_blocks apart registered present with follows | blocks
        · exact .inl follows
        · exact .inr (.inr (.inr blocks))
      · exact .inr (.inl member)
    · exact .inr (.inr (.inl blocked))

theorem cleared_of_idle
    (listing : ∀ ticket attempt names, w.stage p ≠ .listing (.waiting ticket attempt) names)
    (reading : ∀ ticket attempt scan, w.stage p ≠ .reading (.waiting ticket attempt) scan)
    (passed : (w.stage p).passed? = none) : Cleared contenders w p q where
  listing ticket attempt names same := absurd same (listing ticket attempt names)
  reading ticket attempt scan same := absurd same (reading ticket attempt scan)
  passed ticket same := by
    rw [passed] at same
    cases same

theorem cleared_of_listing {ticket attempt : Nat} {names : List String}
    (stage : w.stage p = .listing (.waiting ticket attempt) names)
    (sees : Follows contenders w p ticket q ∨ contenders.entryPath q ∈ names ∨
      contenders.entryPath q ∈ w.due p) : Cleared contenders w p q := by
  constructor <;> rw [stage]
  · rintro _ _ _ ⟨⟩
    exact sees
  all_goals simp [passed?]

theorem cleared_of_reading {ticket attempt : Nat} {scan : CatalogScan}
    (stage : w.stage p = .reading (.waiting ticket attempt) scan)
    (sees : Follows contenders w p ticket q ∨ contenders.entryPath q ∈ scan.names ∨
      blockedByBakery (contenders.ownRecord p ticket) scan.entries = true) :
    Cleared contenders w p q := by
  constructor <;> rw [stage]
  · simp
  · rintro _ _ _ ⟨⟩
    exact sees
  · simp [passed?]

theorem cleared_of_passed {ticket : Nat} (held : (w.stage p).passed? = some ticket)
    (follows : Follows contenders w p ticket q) : Cleared contenders w p q := by
  constructor
  · intro ticket' attempt names stage
    rw [stage] at held
    cases held
  · intro ticket' attempt scan stage
    rw [stage] at held
    cases held
  · intro ticket' same
    rw [held] at same
    cases same
    exact follows

theorem cleared_of_gone (gone : (w.stage p).gone = true) : Cleared contenders w p q := by
  apply cleared_of_idle
  · intro ticket attempt names same
    rw [same] at gone
    cases gone
  · intro ticket attempt scan same
    rw [same] at gone
    cases gone
  · exact (idle_of_gone gone).2.2

theorem cleared_of_surveying {use : CatalogUse} (stage : w.stage p = .surveying use) :
    Cleared contenders w p q := by
  apply cleared_of_idle <;> rw [stage] <;> simp [passed?]

/-- `p` goes on without writing. -/
theorem Cleared.advance {stage : SocketLockStage} (cleared : Cleared contenders w p q)
    (apart : p ≠ q) (registered : Registered contenders w q)
    (step : Advance contenders w p stage) (after : w'.stage p = stage)
    (other : w'.stage q = w.stage q) (due : w'.due = w.due) : Cleared contenders w' p q := by
  have frame : ∀ {ticket}, Follows contenders w p ticket q → Follows contenders w' p ticket q :=
    fun follows => follows.frame other (by rw [due]; exact id)
  cases step with
  | called was => apply cleared_of_idle <;> rw [after] <;> simp [passed?]
  | @listName use names name was =>
    cases use with
    | choosing => apply cleared_of_idle <;> rw [after] <;> simp [passed?]
    | waiting ticket attempt =>
      apply cleared_of_listing after
      rw [due, mem_append]
      rcases cleared.listing ticket attempt names was with follows | listed | pending
      · exact .inl (frame follows)
      · exact .inr (.inl (.inl listed))
      · exact .inr (.inr pending)
  | @endListing use names was complete =>
    cases use with
    | choosing => apply cleared_of_idle <;> rw [after] <;> simp [passed?]
    | waiting ticket attempt =>
      apply cleared_of_reading after
      have kept : contenders.entryPath q ∈ names →
          contenders.entryPath q ∈ names.filter isLockEntryName := fun member =>
        mem_filter.mpr ⟨member, isLockEntryName_lockEntryName _⟩
      rcases cleared.listing ticket attempt names was with follows | listed | pending
      · exact .inl (frame follows)
      · exact .inr (.inl (kept listed))
      · exact .inr (.inl (kept (complete pending)))
  | @reads use scan scan' was step =>
    cases use with
    | choosing => apply cleared_of_idle <;> rw [after] <;> simp [passed?]
    | waiting ticket attempt =>
      apply cleared_of_reading after
      exact (reads_waiting apart registered (cleared.reading ticket attempt _ was) step).imp_left frame
  | chosen was complete safe =>
    apply cleared_of_idle <;> rw [after] <;> simp [passed?]
  | @first ticket attempt scan was complete free =>
    apply cleared_of_passed (show (w'.stage p).passed? = some ticket by rw [after]; rfl)
    rcases cleared.reading ticket attempt scan was with follows | member | blocked
    · exact frame follows
    · rw [complete] at member
      cases member
    · rw [free] at blocked
      cases blocked
  | @holds _ ticket was now =>
    apply cleared_of_passed (show (w'.stage p).passed? = some ticket by rw [after]; exact now)
    exact frame (cleared.passed ticket was)
  | retries was now =>
    apply cleared_of_idle <;> rw [after] <;> rcases now with rfl | rfl <;> simp [passed?]
  | leaves now => exact cleared_of_gone (by rw [after]; exact now)

/-- `p` stays where it is, and the register of `q` with it. -/
theorem Cleared.frame (cleared : Cleared contenders w p q) (stage : w'.stage p = w.stage p)
    (due : contenders.entryPath q ∈ w.due p → contenders.entryPath q ∈ w'.due p ∨
      ∀ ticket, Follows contenders w' p ticket q)
    (follows : ∀ ticket, (w.stage p).ticket? = some ticket → Follows contenders w p ticket q →
      Follows contenders w' p ticket q) : Cleared contenders w' p q where
  listing ticket attempt names same := by
    rw [stage] at same
    rcases cleared.listing ticket attempt names same with before | listed | pending
    · exact .inl (follows ticket (by rw [same]; rfl) before)
    · exact .inr (.inl listed)
    · rcases due pending with still | idle
      · exact .inr (.inr still)
      · exact .inl (idle ticket)
  reading ticket attempt scan same := by
    rw [stage] at same
    exact (cleared.reading ticket attempt scan same).imp_left (follows ticket (by rw [same]; rfl))
  passed ticket same := by
    rw [stage] at same
    exact follows ticket (ticket?_of_passed? same) (cleared.passed ticket same)

/-- The register of `p` is left alone, and its stage. -/
theorem Registered.frame (registered : Registered contenders w p) (stage : w'.stage p = w.stage p)
    (register : w'.directory.get? (contenders.entryPath p) =
      w.directory.get? (contenders.entryPath p)) : Registered contenders w' p := by
  constructor <;> rw [stage]
  · rw [register]
    exact registered.choosing
  · exact registered.next
  · rw [register]
    exact registered.ticket
  · rw [register]
    exact registered.before

theorem registered_of_ticket {ticket : Nat} (held : (w.stage p).ticket? = some ticket)
    (register : 0 < ticket ∧ ticket ≤ maxSafeInteger ∧ ∃ file,
      w.directory.get? (contenders.entryPath p) = some file ∧
        file.source = some (contenders.ownRecord p ticket)) : Registered contenders w p where
  choosing chooses := by
    rw [chooses_of_ticket? held] at chooses
    cases chooses
  next ticket' same := by
    rw [same] at held
    cases held
  ticket ticket' same := by
    rw [held] at same
    cases same
    exact register
  before early := by
    rcases early with same | same <;> rw [same] at held <;> cases held

theorem registered_of_choosing (chooses : (w.stage p).chooses = true)
    (next : ∀ ticket, w.stage p = .ticketing ticket → 0 < ticket ∧ ticket ≤ maxSafeInteger)
    (register : ∃ file, w.directory.get? (contenders.entryPath p) = some file ∧
      file.source = some (contenders.choosingRecord p)) : Registered contenders w p where
  choosing _ := register
  next := next
  ticket ticket same := by
    rw [chooses_of_ticket? same] at chooses
    cases chooses
  before early := by
    rcases early with same | same <;> rw [same] at chooses <;> cases chooses

theorem registered_of_gone (gone : (w.stage p).gone = true) : Registered contenders w p where
  choosing chooses := by
    rw [(idle_of_gone gone).1] at chooses
    cases chooses
  next ticket same := by
    rw [same] at gone
    cases gone
  ticket ticket same := by
    rw [(idle_of_gone gone).2.1] at same
    cases same
  before early := by
    rcases early with same | same <;> rw [same] at gone <;> cases gone

/-- A call that writes nothing begins, keeps choosing, keeps its ticket, or leaves. -/
theorem Advance.kept {stage : SocketLockStage} (step : Advance contenders w p stage) :
    (w.stage p = .absent ∧ stage = .announcing) ∨
    ((w.stage p).chooses = true ∧ stage.chooses = true ∧
      ∀ ticket, stage = .ticketing ticket → 0 < ticket ∧ ticket ≤ maxSafeInteger) ∨
    (∃ ticket, (w.stage p).ticket? = some ticket ∧ stage.ticket? = some ticket) ∨ stage.gone = true := by
  cases step with
  | called was => exact .inl ⟨was, rfl⟩
  | @listName use names name was | @endListing use names was complete | @reads use scan scan' was step =>
    right
    rw [was]
    cases use with
    | choosing => exact .inl ⟨rfl, rfl, nofun⟩
    | waiting ticket attempt => exact .inr (.inl ⟨ticket, rfl, rfl⟩)
  | @chosen scan was complete safe =>
    refine .inr (.inl ⟨by rw [was]; rfl, rfl, ?_⟩)
    rintro ticket ⟨⟩
    omega
  | @first ticket attempt scan was complete free =>
    exact .inr (.inr (.inl ⟨ticket, by rw [was]; rfl, rfl⟩))
  | holds was now =>
    exact .inr (.inr (.inl ⟨_, ticket?_of_passed? was, ticket?_of_passed? now⟩))
  | retries was now =>
    refine .inr (.inr (.inl ⟨_, was, ?_⟩))
    rcases now with rfl | rfl <;> rfl
  | leaves now => exact .inr (.inr (.inr now))

theorem Registered.advance {stage : SocketLockStage} (registered : Registered contenders w p)
    (step : Advance contenders w p stage) (after : w'.stage p = stage)
    (directory : w'.directory = w.directory) : Registered contenders w' p := by
  have register := registered.choosing
  have owned := registered.ticket
  rw [← directory] at register owned
  subst after
  rcases step.kept with ⟨was, now⟩ | ⟨was, now, next⟩ | ⟨ticket, was, now⟩ | now
  · refine ⟨?_, ?_, ?_, ?_⟩ <;> rw [now]
    · simp [chooses]
    · simp
    · simp [ticket?]
    · intro _
      rw [directory]
      exact registered.before (.inl was)
  · exact registered_of_choosing now next (register was)
  · exact registered_of_ticket now (owned ticket was)
  · exact registered_of_gone now

/-- What a step does when no entry is considered abandoned. -/
inductive Moved (contenders : SocketContenders P) (w w' : SocketLockWorld P) : Prop where
  | advanced {p : P} {stage : SocketLockStage} (step : Advance contenders w p stage)
      (after : w'.stage p = stage) (others : ∀ q, q ≠ p → w'.stage q = w.stage q)
      (directory : w'.directory = w.directory) (due : w'.due = w.due)
  | announced {p : P} (file : LockEntryFile) (was : w.stage p = .announcing)
      (source : file.source = some (contenders.choosingRecord p))
      (after : w'.stage p = .surveying .choosing ∨ (w'.stage p).gone = true)
      (others : ∀ q, q ≠ p → w'.stage q = w.stage q)
      (directory : w'.directory = w.directory.set (contenders.entryPath p) file)
      (due : w'.due = w.due)
  | ticketed {p : P} {ticket : Nat} (file : LockEntryFile) (was : w.stage p = .ticketing ticket)
      (source : file.source = some (contenders.ownRecord p ticket))
      (after : w'.stage p = .surveying (.waiting ticket 0) ∨ (w'.stage p).gone = true)
      (others : ∀ q, q ≠ p → w'.stage q = w.stage q)
      (directory : w'.directory = w.directory.set (contenders.entryPath p) file)
      (due : w'.due = w.due)
  | opened {p : P} {use : CatalogUse} (was : w.stage p = .surveying use)
      (after : w'.stage p = .listing use []) (others : ∀ q, q ≠ p → w'.stage q = w.stage q)
      (directory : w'.directory = w.directory) (due : w'.due p = w.directory.keys)
      (otherDue : ∀ q, q ≠ p → w'.due q = w.due q)
  | removed {p : P} (after : (w'.stage p).gone = true)
      (others : ∀ q, q ≠ p → w'.stage q = w.stage q)
      (directory : ∀ q, q ≠ p → w'.directory.get? (contenders.entryPath q) =
        w.directory.get? (contenders.entryPath q))
      (due : ∀ q r, r ≠ p → contenders.entryPath r ∈ w.due q → contenders.entryPath r ∈ w'.due q)
  | foreign (stage : w'.stage = w.stage)
      (directory : ∀ q, w'.directory.get? (contenders.entryPath q) =
        w.directory.get? (contenders.entryPath q))
      (due : ∀ q r, contenders.entryPath r ∈ w.due q → contenders.entryPath r ∈ w'.due q)

/-- What a step means for one call. -/
inductive Own (contenders : SocketContenders P) (w w' : SocketLockWorld P) (q : P) : Prop where
  | still (stage : w'.stage q = w.stage q) (register : w'.directory.get? (contenders.entryPath q) =
        w.directory.get? (contenders.entryPath q))
      (due : ∀ r, contenders.entryPath r ∈ w.due q →
        contenders.entryPath r ∈ w'.due q ∨ (w'.stage r).gone = true)
  | advanced {stage : SocketLockStage} (step : Advance contenders w q stage) (after : w'.stage q = stage)
      (others : ∀ r, r ≠ q → w'.stage r = w.stage r) (directory : w'.directory = w.directory)
      (due : w'.due = w.due)
  | announced {file : LockEntryFile} (after : w'.stage q = .surveying .choosing)
      (register : w'.directory.get? (contenders.entryPath q) = some file)
      (source : file.source = some (contenders.choosingRecord q))
  | ticketed {ticket : Nat} {file : LockEntryFile} (was : w.stage q = .ticketing ticket)
      (after : w'.stage q = .surveying (.waiting ticket 0))
      (register : w'.directory.get? (contenders.entryPath q) = some file)
      (source : file.source = some (contenders.ownRecord q ticket))
  | opened {use : CatalogUse} (was : w.stage q = .surveying use) (after : w'.stage q = .listing use [])
      (others : ∀ r, r ≠ q → w'.stage r = w.stage r) (directory : w'.directory = w.directory)
      (due : w'.due q = w.directory.keys) (otherDue : ∀ r, r ≠ q → w'.due r = w.due r)
  | leaves (after : (w'.stage q).gone = true)

theorem Moved.own (moved : Moved contenders w w') (q : P) : Own contenders w w' q := by
  have untouched : ∀ {p : P} {file : LockEntryFile}, q ≠ p →
      w'.directory = w.directory.set (contenders.entryPath p) file →
      w'.directory.get? (contenders.entryPath q) = w.directory.get? (contenders.entryPath q) := by
    intro p file apart directory
    rw [directory]
    exact get?_set_of_ne _ _ fun same => apart (entryPath_injective same)
  have same (due : w'.due q = w.due q) (r : P) (member : contenders.entryPath r ∈ w.due q) :
      contenders.entryPath r ∈ w'.due q ∨ (w'.stage r).gone = true := .inl (by rwa [due])
  cases moved with
  | @advanced p stage step after others directory due =>
    by_cases mine : q = p
    · subst mine
      exact .advanced step after others directory due
    · exact .still (others q mine) (by rw [directory]) (same (by rw [due]))
  | @announced p file was source after others directory due =>
    by_cases mine : q = p
    · subst mine
      exact after.elim (.announced · (by rw [directory, get?_set_self]) source) .leaves
    · exact .still (others q mine) (untouched mine directory) (same (by rw [due]))
  | @ticketed p ticket file was source after others directory due =>
    by_cases mine : q = p
    · subst mine
      exact after.elim (.ticketed was · (by rw [directory, get?_set_self]) source) .leaves
    · exact .still (others q mine) (untouched mine directory) (same (by rw [due]))
  | @opened p use was after others directory due otherDue =>
    by_cases mine : q = p
    · subst mine
      exact .opened was after others directory due otherDue
    · exact .still (others q mine) (by rw [directory]) (same (otherDue q mine))
  | @removed p after others directory due =>
    by_cases mine : q = p
    · subst mine
      exact .leaves after
    · refine .still (others q mine) (directory q mine) fun r member => ?_
      by_cases other : r = p
      · exact .inr (other ▸ after)
      · exact .inl (due q r other member)
  | foreign stage directory due =>
    exact .still (by rw [stage]) (directory q) fun r member => .inl (due q r member)

section
variable (registered : ∀ p, Registered contenders w p)
include registered

theorem registered_step (moved : Moved contenders w w') (q : P) : Registered contenders w' q := by
  cases moved.own q with
  | still stage register => exact (registered q).frame stage register
  | advanced step after _ directory => exact (registered q).advance step after directory
  | announced after register source =>
    exact registered_of_choosing (by rw [after]; rfl) (by simp [after]) ⟨_, register, source⟩
  | @ticketed ticket file was after register source =>
    obtain ⟨positive, safe⟩ := (registered q).next ticket was
    exact registered_of_ticket (by rw [after]; rfl) ⟨positive, safe, file, register, source⟩
  | @opened use was after _ directory =>
    cases use with
    | choosing =>
      apply registered_of_choosing (by rw [after]; rfl) (by simp [after])
      rw [directory]
      exact (registered q).choosing (by rw [was]; rfl)
    | waiting ticket attempt =>
      apply registered_of_ticket (by rw [after]; rfl)
      rw [directory]
      exact (registered q).ticket ticket (by rw [was]; rfl)
  | leaves after => exact registered_of_gone after

/-- Whoever follows a call that holds its ticket before and after the step still follows. -/
theorem follows_step
    (moved : Moved contenders w w') {ticket : Nat}
    (held : (w.stage p).ticket? = some ticket) (holds : (w'.stage p).ticket? = some ticket)
    (follows : Follows contenders w p ticket q) : Follows contenders w' p ticket q := by
  cases moved.own q with
  | still stage _ due =>
    refine follows.frame stage fun member => (due p member).resolve_right fun gone => ?_
    rw [(idle_of_gone gone).2.1] at holds
    cases holds
  | advanced step after _ _ due => exact follows.advance (registered p) held step after (by rw [due])
  | announced after => exact follows_of_surveying after
  | @ticketed ticket' _ was after =>
    apply follows_of_ticket (show (w'.stage q).ticket? = some ticket' by rw [after]; rfl)
    have less := follows.ticketing ticket' was
    simp [recordHasPriority, ownRecord, less]
  | @opened use was after _ _ due =>
    cases use with
    | choosing =>
      apply follows_of_listing after
      obtain ⟨-, -, file, present, -⟩ := (registered p).ticket ticket held
      rw [due, mem_keys_iff]
      exact .inr ⟨file, present⟩
    | waiting ticket' attempt =>
      apply follows_of_ticket (show (w'.stage q).ticket? = some ticket' by rw [after]; rfl)
      exact follows.ticket ticket' (by rw [was]; rfl)
  | leaves after => exact follows_of_idle (idle_of_gone after).1 (idle_of_gone after).2.1

theorem cleared_step
    (cleared : ∀ p q, p ≠ q → Cleared contenders w p q) (moved : Moved contenders w w')
    (apart : p ≠ q) : Cleared contenders w' p q := by
  cases moved.own p with
  | still stage _ due =>
    refine (cleared p q apart).frame stage (fun pending => ?_) fun ticket held =>
      follows_step registered moved held (by rw [stage]; exact held)
    exact (due q pending).imp_right fun gone _ => follows_of_idle (idle_of_gone gone).1 (idle_of_gone gone).2.1
  | advanced step after others _ due =>
    exact (cleared p q apart).advance apart (registered q) step after (others q apart.symm) due
  | announced after | ticketed _ after => exact cleared_of_surveying after
  | @opened use was after others _ due otherDue =>
    cases use with
    | choosing => apply cleared_of_idle <;> rw [after] <;> simp [passed?]
    | waiting ticket attempt =>
      apply cleared_of_listing after
      cases register : w.directory.get? (contenders.entryPath q) with
      | none =>
        have follows : Follows contenders w p ticket q := (registered q).follows_of_absent register
        exact .inl (follows.frame (others q apart.symm) (by rw [otherDue q apart.symm]; exact id))
      | some file =>
        rw [due, mem_keys_iff]
        exact .inr (.inr ⟨file, register⟩)
  | leaves after => exact cleared_of_gone after

end

theorem trusting_step (trusting : ∀ p use scan, w.stage p = .reading use scan →
      scan.progress = .unread ∨ ∃ metadata, scan.progress = .found metadata)
    (moved : Moved contenders w w') (q : P) (use : CatalogUse) (scan : CatalogScan)
    (reads : w'.stage q = .reading use scan) :
    scan.progress = .unread ∨ ∃ metadata, scan.progress = .found metadata := by
  cases moved.own q with
  | still stage => exact trusting q use scan (stage.symm.trans reads)
  | announced after | ticketed _ after | opened _ after => cases reads.symm.trans after
  | leaves after =>
    rw [reads] at after
    cases after
  | advanced step after =>
    rw [reads] at after
    cases step with
    | called was | listName name was | chosen was complete safe | first was complete free => cases after
    | endListing was complete =>
      cases after
      exact .inl rfl
    | @reads use scan₀ scan' was step =>
      cases after
      cases step with
      | found file names => exact .inr ⟨file, rfl⟩
      | vanished names absent => exact .inl rfl
      | taken metadata names present =>
        left
        unfold CatalogScan.take
        split <;> rfl
    | holds was now =>
      rw [← after] at now
      cases now
    | retries was now => rcases now with now | now <;> rw [← after] at now <;> cases now
    | leaves now =>
      rw [← after] at now
      cases now

theorem Bakery.moved (bakery : Bakery contenders w) (moved : Moved contenders w w') :
    Bakery contenders w' where
  registered := registered_step bakery.registered moved
  trusting := trusting_step bakery.trusting moved
  cleared _ _ apart := cleared_step bakery.registered bakery.cleared moved apart

/-- Two calls that both found themselves first are one. -/
theorem Bakery.alone (bakery : Bakery contenders w) {ticket ticket' : Nat}
    (first : (w.stage p).passed? = some ticket) (first' : (w.stage q).passed? = some ticket') :
    p = q := by
  by_contra apart
  have mine := ((bakery.cleared p q apart).passed ticket first).ticket ticket'
    (ticket?_of_passed? first')
  have theirs := ((bakery.cleared q p (Ne.symm apart)).passed ticket' first').ticket ticket
    (ticket?_of_passed? first)
  rw [priority_asymm mine] at theirs
  cases theirs

section
variable (trusting : scan.progress = .unread ∨ ∃ metadata, scan.progress = .found metadata)
include trusting

/-- The reads of a scan that suspects nothing. -/
theorem stat_reads
    (happened : scan.stat (w.nextFile scan) = some scan') : Reads w scan scan' := by
  cases names : scan.names with
  | nil => simp [stat, names] at happened
  | cons name rest =>
    have next : w.nextFile scan = w.directory.get? name := by
      simp [nextFile, names]
    rw [next] at happened
    rcases trusting with unread | ⟨metadata, found⟩
    · cases answer : w.directory.get? name with
      | none =>
        simp only [stat, names, unread, answer, some.injEq, vanish] at happened
        subst happened
        exact .vanished names answer
      | some file =>
        simp only [stat, names, unread, answer, some.injEq] at happened
        subst happened
        rw [← names]
        exact .found file names
    · simp [stat, names, found] at happened

theorem read_reads {reading : LockReading}
    (young : ∀ name rest metadata file, scan.names = name :: rest →
      scan.progress = .found metadata → w.nextFile scan = some file →
      lockEntryIsAbandoned reading (lockEntrySnapshot name metadata file) = false)
    (happened : scan.read reading (w.nextFile scan) = some scan') : Reads w scan scan' := by
  cases names : scan.names with
  | nil => simp [CatalogScan.read, names] at happened
  | cons name rest =>
    have next : w.nextFile scan = w.directory.get? name := by
      simp [SocketLockWorld.nextFile, names]
    rcases trusting with unread | ⟨metadata, found⟩
    · simp [CatalogScan.read, names, unread] at happened
    · cases answer : w.directory.get? name with
      | none =>
        simp only [CatalogScan.read, names, found, next, answer, some.injEq, CatalogScan.vanish] at happened
        subst happened
        exact .vanished names answer
      | some file =>
        have fresh := young name rest metadata file names found (next.trans answer)
        simp only [CatalogScan.read, names, found, next, answer, fresh, some.injEq] at happened
        subst happened
        exact .taken metadata names answer

end

theorem gone_afterFailure {stage stage' : SocketLockStage}
    (fails : afterFailure stage = some stage') : stage'.gone = true := by
  cases stage <;> simp only [afterFailure, some.injEq, reduceCtorEq] at fails <;> subst fails <;> rfl

theorem advance_afterCatalog {use : CatalogUse} {scan : CatalogScan}
    (was : w.stage p = .reading use scan) (complete : scan.names = []) :
    Advance contenders w p (afterCatalog contenders p scan use) := by
  cases use with
  | choosing =>
    simp only [afterCatalog]
    split
    · exact .leaves rfl
    · exact .chosen was complete (by omega)
  | waiting ticket attempt =>
    simp only [afterCatalog]
    split
    · exact .leaves rfl
    · split
      · next free =>
        simp only [and_eq_true, not_eq_true'] at free
        exact .first was complete free.2
      · exact .retries (show (w.stage p).ticket? = some ticket by rw [was]; rfl) (.inl rfl)

theorem advance_nextAttempt {ticket attempt : Nat} (was : w.stage p = .delaying ticket attempt) :
    Advance contenders w p (nextAttempt ticket attempt) := by
  unfold nextAttempt
  split
  · exact .retries (show (w.stage p).ticket? = some ticket by rw [was]; rfl) (.inr rfl)
  · exact .leaves rfl

theorem unlink_due {name : String} (apart : name ≠ contenders.entryPath p)
    (member : contenders.entryPath p ∈ w.due q) :
    contenders.entryPath p ∈ (w.unlink name).due q := by
  simp only [unlink, mem_filter]
  exact ⟨member, by simpa using Ne.symm apart⟩

section Steps
variable [DecidableEq P]

@[simp] theorem become_stage_self (stage : SocketLockStage) :
    (w.become p stage).stage p = stage := update_self ..

theorem become_stage_of_ne {stage : SocketLockStage} (apart : q ≠ p) :
    (w.become p stage).stage q = w.stage q := update_of_ne apart ..

theorem Moved.of_advance {stage : SocketLockStage} (step : Advance contenders w p stage) :
    Moved contenders w (w.become p stage) :=
  .advanced step (become_stage_self stage) (fun _ apart => become_stage_of_ne apart) rfl rfl

/-- A lawful event that considers no entry abandoned is one of the moves. -/
theorem happen_moved {event : SocketLockEvent P} (bakery : Bakery contenders w)
    (lawful : event.Lawful contenders) (young : event.judgesAbandoned w = false)
    (happened : event.happen contenders w = some w') : Moved contenders w w' := by
  cases event with
  | call p =>
    simp only [happen] at happened
    split at happened
    · next was =>
      cases happened
      exact .of_advance (.called was)
    · cases happened
  | publish p mtimeMs cleaned =>
    simp only [happen] at happened
    split at happened
    · next was =>
      cases happened
      refine .announced _ was rfl ?_ (fun _ apart => become_stage_of_ne apart) rfl rfl
      cases cleaned
      · exact .inr (by simp [gone])
      · exact .inl (by simp)
    · next ticket was =>
      cases happened
      refine .ticketed _ was rfl ?_ (fun _ apart => become_stage_of_ne apart) rfl rfl
      cases cleaned
      · exact .inr (by simp [gone])
      · exact .inl (by simp)
    · cases happened
  | beginListing p =>
    simp only [happen] at happened
    split at happened
    · next use was =>
      cases happened
      exact .opened was (become_stage_self _) (fun _ apart => become_stage_of_ne apart) rfl
        (update_self ..) (fun _ apart => update_of_ne apart ..)
    · cases happened
  | listName p name =>
    simp only [happen] at happened
    split at happened
    · next use names was =>
      split at happened
      · cases happened
        exact .of_advance (.listName name was)
      · cases happened
    · cases happened
  | endListing p =>
    simp only [happen] at happened
    split at happened
    · next use names was =>
      split at happened
      · next complete =>
        cases happened
        exact .of_advance (.endListing was complete)
      · cases happened
    · cases happened
  | statEntry p =>
    simp only [happen] at happened
    split at happened
    · next use scan was =>
      obtain ⟨scan', read, rfl⟩ := map_eq_some_iff.mp happened
      exact .of_advance (.reads was (stat_reads (bakery.trusting p use scan was) read))
    · cases happened
  | readEntry p reading =>
    simp only [happen] at happened
    split at happened
    · next use scan was =>
      obtain ⟨scan', read, rfl⟩ := map_eq_some_iff.mp happened
      refine .of_advance (.reads was (read_reads (bakery.trusting p use scan was) ?_ read))
      intro name rest metadata file names found present
      simpa [judgesAbandoned, was, names, found, present] using young
    · cases happened
  | removeAbandoned p =>
    simp only [happen] at happened
    split at happened
    · next use scan was =>
      split at happened
      · next condemned =>
        rcases bakery.trusting p use scan was with unread | ⟨metadata, found⟩
        · rw [unread] at condemned
          cases condemned
        · rw [found] at condemned
          cases condemned
      · cases happened
    · cases happened
  | useCatalog p =>
    simp only [happen] at happened
    split at happened
    · next use scan was =>
      split at happened
      · next complete =>
        cases happened
        exact .of_advance (advance_afterCatalog was complete)
      · cases happened
    · cases happened
  | openGuard p =>
    simp only [happen] at happened
    split at happened
    · next ticket attempt was _ =>
      cases happened
      have step : Advance contenders w p (.openedGuard ticket w.nextIdentity) :=
        .holds (show (w.stage p).passed? = some ticket by rw [was]; rfl) rfl
      exact .advanced step (become_stage_self _) (fun _ apart => become_stage_of_ne apart) rfl rfl
    · next ticket attempt _ was _ =>
      cases happened
      exact .of_advance (.holds (show (w.stage p).passed? = some ticket by rw [was]; rfl) rfl)
    · cases happened
  | statGuard p | writeGuard p =>
    simp only [happen] at happened
    split at happened
    · next ticket guard was =>
      cases happened
      exact .of_advance (.holds (show (w.stage p).passed? = some ticket by rw [was]; rfl) rfl)
    · cases happened
  | inspectLegacy p state =>
    simp only [happen] at happened
    split at happened
    · next ticket attempt was =>
      cases happened
      split
      · exact .of_advance (.holds (show (w.stage p).passed? = some ticket by rw [was]; rfl) rfl)
      · exact .of_advance (.retries (show (w.stage p).ticket? = some ticket by rw [was]; rfl)
          (.inl rfl))
    · cases happened
  | settle p =>
    simp only [happen] at happened
    split at happened
    · cases happened
      exact .of_advance (.leaves rfl)
    · cases happened
      exact .of_advance (.leaves rfl)
    · cases happened
  | compareGuard p | readOwn p =>
    simp only [happen] at happened
    split at happened
    · cases happened
      split <;> exact .of_advance (.leaves rfl)
    · cases happened
  | unlinkGuard p =>
    simp only [happen] at happened
    split at happened
    · cases happened
      have step : Advance contenders w p .withdrawing := .leaves rfl
      exact .advanced step (become_stage_self _) (fun _ apart => become_stage_of_ne apart) rfl rfl
    · cases happened
  | delayed p =>
    simp only [happen] at happened
    split at happened
    · next ticket attempt was =>
      cases happened
      exact .of_advance (advance_nextAttempt was)
    · cases happened
  | removeOwn p =>
    simp only [happen] at happened
    split at happened
    · cases happened
      refine .removed (p := p) (by simp [gone])
        (fun _ apart => become_stage_of_ne apart) ?_ ?_
      · intro q apart
        exact get?_delete_of_ne _ fun same => apart (entryPath_injective same)
      · intro q r apart member
        exact unlink_due (fun same => apart (entryPath_injective same.symm)) member
    · cases happened
  | fail p =>
    obtain ⟨stage, fails, rfl⟩ := map_eq_some_iff.mp happened
    exact .of_advance (.leaves (gone_afterFailure fails))
  | die p =>
    cases happened
    exact .of_advance (.leaves rfl)
  | foreign name file =>
    cases happened
    cases file with
    | some file =>
      exact .foreign rfl (fun q => get?_set_of_ne _ _ (Ne.symm (lawful q)))
        fun _ _ member => member
    | none =>
      exact .foreign rfl (fun q => get?_delete_of_ne _ (Ne.symm (lawful q)))
        fun _ r member => unlink_due (lawful r) member
  | foreignLegacy legacy =>
    cases happened
    exact .foreign rfl (fun _ => rfl) fun _ _ member => member

omit [DecidableEq P] in
theorem initial_bakery (initial : w.Initial contenders) : Bakery contenders w where
  registered p := by
    constructor <;> rw [initial.stage p]
    · simp [chooses]
    · simp
    · simp [ticket?]
    · exact fun _ => initial.register p
  trusting p use scan same := by
    rw [initial.stage p] at same
    cases same
  cleared p q _ := by
    apply cleared_of_idle <;> rw [initial.stage p] <;> simp [passed?]

end Steps

end Bakery

/-- The call runs its protected action. -/
def Acts {P : Type} (w : SocketLockWorld P) (p : P) : Prop :=
  ∃ ticket guard, w.stage p = .acting ticket guard

/-- For any number of calls and every interleaving of their steps, with listings that are
not atomic, failures and deaths at any step and anything happening to other names: as long
as no entry is considered abandoned, at most one call at a time runs its action. -/
theorem at_most_one_action {P : Type} [DecidableEq P] (contenders : SocketContenders P)
    (start : SocketLockWorld P) (initial : start.Initial contenders)
    (events : List (SocketLockEvent P)) (w : SocketLockWorld P)
    (run : Run (fun w event w' => event.judgesAbandoned w = false ∧
      SocketLockStep contenders w event w') start events w) :
    ∀ p q, Acts w p → Acts w q → p = q := by
  have bakery : Bakery contenders w := by
    apply run.invariant (initial_bakery initial)
    intro w event w' holds step
    exact holds.moved (happen_moved holds step.2.1 step.1 step.2.2)
  rintro p q ⟨ticket, guard, mine⟩ ⟨ticket', guard', theirs⟩
  exact bakery.alone (show (w.stage p).passed? = some ticket by rw [mine]; rfl)
    (show (w.stage q).passed? = some ticket' by rw [theirs]; rfl)

/-- Two calls of one process. -/
def twoCalls : SocketContenders Bool where
  ownerToken p := if p then "b" else "a"
  pid _ := 1
  bootTimeSeconds _ := 0
  ownerToken_injective := by
    intro p q
    cases p <;> cases q <;> decide
  valid := by
    intro p
    cases p <;> decide

def emptyDirectory : SocketLockWorld Bool :=
  ⟨fun _ => .absent, OrderedMap.empty, fun _ => [], none, 0⟩

theorem emptyDirectory_initial : emptyDirectory.Initial twoCalls where
  stage _ := rfl
  register _ := rfl

def atOnce : LockReading := ⟨0, 0, fun _ => true⟩

/-- Lists the two registers and reads them. -/
def surveysBoth (p : Bool) : List (SocketLockEvent Bool) :=
  [.beginListing p, .listName p "owner-a.json", .listName p "owner-b.json", .endListing p,
    .statEntry p, .readEntry p atOnce, .statEntry p, .readEntry p atOnce]

/-- Both calls choose at the same time and get the same ticket. -/
def sameTickets : List (SocketLockEvent Bool) :=
  [.call false, .call true, .publish false 0 true, .publish true 0 true] ++
    surveysBoth false ++ surveysBoth true ++
    [.useCatalog true, .useCatalog false, .publish true 0 true, .publish false 0 true] ++
    surveysBoth true ++ surveysBoth false ++
    [.useCatalog true, .useCatalog false, .openGuard false, .statGuard false, .writeGuard false]

def youngStep (w : SocketLockWorld Bool) (event : SocketLockEvent Bool) : Option (SocketLockWorld Bool) :=
  if event.judgesAbandoned w then none else event.happen twoCalls w

theorem youngStep_lawful {w w' : SocketLockWorld Bool} {event : SocketLockEvent Bool}
    (member : event ∈ sameTickets) (step : youngStep w event = some w') :
    event.judgesAbandoned w = false ∧ SocketLockStep twoCalls w event w' := by
  unfold youngStep at step
  split at step
  · cases step
  · next young =>
    refine ⟨by simpa using young, ?_, step⟩
    cases event <;> first | exact trivial | simp [sameTickets, surveysBoth] at member

theorem at_most_one_action_same_tickets :
    ∃ w, sameTickets.foldlM youngStep emptyDirectory = some w ∧ Acts w false ∧ ¬ Acts w true := by
  have possible : (sameTickets.foldlM youngStep emptyDirectory).any (fun w =>
      w.stage false = .acting 1 (some 4)) = true := by decide +kernel
  obtain ⟨w, reached, acts⟩ := (any_eq_true _ _).mp possible
  have mine : Acts w false := ⟨1, some 4, by simpa using acts⟩
  refine ⟨w, reached, mine, fun theirs => ?_⟩
  have run : Run (fun w event w' => event ∈ sameTickets ∧ youngStep w event = some w')
      emptyDirectory sameTickets w := (Run.of_foldlM reached).restrict fun _ member _ => member
  have same := at_most_one_action twoCalls emptyDirectory emptyDirectory_initial sameTickets w
    (run.mono fun _ _ _ step => youngStep_lawful step.1 step.2) false true mine theirs
  cases same

/-- While a call holds its ticket, no call acts that had not begun to list the directory for its own
ticket when the first was published, in whatever order they go on. -/
theorem first_come_first_served {P : Type} [DecidableEq P] (contenders : SocketContenders P)
    (start : SocketLockWorld P) (initial : start.Initial contenders)
    {events events' : List (SocketLockEvent P)} {w w' : SocketLockWorld P}
    (run : Run (fun w event w' => event.judgesAbandoned w = false ∧
      SocketLockStep contenders w event w') start events w) {p q : P} {ticket : Nat}
    (held : (w.stage p).ticket? = some ticket)
    (late : w.stage q = .absent ∨ w.stage q = .announcing ∨ w.stage q = .surveying .choosing)
    (later : Run (fun w event w' => (event.judgesAbandoned w = false ∧
      SocketLockStep contenders w event w') ∧ (w'.stage p).ticket? = some ticket) w events' w') :
    ¬ Acts w' q := by
  have bakery : Bakery contenders w := run.invariant (initial_bakery initial) fun _ _ _ holds step =>
    holds.moved (happen_moved holds step.2.1 step.1 step.2.2)
  have follows : Follows contenders w p ticket q := by
    rcases late with stage | stage | stage
    · apply follows_of_idle <;> rw [stage] <;> rfl
    · apply follows_of_idle <;> rw [stage] <;> rfl
    · exact follows_of_surveying stage
  -- Whoever follows goes on to follow, and its own second listing would have to clear the way.
  obtain ⟨bakery, held, follows⟩ : Bakery contenders w' ∧ (w'.stage p).ticket? = some ticket ∧
      Follows contenders w' p ticket q := by
    apply later.invariant (And.intro bakery (And.intro held follows))
    rintro w event w' ⟨bakery, held, follows⟩ ⟨step, holds⟩
    have moved := happen_moved bakery step.2.1 step.1 step.2.2
    exact ⟨bakery.moved moved, holds, follows_step bakery.registered moved held holds follows⟩
  rintro ⟨ticket', guard, acts⟩
  have passed : (w'.stage q).passed? = some ticket' := by rw [acts]; rfl
  have apart : q ≠ p := by
    rintro rfl
    rw [ticket?_of_passed? passed] at held
    cases held
    have own := follows.ticket ticket (ticket?_of_passed? passed)
    rw [priority_asymm own] at own
    cases own
  have mine := follows.ticket ticket' (ticket?_of_passed? passed)
  have theirs := ((bakery.cleared q p apart).passed ticket' passed).ticket ticket held
  rw [priority_asymm mine] at theirs
  cases theirs

/-- One call holds the first ticket while the other still chooses its own. -/
def firstTicket : List (SocketLockEvent Bool) :=
  [.call false, .call true, .publish false 0 true, .publish true 0 true] ++ surveysBoth false ++
    [.useCatalog false, .publish false 0 true]

/-- The other chooses the second, and lists the directory again. -/
def secondTicket : List (SocketLockEvent Bool) :=
  surveysBoth true ++ [.useCatalog true, .publish true 0 true] ++ surveysBoth true ++
    [.useCatalog true]

theorem first_come_first_served_second_ticket :
    ∃ w w', firstTicket.foldlM youngStep emptyDirectory = some w ∧
      secondTicket.foldlM (fun w event => (youngStep w event).filter fun w' =>
        (w'.stage false).ticket? = some 1) w = some w' ∧ ¬ Acts w' true := by
  have possible : (firstTicket.foldlM youngStep emptyDirectory).any (fun w =>
      (w.stage false).ticket? = some 1 ∧ w.stage true = .surveying .choosing ∧
        (secondTicket.foldlM (fun w event => (youngStep w event).filter fun w' =>
          (w'.stage false).ticket? = some 1) w).isSome) = true := by decide +kernel
  obtain ⟨w, reached, held⟩ := (any_eq_true _ _).mp possible
  obtain ⟨held, late, follows⟩ := of_decide_eq_true held
  obtain ⟨w', reached'⟩ := isSome_iff_exists.mp follows
  have listed : ∀ event ∈ firstTicket ++ secondTicket, event ∈ sameTickets := by
    simp only [firstTicket, secondTicket, sameTickets, List.mem_append, List.mem_cons]
    tauto
  have run := (Run.of_foldlM reached).restrict fun event member _ =>
    listed event (List.mem_append_left _ member)
  have run' := (Run.of_foldlM reached').restrict fun event member _ =>
    listed event (List.mem_append_right _ member)
  refine ⟨w, w', reached, reached', first_come_first_served twoCalls emptyDirectory
    emptyDirectory_initial (run.mono fun _ _ _ step => youngStep_lawful step.1 step.2) held
    (.inr (.inr late)) (run'.mono fun _ _ _ step => ?_)⟩
  obtain ⟨stepped, holds⟩ := filter_eq_some_iff.mp step.2
  exact ⟨youngStep_lawful step.1 stepped, of_decide_eq_true holds⟩

end CodexHost.Guarantees.SocketLock
