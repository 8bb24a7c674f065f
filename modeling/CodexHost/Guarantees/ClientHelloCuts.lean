import CodexHost.Source.RemoteRelay.ClientHello

/-!
# The ClientHello does not depend on the cuts

Everything that the parser looks at before a verdict is inside the bytes it has; so more bytes change
nothing, except that a sequence which was given up for its length may show a wrong record after that.
-/
namespace CodexHost.Guarantees.ClientHelloCuts
open Source.RemoteRelay.ClientHello List Reader

variable {offset : Nat}

section Longer
variable {bytes : List UInt8} (more : List UInt8)

theorem byteAt_append (inside : offset < bytes.length) :
    byteAt (bytes ++ more) offset = byteAt bytes offset := by
  rw [byteAt, byteAt, getD_append _ _ _ _ inside]

theorem uint16At_append (inside : offset + 1 < bytes.length) :
    uint16At (bytes ++ more) offset = uint16At bytes offset := by
  rw [uint16At, uint16At, byteAt_append more (by omega), byteAt_append more inside]

theorem subarray_append {start end_ : Nat} (inside : end_ ≤ bytes.length) :
    subarray (bytes ++ more) start end_ = subarray bytes start end_ := by
  rw [subarray, subarray, take_append_of_le_length inside]

def notHandshake : HelloError := .message "Expected TLS handshake record"

/-- The verdict on a sequence, and the verdict on a longer one. -/
def Persists (bytes : List UInt8) (verdict verdict' : Except HelloError (Option ClientHello)) : Prop :=
  match verdict with
  | .ok none => True
  | .ok (some hello) => verdict' = .ok (some hello)
  | .error error => verdict' = .error error ∨
    error = tooLong ∧ maxHelloSize ≤ bytes.length ∧ verdict' = .error notHandshake

theorem persists_of_eq {verdict verdict' : Except HelloError (Option ClientHello)}
    (same : verdict' = verdict) : Persists bytes verdict verdict' := by
  subst same
  rcases verdict' with error | none | hello
  · exact .inl rfl
  · trivial
  · rfl

theorem parseFrom_append (bytes : List UInt8) (offset : Nat) (fragments : List (List UInt8)) :
    Persists bytes (parseFrom bytes offset fragments) (parseFrom (bytes ++ more) offset fragments) := by
  have length : (bytes ++ more).length = bytes.length + more.length := length_append
  fun_induction parseFrom bytes offset fragments with
  | case1 offset fragments header other =>
    refine persists_of_eq ?_
    rw [parseFrom, if_pos (by omega), byteAt_append more (by omega), if_pos other]
  | case2 offset fragments header handshake recordEnd large =>
    refine persists_of_eq ?_
    rw [parseFrom, if_pos (by omega), byteAt_append more (by omega), if_neg handshake,
      uint16At_append more (by omega)]
    exact if_pos large
  | case3 offset fragments header handshake recordEnd small open_ => trivial
  | case4 offset fragments header handshake recordEnd small complete fragments' result is =>
    refine persists_of_eq ?_
    rw [parseFrom, if_pos (by omega), byteAt_append more (by omega), if_neg handshake,
      uint16At_append more (by omega)]
    dsimp only
    rw [if_neg small, if_neg (by omega), subarray_append more (by omega),
      show inspect (fragments ++ [subarray bytes (offset + 5) recordEnd]).flatten = some result from is]
  | case5 offset fragments header handshake recordEnd small complete fragments' is ih =>
    have longer : parseFrom (bytes ++ more) offset fragments =
        parseFrom (bytes ++ more) recordEnd fragments' := by
      rw [parseFrom, if_pos (by omega), byteAt_append more (by omega), if_neg handshake,
        uint16At_append more (by omega)]
      dsimp only
      rw [if_neg small, if_neg (by omega), subarray_append more (by omega),
        show inspect (fragments ++ [subarray bytes (offset + 5) recordEnd]).flatten = none from is]
    rw [longer]
    exact ih
  | case6 offset fragments header long =>
    by_cases next : offset + 5 ≤ (bytes ++ more).length
    · by_cases handshake : byteAt (bytes ++ more) offset ≠ 22
      · exact .inr ⟨rfl, long, by rw [parseFrom, if_pos next, if_pos handshake]; rfl⟩
      · refine .inl ?_
        rw [parseFrom, if_pos next, if_neg handshake]
        exact if_pos (by omega)
    · refine .inl ?_
      rw [parseFrom, if_neg next, if_pos (by omega)]
  | case7 => trivial

/-- What is decided is decided for every longer sequence; only a sequence that is too long may turn out
to have a wrong record. -/
theorem parseClientHello_append (bytes : List UInt8) :
    Persists bytes (parseClientHello bytes) (parseClientHello (bytes ++ more)) :=
  parseFrom_append more bytes 0 []

end Longer

/-- A handshake record with this version and fragment. -/
structure Record where
  version : UInt8 × UInt8
  fragment : List UInt8
  fits : fragment.length < 2 ^ 16

def Record.bytes (record : Record) : List UInt8 :=
  [22, record.version.1, record.version.2, UInt8.ofNat (record.fragment.length / 256),
    UInt8.ofNat (record.fragment.length % 256)] ++ record.fragment

/-- The bytes of some records. -/
def stream (records : List Record) : List UInt8 := records.flatMap Record.bytes

/-- The handshake bytes that records carry. -/
def carried (records : List Record) : List UInt8 := records.flatMap Record.fragment

/-- A ClientHello handshake message within the size limit. -/
structure HelloMessage where
  bytes : List UInt8
  header : 4 ≤ bytes.length
  isHello : byteAt bytes 0 = 1
  whole : 4 + uint24At bytes 1 = bytes.length
  small : bytes.length ≤ maxHelloSize - 5

theorem Record.length_bytes (record : Record) : record.bytes.length = 5 + record.fragment.length := by
  simp [Record.bytes]
  omega

theorem byteAt_front (front back : List UInt8) (offset : Nat) :
    byteAt (front ++ back) (front.length + offset) = byteAt back offset := by
  simp [byteAt, getElem?_append_right]

theorem uint16At_front (front back : List UInt8) (offset : Nat) :
    uint16At (front ++ back) (front.length + offset) = uint16At back offset := by
  rw [uint16At, uint16At, byteAt_front, Nat.add_assoc, byteAt_front]

theorem Record.header (record : Record) (rest : List UInt8) :
    byteAt (record.bytes ++ rest) 0 = 22 ∧ uint16At (record.bytes ++ rest) 3 = record.fragment.length := by
  have fits := record.fits
  refine ⟨rfl, ?_⟩
  change (UInt8.ofNat (record.fragment.length / 256)).toNat * 256 +
    (UInt8.ofNat (record.fragment.length % 256)).toNat = _
  simp only [UInt8.toNat_ofNat']
  omega

/-- The loop takes a complete record. -/
theorem parseFrom_record (front rest : List UInt8) (record : Record) (fragments : List (List UInt8))
    (within : (front ++ record.bytes).length ≤ maxHelloSize) :
    parseFrom (front ++ (record.bytes ++ rest)) front.length fragments =
      match inspect (fragments ++ [record.fragment]).flatten with
      | some result => result.map some
      | none => parseFrom (front ++ (record.bytes ++ rest)) (front ++ record.bytes).length
        (fragments ++ [record.fragment]) := by
  obtain ⟨handshake, size⟩ := record.header rest
  have first := byteAt_front front (record.bytes ++ rest) 0
  have length := uint16At_front front (record.bytes ++ rest) 3
  rw [Nat.add_zero] at first
  rw [handshake] at first
  rw [size] at length
  have bytes := record.length_bytes
  have all : (front ++ (record.bytes ++ rest)).length = front.length + (5 + record.fragment.length) +
      rest.length := by
    rw [length_append, length_append, bytes]
    omega
  have content : subarray (front ++ (record.bytes ++ rest)) (front.length + 5)
      (front.length + 5 + record.fragment.length) = record.fragment := by
    have cut : front ++ (record.bytes ++ rest) = (front ++ record.bytes) ++ rest := by
      rw [append_assoc]
    have stop : front.length + 5 + record.fragment.length = (front ++ record.bytes).length := by
      rw [length_append, bytes]
      omega
    rw [subarray, cut, stop, take_left, Nat.add_comm, drop_append, drop_eq_nil_of_le (by omega)]
    simp [Record.bytes]
  rw [parseFrom, if_pos (by omega), first, if_neg (by simp), length]
  dsimp only
  have next : front.length + 5 + record.fragment.length = (front ++ record.bytes).length := by
    rw [length_append, bytes, Nat.add_assoc]
  rw [if_neg (by omega), if_neg (by omega), content]
  cases inspect (fragments ++ [record.fragment]).flatten with
  | none => simp only [next]
  | some verdict => rfl

/-- Fragments of a message decide when it is complete. -/
theorem inspect_front (message : HelloMessage) {front back : List UInt8}
    (is : message.bytes = front ++ back) :
    inspect front = if back = [] then some (extensions message.bytes) else none := by
  have length : message.bytes.length = front.length + back.length := by rw [is, length_append]
  have header := message.header
  rw [inspect]
  by_cases begun : 4 ≤ front.length
  · have hello : byteAt front 0 = 1 := by
      rw [← byteAt_append back (by omega), ← is, message.isHello]
    have size : 4 + uint24At front 1 = message.bytes.length := by
      rw [← message.whole, is, uint24At, uint24At, uint16At_append back (by omega),
        byteAt_append back (by omega)]
    have small := message.small
    rw [if_pos begun, if_neg (by omega)]
    rw [size, if_neg (by omega)]
    by_cases complete : back = []
    · have same : subarray front 0 message.bytes.length = message.bytes := by
        rw [is, complete, append_nil, subarray, take_length, drop_zero]
      rw [if_pos complete, same, if_pos (by rw [length, complete]; exact Nat.le_refl _)]
    · have some := length_pos_iff.mpr complete
      rw [if_neg complete, if_neg (by omega)]
  · have some : back ≠ [] := fun complete => by
      rw [complete, length_nil] at length
      omega
    rw [if_neg begun, if_neg some]

theorem parseFrom_records (message : HelloMessage) (records : List Record) (front rest : List UInt8)
    (fragments : List (List UInt8)) (is : message.bytes = fragments.flatten ++ carried records)
    (begun : fragments.flatten.length < message.bytes.length)
    (within : (front ++ stream records).length ≤ maxHelloSize) :
    parseFrom (front ++ (stream records ++ rest)) front.length fragments =
      (extensions message.bytes).map some := by
  induction records generalizing front fragments with
  | nil =>
    rw [is] at begun
    simp [carried] at begun
  | cons record records ih =>
    have cut : stream (record :: records) ++ rest = record.bytes ++ (stream records ++ rest) := by
      rw [stream, flatMap_cons, append_assoc]
      rfl
    have within' : (front ++ record.bytes ++ stream records).length ≤ maxHelloSize := by
      rwa [stream, flatMap_cons, ← append_assoc] at within
    have carries : message.bytes = (fragments ++ [record.fragment]).flatten ++ carried records := by
      rw [is, carried, flatMap_cons, flatten_append, flatten_singleton, append_assoc]
      rfl
    have fits : (front ++ record.bytes).length ≤ maxHelloSize := by
      rw [length_append] at within'
      omega
    rw [cut, parseFrom_record front _ record fragments fits, inspect_front message carries]
    by_cases complete : carried records = []
    · rw [if_pos complete]
    · rw [if_neg complete]
      have some := length_pos_iff.mpr complete
      have length := congrArg List.length carries
      rw [length_append] at length
      have step := ih (front ++ record.bytes) (fragments ++ [record.fragment]) carries (by omega) within'
      rwa [append_assoc front] at step

/-- The records of a message decide as the message does, whatever follows them. -/
theorem parseClientHello_stream (message : HelloMessage) {records : List Record}
    (carries : carried records = message.bytes) (within : (stream records).length ≤ maxHelloSize)
    (rest : List UInt8) :
    parseClientHello (stream records ++ rest) = (extensions message.bytes).map some := by
  have header := message.header
  exact parseFrom_records message records [] rest [] carries.symm (by simp; omega) within

section Reads

/-- The bytes that an event brings. -/
def chunkOf : Event → List UInt8
  | .arrives chunk => chunk
  | _ => []

def arrived (events : List Event) : List UInt8 := events.flatMap chunkOf

/-- An event that does not end the reading. -/
def isQuiet : Event → Bool
  | .arrives _ | .readable => true
  | _ => false

/-- No event ends the reading. -/
def Quiet (events : List Event) : Prop := ∀ event ∈ events, isQuiet event = true

/-- The bytes that were read and the queue are all that has arrived; a verdict is that on these bytes. -/
structure Inv (total : List UInt8) (quiet : Prop) (reader : Reader) : Prop where
  front : reader.bytes <+: total
  pending : reader.settled = none → reader.bytes ++ reader.queue = total ∧
    parseClientHello reader.bytes = .ok none
  accepted : ∀ hello, reader.settled = some (.ok hello) → reader.queue = total ∧
    parseClientHello reader.bytes = .ok (some hello)
  rejected : ∀ error, reader.settled = some (.error error) → quiet →
    parseClientHello reader.bytes = .error error ∧ reader.bytes.length ≤ maxHelloSize

variable {total : List UInt8} {quiet : Prop} {reader : Reader}

theorem parseFrom_short {bytes : List UInt8} {fragments : List (List UInt8)}
    (undecided : parseFrom bytes offset fragments = .ok none) : bytes.length < maxHelloSize := by
  fun_induction parseFrom bytes offset fragments with
  | case1 | case2 | case6 => cases undecided
  | case3 offset fragments header handshake recordEnd small open_ => omega
  | case4 offset fragments header handshake recordEnd small complete fragments' result is =>
    cases result <;> cases undecided
  | case5 offset fragments header handshake recordEnd small complete fragments' is ih => exact ih undecided
  | case7 offset fragments header short => omega

section
variable (inv : Inv total quiet reader)
include inv

/-- One call of `read`. -/
theorem Inv.read (open_ : reader.settled = none) :
    Inv total quiet reader.read := by
  obtain ⟨all, undecided⟩ := inv.pending open_
  rw [Reader.read]
  dsimp only
  by_cases nothing : min reader.queue.length (maxHelloSize - reader.bytes.length) = 0
  · rw [if_pos nothing]
    exact inv
  rw [if_neg nothing]
  generalize size : min reader.queue.length (maxHelloSize - reader.bytes.length) = count at nothing
  have again : reader.bytes ++ reader.queue.take count ++ reader.queue.drop count = total := by
    rw [append_assoc, take_append_drop, all]
  have front : reader.bytes ++ reader.queue.take count <+: total := ⟨_, again⟩
  have limit : (reader.bytes ++ reader.queue.take count).length ≤ maxHelloSize := by
    rw [length_append, length_take]
    omega
  split
  · next is =>
    exact ⟨front, fun _ => ⟨again, is⟩, fun hello settled => by simp [open_] at settled,
      fun error settled => by simp [open_] at settled⟩
  · next hello is =>
    refine ⟨front, fun settled => by simp at settled, fun hello' settled => ⟨again, ?_⟩,
      fun error settled => by simp at settled⟩
    cases settled
    exact is
  · next error is =>
    refine ⟨front, fun settled => by simp at settled, fun hello settled => by simp at settled,
      fun error' settled _ => ⟨?_, limit⟩⟩
    cases settled
    exact is

theorem Inv.fail (error : HelloError) (loud : ¬quiet) :
    Inv total quiet (reader.fail error) where
  front := inv.front
  pending settled := by cases settled
  accepted hello settled := by cases settled
  rejected _ _ isQuiet := absurd isQuiet loud

theorem Inv.step {event : Event} (still : quiet → isQuiet event = true) :
    Inv (total ++ chunkOf event) quiet (reader.step event) := by
  have same : total ++ [] = total := append_nil total
  cases event with
  | arrives chunk =>
    refine ⟨inv.front.trans (prefix_append total chunk), fun open_ => ?_, fun hello settled => ?_,
      inv.rejected⟩
    · obtain ⟨all, undecided⟩ := inv.pending open_
      refine ⟨?_, undecided⟩
      rw [← all, append_assoc]
      rfl
    · obtain ⟨all, accepted⟩ := inv.accepted hello settled
      refine ⟨?_, accepted⟩
      rw [← all]
      rfl
  | readable =>
    rw [show chunkOf .readable = [] from rfl, same]
    simp only [Reader.step]
    cases settled : reader.settled with
    | some verdict => exact inv
    | none => exact inv.read settled
  | timeout =>
    rw [show chunkOf .timeout = [] from rfl, same]
    simp only [Reader.step]
    split
    · exact inv
    · exact inv.fail _ fun quiet => by cases still quiet
  | socketError text =>
    rw [show chunkOf (.socketError text) = [] from rfl, same]
    simp only [Reader.step]
    split
    · exact inv
    · exact inv.fail _ fun quiet => by cases still quiet
  | ended =>
    rw [show chunkOf .ended = [] from rfl, same]
    simp only [Reader.step]
    split
    · exact inv
    · exact inv.fail _ fun quiet => by cases still quiet

end

theorem Inv.start (quiet : Prop) (queue : List UInt8) : Inv queue quiet (Reader.read ⟨queue, [], none⟩) := by
  refine Inv.read ⟨List.nil_prefix, fun _ => ⟨rfl, ?_⟩, fun hello settled => ?_, fun error settled => ?_⟩ rfl
  · rw [parseClientHello, parseFrom]
    rfl
  · cases settled
  · cases settled

/-- The invariant after the call and the events that follow. -/
theorem inv_readClientHello (queue : List UInt8) (events : List Event) :
    Inv (queue ++ arrived events) (Quiet events) (readClientHello queue events) := by
  have folds : ∀ (events : List Event) {total : List UInt8} {quiet : Prop} {reader : Reader},
      Inv total quiet reader → (quiet → Quiet events) →
      Inv (total ++ arrived events) quiet (events.foldl step reader) := by
    intro events
    induction events with
    | nil =>
      intro total quiet reader inv _
      rw [arrived, flatMap_nil, append_nil]
      exact inv
    | cons event events ih =>
      intro total quiet reader inv still
      rw [arrived, flatMap_cons, ← append_assoc]
      exact ih (inv.step fun isStill => still isStill event mem_cons_self)
        fun isStill other member => still isStill other (mem_cons_of_mem event member)
  exact folds events (Inv.start _ queue) id

/-- A read that decides nothing has taken the whole queue. -/
theorem read_drains (inv : Inv total quiet reader) (open_ : reader.settled = none)
    (after : reader.read.settled = none) : reader.read.bytes = total := by
  obtain ⟨all, undecided⟩ := (inv.read open_).pending after
  obtain ⟨-, undecided'⟩ := inv.pending open_
  have short := parseFrom_short undecided
  have short' := parseFrom_short undecided'
  have empty : reader.read.queue = [] := by
    rw [Reader.read] at short after ⊢
    dsimp only at short after ⊢
    split
    · next nothing => exact length_eq_zero_iff.mp (by omega)
    · next some =>
      rw [if_neg some] at short after
      split
      · next is =>
        rw [is] at short
        rw [length_append, length_take] at short
        exact drop_eq_nil_of_le (by omega)
      · next hello is => simp [is] at after
      · next error is => simp [is] at after
  rwa [empty, append_nil] at all

/-- A verdict on bytes that are the front of the records of a message and more is that of the message. -/
theorem verdict_of_front (message : HelloMessage) {records : List Record} {bytes rest : List UInt8}
    {verdict : Except HelloError ClientHello} (carries : carried records = message.bytes)
    (within : (stream records).length ≤ maxHelloSize) (front : bytes <+: stream records ++ rest)
    (is : parseClientHello bytes = verdict.map some) : verdict = extensions message.bytes := by
  have decided : ∀ {verdict' : Except HelloError ClientHello},
      verdict.map some = verdict'.map some → verdict = verdict' := by
    intro verdict' same
    cases verdict <;> cases verdict' <;> cases same <;> rfl
  refine decided ?_
  by_cases complete : (stream records).length ≤ bytes.length
  · obtain ⟨extra, whole⟩ := prefix_of_prefix_length_le (prefix_append _ rest) front complete
    rw [← is, ← whole, parseClientHello_stream message carries within]
  · obtain ⟨more, whole⟩ := front
    have persists := parseClientHello_append more bytes
    rw [whole, parseClientHello_stream message carries within, is] at persists
    cases verdict with
    | ok hello => exact persists.symm
    | error error =>
      rcases persists with same | ⟨-, long, -⟩
      · exact same.symm
      · omega

/-- Once the records of a message have arrived and the socket is read, the message has decided. -/
theorem readClientHello_stream (message : HelloMessage) {records : List Record}
    (carries : carried records = message.bytes) (within : (stream records).length ≤ maxHelloSize)
    {queue : List UInt8} {events : List Event} (quiet : Quiet events)
    (complete : stream records <+: queue ++ arrived events) :
    (readClientHello queue (events ++ [.readable])).settled = some (extensions message.bytes) := by
  obtain ⟨rest, total⟩ := complete
  have inv := inv_readClientHello queue events
  have last : readClientHello queue (events ++ [.readable]) =
      (readClientHello queue events).step .readable := by
    rw [readClientHello, foldl_append]
    rfl
  have verdict : ∀ reader verdict, Inv (queue ++ arrived events) (Quiet events) reader →
      reader.settled = some verdict → verdict = extensions message.bytes := by
    intro reader verdict inv settled
    refine verdict_of_front message carries within (total ▸ inv.front) ?_
    cases verdict with
    | ok hello => exact (inv.accepted hello settled).2
    | error error => exact (inv.rejected error settled quiet).1
  rw [last]
  simp only [step]
  cases settled : (readClientHello queue events).settled with
  | some before =>
    rw [Option.isSome_some, if_pos rfl, settled, verdict _ before inv settled]
  | none =>
    rw [Option.isSome_none, if_neg Bool.false_ne_true]
    cases after : (readClientHello queue events).read.settled with
    | some decided => rw [verdict _ decided (inv.read settled) after]
    | none =>
      have undecided := ((inv.read settled).pending after).2
      rw [read_drains inv settled after, ← total, parseClientHello_stream message carries within] at undecided
      cases is : extensions message.bytes <;> rw [is] at undecided <;> cases undecided

end Reads

/-- However the records of a message and the stream are cut, the reading gives what the message says; a
verdict stays for every longer sequence, but for the error of a sequence that was too long; and what was
read is on the socket again after a success. -/
theorem hello_read_whole :
    (∀ (message : HelloMessage) (records : List Record) (queue : List UInt8) (events : List Event),
      carried records = message.bytes → (stream records).length ≤ maxHelloSize → Quiet events →
      stream records <+: queue ++ arrived events →
        (readClientHello queue (events ++ [.readable])).settled = some (extensions message.bytes)) ∧
    (∀ bytes more, Persists bytes (parseClientHello bytes) (parseClientHello (bytes ++ more))) ∧
    ∀ queue events hello, (readClientHello queue events).settled = some (.ok hello) →
      (readClientHello queue events).queue = queue ++ arrived events :=
  ⟨fun message _ _ _ carries within quiet complete =>
      readClientHello_stream message carries within quiet complete,
    fun bytes more => parseClientHello_append more bytes,
    fun queue events hello settled => ((inv_readClientHello queue events).accepted hello settled).1⟩

/-- A message that asks for the server `a.b`. -/
def sampleBytes : List UInt8 :=
  [1, 0, 0, 55, 3, 3] ++ List.replicate 32 0 ++
    [0, 0, 2, 0x13, 1, 1, 0, 0, 12, 0, 0, 0, 8, 0, 6, 0, 0, 3, 97, 46, 98]

def sampleMessage : HelloMessage := ⟨sampleBytes, by decide, by decide, by decide, by decide⟩

def sampleRecords : List Record :=
  [⟨(3, 1), sampleBytes.take 2, by decide⟩, ⟨(3, 1), sampleBytes.drop 2, by decide⟩]

theorem sample_extensions : extensions sampleBytes = .ok ⟨"a.b", []⟩ := by decide +kernel

theorem hello_read_whole_sample : (readClientHello ((stream sampleRecords).take 9)
      [.readable, .arrives ((stream sampleRecords).drop 9), .readable]).settled = some (.ok ⟨"a.b", []⟩) := by
  rw [← sample_extensions]
  exact hello_read_whole.1 sampleMessage sampleRecords ((stream sampleRecords).take 9)
    [.readable, .arrives ((stream sampleRecords).drop 9)] (by decide) (by decide)
    (by simp [Quiet, isQuiet]) (by simp [arrived, chunkOf])

/-- The front of a message of 16378 bytes. -/
def longFragment (zeros : Nat) : List UInt8 := [1, 0, 0x3F, 0xF6] ++ List.replicate zeros 0

theorem length_longFragment (zeros : Nat) : (longFragment zeros).length = 4 + zeros := by
  rw [longFragment, length_append, length_replicate]
  rfl

/-- A record that fills the limit but for two bytes, and does not complete its message. -/
def longRecord : Record := ⟨(3, 1), longFragment 16373, by rw [length_longFragment]; decide⟩

theorem length_longRecord : longRecord.bytes.length = 16382 := by
  rw [Record.length_bytes, longRecord, length_longFragment]

theorem inspect_longRecord : inspect longRecord.fragment = none := by
  have length : longRecord.fragment.length = 16377 := length_longFragment 16373
  have hello : byteAt longRecord.fragment 0 = 1 := rfl
  have size : uint24At longRecord.fragment 1 = 16374 := rfl
  rw [inspect, length, hello, size]
  decide

/-- A sequence of 16 KiB is given up for its length; with three more bytes it has a wrong record. -/
theorem longer_differs : ¬∀ bytes more verdict, parseClientHello bytes = verdict → verdict ≠ .ok none →
    parseClientHello (bytes ++ more) = verdict := by
  intro always
  have length := length_longRecord
  have after : ∀ rest : List UInt8, parseClientHello (longRecord.bytes ++ rest) =
      parseFrom (longRecord.bytes ++ rest) longRecord.bytes.length [longRecord.fragment] := by
    intro rest
    have step := parseFrom_record [] rest longRecord [] (by rw [nil_append, length]; decide)
    rw [nil_append, nil_append, flatten_singleton, inspect_longRecord] at step
    exact step
  have first : parseClientHello (longRecord.bytes ++ [23, 0]) = .error tooLong := by
    rw [after, parseFrom, if_neg (by simp [length]), if_pos (by simp [length, maxHelloSize])]
  have other : byteAt (longRecord.bytes ++ [23, 0, 0, 0, 0]) longRecord.bytes.length = 23 := by
    simp [byteAt]
  have second : parseClientHello (longRecord.bytes ++ [23, 0] ++ [0, 0, 0]) = .error notHandshake := by
    rw [append_assoc]
    change parseClientHello (longRecord.bytes ++ [23, 0, 0, 0, 0]) = _
    rw [after, parseFrom, if_pos (by simp), other, if_pos (by decide)]
    rfl
  have same := always _ [0, 0, 0] _ first (by simp)
  rw [second, notHandshake, tooLong] at same
  simp at same

end CodexHost.Guarantees.ClientHelloCuts
