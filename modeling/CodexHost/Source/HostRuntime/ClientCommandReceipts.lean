import CodexHost.Foundation.Json

/-!
# Receipts of client commands

`packages/host-runtime/src/client-command-receipts.ts`: a command that a client sends again under the
same key gets the answer of the first one. The digest of the canonical parameters is a parameter.
A submission is called in a later task than the run that makes it, and its answer is handled in a
later task again.
-/
namespace CodexHost.Source.HostRuntime.ClientCommandReceipts
open Foundation

section Canonical
variable {N : Type}

def digitsOf (key : Utf16) : Bool := key.all fun unit => 48 ≤ unit && unit ≤ 57

/-- The array index that a property key is. -/
def arrayIndex (key : Utf16) : Option Nat :=
  let value := key.foldl (fun value unit => value * 10 + (unit.toNat - 48)) 0
  if key ≠ [] ∧ digitsOf key ∧ (key.head? = some 48 → key.length = 1) ∧ value < 2 ^ 32 - 1 then some value
  else none

/-- The members of an object whose keys were added in this order: array indices come first. -/
def ownMembers (members : List (Utf16 × Json N)) : List (Utf16 × Json N) :=
  (members.filter fun member => (arrayIndex member.1).isSome).insertionSort
      (fun a b => (arrayIndex a.1).getD 0 ≤ (arrayIndex b.1).getD 0) ++
    members.filter fun member => !(arrayIndex member.1).isSome

/-- `Object.fromEntries` over the sorted keys. -/
def sorted (members : List (Utf16 × Json N)) : List (Utf16 × Json N) :=
  ownMembers (members.insertionSort fun a b => a.1 ≤ b.1)

mutual

/-- The value that `JSON.stringify` sees through the replacer. -/
def canonical : Json N → Json N
  | .array items => .array (canonicalItems items)
  | .object members => .object (sorted (canonicalMembers members))
  | value => value

def canonicalItems : List (Json N) → List (Json N)
  | [] => []
  | item :: items => canonical item :: canonicalItems items

def canonicalMembers : List (Utf16 × Json N) → List (Utf16 × Json N)
  | [] => []
  | (key, value) :: members => (key, canonical value) :: canonicalMembers members

end

end Canonical

inductive ConsoleHostReply (N : Type) where
  | result (value : Json N)
  | error (code : Int) (message : String)

/-- How the promise of a submission settles. -/
inductive Outcome (N : Type) where
  | reply (reply : ConsoleHostReply N)
  | rejected

/-- The promise is named by the number of its submission. -/
structure Receipt where
  fingerprint : String
  result : Nat
  settled : Bool
  threadId : Option Utf16
  clientId : Option Utf16
  turnId : Option Utf16
  deriving DecidableEq

abbrev Entries := OrderedMap Utf16 Receipt

def MAX_ENTRIES : Nat := 256

def clientIdForTurn (entries : Entries) (threadId turnId : Utf16) : Option Utf16 :=
  (entries.values.find? fun entry => entry.threadId = some threadId ∧ entry.turnId = some turnId).bind
    (·.clientId)

/-- What a call of `run` returns: the promise of a submission, or an error. -/
inductive Answer where
  | result (submission : Nat)
  | error (code : Int) (message : String)
  deriving DecidableEq, Repr

section Members
variable {N : Type}

def stringOf : Option (Json N) → Option Utf16
  | some (.string value) => some value
  | _ => none

def textMember (members : List (Utf16 × Json N)) (key : String) : Option Utf16 :=
  stringOf (members.lookup (Utf16.ofString key))

/-- `reply.result.turn.id` -/
def turnIdOf : ConsoleHostReply N → Option Utf16
  | .result (.object members) =>
    match members.lookup (Utf16.ofString "turn") with
    | some (.object turn) => textMember turn "id"
    | _ => none
  | _ => none

/-- Validation or busy: definitely not submitted. -/
def notSubmitted : ConsoleHostReply N → Bool
  | .error code _ => code = -32602 || code = -32072
  | .result _ => false

end Members

section Run
variable {N : Type} (format : NumberFormat N) (digest : List Char → String)

/-- The parameters of a command, an object. -/
structure Params (format : NumberFormat N) where
  members : List (Utf16 × Json N)
  regular : Json.Regular format (.object members)

def canonicalText (params : Params format) : List Char :=
  (canonical (.object params.members)).write format

def fingerprint (params : Params format) : String := digest (canonicalText format params)

/-- The result of a call: what it returns, the entry it evicts, and the table after it. -/
structure Called where
  answer : Answer
  evicted : Option (Utf16 × Receipt)
  entries : Entries

/-- A new entry for a submission of this number. -/
def entered (entries : Entries) (key : Utf16) (params : Params format) (submission : Nat) : Entries :=
  entries.set key
    { fingerprint := fingerprint format digest params
      result := submission
      settled := false
      threadId := textMember params.members "threadId"
      clientId := textMember params.members "clientUserMessageId"
      turnId := none }

def run (entries : Entries) (key : Utf16) (params : Params format) (submission : Nat) : Called :=
  match entries.get? key with
  | some existing =>
    if existing.fingerprint = fingerprint format digest params then
      ⟨.result existing.result, none, entries⟩
    else ⟨.error (-32602) "Message ID was already used with different input", none, entries⟩
  | none =>
    if entries.entries.length ≥ MAX_ENTRIES then
      match entries.entries.find? (·.2.settled) with
      | none => ⟨.error (-32090) "Too many pending client commands", none, entries⟩
      | some oldest =>
        ⟨.result submission, some oldest,
          entered format digest (entries.delete oldest.1) key params submission⟩
    else ⟨.result submission, none, entered format digest entries key params submission⟩

/-- The handlers of `result.then`. They hold the entry itself, but delete by key. -/
def settle (entries : Entries) (key : Utf16) (submission : Nat) (outcome : Outcome N) : Entries :=
  let turnId := match outcome with
    | .reply reply => turnIdOf reply
    | .rejected => none
  let entries := match entries.get? key with
    | some entry =>
      if entry.result = submission then
        entries.set key { entry with settled := true, turnId := turnId.or entry.turnId }
      else entries
    | none => entries
  match outcome with
  | .reply reply => if notSubmitted reply then entries.delete key else entries
  | .rejected => entries

end Run

section System
variable {N : Type} (format : NumberFormat N) (digest : List Char → String)

inductive Progress (N : Type) where
  | waiting
  | called
  | answered (outcome : Outcome N)

/-- A submission whose handlers have not run. -/
structure Submission (N : Type) where
  key : Utf16
  progress : Progress N

inductive Record (format : NumberFormat N) where
  | ran (key : Utf16) (params : Params format) (answer : Answer)
  | submitted (key : Utf16) (submission : Nat)
  | settled (key : Utf16) (submission : Nat) (outcome : Outcome N)
  | evicted (key : Utf16) (submission : Nat) (forKey : Utf16)

structure State (format : NumberFormat N) where
  entries : Entries
  inFlight : Nat → Option (Submission N)
  next : Nat
  log : List (Record format)

def initial : State format := ⟨.empty, fun _ => none, 0, []⟩

inductive Event (format : NumberFormat N) where
  | run (key : Utf16) (params : Params format)
  | call (submission : Nat)
  | answer (submission : Nat) (outcome : Outcome N)
  | settle (submission : Nat)

variable {format}

/-- `run`, with the records of what it has done. -/
def State.run (s : State format) (key : Utf16) (params : Params format) : State format :=
  let called := ClientCommandReceipts.run format digest s.entries key params s.next
  let eviction := called.evicted.toList.map fun oldest => .evicted oldest.1 oldest.2.result key
  if called.answer = .result s.next then
    { entries := called.entries
      inFlight := Function.update s.inFlight s.next (some ⟨key, .waiting⟩)
      next := s.next + 1
      log := s.log ++ eviction ++ [.submitted key s.next, .ran key params called.answer] }
  else { s with entries := called.entries, log := s.log ++ eviction ++ [.ran key params called.answer] }

def State.progress (s : State format) (submission : Nat) (progress : Progress N) : State format :=
  { s with
    inFlight := Function.update s.inFlight submission
      ((s.inFlight submission).map fun old => { old with progress := progress }) }

def step (s : State format) : Event format → Option (State format)
  | .run key params => some (s.run digest key params)
  | .call submission =>
    match s.inFlight submission with
    | some ⟨_, .waiting⟩ => some (s.progress submission .called)
    | _ => none
  | .answer submission outcome =>
    match s.inFlight submission with
    | some ⟨_, .called⟩ => some (s.progress submission (.answered outcome))
    | _ => none
  | .settle submission =>
    match s.inFlight submission with
    | some ⟨key, .answered outcome⟩ =>
      some { s with
        entries := ClientCommandReceipts.settle s.entries key submission outcome
        inFlight := Function.update s.inFlight submission none
        log := s.log ++ [.settled key submission outcome] }
    | _ => none

end System

end CodexHost.Source.HostRuntime.ClientCommandReceipts
