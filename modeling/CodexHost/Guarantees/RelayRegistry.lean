import CodexHost.Foundation.Transition
import CodexHost.Source.RemoteRelay.Registration

/-!
# Who is in the registry of the relay

An agent is entered while its socket is open, after its connection has signed its own challenge and the
check has accepted it, and it leaves the registry before its socket is closed. What happens to a
connection that is no longer open changes neither another connection nor another agent's entry.
-/
namespace CodexHost.Guarantees.RelayRegistry
open Foundation Source.RemoteRelay.Registration List Option Function
open Source.RemoteRelay.Registration.Relay (Event)

section Proof
variable (setup : Setup)

/-- A response of the connection has signed the challenge, with the key of this ID. -/
def Signed (events : List Event) (c : Nat) (challenge id : String) : Prop :=
  ∃ response throws key signature, Event.response c response throws ∈ events ∧
    (single response.publicKey).bind (decodeField · 32) = some key ∧
    (single response.signature).bind (decodeField · 64) = some signature ∧
    setup.verify (registrationContent setup.controlHost challenge) key signature = true ∧
    setup.deriveId key = id

/-- The connection has signed its challenge, and the check has accepted this name for it, but for the
case of its letters. Without a check the name is the ID of the key. -/
def Proved (events : List Event) (c : Nat) (challenge name : String) : Prop :=
  ∃ id, Signed setup events c challenge id ∧
    if setup.check then
      ∃ accepted throws, Event.checked c (.accepted accepted throws) ∈ events ∧ accepted.toLower = name
    else id.toLower = name

/-- What is known of a connection. -/
structure Known (events : List Event) (c : Nat) (connection : Connection) : Prop where
  named : ∀ name, connection.name = some name → Proved setup events c connection.challenge name
  checking : ∀ request, connection.checking = some request →
    setup.check = true ∧ Signed setup events c connection.challenge request.id ∧ connection.name = none
  unanswered : connection.responded = false → connection.name = none ∧ connection.checking = none
  closing : connection.closeCode.isSome → connection.readyState ≠ .open

/-- The invariant of the registry. -/
structure Inv (events : List Event) (relay : Relay) : Prop where
  unborn : ∀ c, relay.opened ≤ c → relay.connection c = none
  known : ∀ c connection, relay.connection c = some connection → Known setup events c connection
  registered : ∀ name c, relay.agents name = some c → ∃ connection, relay.connection c = some connection ∧
    connection.name = some name ∧ connection.readyState ≠ .closed ∧ connection.closeCode = none

variable {setup}

theorem registrationKey_signed {challenge : String} {response : RegistrationResponse} {key : List UInt8}
    (valid : registrationKey setup challenge response = some key) :
    ∃ signature, (single response.publicKey).bind (decodeField · 32) = some key ∧
      (single response.signature).bind (decodeField · 64) = some signature ∧
      setup.verify (registrationContent setup.controlHost challenge) key signature = true := by
  simp only [registrationKey, bind_eq_bind, bind_eq_some_iff] at valid
  obtain ⟨publicKey, isKey, keyBytes, decodesKey, signature, isSignature, bytes, decodes, is⟩ := valid
  split at is
  · cases is
  · next good =>
    cases is
    simp only [not_or, not_not, Bool.not_eq_true', Bool.not_eq_false] at good
    refine ⟨bytes, ?_, ?_, good.2⟩
    · rw [isKey]
      exact decodesKey
    · rw [isSignature]
      exact decodes

theorem Signed.mono {events more : List Event} {c : Nat} {challenge id : String}
    (signed : Signed setup events c challenge id) : Signed setup (events ++ more) c challenge id := by
  obtain ⟨response, throws, key, signature, member, rest⟩ := signed
  exact ⟨response, throws, key, signature, mem_append_left more member, rest⟩

theorem Proved.mono {events more : List Event} {c : Nat} {challenge name : String}
    (proved : Proved setup events c challenge name) : Proved setup (events ++ more) c challenge name := by
  obtain ⟨id, signed, accepted⟩ := proved
  refine ⟨id, signed.mono, ?_⟩
  split at accepted
  · next check =>
    obtain ⟨name, throws, member, is⟩ := accepted
    rw [if_pos check]
    exact ⟨name, throws, mem_append_left more member, is⟩
  · next check =>
    rw [if_neg check]
    exact accepted

theorem Inv.mono {events : List Event} {relay : Relay} (inv : Inv setup events relay) (more : List Event) :
    Inv setup (events ++ more) relay := by
  refine ⟨inv.unborn, fun c connection is => ?_, inv.registered⟩
  have known := inv.known c connection is
  exact ⟨fun name named => (known.named name named).mono,
    fun request checking => ⟨(known.checking request checking).1, (known.checking request checking).2.1.mono,
      (known.checking request checking).2.2⟩, known.unanswered, known.closing⟩

end Proof

section Registry
variable {setup : Setup} {events : List Event} {relay next final : Relay} {c d : Nat} {connection : Connection}

/-- Only this connection and its entries change. -/
structure Local (c : Nat) (relay next : Relay) : Prop where
  connection : ∀ d, d ≠ c → next.connection d = relay.connection d
  entries : ∀ name d, d ≠ c → (next.agents name = some d ↔ relay.agents name = some d)

/-- A connection that is not open does not open again and gets no entry. -/
structure Calm (c : Nat) (relay next : Relay) : Prop where
  silent : ∀ connection, relay.connection c = some connection → connection.readyState ≠ .open →
    ∃ later, next.connection c = some later ∧ later.readyState ≠ .open
  entries : ∀ name, next.agents name = some c → relay.agents name = some c

/-- A connection that has a name without its entry has left the registry, and is not open. -/
def Left (relay : Relay) (c : Nat) : Prop :=
  ∀ connection name, relay.connection c = some connection → connection.name = some name →
    relay.agents name ≠ some c → connection.readyState ≠ .open

theorem Local.trans (one : Local c relay next) (two : Local c next final) : Local c relay final :=
  ⟨fun d apart => (two.connection d apart).trans (one.connection d apart),
    fun name d apart => (two.entries name d apart).trans (one.entries name d apart)⟩

theorem Calm.trans (one : Calm c relay next) (two : Calm c next final) : Calm c relay final := by
  refine ⟨fun connection is silent => ?_, fun name entry => one.entries name (two.entries name entry)⟩
  obtain ⟨later, present, still⟩ := one.silent connection is silent
  exact two.silent later present still

theorem Calm.refl : Calm c relay relay :=
  ⟨fun connection is silent => ⟨connection, is, silent⟩, fun _ entry => entry⟩

theorem modify_of (is : relay.connection c = some connection)
    (change : Connection → Connection) : relay.modify c change = relay.setConnection c (change connection) := by
  rw [Relay.modify, is]

@[simp] theorem agents_modify (c : Nat) (change : Connection → Connection) :
    (relay.modify c change).agents = relay.agents := by
  unfold Relay.modify
  split <;> rfl

@[simp] theorem connection_unregister (c : Nat) (reason : Reason) :
    (relay.unregister c reason).connection = relay.connection := by
  unfold Relay.unregister
  split
  · rfl
  · split
    · rfl
    · split <;> rfl

@[simp] theorem opened_unregister (c : Nat) (reason : Reason) :
    (relay.unregister c reason).opened = relay.opened := by
  unfold Relay.unregister
  split
  · rfl
  · split
    · rfl
    · split <;> rfl

section
variable (apart : d ≠ c) {later : Connection}
include apart

theorem modify_setConnection (change : Connection → Connection) :
    (relay.setConnection d later).modify c change = (relay.modify c change).setConnection d later := by
  have same : (relay.setConnection d later).connection c = relay.connection c := update_of_ne apart.symm _ _
  unfold Relay.modify
  rw [same]
  split
  · simp only [Relay.setConnection, update_comm apart]
  · rfl

theorem unregister_setConnection (reason : Reason) :
    (relay.setConnection d later).unregister c reason = (relay.unregister c reason).setConnection d later := by
  have same : (relay.setConnection d later).connection c = relay.connection c := update_of_ne apart.symm _ _
  unfold Relay.unregister
  rw [same]
  split
  · rfl
  · split
    · rfl
    · rw [apply_ite (Relay.setConnection · d later)]
      rfl

end

/-- What is done to the agent that has the name leaves the other connections. -/
theorem closePrevious_setConnection {name : String} {later : Connection} (apart : relay.agents name ≠ some d) :
    (relay.setConnection d later).closePrevious name = (relay.closePrevious name).setConnection d later := by
  have same : (relay.setConnection d later).agents name = relay.agents name := rfl
  rw [Relay.closePrevious, Relay.closePrevious, same]
  cases entry : relay.agents name with
  | some previous =>
    have apart : d ≠ previous := by
      rintro rfl
      exact apart entry
    dsimp only [Relay.close]
    rw [unregister_setConnection apart, modify_setConnection apart]
  | none => rfl

theorem closeState_ne_open (state : ReadyState) : Relay.closeState state ≠ .open := by
  cases state <;> decide

theorem Inv.agents_unregister (inv : Inv setup events relay) (d : Nat) (reason : Reason) (name : String)
    (e : Nat) : (relay.unregister d reason).agents name = some e ↔ relay.agents name = some e ∧ e ≠ d := by
  by_cases registered : relay.agents name = some d
  · obtain ⟨connection, present, named, -⟩ := inv.registered name d registered
    have gone : (relay.unregister d reason).agents name = none := by
      simp only [Relay.unregister, present, named, registered, if_true, update_self]
    rw [gone, registered]
    simp only [reduceCtorEq, some.injEq, false_iff, not_and, not_not]
    exact Eq.symm
  · have kept : (relay.unregister d reason).agents name = relay.agents name := by
      unfold Relay.unregister
      split
      · rfl
      · split
        · rfl
        · next other _ =>
          split
          · next entry =>
            refine update_of_ne ?_ _ _
            rintro rfl
            exact registered entry
          · rfl
    rw [kept]
    refine ⟨fun entry => ⟨entry, ?_⟩, And.left⟩
    rintro rfl
    exact registered entry

theorem Inv.absent (inv : Inv setup events relay) (is : relay.connection d = some connection)
    (fresh : connection.name = none) (name : String) : relay.agents name ≠ some d := by
  intro entry
  obtain ⟨_, present, named, -⟩ := inv.registered name d entry
  cases is.symm.trans present
  rw [fresh] at named
  cases named

/-- What holds of the relay after these events. -/
structure Sound (setup : Setup) (events : List Event) (relay : Relay) : Prop
    extends Inv setup events relay where
  left : ∀ c, Left relay c

/-- What the relay does with no other connections than these. -/
structure Goes (setup : Setup) (events : List Event) (own : Nat → Prop) (relay next : Relay) : Prop where
  sound : Sound setup events next
  calm : ∀ c connection, relay.connection c = some connection → connection.readyState ≠ .open →
    Calm c relay next
  apart : ∀ c, (∀ d, own d → d = c) → Local c relay next

variable {own : Nat → Prop}

theorem Goes.trans (one : Goes setup events own relay next) (two : Goes setup events own next final) :
    Goes setup events own relay final := by
  refine ⟨two.sound, fun c connection is silent => ?_, fun c only => (one.apart c only).trans (two.apart c only)⟩
  have first := one.calm c connection is silent
  obtain ⟨later, present, still⟩ := first.silent connection is silent
  exact first.trans (two.calm c later present still)

theorem Inv.born (inv : Inv setup events relay) (is : relay.connection c = some connection) :
    c < relay.opened := by
  by_contra unborn
  rw [inv.unborn c (by omega)] at is
  cases is

section
variable (sound : Sound setup events relay)
include sound

theorem Sound.same : Goes setup events own relay relay :=
  ⟨sound, fun _ _ _ _ => Calm.refl, fun _ _ => ⟨fun _ _ => rfl, fun _ _ _ => Iff.rfl⟩⟩

section
variable (mine : own d)
include mine

/-- The connection `d` and its entries change. -/
theorem Sound.change {later : Connection}
    (placed : next.connection = Function.update relay.connection d (some later))
    (opened : relay.opened ≤ next.opened) (born : d < next.opened) (known : Known setup events d later)
    (others : ∀ name c, c ≠ d → (next.agents name = some c ↔ relay.agents name = some c))
    (entries : ∀ name, next.agents name = some d →
      later.name = some name ∧ later.readyState ≠ .closed ∧ later.closeCode = none)
    (calm : ∀ before, relay.connection d = some before → before.readyState ≠ .open →
      later.readyState ≠ .open ∧ ∀ name, next.agents name = some d → relay.agents name = some d)
    (left : Left next d) : Goes setup events own relay next := by
  have other : ∀ c, c ≠ d → next.connection c = relay.connection c := by
    intro c apart
    rw [placed]
    exact update_of_ne apart _ _
  have self : next.connection d = some later := by rw [placed, update_self]
  refine ⟨⟨⟨?_, ?_, ?_⟩, ?_⟩, ?_, ?_⟩
  · intro c bound
    rw [other c (by omega)]
    exact sound.unborn c (by omega)
  · intro c connection is
    by_cases same : c = d
    · subst same
      rw [self] at is
      cases is
      exact known
    · rw [other c same] at is
      exact sound.known c connection is
  · intro name c entry
    by_cases same : c = d
    · subst same
      exact ⟨later, self, entries name entry⟩
    · rw [other c same]
      exact sound.registered name c ((others name c same).mp entry)
  · intro c
    by_cases same : c = d
    · exact same ▸ left
    · intro connection name is named absent
      rw [other c same] at is
      exact sound.left c connection name is named fun entry => absent ((others name c same).mpr entry)
  · intro c connection is silent
    by_cases same : c = d
    · subst same
      obtain ⟨still, kept⟩ := calm connection is silent
      exact ⟨fun _ _ _ => ⟨later, self, still⟩, kept⟩
    · rw [← other c same] at is
      exact ⟨fun connection is silent => ⟨connection, (other c same).trans is, silent⟩,
        fun name => (others name c same).mp⟩
  · intro c only
    cases only d mine
    exact ⟨other, others⟩

theorem Sound.modify {change : Connection → Connection}
    (named : ∀ connection, (change connection).name = connection.name)
    (code : ∀ connection, (change connection).closeCode = connection.closeCode)
    (opens : ∀ connection, (change connection).readyState = .open → connection.readyState = .open)
    (closes : ∀ connection, (change connection).readyState = .closed → connection.readyState = .closed)
    (known : ∀ connection, relay.connection d = some connection → Known setup events d connection →
      Known setup events d (change connection)) :
    Goes setup events own relay (relay.modify d change) := by
  unfold Relay.modify
  split
  · next connection is =>
    refine sound.change mine rfl le_rfl (sound.born is) (known connection is (sound.known d connection is))
      (fun _ _ _ => Iff.rfl) ?_ ?_ ?_
    · intro name entry
      obtain ⟨_, present, isNamed, alive, open_⟩ := sound.registered name d entry
      cases is.symm.trans present
      exact ⟨(named connection).trans isNamed, mt (closes connection) alive, (code connection).trans open_⟩
    · intro _ present silent
      cases is.symm.trans present
      exact ⟨mt (opens connection) silent, fun _ => id⟩
    · intro later name now isNamed absent
      cases (update_self d _ _).symm.trans now
      exact mt (opens connection) (sound.left d connection name is ((named connection).symm.trans isNamed) absent)
  · exact sound.same

theorem Sound.touch (pong timeout : Connection → Bool) :
    Goes setup events own relay (relay.modify d fun connection =>
      { connection with pong := pong connection, timeout := timeout connection }) :=
  sound.modify mine (fun _ => rfl) (fun _ => rfl) (fun _ => id) (fun _ => id) fun _ _ known =>
    ⟨known.named, known.checking, known.unanswered, known.closing⟩

/-- A connection that leaves the registry is not open then. -/
theorem Sound.finish (reason : Reason) {change : Connection → Connection}
    (silent : ∀ connection, (change connection).readyState ≠ .open)
    (known : ∀ connection, Known setup events d connection → Known setup events d (change connection)) :
    Goes setup events own relay ((relay.unregister d reason).modify d change) := by
  have entries := sound.agents_unregister d reason
  cases is : relay.connection d with
  | some connection =>
    rw [modify_of ((congrFun (connection_unregister d reason) d).trans is)]
    refine sound.change mine (congrArg (Function.update · d _) (connection_unregister d reason))
      (opened_unregister d reason).ge ((sound.born is).trans_eq (opened_unregister d reason).symm)
      (known connection (sound.known d connection is)) (fun name c apart => ?_) (fun name entry => ?_)
      (fun _ _ _ => ⟨silent connection, fun name entry => ((entries name d).mp entry).1⟩) ?_
    · exact (entries name c).trans (and_iff_left apart)
    · exact absurd rfl ((entries name d).mp entry).2
    · intro later name now _ _
      cases (update_self d _ _).symm.trans now
      exact silent connection
  | none =>
    rw [Relay.modify, connection_unregister, is, Relay.unregister, is]
    exact sound.same

theorem Sound.close (code : Nat) : Goes setup events own relay (relay.close d code) :=
  sound.finish mine _ (fun _ => closeState_ne_open _) fun _ known =>
    ⟨known.named, known.checking, known.unanswered, fun _ => closeState_ne_open _⟩

theorem Sound.ended (reason : Reason) :
    Goes setup events own relay ((relay.unregister d reason).terminate d) :=
  sound.finish mine _ (fun _ => closeState_ne_open _) fun _ known =>
    ⟨known.named, known.checking, known.unanswered, fun _ => closeState_ne_open _⟩

theorem Sound.terminate : Goes setup events own relay (relay.terminate d) := by
  refine sound.modify mine (fun _ => rfl) (fun _ => rfl) ?_ ?_ ?_
  · exact fun _ opens => absurd opens (closeState_ne_open _)
  · intro connection closes
    change Relay.closeState connection.readyState = .closed at closes
    cases state : connection.readyState with
    | «open» | closing =>
      rw [state] at closes
      cases closes
    | closed => rfl
  · exact fun _ _ known => ⟨known.named, known.checking, known.unanswered, fun _ => closeState_ne_open _⟩

end

section
variable (all : ∀ d, own d)
include all

/-- The name is free when its previous agent has been closed. -/
theorem Sound.closePrevious (name : String) : Goes setup events own relay (relay.closePrevious name) ∧
    ∀ c, (relay.closePrevious name).agents name ≠ some c := by
  unfold Relay.closePrevious
  split
  · next previous entry =>
    refine ⟨sound.close (all previous) _, fun c entry' => ?_⟩
    rw [Relay.close, agents_modify, sound.agents_unregister, entry] at entry'
    exact entry'.2 (Option.some.inj entry'.1).symm
  · next free =>
    refine ⟨sound.same, fun c entry => ?_⟩
    rw [free] at entry
    cases entry

/-- The connection that is admitted takes the place of the one before it. -/
theorem Sound.admission (is : relay.connection d = some connection) (open_ : connection.readyState = .open)
    (fresh : connection.name = none) (done : connection.checking = none)
    (responded : connection.responded = true) {result : String} (throws : Bool)
    (proved : Proved setup events d connection.challenge result.toLower) :
    Goes setup events own relay (relay.admission d result throws) := by
  unfold Relay.admission
  split
  · exact sound.close (all d) _
  · dsimp only
    obtain ⟨first, free⟩ := sound.closePrevious all result.toLower
    have kept : (relay.closePrevious result.toLower).connection d = some connection := by
      have same : relay.setConnection d connection = relay := by
        rw [Relay.setConnection, ← is, update_eq_self]
      rw [← same, closePrevious_setConnection (sound.absent is fresh _)]
      exact update_self d _ _
    rw [modify_of is, closePrevious_setConnection (sound.absent is fresh _)]
    generalize relay.closePrevious result.toLower = replaced at first free kept ⊢
    have absent := first.sound.absent kept fresh
    have known := first.sound.known d connection kept
    have code : connection.closeCode = none := by
      by_contra some
      exact known.closing (isSome_iff_ne_none.mpr some) open_
    have entered : ∀ notices, Goes setup events own replaced
        { replaced.setConnection d { connection with name := some result.toLower, timeout := false } with
          agents := Function.update replaced.agents result.toLower (some d), notices } := by
      intro notices
      refine first.sound.change (all d) rfl le_rfl (first.sound.born kept) ⟨?_, ?_, ?_, known.closing⟩
        (fun name c apart => ?_) (fun name entry => ?_) ?_ ?_
      · rintro name ⟨⟩
        exact proved
      · intro request checking
        cases done.symm.trans checking
      · intro unanswered
        cases responded.symm.trans unanswered
      · change Function.update _ _ _ _ = _ ↔ _
        by_cases same : name = result.toLower
        · subst same
          rw [update_self]
          exact iff_of_false (fun is => apart (Option.some.inj is).symm) (free c)
        · rw [update_of_ne same]
      · change Function.update _ _ _ _ = _ at entry
        by_cases same : name = result.toLower
        · subst same
          refine ⟨rfl, ?_, code⟩
          rw [open_]
          decide
        · rw [update_of_ne same] at entry
          exact absurd entry (absent name)
      · intro before present silent
        cases kept.symm.trans present
        exact absurd open_ silent
      · intro later name now named absent
        cases (update_self d _ _).symm.trans now
        cases named
        exact absurd (update_self _ _ _) absent
    split
    · exact (first.trans (entered _)).trans ((entered _).sound.close (all d) _)
    · exact first.trans (entered _)

end

theorem Sound.respond (mine : own d) (all : connection.readyState = .open → ∀ e, own e)
    (is : relay.connection d = some connection) (fresh : connection.responded = false)
    (response : RegistrationResponse) (throws : Bool) (event : Event.response d response throws ∈ events) :
    Goes setup events own relay (relay.respond setup d connection response throws) := by
  have unanswered := (sound.known d connection is).unanswered fresh
  have first : Goes setup events own relay (relay.modify d fun connection =>
      { connection with responded := true }) :=
    sound.modify mine (fun _ => rfl) (fun _ => rfl) (fun _ => id) (fun _ => id) fun _ _ known =>
      ⟨known.named, known.checking, nofun, known.closing⟩
  unfold Relay.respond
  rw [modify_of is] at first ⊢
  have present : (relay.setConnection d { connection with responded := true }).connection d =
      some { connection with responded := true } := update_self d _ _
  generalize relay.setConnection d { connection with responded := true } = responded at first present ⊢
  dsimp only
  split
  · exact first
  · next open_ =>
    refine first.trans ?_
    split
    · exact first.sound.close mine _
    · next key valid =>
      obtain ⟨signature, isKey, isSignature, verified⟩ := registrationKey_signed valid
      have signed : Signed setup events d connection.challenge (setup.deriveId key) :=
        ⟨response, throws, key, signature, event, isKey, isSignature, verified, rfl⟩
      split
      · next check =>
        refine first.sound.modify mine (fun _ => rfl) (fun _ => rfl) (fun _ => id) (fun _ => id) ?_
        intro other now known
        cases present.symm.trans now
        refine ⟨known.named, ?_, nofun, known.closing⟩
        rintro request ⟨⟩
        exact ⟨check, signed, unanswered.1⟩
      · next check =>
        have open_ := not_not.mp open_
        refine first.sound.admission (all open_) present open_ unanswered.1 unanswered.2 rfl throws ⟨_, signed, ?_⟩
        rw [if_neg check]

theorem Sound.answerCheck (mine : own d) (all : connection.readyState = .open → ∀ e, own e)
    (is : relay.connection d = some connection) (checking : connection.checking.isSome)
    {answer : CheckAnswer} (event : Event.checked d answer ∈ events) :
    Goes setup events own relay (relay.answerCheck d connection answer) := by
  obtain ⟨request, isRequest⟩ := isSome_iff_exists.mp checking
  have known := sound.known d connection is
  obtain ⟨check, signed, fresh⟩ := known.checking request isRequest
  have responded : connection.responded = true := by
    by_contra unanswered
    cases isRequest.symm.trans (known.unanswered (Bool.not_eq_true _ ▸ unanswered)).2
  have first : Goes setup events own relay (relay.modify d fun connection =>
      { connection with checking := none }) :=
    sound.modify mine (fun _ => rfl) (fun _ => rfl) (fun _ => id) (fun _ => id) fun _ _ known =>
      ⟨known.named, nofun, fun unanswered => ⟨(known.unanswered unanswered).1, rfl⟩, known.closing⟩
  unfold Relay.answerCheck
  rw [modify_of is] at first ⊢
  have present : (relay.setConnection d { connection with checking := none }).connection d =
      some { connection with checking := none } := update_self d _ _
  generalize relay.setConnection d { connection with checking := none } = settled at first present ⊢
  refine first.trans ?_
  cases answer with
  | throws => exact first.sound.close mine _
  | reject rejection =>
    dsimp only
    split
    · exact first.sound.same
    · exact first.sound.close mine _
  | accepted name throws =>
    dsimp only
    split
    · exact first.sound.same
    · next open_ =>
      have open_ := not_not.mp open_
      refine first.sound.admission (all open_) present open_ fresh rfl responded throws ⟨_, signed, ?_⟩
      rw [if_pos check]
      exact ⟨name, throws, event, rfl⟩

theorem Sound.connect (all : ∀ d, own d) (challenge : String) (ip : Option String) :
    Goes setup events own relay { relay.setConnection relay.opened
      ⟨.open, ip, challenge, none, true, true, false, none, none⟩ with opened := relay.opened + 1 } := by
  have new := sound.unborn relay.opened le_rfl
  refine sound.change (all _) rfl (Nat.le_succ _) (Nat.lt_succ_self _) ⟨nofun, nofun, fun _ => ⟨rfl, rfl⟩, nofun⟩
    (fun _ _ _ => Iff.rfl) (fun name entry => ?_) (fun before is => ?_) ?_
  · obtain ⟨_, present, -⟩ := sound.registered name _ entry
    cases new.symm.trans present
  · cases new.symm.trans is
  · intro later name now named
    cases (update_self _ _ _).symm.trans now
    cases named

end

/-- The connection that an event is of; a disconnection is of the agent it finds. -/
def connectionOf (relay : Relay) : Event → Option Nat
  | .connect _ _ => none
  | .response c _ _ | .checked c _ | .timeout c | .heartbeat c | .pong c | .closing c | .closed c
  | .abort c | .sessionClosed c | .requestError c => some c
  | .disconnect name => relay.agents name

/-- What an event may change: if its connection is not open, only this one. -/
def Reachable (relay : Relay) (event : Event) (d : Nat) : Prop :=
  ∀ c connection, connectionOf relay event = some c → relay.connection c = some connection →
    connection.readyState ≠ .open → c = d

theorem Sound.step {event : Event} (sound : Sound setup events relay) (step : relay.step setup event = some next) :
    Goes setup (events ++ [event]) (Reachable relay event) relay next := by
  have sound : Sound setup (events ++ [event]) relay := { sound.mono [event] with left := sound.left }
  have here : event ∈ events ++ [event] := mem_append_right _ mem_cons_self
  have mine : ∀ d, connectionOf relay event = some d → Reachable relay event d := by
    intro d own c connection isOwn _ _
    exact Option.some.inj (isOwn.symm.trans own)
  have all : ∀ d connection, connectionOf relay event = some d → relay.connection d = some connection →
      connection.readyState = .open → ∀ e, Reachable relay event e := by
    intro d connection own is open_ e c other isOwn present silent
    cases own.symm.trans isOwn
    cases is.symm.trans present
    exact absurd open_ silent
  cases event with
  | connect challenge ip =>
    cases step
    exact sound.connect (fun d c connection none => by cases none) challenge ip
  | response d response throws =>
    simp only [Relay.step] at step
    split at step
    · next connection is =>
      split at step
      · cases step
      · next fresh =>
        cases step
        exact sound.respond (mine d rfl) (all d connection rfl is) is (Bool.eq_false_iff.mpr fresh) response throws here
    · cases step
  | checked d answer =>
    simp only [Relay.step] at step
    split at step
    · next connection is =>
      split at step
      · next checking =>
        cases step
        exact sound.answerCheck (mine d rfl) (all d connection rfl is) is checking here
      · cases step
    · cases step
  | timeout d =>
    simp only [Relay.step] at step
    split at step
    · split at step
      · cases step
        have first := sound.touch (mine d rfl) (·.pong) fun _ => false
        exact first.trans (first.sound.close (mine d rfl) _)
      · cases step
    · cases step
  | heartbeat d =>
    simp only [Relay.step] at step
    split at step
    · split at step
      · cases step
      · split at step
        · cases step
          exact sound.touch (mine d rfl) (fun _ => false) (·.timeout)
        · cases step
          exact sound.ended (mine d rfl) _
    · cases step
  | pong d =>
    cases step
    exact sound.touch (mine d rfl) (fun _ => true) (·.timeout)
  | closing d | requestError d =>
    cases step
    exact sound.terminate (mine d rfl)
  | closed d =>
    cases step
    exact sound.finish (mine d rfl) _ (fun _ => nofun) fun _ known =>
      ⟨known.named, known.checking, known.unanswered, fun _ => nofun⟩
  | abort d | sessionClosed d =>
    cases step
    exact sound.ended (mine d rfl) _
  | disconnect name =>
    simp only [Relay.step] at step
    split at step
    · next d entry =>
      cases step
      exact sound.close (mine d entry) _
    · cases step
      exact sound.same

end Registry

section Runs
variable {setup : Setup} {events : List Event} {relay : Relay} {connection : Connection}

/-- A step of the relay. -/
def Step (setup : Setup) (relay : Relay) (event : Event) (next : Relay) : Prop :=
  relay.step setup event = some next

theorem sound_run (run : Run (Step setup) Relay.empty events relay) : Sound setup events relay := by
  induction run with
  | nil =>
    refine ⟨⟨fun _ _ => rfl, ?_, ?_⟩, ?_⟩
    · intro c connection is
      cases is
    · intro name c entry
      cases entry
    · intro c connection name is
      cases is
  | snoc before last ih => exact (ih.step last).sound

/-- What a whole run does to a connection that is not open. -/
theorem silent_run (sound : Sound setup events relay) {c : Nat}
    (is : relay.connection c = some connection) (silent : connection.readyState ≠ .open) {later : Relay}
    {more : List Event} (run : Run (Step setup) relay more later) :
    Sound setup (events ++ more) later ∧ Calm c relay later := by
  induction run with
  | nil => exact ⟨by rwa [append_nil], Calm.refl⟩
  | snoc before last ih =>
    obtain ⟨sound, calm⟩ := ih
    obtain ⟨now, present, still⟩ := calm.silent connection is silent
    have goes := sound.step last
    rw [← append_assoc]
    exact ⟨goes.sound, calm.trans (goes.calm c now present still)⟩

/-- In every run each agent has signed the challenge of its own connection and has been accepted under
its name, which no other agent has, and no closed connection has an agent. A connection that the relay
has closed, or whose agent has left the registry, is not open; and what happens to a connection that is
not open gives it no entry, and changes neither the other connections nor the other entries. -/
theorem registry_sound (run : Run (Step setup) Relay.empty events relay) :
    (∀ name c, relay.agents name = some c → ∃ connection, relay.connection c = some connection ∧
      connection.readyState ≠ .closed ∧ Proved setup events c connection.challenge name) ∧
    (∀ name name' c, relay.agents name = some c → relay.agents name' = some c → name = name') ∧
    (∀ c connection, relay.connection c = some connection →
      (connection.closeCode.isSome ∨ ∃ name, connection.name = some name ∧ relay.agents name ≠ some c) →
        connection.readyState ≠ .open) ∧
    ∀ c connection, relay.connection c = some connection → connection.readyState ≠ .open →
      ∀ more later, Run (Step setup) relay more later →
        (∀ name, later.agents name = some c → relay.agents name = some c) ∧
          ∀ event next, Step setup later event next → connectionOf later event = some c →
            Local c later next := by
  have sound := sound_run run
  refine ⟨?_, ?_, ?_, ?_⟩
  · intro name c entry
    obtain ⟨connection, present, named, alive, -⟩ := sound.registered name c entry
    exact ⟨connection, present, alive, (sound.known c connection present).named name named⟩
  · intro name name' c entry entry'
    obtain ⟨connection, present, named, -⟩ := sound.registered name c entry
    obtain ⟨same, present', named', -⟩ := sound.registered name' c entry'
    cases present.symm.trans present'
    exact Option.some.inj (named.symm.trans named')
  · rintro c connection present (closed | ⟨name, named, absent⟩)
    · exact (sound.known c connection present).closing closed
    · exact sound.left c connection name present named absent
  · intro c connection present silent more later onwards
    obtain ⟨sound', calm⟩ := silent_run sound present silent onwards
    refine ⟨calm.entries, ?_⟩
    intro event next step own
    obtain ⟨now, present', still⟩ := calm.silent connection present silent
    exact (sound'.step step).apart c fun d reachable => (reachable c now own present' still).symm

/-! A computer that registers as `Foo`, and again while its first socket is still open. -/

def publicKey : String := "6kpsY-KcUgq-9VB7Ey7F-ZVHdq6-vnuSQh7qaRRG0iw"

/-- Its two challenges, each with its signature. -/
def signatures : List (String × String) :=
  [("AQEBAQEBAQEBAQEBAQEBAQEBAQEBAQEBAQEBAQEBAQE",
    "KV3FVbmoqbEaNnWD6eFjwsAdLlp9kvh-T1Mrnq__nFIbmb0UsQmhZNoOQRaQCoElrKrAKBAuBJOVJJEbeRCZAA"),
   ("AgICAgICAgICAgICAgICAgICAgICAgICAgICAgICAgI",
    "mZx32ZNLQBn3H8AmzA3sgF-iAxtVmiJWufrbYhqrVT2sVTkk2cbJM6YWIzpyI3ESbm-XH4fytNN_Z6gHoliXBg")]

def checkedRelay : Setup where
  controlHost := "relay.example"
  check := true
  deriveId := fun _ => "72asyextvngonlc5w2nmguxzay"
  verify := fun content key signature => signatures.any fun (challenge, signed) =>
    content = registrationContent "relay.example" challenge ∧ decodeField publicKey 32 = some key ∧
      decodeField signed 64 = some signature

def registrations : List Event :=
  (signatures.zipIdx.flatMap fun ((challenge, signature), c) =>
    [.connect challenge none, .response c ⟨200, [publicKey], [signature], some "Foo", none⟩ false,
      .checked c (.accepted "Foo" false)])

/-- The relay after these events. -/
def registered : Relay :=
  (registrations.foldlM (Relay.step checkedRelay) Relay.empty).get (by decide +kernel)

theorem registered_run : Run (Step checkedRelay) Relay.empty registrations registered :=
  Run.of_foldlM (some_get _).symm

/-- The first connection has been replaced, and its error leaves the second one registered. -/
theorem registry_sound_sample :
    (registered.connection 0).map (·.closeCode) = some (some closeCodes.replaced) ∧
      ∀ next, Step checkedRelay registered (.abort 0) next → next.agents "foo" = some 1 := by
  refine ⟨by decide +kernel, ?_⟩
  intro next step
  obtain ⟨-, -, closed, silent⟩ := registry_sound registered_run
  have isSome : (registered.connection 0).isSome := by decide +kernel
  obtain ⟨connection, present⟩ := isSome_iff_exists.mp isSome
  have code : (registered.connection 0).any (·.closeCode.isSome) := by decide +kernel
  rw [present] at code
  have notOpen := closed 0 connection present (.inl code)
  have unchanged := (silent 0 connection present notOpen [] registered .nil).2 _ next step rfl
  exact (unchanged.entries "foo" 1 (by decide)).mpr (by decide +kernel)

/-- The check has accepted no computer under the name that is registered. -/
theorem registered_in_lower_case :
    Run (Step checkedRelay) Relay.empty registrations registered ∧ registered.agents "foo" = some 1 ∧
      ∀ throws, Event.checked 1 (.accepted "foo" throws) ∉ registrations := by
  refine ⟨registered_run, by decide +kernel, ?_⟩
  intro throws
  cases throws <;> decide +kernel

end Runs

end CodexHost.Guarantees.RelayRegistry
