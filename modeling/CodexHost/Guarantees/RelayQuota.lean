import CodexHost.Foundation.Transition
import CodexHost.Source.RemoteRelay.Forward

/-!
# The quota of a relayed computer

The counters of a usage are compared with what was forwarded. They lag behind the clock and are
reset when it is looked at, so the comparison is about the present day and hour only: what was
forwarded in them has been charged. A connection that is open is one that the usage still allows.
-/
namespace CodexHost.Guarantees.RelayQuota
open Foundation Source.RemoteRelay List Function Relay Nat

section Bytes

def bytesWhere (counts : Forwarded → Bool) (log : List Forwarded) : Nat :=
  ((log.filter counts).map (·.size)).sum

/-- The bytes that ordinary connections forwarded on a day. -/
def ordinaryBytes (log : List Forwarded) (day : Nat) : Nat :=
  bytesWhere (fun f => !f.validation && dayOf f.hour = day) log

/-- The bytes that were forwarded for validation in an hour. -/
def validationBytes (log : List Forwarded) (hour : Nat) : Nat :=
  bytesWhere (fun f => f.validation && f.hour = hour) log

/-- The bytes that were forwarded for validation on a connection. -/
def connectionBytes (log : List Forwarded) (id : Nat) : Nat :=
  bytesWhere (fun f => f.validation && f.connection = id) log

variable {counts : Forwarded → Bool} {log : List Forwarded}

theorem bytesWhere_snoc (f : Forwarded) :
    bytesWhere counts (log ++ [f]) = bytesWhere counts log + if counts f then f.size else 0 := by
  unfold bytesWhere
  rw [filter_append, map_append, sum_append, filter_singleton]
  cases counts f with
  | true | false => simp

theorem bytesWhere_none (none : ∀ f ∈ log, counts f = false) : bytesWhere counts log = 0 := by
  rw [bytesWhere, filter_eq_nil_iff.mpr fun f member => by simp [none f member]]
  rfl

end Bytes

section Usages
variable {log : List Forwarded} {now now' : Nat} {u : Usage}

/-- What was forwarded is past. -/
def Past (log : List Forwarded) (now : Nat) : Prop := ∀ f ∈ log, f.hour ≤ now

theorem Past.later (past : Past log now) (le : now ≤ now') : Past log now' :=
  fun f member => Nat.le_trans (past f member) le

/-- What was forwarded on this day and in this hour has been charged. -/
structure Charged (log : List Forwarded) (now : Nat) (u : Usage) : Prop where
  past : Past log now
  day : u.day ≤ dayOf now
  ordinary : ordinaryBytes log (dayOf now) ≤ if u.day = dayOf now then u.bytes else 0
  acmeHour : ∀ hour, u.acmeHour = some hour → hour ≤ now
  acme : (validationBytes log now : Int) ≤ if u.acmeHour = some now then u.acmeBytes else 0
  acmeBytes : 0 ≤ u.acmeBytes ∧ u.acmeBytes ≤ 1024 * 1024

/-- What was charged in an hour was charged on its day too. -/
def Dated (u : Usage) : Prop :=
  ∀ hour, u.acmeHour = some hour → u.day < dayOf hour → u.acmeBytes = 0

theorem ordinary_zero {day : Nat} (past : Past log now) (after : dayOf now < day) :
    ordinaryBytes log day = 0 := by
  refine bytesWhere_none fun f member => ?_
  have := past f member
  have : dayOf f.hour ≤ dayOf now := Nat.div_le_div_right this
  rw [decide_eq_false (by omega), Bool.and_false]

theorem validation_zero {hour : Nat} (past : Past log now) (after : now < hour) :
    validationBytes log hour = 0 := by
  refine bytesWhere_none fun f member => ?_
  have := past f member
  rw [decide_eq_false (by omega), Bool.and_false]

theorem Charged.later (charged : Charged log now u) (le : now ≤ now') : Charged log now' u := by
  have days : dayOf now ≤ dayOf now' := Nat.div_le_div_right le
  refine ⟨charged.past.later le, Nat.le_trans charged.day days, ?_, fun hour is =>
    Nat.le_trans (charged.acmeHour hour is) le, ?_, charged.acmeBytes⟩
  · rcases Nat.eq_or_lt_of_le days with same | after
    · rw [← same]
      exact charged.ordinary
    · rw [ordinary_zero charged.past after]
      exact Nat.zero_le _
  · rcases Nat.eq_or_lt_of_le le with rfl | after
    · exact charged.acme
    · rw [validation_zero charged.past after]
      split
      · exact charged.acmeBytes.1
      · exact Int.le_refl 0

/-- After `exceeded` the day is this day. -/
theorem exceeded_day (u : Usage) (now : Nat) : (u.exceeded now).2.day = dayOf now := by
  unfold Usage.exceeded
  simp only
  split
  · rfl
  · next same => exact (not_not.mp same).symm

theorem exceeded_frame (u : Usage) (now : Nat) :
    (u.exceeded now).2.acmeHour = u.acmeHour ∧ (u.exceeded now).2.acmeBytes = u.acmeBytes ∧
      (u.exceeded now).2.quota = u.quota := by
  unfold Usage.exceeded
  simp only
  split
  · exact ⟨rfl, rfl, rfl⟩
  · exact ⟨rfl, rfl, rfl⟩

theorem exceeded_bytes (u : Usage) (now : Nat) :
    (u.exceeded now).2.bytes = if u.day = dayOf now then u.bytes else 0 := by
  unfold Usage.exceeded
  simp only
  split
  · next other => rw [if_neg (Ne.symm other)]
  · next same => rw [if_pos (not_not.mp same).symm]

theorem Charged.exceeded (charged : Charged log now u) : Charged log now (u.exceeded now).2 := by
  obtain ⟨hour, bytes, -⟩ := exceeded_frame u now
  refine ⟨charged.past, Nat.le_of_eq (exceeded_day u now), ?_, ?_, ?_, ?_⟩
  · rw [if_pos (exceeded_day u now), exceeded_bytes]
    exact charged.ordinary
  · rw [hour]
    exact charged.acmeHour
  · rw [hour, bytes]
    exact charged.acme
  · rw [bytes]
    exact charged.acmeBytes

theorem Charged.dated (charged : Charged log now u) : Dated (u.exceeded now).2 := by
  intro hour is after
  rw [(exceeded_frame u now).1] at is
  have := charged.acmeHour hour is
  have : dayOf hour ≤ dayOf now := Nat.div_le_div_right this
  rw [exceeded_day] at after
  omega

theorem acmeRemaining_frame (u : Usage) (now : Nat) : (u.acmeRemaining now).2.acmeHour = some now ∧
      (u.acmeRemaining now).2.acmeBytes = (if u.acmeHour = some now then u.acmeBytes else 0) ∧
      (u.acmeRemaining now).1 = 1024 * 1024 - (u.acmeRemaining now).2.acmeBytes ∧
      (u.acmeRemaining now).2.day = u.day ∧ (u.acmeRemaining now).2.bytes = u.bytes ∧
      (u.acmeRemaining now).2.quota = u.quota := by
  unfold Usage.acmeRemaining
  by_cases same : u.acmeHour = some now
  · simp [same]
  · simp [same]

theorem Charged.acmeRemaining (charged : Charged log now u) : Charged log now (u.acmeRemaining now).2 := by
  obtain ⟨hour, bytes, -, day, counted, -⟩ := acmeRemaining_frame u now
  have limits : 0 ≤ (u.acmeRemaining now).2.acmeBytes ∧ (u.acmeRemaining now).2.acmeBytes ≤ 1024 * 1024 := by
    rw [bytes]
    split
    · exact charged.acmeBytes
    · exact ⟨by decide, by decide⟩
  refine ⟨charged.past, day ▸ charged.day, ?_, ?_, ?_, limits⟩
  · rw [day, counted]
    exact charged.ordinary
  · rw [hour]
    exact fun h is => Nat.le_of_eq (Option.some.inj is).symm
  · rw [if_pos hour, bytes]
    exact charged.acme

theorem Dated.acmeRemaining (dated : Dated u) (now : Nat) : Dated (u.acmeRemaining now).2 := by
  obtain ⟨hour, bytes, -, day, -⟩ := acmeRemaining_frame u now
  intro h is after
  rw [hour] at is
  rw [bytes]
  split
  · next same => exact dated now same (Option.some.inj is ▸ day ▸ after)
  · rfl

variable {now'' : Nat}

theorem Charged.configure (charged : Charged log now u) (dated : Dated u)
    (first : now ≤ now') (second : now' ≤ now'') (rate quota : Option Nat) (usedToday : Nat) :
    Charged log now'' (u.configure rate quota usedToday now' now'') ∧
      Dated (u.configure rate quota usedToday now' now'') := by
  have le := Nat.le_trans first second
  have days : dayOf now' ≤ dayOf now'' := Nat.div_le_div_right second
  have charged := charged.later le
  unfold Usage.configure
  simp only
  split
  · next expired =>
    simp only [Usage.expired, decide_eq_true_eq] at expired
    have ordinary := charged.ordinary
    rw [if_neg (by omega)] at ordinary
    refine ⟨⟨charged.past, Nat.le_refl _, ?_, charged.acmeHour, charged.acme, charged.acmeBytes⟩,
      fun hour is after => ?_⟩
    · rw [if_pos rfl]
      omega
    · have : dayOf hour ≤ dayOf now'' := Nat.div_le_div_right (charged.acmeHour hour is)
      simp only at after
      omega
  · exact ⟨⟨charged.past, charged.day, charged.ordinary, charged.acmeHour, charged.acme,
      charged.acmeBytes⟩, dated⟩

/-- Nothing was forwarded on this day. -/
def Unused (log : List Forwarded) (now : Nat) : Prop :=
  ordinaryBytes log (dayOf now) = 0 ∧ validationBytes log now = 0

theorem Unused.later (unused : Unused log now) (past : Past log now) (le : now ≤ now') : Unused log now' := by
  have days : dayOf now ≤ dayOf now' := Nat.div_le_div_right le
  constructor
  · rcases Nat.eq_or_lt_of_le days with same | after
    · rw [← same]
      exact unused.1
    · exact ordinary_zero past after
  · rcases Nat.eq_or_lt_of_le le with rfl | after
    · exact unused.2
    · exact validation_zero past after

theorem Unused.charged (unused : Unused log now) (past : Past log now)
    (first : now ≤ now') (second : now' ≤ now'') (rate quota : Option Nat) (usedToday : Nat) :
    Charged log now'' (Usage.new rate quota usedToday now now' now'') ∧
      Dated (Usage.new rate quota usedToday now now' now'') := by
  have begun : Charged log now ⟨dayOf now, none, 0, 0, quota, none⟩ :=
    ⟨past, Nat.le_refl _, by simp [unused.1], nofun, by simp [unused.2],
      Int.le_refl 0, by simp⟩
  obtain ⟨charged, dated⟩ := begun.configure nofun first second rate quota usedToday
  have ordinary := (unused.later past (Nat.le_trans first second)).1
  exact ⟨⟨charged.past, charged.day, by rw [ordinary]; exact Nat.zero_le _, charged.acmeHour,
    charged.acme, charged.acmeBytes⟩, dated⟩

/-- A usage whose day is over leaves nothing that counts. -/
theorem Charged.unused (charged : Charged log now u) (dated : Dated u)
    (expired : u.expired now = true) : Unused log now := by
  simp only [Usage.expired, decide_eq_true_eq] at expired
  have ordinary := charged.ordinary
  have acme := charged.acme
  rw [if_neg (by omega)] at ordinary
  refine ⟨by omega, ?_⟩
  split at acme
  · next same =>
    rw [dated now same expired] at acme
    omega
  · omega

/-- A usage that is not over its quota. -/
def Under (u : Usage) : Prop := ∀ quota, u.quota = some quota → u.bytes < quota

theorem exceeded_eq_false_iff (u : Usage) (now : Nat) :
    (u.exceeded now).1 = false ↔ Under (u.exceeded now).2 := by
  have quota : (u.exceeded now).1 = (u.exceeded now).2.quota.any (· ≤ (u.exceeded now).2.bytes) := rfl
  rw [quota, Under]
  cases (u.exceeded now).2.quota with
  | none => simp
  | some quota => simp

theorem Under.exceeded (under : Under u) (now : Nat) : Under (u.exceeded now).2 := by
  intro quota is
  rw [(exceeded_frame u now).2.2] at is
  have := under quota is
  rw [exceeded_bytes]
  split
  · exact this
  · omega

/-- What `add` does between its two looks at the quota. -/
def charge (u : Usage) (size : Nat) (validation : Bool) (now : Nat) : Usage :=
  if validation then
    { (u.acmeRemaining now).2 with
      acmeBytes := (u.acmeRemaining now).2.acmeBytes + size
      bytes := u.bytes + size }
  else { u with bytes := u.bytes + size }

theorem add_eq (u : Usage) (size : Nat) (validation : Bool) (now now' now'' : Nat) :
    u.add size validation now now' now'' =
      (((charge (u.exceeded now).2 size validation now').exceeded now'').1 && !(u.exceeded now).1,
        ((charge (u.exceeded now).2 size validation now').exceeded now'').2) := by
  unfold Usage.add charge
  cases validation with
  | false => rfl
  | true =>
    obtain ⟨-, -, remaining, -, bytes, -⟩ := acmeRemaining_frame (u.exceeded now).2 now'
    simp only [if_true, remaining, bytes]
    rw [show (1024 * 1024 - (1024 * 1024 - ((u.exceeded now).2.acmeRemaining now').2.acmeBytes) +
      (size : Int)) = ((u.exceeded now).2.acmeRemaining now').2.acmeBytes + size by omega]

/-- A chunk is charged on the day and in the hour in which it was forwarded, or later. -/
theorem Charged.charge (charged : Charged log now u) {f : Forwarded} (past : f.hour ≤ now)
    (day : dayOf f.hour ≤ u.day) (room : f.validation = true → u.acmeBytes + f.size ≤ 1024 * 1024) :
    Charged (log ++ [f]) now (charge u f.size f.validation now) := by
  have isPast : Past (log ++ [f]) now :=
    forall_mem_append.mpr ⟨charged.past, forall_mem_singleton.mpr past⟩
  have days : dayOf f.hour ≤ dayOf now := Nat.div_le_div_right past
  have notLater := charged.day
  have ordinary := charged.ordinary
  cases isValidation : f.validation with
  | false =>
    refine ⟨isPast, charged.day, ?_, charged.acmeHour, ?_, charged.acmeBytes⟩
    · rw [ordinaryBytes, bytesWhere_snoc, ← ordinaryBytes]
      simp only [isValidation, Bool.not_false, Bool.true_and, decide_eq_true_eq, RelayQuota.charge,
        Bool.false_eq_true, if_false]
      split at ordinary <;> split <;> omega
    · rw [validationBytes, bytesWhere_snoc, ← validationBytes]
      simpa [isValidation, RelayQuota.charge] using charged.acme
  | true =>
    have remaining := charged.acmeRemaining
    obtain ⟨hour, bytes, -, sameDay, sameBytes, -⟩ := acmeRemaining_frame u now
    have room := room isValidation
    have fits : (u.acmeRemaining now).2.acmeBytes + f.size ≤ 1024 * 1024 := by
      rw [bytes]
      split
      · exact room
      · have := charged.acmeBytes
        omega
    have notNegative := remaining.acmeBytes
    refine ⟨isPast, ?_, ?_, remaining.acmeHour, ?_, ?_⟩
    · exact remaining.day
    · rw [ordinaryBytes, bytesWhere_snoc, ← ordinaryBytes]
      simp only [isValidation, Bool.not_true, Bool.false_and, Bool.false_eq_true, if_false,
        Nat.add_zero, RelayQuota.charge, if_true, sameDay]
      split at ordinary <;> split <;> omega
    · rw [validationBytes, bytesWhere_snoc, ← validationBytes]
      have acme := remaining.acme
      simp only [isValidation, Bool.true_and, decide_eq_true_eq, RelayQuota.charge, if_true, hour] at acme ⊢
      split <;> omega
    · simp only [RelayQuota.charge, if_true]
      omega

/-- The spec of `add` for a chunk that was forwarded before. -/
theorem Charged.add {written now'' : Nat} (charged : Charged log written u) (f : Forwarded)
    (hour : f.hour = written) (added : written ≤ now) (acme : now ≤ now') (exceeded : now' ≤ now'')
    (room : f.validation = true → u.acmeBytes + f.size ≤ 1024 * 1024) :
    Charged (log ++ [f]) now'' (u.add f.size f.validation now now' now'').2 ∧
      Dated (u.add f.size f.validation now now' now'').2 := by
  subst hour
  rw [add_eq]
  have before := (charged.later added).exceeded.later acme
  have days : dayOf f.hour ≤ (u.exceeded now).2.day := by
    rw [exceeded_day]
    exact Nat.div_le_div_right added
  have after := (before.charge (Nat.le_trans added acme) days
    (by rw [(exceeded_frame u now).2.1]; exact room)).later exceeded
  exact ⟨after.exceeded, after.dated⟩

theorem Under.add {size : Nat} {validation : Bool} (under : Under u)
    (first : (u.add size validation now now' now'').1 = false) :
    Under (u.add size validation now now' now'').2 := by
  rw [add_eq] at first ⊢
  have before := (exceeded_eq_false_iff u now).mpr (under.exceeded now)
  rw [before, Bool.not_false, Bool.and_true] at first
  exact (exceeded_eq_false_iff _ _).mp first

end Usages

variable {id : Nat} {agent : Nat} {c : Connection} {lapses : Relay.Lapses}

section Relays
variable {r r' r'' : Relay}

/-- What holds of the log at any time. -/
structure Limits (log : List Forwarded) : Prop where
  daily : ∀ before f, (before ++ [f]) <+: log → f.validation = false →
    f.size ≤ 16 * 1024 ∧ ∀ quota, f.quota = some quota → ordinaryBytes before (dayOf f.hour) < quota
  hourly : ∀ hour, validationBytes log hour ≤ 1024 * 1024
  connection : ∀ id, connectionBytes log id ≤ 64 * 1024
  crossed : log.Pairwise fun f g => f.quotaExceeded = true → f.opened ≤ g.connection

/-- The invariant of the relay. -/
structure Inv (r : Relay) : Prop where
  limits : Limits r.forwarded
  past : Past r.forwarded r.now
  usage : ∀ usage, r.usageByName = some usage →
    Charged r.forwarded r.now (r.usages usage) ∧ Dated (r.usages usage)
  pruned : r.usageByName = none → Unused r.forwarded r.now
  current : ∀ id, (r.connections id).destroyed = false →
    r.agent = some (r.connections id).agent ∧ r.usageByName = some (r.connections id).usage
  under : ∀ id, (r.connections id).destroyed = false → (r.connections id).validation = false →
    Under (r.usages (r.connections id).usage)
  opened : ∀ id, r.nextConnection ≤ id → (r.connections id).destroyed = true
  logged : ∀ f ∈ r.forwarded, f.connection < r.nextConnection
  own : ∀ id, (r.connections id).validation = true →
    connectionBytes r.forwarded id ≤ (r.connections id).bytes ∧ (r.connections id).bytes ≤ 64 * 1024
  since : ∀ f ∈ r.forwarded, f.quotaExceeded = true → f.opened ≤ r.nextConnection ∧
    ∀ id, (r.connections id).destroyed = false → f.opened ≤ id

/-- The connection may have been destroyed, and its transfers may have changed. -/
def Weaker (c c' : Connection) : Prop :=
  (c'.destroyed = false → c.destroyed = false) ∧ c'.agent = c.agent ∧ c'.usage = c.usage ∧
    c'.validation = c.validation ∧ c'.bytes = c.bytes

theorem weaker_refl (c : Connection) : Weaker c c := ⟨id, rfl, rfl, rfl, rfl⟩

theorem weaker_setTransfer (c : Connection) (direction : Direction) (transfer : Transfer) :
    Weaker c (c.setTransfer direction transfer) := by
  cases direction with
  | upload | download => exact ⟨id, rfl, rfl, rfl, rfl⟩

theorem weaker_update (weaker : Weaker (r.connections id) c)
    (other : Nat) : Weaker (r.connections other) (Function.update r.connections id c other) := by
  by_cases same : other = id
  · subst same
    rw [update_self]
    exact weaker
  · rw [update_of_ne same]
    exact weaker_refl _

theorem setTransfer_destroyed (c : Connection) (direction : Direction) (transfer : Transfer) :
    (c.setTransfer direction transfer).destroyed = c.destroyed := by
  cases direction with
  | upload | download => rfl

theorem closing_open (is : (if c.agent = agent then { c with destroyed := true } else c).destroyed = false) :
    c.agent ≠ agent ∧ c.destroyed = false := by
  split at is
  · cases is
  · next elsewhere => exact ⟨elsewhere, is⟩

theorem closing_bytes (c : Connection) (agent : Nat) :
    (if c.agent = agent then { c with destroyed := true } else c).bytes = c.bytes := by
  split <;> rfl

theorem closing_weaker {before c : Connection} {agent bytes : Nat}
    (weaker : Weaker before { c with bytes := bytes }) :
    Weaker before { (if c.agent = agent then { c with destroyed := true } else c) with bytes := bytes } := by
  split
  · exact ⟨Bool.noConfusion, weaker.2⟩
  · exact weaker

section
variable (inv : Inv r)
include inv

theorem Inv.weaker {connections : Nat → Connection}
    (weaker : ∀ id, Weaker (r.connections id) (connections id)) :
    Inv { r with connections := connections } := by
  have opens (id : Nat) (is : (connections id).destroyed = false) := (weaker id).1 is
  refine ⟨inv.limits, inv.past, inv.usage, inv.pruned, fun id is => ?_, fun id is ordinary => ?_,
    fun id le => ?_, inv.logged, fun id is => ?_, fun f member crossing => ?_⟩
  · obtain ⟨-, agent, usage, -⟩ := weaker id
    simp only [agent, usage]
    exact inv.current id (opens id is)
  · obtain ⟨-, -, usage, validation, -⟩ := weaker id
    simp only [usage]
    exact inv.under id (opens id is) (validation ▸ ordinary)
  · cases is : (connections id).destroyed with
    | true => rfl
    | false => exact absurd (inv.opened id le) (by rw [opens id is]; exact Bool.false_ne_true)
  · obtain ⟨-, -, -, validation, bytes⟩ := weaker id
    simp only [bytes]
    exact inv.own id (validation ▸ is)
  · obtain ⟨le, all⟩ := inv.since f member crossing
    exact ⟨le, fun id is => all id (opens id is)⟩

theorem Inv.setConnection
    (weaker : Weaker (r.connections id) c) : Inv (r.setConnection id c) := by
  exact inv.weaker (weaker_update weaker)

theorem Inv.destroyPhones (agent : Nat) : Inv (r.destroyPhones agent) := by
  refine inv.weaker fun id => ?_
  split
  · exact ⟨Bool.noConfusion, rfl, rfl, rfl, rfl⟩
  · exact weaker_refl _

/-- The clock goes on, and the usage of the computer is looked at. -/
theorem Inv.setUsage {now usage : Nat} {u : Usage}
    (is : r.usageByName = some usage) (charged : Charged r.forwarded now u) (dated : Dated u)
    (keeps : Under (r.usages usage) → Under u) : Inv (r.setUsage now usage u) := by
  refine ⟨inv.limits, charged.past, fun other isOther => ?_, fun none => ?_, inv.current,
    fun id open' ordinary => ?_, inv.opened, inv.logged, inv.own, inv.since⟩
  · obtain rfl : usage = other := Option.some.inj (is.symm.trans isOther)
    simp only [Relay.setUsage, update_self]
    exact ⟨charged, dated⟩
  · exact absurd (is.symm.trans none) nofun
  · have under := inv.under id open' ordinary
    obtain same : usage = (r.connections id).usage :=
      Option.some.inj (is.symm.trans (inv.current id open').2)
    simp only [Relay.setUsage, ← same, update_self]
    exact keeps (same ▸ under)

theorem Inv.exceeded {now usage : Nat} (le : r.now ≤ now) (is : r.usageByName = some usage) :
    Inv (r.setUsage now usage ((r.usages usage).exceeded now).2) := by
  have charged := (inv.usage usage is).1.later le
  exact inv.setUsage is charged.exceeded charged.dated fun under => under.exceeded now

theorem Inv.acmeRemaining {now usage : Nat} (le : r.now ≤ now)
    (is : r.usageByName = some usage) :
    Inv (r.setUsage now usage ((r.usages usage).acmeRemaining now).2) := by
  obtain ⟨charged, dated⟩ := inv.usage usage is
  refine inv.setUsage is (charged.later le).acmeRemaining (dated.acmeRemaining now) fun under => ?_
  obtain ⟨-, -, -, -, bytes, quota⟩ := acmeRemaining_frame (r.usages usage) now
  rw [Under, bytes, quota]
  exact under

end

theorem Limits.snoc {log : List Forwarded} {f : Forwarded} (limits : Limits log)
    (daily : f.validation = false → f.size ≤ 16 * 1024 ∧
      ∀ quota, f.quota = some quota → ordinaryBytes log (dayOf f.hour) < quota)
    (hourly : f.validation = true → validationBytes log f.hour + f.size ≤ 1024 * 1024)
    (connection : f.validation = true → connectionBytes log f.connection + f.size ≤ 64 * 1024)
    (crossed : ∀ g ∈ log, g.quotaExceeded = true → g.opened ≤ f.connection) :
    Limits (log ++ [f]) := by
  refine ⟨fun before g isPrefix => ?_, fun hour => ?_, fun id => ?_, ?_⟩
  · rcases prefix_concat_iff.mp isPrefix with last | earlier
    · obtain ⟨rfl, same⟩ := append_inj' last rfl
      obtain rfl := singleton_inj.mp same
      exact daily
    · exact limits.daily before g earlier
  · have := limits.hourly hour
    rw [validationBytes, bytesWhere_snoc, ← validationBytes]
    split
    · next counted =>
      simp only [Bool.and_eq_true, decide_eq_true_eq] at counted
      exact counted.2 ▸ hourly counted.1
    · exact this
  · have := limits.connection id
    rw [connectionBytes, bytesWhere_snoc, ← connectionBytes]
    split
    · next counted =>
      simp only [Bool.and_eq_true, decide_eq_true_eq] at counted
      exact counted.2 ▸ connection counted.1
    · exact this
  · refine pairwise_append.mpr ⟨limits.crossed, pairwise_singleton _ _, ?_⟩
    intro g member f' isLast
    rw [mem_singleton.mp isLast]
    exact crossed g member

/-- A chunk that the limits allowed when they were looked at. -/
structure Allowed (r : Relay) (id size : Nat) : Prop where
  opened : (r.connections id).destroyed = false
  chunk : size ≤ 16 * 1024
  connection : (r.connections id).validation = true → (r.connections id).bytes + size ≤ 64 * 1024
  hour : (r.connections id).validation = true →
    (r.usages (r.connections id).usage).acmeBytes + size ≤ 1024 * 1024

/-- The log goes on by a chunk that is charged; if it crosses the quota, no connection is left open. -/
theorem Inv.snoc (inv : Inv r) {f : Forwarded} {now usage : Nat} {u : Usage}
    {connections : Nat → Connection} (is : r.usageByName = some usage)
    (limits : Limits (r.forwarded ++ [f])) (charged : Charged (r.forwarded ++ [f]) now u)
    (dated : Dated u) (known : f.connection < r.nextConnection) (opened : f.opened = r.nextConnection)
    (under : f.quotaExceeded = false → Under (r.usages usage) → Under u)
    (closes : ∀ id, (connections id).destroyed = false → f.quotaExceeded = false)
    (weaker : ∀ id, Weaker (r.connections id) { connections id with bytes := (r.connections id).bytes })
    (bytes : ∀ id, (connections id).bytes =
      (r.connections id).bytes + if f.connection = id then f.size else 0)
    (room : f.validation = true → (r.connections f.connection).bytes + f.size ≤ 64 * 1024)
    (validation : f.validation = (r.connections f.connection).validation) :
    Inv { r with
      now := now
      usages := Function.update r.usages usage u
      connections := connections
      forwarded := r.forwarded ++ [f] } := by
  have opens (id : Nat) (is : (connections id).destroyed = false) := (weaker id).1 is
  refine ⟨limits, charged.past, fun other isOther => ?_, fun none => ?_, fun id is => ?_,
    fun id isOpen ordinary => ?_, fun id le => ?_, ?_, fun id isValidation => ?_, ?_⟩
  · obtain rfl : usage = other := Option.some.inj (is.symm.trans isOther)
    simp only [update_self]
    exact ⟨charged, dated⟩
  · exact absurd (is.symm.trans none) nofun
  · obtain ⟨-, agent, usage, -⟩ := weaker id
    simp only at agent usage ⊢
    rw [agent, usage]
    exact inv.current id (opens id is)
  · obtain ⟨-, -, sameUsage, sameValidation, -⟩ := weaker id
    simp only at sameUsage sameValidation ⊢
    obtain same : usage = (r.connections id).usage :=
      Option.some.inj (is.symm.trans (inv.current id (opens id isOpen)).2)
    rw [sameUsage, ← same, update_self]
    refine under (closes id isOpen) ?_
    rw [same]
    exact inv.under id (opens id isOpen) (sameValidation ▸ ordinary)
  · cases is : (connections id).destroyed with
    | true => rfl
    | false => exact absurd (inv.opened id le) (by rw [opens id is]; exact Bool.false_ne_true)
  · exact forall_mem_append.mpr ⟨inv.logged, forall_mem_singleton.mpr known⟩
  · obtain ⟨-, -, -, sameValidation, -⟩ := weaker id
    simp only at sameValidation isValidation ⊢
    obtain ⟨counted, fits⟩ := inv.own id (sameValidation ▸ isValidation)
    rw [bytes id, connectionBytes, bytesWhere_snoc, ← connectionBytes]
    by_cases same : f.connection = id
    · subst same
      rw [sameValidation, ← validation] at isValidation
      have := room isValidation
      simp only [if_true, isValidation, Bool.true_and, decide_true]
      omega
    · simp only [same, if_false, decide_false, Bool.and_false, Bool.false_eq_true]
      omega
  · refine forall_mem_append.mpr ⟨fun g member crossing => ?_,
      forall_mem_singleton.mpr fun crossing => ⟨Nat.le_of_eq opened, fun id is => ?_⟩⟩
    · obtain ⟨le, all⟩ := inv.since g member crossing
      exact ⟨le, fun id is => all id (opens id is)⟩
    · rw [closes id is] at crossing
      cases crossing

/-- A step of the log: a chunk that the limits allow. -/
theorem Inv.count (inv : Inv r) {id written size : Nat} (lapses : Relay.Lapses)
    (le : r.now ≤ written) (allowed : Allowed r id size) :
    Inv (r.count id written size lapses) := by
  obtain ⟨isOpen, isChunk, onConnection, inHour⟩ := allowed
  obtain ⟨isAgent, isUsage⟩ := inv.current id isOpen
  have isOpened : id < r.nextConnection := by
    by_contra notOpened
    have := inv.opened id (by omega)
    rw [isOpen] at this
    cases this
  have under := inv.under id isOpen
  have own := inv.own id
  have charged := (inv.usage _ isUsage).1.later le
  unfold Relay.count
  simp only
  generalize isC : r.connections id = c at *
  generalize added : (r.usages c.usage).add size c.validation (written + lapses.added)
    (written + lapses.added + lapses.acme)
    (written + lapses.added + lapses.acme + lapses.exceeded) = answer
  obtain ⟨quotaExceeded, u⟩ := answer
  let f : Forwarded := ⟨id, c.validation, written, size, (r.usages c.usage).quota, quotaExceeded,
    r.nextConnection⟩
  obtain ⟨after, dated⟩ := charged.add f rfl (Nat.le_add_right written lapses.added)
    (Nat.le_add_right _ lapses.acme) (Nat.le_add_right _ lapses.exceeded) inHour
  simp only [f, added] at after dated
  have keeps (first : quotaExceeded = false) (under : Under (r.usages c.usage)) : Under u := by
    have := under.add (by rw [added]; exact first)
    rwa [added] at this
  have counted : Limits (r.forwarded ++ [f]) := by
    refine inv.limits.snoc (fun ordinary => ⟨isChunk, fun quota is => ?_⟩) (fun is => ?_)
      (fun is => ?_) fun g member crossing => (inv.since g member crossing).2 id (isC ▸ isOpen)
    · have := charged.ordinary
      have := under ordinary quota is
      change ordinaryBytes r.forwarded (dayOf written) < quota
      split at * <;> omega
    · have := charged.acme
      have := charged.acmeBytes
      have := inHour is
      change validationBytes r.forwarded written + size ≤ 1024 * 1024
      split at * <;> omega
    · have := onConnection is
      have := own is
      change connectionBytes r.forwarded id + size ≤ 64 * 1024
      omega
  have bytes (other : Nat) : (Function.update r.connections id
      { c with bytes := c.bytes + size } other).bytes =
        (r.connections other).bytes + if id = other then size else 0 := by
    by_cases same : other = id
    · subst same
      rw [update_self, isC, if_pos rfl]
    · rw [update_of_ne same, if_neg (Ne.symm same)]
      rfl
  have weaker (other : Nat) : Weaker (r.connections other)
      { Function.update r.connections id { c with bytes := c.bytes + size } other with
        bytes := (r.connections other).bytes } := by
    by_cases same : other = id
    · subst same
      rw [update_self, isC]
      exact ⟨fun is => is, rfl, rfl, rfl, rfl⟩
    · rw [update_of_ne same]
      exact weaker_refl _
  have room : c.validation = true → (r.connections id).bytes + size ≤ 64 * 1024 := by
    rw [isC]
    exact onConnection
  have validation : c.validation = (r.connections id).validation := by rw [isC]
  split
  · next crossing =>
    refine inv.snoc (f := f) isUsage counted after dated isOpened rfl keeps (fun other is => ?_)
      (fun other => ?_) (fun other => ?_) room validation
    · -- A connection that is open is a phone of the agent that is registered.
      obtain ⟨elsewhere, isOpen'⟩ := closing_open is
      obtain ⟨opens, agent, -⟩ := weaker other
      have same := (inv.current other (opens isOpen')).1
      rw [isAgent] at same
      exact (elsewhere (agent.trans (Option.some.inj same).symm)).elim
    · exact closing_weaker (weaker other)
    · exact (closing_bytes _ _).trans (bytes other)
  · next inside =>
    exact inv.snoc (f := f) isUsage counted after dated isOpened rfl keeps
      (fun _ _ => Bool.not_eq_true _ ▸ inside) weaker bytes room validation

theorem chunkSize_le (rate : Option Nat) (readableLength : Nat) :
    Relay.chunkSize rate readableLength ≤ 16 * 1024 := by
  unfold chunkSize
  cases rate with
  | none => exact Int.min_le_right _ _
  | some rate => exact Int.le_trans (Int.min_le_left _ _) (Int.min_le_right _ _)

theorem count_usage (r : Relay) (id written size : Nat) (lapses : Relay.Lapses) :
    (r.count id written size lapses).usageByName = r.usageByName ∧
      ((r.count id written size lapses).connections id).usage = (r.connections id).usage := by
  unfold Relay.count
  simp only
  split
  · refine ⟨rfl, ?_⟩
    simp only [Relay.destroyPhones, Relay.setUsage, Relay.setConnection, update_self, if_true]
  · refine ⟨rfl, ?_⟩
    simp only [Relay.setUsage, Relay.setConnection, update_self]

/-- No connection is open. -/
def Closed (r : Relay) : Prop := ∀ id, (r.connections id).destroyed = true

/-- The usage of the computer is not over its quota. -/
def Calm (r : Relay) : Prop := ∀ usage, r.usageByName = some usage → Under (r.usages usage)

def Held (r : Relay) : Prop := Calm r ∨ Closed r

theorem Held.weaker (held : Held r) {connections : Nat → Connection}
    (weaker : ∀ id, Weaker (r.connections id) (connections id)) :
    Held { r with connections := connections } := by
  refine held.imp (fun calm => calm) fun closed id => ?_
  cases is : (connections id).destroyed with
  | true => rfl
  | false => exact absurd (closed id) (by rw [(weaker id).1 is]; exact Bool.false_ne_true)

theorem Held.setConnection (held : Held r)
    (weaker : Weaker (r.connections id) c) : Held (r.setConnection id c) :=
  held.weaker (weaker_update weaker)

theorem Calm.update (calm : Calm r) {usage : Nat} {u : Usage}
    (keeps : Under (r.usages usage) → Under u) (other : Nat) (is : r.usageByName = some other) :
    Under (Function.update r.usages usage u other) := by
  by_cases same : other = usage
  · subst same
    rw [update_self]
    exact keeps (calm other is)
  · rw [update_of_ne same]
    exact calm other is

theorem Held.setUsage (held : Held r) {usage : Nat} {u : Usage} (now : Nat)
    (keeps : Under (r.usages usage) → Under u) : Held (r.setUsage now usage u) :=
  held.imp (fun calm => calm.update keeps) fun closed => closed

theorem Under.acmeRemaining {u : Usage} (under : Under u) (now : Nat) : Under (u.acmeRemaining now).2 := by
  obtain ⟨-, -, -, -, bytes, quota⟩ := acmeRemaining_frame u now
  rw [Under, bytes, quota]
  exact under

theorem Held.acmeRemaining (held : Held r) (usage now : Nat) :
    Held (r.setUsage now usage ((r.usages usage).acmeRemaining now).2) :=
  held.setUsage now fun under => under.acmeRemaining now

theorem destroyPhones_closed (inv : Inv (r.destroyPhones agent)) (is : r.agent = some agent) :
    Closed (r.destroyPhones agent) := by
  intro id
  cases isOpen : ((r.destroyPhones agent).connections id).destroyed with
  | true => rfl
  | false =>
    obtain ⟨elsewhere, -⟩ := closing_open isOpen
    have current := (inv.current id isOpen).1
    simp only [destroyPhones, if_neg elsewhere] at current
    exact (elsewhere (Option.some.inj (current.symm.trans is))).elim

theorem calm_count (inv : Inv r) (calm : Calm r) {id written size : Nat} (lapses : Relay.Lapses)
    (le : r.now ≤ written) (allowed : Allowed r id size) : Held (r.count id written size lapses) := by
  have counted := inv.count lapses le allowed
  obtain ⟨isAgent, isUsage⟩ := inv.current id allowed.opened
  have under := calm _ isUsage
  unfold Relay.count at *
  simp only at *
  split
  · next crossing =>
    rw [if_pos crossing] at counted
    exact .inr (destroyPhones_closed counted isAgent)
  · next inside =>
    exact .inl (calm.update fun under => under.add (Bool.not_eq_true _ ▸ inside))

/-- What was forwarded since came from a connection that was open before, or that was opened
since. -/
structure Extends (r r' : Relay) : Prop where
  log : ∃ more, r'.forwarded = r.forwarded ++ more ∧ ∀ f ∈ more,
    (r.connections f.connection).destroyed = false ∨ r.nextConnection ≤ f.connection
  opens : ∀ id, (r'.connections id).destroyed = false →
    (r.connections id).destroyed = false ∨ r.nextConnection ≤ id
  next : r.nextConnection ≤ r'.nextConnection

theorem Extends.trans (first : Extends r r') (second : Extends r' r'') : Extends r r'' := by
  obtain ⟨more, log, from'⟩ := first.log
  obtain ⟨more', log', from''⟩ := second.log
  have since {id : Nat} (is : (r'.connections id).destroyed = false ∨ r'.nextConnection ≤ id) :
      (r.connections id).destroyed = false ∨ r.nextConnection ≤ id :=
    is.elim (first.opens id) fun le => .inr (Nat.le_trans first.next le)
  refine ⟨⟨more ++ more', by rw [log', log, append_assoc], ?_⟩,
    fun id is => since (second.opens id is), Nat.le_trans first.next second.next⟩
  exact forall_mem_append.mpr ⟨from', fun f member => since (from'' f member)⟩

/-- Nothing is forwarded, and nothing is opened. -/
theorem extends_same (log : r'.forwarded = r.forwarded) (next : r'.nextConnection = r.nextConnection)
    (opens : ∀ id, (r'.connections id).destroyed = false → (r.connections id).destroyed = false) :
    Extends r r' :=
  ⟨⟨[], by rw [log, append_nil], by simp⟩, fun id is => .inl (opens id is),
    Nat.le_of_eq next.symm⟩

theorem extends_refl (r : Relay) : Extends r r := extends_same rfl rfl fun _ is => is

theorem extends_setConnection (weaker : Weaker (r.connections id) c) : Extends r (r.setConnection id c) :=
  extends_same rfl rfl fun other => (weaker_update weaker other).1

theorem extends_count (written size : Nat) (lapses : Relay.Lapses)
    (isOpen : (r.connections id).destroyed = false) :
    Extends r (r.count id written size lapses) := by
  have opens (other : Nat) (is : (Function.update r.connections id
      { r.connections id with bytes := (r.connections id).bytes + size } other).destroyed = false) :
      (r.connections other).destroyed = false := by
    by_cases same : other = id
    · rw [same]
      exact isOpen
    · rwa [update_of_ne same] at is
  unfold Relay.count
  simp only
  split
  · exact ⟨⟨_, rfl, forall_mem_singleton.mpr (.inl isOpen)⟩,
      fun other is => .inl (opens other (closing_open is).2), Nat.le_refl _⟩
  · exact ⟨⟨_, rfl, forall_mem_singleton.mpr (.inl isOpen)⟩,
      fun other is => .inl (opens other is), Nat.le_refl _⟩

/-- What happens between an open connection and its computer: what is known still holds, a computer that
goes over its quota is left without an open connection, and nothing is opened. -/
structure Goes (r r' : Relay) : Prop where
  inv : Inv r'
  held : Held r → Held r'
  later : Extends r r'

theorem Goes.trans (first : Goes r r') (second : Goes r' r'') : Goes r r'' :=
  ⟨second.inv, fun held => second.held (first.held held), first.later.trans second.later⟩

section
variable (inv : Inv r)
include inv

theorem goes_refl : Goes r r := ⟨inv, fun held => held, extends_refl r⟩

theorem goes_setConnection (weaker : Weaker (r.connections id) c) : Goes r (r.setConnection id c) :=
  ⟨inv.setConnection weaker, fun held => held.setConnection weaker, extends_setConnection weaker⟩

theorem goes_abort (id : Nat) : Goes r (r.abort id) :=
  goes_setConnection inv ⟨Bool.noConfusion, rfl, rfl, rfl, rfl⟩

theorem goes_acmeRemaining {now usage : Nat} (le : r.now ≤ now) (is : r.usageByName = some usage) :
    Goes r (r.setUsage now usage ((r.usages usage).acmeRemaining now).2) :=
  ⟨inv.acmeRemaining le is, fun held => held.acmeRemaining usage now, extends_same rfl rfl fun _ is => is⟩

theorem size_spec (iteration : Relay.Iteration) (isOpen : (r.connections id).destroyed = false) :
    Goes r (r.size id iteration).2 ∧ Allowed (r.size id iteration).2 id (r.size id iteration).1.toNat := by
  have current := (inv.current id isOpen).2
  unfold Relay.size
  simp only
  have chunk := chunkSize_le (r.connections id).rate iteration.readableLength
  generalize Relay.chunkSize (r.connections id).rate iteration.readableLength = size at *
  split
  · next validation =>
    have looked := goes_acmeRemaining inv (Nat.le_add_right r.now iteration.lapses.limit) current
    obtain ⟨-, -, remaining, -⟩ := acmeRemaining_frame (r.usages (r.connections id).usage)
      (r.now + iteration.lapses.limit)
    have own := inv.own id validation
    have hour := (looked.inv.usage _ current).1.acmeBytes
    simp only [Relay.setUsage, update_self] at hour
    refine ⟨looked, isOpen, by omega, fun _ => ?_, fun _ => ?_⟩
    · simp only [Relay.setUsage]
      omega
    · simp only [Relay.setUsage, update_self]
      rw [remaining]
      omega
  · next ordinary =>
    exact ⟨goes_refl inv, isOpen, by omega, fun is => (ordinary is).elim,
      fun is => (ordinary is).elim⟩

theorem goes_count {id written size : Nat} (le : r.now ≤ written) (allowed : Allowed r id size) :
    Goes r (r.count id written size lapses) := by
  refine ⟨inv.count lapses le allowed, fun held => ?_, extends_count written size lapses allowed.opened⟩
  rcases held with calm | closed
  · exact calm_count inv calm lapses le allowed
  · cases (closed id).symm.trans allowed.opened

theorem goes_account {id written size : Nat} (le : r.now ≤ written) (allowed : Allowed r id size) :
    Goes r (r.account id written size lapses) := by
  unfold Relay.account
  have counted : Goes r (r.count id written size lapses) := goes_count inv le allowed
  obtain ⟨byName, same⟩ := count_usage r id written size lapses
  have usage : (r.count id written size lapses).usageByName =
      some ((r.count id written size lapses).connections id).usage := by
    rw [byName, same]
    exact (inv.current id allowed.opened).2
  simp only
  split
  · split
    · exact counted.trans (goes_abort counted.inv id)
    · have looked := counted.trans (goes_acmeRemaining counted.inv (Nat.le_add_right _ lapses.last) usage)
      split
      · exact looked.trans (goes_abort looked.inv id)
      · exact looked
  · exact counted

end

/-- What a turn of the loop does: it stops, or it forwards a chunk that is allowed; it goes on only
while the connection is open. -/
theorem turn_cases (inv : Inv r) (direction : Direction) (iteration : Relay.Iteration)
    (isOpen : (r.connections id).destroyed = false) :
    ∃ c, Weaker (((r.size id iteration).2).connections id) c ∧
      (r.turn id direction iteration = (false, (r.size id iteration).2.setConnection id c) ∨
        ∃ written size, ((r.size id iteration).2.setConnection id c).now ≤ written ∧
          Allowed ((r.size id iteration).2.setConnection id c) id size ∧
          (r.turn id direction iteration).2 =
            ((r.size id iteration).2.setConnection id c).account id written size iteration.lapses ∧
          ((r.turn id direction iteration).1 = true →
            ((r.turn id direction iteration).2.connections id).destroyed = false)) := by
  obtain ⟨-, allowed⟩ := size_spec inv iteration isOpen
  unfold turn
  generalize r.size id iteration = sized at *
  obtain ⟨size, r⟩ := sized
  simp only at allowed ⊢
  split
  · exact ⟨{ r.connections id with destroyed := true }, ⟨Bool.noConfusion, rfl, rfl, rfl, rfl⟩, .inl rfl⟩
  · split
    · exact ⟨_, weaker_setTransfer _ _ _, .inl rfl⟩
    · have blocked := weaker_setTransfer (r.connections id) direction
        { (r.connections id).transfer direction with blocked := !iteration.accepted }
      have isOpen := (setTransfer_destroyed (r.connections id) direction
        { (r.connections id).transfer direction with blocked := !iteration.accepted }).trans allowed.opened
      refine ⟨_, blocked, .inr ⟨_, _, le_add_right _ iteration.lapses.write, ?_, rfl,
        fun goesOn => ?_⟩⟩
      · obtain ⟨-, -, usage, validation, bytes⟩ := blocked
        refine ⟨?_, allowed.chunk, ?_, ?_⟩
        · simp only [setConnection, update_self]
          exact isOpen
        · simp only [setConnection, update_self, validation, bytes]
          exact allowed.connection
        · simp only [setConnection, update_self, validation, usage]
          exact allowed.hour
      · rw [Bool.and_eq_true, Bool.not_eq_true'] at goesOn
        exact goesOn.2

theorem goes_turn (inv : Inv r) (direction : Direction) (iteration : Relay.Iteration)
    (isOpen : (r.connections id).destroyed = false) :
    Goes r (r.turn id direction iteration).2 ∧ ((r.turn id direction iteration).1 = true →
      ((r.turn id direction iteration).2.connections id).destroyed = false) := by
  obtain ⟨looked, -⟩ := size_spec inv iteration isOpen
  obtain ⟨c, weaker, forwards⟩ := turn_cases inv direction iteration isOpen
  have placed := looked.trans (goes_setConnection looked.inv weaker)
  rcases forwards with stops | ⟨written, size, le, allowed, forwards, goesOn⟩
  · rw [stops]
    exact ⟨placed, nofun⟩
  · refine ⟨?_, goesOn⟩
    rw [forwards]
    exact placed.trans (goes_account placed.inv le allowed)

theorem goes_pumpLoop {direction : Direction} (iterations : List Relay.Iteration)
    (inv : Inv r) (isOpen : (r.connections id).destroyed = false) :
    Goes r (Relay.pumpLoop id direction iterations r) := by
  induction iterations generalizing r with
  | nil => exact goes_refl inv
  | cons iteration rest ih =>
    obtain ⟨turned, stays⟩ := goes_turn inv direction iteration isOpen
    unfold pumpLoop
    simp only
    split
    · exact goes_refl inv
    · split
      · next goesOn => exact turned.trans (ih turned.inv (stays goesOn))
      · exact turned

theorem goes_pump (inv : Inv r) (id : Nat) (direction : Direction)
    (iterations : List Relay.Iteration) : Goes r (r.pump id direction iterations) := by
  unfold Relay.pump
  simp only
  split
  · exact goes_refl inv
  · next runs =>
    simp only [Bool.or_eq_true, not_or, Bool.not_eq_true] at runs
    exact goes_pumpLoop iterations inv runs.2

/-- A connection is opened under the usage of the computer. -/
theorem Inv.accept (inv : Inv r) (isAgent : r.agent = some c.agent)
    (isUsage : r.usageByName = some c.usage) (bytes : c.bytes = 0)
    (under : c.validation = false → Under (r.usages c.usage)) :
    Inv { r.setConnection r.nextConnection c with nextConnection := r.nextConnection + 1 } := by
  have cases' {P : Nat → Connection → Prop} (new : P r.nextConnection c)
      (old : ∀ id, id ≠ r.nextConnection → P id (r.connections id)) (id : Nat) :
      P id (Function.update r.connections r.nextConnection c id) := by
    by_cases same : id = r.nextConnection
    · rw [same, update_self]
      exact new
    · rw [update_of_ne same]
      exact old id same
  refine ⟨inv.limits, inv.past, inv.usage, inv.pruned, ?_, ?_, fun id le => ?_, ?_, ?_, ?_⟩
  · exact cases' (P := fun _ c => c.destroyed = false →
      r.agent = some c.agent ∧ r.usageByName = some c.usage) (fun _ => ⟨isAgent, isUsage⟩)
      fun id _ => inv.current id
  · exact cases' (P := fun _ c => c.destroyed = false → c.validation = false →
      Under (r.usages c.usage)) (fun _ => under) fun id _ => inv.under id
  · simp only [Relay.setConnection] at le ⊢
    rw [update_of_ne (by omega)]
    exact inv.opened id (by omega)
  · exact fun f member => Nat.lt_succ_of_lt (inv.logged f member)
  · refine cases' (P := fun id c => c.validation = true → connectionBytes r.forwarded id ≤ c.bytes ∧
      c.bytes ≤ 64 * 1024) (fun _ => ?_) fun id _ => inv.own id
    have nothing : connectionBytes r.forwarded r.nextConnection = 0 := by
      refine bytesWhere_none fun f member => ?_
      have := inv.logged f member
      rw [decide_eq_false (by omega), Bool.and_false]
    omega
  · intro f member crossing
    obtain ⟨le, all⟩ := inv.since f member crossing
    exact ⟨Nat.le_succ_of_le le, cases' (P := fun id c => c.destroyed = false → f.opened ≤ id)
      (fun _ => le) fun id _ => all id⟩

theorem Inv.forward (inv : Inv r) (acme : Bool) (lapses : Relay.ForwardLapses) :
    Inv (r.forward acme lapses) := by
  unfold Relay.forward
  split
  · next agent usage isAgent isUsage =>
    obtain ⟨charged, -⟩ := inv.usage usage isUsage
    have first := (charged.later (Nat.le_add_right r.now lapses.first)).exceeded
    have second := (first.later (Nat.le_add_right _ lapses.second)).exceeded
    have looked := inv.setUsage isUsage second
      (first.later (Nat.le_add_right _ lapses.second)).dated fun under =>
        (under.exceeded _).exceeded _
    simp only
    split
    · exact inv.exceeded (Nat.le_add_right _ _) isUsage
    · split
      · next inside =>
        refine looked.accept isAgent isUsage rfl fun _ => ?_
        simp only [Relay.setUsage, update_self]
        exact (exceeded_eq_false_iff _ _).mp (Bool.not_eq_true' _ ▸ inside)
      · split
        · exact looked
        · next validation =>
          have last := looked.acmeRemaining (Nat.le_add_right _ lapses.acme) isUsage
          simp only [Relay.setUsage, update_self, update_idem] at last
          split
          · exact last
          · refine last.accept isAgent isUsage rfl fun ordinary => ?_
            simp only [Bool.not_eq_true', Bool.not_eq_false] at validation
            exact absurd (ordinary.symm.trans validation) Bool.false_ne_true
  · exact inv

section
variable (inv : Inv r)
include inv

theorem Inv.closed (none : r.agent = none) : Closed r := by
  intro id
  cases is : (r.connections id).destroyed with
  | true => rfl
  | false => exact absurd (none.symm.trans (inv.current id is).1) nofun

theorem Inv.setAgent (agent : Option Nat)
    (same : ∀ id, (r.connections id).destroyed = false → agent = some (r.connections id).agent) :
    Inv { r with agent := agent } :=
  ⟨inv.limits, inv.past, inv.usage, inv.pruned, fun id is => ⟨same id is, (inv.current id is).2⟩,
    inv.under, inv.opened, inv.logged, inv.own, inv.since⟩

theorem Inv.unregister (agent : Nat) : Inv (r.unregister agent) := by
  refine (inv.destroyPhones agent).setAgent _ fun id is => ?_
  obtain ⟨elsewhere, isOpen⟩ := closing_open is
  have current := (inv.current id isOpen).1
  rw [if_neg (by rw [current]; exact fun same => elsewhere (Option.some.inj same)), current]
  simp only [Relay.destroyPhones, if_neg elsewhere]

theorem unregister_closed (is : r.agent = some agent) : Closed (r.unregister agent) :=
  (inv.unregister agent).closed (if_pos is)

theorem Inv.replaceUsage (closed : Closed r) {now : Nat} {u : Usage}
    (charged : Charged r.forwarded now u) (dated : Dated u) (usage nextUsage : Nat) :
    Inv { r.setUsage now usage u with usageByName := some usage, nextUsage := nextUsage } := by
  have never {P : Prop} (id : Nat) (is : (r.connections id).destroyed = false) : P :=
    absurd (closed id) (by rw [is]; exact Bool.false_ne_true)
  refine ⟨inv.limits, charged.past, fun other isOther => ?_, nofun, fun id is => never id is,
    fun id is => never id is,
    inv.opened, inv.logged, inv.own, inv.since⟩
  cases isOther
  simp only [Relay.setUsage, update_self]
  exact ⟨charged, dated⟩

theorem Inv.wait (lapse : Nat) : Inv { r with now := r.now + lapse } :=
  have le := le_add_right r.now lapse
  ⟨inv.limits, inv.past.later le,
    fun usage is => ⟨(inv.usage usage is).1.later le, (inv.usage usage is).2⟩,
    fun is => (inv.pruned is).later inv.past le, inv.current, inv.under, inv.opened, inv.logged,
    inv.own, inv.since⟩

theorem Inv.pruneUsage : Inv r.pruneUsage := by
  unfold Relay.pruneUsage
  split
  · next usage isAgent isUsage =>
    split
    · next expired =>
      obtain ⟨charged, dated⟩ := inv.usage usage isUsage
      have closed := inv.closed isAgent
      have never {P : Prop} (id : Nat) (is : (r.connections id).destroyed = false) : P :=
        absurd (closed id) (by rw [is]; exact Bool.false_ne_true)
      exact ⟨inv.limits, inv.past, nofun, fun _ => charged.unused dated expired,
        fun id is => never id is, inv.under, inv.opened, inv.logged, inv.own, inv.since⟩
    · exact inv
  · exact inv

theorem Inv.replaceAgent : Inv r.replaceAgent ∧ Closed r.replaceAgent := by
  have takes {q : Relay} (inv : Inv q) (closed : Closed q) :
      Inv { q with agent := some q.nextAgent, nextAgent := q.nextAgent + 1 } := by
    have moved := inv.setAgent (some q.nextAgent) fun id is =>
      absurd (closed id) (by rw [is]; exact Bool.false_ne_true)
    exact ⟨moved.limits, moved.past, moved.usage, moved.pruned, moved.current, moved.under,
      moved.opened, moved.logged, moved.own, moved.since⟩
  unfold Relay.replaceAgent
  split
  · next agent isAgent =>
    have closed := unregister_closed inv isAgent
    exact ⟨takes (inv.unregister agent) closed, closed⟩
  · next none =>
    have closed := inv.closed none
    exact ⟨takes inv closed, closed⟩

end

/-- The usage and the agent are set independently of each other. -/
theorem replaceAgent_usageAt (r : Relay) (checked : Bool) (rate dailyQuota : Option Nat)
    (usedToday : Nat) (lapses : Relay.RegisterLapses) :
    (r.usageAt checked rate dailyQuota usedToday lapses).1 =
        (r.replaceAgent.usageAt checked rate dailyQuota usedToday lapses).1 ∧
      (r.usageAt checked rate dailyQuota usedToday lapses).2.replaceAgent =
        (r.replaceAgent.usageAt checked rate dailyQuota usedToday lapses).2 := by
  unfold usageAt replaceAgent
  rcases r with ⟨now, usages, nextUsage, _ | usage, _ | agent, nextAgent, connections, next, log⟩
  · exact ⟨rfl, rfl⟩
  · exact ⟨rfl, rfl⟩
  · cases checked with
    | true | false => exact ⟨rfl, rfl⟩
  · cases checked with
    | true | false => exact ⟨rfl, rfl⟩

/-- While no connection is open, the usage may be set to anything that is charged. -/
theorem Inv.usageAt (inv : Inv r) (closed : Closed r) (checked : Bool)
    (rate dailyQuota : Option Nat) (usedToday : Nat) (lapses : Relay.RegisterLapses) :
    Inv (r.usageAt checked rate dailyQuota usedToday lapses).2 ∧
      Closed (r.usageAt checked rate dailyQuota usedToday lapses).2 ∧
      (r.usageAt checked rate dailyQuota usedToday lapses).2.usageByName =
        some (r.usageAt checked rate dailyQuota usedToday lapses).1 := by
  have first := Nat.le_add_right r.now lapses.first
  have second := Nat.le_add_right (r.now + lapses.first) lapses.second
  have third := Nat.le_add_right (r.now + lapses.first + lapses.second) lapses.third
  unfold Relay.usageAt
  simp only
  split
  · next isUsage =>
    have unused := (inv.pruned isUsage).later inv.past first
    obtain ⟨charged, dated⟩ := unused.charged (inv.past.later first) second third rate dailyQuota usedToday
    exact ⟨inv.replaceUsage closed charged dated _ _, closed, rfl⟩
  · next usage isUsage =>
    split
    · obtain ⟨charged, dated⟩ := inv.usage usage isUsage
      obtain ⟨charged, dated⟩ := (charged.later first).configure dated second third rate dailyQuota usedToday
      have replaced := inv.replaceUsage closed charged dated usage r.nextUsage
      rw [← isUsage] at replaced
      exact ⟨replaced, closed, isUsage⟩
    · exact ⟨inv, closed, isUsage⟩

theorem Inv.register (inv : Inv r) (checked : Bool) (rate dailyQuota : Option Nat) (usedToday : Nat)
    (lapses : Relay.RegisterLapses) :
    Inv (r.register checked rate dailyQuota usedToday lapses) ∧
      Closed (r.register checked rate dailyQuota usedToday lapses) := by
  obtain ⟨replaced, closed⟩ := inv.replaceAgent
  obtain ⟨usage, agent⟩ := replaceAgent_usageAt r checked rate dailyQuota usedToday lapses
  obtain ⟨set, closed, isUsage⟩ := replaced.usageAt closed checked rate dailyQuota usedToday lapses
  unfold Relay.register
  simp only [usage, agent]
  exact ⟨set.exceeded (Nat.le_add_right _ _) isUsage, closed⟩

theorem calm_forward (calm : Calm r) (acme : Bool) (lapses : Relay.ForwardLapses) :
    Calm (r.forward acme lapses) := by
  unfold forward
  split
  · simp only
    split
    · exact calm.update fun under => under.exceeded _
    · split
      · exact calm.update fun under => (under.exceeded _).exceeded _
      · split
        · exact calm.update fun under => (under.exceeded _).exceeded _
        · split
          · exact calm.update fun under => ((under.exceeded _).exceeded _).acmeRemaining _
          · exact calm.update fun under => ((under.exceeded _).exceeded _).acmeRemaining _
  · exact calm

theorem extends_forward (r : Relay) (acme : Bool) (lapses : Relay.ForwardLapses) :
    Extends r (r.forward acme lapses) := by
  have accepts (now usage : Nat) (u : Usage) (c : Connection) :
      Extends r { (r.setUsage now usage u).setConnection r.nextConnection c with
        nextConnection := r.nextConnection + 1 } := by
    refine ⟨⟨[], (append_nil _).symm, by simp⟩, fun id is => ?_, Nat.le_succ _⟩
    by_cases same : id = r.nextConnection
    · exact .inr (Nat.le_of_eq same.symm)
    · simp only [Relay.setConnection, update_of_ne same] at is
      exact .inl is
  unfold Relay.forward
  split
  · simp only
    split
    · exact extends_same rfl rfl fun _ is => is
    · split
      · exact accepts _ _ _ _
      · split
        · exact extends_same rfl rfl fun _ is => is
        · split
          · exact extends_same rfl rfl fun _ is => is
          · exact accepts _ _ _ _
  · exact extends_refl r

theorem register_frame (r : Relay) (checked : Bool) (rate dailyQuota : Option Nat)
    (usedToday : Nat) (lapses : Relay.RegisterLapses) :
    (r.register checked rate dailyQuota usedToday lapses).forwarded = r.forwarded ∧
      (r.register checked rate dailyQuota usedToday lapses).nextConnection = r.nextConnection := by
  have agents (q : Relay) : q.replaceAgent.forwarded = q.forwarded ∧
      q.replaceAgent.nextConnection = q.nextConnection := by
    unfold replaceAgent
    split
    · exact ⟨rfl, rfl⟩
    · exact ⟨rfl, rfl⟩
  obtain ⟨log, next⟩ := agents (r.usageAt checked rate dailyQuota usedToday lapses).2
  have usages : (r.usageAt checked rate dailyQuota usedToday lapses).2.forwarded = r.forwarded ∧
      (r.usageAt checked rate dailyQuota usedToday lapses).2.nextConnection = r.nextConnection := by
    unfold usageAt
    simp only
    split
    · exact ⟨rfl, rfl⟩
    · split
      · exact ⟨rfl, rfl⟩
      · exact ⟨rfl, rfl⟩
  exact ⟨log.trans usages.1, next.trans usages.2⟩

/-- A step keeps the invariant, and if it takes the computer over its quota, it leaves no connection
open. -/
theorem step_spec (inv : Inv r) (event : Event) :
    Inv (r.step event) ∧ (Calm r → Held (r.step event)) ∧ Extends r (r.step event) := by
  have goes {r' : Relay} (goes : Goes r r') : Inv r' ∧ (Calm r → Held r') ∧ Extends r r' :=
    ⟨goes.inv, fun calm => goes.held (.inl calm), goes.later⟩
  have pumps (id : Nat) (direction : Direction) (iterations : List Relay.Iteration) (transfer : Transfer) :=
    have first := goes_setConnection inv (weaker_setTransfer (r.connections id) direction transfer)
    first.trans (goes_pump first.inv id direction iterations)
  cases event with
  | wait lapse => exact ⟨inv.wait lapse, .inl, extends_same rfl rfl fun _ is => is⟩
  | connect acme lapses =>
    exact ⟨inv.forward acme lapses, fun calm => .inl (calm_forward calm acme lapses), extends_forward r acme lapses⟩
  | readable id direction iterations => exact goes (goes_pump inv id direction iterations)
  | drain id direction iterations => exact goes (pumps id direction iterations _)
  | timeout id direction iterations =>
    simp only [Relay.step, Relay.timeout]
    split
    · exact goes (pumps id direction iterations _)
    · exact goes (goes_refl inv)
  | abort id => exact goes (goes_abort inv id)
  | socketClose id => exact goes (goes_setConnection inv ⟨Bool.noConfusion, rfl, rfl, rfl, rfl⟩)
  | register checked rate dailyQuota usedToday lapses =>
    obtain ⟨registered, closed⟩ := inv.register checked rate dailyQuota usedToday lapses
    obtain ⟨log, next⟩ := register_frame r checked rate dailyQuota usedToday lapses
    exact ⟨registered, fun _ => .inr closed, extends_same log next fun id is =>
      absurd (Eq.trans (Eq.symm is) (closed id)) Bool.false_ne_true⟩
  | unregister agent =>
    exact ⟨inv.unregister agent, .inl, extends_same rfl rfl fun _ is => (closing_open is).2⟩
  | pruneUsage =>
    refine ⟨inv.pruneUsage, ?_, ?_⟩
    all_goals
      simp only [Relay.step, Relay.pruneUsage]
      split
      · split
        · first | exact fun _ => .inl nofun | exact extends_same rfl rfl fun _ is => is
        · first | exact .inl | exact extends_refl r
      · first | exact .inl | exact extends_refl r

theorem inv_new (now : Nat) : Inv (.new now) := by
  have limits : Limits [] := ⟨fun before f is => by simp at is, fun _ => zero_le _,
    fun _ => zero_le _, .nil⟩
  exact ⟨limits, nofun, nofun, fun _ => ⟨rfl, rfl⟩, nofun, nofun, fun _ _ => rfl, nofun, nofun, nofun⟩

theorem inv_run (now : Nat) (events : List Event) : Inv (Relay.run now events) :=
  (Run.of_fold step (.new now) events).invariant (inv_new now)
    fun _ event _ inv is => is ▸ (step_spec inv event).1

theorem extends_run (inv : Inv r) (events : List Event) : Extends r (events.foldl Relay.step r) := by
  induction events generalizing r with
  | nil => exact extends_refl r
  | cons event rest ih => 
    obtain ⟨stepped, -, first⟩ := step_spec inv event
    exact first.trans (ih stepped)

/-- After a step that takes the computer over its quota, only connections that are opened later
forward anything. -/
theorem forwarded_later (inv : Inv r) {event : Event} (calm : Calm r)
    (crossed : ¬Calm (r.step event)) (events : List Event) :
    ∃ more, (events.foldl Relay.step (r.step event)).forwarded = (r.step event).forwarded ++ more ∧
      ∀ f ∈ more, (r.step event).nextConnection ≤ f.connection := by
  obtain ⟨stepped, held, -⟩ := step_spec inv event
  have closed := (held calm).resolve_left crossed
  obtain ⟨more, log, from'⟩ := (extends_run stepped events).log
  refine ⟨more, log, fun f member => (from' f member).resolve_left fun isOpen => ?_⟩
  rw [closed f.connection] at isOpen
  cases isOpen

end Relays

/-- What ordinary connections forward on a day is at most one chunk more than any bound of the quotas
that are in force. -/
theorem Limits.ordinary {log : List Forwarded} (limits : Limits log) {day quota : Nat}
    (bound : ∀ f ∈ log, f.validation = false → dayOf f.hour = day → ∃ q ≤ quota, f.quota = some q) :
    ordinaryBytes log day ≤ quota + 16 * 1024 := by
  have daily := limits.daily
  clear limits
  induction log using List.reverseRecOn with
  | nil => exact zero_le _
  | append_singleton before f ih =>
    rw [forall_mem_append] at bound
    have earlier := ih bound.1 fun before g isPrefix => daily before g (isPrefix.trans (prefix_append _ _))
    rw [ordinaryBytes, bytesWhere_snoc, ← ordinaryBytes]
    split
    · next counted =>
      simp only [Bool.and_eq_true, Bool.not_eq_true', decide_eq_true_eq] at counted
      obtain ⟨q, le, is⟩ := bound.2 f (mem_singleton_self _) counted.1 counted.2
      obtain ⟨chunk, under⟩ := daily before f (prefix_refl _) counted.1
      have := under q is
      rw [counted.2] at this
      omega
    · exact earlier

/-- The quota of a computer, in every run of the relay. -/
theorem relay_quota (now : Nat) (events : List Event) :
    (∀ before f, before ++ [f] <+: (Relay.run now events).forwarded → f.validation = false →
      f.size ≤ 16 * 1024 ∧ ∀ quota, f.quota = some quota → ordinaryBytes before (dayOf f.hour) < quota) ∧
    (∀ day quota, (∀ f ∈ (Relay.run now events).forwarded, f.validation = false →
        dayOf f.hour = day → ∃ q ≤ quota, f.quota = some q) →
      ordinaryBytes (Relay.run now events).forwarded day ≤ quota + 16 * 1024) ∧
    (∀ hour, validationBytes (Relay.run now events).forwarded hour ≤ 1024 * 1024) ∧
    (∀ id, connectionBytes (Relay.run now events).forwarded id ≤ 64 * 1024) ∧
    (Relay.run now events).forwarded.Pairwise (fun f g => f.quotaExceeded = true → f.opened ≤ g.connection) ∧
    ∀ first event rest, events = first ++ event :: rest → Calm (Relay.run now first) →
      ¬Calm (Relay.run now (first ++ [event])) →
      ∃ more, (Relay.run now events).forwarded = (Relay.run now (first ++ [event])).forwarded ++ more ∧
        ∀ f ∈ more, (Relay.run now (first ++ [event])).nextConnection ≤ f.connection := by
  have limits := (inv_run now events).limits
  refine ⟨limits.daily, fun day quota => limits.ordinary, limits.hourly, limits.connection,
    limits.crossed, ?_⟩
  rintro first event rest rfl calm crossed
  simp only [run, foldl_append, foldl_cons, foldl_nil] at calm crossed ⊢
  exact forwarded_later (inv_run now first) calm crossed rest

end CodexHost.Guarantees.RelayQuota
