import CodexHost.Foundation.EcmaString
import CodexHost.Foundation.OrderedMap

/-!
# Usage statistics

`UsageStatistics` of `packages/host-runtime/src/usage-statistics.ts`, with its calendar: the cached
sources of the Harnesses, the index of their entries, and what `#aggregate` makes of them. Tokens are
counts and costs are exact; how the sources are read and cached on disk are events.
-/
namespace CodexHost.Source.HostRuntime.UsageStatistics
open Foundation

/-- The fields of a time in a time zone. -/
structure CalendarFields where
  year : Nat
  month : Nat
  day : Nat
  hour : Nat
  deriving DecidableEq, Repr

/-- The time zones of the machine. -/
structure Zones where
  localZone : String
  /-- `new Date(ms)` -/
  localTime : Nat → CalendarFields
  /-- `formatToParts` in a time zone. -/
  format : String → Nat → CalendarFields
  localeCompare : String → String → Int

def padStart2 (value : Nat) : String :=
  if value < 10 then "0" ++ toString value else toString value

def dateKey (year month day : Nat) : String :=
  toString year ++ "-" ++ padStart2 month ++ "-" ++ padStart2 day

/-- The days from 1970-01-01 to a date. -/
def daysOf (year month day : Nat) : Int :=
  let y : Int := if month ≤ 2 then (year : Int) - 1 else year
  let m := (month + 9) % 12
  let era := y / 400
  let ofEra := y % 400
  era * 146097 + (ofEra * 365 + ofEra / 4 - ofEra / 100 + (153 * m + 2) / 5 + day - 1) - 719468

/-- The date that many days after 1970-01-01. -/
def dateOf (days : Int) : Nat × Nat × Nat :=
  let shifted := days + 719468
  let ofEra := shifted % 146097
  let year := (ofEra - ofEra / 1460 + ofEra / 36524 - ofEra / 146096) / 365
  let ofYear := ofEra - (365 * year + year / 4 - year / 100)
  let m := (5 * ofYear + 2) / 153
  let month := if m < 10 then m + 3 else m - 9
  let full := shifted / 146097 * 400 + year + if month ≤ 2 then 1 else 0
  (full.toNat, month.toNat, (ofYear - (153 * m + 2) / 5 + 1).toNat)

/-- 0 is a Sunday. -/
def weekdayOf (fields : CalendarFields) : Nat :=
  ((daysOf fields.year fields.month fields.day + 4) % 7).toNat

structure CalendarPosition where
  date : String
  weekday : Nat
  hour : Nat
  deriving DecidableEq, Repr

structure UsageStatisticsCalendar where
  timeZone : String
  at_ : Nat → CalendarPosition

def positionOf (fields : CalendarFields) : CalendarPosition :=
  ⟨dateKey fields.year fields.month fields.day, weekdayOf fields, fields.hour⟩

def createUsageStatisticsCalendar (zones : Zones) (timeZone : Option String) : UsageStatisticsCalendar :=
  let zone := timeZone.getD zones.localZone
  if zone = zones.localZone then ⟨zone, fun ms => positionOf (zones.localTime ms)⟩
  else ⟨zone, fun ms => positionOf (zones.format zone ms)⟩

def shiftUsageDate (date : String) (days : Int) : String :=
  match (date.splitOn "-").map String.toNat? with
  | [some year, some month, some day] =>
    let (year, month, day) := dateOf (daysOf year month day + days)
    dateKey year month day
  | _ => "NaN-NaN-NaN"

structure HarnessUsageEntry where
  id : String
  occurredAtMs : Nat
  model : Option String
  inputTokens : Nat
  cachedInputTokens : Option Nat
  cacheWriteInputTokens : Option Nat
  cacheWrite1hInputTokens : Option Nat
  outputTokens : Nat
  reasoningOutputTokens : Option Nat
  sessionId : Option String
  sessionTitle : Option String
  cwd : Option String
  costUsd : Option Rat
  tokensUnknown : Bool
  credits : Option Rat
  deriving DecidableEq

structure ModelPrice where
  input : Rat
  output : Rat
  cacheRead : Option Rat
  cacheWrite : Option Rat
  cacheWrite1h : Option Rat
  deriving DecidableEq

structure ModelPriceLookup where
  find : String → Option ModelPrice
  userPrice : String → Option ModelPrice

def cacheWrite1hPrice (price : ModelPrice) : Rat := price.cacheWrite1h.getD (price.input * 2)

def tokensPerPriceUnit : Rat := 1000000

def usageEntryCostUsd (price : Option ModelPrice) (entry : HarnessUsageEntry) : Option Rat := do
  let price ← price
  let cacheRead ← entry.cachedInputTokens
  let cacheWrite ← entry.cacheWriteInputTokens
  let cacheWrite1h := entry.cacheWrite1hInputTokens.getD 0
  let cacheWrite5m : Rat := (cacheWrite : Rat) - cacheWrite1h
  if (0 < cacheRead ∧ price.cacheRead = none) ∨ (0 < cacheWrite5m ∧ price.cacheWrite = none) then none
  else
    some ((((entry.inputTokens : Rat) - cacheRead - cacheWrite) * price.input +
      cacheRead * price.cacheRead.getD 0 + cacheWrite5m * price.cacheWrite.getD 0 +
      cacheWrite1h * cacheWrite1hPrice price + entry.outputTokens * price.output) / tokensPerPriceUnit)

/-- A price that the user has set comes first, then what the Harness has recorded, then the list. -/
def costOf (lookup : ModelPriceLookup) (entry : HarnessUsageEntry) : Option Rat :=
  if entry.tokensUnknown then none
  else
    match entry.model.bind lookup.userPrice with
    | some userPrice => usageEntryCostUsd (some userPrice) entry
    | none =>
      match entry.costUsd with
      | some cost => some cost
      | none => usageEntryCostUsd (entry.model.bind lookup.find) entry

/-- `costOf` looks for the model in the list and does not find it. -/
def isUnlisted (lookup : ModelPriceLookup) (entry : HarnessUsageEntry) : Bool :=
  !entry.tokensUnknown && (entry.model.bind lookup.userPrice).isNone && entry.costUsd.isNone &&
    entry.model.isSome && (entry.model.bind lookup.find).isNone

@[ext] structure UsageStatisticsTotals where
  requests : Nat
  inputTokens : Nat
  cachedInputTokens : Nat
  cacheWriteInputTokens : Nat
  cacheKnownInputTokens : Nat
  cacheHitCachedInputTokens : Nat
  cacheHitInputTokens : Nat
  outputTokens : Nat
  reasoningOutputTokens : Nat
  costUsd : Rat
  unpricedRequests : Nat
  unmeteredRequests : Nat
  deriving DecidableEq

def emptyTotals : UsageStatisticsTotals := ⟨0, 0, 0, 0, 0, 0, 0, 0, 0, 0, 0, 0⟩

def addEntry (totals : UsageStatisticsTotals) (entry : HarnessUsageEntry) (cost : Option Rat) :
    UsageStatisticsTotals :=
  let totals := { totals with requests := totals.requests + 1 }
  if entry.tokensUnknown then { totals with unmeteredRequests := totals.unmeteredRequests + 1 }
  else
    let totals := { totals with
      inputTokens := totals.inputTokens + entry.inputTokens
      outputTokens := totals.outputTokens + entry.outputTokens
      reasoningOutputTokens := totals.reasoningOutputTokens + entry.reasoningOutputTokens.getD 0 }
    let totals := match entry.cachedInputTokens with
      | some cached => { totals with
          cacheHitCachedInputTokens := totals.cacheHitCachedInputTokens + cached
          cacheHitInputTokens := totals.cacheHitInputTokens + entry.inputTokens }
      | none => totals
    let totals := match entry.cachedInputTokens, entry.cacheWriteInputTokens with
      | some cached, some written => { totals with
          cachedInputTokens := totals.cachedInputTokens + cached
          cacheWriteInputTokens := totals.cacheWriteInputTokens + written
          cacheKnownInputTokens := totals.cacheKnownInputTokens + entry.inputTokens }
      | _, _ => totals
    match cost with
    | none => { totals with unpricedRequests := totals.unpricedRequests + 1 }
    | some cost => { totals with costUsd := totals.costUsd + cost }

def tokensWithoutCache (totals : UsageStatisticsTotals) : Int :=
  (totals.inputTokens : Int) - totals.cachedInputTokens - totals.cacheWriteInputTokens + totals.outputTokens

/-- A row of a breakdown. -/
structure Row (K : Type) where
  key : K
  totals : UsageStatisticsTotals
  deriving DecidableEq

/-- The order of the rows: the most cost first, then the most tokens without cache. -/
def spendsMore (left right : UsageStatisticsTotals) : Bool :=
  right.costUsd < left.costUsd ||
    (right.costUsd = left.costUsd && tokensWithoutCache right ≤ tokensWithoutCache left)

def rowsOf {K : Type} (map : OrderedMap K UsageStatisticsTotals) : List (Row K) :=
  map.entries.map fun entry => ⟨entry.1, entry.2⟩

def grouped {K : Type} (map : OrderedMap K UsageStatisticsTotals) : List (Row K) :=
  (rowsOf map).mergeSort fun left right => spendsMore left.totals right.totals

section Bucket
variable {K : Type} [DecidableEq K]

def bucket (map : OrderedMap K UsageStatisticsTotals) (key : K) : UsageStatisticsTotals :=
  (map.get? key).getD emptyTotals

/-- `addEntry(bucket(map, key), entry, cost)` -/
def addToBucket (map : OrderedMap K UsageStatisticsTotals) (key : K) (entry : HarnessUsageEntry)
    (cost : Option Rat) : OrderedMap K UsageStatisticsTotals :=
  map.set key (addEntry (bucket map key) entry cost)

end Bucket

structure CachedSource where
  fingerprint : String
  entries : List HarnessUsageEntry
  deriving DecidableEq

/-- The sources of a Harness by their IDs. -/
abbrev HarnessCache := OrderedMap String CachedSource

/-- A request once, with its position in the calendar. -/
structure IndexedEntry where
  harness : String
  entry : HarnessUsageEntry
  position : CalendarPosition
  deriving DecidableEq

structure Index where
  generation : Nat
  timeZone : String
  entries : List IndexedEntry

structure State where
  caches : OrderedMap String HarnessCache
  /-- Goes up whenever a cached parse is added, replaced or removed. -/
  generation : Nat
  index : Option Index

/-- The entries of a Harness that the loop keeps, after those it has seen. -/
def unseen (seen : List String) : List HarnessUsageEntry → List HarnessUsageEntry
  | [] => []
  | entry :: rest =>
    if entry.id ∈ seen then unseen seen rest else entry :: unseen (entry.id :: seen) rest

def indexEntries (caches : OrderedMap String HarnessCache) (calendar : UsageStatisticsCalendar) :
    List IndexedEntry :=
  caches.entries.flatMap fun (harness, cache) =>
    (unseen [] (cache.values.flatMap (·.entries))).map fun entry =>
      ⟨harness, entry, calendar.at_ entry.occurredAtMs⟩

/-- `#indexed`: the index is made again when a source or the time zone has changed. -/
def indexed (state : State) (calendar : UsageStatisticsCalendar) : State × List IndexedEntry :=
  let remake :=
    let entries := indexEntries state.caches calendar
    ({ state with index := some ⟨state.generation, calendar.timeZone, entries⟩ }, entries)
  match state.index with
  | some index =>
    if index.generation = state.generation ∧ index.timeZone = calendar.timeZone then (state, index.entries)
    else remake
  | none => remake

inductive UsageStatisticsRange where
  | today | «7d» | «30d» | «90d» | all
  deriving DecidableEq, Repr

def rangeDays : UsageStatisticsRange → Option Nat
  | .today => some 1
  | .«7d» => some 7
  | .«30d» => some 30
  | .«90d» => some 90
  | .all => none

structure UsageStatisticsParams where
  range : UsageStatisticsRange
  timeZone : Option String
  harness : Option String
  /-- `some none` asks for the requests without a Model. -/
  model : Option (Option String)
  project : Option (Option String)
  date : Option String
  deriving DecidableEq, Repr

structure Session where
  harness : String
  sessionId : String
  project : Option String
  title : Option String
  titleAtMs : Option Nat
  models : OrderedMap String Nat
  firstAtMs : Nat
  lastAtMs : Nat
  totals : UsageStatisticsTotals

structure Credits where
  harness : String
  model : Option String
  credits : Rat
  reportedRequests : Nat
  requests : Nat
  deriving DecidableEq

/-- What `#aggregate` gathers. -/
structure Groups where
  harnesses : List String
  models : List (Option String)
  projects : List (Option String)
  totals : UsageStatisticsTotals
  daily : OrderedMap String UsageStatisticsTotals
  hourly : OrderedMap Nat UsageStatisticsTotals
  byHarness : OrderedMap String UsageStatisticsTotals
  byModel : OrderedMap (Option String) UsageStatisticsTotals
  credits : OrderedMap (String × Option String) Credits
  harnessPriced : OrderedMap (Option String) Nat
  byProject : OrderedMap (Option String) UsageStatisticsTotals
  sessions : OrderedMap String Session
  unlistedModel : Bool

def Groups.empty : Groups :=
  ⟨[], [], [], emptyTotals, .empty, .empty, .empty, .empty, .empty, .empty, .empty, .empty, false⟩

/-- `set.add(value)` -/
def addValue {K : Type} [DecidableEq K] (values : List K) (value : K) : List K :=
  if value ∈ values then values else values ++ [value]

/-- What is asked for, in the calendar. -/
structure Query where
  from_ : Option String
  to_ : String
  day : Option String
  harness : Option String
  model : Option (Option String)
  project : Option (Option String)
  lookup : ModelPriceLookup

def Query.inRange (query : Query) (date : String) : Bool :=
  query.from_.all (fun start => start ≤ date) && date ≤ query.to_

def Query.accepts (query : Query) (indexed : IndexedEntry) : Bool :=
  query.harness.all (fun harness => indexed.harness = harness) &&
    query.model.all (fun model => indexed.entry.model = model) &&
    query.project.all (fun project => indexed.entry.cwd = project)

def countCredits (credits : OrderedMap (String × Option String) Credits) (indexed : IndexedEntry) :
    OrderedMap (String × Option String) Credits :=
  let key := (indexed.harness, indexed.entry.model)
  let group := (credits.get? key).getD ⟨indexed.harness, indexed.entry.model, 0, 0, 0⟩
  let group := { group with requests := group.requests + 1 }
  credits.set key (match indexed.entry.credits with
    | some amount => { group with
        credits := group.credits + amount
        reportedRequests := group.reportedRequests + 1 }
    | none => group)

def countSession (sessions : OrderedMap String Session) (indexed : IndexedEntry) (cost : Option Rat) :
    OrderedMap String Session :=
  let entry := indexed.entry
  match entry.sessionId with
  | none => sessions
  | some sessionId =>
    let key := indexed.harness ++ "\x00" ++ sessionId
    let session := (sessions.get? key).getD
      ⟨indexed.harness, sessionId, entry.cwd, none, none, .empty, entry.occurredAtMs, entry.occurredAtMs,
        emptyTotals⟩
    let session := { session with project := session.project.or entry.cwd }
    let session := match entry.sessionTitle.filter (· ≠ "") with
      | some title =>
        if session.titleAtMs.all (· ≤ entry.occurredAtMs) then
          { session with title := some title, titleAtMs := some entry.occurredAtMs }
        else session
      | none => session
    let models := match entry.model with
      | some model => session.models.set model ((session.models.get? model).getD 0 + 1)
      | none => session.models
    sessions.set key { session with
      models := models
      firstAtMs := min session.firstAtMs entry.occurredAtMs
      lastAtMs := max session.lastAtMs entry.occurredAtMs
      totals := addEntry session.totals entry cost }

/-- One turn of the loop over the indexed entries. -/
def Groups.count (groups : Groups) (query : Query) (indexed : IndexedEntry) : Groups :=
  let ⟨harness, entry, ⟨date, weekday, hour⟩⟩ := indexed
  if !query.inRange date then groups
  else
    let groups := { groups with
      harnesses := addValue groups.harnesses harness
      models := addValue groups.models entry.model
      projects := addValue groups.projects entry.cwd }
    if !query.accepts indexed then groups
    else
      let cost := costOf query.lookup entry
      let groups := { groups with
        unlistedModel := groups.unlistedModel || isUnlisted query.lookup entry
        daily := addToBucket groups.daily (date ++ "\x00" ++ harness) entry cost }
      if query.day.any (· ≠ date) then groups
      else { groups with
        totals := addEntry groups.totals entry cost
        credits := countCredits groups.credits indexed
        hourly := addToBucket groups.hourly (weekday * 24 + hour) entry cost
        byHarness := addToBucket groups.byHarness harness entry cost
        byModel := addToBucket groups.byModel entry.model entry cost
        harnessPriced :=
          if entry.costUsd.isSome ∧ entry.model.bind query.lookup.userPrice = none then
            groups.harnessPriced.set entry.model ((groups.harnessPriced.get? entry.model).getD 0 + 1)
          else groups.harnessPriced
        byProject := addToBucket groups.byProject entry.cwd entry cost
        sessions := countSession groups.sessions indexed cost }

def sessionsPerMeasure : Nat := 50
def modelsPerSession : Nat := 16
def maxRows : Nat := 4096

structure UsageStatisticsSession where
  harness : String
  sessionId : String
  project : Option String
  title : Option String
  models : List String
  firstAtMs : Nat
  lastAtMs : Nat
  totals : UsageStatisticsTotals
  deriving DecidableEq

def toSession (session : Session) : UsageStatisticsSession where
  harness := session.harness
  sessionId := session.sessionId
  project := session.project
  title := session.title
  models := ((session.models.entries.mergeSort fun left right => right.2 ≤ left.2).take
    modelsPerSession).map Prod.fst
  firstAtMs := session.firstAtMs
  lastAtMs := session.lastAtMs
  totals := session.totals

/-- The sessions with the most cost and those with the most tokens, each once. -/
def topSessions (sessions : OrderedMap String Session) : List UsageStatisticsSession :=
  let byCost := (sessions.entries.mergeSort fun left right =>
    right.2.totals.costUsd ≤ left.2.totals.costUsd).take sessionsPerMeasure
  let byTokens := (sessions.entries.mergeSort fun left right =>
    tokensWithoutCache right.2.totals ≤ tokensWithoutCache left.2.totals).take sessionsPerMeasure
  let top := byCost ++ byTokens.filter fun entry => entry.1 ∉ byCost.map Prod.fst
  (top.map fun entry => toSession entry.2).mergeSort fun left right => spendsMore left.totals right.totals

def recentSessions (zones : Zones) (sessions : OrderedMap String Session) : List UsageStatisticsSession :=
  ((sessions.values.mergeSort fun left right =>
    right.lastAtMs < left.lastAtMs || (right.lastAtMs = left.lastAtMs &&
      (right.firstAtMs < left.firstAtMs || (right.firstAtMs = left.firstAtMs &&
        zones.localeCompare left.sessionId right.sessionId ≤ 0)))).take sessionsPerMeasure).map toSession

/-- The order of names; what has none comes last. -/
def byName (zones : Zones) : Option String → Option String → Int
  | none, none => 0
  | none, some _ => 1
  | some _, none => -1
  | some left, some right => if left = right then 0 else zones.localeCompare left right

structure DailyRow where
  date : String
  harness : String
  totals : UsageStatisticsTotals
  deriving DecidableEq

structure HourlyRow where
  weekday : Nat
  hour : Nat
  totals : UsageStatisticsTotals
  deriving DecidableEq

structure ModelRow where
  model : Option String
  totals : UsageStatisticsTotals
  harnessPricedRequests : Nat
  deriving DecidableEq

/-- `key.split("\u0000")` of a day's key. -/
def dailyRow (key : String) (totals : UsageStatisticsTotals) : DailyRow :=
  match key.splitOn "\x00" with
  | date :: harness :: _ => ⟨date, harness, totals⟩
  | [date] => ⟨date, "", totals⟩
  | [] => ⟨"", "", totals⟩

structure UsageStatisticsResult where
  range : UsageStatisticsRange
  from_ : Option String
  to_ : String
  day : Option String
  harnesses : List String
  models : List (Option String)
  projects : List (Option String)
  credits : List Credits
  totals : UsageStatisticsTotals
  daily : List DailyRow
  hourly : List HourlyRow
  byHarness : List (Row String)
  byModel : List ModelRow
  byProject : List (Row (Option String))
  sessions : List UsageStatisticsSession
  recentSessions : List UsageStatisticsSession
  /-- `prices.missing()` is called. -/
  missing : Bool

def resultOf (zones : Zones) (range : UsageStatisticsRange) (query : Query) (groups : Groups) :
    UsageStatisticsResult where
  range := range
  from_ := query.from_
  to_ := query.to_
  day := query.day
  harnesses := groups.harnesses.mergeSort fun left right => ¬ EcmaString.lessThan right left
  models := (groups.models.mergeSort fun left right => byName zones left right ≤ 0).take maxRows
  projects := (groups.projects.mergeSort fun left right => byName zones left right ≤ 0).take maxRows
  credits := ((groups.credits.values.filter fun row => 0 < row.reportedRequests).mergeSort
    fun left right =>
      let order := zones.localeCompare left.harness right.harness
      order < 0 || (order = 0 && byName zones left.model right.model ≤ 0)).take maxRows
  totals := groups.totals
  daily := (groups.daily.entries.map fun (key, totals) => dailyRow key totals).mergeSort
    fun left right =>
      let order := zones.localeCompare left.date right.date
      order < 0 || (order = 0 && zones.localeCompare left.harness right.harness ≤ 0)
  hourly := (groups.hourly.entries.map fun (slot, totals) =>
    (⟨slot / 24, slot % 24, totals⟩ : HourlyRow)).mergeSort fun left right =>
      left.weekday < right.weekday || (left.weekday = right.weekday && left.hour ≤ right.hour)
  byHarness := grouped groups.byHarness
  byModel := ((grouped groups.byModel).take maxRows).map fun row =>
    ⟨row.key, row.totals, (groups.harnessPriced.get? row.key).getD 0⟩
  byProject := (grouped groups.byProject).take maxRows
  sessions := topSessions groups.sessions
  recentSessions := recentSessions zones groups.sessions
  missing := groups.unlistedModel

def queryOf (params : UsageStatisticsParams) (calendar : UsageStatisticsCalendar) (now : Nat)
    (lookup : ModelPriceLookup) : Query :=
  let to_ := (calendar.at_ now).date
  let from_ := (rangeDays params.range).map fun days => shiftUsageDate to_ (-(days : Int) + 1)
  let open_ : Query := ⟨from_, to_, none, params.harness, params.model, params.project, lookup⟩
  { open_ with day := params.date.filter open_.inRange }

def aggregate (state : State) (zones : Zones) (params : UsageStatisticsParams) (now : Nat)
    (lookup : ModelPriceLookup) : State × UsageStatisticsResult :=
  let calendar := createUsageStatisticsCalendar zones params.timeZone
  let query := queryOf params calendar now lookup
  let (state, entries) := indexed state calendar
  (state, resultOf zones params.range query
    (entries.foldl (fun groups entry => groups.count query entry) Groups.empty))

inductive Event where
  /-- `#cache(harness)` -/
  | open (harness : String)
  /-- A parse of a source is stored, from its storage or from the cache on disk. -/
  | store (harness id : String) (source : CachedSource)
  /-- A source that is not listed any more. -/
  | remove (harness id : String)
  /-- A parse is stored in or removed from a cache that has been dropped meanwhile. -/
  | detached
  /-- The Harness is not enabled any more. -/
  | drop (harness : String)
  | get (params : UsageStatisticsParams) (now : Nat) (lookup : ModelPriceLookup)

namespace State

def empty : State := ⟨.empty, 0, none⟩

def step (zones : Zones) (state : State) : Event → Option State
  | .open harness =>
    if state.caches.has harness then some state
    else some { state with caches := state.caches.set harness .empty }
  | .store harness id source =>
    (state.caches.get? harness).map fun cache =>
      { state with caches := state.caches.set harness (cache.set id source), generation := state.generation + 1 }
  | .remove harness id =>
    (state.caches.get? harness).map fun cache =>
      { state with caches := state.caches.set harness (cache.delete id), generation := state.generation + 1 }
  | .detached => some { state with generation := state.generation + 1 }
  | .drop harness => some { state with caches := state.caches.delete harness, generation := state.generation + 1 }
  | .get params now lookup => some (aggregate state zones params now lookup).1

end State

end CodexHost.Source.HostRuntime.UsageStatistics
