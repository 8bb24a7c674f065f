import CodexHost.Foundation.Tally
import CodexHost.Foundation.Transition
import CodexHost.Source.HostRuntime.UsageStatistics

/-!
# Usage is counted once

The entries that the statistics count are one for each Harness and ID, whatever sources have a copy of
it, and the rows of each breakdown add up to their totals. A breakdown by Model or by project has at most
4096 rows, and adds up exactly when there are no more.
-/
namespace CodexHost.Guarantees.UsageConservation
open Foundation Source.HostRuntime.UsageStatistics OrderedMap List

instance : Zero UsageStatisticsTotals := ⟨emptyTotals⟩

/-- Totals are added field by field. -/
instance : Add UsageStatisticsTotals where
  add a b :=
    ⟨a.requests + b.requests, a.inputTokens + b.inputTokens, a.cachedInputTokens + b.cachedInputTokens,
      a.cacheWriteInputTokens + b.cacheWriteInputTokens, a.cacheKnownInputTokens + b.cacheKnownInputTokens,
      a.cacheHitCachedInputTokens + b.cacheHitCachedInputTokens,
      a.cacheHitInputTokens + b.cacheHitInputTokens, a.outputTokens + b.outputTokens,
      a.reasoningOutputTokens + b.reasoningOutputTokens, a.costUsd + b.costUsd,
      a.unpricedRequests + b.unpricedRequests, a.unmeteredRequests + b.unmeteredRequests⟩

theorem totals_add (a b : UsageStatisticsTotals) : a + b =
    ⟨a.requests + b.requests, a.inputTokens + b.inputTokens, a.cachedInputTokens + b.cachedInputTokens,
      a.cacheWriteInputTokens + b.cacheWriteInputTokens, a.cacheKnownInputTokens + b.cacheKnownInputTokens,
      a.cacheHitCachedInputTokens + b.cacheHitCachedInputTokens,
      a.cacheHitInputTokens + b.cacheHitInputTokens, a.outputTokens + b.outputTokens,
      a.reasoningOutputTokens + b.reasoningOutputTokens, a.costUsd + b.costUsd,
      a.unpricedRequests + b.unpricedRequests, a.unmeteredRequests + b.unmeteredRequests⟩ := rfl

instance : AddCommMonoid UsageStatisticsTotals where
  add_assoc a b c := by ext <;> exact add_assoc _ _ _
  zero_add a := by ext <;> exact zero_add _
  add_zero a := by ext <;> exact add_zero _
  add_comm a b := by ext <;> exact add_comm _ _
  nsmul := nsmulRec

@[simp] theorem requests_add (a b : UsageStatisticsTotals) : (a + b).requests = a.requests + b.requests := rfl

/-- What an entry adds to the totals of each group it is counted in. -/
def measure (entry : HarnessUsageEntry) (cost : Option Rat) : UsageStatisticsTotals :=
  addEntry emptyTotals entry cost

theorem addEntry_eq (totals : UsageStatisticsTotals) (entry : HarnessUsageEntry) (cost : Option Rat) :
    addEntry totals entry cost = totals + measure entry cost := by
  simp only [measure, addEntry, emptyTotals, totals_add]
  cases entry.tokensUnknown <;> cases entry.cachedInputTokens <;> cases entry.cacheWriteInputTokens <;>
    cases cost <;> simp

theorem requests_measure (entry : HarnessUsageEntry) (cost : Option Rat) :
    (measure entry cost).requests = 1 := by
  simp only [measure, addEntry, emptyTotals]
  cases entry.tokensUnknown <;> cases entry.cachedInputTokens <;> cases entry.cacheWriteInputTokens <;>
    cases cost <;> rfl

theorem addToBucket_eq {K : Type} [DecidableEq K] (map : OrderedMap K UsageStatisticsTotals) (key : K)
    (entry : HarnessUsageEntry) (cost : Option Rat) :
    addToBucket map key entry cost = map.add key (measure entry cost) := by
  rw [addToBucket, addEntry_eq]
  rfl

section Groups
variable (query : Query)

/-- The entry is in the range and passes the filters. -/
def offered (indexed : IndexedEntry) : Bool :=
  query.inRange indexed.position.date && query.accepts indexed

/-- The entry is of the day that is asked for, too. -/
def counted (indexed : IndexedEntry) : Bool :=
  offered query indexed && !query.day.any (· ≠ indexed.position.date)

def amount (indexed : IndexedEntry) : UsageStatisticsTotals :=
  measure indexed.entry (costOf query.lookup indexed.entry)

theorem requests_amounts (entries : List IndexedEntry) :
    (entries.map (amount query)).sum.requests = entries.length := by
  induction entries with
  | nil => rfl
  | cons first rest ih =>
    have one : (amount query first).requests = 1 := requests_measure _ _
    rw [map_cons, sum_cons, requests_add, ih, one, length_cons, Nat.add_comm]

/-- A breakdown of the entries that are kept, by a key. -/
def tallied {K : Type} [DecidableEq K] (keep : IndexedEntry → Bool) (key : IndexedEntry → K)
    (entries : List IndexedEntry) : OrderedMap K UsageStatisticsTotals :=
  OrderedMap.empty.tally ((entries.filter keep).map fun indexed => (key indexed, amount query indexed))

def dayKey (indexed : IndexedEntry) : String := indexed.position.date ++ "\x00" ++ indexed.harness

def hourKey (indexed : IndexedEntry) : Nat := indexed.position.weekday * 24 + indexed.position.hour

/-- The totals and the breakdowns of these entries. -/
structure Sums (entries : List IndexedEntry) (groups : Groups) : Prop where
  totals : groups.totals = ((entries.filter (counted query)).map (amount query)).sum
  daily : groups.daily = tallied query (offered query) dayKey entries
  hourly : groups.hourly = tallied query (counted query) hourKey entries
  byHarness : groups.byHarness = tallied query (counted query) (·.harness) entries
  byModel : groups.byModel = tallied query (counted query) (·.entry.model) entries
  byProject : groups.byProject = tallied query (counted query) (·.entry.cwd) entries

variable {query}

theorem tallied_kept {K : Type} [DecidableEq K] {keep : IndexedEntry → Bool} (key : IndexedEntry → K)
    (entries : List IndexedEntry) {indexed : IndexedEntry} (kept : keep indexed = true) :
    tallied query keep key (entries ++ [indexed]) =
      (tallied query keep key entries).add (key indexed) (amount query indexed) := by
  rw [tallied, filter_append, map_append]
  simp only [filter_cons, kept, if_true, filter_nil, map_cons, map_nil]
  exact tally_concat _ _ _ _

theorem tallied_left {K : Type} [DecidableEq K] {keep : IndexedEntry → Bool} (key : IndexedEntry → K)
    (entries : List IndexedEntry) {indexed : IndexedEntry} (left : keep indexed = false) :
    tallied query keep key (entries ++ [indexed]) = tallied query keep key entries := by
  rw [tallied, filter_append]
  simp only [filter_cons, left, Bool.false_eq_true, if_false, filter_nil, append_nil]
  rfl

theorem Sums.empty : Sums query [] Groups.empty := ⟨rfl, rfl, rfl, rfl, rfl, rfl⟩

/-- One turn of the loop. -/
theorem Sums.count {entries : List IndexedEntry} {groups : Groups} (sums : Sums query entries groups)
    (indexed : IndexedEntry) : Sums query (entries ++ [indexed]) (groups.count query indexed) := by
  have keep : ∀ keep : IndexedEntry → Bool, keep indexed = false →
      (entries ++ [indexed]).filter keep = entries.filter keep := by
    intro keep left
    rw [filter_append]
    simp only [filter_cons, left, Bool.false_eq_true, if_false, filter_nil, append_nil]
  by_cases offer : offered query indexed = true
  · obtain ⟨inRange, accepts⟩ := (Bool.and_eq_true _ _).mp offer
    by_cases other : query.day.any (· ≠ indexed.position.date) = true
    · have not : counted query indexed = false := by rw [counted, other, Bool.not_true, Bool.and_false]
      rw [Groups.count, inRange, accepts, if_neg (by decide), if_neg (by decide), if_pos other]
      refine ⟨?_, ?_, ?_, ?_, ?_, ?_⟩
      · rw [keep _ not]
        exact sums.totals
      · rw [tallied_kept dayKey entries offer, ← sums.daily]
        exact addToBucket_eq _ _ _ _
      · rw [tallied_left _ entries not]
        exact sums.hourly
      · rw [tallied_left _ entries not]
        exact sums.byHarness
      · rw [tallied_left _ entries not]
        exact sums.byModel
      · rw [tallied_left _ entries not]
        exact sums.byProject
    · have yes : counted query indexed = true := by
        rw [counted, offer, Bool.eq_false_iff.mpr other]
        rfl
      rw [Groups.count, inRange, accepts, if_neg (by decide), if_neg (by decide), if_neg other]
      refine ⟨?_, ?_, ?_, ?_, ?_, ?_⟩
      · rw [filter_append]
        simp only [filter_cons, yes, if_true, filter_nil, map_append, map_cons,
          map_nil, sum_append, sum_singleton, ← sums.totals]
        exact addEntry_eq _ _ _
      · rw [tallied_kept dayKey entries offer, ← sums.daily]
        exact addToBucket_eq _ _ _ _
      · rw [tallied_kept _ entries yes, ← sums.hourly]
        exact addToBucket_eq _ _ _ _
      · rw [tallied_kept _ entries yes, ← sums.byHarness]
        exact addToBucket_eq _ _ _ _
      · rw [tallied_kept _ entries yes, ← sums.byModel]
        exact addToBucket_eq _ _ _ _
      · rw [tallied_kept _ entries yes, ← sums.byProject]
        exact addToBucket_eq _ _ _ _
  · have not : offered query indexed = false := Bool.not_eq_true _ ▸ offer
    have neither : counted query indexed = false := by rw [counted, not, Bool.false_and]
    have same : Sums query (entries ++ [indexed]) groups := by
      refine ⟨?_, ?_, ?_, ?_, ?_, ?_⟩
      · rw [keep _ neither]
        exact sums.totals
      · rw [tallied_left _ entries not]
        exact sums.daily
      · rw [tallied_left _ entries neither]
        exact sums.hourly
      · rw [tallied_left _ entries neither]
        exact sums.byHarness
      · rw [tallied_left _ entries neither]
        exact sums.byModel
      · rw [tallied_left _ entries neither]
        exact sums.byProject
    rw [Groups.count]
    by_cases inRange : query.inRange indexed.position.date = true
    · have accepts : query.accepts indexed = false := by
        rw [offered, inRange, Bool.true_and] at not
        exact not
      rw [inRange, accepts, if_neg (by decide), if_pos (by decide)]
      exact ⟨same.totals, same.daily, same.hourly, same.byHarness, same.byModel, same.byProject⟩
    · rw [Bool.eq_false_iff.mpr inRange, if_pos (by decide)]
      exact same

theorem sums_fold (query : Query) (entries : List IndexedEntry) :
    Sums query entries (entries.foldl (fun groups entry => groups.count query entry) Groups.empty) := by
  induction entries using List.reverseRecOn with
  | nil => exact Sums.empty
  | append_singleton before last ih =>
    rw [foldl_append]
    exact ih.count last

end Groups

section Rows
variable {query : Query} {K : Type}

section
variable (map : OrderedMap K UsageStatisticsTotals)
include map

theorem grouped_perm :
    ((grouped map).map Row.totals).Perm map.values := by
  refine ((mergeSort_perm (rowsOf map) _).map _).trans (List.Perm.of_eq ?_)
  rw [rowsOf, map_map]
  rfl

theorem sum_grouped :
    ((grouped map).map Row.totals).sum = map.values.sum := (grouped_perm map).sum_eq

/-- The first rows of a breakdown add up to the totals exactly when they are all its rows. -/
theorem sum_take_grouped
    (requests : ∀ totals ∈ map.values, 1 ≤ totals.requests) (count : Nat) :
    (((grouped map).take count).map Row.totals).sum = map.values.sum ↔ map.entries.length ≤ count := by
  have length : (grouped map).length = map.entries.length := by
    have same := (grouped_perm map).length_eq
    rwa [length_map, OrderedMap.values, length_map] at same
  rw [← sum_grouped, ← length]
  constructor
  · intro same
    by_contra more
    have split : ((grouped map).map Row.totals).sum = (((grouped map).take count).map Row.totals).sum +
          (((grouped map).drop count).map Row.totals).sum := by
      rw [← sum_append, ← map_append, take_append_drop]
    -- the rows that are left out have requests
    have left : 1 ≤ (((grouped map).drop count).map Row.totals).sum.requests := by
      cases rest : (grouped map).drop count with
      | nil =>
        have short := drop_eq_nil_iff.mp rest
        omega
      | cons row others =>
        have member : row ∈ grouped map := mem_of_mem_drop (rest ▸ mem_cons_self)
        have inside : row.totals ∈ (grouped map).map Row.totals := mem_map_of_mem member
        have one := requests row.totals ((grouped_perm map).mem_iff.mp inside)
        rw [map_cons, sum_cons, requests_add]
        omega
    have counts := congrArg UsageStatisticsTotals.requests split
    rw [requests_add, ← same] at counts
    omega
  · intro all
    rw [take_of_length_le all]

end

variable [DecidableEq K]

section
variable (keep : IndexedEntry → Bool)
include keep

variable (key : IndexedEntry → K)
include key

variable (entries : List IndexedEntry)
include entries

/-- The rows of a breakdown add up to the totals of what it keeps. -/
theorem sum_tallied :
    (tallied query keep key entries).values.sum = ((entries.filter keep).map (amount query)).sum := by
  rw [tallied, sum_tally, map_map]
  exact zero_add _

theorem length_tallied :
    (tallied query keep key entries).entries.length = ((entries.filter keep).map key).dedup.length := by
  rw [tallied, length_tally, map_map]
  rfl

/-- Every row has a request. -/
theorem tallied_requests :
    ∀ totals ∈ (tallied query keep key entries).values, 1 ≤ totals.requests := by
  refine tally_forall ?_ ?_
  · intro sum amount one
    rw [requests_add]
    omega
  · intro pair member
    obtain ⟨indexed, -, rfl⟩ := mem_map.mp member
    exact (requests_measure _ _).ge

end

end Rows

section Results
variable (zones : Zones) (range : UsageStatisticsRange) (query : Query) (entries : List IndexedEntry)

/-- The result for these indexed entries. -/
def resultFor : UsageStatisticsResult :=
  resultOf zones range query (entries.foldl (fun groups entry => groups.count query entry) Groups.empty)

theorem result_totals : (resultFor zones range query entries).totals =
    ((entries.filter (counted query)).map (amount query)).sum := (sums_fold query entries).totals

theorem dailyRow_totals (key : String) (totals : UsageStatisticsTotals) :
    (dailyRow key totals).totals = totals := by
  unfold dailyRow
  split <;> rfl

theorem result_daily : ((resultFor zones range query entries).daily.map (·.totals)).sum =
    ((entries.filter (offered query)).map (amount query)).sum := by
  rw [← sum_tallied _ dayKey, ← (sums_fold query entries).daily]
  refine ((mergeSort_perm _ _).map _).sum_eq.trans ?_
  rw [map_map]
  exact congrArg List.sum (map_congr_left fun entry _ => dailyRow_totals entry.1 entry.2)

theorem result_hourly : ((resultFor zones range query entries).hourly.map (·.totals)).sum =
    (resultFor zones range query entries).totals := by
  rw [result_totals, ← sum_tallied _ hourKey, ← (sums_fold query entries).hourly]
  refine ((mergeSort_perm _ _).map _).sum_eq.trans ?_
  rw [map_map]
  rfl

theorem result_byHarness : ((resultFor zones range query entries).byHarness.map (·.totals)).sum =
    (resultFor zones range query entries).totals := by
  rw [result_totals, ← sum_tallied _ (·.harness), ← (sums_fold query entries).byHarness]
  exact sum_grouped _

theorem result_byModel : ((resultFor zones range query entries).byModel.map (·.totals)).sum =
    (resultFor zones range query entries).totals ↔
      ((entries.filter (counted query)).map (·.entry.model)).dedup.length ≤ maxRows := by
  rw [result_totals, ← sum_tallied _ (·.entry.model), ← @length_tallied query _ _ (counted query)]
  have same := (sums_fold query entries).byModel
  rw [← sum_take_grouped _ (tallied_requests _ _ entries), ← same]
  refine iff_of_eq (congrArg (· = _) (congrArg List.sum ?_))
  exact map_map

theorem result_byProject : ((resultFor zones range query entries).byProject.map (·.totals)).sum =
    (resultFor zones range query entries).totals ↔
      ((entries.filter (counted query)).map (·.entry.cwd)).dedup.length ≤ maxRows := by
  rw [result_totals, ← sum_tallied _ (·.entry.cwd), ← @length_tallied query _ _ (counted query)]
  have same := (sums_fold query entries).byProject
  rw [← sum_take_grouped _ (tallied_requests _ _ entries), ← same]
  rfl

end Results

section Deduplication

/-- The loop keeps the first entry of each ID that it has not seen. -/
theorem mem_unseen (seen : List String) (entries : List HarnessUsageEntry) (entry : HarnessUsageEntry) :
    entry ∈ unseen seen entries ↔
      entry.id ∉ seen ∧ entries.find? (fun other => other.id = entry.id) = some entry := by
  induction entries generalizing seen with
  | nil => simp [unseen]
  | cons first rest ih =>
    rw [unseen]
    by_cases known : first.id ∈ seen
    · rw [if_pos known, ih]
      refine and_congr_right fun fresh => ?_
      have different : first.id ≠ entry.id := fun same => fresh (same ▸ known)
      rw [find?_cons_of_neg (by simpa using different)]
    · rw [if_neg known, mem_cons, ih, mem_cons, not_or]
      by_cases same : first.id = entry.id
      · rw [find?_cons_of_pos (by simpa using same)]
        constructor
        · rintro (rfl | ⟨⟨different, -⟩, -⟩)
          · exact ⟨known, rfl⟩
          · exact absurd same.symm different
        · rintro ⟨-, is⟩
          exact .inl (Option.some.inj is).symm
      · rw [find?_cons_of_neg (by simpa using same)]
        constructor
        · rintro (rfl | ⟨⟨-, fresh⟩, found⟩)
          · exact absurd rfl same
          · exact ⟨fresh, found⟩
        · rintro ⟨fresh, found⟩
          exact .inr ⟨⟨Ne.symm same, fresh⟩, found⟩

theorem unseen_nodup (seen : List String) (entries : List HarnessUsageEntry) :
    ((unseen seen entries).map (·.id)).Nodup := by
  induction entries generalizing seen with
  | nil => exact nodup_nil
  | cons first rest ih =>
    rw [unseen]
    split
    · exact ih seen
    · rw [map_cons, nodup_cons]
      refine ⟨fun member => ?_, ih _⟩
      obtain ⟨entry, inside, same⟩ := mem_map.mp member
      exact ((mem_unseen _ _ _).mp inside).1 (same ▸ mem_cons_self)

theorem unseen_of_nodup {seen : List String} {entries : List HarnessUsageEntry}
    (nodup : (entries.map (·.id)).Nodup) (fresh : ∀ entry ∈ entries, entry.id ∉ seen) :
    unseen seen entries = entries := by
  induction entries generalizing seen with
  | nil => rfl
  | cons first rest ih =>
    rw [map_cons, nodup_cons] at nodup
    rw [unseen, if_neg (fresh first mem_cons_self), ih nodup.2]
    intro entry member seenBefore
    rcases mem_cons.mp seenBefore with same | before
    · exact nodup.1 (same ▸ mem_map_of_mem member)
    · exact fresh entry (mem_cons_of_mem _ member) before

/-- The entry is the first one of its ID in the sources of its Harness. -/
def FirstCopy (caches : OrderedMap String HarnessCache) (harness : String) (entry : HarnessUsageEntry) :
    Prop :=
  ∃ cache, caches.get? harness = some cache ∧
    (cache.values.flatMap (·.entries)).find? (fun other => other.id = entry.id) = some entry

variable (caches : OrderedMap String HarnessCache) (calendar : UsageStatisticsCalendar)

theorem mem_indexEntries (indexed : IndexedEntry) : indexed ∈ indexEntries caches calendar ↔
    FirstCopy caches indexed.harness indexed.entry ∧
      indexed.position = calendar.at_ indexed.entry.occurredAtMs := by
  obtain ⟨harness, entry, position⟩ := indexed
  simp only [indexEntries, mem_flatMap, mem_map, Prod.exists, IndexedEntry.mk.injEq,
    mem_entries_iff, mem_unseen, not_mem_nil, not_false_iff, true_and, FirstCopy]
  constructor
  · rintro ⟨harness, cache, is, entry, found, rfl, rfl, rfl⟩
    exact ⟨⟨cache, is, found⟩, rfl⟩
  · rintro ⟨⟨cache, is, found⟩, rfl⟩
    exact ⟨harness, cache, is, entry, found, rfl, rfl, rfl⟩

theorem indexEntries_nodup :
    ((indexEntries caches calendar).map fun indexed => (indexed.harness, indexed.entry.id)).Nodup := by
  rw [indexEntries, map_flatMap, nodup_flatMap]
  constructor
  · intro entry _
    have ids := unseen_nodup [] (entry.2.values.flatMap (·.entries))
    rw [map_map]
    have paired : Function.Injective (Prod.mk entry.1 : String → String × String) :=
      fun _ _ same => (Prod.mk.inj same).2
    have pairs := ids.map paired
    rw [map_map] at pairs
    exact pairs
  · refine (pairwise_map.mp caches.keys_nodup).imp ?_
    intro one two different
    simp only [Function.onFun, disjoint_left, mem_map]
    rintro _ ⟨_, ⟨_, _, rfl⟩, rfl⟩ ⟨_, ⟨_, _, rfl⟩, same⟩
    exact different (Prod.mk.inj same).1.symm

end Deduplication

section Index
variable {zones : Zones} {state next : State}

theorem calendar_eq {one two : Option String} (same : (createUsageStatisticsCalendar zones one).timeZone =
      (createUsageStatisticsCalendar zones two).timeZone) :
    createUsageStatisticsCalendar zones one = createUsageStatisticsCalendar zones two := by
  have zone : ∀ timeZone, (createUsageStatisticsCalendar zones timeZone).timeZone =
      timeZone.getD zones.localZone := by
    intro timeZone
    unfold createUsageStatisticsCalendar
    dsimp only
    split <;> rfl
  rw [zone, zone] at same
  unfold createUsageStatisticsCalendar
  rw [same]

/-- An index of the current generation has the entries of the sources. -/
def Fresh (zones : Zones) (state : State) : Prop :=
  ∀ index, state.index = some index → index.generation ≤ state.generation ∧
    (index.generation = state.generation → ∀ timeZone,
      (createUsageStatisticsCalendar zones timeZone).timeZone = index.timeZone →
        index.entries = indexEntries state.caches (createUsageStatisticsCalendar zones timeZone))

/-- What moves on to the next generation leaves no index of it. -/
theorem Fresh.advance (fresh : Fresh zones state) (caches : OrderedMap String HarnessCache) :
    Fresh zones { state with caches := caches, generation := state.generation + 1 } := by
  intro index is
  have old := (fresh index is).1
  refine ⟨by change index.generation ≤ state.generation + 1; omega, ?_⟩
  intro current
  change index.generation = state.generation + 1 at current
  omega

theorem indexEntries_open (caches : OrderedMap String HarnessCache) {harness : String}
    (absent : caches.has harness = false) (calendar : UsageStatisticsCalendar) :
    indexEntries (caches.set harness .empty) calendar = indexEntries caches calendar := by
  have unknown : harness ∉ caches.entries.map Prod.fst := by
    intro known
    obtain ⟨cache, is⟩ := (caches.mem_keys_iff harness).mp known
    rw [has_eq_false_iff, is] at absent
    cases absent
  rw [indexEntries, OrderedMap.set, dif_neg unknown, flatMap_append]
  exact append_nil _

theorem indexed_eq (fresh : Fresh zones state) (timeZone : Option String) :
    (indexed state (createUsageStatisticsCalendar zones timeZone)).2 =
        indexEntries state.caches (createUsageStatisticsCalendar zones timeZone) ∧
      Fresh zones (indexed state (createUsageStatisticsCalendar zones timeZone)).1 := by
  let made : Index := ⟨state.generation, (createUsageStatisticsCalendar zones timeZone).timeZone,
    indexEntries state.caches (createUsageStatisticsCalendar zones timeZone)⟩
  have remade : Fresh zones { state with index := some made } := by
    rintro index ⟨⟩
    exact ⟨le_rfl, fun _ other same => by rw [calendar_eq same]⟩
  unfold indexed
  split
  · next index is =>
    by_cases current : index.generation = state.generation ∧
        index.timeZone = (createUsageStatisticsCalendar zones timeZone).timeZone
    · rw [if_pos current]
      exact ⟨(fresh index is).2 current.1 timeZone current.2.symm, fresh⟩
    · rw [if_neg current]
      exact ⟨rfl, remade⟩
  · exact ⟨rfl, remade⟩

/-- A step of the statistics. -/
def Step (zones : Zones) (state : State) (event : Event) (next : State) : Prop :=
  state.step zones event = some next

theorem Fresh.step (fresh : Fresh zones state) {event : Event} (step : Step zones state event next) :
    Fresh zones next := by
  cases event with
  | «open» harness =>
    rw [Step, State.step] at step
    split at step
    · cases step
      exact fresh
    · next absent =>
      cases step
      intro index is
      refine ⟨(fresh index is).1, fun current timeZone same => ?_⟩
      rw [(fresh index is).2 current timeZone same]
      exact (indexEntries_open state.caches (Bool.eq_false_iff.mpr absent) _).symm
  | store harness id source =>
    obtain ⟨cache, -, rfl⟩ := Option.map_eq_some_iff.mp step
    exact fresh.advance _
  | remove harness id =>
    obtain ⟨cache, -, rfl⟩ := Option.map_eq_some_iff.mp step
    exact fresh.advance _
  | detached =>
    cases step
    exact fresh.advance state.caches
  | drop harness =>
    cases step
    exact fresh.advance _
  | get params now lookup =>
    cases step
    exact (indexed_eq fresh params.timeZone).2

theorem fresh_run {events : List Event} (run : Run (Step zones) State.empty events state) :
    Fresh zones state :=
  run.invariant (fun index is => by cases is) fun _ _ _ fresh step => fresh.step step

end Index

section Statistics
variable {zones : Zones} {state : State} {events : List Event}

theorem aggregate_result (fresh : Fresh zones state) (params : UsageStatisticsParams) (now : Nat)
    (lookup : ModelPriceLookup) :
    (aggregate state zones params now lookup).2 = resultFor zones params.range
        (queryOf params (createUsageStatisticsCalendar zones params.timeZone) now lookup)
        (indexEntries state.caches (createUsageStatisticsCalendar zones params.timeZone)) := by
  rw [← (indexed_eq fresh params.timeZone).1]
  rfl

theorem mem_counted (query : Query) (indexed : IndexedEntry) : counted query indexed = true ↔
    query.inRange indexed.position.date = true ∧ query.accepts indexed = true ∧
      ∀ day, query.day = some day → indexed.position.date = day := by
  rw [counted, offered, Bool.and_eq_true, Bool.and_eq_true, and_assoc]
  refine and_congr_right fun _ => and_congr_right fun _ => ?_
  cases query.day with
  | none => simp
  | some day => simp [eq_comm]

/-- A machine whose time is UTC. -/
def utc : Zones where
  localZone := "UTC"
  localTime := fun ms =>
    let (year, month, day) := dateOf ((ms / 86400000 : Nat) : Int)
    ⟨year, month, day, ms / 3600000 % 24⟩
  format := fun _ ms =>
    let (year, month, day) := dateOf ((ms / 86400000 : Nat) : Int)
    ⟨year, month, day, ms / 3600000 % 24⟩
  localeCompare := fun left right => if left = right then 0 else if left < right then -1 else 1

def noPrices : ModelPriceLookup := ⟨fun _ => none, fun _ => none⟩

/-- A request in a project. -/
def request (id project : String) : HarnessUsageEntry :=
  ⟨id, 1790000000000, none, 10, none, none, none, 2, none, none, none, some project, none, false, none⟩

def allTime : UsageStatisticsParams := ⟨.all, none, none, none, none, none⟩

/-- A session and its fork, which has a copy of the request. -/
def forked : List Event :=
  [.open "pi", .store "pi" "fork" ⟨"2", [request "r1" "/a", request "r2" "/a"]⟩,
    .get allTime 1790000000000 noPrices, .store "pi" "session" ⟨"1", [request "r1" "/a"]⟩]

def afterFork : State := (forked.foldlM (State.step utc) State.empty).getD State.empty

theorem afterFork_run : Run (Step utc) State.empty forked afterFork := Run.of_foldlM rfl

/-- A directory with a name of one character. -/
def directory (n : Nat) : String := String.ofList ['/', Char.ofNat (0x4e00 + n)]

/-- More projects than a breakdown has rows, with a request each. -/
def crowd : List HarnessUsageEntry :=
  (List.range 4097).map fun n => request (directory n) (directory n)

def afterCrowd : State :=
  ⟨OrderedMap.empty.set "pi" (OrderedMap.empty.set "session" ⟨"1", crowd⟩), 1, none⟩

theorem afterCrowd_run :
    Run (Step utc) State.empty [.open "pi", .store "pi" "session" ⟨"1", crowd⟩] afterCrowd :=
  Run.of_foldlM rfl

theorem directories_nodup : ((List.range 4097).map directory).Nodup := by
  refine List.Nodup.map_on ?_ nodup_range
  intro n small m small' same
  rw [mem_range] at small small'
  have characters := congrArg String.toList same
  rw [directory, directory, String.toList_ofList, String.toList_ofList] at characters
  have last : Char.ofNat (0x4e00 + n) = Char.ofNat (0x4e00 + m) := by simpa using characters
  have code : ∀ k, k < 4097 → (Char.ofNat (0x4e00 + k)).toNat = 0x4e00 + k := by
    intro k bound
    have valid : (0x4e00 + k).isValidChar := .inl (by omega)
    rw [Char.ofNat, dif_pos valid]
    rfl
  have codes := congrArg Char.toNat last
  rw [code n small, code m small'] at codes
  omega

theorem indexEntries_single (harness id fingerprint : String) {entries : List HarnessUsageEntry}
    (nodup : (entries.map (·.id)).Nodup) (calendar : UsageStatisticsCalendar) :
    indexEntries (OrderedMap.empty.set harness (OrderedMap.empty.set id ⟨fingerprint, entries⟩)) calendar =
      entries.map fun entry => ⟨harness, entry, calendar.at_ entry.occurredAtMs⟩ := by
  change ((unseen [] (entries ++ [])).map fun entry =>
    (⟨harness, entry, calendar.at_ entry.occurredAtMs⟩ : IndexedEntry)) ++ [] = _
  rw [append_nil, append_nil, unseen_of_nodup nodup fun _ _ => not_mem_nil]

end Statistics

end CodexHost.Guarantees.UsageConservation
