import CodexHost.Foundation.JsonNumber
import CodexHost.Source.HostRuntime.UsageCache

/-!
# Cached usage entries are read back

A title without white space at its ends, and with single spaces inside, is its own title if it is
short enough; cutting it before a code point and adding the ellipsis keeps it so. An entry that was
accepted passes every check again, and the positions of the cached form bring back its members.
-/
namespace CodexHost.Guarantees.UsageCacheEntries
open Foundation Source.HarnessAdapter.UsageStatistics List Option
open Source.HostRuntime.UsageCache

section Title

/-- Single spaces are the only white space; the flag says that one came just before. -/
def Spaced : Bool → Utf16 → Prop
  | _, [] => True
  | inRun, unit :: rest =>
    if isWhiteSpace unit then unit = SPACE ∧ inRun = false ∧ Spaced true rest else Spaced false rest

theorem space_white : isWhiteSpace SPACE = true := by decide

theorem spaced_collapse (inRun : Bool) (value : Utf16) : Spaced inRun (collapse inRun value) := by
  induction value generalizing inRun with
  | nil => trivial
  | cons unit rest ih =>
    by_cases white : isWhiteSpace unit = true
    · cases inRun with
      | true => simpa [collapse, white] using ih true
      | false => simpa [collapse, white, Spaced, space_white] using ih true
    · simpa [collapse, white, Spaced] using ih false

variable {inRun : Bool} {value : Utf16}

theorem collapse_spaced (spaced : Spaced inRun value) : collapse inRun value = value := by
  induction value generalizing inRun with
  | nil => rfl
  | cons unit rest ih =>
    by_cases white : isWhiteSpace unit = true
    · simp only [Spaced, white, if_true] at spaced
      obtain ⟨rfl, rfl, spaced⟩ := spaced
      simp [collapse, white, ih spaced]
    · simp only [Spaced, white, Bool.false_eq_true, if_false] at spaced
      simp [collapse, white, ih spaced]

theorem spaced_prefix {front back : Utf16} (spaced : Spaced inRun (front ++ back)) : Spaced inRun front := by
  induction front generalizing inRun with
  | nil => trivial
  | cons unit rest ih =>
    by_cases white : isWhiteSpace unit = true
    · simp only [cons_append, Spaced, white, if_true] at spaced ⊢
      exact ⟨spaced.1, spaced.2.1, ih spaced.2.2⟩
    · simp only [cons_append, Spaced, white, Bool.false_eq_true, if_false] at spaced ⊢
      exact ih spaced

theorem spaced_snoc {unit : UInt16} (spaced : Spaced inRun value)
    (visible : isWhiteSpace unit = false) : Spaced inRun (value ++ [unit]) := by
  induction value generalizing inRun with
  | nil => simp [Spaced, visible]
  | cons first rest ih =>
    by_cases white : isWhiteSpace first = true
    · simp only [cons_append, Spaced, white, if_true] at spaced ⊢
      exact ⟨spaced.1, spaced.2.1, ih spaced.2.2⟩
    · simp only [cons_append, Spaced, white, Bool.false_eq_true, if_false] at spaced ⊢
      exact ih spaced

theorem spaced_trimStart {inRun inRun' : Bool} (spaced : Spaced inRun value) :
    Spaced inRun' (trimStart value) := by
  induction value generalizing inRun with
  | nil => trivial
  | cons unit rest ih =>
    by_cases white : isWhiteSpace unit = true
    · simp only [Spaced, white, if_true] at spaced
      rw [trimStart, dropWhile_cons_of_pos white]
      exact ih spaced.2.2
    · simp only [Spaced, white, Bool.false_eq_true, if_false] at spaced
      rw [trimStart, dropWhile_cons_of_neg white]
      simpa [Spaced, white] using spaced

theorem mem_collapse {unit : UInt16} (member : unit ∈ collapse inRun value) :
    unit = SPACE ∨ unit ∈ value := by
  induction value generalizing inRun with
  | nil => cases member
  | cons first rest ih =>
    by_cases white : isWhiteSpace first = true
    · cases inRun with
      | true =>
        simp only [collapse, white, if_true] at member
        exact (ih member).imp_right (mem_cons_of_mem first)
      | false =>
        simp only [collapse, white, Bool.false_eq_true, if_true, if_false, mem_cons] at member
        rcases member with rfl | member
        · exact .inl rfl
        · exact (ih member).imp_right (mem_cons_of_mem first)
    · simp only [collapse, white, Bool.false_eq_true, if_false, mem_cons] at member
      rcases member with rfl | member
      · exact .inr mem_cons_self
      · exact (ih member).imp_right (mem_cons_of_mem first)

/-- The front of a title. -/
structure Tidy (value : Utf16) : Prop where
  noZero : 0 ∉ value
  spaced : Spaced false value
  starts : ∀ unit ∈ value.head?, isWhiteSpace unit = false

theorem Tidy.front {front back : Utf16} (tidy : Tidy (front ++ back)) : Tidy front where
  noZero member := tidy.noZero (mem_append_left back member)
  spaced := spaced_prefix tidy.spaced
  starts unit first := tidy.starts unit (by rw [head?_append, first]; rfl)

theorem Tidy.trimEnd (tidy : Tidy value) : Tidy (trimEnd value) := by
  obtain ⟨back, is⟩ := rdropWhile_prefix isWhiteSpace (l := value)
  rw [← is] at tidy
  exact tidy.front

theorem Tidy.snoc {value : Utf16} {unit : UInt16} (tidy : Tidy value) (visible : isWhiteSpace unit = false)
    (notZero : unit ≠ 0) : Tidy (value ++ [unit]) where
  noZero member := by
    rcases mem_append.mp member with inside | last
    · exact tidy.noZero inside
    · exact notZero (mem_singleton.mp last).symm
  spaced := spaced_snoc tidy.spaced visible
  starts first is := by
    cases value with
    | nil =>
      cases is
      exact visible
    | cons head rest => exact tidy.starts first is

theorem tidy_normalized (value : Utf16) : Tidy (normalized value) := by
  have first : ∀ spaced : Utf16, ∀ unit ∈ (trimStart spaced).head?, isWhiteSpace unit = false := by
    intro spaced unit is
    have keeps := head?_dropWhile_not isWhiteSpace spaced
    rw [trimStart, mem_def] at is
    rw [is] at keeps
    exact keeps
  refine Tidy.trimEnd ⟨fun member => ?_, spaced_trimStart (spaced_collapse false _), first _⟩
  rcases mem_collapse ((dropWhile_sublist _).subset member) with space | inside
  · exact absurd space (by decide)
  · simp at inside

/-- What a title ends with. -/
def EndsVisibly (value : Utf16) : Prop := ∀ unit ∈ value.getLast?, isWhiteSpace unit = false

theorem trimEnd_visibly (ends : EndsVisibly value) : trimEnd value = value := by
  refine rdropWhile_eq_self_iff.mpr fun some => ?_
  have visible := ends (value.getLast some) (getLast?_eq_getLast_of_ne_nil some)
  simp [visible]

theorem endsVisibly_trimEnd (value : Utf16) : EndsVisibly (trimEnd value) := by
  intro unit last
  have some : trimEnd value ≠ [] := by
    intro empty
    rw [empty] at last
    cases last
  rw [getLast?_eq_getLast_of_ne_nil some, mem_some_iff] at last
  have visible := rdropWhile_last_not isWhiteSpace value some
  rw [← last]
  exact Bool.eq_false_iff.mpr visible

theorem normalized_tidy (tidy : Tidy value) (ends : EndsVisibly value) : normalized value = value := by
  have noZero : value.filter (· ≠ 0) = value := by
    refine filter_eq_self.mpr fun unit member => ?_
    rw [decide_eq_true_eq]
    rintro rfl
    exact tidy.noZero member
  have start : trimStart value = value := by
    cases value with
    | nil => rfl
    | cons unit rest =>
      have visible := tidy.starts unit rfl
      exact dropWhile_cons_of_neg (by simp [visible])
  rw [normalized, noZero, collapse_spaced tidy.spaced, start, trimEnd_visibly ends]

/-- The code points that fit, with room for the ellipsis. -/
theorem truncate_fits (length : Nat) (value : Utf16) (room : length < MAX_SESSION_TITLE_LENGTH) :
    truncate length value <+: value ∧ length + (truncate length value).length < MAX_SESSION_TITLE_LENGTH := by
  induction length, value using truncate.induct with
  | case1 length => exact ⟨prefix_rfl, room⟩
  | case2 length unit full =>
    rw [truncate, if_pos full]
    exact ⟨List.nil_prefix, room⟩
  | case3 length unit full =>
    rw [truncate, if_neg full]
    exact ⟨prefix_rfl, by simpa using full⟩
  | case4 length first second rest pair full =>
    rw [truncate, if_pos pair, if_pos full]
    exact ⟨List.nil_prefix, room⟩
  | case5 length first second rest pair full ih =>
    obtain ⟨front, fits⟩ := ih (by omega)
    rw [truncate, if_pos pair, if_neg full]
    refine ⟨(prefix_cons_inj first).mpr ((prefix_cons_inj second).mpr front), ?_⟩
    simp only [length_cons]
    omega
  | case6 length first second rest single full =>
    rw [truncate, if_neg single, if_pos full]
    exact ⟨List.nil_prefix, room⟩
  | case7 length first second rest single full ih =>
    obtain ⟨front, fits⟩ := ih (by omega)
    rw [truncate, if_neg single, if_neg full]
    refine ⟨(prefix_cons_inj first).mpr front, ?_⟩
    simp only [length_cons]
    omega

theorem titleOf_self (tidy : Tidy value) (ends : EndsVisibly value) (some : value ≠ [])
    (short : value.length ≤ MAX_SESSION_TITLE_LENGTH) : titleOf value = .some value := by
  simp [titleOf, normalized_tidy tidy ends, some, short]

/-- A title is its own title, and not too long. -/
theorem titleOf_title {value title : Utf16} (is : titleOf value = some title) :
    titleOf title = some title ∧ title.length ≤ MAX_SESSION_TITLE_LENGTH := by
  have tidy := tidy_normalized value
  rw [titleOf] at is
  split at is
  · cases is
  · next some =>
    split at is
    · next short =>
      cases is
      exact ⟨titleOf_self tidy (endsVisibly_trimEnd _) some short, short⟩
    · cases is
      obtain ⟨⟨back, front⟩, fits⟩ := truncate_fits 0 (normalized value) (by decide)
      rw [← front] at tidy
      have cut : Tidy (trimEnd (truncate 0 (normalized value)) ++ [ELLIPSIS]) :=
        tidy.front.trimEnd.snoc (by decide) (by decide)
      have trimmed := (List.rdropWhile_prefix isWhiteSpace (l := truncate 0 (normalized value))).length_le
      have short : (trimEnd (truncate 0 (normalized value)) ++ [ELLIPSIS]).length ≤
          MAX_SESSION_TITLE_LENGTH := by
        rw [length_append, length_singleton, trimEnd]
        omega
      refine ⟨titleOf_self cut (fun unit last => ?_) (by simp) short, short⟩
      rw [getLast?_concat, mem_some_iff] at last
      rw [← last]
      decide

end Title

section Entries
variable {N : Type} {numbers : Numbers N} {entry : HarnessUsageEntry N}

/-- Every check that an accepted entry has passed. -/
structure Valid (numbers : Numbers N) (entry : HarnessUsageEntry N) : Prop where
  id : (entry.id ≠ [] && entry.id.length ≤ 512) = true
  occurred : (tokenCount numbers entry.occurredAtMs && integer numbers entry.occurredAtMs ≠ 0) = true
  model : ∀ model ∈ entry.model, (model ≠ [] : Bool) = true
  input : tokenCount numbers entry.inputTokens = true
  output : tokenCount numbers entry.outputTokens = true
  cached : ∀ count ∈ entry.cachedInputTokens, tokenCount numbers count = true
  written : ∀ count ∈ entry.cacheWriteInputTokens, tokenCount numbers count = true
  written1h : ∀ count ∈ entry.cacheWrite1hInputTokens, tokenCount numbers count = true
  reasoning : ∀ count ∈ entry.reasoningOutputTokens, tokenCount numbers count = true
  within : entry.cachedInputTokens.elim 0 (integer numbers) +
    entry.cacheWriteInputTokens.elim 0 (integer numbers) ≤ integer numbers entry.inputTokens
  within1h : entry.cacheWrite1hInputTokens.elim 0 (integer numbers) ≤
    entry.cacheWriteInputTokens.elim 0 (integer numbers)
  withinOutput : entry.reasoningOutputTokens.elim 0 (integer numbers) ≤ integer numbers entry.outputTokens
  session : ∀ id ∈ entry.sessionId, sessionIdOk id = true
  cwd : ∀ cwd ∈ entry.cwd, cwdOk cwd = true
  title : ∀ title ∈ entry.sessionTitle, titleOf title = some title
  cost : ∀ cost ∈ entry.costUsd, amountOk numbers cost = true
  credits : ∀ credits ∈ entry.credits, amountOk numbers credits = true

/-- What is read satisfies this, and is read again from what is written for it. -/
structure Rereads {α : Type} (read : Json N → Option α) (write : α → Json N) (ok : α → Prop) : Prop where
  sound : ∀ value result, read value = some result → ok result
  again : ∀ result, ok result → read (write result) = some result

variable {α : Type} {read : Json N → Option α} {write : α → Json N} {ok : α → Prop}

section
variable (rereads : Rereads read write ok)
include rereads

theorem Rereads.again_required {result : α} (holds : ok result) :
    required read (some (write result)) = some result := rereads.again result holds

theorem Rereads.sound_required {value : Option (Json N)} {result : α}
    (is : required read value = some result) : ok result := by
  obtain ⟨value, -, reads⟩ := bind_eq_some_iff.mp is
  exact rereads.sound value result reads

theorem Rereads.sound_optional {value : Option (Json N)}
    {result : Option α} (is : unlessUndefined read value = some result) : ∀ a ∈ result, ok a := by
  cases value with
  | none =>
    cases is
    intro a member
    cases member
  | some value =>
    obtain ⟨a, reads, rfl⟩ := map_eq_some_iff.mp is
    intro b member
    cases member
    exact rereads.sound value _ reads

theorem Rereads.again_optional {result : Option α}
    (holds : ∀ a ∈ result, ok a) : unlessUndefined read (result.map write) = some result := by
  cases result with
  | none => rfl
  | some a =>
    have reads := rereads.again a (holds a rfl)
    simp [Source.HarnessAdapter.UsageStatistics.unlessUndefined, reads]

end

theorem rereads_text (check : Utf16 → Bool) :
    Rereads (text check : Json N → Option Utf16) .string (check · = true) where
  sound value result is := by
    cases value <;> simp only [text, reduceCtorEq, ite_none_right_eq_some, some.injEq] at is
    exact is.2 ▸ is.1
  again result holds := by rw [text, if_pos holds]

theorem rereads_number (check : N → Bool) : Rereads (number check) .number (check · = true) where
  sound value result is := by
    cases value <;> simp only [number, reduceCtorEq, ite_none_right_eq_some, some.injEq] at is
    exact is.2 ▸ is.1
  again result holds := by rw [number, if_pos holds]

theorem rereads_title :
    Rereads (usageSessionTitle : Json N → Option Utf16) .string (fun title => titleOf title = some title) where
  sound value result is := by
    cases value <;> simp only [usageSessionTitle, reduceCtorEq] at is
    exact (titleOf_title is).1
  again result holds := holds

theorem valid_of_parse {member : String → Option (Json N)}
    (is : parseMembers numbers member = some entry) : Valid numbers entry := by
  obtain ⟨id, hid, is⟩ := bind_eq_some_iff.mp is
  obtain ⟨time, htime, is⟩ := bind_eq_some_iff.mp is
  obtain ⟨model, hmodel, is⟩ := bind_eq_some_iff.mp is
  obtain ⟨input, hinput, is⟩ := bind_eq_some_iff.mp is
  obtain ⟨output, houtput, is⟩ := bind_eq_some_iff.mp is
  obtain ⟨cached, hcached, is⟩ := bind_eq_some_iff.mp is
  obtain ⟨written, hwritten, is⟩ := bind_eq_some_iff.mp is
  obtain ⟨written1h, hwritten1h, is⟩ := bind_eq_some_iff.mp is
  obtain ⟨reasoning, hreasoning, is⟩ := bind_eq_some_iff.mp is
  obtain ⟨_, within, is⟩ := bind_eq_some_iff.mp is
  obtain ⟨_, within1h, is⟩ := bind_eq_some_iff.mp is
  obtain ⟨_, withinOutput, is⟩ := bind_eq_some_iff.mp is
  obtain ⟨session, hsession, is⟩ := bind_eq_some_iff.mp is
  obtain ⟨cwd, hcwd, is⟩ := bind_eq_some_iff.mp is
  obtain ⟨title, htitle, is⟩ := bind_eq_some_iff.mp is
  obtain ⟨unknown, hunknown, is⟩ := bind_eq_some_iff.mp is
  obtain ⟨cost, hcost, is⟩ := bind_eq_some_iff.mp is
  obtain ⟨credits, hcredits, is⟩ := bind_eq_some_iff.mp is
  rw [guard_eq_some'] at within within1h withinOutput
  cases is
  have count := rereads_number (tokenCount numbers)
  have amount := rereads_number (amountOk numbers)
  have named := (rereads_text _).sound_required hid
  have occurred := (rereads_number _).sound_required htime
  have entered := count.sound_required hinput
  have left := count.sound_required houtput
  exact
    { id := named
      occurred := occurred
      model := (rereads_text _).sound_optional hmodel
      input := entered
      output := left
      cached := count.sound_optional hcached
      written := count.sound_optional hwritten
      written1h := count.sound_optional hwritten1h
      reasoning := count.sound_optional hreasoning
      within := within
      within1h := within1h
      withinOutput := withinOutput
      session := (rereads_text _).sound_optional hsession
      cwd := (rereads_text _).sound_optional hcwd
      title := rereads_title.sound_optional htitle
      cost := amount.sound_optional hcost
      credits := amount.sound_optional hcredits }

/-- The members that an entry has as an object. -/
def memberOf (entry : HarnessUsageEntry N) : String → Option (Json N)
  | "id" => some (.string entry.id)
  | "occurredAtMs" => some (.number entry.occurredAtMs)
  | "model" => entry.model.map .string
  | "inputTokens" => some (.number entry.inputTokens)
  | "cachedInputTokens" => entry.cachedInputTokens.map .number
  | "cacheWriteInputTokens" => entry.cacheWriteInputTokens.map .number
  | "cacheWrite1hInputTokens" => entry.cacheWrite1hInputTokens.map .number
  | "outputTokens" => some (.number entry.outputTokens)
  | "reasoningOutputTokens" => entry.reasoningOutputTokens.map .number
  | "sessionId" => entry.sessionId.map .string
  | "sessionTitle" => entry.sessionTitle.map .string
  | "cwd" => entry.cwd.map .string
  | "costUsd" => entry.costUsd.map .number
  | "tokensUnknown" => if entry.tokensUnknown then some (.bool true) else none
  | "credits" => entry.credits.map .number
  | _ => none

theorem bind_of {α β : Type} {a : α} {first : Option α} {next : α → Option β} {result : Option β}
    (is : first = some a) (rest : next a = result) : (first >>= next) = result := by
  rw [is]
  exact rest

/-- An entry that passes the checks is accepted from its members. -/
theorem parse_memberOf (valid : Valid numbers entry) :
    parseMembers numbers (memberOf entry) = some entry := by
  have count := rereads_number (tokenCount numbers)
  have amount := rereads_number (amountOk numbers)
  have unknown : unlessUndefined true? (memberOf entry "tokensUnknown") =
      some (if entry.tokensUnknown then some true else none) := by
    rw [memberOf]
    cases entry.tokensUnknown <;> rfl
  have back : (if entry.tokensUnknown then some true else none).getD false = entry.tokensUnknown := by
    cases entry.tokensUnknown <;> rfl
  rw [parseMembers]
  refine bind_of ((rereads_text _).again_required valid.id) ?_
  refine bind_of ((rereads_number _).again_required valid.occurred) ?_
  refine bind_of ((rereads_text _).again_optional valid.model) ?_
  refine bind_of (count.again_required valid.input) ?_
  refine bind_of (count.again_required valid.output) ?_
  refine bind_of (count.again_optional valid.cached) ?_
  refine bind_of (count.again_optional valid.written) ?_
  refine bind_of (count.again_optional valid.written1h) ?_
  refine bind_of (count.again_optional valid.reasoning) ?_
  refine bind_of ((guard_eq_some' ()).mpr valid.within) ?_
  refine bind_of ((guard_eq_some' ()).mpr valid.within1h) ?_
  refine bind_of ((guard_eq_some' ()).mpr valid.withinOutput) ?_
  refine bind_of ((rereads_text _).again_optional valid.session) ?_
  refine bind_of ((rereads_text _).again_optional valid.cwd) ?_
  refine bind_of (rereads_title.again_optional valid.title) ?_
  refine bind_of unknown ?_
  refine bind_of (amount.again_optional valid.cost) ?_
  refine bind_of (amount.again_optional valid.credits) ?_
  rw [back]
  rfl

section Members
variable {key name : String} {α : Type}

theorem lookup_field (value : Json N) :
    (field name value).lookup (Utf16.ofString key) = if key = name then some value else none := by
  by_cases here : key = name
  · simp [field, here]
  · have apart : (Utf16.ofString key == Utf16.ofString name) = false := by simpa [Utf16.ofString_inj] using here
    simp [field, here, lookup_cons, apart]

theorem lookup_unlessNull {write : α → Json N} (some : ∀ a, write a ≠ .null) (value : Option α) :
    (unlessNull name (orNull write value)).lookup (Utf16.ofString key) =
      if key = name then value.map write else none := by
  cases value with
  | none => simp [orNull, unlessNull]
  | some a =>
    have kept : unlessNull name (write a) = field name (write a) := by
      cases is : write a with
      | null => exact absurd is (some a)
      | _ => rfl
    rw [orNull, kept, lookup_field, map_some]

theorem lookup_ifTrue (value : Bool) : (ifTrue name (.bool value : Json N)).lookup (Utf16.ofString key) =
      if key = name then (if value then some (.bool true) else none) else none := by
  cases value with
  | true => rw [ifTrue, lookup_field, if_pos rfl]
  | false => simp [ifTrue]

end Members

/-- The keys that the check reads. -/
def keys : List String :=
  ["id", "occurredAtMs", "model", "inputTokens", "outputTokens", "cachedInputTokens",
    "cacheWriteInputTokens", "cacheWrite1hInputTokens", "reasoningOutputTokens", "sessionId", "cwd",
    "sessionTitle", "tokensUnknown", "costUsd", "credits"]

theorem parseMembers_congr {member member' : String → Option (Json N)}
    (same : ∀ key ∈ keys, member key = member' key) :
    parseMembers numbers member = parseMembers numbers member' := by
  simp only [keys, forall_mem_cons] at same
  obtain ⟨id, time, model, input, output, cached, written, written1h, reasoning, session, cwd, title,
    unknown, cost, credits, -⟩ := same
  rw [parseMembers, parseMembers, id, time, model, input, output, cached, written, written1h, reasoning,
    session, cwd, title, unknown, cost, credits]

theorem expand_compact (valid : Valid numbers entry) : expand numbers (compact entry) = some entry := by
  rw [compact, expand, parseHarnessUsageEntry, ← parse_memberOf valid]
  have text : ∀ a : Utf16, (.string a : Json N) ≠ .null := fun a is => by cases is
  have number : ∀ a : N, (.number a : Json N) ≠ .null := fun a is => by cases is
  refine parseMembers_congr fun key known => ?_
  simp only [lookup_append, lookup_field, lookup_unlessNull text, lookup_unlessNull number, lookup_ifTrue]
  simp only [keys, mem_cons, not_mem_nil, or_false] at known
  rcases known with rfl | rfl | rfl | rfl | rfl | rfl | rfl | rfl | rfl | rfl | rfl | rfl | rfl | rfl |
    rfl <;> simp [memberOf]

/-- The numbers of an entry have a text. -/
theorem regular_compact (valid : Valid numbers entry) : Json.Regular numbers.format (compact entry) := by
  have counted : ∀ value, tokenCount numbers value = true → Json.Faithful numbers.format value := by
    intro value counts
    rw [tokenCount] at counts
    split at counts
    · next integer is => exact numbers.faithful value (numbers.safe_finite value integer is)
    · cases counts
  have charged : ∀ value, amountOk numbers value = true → Json.Faithful numbers.format value := by
    intro value counts
    rw [amountOk, Bool.and_eq_true] at counts
    exact numbers.faithful value counts.1
  have time := (Bool.and_eq_true _ _).mp valid.occurred
  have text : ∀ value : Option Utf16, Json.Regular numbers.format (orNull .string value) := by
    intro value
    cases value <;> trivial
  have number : ∀ value : Option N, (∀ a ∈ value, Json.Faithful numbers.format a) →
      Json.Regular numbers.format (orNull .number value) := by
    intro value faithful
    cases value with
    | none => trivial
    | some a => exact faithful a rfl
  exact ⟨trivial, counted _ time.1, text _, counted _ valid.input,
    number _ fun a is => counted a (valid.cached a is), number _ fun a is => counted a (valid.written a is),
    number _ fun a is => counted a (valid.written1h a is), counted _ valid.output,
    number _ fun a is => counted a (valid.reasoning a is), text _, text _,
    number _ fun a is => charged a (valid.cost a is), number _ fun a is => charged a (valid.credits a is),
    trivial, text _, trivial⟩

end Entries

/-- An accepted entry comes back from the text of its cached form, and a title is its own title with at
most 200 code units. -/
theorem usage_entries_cached {N : Type} (numbers : Numbers N) :
    (∀ value entry, parseHarnessUsageEntry numbers value = some entry →
      (Json.parse numbers.format ((compact entry).write numbers.format)).bind (expand numbers) = some entry) ∧
    ∀ value title, titleOf value = some title → titleOf title = some title ∧ title.length ≤ 200 := by
  refine ⟨fun value entry accepted => ?_, fun value title is => titleOf_title is⟩
  have valid : Valid numbers entry := by
    cases value <;> simp only [parseHarnessUsageEntry, reduceCtorEq] at accepted
    exact valid_of_parse accepted
  rw [Json.parse_write _ (regular_compact valid), bind_some, expand_compact valid]

/-- Integers within the safe range, and the literals that read back. -/
def sampleNumbers : Numbers JsonNumber where
  format := JsonNumber.format
  isFinite value := JsonNumber.read (JsonNumber.write value) = some value && JsonNumber.write value ≠ [] &&
    (JsonNumber.write value).all Json.isNumberChar
  isNegative value := (JsonNumber.write value).head? = some '-'
  safeInteger
    | .integer value => if 0 ≤ value ∧ value < 2 ^ 53 then some value else none
    | .other _ => none
  faithful value finite := by
    simp only [Bool.and_eq_true, decide_eq_true_eq, List.all_eq_true] at finite
    exact ⟨finite.1.1, finite.1.2, finite.2⟩
  safe_finite value integer safe := by
    cases value with
    | other literal => cases safe
    | integer value =>
      simp only [Option.ite_none_right_eq_some] at safe
      obtain ⟨natural, rfl⟩ := Int.eq_ofNat_of_zero_le safe.1.1
      obtain ⟨reads, some, visible⟩ := JsonNumber.faithful_natural natural
      simp only [Bool.and_eq_true, decide_eq_true_eq, List.all_eq_true]
      exact ⟨⟨reads, some⟩, visible⟩

def sampleEntry : Json JsonNumber :=
  .object [(Utf16.ofString "id", .string [97]), (Utf16.ofString "occurredAtMs", .number (.integer 1700000000000)),
    (Utf16.ofString "inputTokens", .number (.integer 5)), (Utf16.ofString "outputTokens", .number (.integer 2)),
    (Utf16.ofString "sessionId", .string [98]), (Utf16.ofString "costUsd", .number (.other ['0', '.', '5'])),
    (Utf16.ofString "sessionTitle", .string (Utf16.ofString " a \n b"))]

theorem usage_entries_cached_sample : ∃ entry, parseHarnessUsageEntry sampleNumbers sampleEntry = some entry ∧
      entry.sessionTitle = some (Utf16.ofString "a b") ∧
      (Json.parse sampleNumbers.format ((compact entry).write sampleNumbers.format)).bind
        (expand sampleNumbers) = some entry := by
  have accepted : (parseHarnessUsageEntry sampleNumbers sampleEntry).isSome = true := by decide +kernel
  have title : (parseHarnessUsageEntry sampleNumbers sampleEntry).bind (·.sessionTitle) =
      some (Utf16.ofString "a b") := by decide +kernel
  obtain ⟨entry, is⟩ := isSome_iff_exists.mp accepted
  rw [is] at title
  exact ⟨entry, is, title, (usage_entries_cached sampleNumbers).1 sampleEntry entry is⟩

end CodexHost.Guarantees.UsageCacheEntries
