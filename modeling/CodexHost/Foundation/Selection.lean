import Mathlib

/-!
# Computations that can fail

When a sequence of computations succeeds, and what a loop of them keeps. `pickAll` is a selection
that can fail: from every element of a list at most one is made, and the first failure is the
result of all.
-/
namespace CodexHost.Foundation
open List

variable {α β ε : Type}

theorem bind_ok {first : Except ε α} {next : α → Except ε β} {result : β} :
    (first >>= next) = .ok result ↔ ∃ value, first = .ok value ∧ next value = .ok result := by
  cases first with
  | error error =>
    constructor
    · exact fun failed => nomatch failed
    · exact fun ⟨_, failed, _⟩ => nomatch failed
  | ok value =>
    constructor
    · exact fun done => ⟨value, rfl, done⟩
    · rintro ⟨_, ⟨⟩, done⟩
      exact done

theorem map_ok {first : Except ε α} {f : α → β} {result : β} :
    first.map f = .ok result ↔ ∃ value, first = .ok value ∧ f value = result := by
  cases first with
  | error error =>
    constructor
    · exact fun failed => nomatch failed
    · exact fun ⟨_, failed, _⟩ => nomatch failed
  | ok value =>
    constructor
    · exact fun done => ⟨value, rfl, Except.ok.inj done⟩
    · rintro ⟨_, ⟨⟩, done⟩
      exact congrArg Except.ok done

theorem pure_ok {value result : α} : (pure value : Except ε α) = .ok result ↔ value = result :=
  Except.ok.injEq value result ▸ Iff.rfl

theorem throw_ok {error : ε} {result : α} : (throw error : Except ε α) = .ok result ↔ False :=
  iff_false_intro fun failed => nomatch failed

/-- The loop rule: what every step keeps holds after a loop that succeeds. -/
theorem foldlM_kept {step : β → α → Except ε β} {Inv : β → Prop} {items : List α} {start final : β}
    (done : items.foldlM step start = .ok final) (holds : Inv start)
    (kept : ∀ s item s', item ∈ items → Inv s → step s item = .ok s' → Inv s') : Inv final := by
  induction items generalizing start with
  | nil =>
    rw [foldlM_nil, pure_ok] at done
    exact done ▸ holds
  | cons item rest ih =>
    rw [foldlM_cons, bind_ok] at done
    obtain ⟨middle, stepped, done⟩ := done
    exact ih done (kept _ _ _ mem_cons_self holds stepped)
      fun s item s' member => kept s item s' (mem_cons_of_mem _ member)

def pickAll (pick : α → Except ε (Option β)) : List α → Except ε (List β)
  | [] => .ok []
  | first :: rest =>
    match pick first with
    | .error error => .error error
    | .ok none => pickAll pick rest
    | .ok (some made) => (pickAll pick rest).map (made :: ·)

variable {pick : α → Except ε (Option β)}

theorem pickAll_cons {first : α} {rest : List α} {made : List β}
    (picked : pickAll pick (first :: rest) = .ok made) :
    ∃ one more, pick first = .ok one ∧ pickAll pick rest = .ok more ∧ made = one.toList ++ more := by
  simp only [pickAll] at picked
  split at picked
  · cases picked
  · next here => exact ⟨none, made, here, picked, rfl⟩
  · next one here =>
    cases more : pickAll pick rest with
    | error error =>
      rw [more] at picked
      cases picked
    | ok others =>
      rw [more] at picked
      cases picked
      exact ⟨some one, others, here, rfl, rfl⟩

/-- A failure is that of an element. -/
theorem pickAll_error {source : List α} {error : ε} (failed : pickAll pick source = .error error) :
    ∃ element ∈ source, pick element = .error error := by
  induction source with
  | nil => cases failed
  | cons first rest ih =>
    simp only [pickAll] at failed
    split at failed
    · next here =>
      cases failed
      exact ⟨first, mem_cons_self, here⟩
    · obtain ⟨element, member, is⟩ := ih failed
      exact ⟨element, mem_cons_of_mem _ member, is⟩
    · cases others : pickAll pick rest with
      | error error =>
        rw [others] at failed
        cases failed
        obtain ⟨element, member, is⟩ := ih others
        exact ⟨element, mem_cons_of_mem _ member, is⟩
      | ok more =>
        rw [others] at failed
        cases failed

/-- Every element has been looked at without a failure. -/
theorem pick_of_mem {source : List α} {made : List β} (picked : pickAll pick source = .ok made)
    {element : α} (member : element ∈ source) : ∃ one, pick element = .ok one := by
  induction source generalizing made with
  | nil => cases member
  | cons first rest ih =>
    obtain ⟨one, more, here, others, -⟩ := pickAll_cons picked
    rcases mem_cons.mp member with rfl | later
    · exact ⟨one, here⟩
    · exact ih others later

theorem mem_pickAll {source : List α} {made : List β} (picked : pickAll pick source = .ok made)
    (element : β) : element ∈ made ↔ ∃ origin ∈ source, pick origin = .ok (some element) := by
  induction source generalizing made with
  | nil =>
    cases picked
    simp
  | cons first rest ih =>
    obtain ⟨one, more, here, others, rfl⟩ := pickAll_cons picked
    simp only [mem_append, ih others, Option.mem_toList, mem_cons, exists_eq_or_imp, here, Except.ok.injEq]

/-- What is made keeps the order and the names of what it is made of. -/
theorem pickAll_sublist {γ : Type} {source : List α} {made : List β} (name : α → γ) (name' : β → γ)
    (picked : pickAll pick source = .ok made)
    (named : ∀ origin element, pick origin = .ok (some element) → name' element = name origin) :
    (made.map name').Sublist (source.map name) := by
  induction source generalizing made with
  | nil =>
    cases picked
    exact List.Sublist.refl _
  | cons first rest ih =>
    obtain ⟨one, more, here, others, rfl⟩ := pickAll_cons picked
    cases one with
    | none => exact (ih others).cons _
    | some element =>
      rw [Option.toList_some, singleton_append, map_cons, map_cons, named first element here]
      exact (ih others).cons_cons _

end CodexHost.Foundation
