import Mathlib

/-!
# Merging any number of lists

The merge takes, step by step, the least head of all lists, of equal ones that of the lowest
index. Each element carries the index of its list, so that what the merge has of one list, what it
leaves of it, and the place of equal elements can be said. Only the order of the result needs the
comparison to be an order.
-/
namespace CodexHost.Foundation
open List Option

variable {α : Type}

/-- Scans heads from an index on for the least, the first of equal ones. -/
def scanBest (less : α → α → Bool) : Option (Nat × α) → Nat → List (Option α) → Option (Nat × α)
  | best, _, [] => best
  | best, index, none :: heads => scanBest less best (index + 1) heads
  | best, index, some a :: heads =>
    scanBest less (if best.all (fun b => less a b.2) then some (index, a) else best) (index + 1) heads

def firstBest (less : α → α → Bool) (heads : List (Option α)) : Option (Nat × α) :=
  scanBest less none 0 heads

/-- Up to this many steps of the merge: the elements taken, and what is left of the lists. -/
def mergeSteps (less : α → α → Bool) : Nat → List (List α) → List (Nat × α) × List (List α)
  | 0, lists => ([], lists)
  | steps + 1, lists =>
    match firstBest less (lists.map List.head?) with
    | none => ([], lists)
    | some (index, a) =>
      let later := mergeSteps less steps (lists.modify index List.tail)
      ((index, a) :: later.1, later.2)

/-- The number of elements of all lists. -/
def total (lists : List (List α)) : Nat := (lists.map List.length).sum

/-- The merge of whole lists, with the index of the list of each element. -/
def mergeTagged (less : α → α → Bool) (lists : List (List α)) : List (Nat × α) :=
  (mergeSteps less (total lists) lists).1

section Scan
variable {less : α → α → Bool}

theorem scanBest_found {best : Option (Nat × α)} {start : Nat} {heads : List (Option α)}
    {index : Nat} {a : α} (found : scanBest less best start heads = some (index, a)) :
    best = some (index, a) ∨ (start ≤ index ∧ heads[index - start]? = some (some a)) := by
  induction heads generalizing best start with
  | nil => exact .inl found
  | cons head heads ih =>
    have shift : ∀ k, start + 1 ≤ k → (head :: heads)[k - start]? = heads[k - (start + 1)]? := by
      intro k le
      obtain ⟨n, rfl⟩ : ∃ n, k = start + 1 + n := ⟨k - (start + 1), by omega⟩
      have front : start + 1 + n - start = n + 1 := by omega
      have back : start + 1 + n - (start + 1) = n := by omega
      rw [front, back, getElem?_cons_succ]
    cases head with
    | none =>
      rcases ih found with here | ⟨le, later⟩
      · exact .inl here
      · exact .inr ⟨by omega, by rw [shift index le, later]⟩
    | some b =>
      rcases ih found with here | ⟨le, later⟩
      · split at here
        · cases here
          exact .inr ⟨Nat.le_refl _, by simp⟩
        · exact .inl here
      · exact .inr ⟨by omega, by rw [shift index le, later]⟩

/-- Scanning for what a function says of the heads. -/
theorem scanBest_map {β : Type} (f : β → α) (best : Option (Nat × β)) (start : Nat)
    (heads : List (Option β)) :
    (scanBest (fun a b => less (f a) (f b)) best start heads).map (fun x => (x.1, f x.2)) =
      scanBest less (best.map fun x => (x.1, f x.2)) start (heads.map (Option.map f)) := by
  induction heads generalizing best start with
  | nil => rfl
  | cons head heads ih =>
    cases head with
    | none => exact ih best (start + 1)
    | some b =>
      rw [scanBest, ih, map_cons, map_some, scanBest]
      cases best with
      | none => rfl
      | some given =>
        simp only [all_some, map_some]
        split <;> rfl

theorem firstBest_found {heads : List (Option α)} {index : Nat} {a : α}
    (found : firstBest less heads = some (index, a)) : heads[index]? = some (some a) := by
  rcases scanBest_found found with none | ⟨-, here⟩
  · cases none
  · exact here

theorem scanBest_none {best : Option (Nat × α)} {start : Nat} {heads : List (Option α)}
    (nothing : scanBest less best start heads = none) : best = none ∧ ∀ head ∈ heads, head = none := by
  induction heads generalizing best start with
  | nil => exact ⟨nothing, by simp⟩
  | cons head heads ih =>
    cases head with
    | none =>
      obtain ⟨unset, all⟩ := ih nothing
      exact ⟨unset, by simpa using all⟩
    | some b =>
      obtain ⟨unset, -⟩ := ih nothing
      split at unset
      · cases unset
      · next beaten =>
        rw [unset] at beaten
        exact absurd rfl beaten

theorem firstBest_none {heads : List (Option α)} (nothing : firstBest less heads = none) :
    ∀ head ∈ heads, head = none := (scanBest_none nothing).2

end Scan

section Steps
variable {less : α → α → Bool}

/-- At the index of the first head that is taken, its list begins with it. -/
theorem taken_list {lists : List (List α)} {index : Nat} {a : α}
    (found : firstBest less (lists.map List.head?) = some (index, a)) :
    ∃ rest, lists[index]? = some (a :: rest) := by
  have here := firstBest_found found
  rw [getElem?_map] at here
  obtain ⟨list, at_, head⟩ := map_eq_some_iff.mp here
  cases list with
  | nil => cases head
  | cons b rest =>
    cases head
    exact ⟨rest, at_⟩

/-- The steps take the elements of each list in its order and leave the rest of it. -/
theorem mergeSteps_conserve (steps : Nat) (lists : List (List α)) (index : Nat) :
    ((mergeSteps less steps lists).1.filter (·.1 = index)).map Prod.snd ++
        ((mergeSteps less steps lists).2[index]?).getD [] = (lists[index]?).getD [] := by
  induction steps generalizing lists with
  | zero => simp [mergeSteps]
  | succ steps ih =>
    rw [mergeSteps]
    cases best : firstBest less (lists.map List.head?) with
    | none => simp
    | some taken =>
      obtain ⟨first, a⟩ := taken
      obtain ⟨rest, list⟩ := taken_list best
      have later := ih (lists.modify first List.tail)
      simp only [filter_cons]
      by_cases here : first = index
      · subst here
        simp only [decide_true, if_true, map_cons, cons_append, later]
        rw [getElem?_modify_eq, list]
        rfl
      · simp only [here, decide_false, Bool.false_eq_true, if_false, later]
        rw [getElem?_modify_ne _ _ here]

theorem total_eq_zero_iff (lists : List (List α)) : total lists = 0 ↔ ∀ list ∈ lists, list = [] := by
  induction lists with
  | nil => simp [total]
  | cons list lists ih =>
    rw [total] at ih ⊢
    simp [ih]

theorem total_modify {lists : List (List α)} {index : Nat} {a : α} {rest : List α}
    (list : lists[index]? = some (a :: rest)) :
    total (lists.modify index List.tail) + 1 = total lists := by
  induction lists generalizing index with
  | nil => cases list
  | cons first lists ih =>
    cases index with
    | zero =>
      cases list
      simp only [modify_zero_cons, total, map_cons, sum_cons, tail_cons, length_cons]
      omega
    | succ index =>
      have later := ih (by simpa using list)
      simp only [modify_succ_cons, total, map_cons, sum_cons] at later ⊢
      omega

/-- The steps take no more than there are, and stop only when every list is empty. -/
theorem mergeSteps_count (steps : Nat) (lists : List (List α)) :
    (mergeSteps less steps lists).1.length + total (mergeSteps less steps lists).2 = total lists ∧
      ((mergeSteps less steps lists).1.length < steps → total (mergeSteps less steps lists).2 = 0) := by
  induction steps generalizing lists with
  | zero => simp [mergeSteps]
  | succ steps ih =>
    rw [mergeSteps]
    cases best : firstBest less (lists.map List.head?) with
    | none =>
      have all := firstBest_none best
      have empty : total lists = 0 := by
        rw [total_eq_zero_iff]
        intro list member
        exact head?_eq_none_iff.mp (all _ (mem_map_of_mem member))
      simp [empty]
    | some taken =>
      obtain ⟨first, a⟩ := taken
      obtain ⟨rest, list⟩ := taken_list best
      have count := total_modify list
      obtain ⟨sum, short⟩ := ih (lists.modify first List.tail)
      simp only [length_cons]
      exact ⟨by omega, fun less => short (by omega)⟩

/-- Steps after steps. -/
theorem mergeSteps_add (m n : Nat) (lists : List (List α)) : mergeSteps less (m + n) lists =
      ((mergeSteps less m lists).1 ++ (mergeSteps less n (mergeSteps less m lists).2).1,
        (mergeSteps less n (mergeSteps less m lists).2).2) := by
  induction m generalizing lists with
  | zero => simp [mergeSteps]
  | succ m ih =>
    have order : m + 1 + n = m + n + 1 := by omega
    rw [order, mergeSteps, mergeSteps]
    cases best : firstBest less (lists.map List.head?) with
    | none =>
      cases n with
      | zero => rfl
      | succ n => simp [mergeSteps, best]
    | some taken =>
      simp only [ih, cons_append]

theorem mergeSteps_empty (steps : Nat) {lists : List (List α)} (empty : total lists = 0) :
    (mergeSteps less steps lists).1 = [] := by
  have count := (@mergeSteps_count _ less steps lists).1
  exact length_eq_zero_iff.mp (by omega)

/-- As many steps as there are elements leave none. -/
theorem total_after (lists : List (List α)) : total (mergeSteps less (total lists) lists).2 = 0 := by
  obtain ⟨count, short⟩ := @mergeSteps_count _ less (total lists) lists
  by_cases stopped : (mergeSteps less (total lists) lists).1.length < total lists
  · exact short stopped
  · omega

theorem mergeSteps_length_le (steps : Nat) (lists : List (List α)) :
    (mergeSteps less steps lists).1.length ≤ steps := by
  induction steps generalizing lists with
  | zero => simp [mergeSteps]
  | succ steps ih =>
    rw [mergeSteps]
    cases firstBest less (lists.map List.head?) with
    | none => simp
    | some taken =>
      have later := ih (lists.modify taken.1 List.tail)
      simpa using later

/-- Steps, and the merge of what they leave, are the merge. -/
theorem mergeTagged_steps (steps : Nat) (lists : List (List α)) : mergeTagged less lists =
      (mergeSteps less steps lists).1 ++ mergeTagged less (mergeSteps less steps lists).2 := by
  obtain ⟨count, short⟩ := @mergeSteps_count _ less steps lists
  by_cases full : (mergeSteps less steps lists).1.length < steps
  · have left := short full
    obtain ⟨more, rfl⟩ : ∃ more, steps = total lists + more := ⟨steps - total lists, by omega⟩
    rw [mergeTagged, mergeTagged, left, mergeSteps, append_nil, mergeSteps_add,
      mergeSteps_empty more (total_after lists), append_nil]
  · have taken := @mergeSteps_length_le _ less steps lists
    have all : total lists = steps + total (mergeSteps less steps lists).2 := by omega
    rw [mergeTagged, all, mergeSteps_add]
    rfl

/-- The merge has the elements of each list, in their order. -/
theorem mergeTagged_filter (lists : List (List α)) (index : Nat) :
    ((mergeTagged less lists).filter (·.1 = index)).map Prod.snd = (lists[index]?).getD [] := by
  have conserve := @mergeSteps_conserve _ less (total lists) lists index
  have none : ((mergeSteps less (total lists) lists).2[index]?).getD [] = [] := by
    cases here : (mergeSteps less (total lists) lists).2[index]? with
    | none => rfl
    | some list => exact (total_eq_zero_iff _).mp (total_after lists) list (mem_of_getElem? here)
  rw [none, append_nil] at conserve
  exact conserve

end Steps

section Order
variable {less : α → α → Bool}

/-- `less` is the strict part of a total preorder. -/
structure WeakOrder (less : α → α → Bool) : Prop where
  asymm : ∀ a b, less a b = true → less b a = false
  trans : ∀ a b c, less b a = false → less c b = false → less c a = false

theorem WeakOrder.less_of_less_of_le (order : WeakOrder less) {a b c : α} (first : less a b = true)
    (second : less c b = false) : less a c = true := by
  cases chain : less a c with
  | true => rfl
  | false =>
    have back := order.trans b c a second chain
    rw [first] at back
    cases back

/-- The best head so far is no greater than any, and less than those before it. -/
def BestOf (less : α → α → Bool) (best : Option (Nat × α)) (scanned : List (Option α)) : Prop :=
  ∀ index head, scanned[index]? = some (some head) → ∃ first a, best = some (first, a) ∧
    less head a = false ∧ (index < first → less a head = true)

section
variable (order : WeakOrder less)
include order

theorem WeakOrder.irrefl (a : α) : less a a = false := by
  cases same : less a a with
  | false => rfl
  | true =>
    have back := order.asymm a a same
    rw [same] at back
    cases back

/-- The best head after one more. -/
theorem bestOf_snoc {best : Option (Nat × α)} {scanned : List (Option α)}
    (isBest : BestOf less best scanned)
    (inside : ∀ first a, best = some (first, a) → first < scanned.length) (b : α) :
    BestOf less (if best.all (fun a => less b a.2) then some (scanned.length, b) else best)
      (scanned ++ [some b]) := by
  intro index head here
  rcases Nat.lt_trichotomy index scanned.length with before | last | beyond
  · rw [getElem?_append_left before] at here
    obtain ⟨first, a, given, le, earlier⟩ := isBest index head here
    split
    · next better =>
      rw [given] at better
      have less_head := order.less_of_less_of_le better le
      exact ⟨_, _, rfl, order.asymm b head less_head, fun _ => less_head⟩
    · exact ⟨first, a, given, le, earlier⟩
  · rw [last, getElem?_append_right (Nat.le_refl _), Nat.sub_self] at here
    cases here
    split
    · exact ⟨_, _, rfl, order.irrefl b, fun front => by omega⟩
    · next beaten =>
      cases best with
      | none => exact absurd rfl beaten
      | some given =>
        obtain ⟨first, a⟩ := given
        have bound := inside first a rfl
        refine ⟨first, a, rfl, by simpa using beaten, fun front => ?_⟩
        omega
  · rw [getElem?_eq_none (by simpa using Nat.succ_le_of_lt beyond)] at here
    cases here

theorem scanBest_best {best : Option (Nat × α)} {heads : List (Option α)} :
    ∀ {scanned : List (Option α)}, BestOf less best scanned →
      (∀ first a, best = some (first, a) → first < scanned.length) →
      BestOf less (scanBest less best scanned.length heads) (scanned ++ heads) := by
  induction heads generalizing best with
  | nil =>
    intro scanned isBest _
    simpa [scanBest] using isBest
  | cons head heads ih =>
    intro scanned isBest inside
    have size : (scanned ++ [head]).length = scanned.length + 1 := by simp
    rw [append_cons]
    cases head with
    | none =>
      have still : BestOf less best (scanned ++ [none]) := by
        intro index head here
        by_cases before : index < scanned.length
        · rw [getElem?_append_left before] at here
          exact isBest index head here
        · rw [getElem?_append_right (by omega)] at here
          cases at_ : index - scanned.length <;> simp [at_] at here
      have next := ih still fun first a given => by
        have bound := inside first a given
        omega
      rwa [size] at next
    | some b =>
      have next := ih (bestOf_snoc order isBest inside b) fun first a given => by
        split at given
        · cases given
          omega
        · have bound := inside first a given
          omega
      rwa [size] at next

theorem firstBest_best {heads : List (Option α)} {first : Nat} {a : α}
    (found : firstBest less heads = some (first, a)) {index : Nat} {head : α}
    (here : heads[index]? = some (some head)) :
    less head a = false ∧ (index < first → less a head = true) := by
  have isBest : BestOf less (scanBest less none 0 heads) ([] ++ heads) :=
    scanBest_best order (fun _ _ none => by cases none) fun _ _ none => by cases none
  obtain ⟨first', a', same, le, before⟩ := isBest index head here
  rw [← firstBest, found] at same
  cases same
  exact ⟨le, before⟩

end

theorem mem_mergeSteps {steps : Nat} {lists : List (List α)} {x : Nat × α}
    (member : x ∈ (mergeSteps less steps lists).1) : ∃ list, lists[x.1]? = some list ∧ x.2 ∈ list := by
  have kept : x.2 ∈ ((mergeSteps less steps lists).1.filter (·.1 = x.1)).map Prod.snd :=
    mem_map_of_mem (mem_filter.mpr ⟨member, by simp⟩)
  have conserve := @mergeSteps_conserve _ less steps lists x.1
  have here : x.2 ∈ (lists[x.1]?).getD [] := by
    rw [← conserve]
    exact mem_append_left _ kept
  cases list : lists[x.1]? with
  | none =>
    rw [list] at here
    cases here
  | some list' =>
    rw [list] at here
    exact ⟨list', rfl, here⟩

/-- The merge of sorted lists is sorted, and of equal elements that of the lower index is first. -/
theorem mergeSteps_sorted (order : WeakOrder less) (steps : Nat) {lists : List (List α)}
    (sorted : ∀ list ∈ lists, list.Pairwise fun a b => less b a = false) :
    (mergeSteps less steps lists).1.Pairwise fun x y =>
      less y.2 x.2 = false ∧ (less x.2 y.2 = false → x.1 ≤ y.1) := by
  induction steps generalizing lists with
  | zero => exact List.Pairwise.nil
  | succ steps ih =>
    rw [mergeSteps]
    cases best : firstBest less (lists.map List.head?) with
    | none => exact List.Pairwise.nil
    | some taken =>
      obtain ⟨first, a⟩ := taken
      obtain ⟨rest, list⟩ := taken_list best
      have here := sorted _ (mem_of_getElem? list)
      rw [pairwise_cons] at here
      refine pairwise_cons.mpr ⟨?_, ih ?_⟩
      · intro y member
        obtain ⟨later, at_, within⟩ := mem_mergeSteps member
        by_cases same : first = y.1
        · subst same
          rw [getElem?_modify_eq, list] at at_
          cases at_
          exact ⟨here.1 y.2 within, fun _ => Nat.le_refl _⟩
        · rw [getElem?_modify_ne _ _ same] at at_
          cases later with
          | nil => cases within
          | cons head tail =>
            have atHead : (lists.map List.head?)[y.1]? = some (some head) := by
              rw [getElem?_map, at_]
              rfl
            obtain ⟨le, before⟩ := firstBest_best order best atHead
            have after : less y.2 head = false := by
              rcases mem_cons.mp within with equal | later
              · rw [equal]
                exact order.irrefl head
              · have others := sorted _ (mem_of_getElem? at_)
                rw [pairwise_cons] at others
                exact others.1 y.2 later
            refine ⟨order.trans a head y.2 le after, fun tie => ?_⟩
            by_contra lower
            have strict := order.less_of_less_of_le (before (by omega)) after
            rw [strict] at tie
            cases tie
      · intro list' member
        obtain ⟨index, at_⟩ := mem_iff_getElem?.mp member
        by_cases same : first = index
        · subst same
          rw [getElem?_modify_eq, list] at at_
          cases at_
          exact here.2
        · rw [getElem?_modify_ne _ _ same] at at_
          exact sorted _ (mem_of_getElem? at_)

end Order

end CodexHost.Foundation
