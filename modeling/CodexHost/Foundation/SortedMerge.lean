import Mathlib

/-!
# Merging two sorted lists

Beside `List.merge` of core: what its first element is, that the merge of two sorted lists is
sorted, and that a strictly sorted list is cut after an element by comparing with it.
-/
namespace CodexHost.Foundation
open List

variable {α : Type}

theorem merge_cons_left {le : α → α → Bool} {x : α} {xs ys : List α} (first : ∀ y ∈ ys.head?, le x y = true) :
    List.merge (x :: xs) ys le = x :: List.merge xs ys le := by
  cases ys with
  | nil => simp
  | cons y ys => exact cons_merge_cons_pos le xs ys (first y rfl)

theorem merge_cons_right {le : α → α → Bool} {y : α} {xs ys : List α}
    (first : ∀ x ∈ xs.head?, le x y = false) :
    List.merge xs (y :: ys) le = y :: List.merge xs ys le := by
  cases xs with
  | nil => simp
  | cons x xs => exact cons_merge_cons_neg le xs ys (by simpa using first x rfl)

/-- In a list sorted by an asymmetric relation, the elements after `x` are those it precedes. -/
theorem filter_after {before : α → α → Prop} [DecidableRel before]
    (irrefl : ∀ a, ¬ before a a) (trans : ∀ a b c, before a b → before b c → before a c)
    {front back : List α} {x : α} (sorted : (front ++ x :: back).Pairwise before) :
    (front ++ x :: back).filter (fun a => decide (before x a)) = back := by
  rw [pairwise_append, pairwise_cons] at sorted
  obtain ⟨-, ⟨later, -⟩, earlier⟩ := sorted
  have dropFront : front.filter (fun a => decide (before x a)) = [] := by
    rw [filter_eq_nil_iff]
    intro a member reached
    have ahead := earlier a member x mem_cons_self
    exact irrefl a (trans a x a ahead (by simpa using reached))
  have keepBack : back.filter (fun a => decide (before x a)) = back := by
    rw [filter_eq_self]
    intro a member
    simpa using later a member
  rw [filter_append, dropFront, filter_cons, if_neg (by simpa using irrefl x), keepBack, nil_append]

/-- In a sorted list, the elements with a property that later ones inherit are a tail. -/
theorem filter_eq_dropWhile {before : α → α → Prop} {keep : α → Bool}
    (inherit : ∀ a b, before a b → keep a = true → keep b = true) {list : List α}
    (sorted : list.Pairwise before) : list.filter keep = list.dropWhile fun a => !keep a := by
  induction list with
  | nil => rfl
  | cons a rest ih =>
    rw [pairwise_cons] at sorted
    rw [dropWhile_cons]
    cases kept : keep a with
    | false =>
      rw [filter_cons, if_neg (by simp [kept]), ih sorted.2]
      rfl
    | true =>
      have all : (a :: rest).filter keep = a :: rest := by
        rw [filter_eq_self]
        intro b member
        rcases mem_cons.mp member with rfl | later
        · exact kept
        · exact inherit a b (sorted.1 b later) kept
      rw [all]
      rfl

/-- A merge keeps the elements of the right list in their order. -/
theorem filter_merge_right {le : α → α → Bool} {keep : α → Bool} {xs ys : List α}
    (left : ∀ x ∈ xs, keep x = false) (right : ∀ y ∈ ys, keep y = true) :
    (List.merge xs ys le).filter keep = ys := by
  induction xs generalizing ys with
  | nil => simpa using right
  | cons x xs ih =>
    have later : ∀ x' ∈ xs, keep x' = false := fun x' member =>
      left x' (mem_cons_of_mem x member)
    have leave : keep x = false := left x mem_cons_self
    induction ys with
    | nil => simpa [filter_eq_nil_iff] using left
    | cons y ys others =>
      cases first : le x y with
      | true =>
        rw [cons_merge_cons_pos le xs ys first, filter_cons, if_neg (by simp [leave])]
        exact ih later right
      | false =>
        rw [cons_merge_cons_neg le xs ys (by simp [first]), filter_cons, if_pos (right y mem_cons_self),
          others fun y' member => right y' (mem_cons_of_mem y member)]

end CodexHost.Foundation
