import Mathlib

/-!
# Orders kept as successors

A list without repetitions is determined by a part of it that is kept as a list and by the
successor of every other element: inserting each element before its successor restores the list.
-/
namespace CodexHost.Foundation
open List

variable {α : Type} [DecidableEq α]

/-- The element after this one. -/
def successor (order : List α) (a : α) : Option α := order[order.idxOf a + 1]?

/-- Insertion before an element, at the end without one. -/
def insertBefore (order : List α) (before : Option α) (a : α) : List α :=
  order.insertIdx (before.elim order.length order.idxOf) a

theorem insertBefore_none (order : List α) (a : α) : insertBefore order none a = order ++ [a] :=
  insertIdx_length_self

theorem insertBefore_some {front back : List α} {b : α} (a : α) (first : b ∉ front) :
    insertBefore (front ++ b :: back) (some b) a = front ++ a :: b :: back := by
  have index : (front ++ b :: back).idxOf b = front.length := by
    rw [idxOf_append_of_notMem first, idxOf_cons_self, Nat.add_zero]
  show (front ++ b :: back).insertIdx ((front ++ b :: back).idxOf b) a = _
  rw [index]
  induction front with
  | nil => rfl
  | cons c front ih =>
    have later : b ∉ front := fun member => first (mem_cons_of_mem c member)
    have index' : (front ++ b :: back).idxOf b = front.length := by
      rw [idxOf_append_of_notMem later, idxOf_cons_self, Nat.add_zero]
    rw [cons_append, length_cons, insertIdx_succ_cons, ih later index']
    rfl

theorem idxOf_le_length (order : List α) (before : Option α) :
    before.elim order.length order.idxOf ≤ order.length := by
  cases before with
  | none => exact Nat.le_refl _
  | some b => exact List.idxOf_le_length

omit [DecidableEq α] in
theorem insertIdx_take_drop (order : List α) (a : α) : ∀ index, index ≤ order.length →
    order.insertIdx index a = order.take index ++ a :: order.drop index := by
  induction order with
  | nil =>
    intro index inside
    rw [Nat.le_zero.mp inside]
    rfl
  | cons b order ih =>
    intro index inside
    cases index with
    | zero => rfl
    | succ index =>
      rw [insertIdx_succ_cons, ih index (Nat.le_of_succ_le_succ inside)]
      rfl

theorem insertBefore_take_drop (order : List α) (before : Option α) (a : α) :
    insertBefore order before a = order.take (before.elim order.length order.idxOf) ++
      a :: order.drop (before.elim order.length order.idxOf) :=
  insertIdx_take_drop order a _ (idxOf_le_length order before)

/-- The inserted element does not show in a part without it. -/
theorem filter_insertBefore_neg {order : List α} {before : Option α} {a : α} {keep : α → Bool}
    (out : keep a = false) : (insertBefore order before a).filter keep = order.filter keep := by
  rw [insertBefore_take_drop, filter_append, filter_cons_of_neg (by simp [out]),
    ← filter_append, take_append_drop]

theorem insertBefore_perm (order : List α) (before : Option α) (a : α) :
    (insertBefore order before a).Perm (a :: order) :=
  perm_insertIdx a order (idxOf_le_length order before)

theorem sublist_insertBefore (order : List α) (before : Option α) (a : α) :
    order.Sublist (insertBefore order before a) := sublist_insertIdx _ _ _

theorem mem_insertBefore {order : List α} {before : Option α} {a b : α} :
    b ∈ insertBefore order before a ↔ b = a ∨ b ∈ order := by
  rw [(insertBefore_perm order before a).mem_iff, mem_cons]

theorem insertBefore_nodup {order : List α} {before : Option α} {a : α} (nodup : order.Nodup)
    (fresh : a ∉ order) : (insertBefore order before a).Nodup :=
  (insertBefore_perm order before a).nodup_iff.mpr (nodup_cons.mpr ⟨fresh, nodup⟩)

/-- Where the element stands, its successor is the head of what follows. -/
theorem successor_split {front back : List α} {a : α} (first : a ∉ front) :
    successor (front ++ a :: back) a = back.head? := by
  rw [successor, idxOf_append_of_notMem first, idxOf_cons_self, Nat.add_zero,
    getElem?_append_right (by omega), Nat.add_sub_cancel_left, getElem?_cons_succ,
    head?_eq_getElem?]

omit [DecidableEq α] in
theorem split_of_mem {order : List α} {a : α} (nodup : order.Nodup) (member : a ∈ order) :
    ∃ front back, order = front ++ a :: back ∧ a ∉ front ∧ a ∉ back := by
  obtain ⟨front, back, rfl⟩ := append_of_mem member
  rw [nodup_append, nodup_cons] at nodup
  exact ⟨front, back, rfl, fun twice => nodup.2.2 a twice a mem_cons_self rfl, nodup.2.1.1⟩

theorem successor_mem {order : List α} {a b : α} (next : successor order a = some b) : b ∈ order :=
  mem_of_getElem? next

/-- A part of the order grows by an element inserted before its successor. -/
theorem filter_insert {order : List α} (nodup : order.Nodup) {a : α} (member : a ∈ order)
    {keep keep' : α → Bool} (absent : keep a = false) (present : keep' a = true)
    (others : ∀ b ∈ order, b ≠ a → keep' b = keep b)
    (next : ∀ b, successor order a = some b → keep b = true) :
    order.filter keep' = insertBefore (order.filter keep) (successor order a) a := by
  obtain ⟨front, back, rfl, notFront, notBack⟩ := split_of_mem nodup member
  rw [successor_split notFront] at next ⊢
  have inFront : front.filter keep' = front.filter keep := by
    refine filter_congr fun b here => others b (mem_append_left _ here) ?_
    rintro rfl
    exact notFront here
  have inBack : back.filter keep' = back.filter keep := by
    refine filter_congr fun b here => others b (by simp [here]) ?_
    rintro rfl
    exact notBack here
  rw [filter_append, filter_append, filter_cons_of_pos present,
    filter_cons_of_neg (by simp [absent]), inFront, inBack]
  cases back with
  | nil =>
    rw [head?_nil, insertBefore_none, filter_nil, append_nil]
  | cons b back =>
    have kept : keep b = true := next b rfl
    have apart : b ∉ front.filter keep := by
      intro twice
      rw [nodup_append] at nodup
      exact nodup.2.2 b (mem_of_mem_filter twice) b (by simp) rfl
    rw [head?_cons, filter_cons_of_pos kept, insertBefore_some a apart]

/-- In a part of the order, the successor is the next element of the part. -/
theorem successor_filter {front back : List α} {a : α} {keep : α → Bool} (first : a ∉ front)
    (kept : keep a = true) :
    successor ((front ++ a :: back).filter keep) a = back.find? keep := by
  have apart : a ∉ front.filter keep := fun member => first (mem_of_mem_filter member)
  rw [filter_append, filter_cons_of_pos kept, successor_split apart, head?_filter]

/-- Some element of a non-empty part has its successor outside the part. -/
theorem exists_last {order : List α} (nodup : order.Nodup) {part : α → Prop} [DecidablePred part]
    (filled : ∃ a ∈ order, part a) :
    ∃ a ∈ order, part a ∧ ∀ b, successor order a = some b → ¬ part b := by
  induction order with
  | nil =>
    obtain ⟨a, none, -⟩ := filled
    cases none
  | cons d order ih =>
    rw [nodup_cons] at nodup
    by_cases later : ∃ a ∈ order, part a
    · obtain ⟨a, here, belongs, last⟩ := ih nodup.2 later
      have apart : d ≠ a := by
        rintro rfl
        exact nodup.1 here
      refine ⟨a, mem_cons_of_mem d here, belongs, ?_⟩
      have shift : successor (d :: order) a = successor order a := by
        rw [successor, idxOf_cons_ne _ apart, successor]
        rfl
      rwa [shift]
    · obtain ⟨a, here, belongs⟩ := filled
      obtain rfl : a = d := by
        rcases mem_cons.mp here with same | after
        · exact same
        · exact absurd ⟨a, after, belongs⟩ later
      refine ⟨a, mem_cons_self, belongs, ?_⟩
      intro b next inside
      have split := @successor_split α _ [] order a (by simp)
      rw [nil_append] at split
      rw [split] at next
      exact later ⟨b, mem_of_mem_head? next, inside⟩

end CodexHost.Foundation
