import Mathlib

/-!
# Lists with reserved places

A slot holds an item, and may be reserved: then the item is not seen, but keeps its place. Releasing a
slot puts the item back among the visible ones, behind those that stand before it.
-/
namespace CodexHost.Foundation
open List

structure Slot (α : Type) where
  item : α
  held : Bool
  deriving DecidableEq, Repr

namespace Slot
variable {α : Type}

def items (slots : List (Slot α)) : List α := slots.map Slot.item

def visible : List (Slot α) → List α
  | [] => []
  | slot :: rest => if slot.held then visible rest else slot.item :: visible rest

def reserved : List (Slot α) → List α
  | [] => []
  | slot :: rest => if slot.held then slot.item :: reserved rest else reserved rest

/-- Other items in the visible slots, in this order. -/
def refill : List (Slot α) → List α → List (Slot α)
  | [], _ => []
  | slot :: rest, order =>
    if slot.held then slot :: refill rest order
    else
      match order with
      | [] => slot :: refill rest []
      | item :: order => ⟨item, false⟩ :: refill rest order

section Lists
variable {slots : List (Slot α)}

theorem visible_append (front back : List (Slot α)) : visible (front ++ back) = visible front ++ visible back := by
  induction front with
  | nil => rfl
  | cons slot rest ih =>
    rw [cons_append, visible, visible, ih]
    split <;> rfl

theorem visible_held (slots : List (Slot α)) : visible (slots.filter (·.held)) = [] := by
  induction slots with
  | nil => rfl
  | cons slot rest ih =>
    obtain ⟨item, held⟩ := slot
    cases held <;> simp [visible, ih]

theorem mem_reserved {a : α} : a ∈ reserved slots ↔ ⟨a, true⟩ ∈ slots := by
  induction slots with
  | nil => simp [reserved]
  | cons slot rest ih =>
    obtain ⟨item, held⟩ := slot
    cases held <;> simp [reserved, ih]

theorem items_perm (slots : List (Slot α)) : (items slots).Perm (reserved slots ++ visible slots) := by
  induction slots with
  | nil => exact List.Perm.refl _
  | cons slot rest ih =>
    obtain ⟨item, held⟩ := slot
    cases held with
    | true => exact ih.cons item
    | false => exact (ih.cons item).trans perm_middle.symm

theorem visible_nodup (nodup : (items slots).Nodup) : (visible slots).Nodup :=
  ((items_perm slots).nodup_iff.mp nodup).of_append_right

theorem mem_visible_items {a : α} (member : a ∈ visible slots) : a ∈ items slots :=
  (items_perm slots).mem_iff.mpr (mem_append_right _ member)

theorem refill_spec {order : List α} (length : order.length = (visible slots).length) :
    visible (refill slots order) = order ∧ reserved (refill slots order) = reserved slots := by
  induction slots generalizing order with
  | nil =>
    rw [visible, length_nil, length_eq_zero_iff] at length
    subst length
    exact ⟨rfl, rfl⟩
  | cons slot rest ih =>
    obtain ⟨item, held⟩ := slot
    cases held with
    | true =>
      have shorter : order.length = (visible rest).length := length
      obtain ⟨seen, kept⟩ := ih shorter
      exact ⟨seen, congrArg (item :: ·) kept⟩
    | false =>
      cases order with
      | nil => simp [visible] at length
      | cons first order =>
        have shorter : order.length = (visible rest).length := by simpa [visible] using length
        obtain ⟨seen, kept⟩ := ih shorter
        exact ⟨congrArg (first :: ·) seen, kept⟩

theorem items_refill {order : List α} (perm : order.Perm (visible slots)) :
    (items (refill slots order)).Perm (items slots) := by
  obtain ⟨seen, kept⟩ := refill_spec perm.length_eq
  refine (items_perm _).trans ?_
  rw [seen, kept]
  exact (perm.append_left _).trans (items_perm slots).symm

end Lists

section Marks
variable [DecidableEq α] {slots : List (Slot α)}

/-- Reserves or releases the slot of an item. -/
def mark (a : α) (held : Bool) (slots : List (Slot α)) : List (Slot α) :=
  slots.map fun slot => if slot.item = a then ⟨a, held⟩ else slot

def remove (a : α) (slots : List (Slot α)) : List (Slot α) := slots.filter (·.item ≠ a)

/-- The number of visible items in front of an item. -/
def place (a : α) (slots : List (Slot α)) : Nat := (visible (slots.takeWhile (·.item ≠ a))).length

theorem items_mark (a : α) (held : Bool) (slots : List (Slot α)) : items (mark a held slots) = items slots := by
  rw [mark, items, items, map_map]
  refine map_congr_left fun slot _ => ?_
  by_cases here : slot.item = a <;> simp [here]

theorem mark_absent {a : α} {held : Bool} (absent : a ∉ items slots) : mark a held slots = slots := by
  refine (map_congr_left fun slot member => ?_).trans (map_id slots)
  have other : slot.item ≠ a := fun same => absent (mem_map.mpr ⟨slot, member, same⟩)
  exact if_neg other

theorem mem_mark_of_ne {a : α} {held : Bool} {slot : Slot α} (other : slot.item ≠ a) :
    slot ∈ mark a held slots ↔ slot ∈ slots := by
  rw [mark, mem_map]
  constructor
  · rintro ⟨old, member, is⟩
    by_cases here : old.item = a
    · rw [if_pos here] at is
      exact absurd (is ▸ rfl) other
    · rw [if_neg here] at is
      exact is ▸ member
  · exact fun member => ⟨slot, member, if_neg other⟩

theorem mem_mark_self {a : α} {held : Bool} (member : a ∈ items slots) : ⟨a, held⟩ ∈ mark a held slots := by
  obtain ⟨slot, within, is⟩ := mem_map.mp member
  exact mem_map.mpr ⟨slot, within, if_pos is⟩

theorem visible_remove (a : α) (slots : List (Slot α)) :
    visible (remove a slots) = (visible slots).filter (· ≠ a) := by
  induction slots with
  | nil => rfl
  | cons slot rest ih =>
    obtain ⟨item, held⟩ := slot
    simp only [remove, ne_eq, decide_not] at ih ⊢
    by_cases here : item = a <;> cases held <;> simp [visible, here, ih]

theorem visible_reserve (a : α) (slots : List (Slot α)) :
    visible (mark a true slots) = (visible slots).filter (· ≠ a) := by
  induction slots with
  | nil => rfl
  | cons slot rest ih =>
    obtain ⟨item, held⟩ := slot
    rw [mark] at ih
    by_cases here : item = a <;> cases held <;> simp [mark, visible, here, ih]

/-- A released item stands behind the visible items in front of its slot. -/
theorem visible_release {a : α} (nodup : (items slots).Nodup) (held : ⟨a, true⟩ ∈ slots) :
    visible (mark a false slots) = (visible slots).insertIdx (place a slots) a ∧
      place a slots ≤ (visible slots).length := by
  induction slots with
  | nil => cases held
  | cons slot rest ih =>
    rw [items, map_cons, nodup_cons] at nodup
    by_cases here : slot.item = a
    · have only : slot = ⟨a, true⟩ := by
        rcases mem_cons.mp held with same | later
        · exact same.symm
        · exact absurd (mem_map.mpr ⟨_, later, here.symm⟩) nodup.1
      subst only
      have others : mark a false rest = rest := mark_absent nodup.1
      rw [mark] at others
      have first : place a (⟨a, true⟩ :: rest) = 0 := by simp [place, visible]
      rw [first]
      refine ⟨?_, Nat.zero_le _⟩
      simp [mark, visible, others]
    · have later : ⟨a, true⟩ ∈ rest := by
        rcases mem_cons.mp held with same | later
        · exact absurd (same ▸ rfl) here
        · exact later
      obtain ⟨is, within⟩ := ih nodup.2 later
      rw [mark] at is
      obtain ⟨item, reserved⟩ := slot
      cases reserved with
      | true =>
        have same : place a (⟨item, true⟩ :: rest) = place a rest := by simp [place, here, visible]
        rw [same]
        exact ⟨by simp [mark, visible, here, is], within⟩
      | false =>
        have next : place a (⟨item, false⟩ :: rest) = place a rest + 1 := by simp [place, here, visible]
        rw [next]
        exact ⟨by simp [mark, visible, here, is], by simpa [visible] using within⟩

end Marks

end Slot

end CodexHost.Foundation
