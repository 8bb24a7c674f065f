import Mathlib

/-!
# Rows with keys

A list of rows, each with a key of its own, seen as a partial map: `rowOf key rows k` is the row with
the key `k`. The map says what is in the list; two lists with the same map are permutations.
-/
namespace CodexHost.Foundation
open List

variable {α β κ : Type} [DecidableEq κ] (key : α → κ)

/-- The first row with this key. -/
def rowOf (rows : List α) (k : κ) : Option α := rows.find? (key · = k)

variable {key} {rows : List α} {k : κ}

theorem key_of_rowOf {row : α} (is : rowOf key rows k = some row) : key row = k := by
  simpa using find?_some is

theorem mem_of_rowOf {row : α} (is : rowOf key rows k = some row) : row ∈ rows :=
  mem_of_find?_eq_some is

theorem rowOf_eq_none_iff : rowOf key rows k = none ↔ k ∉ rows.map key := by
  simp [rowOf, find?_eq_none]

section
variable (nodup : (rows.map key).Nodup)
include nodup

theorem rowOf_of_mem {row : α} (member : row ∈ rows) :
    rowOf key rows (key row) = some row := by
  induction rows with
  | nil => cases member
  | cons first rest ih =>
    rw [map_cons, nodup_cons] at nodup
    rcases mem_cons.mp member with rfl | later
    · simp [rowOf]
    · have other : key first ≠ key row := fun same =>
        nodup.1 (same ▸ mem_map_of_mem later)
      rw [rowOf, find?_cons_of_neg (by simpa using other), ← rowOf]
      exact ih nodup.2 later

theorem rowOf_eq_some_iff {row : α} :
    rowOf key rows k = some row ↔ row ∈ rows ∧ key row = k := by
  constructor
  · exact fun is => ⟨mem_of_rowOf is, key_of_rowOf is⟩
  · rintro ⟨member, rfl⟩
    exact rowOf_of_mem nodup member

/-- The order of the rows is not part of the map. -/
theorem rowOf_perm {rows' : List α} (perm : rows'.Perm rows) :
    rowOf key rows' k = rowOf key rows k := by
  have nodup' : (rows'.map key).Nodup := (perm.map key).nodup_iff.mpr nodup
  refine Option.ext fun row => ?_
  rw [rowOf_eq_some_iff nodup', rowOf_eq_some_iff nodup, perm.mem_iff]

/-- Rows with the same map are permutations of each other. -/
theorem perm_of_rowOf {rows' : List α}
    (nodup' : (rows'.map key).Nodup) (same : ∀ k, rowOf key rows' k = rowOf key rows k) :
    rows'.Perm rows := by
  refine (perm_ext_iff_of_nodup (List.Nodup.of_map key nodup') (List.Nodup.of_map key nodup)).mpr
    fun row => ?_
  have := same (key row)
  constructor
  · intro member
    exact mem_of_rowOf (this.symm.trans (rowOf_of_mem nodup' member))
  · intro member
    exact mem_of_rowOf (this.trans (rowOf_of_mem nodup member))

end

theorem rowOf_append (rows more : List α) (k : κ) :
    rowOf key (rows ++ more) k = (rowOf key rows k).or (rowOf key more k) := find?_append

theorem rowOf_filter {keeps : α → Bool} {keeps' : κ → Bool} (same : ∀ row, keeps row = keeps' (key row))
    (rows : List α) (k : κ) :
    rowOf key (rows.filter keeps) k = if keeps' k then rowOf key rows k else none := by
  induction rows with
  | nil => simp [rowOf]
  | cons row rest ih =>
    unfold rowOf at *
    rw [filter_cons]
    by_cases is : key row = k
    · subst is
      cases kept : keeps row with
      | true =>
        rw [if_pos rfl, find?_cons_of_pos (by simp), find?_cons_of_pos (by simp), ← same, kept, if_pos rfl]
      | false =>
        rw [if_neg Bool.false_ne_true, ih, ← same, kept, if_neg Bool.false_ne_true]
        rfl
    · rw [find?_cons_of_neg (by simpa using is)]
      split
      · rw [find?_cons_of_neg (by simpa using is), ih]
      · exact ih

/-- Rows that change without changing their keys, or disappear. -/
theorem rowOf_filterMap {key' : β → κ} {view : α → Option β}
    (keeps : ∀ row row', view row = some row' → key' row' = key row) (nodup : (rows.map key).Nodup)
    (k : κ) : rowOf key' (rows.filterMap view) k = (rowOf key rows k).bind view := by
  induction rows with
  | nil => rfl
  | cons row rest ih =>
    rw [map_cons, nodup_cons] at nodup
    have ih := ih nodup.2
    unfold rowOf at *
    rw [filterMap_cons]
    by_cases is : key row = k
    · rw [find?_cons_of_pos (by simpa using is)]
      cases shown : view row with
      | none =>
        have absent : rest.find? (key · = k) = none := by
          rw [find?_eq_none]
          intro other member same
          exact nodup.1 (is ▸ (of_decide_eq_true same) ▸ mem_map_of_mem member)
        rw [ih, absent]
        simp [shown]
      | some row' =>
        rw [find?_cons_of_pos (by simpa [keeps row row' shown] using is)]
        exact shown.symm
    · rw [find?_cons_of_neg (by simpa using is)]
      cases shown : view row with
      | none => exact ih
      | some row' =>
        rw [find?_cons_of_neg (by simpa [keeps row row' shown] using is)]
        exact ih

theorem rowOf_map {change : α → α} (keeps : ∀ row, key (change row) = key row) (rows : List α)
    (k : κ) : rowOf key (rows.map change) k = (rowOf key rows k).map change := by
  unfold rowOf
  simp [Function.comp_def, keeps]

end CodexHost.Foundation
