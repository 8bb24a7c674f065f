import Mathlib

/-!
# Ordered maps

Finite maps with the iteration order of an ECMAScript `Map`: an overwritten key
keeps its place, a new key goes to the end. The list of entries carries the proof
that no key occurs twice, so lookup, membership in the entries and membership in
the values are three readings of one relation (`mem_entries_iff`, `mem_values_iff`).
Nothing here names the program that is verified over it.
-/
namespace CodexHost.Foundation
open List Option

variable {K V W : Type}

structure OrderedMap (K V : Type) where
  entries : List (K × V)
  keys_nodup : (entries.map Prod.fst).Nodup
  deriving DecidableEq

namespace OrderedMap

def empty : OrderedMap K V := ⟨[], List.nodup_nil⟩

instance : Inhabited (OrderedMap K V) := ⟨empty⟩

def keys (m : OrderedMap K V) : List K := m.entries.map Prod.fst

def values (m : OrderedMap K V) : List V := m.entries.map Prod.snd

theorem keys_eq_nodup (m : OrderedMap K V) : m.keys.Nodup := m.keys_nodup

@[simp] theorem values_empty : (empty : OrderedMap K V).values = [] := rfl

@[simp] theorem keys_empty : (empty : OrderedMap K V).keys = [] := rfl

section Lookup
variable [DecidableEq K]

def get? (m : OrderedMap K V) (k : K) : Option V := m.entries.lookup k

def has (m : OrderedMap K V) (k : K) : Bool := (m.get? k).isSome

/-- Overwriting in place: the keys, and so their order, are unchanged. -/
def replaceEntry (k : K) (v : V) (entries : List (K × V)) : List (K × V) :=
  entries.map fun e => if e.1 = k then (k, v) else e

theorem replaceEntry_keys (k : K) (v : V) (entries : List (K × V)) :
    (replaceEntry k v entries).map Prod.fst = entries.map Prod.fst := by
  unfold replaceEntry
  rw [List.map_map]
  apply List.map_congr_left
  intro e _
  by_cases h : e.1 = k <;> simp [h]

def set (m : OrderedMap K V) (k : K) (v : V) : OrderedMap K V :=
  if h : k ∈ m.entries.map Prod.fst then
    ⟨replaceEntry k v m.entries, by rw [replaceEntry_keys]; exact m.keys_nodup⟩
  else
    ⟨m.entries ++ [(k, v)], by
      simp only [List.map_append, List.map_cons, List.map_nil]
      exact List.nodup_append.mpr ⟨m.keys_nodup, List.nodup_singleton k, by
        intro a ha b hb hab
        rw [List.mem_singleton] at hb
        exact h (hb ▸ hab ▸ ha)⟩⟩

def delete (m : OrderedMap K V) (k : K) : OrderedMap K V :=
  ⟨m.entries.filter fun e => e.1 ≠ k,
    m.keys_nodup.sublist (List.filter_sublist.map Prod.fst)⟩

/-- The map without its first entries. -/
def dropFirst (m : OrderedMap K V) (count : Nat) : OrderedMap K V :=
  ⟨m.entries.drop count, m.keys_nodup.sublist ((List.drop_sublist count _).map Prod.fst)⟩

/-- Lookup in a list without repeated keys is membership. -/
theorem lookup_eq_some_iff_mem {entries : List (K × V)}
    (nodup : (entries.map Prod.fst).Nodup) (k : K) (v : V) :
    entries.lookup k = some v ↔ (k, v) ∈ entries := by
  induction entries with
  | nil => simp
  | cons e rest ih =>
    obtain ⟨k', v'⟩ := e
    simp only [map_cons, nodup_cons, List.mem_map] at nodup
    by_cases hk : k = k'
    · subst hk
      simp only [lookup_cons, beq_self_eq_true, some.injEq, mem_cons, Prod.mk.injEq, true_and]
      constructor
      · exact fun h => .inl h.symm
      · rintro (h | h)
        · exact h.symm
        · exact absurd ⟨(k, v), h, rfl⟩ nodup.1
    · have hb : (k == k') = false := by simpa using hk
      simp only [lookup_cons, hb, mem_cons, Prod.mk.injEq, hk, false_and, false_or]
      exact ih nodup.2

theorem mem_entries_iff (m : OrderedMap K V) (k : K) (v : V) : (k, v) ∈ m.entries ↔ m.get? k = some v :=
  (lookup_eq_some_iff_mem m.keys_nodup k v).symm

/-- What is not among the first entries stays. -/
theorem get?_dropFirst {m : OrderedMap K V} {k : K} {v : V} (has : m.get? k = some v)
    {count : Nat} (later : (k, v) ∉ m.entries.take count) : (m.dropFirst count).get? k = some v := by
  rw [← mem_entries_iff] at has ⊢
  rw [← take_append_drop count m.entries, mem_append] at has
  exact has.resolve_left later

section
variable (m : OrderedMap K V)
include m

theorem mem_values_iff (v : V) : v ∈ m.values ↔ ∃ k, m.get? k = some v := by
  simp only [values, List.mem_map, Prod.exists, exists_eq_right, mem_entries_iff]

theorem mem_keys_iff (k : K) : k ∈ m.keys ↔ ∃ v, m.get? k = some v := by
  simp only [keys, List.mem_map, Prod.exists, exists_and_right, exists_eq_right, mem_entries_iff]

theorem has_iff (k : K) : m.has k = true ↔ ∃ v, m.get? k = some v := by
  rw [has, isSome_iff_exists]

@[simp] theorem has_eq_false_iff (k : K) : m.has k = false ↔ m.get? k = none := by
  simp [has]

end

@[simp] theorem get?_empty (k : K) : (empty : OrderedMap K V).get? k = none := rfl

section
variable (m : OrderedMap K V)
include m

theorem mem_set_entries (k k' : K) (v v' : V) : (k', v') ∈ (m.set k v).entries ↔
      (k' = k ∧ v' = v) ∨ (k' ≠ k ∧ (k', v') ∈ m.entries) := by
  unfold set
  split
  · next hmem =>
    simp only [replaceEntry, List.mem_map, Prod.exists]
    constructor
    · rintro ⟨a, b, hab, h⟩
      by_cases ha : a = k
      · rw [if_pos ha] at h
        cases h
        exact .inl ⟨rfl, rfl⟩
      · rw [if_neg ha] at h
        cases h
        exact .inr ⟨ha, hab⟩
    · rintro (⟨rfl, rfl⟩ | ⟨hne, h⟩)
      · obtain ⟨⟨a, b⟩, hab, ha⟩ := mem_map.mp hmem
        exact ⟨a, b, hab, by simp only at ha; rw [if_pos ha]⟩
      · exact ⟨k', v', h, if_neg hne⟩
  · next hmem =>
    simp only [mem_append, mem_singleton, Prod.mk.injEq]
    constructor
    · rintro (h | h)
      · exact .inr ⟨fun he => hmem (mem_map.mpr ⟨(k', v'), h, he⟩), h⟩
      · exact .inl h
    · rintro (h | h)
      · exact .inr h
      · exact .inl h.2

@[simp] theorem get?_set_self (k : K) (v : V) : (m.set k v).get? k = some v := by
  rw [← mem_entries_iff, mem_set_entries]
  exact .inl ⟨rfl, rfl⟩

theorem get?_set_of_ne {k k' : K} (v : V) (h : k' ≠ k) :
    (m.set k v).get? k' = m.get? k' := by
  apply Option.ext
  intro v'
  rw [← mem_entries_iff, ← mem_entries_iff, mem_set_entries]
  simp [h]

theorem get?_set (k k' : K) (v : V) :
    (m.set k v).get? k' = if k' = k then some v else m.get? k' := by
  split
  · next h => rw [h, get?_set_self]
  · next h => exact get?_set_of_ne m v h

theorem get?_delete (k k' : K) :
    (m.delete k).get? k' = if k' = k then none else m.get? k' := by
  apply Option.ext
  intro v
  rw [← mem_entries_iff]
  simp only [delete, mem_filter, decide_eq_true_eq]
  split
  · next h => simp [h]
  · next h => rw [mem_entries_iff]; simp [h]

@[simp] theorem get?_delete_self (k : K) : (m.delete k).get? k = none := by
  rw [get?_delete, if_pos rfl]

theorem get?_delete_of_ne {k k' : K} (h : k' ≠ k) :
    (m.delete k).get? k' = m.get? k' := by
  rw [get?_delete, if_neg h]

variable {m} in
theorem kept_of_delete {k k' : K} {v : V} (kept : (m.delete k).get? k' = some v) :
    k' ≠ k ∧ m.get? k' = some v := by
  rw [get?_delete] at kept
  split at kept
  · cases kept
  · next apart => exact ⟨apart, kept⟩

end

/-- A symmetric relation between the values of different keys, read off the map or
off the list of values. -/
theorem pairwise_values_iff {R : V → V → Prop} (symm : ∀ v v', R v v' → R v' v) (m : OrderedMap K V) :
    m.values.Pairwise R ↔ ∀ k k' v v', m.get? k = some v → m.get? k' = some v' → k ≠ k' → R v v' := by
  unfold values
  rw [pairwise_map]
  constructor
  · intro pairwise k k' v v' hv hv' hne
    rw [← mem_entries_iff] at hv hv'
    have : Std.Symm (fun a b : K × V => R a.2 b.2) := ⟨fun a b h => symm a.2 b.2 h⟩
    exact pairwise.forall hv hv' fun h => hne (congrArg Prod.fst h)
  · intro related
    refine (pairwise_map.mp m.keys_nodup).imp_of_mem ?_
    intro a b ha hb hne
    exact related a.1 b.1 a.2 b.2 ((m.mem_entries_iff a.1 a.2).mp ha) ((m.mem_entries_iff b.1 b.2).mp hb) hne

/-- Storing every pair of a list, later pairs overwriting earlier ones. -/
def setAll (m : OrderedMap K V) (pairs : List (K × V)) : OrderedMap K V :=
  pairs.foldl (fun acc e => acc.set e.1 e.2) m

@[simp] theorem setAll_nil (m : OrderedMap K V) : m.setAll [] = m := rfl

@[simp] theorem setAll_cons (m : OrderedMap K V) (e : K × V) (pairs : List (K × V)) :
    m.setAll (e :: pairs) = (m.set e.1 e.2).setAll pairs := rfl

/-- When the stored pairs agree with each other and with what the map holds, nothing
is overwritten by a different value: the result is the union of the two relations. -/
theorem get?_setAll (pairs : List (K × V)) (m : OrderedMap K V)
    (agree : ∀ k v v', (k, v) ∈ pairs → (k, v') ∈ pairs ∨ m.get? k = some v' → v = v')
    (k : K) (v : V) :
    (m.setAll pairs).get? k = some v ↔ (k, v) ∈ pairs ∨ m.get? k = some v := by
  induction pairs generalizing m with
  | nil => simp
  | cons e rest ih =>
    obtain ⟨a, b⟩ := e
    have step : ∀ k' v', (m.set a b).get? k' = some v' ↔ (k' = a ∧ v' = b) ∨ m.get? k' = some v' := by
      intro k' v'
      rw [get?_set]
      by_cases hk : k' = a
      · subst hk
        rw [if_pos rfl]
        constructor
        · intro h
          exact .inl ⟨rfl, (Option.some.inj h).symm⟩
        · rintro (⟨-, rfl⟩ | h)
          · rfl
          · rw [agree k' b v' (by simp) (.inr h)]
      · simp [hk]
    rw [setAll_cons, ih]
    · rw [step, mem_cons, Prod.mk.injEq]
      tauto
    · intro k' v₁ v₂ h₁ h₂
      refine agree k' v₁ v₂ (mem_cons_of_mem _ h₁) ?_
      rcases h₂ with h₂ | h₂
      · exact .inl (mem_cons_of_mem _ h₂)
      · rcases (step k' v₂).mp h₂ with ⟨rfl, rfl⟩ | h
        · exact .inl (by simp)
        · exact .inr h

/-- Storing pairs with new and different keys adds them in their order. -/
theorem setAll_entries (pairs : List (K × V)) (m : OrderedMap K V)
    (distinct : (m.entries ++ pairs).map Prod.fst |>.Nodup) :
    (m.setAll pairs).entries = m.entries ++ pairs := by
  induction pairs generalizing m with
  | nil => simp
  | cons e rest ih =>
    have fresh : e.1 ∉ m.entries.map Prod.fst := by
      rw [map_append, map_cons, nodup_append] at distinct
      intro member
      exact distinct.2.2 _ member _ mem_cons_self rfl
    have added : (m.set e.1 e.2).entries = m.entries ++ [e] := by
      rw [set, dif_neg fresh]
    rw [setAll_cons, ih _ (by rwa [added, append_assoc]), added, append_assoc, singleton_append]

theorem has_setAll (pairs : List (K × V)) (m : OrderedMap K V) (k : K) :
    (m.setAll pairs).has k = true ↔ k ∈ pairs.map Prod.fst ∨ m.has k = true := by
  induction pairs generalizing m with
  | nil => simp
  | cons e rest ih =>
    rw [setAll_cons, ih, has, get?_set, map_cons, mem_cons, has]
    by_cases here : k = e.1 <;> simp [here]

theorem mem_of_get?_setAll {pairs : List (K × V)} {m : OrderedMap K V} {k : K} {v : V}
    (found : (m.setAll pairs).get? k = some v) : (k, v) ∈ pairs ∨ m.get? k = some v := by
  induction pairs generalizing m with
  | nil => exact .inr found
  | cons e rest ih =>
    rcases ih found with member | before
    · exact .inl (mem_cons_of_mem e member)
    · rw [get?_set] at before
      split at before
      · next here =>
        cases before
        rw [here]
        exact .inl mem_cons_self
      · exact .inr before

/-- Pairs with different keys are all stored. -/
theorem get?_setAll_of_nodup {pairs : List (K × V)} (nodup : (pairs.map Prod.fst).Nodup)
    (m : OrderedMap K V) (k : K) : (m.setAll pairs).get? k = (pairs.lookup k).or (m.get? k) := by
  induction pairs generalizing m with
  | nil => rfl
  | cons e rest ih =>
    rw [map_cons, nodup_cons] at nodup
    rw [setAll_cons, ih nodup.2, get?_set, lookup_cons]
    by_cases here : k = e.1
    · have absent : rest.lookup k = none := by
        refine eq_none_iff_forall_not_mem.mpr fun v found => nodup.1 ?_
        exact mem_map.mpr ⟨(k, v), (lookup_eq_some_iff_mem nodup.2 k v).mp found, here⟩
      simp [here ▸ absent, here]
    · have different : (k == e.1) = false := by simpa using here
      simp [here, different]

theorem entries_setAll_empty {pairs : List (K × V)} (nodup : (pairs.map Prod.fst).Nodup) :
    (empty.setAll pairs).entries = pairs :=
  setAll_entries pairs empty nodup

/-- A map that is computed entry by entry stays so when an entry is stored in both. -/
theorem set_entries_map {m : OrderedMap K V} {computed : OrderedMap K W} {f : K → V → W}
    (same : computed.entries = m.entries.map fun e => (e.1, f e.1 e.2)) (k : K) (v : V) :
    (computed.set k (f k v)).entries = (m.set k v).entries.map fun e => (e.1, f e.1 e.2) := by
  have keys : computed.entries.map Prod.fst = m.entries.map Prod.fst := by
    rw [same, List.map_map]
    rfl
  by_cases known : k ∈ m.entries.map Prod.fst
  · rw [set, set, dif_pos (keys ▸ known), dif_pos known]
    simp only [replaceEntry, same, List.map_map]
    refine List.map_congr_left fun e _ => ?_
    by_cases here : e.1 = k <;> simp [here]
  · rw [set, set, dif_neg (keys ▸ known), dif_neg known]
    simp [same]

theorem length_set (m : OrderedMap K V) (k : K) (v : V) :
    (m.set k v).entries.length = m.entries.length + if m.has k then 0 else 1 := by
  have known : m.has k = true ↔ k ∈ m.entries.map Prod.fst := by
    rw [has_iff, ← mem_keys_iff]
    rfl
  rw [set]
  split
  · next member => simp [replaceEntry, known.mpr member]
  · next member => simp [show m.has k = false by simpa using mt known.mp member]

/-- The sum over the entries when one is stored. -/
theorem sum_set (m : OrderedMap K V) (f : K → V → Nat) (k : K) (v : V) :
    ((m.set k v).entries.map fun e => f e.1 e.2).sum + ((m.get? k).map (f k)).getD 0 =
      (m.entries.map fun e => f e.1 e.2).sum + f k v := by
  obtain ⟨entries, nodup⟩ := m
  by_cases known : k ∈ entries.map Prod.fst
  · rw [set, dif_pos known, get?]
    simp only [replaceEntry]
    induction entries with
    | nil => cases known
    | cons e rest ih =>
      obtain ⟨a, old⟩ := e
      rw [map_cons, nodup_cons] at nodup
      by_cases here : a = k
      · -- the key is not among the rest
        subst here
        have others : rest.map (fun x => if x.1 = a then (a, v) else x) = rest := by
          refine (map_congr_left fun x member => ?_).trans (map_id rest)
          refine if_neg fun same => nodup.1 ?_
          exact mem_map.mpr ⟨x, member, same⟩
        simp only [map_cons, if_true, others, lookup_cons, beq_self_eq_true, map_some, getD_some, sum_cons]
        omega
      · have different : (k == a) = false := by simpa using Ne.symm here
        have later : k ∈ rest.map Prod.fst := by
          rw [map_cons, mem_cons] at known
          exact known.resolve_left (Ne.symm here)
        have smaller := ih nodup.2 later
        simp only [map_cons, if_neg here, lookup_cons, different, sum_cons] at smaller ⊢
        omega
  · have absent : entries.lookup k = none := by
      refine eq_none_iff_forall_not_mem.mpr fun v found => known ?_
      exact mem_map.mpr ⟨(k, v), (lookup_eq_some_iff_mem nodup k v).mp found, rfl⟩
    rw [set, dif_neg known, get?, absent]
    simp

end Lookup

end OrderedMap

end CodexHost.Foundation
