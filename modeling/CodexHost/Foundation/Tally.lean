import CodexHost.Foundation.OrderedMap

/-!
# Tallies

An ordered map of sums: each pair adds its amount under its key. The sums of a tally add up to the sum of
all amounts, whatever the keys are, and it has one sum for each key.
-/
namespace CodexHost.Foundation.OrderedMap
open List

variable {K M : Type} [DecidableEq K]

theorem replaceEntry_of_not_mem {k : K} {v : M} {entries : List (K × M)}
    (absent : k ∉ entries.map Prod.fst) : replaceEntry k v entries = entries := by
  refine (map_congr_left fun e member => ?_).trans (map_id entries)
  exact if_neg fun same => absent (mem_map.mpr ⟨e, member, same⟩)

theorem keys_set (m : OrderedMap K M) (k : K) (v : M) :
    (m.set k v).keys = if k ∈ m.keys then m.keys else m.keys ++ [k] := by
  unfold set keys
  by_cases known : k ∈ m.entries.map Prod.fst
  · rw [dif_pos known, if_pos known, replaceEntry_keys]
  · rw [dif_neg known, if_neg known, map_append]
    rfl

variable [AddCommMonoid M]

/-- Adds an amount under a key. -/
def add (m : OrderedMap K M) (k : K) (amount : M) : OrderedMap K M :=
  m.set k ((m.get? k).getD 0 + amount)

/-- Adds the amount of each pair under its key. -/
def tally (m : OrderedMap K M) (pairs : List (K × M)) : OrderedMap K M :=
  pairs.foldl (fun acc pair => acc.add pair.1 pair.2) m

section
variable (m : OrderedMap K M)
include m

theorem tally_concat (pairs : List (K × M)) (k : K) (amount : M) :
    m.tally (pairs ++ [(k, amount)]) = (m.tally pairs).add k amount := by
  rw [tally, foldl_append]
  rfl

theorem sum_add (k : K) (amount : M) :
    (m.add k amount).values.sum = m.values.sum + amount := by
  obtain ⟨entries, nodup⟩ := m
  unfold add get? set values
  by_cases known : k ∈ entries.map Prod.fst
  · rw [dif_pos known]
    change ((replaceEntry k ((entries.lookup k).getD 0 + amount) entries).map Prod.snd).sum = _
    induction entries with
    | nil => cases known
    | cons e rest ih =>
      obtain ⟨a, old⟩ := e
      rw [map_cons, nodup_cons] at nodup
      by_cases here : a = k
      · -- the key is not among the rest
        subst here
        have others := @replaceEntry_of_not_mem K M _ a (old + amount) rest nodup.1
        simp only [replaceEntry] at others
        simp only [replaceEntry, lookup_cons, beq_self_eq_true, Option.getD_some, map_cons,
          if_true, others, sum_cons]
        rw [add_assoc, add_assoc, add_comm amount]
      · have different : (k == a) = false := by simpa using Ne.symm here
        have later : k ∈ rest.map Prod.fst := by
          rw [map_cons, mem_cons] at known
          exact known.resolve_left (Ne.symm here)
        have smaller := ih nodup.2 later
        simp only [replaceEntry] at smaller
        simp only [replaceEntry, lookup_cons, different, map_cons, if_neg here, sum_cons, smaller, add_assoc]
  · have absent : entries.lookup k = none := by
      refine Option.eq_none_iff_forall_not_mem.mpr fun v found => known ?_
      exact mem_map.mpr ⟨(k, v), (lookup_eq_some_iff_mem nodup k v).mp found, rfl⟩
    rw [dif_neg known]
    simp only [absent, Option.getD_none, zero_add, map_append, map_cons, map_nil,
      sum_append, sum_cons, sum_nil, add_zero]

/-- The sums of a tally add up to the sum of the amounts. -/
theorem sum_tally (pairs : List (K × M)) :
    (m.tally pairs).values.sum = m.values.sum + (pairs.map Prod.snd).sum := by
  induction pairs using List.reverseRecOn with
  | nil => exact (add_zero _).symm
  | append_singleton before last ih =>
    rw [tally_concat, sum_add, ih, map_append, sum_append, add_assoc]
    congr 2
    exact (sum_singleton).symm

theorem mem_keys_tally (pairs : List (K × M)) (k : K) :
    k ∈ (m.tally pairs).keys ↔ k ∈ m.keys ∨ k ∈ pairs.map Prod.fst := by
  induction pairs using List.reverseRecOn with
  | nil => simp [tally]
  | append_singleton before last ih =>
    rw [tally_concat, add, keys_set, map_append, mem_append]
    have here : k ∈ [last].map Prod.fst ↔ k = last.1 := mem_singleton
    rw [here]
    split
    · next known =>
      rw [ih]
      constructor
      · tauto
      · rintro (old | new | rfl)
        · exact .inl old
        · exact .inr new
        · exact ih.mp known
    · rw [mem_append, mem_singleton, ih]
      tauto

end

/-- A tally has one sum for each key. -/
theorem length_tally (pairs : List (K × M)) :
    ((empty : OrderedMap K M).tally pairs).entries.length = (pairs.map Prod.fst).dedup.length := by
  rw [← length_map Prod.fst]
  refine ((perm_ext_iff_of_nodup (keys_nodup _) (nodup_dedup _)).mpr fun k => ?_).length_eq
  refine (mem_keys_tally empty pairs k).trans ?_
  simp

/-- What holds of each amount, whatever is added to it, holds of each sum. -/
theorem tally_forall {P : M → Prop} (grows : ∀ sum amount, P amount → P (sum + amount))
    {pairs : List (K × M)} (amounts : ∀ pair ∈ pairs, P pair.2) :
    ∀ sum ∈ ((empty : OrderedMap K M).tally pairs).values, P sum := by
  induction pairs using List.reverseRecOn with
  | nil => exact nofun
  | append_singleton before last ih =>
    intro sum member
    rw [tally_concat, add, mem_values_iff] at member
    obtain ⟨k, is⟩ := member
    rw [get?_set] at is
    split at is
    · cases is
      exact grows _ _ (amounts last (mem_append_right _ mem_cons_self))
    · refine ih (fun pair inside => amounts pair (mem_append_left _ inside)) sum ?_
      exact (mem_values_iff _ sum).mpr ⟨k, is⟩

end CodexHost.Foundation.OrderedMap
