import CodexHost.Guarantees.FileChanges
import CodexHost.Guarantees.SectionMerge

/-!
# Listed section placements

Removing a Thread leaves its placement in the store. The listing drops it and follows its anchor, so
that placements which were anchored in an order are listed anchored in the rest of it. Saving puts
the planned placements in the store, and removing takes a record out of it.
-/
namespace CodexHost.Guarantees.Sections
open Foundation Source.MappingStore Source.HostRuntime OrderedMap Command List
open Source.SharedContracts

def inSection (sectionId : String) (placements : List StoredSectionPlacementV1) :
    List StoredSectionPlacementV1 :=
  placements.filter (·.section.id = sectionId)

/-- The order of a section that Desktop shows. -/
def order (host : SectionHost) (sectionId : String) : List String :=
  mergeSectionOrder (host.official.order sectionId) (inSection sectionId (listSectionPlacements host.store))

variable {store : StoreState}

theorem once_unique {placements : List StoredSectionPlacementV1} (once : (ids placements).Nodup)
    {a b : StoredSectionPlacementV1} (first : a ∈ placements) (second : b ∈ placements)
    (same : a.hostThreadId = b.hostThreadId) : a = b :=
  inj_on_of_nodup_map once first second same

/-- The removed placements, by their Threads. -/
theorem removedSuccessors_get? (once : (ids store.sectionPlacements).Nodup) {id : String}
    {next : Option String} : (removedSuccessors store).get? id = some next ↔
      ∃ placement ∈ store.sectionPlacements, store.records.has placement.hostThreadId = false ∧
        placement.hostThreadId = id ∧ placement.beforeThreadId = next := by
  rw [removedSuccessors, get?_setAll]
  · simp only [mem_map, mem_filter, Prod.mk.injEq, get?_empty, or_false, reduceCtorEq, Bool.not_eq_true']
    constructor
    · rintro ⟨placement, ⟨member, removed⟩, same, anchor⟩
      exact ⟨placement, member, removed, same, anchor⟩
    · rintro ⟨placement, member, removed, same, anchor⟩
      exact ⟨placement, ⟨member, removed⟩, same, anchor⟩
  · simp only [mem_map, mem_filter, Prod.mk.injEq, get?_empty, or_false, reduceCtorEq]
    rintro k v v' ⟨a, ⟨first, -⟩, rfl, rfl⟩ ⟨b, ⟨second, -⟩, same, rfl⟩
    rw [once_unique once second first same]

theorem removedSuccessors_length {names : List String} (distinct : names.Nodup)
    (removed : ∀ id ∈ names, ∃ placement ∈ store.sectionPlacements,
      store.records.has placement.hostThreadId = false ∧ placement.hostThreadId = id) :
    names.length ≤ (removedSuccessors store).entries.length := by
  have inside : names ⊆ (removedSuccessors store).keys := by
    intro id member
    obtain ⟨placement, here, gone, rfl⟩ := removed id member
    rw [mem_keys_iff, ← has_iff, removedSuccessors, has_setAll]
    refine .inl (mem_map.mpr ⟨_, mem_map_of_mem (mem_filter.mpr ⟨here, ?_⟩), rfl⟩)
    simp [gone]
  have size := (subperm_of_subset distinct inside).length_le
  rwa [OrderedMap.keys, length_map] at size

/-- The chain of removed successors ends at the next Thread that was not removed. -/
theorem followRemoved_find {removed : OrderedMap HostThreadId (Option String)} {keep : String → Bool}
    (back : List String) : ∀ (turns : Nat) (visited front : List String),
    (front ++ back).Nodup → (∀ id ∈ back, id ∉ visited) →
    (∀ id ∈ back, keep id = true → removed.get? id = none) →
    (∀ id ∈ back, keep id = false → removed.get? id = some (successor (front ++ back) id)) →
    (back.filter fun id => !keep id).length < turns →
    followRemoved removed turns visited back.head? = back.find? keep := by
  induction back with
  | nil =>
    intro turns visited front _ _ _ _ enough
    cases turns <;> rfl
  | cons id back ih =>
    intro turns visited front nodup fresh present gone enough
    cases turns with
    | zero => omega
    | succ turns =>
      rw [head?_cons, followRemoved, find?_cons]
      cases kept : keep id with
      | true => rw [present id mem_cons_self kept]
      | false =>
        have apart : id ∉ front := fun twice => by
          rw [nodup_append] at nodup
          exact nodup.2.2 id twice id mem_cons_self rfl
        have once : id ∉ back := by
          rw [nodup_append, nodup_cons] at nodup
          exact nodup.2.1.1
        rw [gone id mem_cons_self kept, successor_split apart]
        simp only
        rw [if_neg (fresh id mem_cons_self)]
        rw [append_cons] at nodup gone
        rw [filter_cons_of_pos (by simp [kept]), length_cons] at enough
        refine ih turns (id :: visited) (front ++ [id]) nodup ?_ ?_ ?_ (by omega)
        · intro other later seen
          rcases mem_cons.mp seen with rfl | before
          · exact once later
          · exact fresh other (mem_cons_of_mem id later) before
        · exact fun other later => present other (mem_cons_of_mem id later)
        · exact fun other later => gone other (mem_cons_of_mem id later)

theorem listSectionPlacements_ids : ids (listSectionPlacements store) =
    (ids store.sectionPlacements).filter store.records.has := by
  rw [listSectionPlacements, ids, ids, map_map, filter_map]
  rfl

theorem listSectionPlacements_once (once : (ids store.sectionPlacements).Nodup) :
    (ids (listSectionPlacements store)).Nodup := by
  rw [listSectionPlacements_ids]
  exact once.filter _

theorem listSectionPlacements_live {placement : StoredSectionPlacementV1}
    (member : placement ∈ listSectionPlacements store) :
    store.records.has placement.hostThreadId = true := by
  have listed : placement.hostThreadId ∈ ids (listSectionPlacements store) := mem_map_of_mem member
  rw [listSectionPlacements_ids] at listed
  exact (mem_filter.mp listed).2

/-- Placements of Threads of the store are listed as they are. -/
theorem listSectionPlacements_all
    (live : ∀ placement ∈ store.sectionPlacements, store.records.has placement.hostThreadId = true) :
    listSectionPlacements store = store.sectionPlacements := by
  have none : (store.sectionPlacements.filter fun placement =>
      !store.records.has placement.hostThreadId) = [] := by
    rw [filter_eq_nil_iff]
    intro placement member
    simp [live placement member]
  have same : ∀ before, followRemoved (removedSuccessors store)
      ((removedSuccessors store).entries.length + 1) [] before = before := by
    intro before
    have empty : removedSuccessors store = OrderedMap.empty := by
      rw [removedSuccessors, none]
      rfl
    rw [empty]
    cases before <;> rfl
  rw [listSectionPlacements, filter_eq_self.mpr live]
  simp only [same]
  exact map_id _

/-- Threads that were not removed. -/
def kept (store : StoreState) (id : String) : Bool :=
  decide (id ∉ ids store.sectionPlacements) || store.records.has id

/-- Anchored placements of a section are listed anchored in what is left of its order. -/
theorem listed_anchored (once : (ids store.sectionPlacements).Nodup) {sectionId : String}
    {officialIds whole : List String}
    (apart : ∀ id ∈ officialIds, id ∉ ids store.sectionPlacements)
    (anchored : Anchored whole officialIds (inSection sectionId store.sectionPlacements)) :
    Anchored (whole.filter (kept store)) officialIds (inSection sectionId (listSectionPlacements store)) := by
  have listed : inSection sectionId (listSectionPlacements store) =
      ((inSection sectionId store.sectionPlacements).filter
        (store.records.has ·.hostThreadId)).map fun placement =>
          { placement with
            beforeThreadId := followRemoved (removedSuccessors store)
              ((removedSuccessors store).entries.length + 1) [] placement.beforeThreadId } := by
    rw [inSection, listSectionPlacements, filter_map, filter_filter, inSection, filter_filter]
    congr 1
    exact filter_congr fun placement _ => Bool.and_comm _ _
  have within : ∀ id, id ∈ ids (inSection sectionId store.sectionPlacements) →
      id ∈ ids store.sectionPlacements := fun id member =>
    (filter_sublist.map _).subset member
  have ids_listed : ids (inSection sectionId (listSectionPlacements store)) =
      (ids (inSection sectionId store.sectionPlacements)).filter store.records.has := by
    rw [listed, ids, ids, map_map, filter_map]
    rfl
  -- In the order, the Threads that are not official are placed in this section.
  have placed : ∀ id ∈ whole, id ∈ ids store.sectionPlacements →
      id ∈ ids (inSection sectionId store.sectionPlacements) := by
    intro id member stored
    by_contra elsewhere
    have official : id ∈ officialIds.filter (· ∉ ids (inSection sectionId store.sectionPlacements)) := by
      rw [anchored.official]
      exact mem_filter.mpr ⟨member, by simpa using elsewhere⟩
    exact apart id (mem_of_mem_filter official) stored
  refine ⟨anchored.nodup.filter _, ?_, ?_, ?_⟩
  · rw [ids_listed]
    exact anchored.once.filter _
  · have same : officialIds.filter (· ∉ ids (inSection sectionId (listSectionPlacements store))) =
        officialIds.filter (· ∉ ids (inSection sectionId store.sectionPlacements)) := by
      refine filter_congr fun id official => ?_
      have out : id ∉ ids (inSection sectionId store.sectionPlacements) :=
        fun member => apart id official (within id member)
      simp [ids_listed, out]
    rw [same, anchored.official, filter_filter]
    refine filter_congr fun id member => ?_
    rw [ids_listed, Bool.eq_iff_iff]
    simp only [kept, Bool.and_eq_true, Bool.or_eq_true, decide_eq_true_iff, mem_filter]
    tauto
  · intro placement member
    rw [listed] at member
    obtain ⟨given, here, rfl⟩ := mem_map.mp member
    obtain ⟨stored, live⟩ := mem_filter.mp here
    obtain ⟨inside, anchor⟩ := anchored.placed given stored
    have isKept : kept store given.hostThreadId = true := by simp [kept, live]
    refine ⟨mem_filter.mpr ⟨inside, isKept⟩, ?_⟩
    obtain ⟨front, back, rfl, notFront, notBack⟩ := split_of_mem anchored.nodup inside
    show followRemoved _ _ _ given.beforeThreadId = successor _ given.hostThreadId
    rw [anchor, successor_split notFront, successor_filter notFront isKept]
    have nodup := anchored.nodup
    rw [append_cons] at nodup
    refine followRemoved_find back _ [] (front ++ [given.hostThreadId]) nodup (by simp) ?_ ?_ ?_
    · intro id later isKept
      cases found : (removedSuccessors store).get? id with
      | none => rfl
      | some next =>
        obtain ⟨other, known, removed, rfl, -⟩ := (removedSuccessors_get? once).mp found
        have isPlaced : other.hostThreadId ∈ ids store.sectionPlacements := mem_map_of_mem known
        simp [kept, isPlaced, removed] at isKept
    · intro id later notKept
      simp only [kept, Bool.or_eq_false_iff, decide_eq_false_iff_not, not_not] at notKept
      have member : id ∈ front ++ given.hostThreadId :: back := by simp [later]
      obtain ⟨other, known, rfl⟩ := mem_map.mp (placed id member notKept.1)
      rw [removedSuccessors_get? once]
      refine ⟨other, mem_of_mem_filter known, notKept.2, rfl, ?_⟩
      rw [(anchored.placed other known).2, append_cons]
    · refine Nat.lt_succ_of_le (removedSuccessors_length ?_ ?_)
      · rw [nodup_append] at nodup
        exact nodup.2.1.filter _
      · intro id member
        obtain ⟨-, notKept⟩ := mem_filter.mp member
        simp only [kept, Bool.not_eq_true', Bool.or_eq_false_iff, decide_eq_false_iff_not, not_not] at notKept
        obtain ⟨other, known, rfl⟩ := mem_map.mp notKept.1
        exact ⟨other, known, notKept.2, rfl⟩

section Effects
variable {w : World}

/-- The command leaves the store in memory alone. -/
abbrev KeepsStore {α : Type} (c : StoreCommand α) : Prop :=
  ∀ store, Command.Keeps (fun w : World => w.state.store = store) c

theorem fileStep_keepsStore (effect : Disk → Disk) : KeepsStore (fileStep effect) := fun store =>
  keeps_ioStep (I := fun state : StoreWorld => state.store = store) (fun _ same => same)
    fun _ _ same => same

theorem writeTemporaryFile_keepsStore : KeepsStore writeTemporaryFile := fun store =>
  keeps_bind (fileStep_keepsStore id store) fun _ =>
    keeps_bind (fileStep_keepsStore id store) fun _ =>
      keeps_bind (fileStep_keepsStore id store) fun _ => fileStep_keepsStore id store

theorem replaceFile_keepsStore (target : HostThreadId) (record : StoredThreadRecordV1) :
    KeepsStore (replaceFile target record false) := by
  intro store
  unfold replaceFile
  simp only [Bool.false_eq_true, if_false]
  exact keeps_tryCatch (keeps_bind (fileStep_keepsStore id store) fun _ =>
      keeps_bind (writeTemporaryFile_keepsStore store) fun _ => fileStep_keepsStore _ store)
    fun _ => keeps_throw _

/-- Saving stores the planned placements or nothing. -/
theorem replaceSectionPlacements_store {placements : List StoredSectionPlacementV1}
    (live : ∀ placement ∈ placements, w.state.store.records.has placement.hostThreadId = true) :
    (replaceSectionPlacements placements).wp
      (fun _ w' => w'.state.store = { w.state.store with sectionPlacements := placements })
      (fun _ w' => w'.state.store = w.state.store) w := by
  unfold replaceSectionPlacements
  simp only [wp_bind, wp_readStore, filter_eq_self.mpr live, wp_tryCatch, wp_throw]
  have parsed : parseSectionPlacements placements = none ∨
      parseSectionPlacements placements = some placements := by
    unfold parseSectionPlacements
    split <;> simp
  rcases parsed with invalid | valid
  · rw [invalid]
    exact rfl
  · rw [valid]
    simp only [wp_bind, wp_modifyStore]
    refine wp_writeTemporaryFile (fun fuse _ => wp_fileStep (fun fuse' _ => rfl) fun _ => rfl)
      fun _ => rfl

/-- The record of a Thread is gone; its placement is still there. -/
def Removed (id : HostThreadId) (before after : StoreState) : Prop :=
  after.sectionPlacements = before.sectionPlacements ∧
    ∀ other, after.records.has other = (before.records.has other && other ≠ id)

theorem removed_delete (id : HostThreadId) (store : StoreState) :
    Removed id store { store with records := store.records.delete id } := by
  refine ⟨rfl, fun other => ?_⟩
  show (store.records.delete id).has other = _
  rw [OrderedMap.has, get?_delete, OrderedMap.has]
  by_cases same : other = id <;> simp [same]

theorem rebuild_removed {id : HostThreadId} {before : StoreState} (w' : World)
    (removed : Removed id before w'.state.store) :
    rebuild.wp (fun _ w'' => Removed id before w''.state.store)
      (fun _ w'' => w''.state.store = before ∨ Removed id before w''.state.store) w' := by
  unfold rebuild
  simp only [wp_bind, wp_readStore, wp_modifyStore, wp_lift]
  exact ⟨fun _ _ => removed, fun _ _ => .inr removed⟩

/-- A removal that fails left the store alone, or the record was gone already. -/
theorem remove_store (id : HostThreadId) : (remove id).wp
    (fun _ w' => Removed id w.state.store w'.state.store)
    (fun _ w' => w'.state.store = w.state.store ∨ Removed id w.state.store w'.state.store) w := by
  unfold remove
  simp only [wp_bind, wp_readStore]
  cases stored : w.state.store.records.get? id with
  | none =>
    refine ⟨rfl, fun other => ?_⟩
    by_cases same : other = id
    · simp [same, OrderedMap.has, stored]
    · simp [same]
  | some current =>
    simp only [wp_bind, wp_tryCatch, wp_throw, wp_modifyStore]
    have untouched : ∀ {α : Type} {Q : α → World → Prop} {E : StoreError → World → Prop}
        {c : StoreCommand α} {w' : World}, KeepsStore c → w'.state.store = w.state.store →
        (∀ a w'', w''.state.store = w.state.store → Q a w'') →
        (∀ e w'', w''.state.store = w.state.store → E e w'') → c.wp Q E w' :=
      fun keeps same returned thrown =>
        wp_mono (keeps w.state.store _ same) returned thrown
    refine untouched (fileStep_keepsStore _) rfl (fun _ w₁ same₁ => ?_) fun _ _ => .inl
    refine untouched (fileStep_keepsStore _) same₁ (fun _ w₂ same₂ => ?_) fun _ w₂ same₂ => ?_
    · refine untouched (fileStep_keepsStore _) same₂ (fun _ w₃ same₃ => ?_) fun _ w₃ same₃ => ?_
      · apply rebuild_removed
        rw [same₃]
        exact removed_delete id _
      · exact untouched (replaceFile_keepsStore _ _) same₃ (fun _ _ => .inl) fun _ _ => .inl
    · exact untouched (replaceFile_keepsStore _ _) same₂ (fun _ _ => .inl) fun _ _ => .inl

end Effects

end CodexHost.Guarantees.Sections
