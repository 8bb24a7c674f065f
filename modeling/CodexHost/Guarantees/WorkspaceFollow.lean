import CodexHost.Foundation.KeyedRows
import CodexHost.Foundation.Selection
import CodexHost.Foundation.Transition
import CodexHost.Source.WebServer.Workspaces

/-!
# What a follower of the workspaces holds

A follower and `list()` are compared as maps from workspace ids to rows. A row that is touched is told
as `list()` shows it, and is not told when it does not: so a follower agrees as long as no operation
hides a row that was shown, other than a change of the references or a deletion, and no row is
created hidden.
-/
namespace CodexHost.Guarantees.WorkspaceFollow
open Foundation Source.WebServer List Option Broadcast Follower

/-- What `list()` makes of a row. -/
def view (w : Workspaces) (row : WorkspaceView) : Option WorkspaceView :=
  match w.referenceGroups with
  | none => some row
  | some references =>
    if isVisible references row then some (visibleRow references w.referenceProjectless row) else none

/-- The row is in `list()`. -/
def Shows (w : Workspaces) (row : WorkspaceView) : Prop := (view w row).isSome = true

theorem list_eq (w : Workspaces) : w.list = w.items.filterMap (view w) := by
  unfold Workspaces.list view
  cases w.referenceGroups with
  | none => exact (filterMap_some).symm
  | some references =>
    simp only
    induction w.items with
    | nil => rfl
    | cons row rest ih =>
      rw [filter_cons, filterMap_cons]
      split
      · rw [map_cons, ih]
      · exact ih

theorem view_id {w : Workspaces} {row row' : WorkspaceView} (is : view w row = some row') :
    row'.workspaceId = row.workspaceId := by
  unfold view at is
  split at is
  · cases is
    rfl
  · split at is
    · cases is
      rfl
    · cases is

/-- Workspaces that have ids of their own. -/
structure Well (w : Workspaces) : Prop where
  unique : (w.items.map (·.workspaceId)).Nodup
  known : ∀ item ∈ w.items, item.workspaceId < w.nextId

abbrev rowAt (rows : List WorkspaceView) (workspaceId : Nat) : Option WorkspaceView :=
  rowOf (·.workspaceId) rows workspaceId

theorem rowAt_list {w : Workspaces} (well : Well w) (workspaceId : Nat) :
    rowAt w.list workspaceId = (rowAt w.items workspaceId).bind (view w) := by
  rw [list_eq]
  exact rowOf_filterMap (fun _ _ is => view_id is) well.unique workspaceId

theorem list_unique {w : Workspaces} (well : Well w) : (w.list.map (·.workspaceId)).Nodup := by
  have sublist : (w.list.map (·.workspaceId)).Sublist (w.items.map (·.workspaceId)) := by
    rw [list_eq]
    induction w.items with
    | nil => exact .slnil
    | cons row rest ih =>
      rw [filterMap_cons]
      cases shown : view w row with
      | none => exact ih.cons _
      | some row' =>
        rw [map_cons, map_cons, view_id shown]
        exact ih.cons_cons _
  exact well.unique.sublist sublist

theorem Well.modify {w : Workspaces} (well : Well w) (workspaceId : Nat)
    {change : WorkspaceView → WorkspaceView}
    (keeps : ∀ item, (change item).workspaceId = item.workspaceId) :
    Well (w.modify workspaceId change) := by
  have same (item : WorkspaceView) : (if item.workspaceId = workspaceId then change item
      else item).workspaceId = item.workspaceId := by
    split
    · exact keeps item
    · rfl
  constructor
  · rw [Workspaces.modify, List.map_map]
    exact (List.map_congr_left fun item _ => same item) ▸ well.unique
  · intro item member
    obtain ⟨item, known, rfl⟩ := List.mem_map.mp member
    rw [same]
    exact well.known item known

theorem rowAt_modify {w : Workspaces} {workspaceId : Nat} {change : WorkspaceView → WorkspaceView}
    (keeps : ∀ item, (change item).workspaceId = item.workspaceId) (other : Nat) :
    rowAt (w.modify workspaceId change).items other =
      if other = workspaceId then (rowAt w.items other).map change else rowAt w.items other := by
  have same (item : WorkspaceView) : (if item.workspaceId = workspaceId then change item
      else item).workspaceId = item.workspaceId := by
    split
    · exact keeps item
    · rfl
  have mapped := rowOf_map same w.items other
  refine mapped.trans ?_
  split
  · next same =>
    subst same
    refine map_congr fun row is => ?_
    rw [if_pos (key_of_rowOf is)]
  · next ne =>
    refine (map_congr fun row is => ?_).trans map_id'
    rw [if_neg (by rw [key_of_rowOf is]; exact ne)]

section Followers
variable {f : Follower}

theorem rowAt_upsert (f : Follower) (row : WorkspaceView) (workspaceId : Nat) :
    rowAt (f.upsert row).rows workspaceId =
      if workspaceId = row.workspaceId then some row else rowAt f.rows workspaceId := by
  unfold upsert
  split
  · next known =>
    have same (item : WorkspaceView) : (if item.workspaceId = row.workspaceId then row
        else item).workspaceId = item.workspaceId := by
      split
      · next is => exact is.symm
      · rfl
    refine (rowOf_map same f.rows workspaceId).trans ?_
    split
    · next is =>
      subst is
      obtain ⟨item, member, is⟩ := any_eq_true.mp known
      have found : rowAt f.rows row.workspaceId ≠ none := fun none =>
        rowOf_eq_none_iff.mp none (mem_map.mpr ⟨item, member, of_decide_eq_true is⟩)
      obtain ⟨item, is⟩ := ne_none_iff_exists'.mp found
      refine (congrArg _ is).trans ?_
      rw [map_some, if_pos (key_of_rowOf is)]
    · next ne =>
      refine (map_congr fun item is => ?_).trans map_id'
      rw [if_neg (by rw [key_of_rowOf is]; exact ne)]
  · rw [rowAt, rowOf]
    by_cases is : workspaceId = row.workspaceId
    · rw [find?_cons_of_pos (by simpa using is.symm), if_pos is]
    · rw [find?_cons_of_neg (by simpa using Ne.symm is), if_neg is]
      rfl

theorem upsert_unique (unique : (f.rows.map (·.workspaceId)).Nodup) (row : WorkspaceView) :
    ((f.upsert row).rows.map (·.workspaceId)).Nodup := by
  unfold upsert
  split
  · have same (item : WorkspaceView) : (if item.workspaceId = row.workspaceId then row
        else item).workspaceId = item.workspaceId := by
      split
      · next is => exact is.symm
      · rfl
    rw [List.map_map]
    exact (List.map_congr_left fun item _ => same item) ▸ unique
  · next unknown =>
    refine List.nodup_cons.mpr ⟨fun member => unknown ?_, unique⟩
    obtain ⟨item, member, is⟩ := List.mem_map.mp member
    exact List.any_eq_true.mpr ⟨item, member, by simpa using is⟩

theorem upsert_lists (f : Follower) (row : WorkspaceView) :
    (f.upsert row).pinned = f.pinned ∧ (f.upsert row).archived = f.archived := by
  unfold upsert
  split
  · exact ⟨rfl, rfl⟩
  · exact ⟨rfl, rfl⟩

/-- What a follower holds is what the registry shows, apart from one row. -/
structure SeesExcept (exempt : Nat → Prop) (w : Workspaces) (f : Follower) : Prop where
  unique : (f.rows.map (·.workspaceId)).Nodup
  rows : ∀ workspaceId, ¬exempt workspaceId → rowAt f.rows workspaceId = rowAt w.list workspaceId
  pinned : f.pinned = w.pinnedSessionIds
  archived : f.archived = w.archivedSessionIds

/-- What a follower holds is what the registry shows, as far as the map goes. -/
abbrev Sees (w : Workspaces) (f : Follower) : Prop := SeesExcept (fun _ => False) w f

theorem sees_baseline {w : Workspaces} (well : Well w) : Sees w (.baseline w) :=
  ⟨list_unique well, fun _ _ => rfl, rfl, rfl⟩

/-- A follower in the middle of an operation. -/
def ToldExcept (exempt : Nat → Prop) (f : Follower) (b : Broadcast) : Prop :=
  Well b.1 ∧ SeesExcept exempt b.1 (b.2.foldl Follower.receive f)

abbrev Told (f : Follower) (b : Broadcast) : Prop := ToldExcept (fun _ => False) f b

end Followers

variable {row : WorkspaceView}

section Touches
variable {f : Follower} {b : Broadcast} {now : Int} {workspaceId : Nat}
  {change : WorkspaceView → WorkspaceView} {exempt : Nat → Prop}

theorem list_modify (well : Well b.1) (keeps : ∀ item, (change item).workspaceId = item.workspaceId)
    (other : Nat) : rowAt (b.1.modify workspaceId change).list other =
      if other = workspaceId then
        (rowAt b.1.items other).bind fun item => view b.1 (change item)
      else rowAt b.1.list other := by
  rw [rowAt_list (well.modify workspaceId keeps), rowAt_modify keeps]
  split
  · exact bind_map
  · exact (rowAt_list well other).symm

/-- A row that is touched is told if it is shown; until then it may be exempt. -/
theorem ToldExcept.touch (told : ToldExcept (fun other => exempt other ∨ other = workspaceId) f b)
    (keeps : ∀ item, (change item).workspaceId = item.workspaceId) {item : WorkspaceView}
    (found : rowAt b.1.items workspaceId = some item)
    (shown : Shows b.1 { change item with updatedAt := now }) :
    ToldExcept exempt f (b.touch now workspaceId change) := by
  obtain ⟨well, sees⟩ := told
  have keeps' (item : WorkspaceView) :
      ({ change item with updatedAt := now } : WorkspaceView).workspaceId = item.workspaceId :=
    keeps item
  have modified := well.modify workspaceId keeps'
  have rows := @list_modify b workspaceId _ well keeps'
  obtain ⟨visible, isVisible⟩ := isSome_iff_exists.mp shown
  have here := rows workspaceId
  rw [if_pos rfl, found, bind_some, isVisible] at here
  have isId := key_of_rowOf here
  unfold Broadcast.touch
  simp only
  split
  · next visible' found' =>
    obtain rfl : visible = visible' := Option.some.inj (here.symm.trans found')
    refine ⟨modified, ?_⟩
    simp only [Broadcast.push, foldl_append, foldl_cons, foldl_nil, Follower.receive]
    refine ⟨upsert_unique sees.unique visible, fun other notExempt => ?_,
      (upsert_lists _ visible).1.trans sees.pinned, (upsert_lists _ visible).2.trans sees.archived⟩
    rw [rowAt_upsert, isId]
    split
    · next same =>
      rw [same]
      exact here.symm
    · next ne =>
      rw [rows, if_neg ne]
      exact sees.rows other (not_or.mpr ⟨notExempt, ne⟩)
  · next hidden => exact absurd (here.symm.trans hidden) nofun

/-- A row that is touched and that stays shown, or was not shown. -/
theorem Told.touch (told : Told f b) (keeps : ∀ item, (change item).workspaceId = item.workspaceId)
    (stays : ∀ item, rowAt b.1.items workspaceId = some item → Shows b.1 item →
      Shows b.1 { change item with updatedAt := now }) :
    Told f (b.touch now workspaceId change) := by
  obtain ⟨well, sees⟩ := told
  have keeps' (item : WorkspaceView) :
      ({ change item with updatedAt := now } : WorkspaceView).workspaceId = item.workspaceId :=
    keeps item
  have modified := well.modify workspaceId keeps'
  have rows := @list_modify b workspaceId _ well keeps'
  have here := rows workspaceId
  rw [if_pos rfl] at here
  cases shown : rowAt (b.1.modify workspaceId fun item =>
      { change item with updatedAt := now }).list workspaceId with
  | some visible =>
    rw [shown] at here
    obtain ⟨item, found, isVisible⟩ := bind_eq_some_iff.mp here.symm
    refine ToldExcept.touch ⟨well, sees.unique, fun other notExempt => ?_, sees.pinned,
      sees.archived⟩ keeps found (by rw [Shows, isVisible]; rfl)
    exact sees.rows other fun is => notExempt (.inl is)
  | none =>
    have untold : b.touch now workspaceId change = (b.1.modify workspaceId fun item =>
        { change item with updatedAt := now }, b.2) := by
      unfold Broadcast.touch
      simp only
      split
      · next found => exact absurd (found.symm.trans shown) nofun
      · rfl
    rw [untold]
    refine ⟨modified, sees.unique, fun other _ => ?_, sees.pinned, sees.archived⟩
    rw [rows]
    split
    · next same =>
      subst same
      rw [shown] at here
      rw [← here, sees.rows other id, rowAt_list well]
      cases isRow : rowAt b.1.items other with
      | none => rfl
      | some item =>
        rw [isRow, bind_some] at here
        rw [bind_some, ← not_isSome_iff_eq_none]
        intro was
        have := stays item isRow was
        rw [Shows, ← here] at this
        cases this
    · exact sees.rows other id

theorem shows_iff (w : Workspaces) (row : WorkspaceView) :
    Shows w row ↔ ∀ references, w.referenceGroups = some references → isVisible references row = true := by
  unfold Shows view
  cases w.referenceGroups with
  | none => simp
  | some references =>
    split
    · next is => simp [is]
    · next is => simp [is]

theorem Shows.touched {w : Workspaces} (shows : Shows w row) (now : Int) :
    Shows w { row with updatedAt := now } := by
  rw [shows_iff] at shows ⊢
  exact shows

theorem shows_web {w : Workspaces} (web : row.origin = some .web) : Shows w row := by
  rw [shows_iff]
  intro references _
  simp [isVisible, web]

end Touches

variable {cwd : String} {path : String}

section Operations
variable {f : Follower} {b : Broadcast} {now : Int} {rules : PathRules} {exempt : Nat → Prop}

theorem rowAt_sorted (unique : (f.rows.map (·.workspaceId)).Nodup) (workspaceIds : List Nat)
    (workspaceId : Nat) :
    rowAt (f.sorted workspaceIds).rows workspaceId = rowAt f.rows workspaceId :=
  rowOf_perm unique (mergeSort_perm _ _)

theorem sorted_unique (unique : (f.rows.map (·.workspaceId)).Nodup) (workspaceIds : List Nat) :
    ((f.sorted workspaceIds).rows.map (·.workspaceId)).Nodup :=
  ((mergeSort_perm _ _).map _).nodup_iff.mpr unique

theorem ToldExcept.order (told : ToldExcept exempt f b) (workspaceIds : List Nat) :
    ToldExcept exempt f (b.push (.order workspaceIds)) := by
  obtain ⟨well, sees⟩ := told
  refine ⟨well, ?_⟩
  simp only [push, foldl_append, foldl_cons, foldl_nil, receive]
  refine ⟨sorted_unique sees.unique _, fun other notExempt => ?_, sees.pinned, sees.archived⟩
  rw [rowAt_sorted sees.unique]
  exact sees.rows other notExempt

theorem view_empty {w : Workspaces} (none : row.sessionIds = [])
    (shown : Shows w row) : view w row = some row := by
  unfold Shows view at *
  split
  · rfl
  · next references is =>
    rw [is] at shown
    simp only at shown
    split at shown
    · next visible =>
      rw [if_pos visible, visibleRow, none]
      rw [filter_nil, ← none]
    · cases shown

theorem Well.added {w : Workspaces} (well : Well w) {row : WorkspaceView} (new : row.workspaceId = w.nextId) :
    Well { w with items := w.items ++ [row], nextId := w.nextId + 1 } := by
  constructor
  · rw [map_append, nodup_append]
    refine ⟨well.unique, nodup_singleton _, fun id member other isLast same => ?_⟩
    obtain ⟨item, isItem, rfl⟩ := mem_map.mp member
    rw [map_singleton, mem_singleton] at isLast
    have := well.known item isItem
    omega
  · refine forall_mem_append.mpr ⟨fun item member => ?_, forall_mem_singleton.mpr ?_⟩
    · have := well.known item member
      simp only
      omega
    · simp only
      omega

/-- A new row is told as it is; it is exempt unless it is shown. -/
theorem Told.created (told : Told f b) (new : row.workspaceId = b.1.nextId) (none : row.sessionIds = [])
    (shown : ∀ workspaceId, ¬exempt workspaceId → workspaceId = row.workspaceId → Shows b.1 row) :
    ToldExcept exempt f (Broadcast.push ({ b.1 with
      items := b.1.items ++ [row], nextId := b.1.nextId + 1 }, b.2) (.upsert row)) := by
  obtain ⟨well, sees⟩ := told
  have fresh : rowAt b.1.items row.workspaceId = Option.none := by
    rw [rowAt, rowOf_eq_none_iff]
    intro member
    obtain ⟨item, isItem, is⟩ := mem_map.mp member
    have := well.known item isItem
    omega
  have added := well.added new
  refine ⟨added, ?_⟩
  simp only [push, foldl_append, foldl_cons, foldl_nil, receive]
  refine ⟨upsert_unique sees.unique row, fun other notExempt => ?_,
    (upsert_lists _ row).1.trans sees.pinned, (upsert_lists _ row).2.trans sees.archived⟩
  have listed : rowAt (b.1.items ++ [row]) other =
      (rowAt b.1.items other).or (rowAt [row] other) := rowOf_append _ _ _
  rw [rowAt_upsert, rowAt_list added, listed]
  split
  · next same =>
    have here : rowAt [row] other = some row := by simp [rowAt, rowOf, same]
    rw [same, fresh, ← same, here, none_or, bind_some]
    exact (view_empty none (shown other notExempt same)).symm
  · next ne =>
    have here : rowAt [row] other = Option.none := by simp [rowAt, rowOf, Ne.symm ne]
    rw [here, or_none, sees.rows other id, rowAt_list well]
    rfl

theorem get_eq (w : Workspaces) (workspaceId : Nat) : w.get workspaceId = rowAt w.items workspaceId :=
  rfl

theorem rowAt_byPath (well : Well b.1)
    (is : b.1.byPath path = some row) : rowAt b.1.items row.workspaceId = some row :=
  rowOf_of_mem well.unique (mem_of_find?_eq_some is)

variable {sessionId : String}

theorem Told.join (told : Told f b) {workspaceId : Nat} {add : List String → List String}
    (stays : ∀ row, rowAt b.1.items workspaceId = some row → sessionId ∉ row.sessionIds →
      Shows b.1 row → Shows b.1 { row with sessionIds := add row.sessionIds }) :
    Told f (b.join now workspaceId sessionId add) := by
  unfold Broadcast.join
  split
  · next row found =>
    split
    · exact told
    · next new =>
      refine told.touch (fun _ => rfl) fun item is shown => ?_
      obtain rfl : row = item := Option.some.inj (found.symm.trans is)
      exact (stays row found (by simpa using new) shown).touched now
  · exact told

/-- A new row at the path, told and put last. -/
def createdAt (b : Broadcast) (row : WorkspaceView) : Broadcast :=
  Broadcast.push (Broadcast.push ({ b.1 with
    items := b.1.items ++ [row], nextId := b.1.nextId + 1 }, b.2) (.upsert row))
    (.order ((b.1.items ++ [row]).map (·.workspaceId)))

/-- What `create` does: it finds a row, which may become an explicit one, or it makes one. -/
inductive Creates (rules : PathRules) (b : Broadcast) (now : Int) (path : String)
    (referenceOnly : Bool) : Nat → Broadcast → Prop where
  | existing (row : WorkspaceView)
      (found : b.1.byPath (rules.resolve (rules.expanded path)) = some row)
      (explicit : referenceOnly = false → row.origin = some .web) :
      Creates rules b now path referenceOnly row.workspaceId b
  | explicit (row : WorkspaceView)
      (found : b.1.byPath (rules.resolve (rules.expanded path)) = some row)
      (only : referenceOnly = false) :
      Creates rules b now path referenceOnly row.workspaceId
        (b.touch now row.workspaceId fun item => { item with origin := some .web })
  | new (row : WorkspaceView) (isAbsolute : rules.isAbsolute (rules.expanded path) = true)
      (absent : b.1.byPath (rules.resolve (rules.expanded path)) = none)
      (id : row.workspaceId = b.1.nextId) (sessions : row.sessionIds = [])
      (isPath : row.path = rules.resolve (rules.expanded path))
      (origin : row.origin = some (if referenceOnly then .codexhost else .web)) :
      Creates rules b now path referenceOnly row.workspaceId (createdAt b row)

variable {b' : Broadcast}

theorem create_cases {isDirectory referenceOnly : Bool} {workspaceId : Nat} (is : b.create rules now path isDirectory referenceOnly = .ok (workspaceId, b')) :
    Creates rules b now path referenceOnly workspaceId b' := by
  unfold create at is
  simp only at is
  split at is
  · cases is
  · next isAbsolute =>
    split at is
    · cases is
    · split at is
      · next row found =>
        split at is
        · next only =>
          cases is
          simp only [Bool.and_eq_true, Bool.not_eq_true'] at only
          exact .explicit row found only.1
        · next kept =>
          cases is
          refine .existing row found fun only => ?_
          simpa [only] using kept
      · next absent =>
        cases is
        exact .new ⟨b.1.nextId, _, _, [], now, now, some (if referenceOnly then .codexhost else .web)⟩
          (by simpa using isAbsolute) absent rfl rfl rfl rfl

/-- A row that is found at a path, or made there. -/
theorem byPathOrCreate_cases {isDirectory referenceOnly : Bool} {workspaceId : Nat}
    (is : b.byPathOrCreate rules now cwd isDirectory referenceOnly = .ok (workspaceId, b')) :
    (∃ row, b.1.byPath (rules.resolve cwd) = some row ∧ workspaceId = row.workspaceId ∧ b' = b) ∨
      (b.1.byPath (rules.resolve cwd) = none ∧ Creates rules b now cwd referenceOnly workspaceId b') := by
  unfold byPathOrCreate at is
  split at is
  · next row found =>
    cases is
    exact .inl ⟨row, found, rfl, rfl⟩
  · next absent => exact .inr ⟨absent, create_cases is⟩

theorem Told.createdAt (told : Told f b) (new : row.workspaceId = b.1.nextId) (none : row.sessionIds = [])
    (shown : ∀ workspaceId, ¬exempt workspaceId → workspaceId = row.workspaceId → Shows b.1 row) :
    ToldExcept exempt f (createdAt b row) ∧
      rowAt (WorkspaceFollow.createdAt b row).1.items row.workspaceId = some row := by
  have created := told.created new none shown
  refine ⟨created.order _, ?_⟩
  exact rowOf_of_mem created.1.unique (mem_append_right _ (mem_singleton_self row))

theorem touch_items (b : Broadcast) (now : Int) (workspaceId : Nat) (change : WorkspaceView → WorkspaceView) :
    (b.touch now workspaceId change).1 =
      b.1.modify workspaceId fun item => { change item with updatedAt := now } := by
  unfold touch
  simp only
  split
  · rfl
  · rfl

theorem Told.explicit (told : ToldExcept (fun other => exempt other ∨ other = workspaceId) f b) (found : rowAt b.1.items workspaceId = some row) (now : Int) :
    ToldExcept exempt f (b.touch now workspaceId fun item => { item with origin := some .web }) ∧
      ∃ row, rowAt (b.touch now workspaceId fun item =>
        { item with origin := some .web }).1.items workspaceId = some row ∧ row.origin = some .web := by
  refine ⟨told.touch (fun _ => rfl) found (shows_web rfl), ?_⟩
  rw [touch_items]
  have keeps (item : WorkspaceView) :
      ({ item with origin := some .web, updatedAt := now } : WorkspaceView).workspaceId =
        item.workspaceId := rfl
  refine ⟨{ row with origin := some .web, updatedAt := now }, (rowAt_modify keeps workspaceId).trans ?_, rfl⟩
  rw [if_pos rfl, found]
  rfl

/-- The references allow a row at this path. -/
def Allowed (w : Workspaces) (path : String) : Prop :=
  ∀ references, w.referenceGroups = some references → some path ∈ references.values

theorem shows_allowed {w : Workspaces} (allowed : Allowed w row.path) : Shows w row := by
  rw [shows_iff]
  intro references is
  simp [isVisible, allowed references is]

/-- A Session may join this row. -/
def Joins (w : Workspaces) (sessionId : String) (add : List String → List String)
    (row : WorkspaceView) : Prop :=
  sessionId ∉ row.sessionIds → Shows w row → Shows w { row with sessionIds := add row.sessionIds }

theorem Told.attachSession (told : Told f b) {workspaceId : Option Nat}
    {cwd : Option String} {isDirectory : Bool}
    (is : b.attachSession rules now sessionId workspaceId cwd isDirectory = .ok b')
    (good : ∀ row, ((workspaceId.bind b.1.get).or
      (cwd.bind fun cwd => b.1.byPath (rules.resolve cwd))) = some row →
        Joins b.1 sessionId (sessionId :: ·) row) : Told f b' := by
  have joinWeb {q : Broadcast} (told : Told f q) {id : Nat} {row : WorkspaceView}
      (found : rowAt q.1.items id = some row) (web : row.origin = some .web) :
      Told f (q.join now id sessionId fun ids => sessionId :: ids) := by
    refine told.join fun row' is _ _ => shows_web ?_
    obtain rfl : row = row' := Option.some.inj (found.symm.trans is)
    exact web
  have joinRow {row : WorkspaceView} (found : rowAt b.1.items row.workspaceId = some row)
      (joins : Joins b.1 sessionId (sessionId :: ·) row) :
      Told f (b.join now row.workspaceId sessionId fun ids => sessionId :: ids) := by
    refine told.join fun row' is new shown => ?_
    obtain rfl : row = row' := Option.some.inj (found.symm.trans is)
    exact joins new shown
  obtain ⟨⟨id, q⟩, reached, rfl⟩ := map_ok.mp is
  unfold owner at reached
  split at reached
  · next row found =>
    cases reached
    obtain ⟨given, -, isRow⟩ := bind_eq_some_iff.mp found
    refine joinRow ?_ (good row (by rw [found]; rfl))
    exact (key_of_rowOf isRow).symm ▸ isRow
  · next absent =>
    split at reached
    · next cwd =>
      rcases byPathOrCreate_cases reached with ⟨row, found, rfl, rfl⟩ | ⟨-, creates⟩
      · refine joinRow (rowAt_byPath told.1 found) (good row ?_)
        rw [absent, none_or, bind_some, found]
      · cases creates with
        | existing row found explicit => exact joinWeb told (rowAt_byPath told.1 found) (explicit rfl)
        | explicit row found only =>
          obtain ⟨told, row, found, web⟩ := Told.explicit
            ⟨told.1, told.2.unique, fun other _ => told.2.rows other id, told.2.pinned,
              told.2.archived⟩ (rowAt_byPath told.1 found) now
          exact joinWeb told found web
        | new row isAbsolute absent isId sessions isPath origin =>
          obtain ⟨told, found⟩ := told.createdAt isId sessions fun _ _ _ => shows_web origin
          exact joinWeb told found origin
    · cases reached

/-- A title is no condition of being shown. -/
theorem Told.title (told : Told f b) (workspaceId : Nat) (title : String) :
    Told f (b.touch now workspaceId fun item => { item with title := title }) :=
  told.touch (fun _ => rfl) fun item _ shown => by
    rw [shows_iff] at shown ⊢
    exact shown

/-- The row that a referenced Session finds. -/
def referencedRow (rules : PathRules) (w : Workspaces) (cwd : String) : Option WorkspaceView :=
  (w.byPath (rules.resolve cwd)).or (w.byPath (rules.resolve (rules.expanded cwd)))

/-- The title changes nothing that the joining depends on. -/
theorem Told.joinTitled {q : Broadcast} (told : Told f q) {row : WorkspaceView} {id : Nat} {sessionId : String}
    (title : Option String) (found : rowAt q.1.items id = some row)
    (joins : Joins q.1 sessionId (· ++ [sessionId]) row) :
    Told f (Broadcast.join (match q.1.get id, title.filter (· ≠ "") with
      | some workspace, some title =>
        if workspace.origin ≠ some Origin.web && workspace.title ≠ title then
          q.touch now id fun item => { item with title := title }
        else q
      | _, _ => q) now id sessionId fun ids => ids ++ [sessionId]) := by
  have kept : Told f (q.join now id sessionId fun ids => ids ++ [sessionId]) := by
    refine told.join fun row' is new shown => ?_
    obtain rfl : row = row' := Option.some.inj (found.symm.trans is)
    exact joins new shown
  split
  · next workspace title _ _ =>
    split
    · refine (told.title id title).join fun row' is new shown => ?_
      rw [touch_items] at is
      have keeps (item : WorkspaceView) :
          ({ item with title := title, updatedAt := now } : WorkspaceView).workspaceId =
            item.workspaceId := rfl
      have here := (rowAt_modify keeps id).symm.trans is
      rw [if_pos rfl, found, map_some] at here
      cases here
      rw [touch_items] at shown ⊢
      rw [shows_iff] at shown ⊢
      have := joins new (by rw [shows_iff]; exact shown)
      rw [shows_iff] at this
      exact this
    · exact kept
  · exact kept

theorem Told.attachReferencedSession (told : Told f b) {sessionId cwd : String} {title : Option String}
    (is : b.attachReferencedSession rules now sessionId cwd title = .ok b')
    (good : ∀ row, referencedRow rules b.1 cwd = some row → Joins b.1 sessionId (· ++ [sessionId]) row)
    (allowed : referencedRow rules b.1 cwd = none → rules.isAbsolute (rules.expanded cwd) = true →
      Allowed b.1 (rules.resolve (rules.expanded cwd))) : Told f b' := by
  obtain ⟨⟨id, q⟩, reached, rfl⟩ := map_ok.mp is
  rcases byPathOrCreate_cases reached with ⟨row, found, rfl, rfl⟩ | ⟨absent, creates⟩
  · exact Told.joinTitled told _ (rowAt_byPath told.1 found) (good row (by rw [referencedRow, found]; rfl))
  · cases creates with
    | existing row found explicit =>
      exact Told.joinTitled told _ (rowAt_byPath told.1 found) (good row (by rw [referencedRow, absent, found]; rfl))
    | explicit row found only => cases only
    | new row isAbsolute absent' isId sessions isPath origin =>
      have allowed := allowed (by rw [referencedRow, absent, absent']; rfl) isAbsolute
      rw [← isPath] at allowed
      obtain ⟨told, found⟩ := told.createdAt isId sessions fun _ _ _ => shows_allowed allowed
      exact Told.joinTitled told _ found fun _ _ => shows_allowed allowed

theorem Told.originWeb {q : Broadcast} {id : Nat} (told : ToldExcept (fun other => False ∨ other = id) f q)
    {row : WorkspaceView} (found : rowAt q.1.items id = some row) (kept : row.origin = some .web → Told f q) :
    Told f (match q.1.get id with
      | some workspace =>
        if workspace.origin ≠ some Origin.web then
          q.touch now id fun item => { item with origin := some Origin.web }
        else q
      | none => q) := by
  rw [get_eq, found]
  simp only
  split
  · exact (Told.explicit told found now).1
  · next explicit => exact kept (not_not.mp explicit)

theorem Told.selectReferenceWorkspace (told : Told f b)
    (is : b.selectReferenceWorkspace rules now cwd = .ok b') : Told f b' := by
  obtain ⟨⟨id, q⟩, reached, rfl⟩ := map_ok.mp is
  have loose (told : Told f b) : ToldExcept (fun other => False ∨ other = id) f b :=
    ⟨told.1, told.2.unique, fun other _ => told.2.rows other fun is => is, told.2.pinned,
      told.2.archived⟩
  rcases byPathOrCreate_cases reached with ⟨row, found, rfl, rfl⟩ | ⟨-, creates⟩
  · exact Told.originWeb (loose told) (rowAt_byPath told.1 found) fun _ => told
  · cases creates with
    | existing row found explicit =>
      exact Told.originWeb (loose told) (rowAt_byPath told.1 found) fun _ => told
    | explicit row found only => cases only
    | new row isAbsolute absent isId sessions isPath origin =>
      obtain ⟨told', found⟩ : ToldExcept (fun other => False ∨ other = row.workspaceId) f
          (WorkspaceFollow.createdAt b row) ∧ _ := told.createdAt isId sessions fun other notExempt is => (notExempt (.inr is)).elim
      exact Told.originWeb told' found fun web => absurd (origin.symm.trans web) (by simp)

theorem touch_elsewhere (b : Broadcast) (now : Int) {workspaceId other : Nat}
    {change : WorkspaceView → WorkspaceView}
    (keeps : ∀ item, (change item).workspaceId = item.workspaceId) (ne : other ≠ workspaceId) :
    rowAt (b.touch now workspaceId change).1.items other = rowAt b.1.items other := by
  have keeps' (item : WorkspaceView) :
      ({ change item with updatedAt := now } : WorkspaceView).workspaceId = item.workspaceId :=
    keeps item
  rw [touch_items]
  exact (rowAt_modify keeps' other).trans (if_neg ne)

/-- A loop over the rows that touches some of them in a way that keeps them shown. -/
theorem told_rows {rows : List WorkspaceView} (touches : WorkspaceView → Bool)
    (change : WorkspaceView → WorkspaceView) (step : Broadcast → WorkspaceView → Broadcast)
    (isStep : ∀ b row, step b row = if touches row then b.touch now row.workspaceId change else b)
    (keeps : ∀ item, (change item).workspaceId = item.workspaceId)
    (unique : (rows.map (·.workspaceId)).Nodup)
    (here : ∀ row ∈ rows, rowAt b.1.items row.workspaceId = some row)
    (stays : ∀ row ∈ rows, touches row = true → Shows b.1 row → Shows b.1 (change row))
    (told : Told f b) :
    Told f (rows.foldl step b) ∧ (rows.foldl step b).1.referenceGroups = b.1.referenceGroups ∧
      ∀ other, (∀ row ∈ rows, row.workspaceId = other → touches row = false) →
        rowAt (rows.foldl step b).1.items other = rowAt b.1.items other := by
  induction rows generalizing b with
  | nil => exact ⟨told, rfl, fun _ _ => rfl⟩
  | cons row rest ih =>
    rw [map_cons, nodup_cons] at unique
    rw [forall_mem_cons] at here stays
    rw [foldl_cons, isStep]
    cases touched : touches row with
    | false =>
      obtain ⟨told, groups, same⟩ := ih unique.2 here.2 stays.2 told
      exact ⟨told, groups, fun other untouched => same other (forall_mem_cons.mp untouched).2⟩
    | true =>
      have touched' : Told f (b.touch now row.workspaceId change) := by
        refine told.touch keeps fun item is shown => ?_
        obtain rfl : row = item := Option.some.inj (here.1.symm.trans is)
        exact (stays.1 touched shown).touched now
      have groups : (b.touch now row.workspaceId change).1.referenceGroups = b.1.referenceGroups := by
        rw [touch_items]
        rfl
      have others (other : WorkspaceView) (member : other ∈ rest) :
          other.workspaceId ≠ row.workspaceId := fun same =>
        unique.1 (same ▸ mem_map_of_mem member)
      obtain ⟨told, groups', same⟩ := ih unique.2
        (fun other member => (touch_elsewhere b now keeps (others other member)).trans
          (here.2 other member))
        (fun other member touches shown => by
          rw [shows_iff, groups] at shown ⊢
          have := stays.2 other member touches (by rw [shows_iff]; exact shown)
          rwa [shows_iff] at this)
        touched'
      refine ⟨told, groups'.trans groups, fun other untouched => ?_⟩
      obtain ⟨first, later⟩ := forall_mem_cons.mp untouched
      refine (same other later).trans (touch_elsewhere b now keeps fun is => ?_)
      rw [first is.symm] at touched
      cases touched

theorem Told.detachSession (told : Told f b)
    (good : ∀ row ∈ b.1.items, sessionId ∈ row.sessionIds → Shows b.1 row →
      Shows b.1 { row with sessionIds := row.sessionIds.erase sessionId }) :
    Told f (b.detachSession now sessionId) :=
  (told_rows (fun row => row.sessionIds.contains sessionId)
    (fun item => { item with sessionIds := item.sessionIds.erase sessionId })
    (detachFrom now sessionId) (fun _ _ => rfl) (fun _ => rfl) told.1.unique
    (fun row member => rowOf_of_mem told.1.unique member)
    (fun row member has => good row member (by simpa using has)) told).1

theorem Told.insertSessionBefore (told : Told f b) {workspaceId : Nat} {beforeSessionId : Option String}
    (is : b.insertSessionBefore now workspaceId sessionId beforeSessionId = .ok b')
    (others : ∀ row ∈ b.1.items, row.workspaceId ≠ workspaceId → sessionId ∈ row.sessionIds →
      Shows b.1 row → Shows b.1 { row with sessionIds := row.sessionIds.filter (· ≠ sessionId) })
    (good : ∀ row, b.1.get workspaceId = some row → Shows b.1 row → Shows b.1 { row with
      sessionIds := Broadcast.insertAt (fun id => some id = beforeSessionId)
        (row.sessionIds.filter (· ≠ sessionId)) sessionId }) : Told f b' := by
  unfold Broadcast.insertSessionBefore at is
  split at is
  · cases is
  · next row found =>
    cases is
    obtain ⟨left, groups, same⟩ := told_rows
      (fun row => row.workspaceId ≠ workspaceId && row.sessionIds.contains sessionId)
      (fun item => { item with sessionIds := item.sessionIds.filter (· ≠ sessionId) })
      (Broadcast.leave now workspaceId sessionId) (fun _ _ => rfl) (fun _ => rfl)
      told.1.unique (fun row member => rowOf_of_mem told.1.unique member)
      (fun row member has => by
        simp only [Bool.and_eq_true, decide_eq_true_eq, contains_iff_mem] at has
        exact others row member has.1 has.2) told
    refine Told.touch left (fun _ => rfl) fun item is shown => ?_
    have here := same workspaceId fun row _ is => by simp [is]
    obtain rfl : row = item := Option.some.inj (found.symm.trans (here.symm.trans is))
    rw [shows_iff, groups] at shown ⊢
    have := good row found (by rw [shows_iff]; exact shown)
    rw [shows_iff] at this
    exact this

theorem Told.create (told : Told f b) {isDirectory : Bool} {workspaceId : Nat} (is : b.create rules now path isDirectory false = .ok (workspaceId, b')) :
    Told f b' := by
  cases create_cases is with
  | existing row found explicit => exact told
  | explicit row found only =>
    exact (Told.explicit ⟨told.1, told.2.unique, fun other _ => told.2.rows other id, told.2.pinned,
      told.2.archived⟩ (rowAt_byPath told.1 found) now).1
  | new row isAbsolute absent isId sessions isPath origin =>
    exact (told.createdAt isId sessions fun _ _ _ => shows_web origin).1

theorem rowAt_without (rows : List WorkspaceView) (workspaceId other : Nat) :
    rowAt (rows.filter (·.workspaceId ≠ workspaceId)) other =
      if other = workspaceId then none else rowAt rows other := by
  have filtered := @rowOf_filter WorkspaceView Nat _ (·.workspaceId) (·.workspaceId ≠ workspaceId)
    (· ≠ workspaceId) (fun _ => rfl) rows other
  refine filtered.trans ?_
  by_cases same : other = workspaceId
  · simp [same]
  · simp [same]

theorem Told.delete (told : Told f b) {workspaceId : Nat}
    (is : b.delete workspaceId = .ok b') : Told f b' := by
  obtain ⟨well, sees⟩ := told
  unfold Broadcast.delete at is
  split at is
  · cases is
  · cases is
    have kept : Well { b.1 with items := b.1.items.filter (·.workspaceId ≠ workspaceId) } := by
      refine ⟨well.unique.sublist (filter_sublist.map _), fun item member => ?_⟩
      exact well.known item (mem_of_mem_filter member)
    refine ⟨kept, ?_⟩
    simp only [Broadcast.push, foldl_append, foldl_cons, foldl_nil, Follower.receive]
    refine ⟨sees.unique.sublist (filter_sublist.map _), fun other _ => ?_, sees.pinned,
      sees.archived⟩
    rw [rowAt_without, rowAt_list kept, rowAt_without, sees.rows other id, rowAt_list well]
    split
    · rfl
    · rfl

theorem insertAt_perm {α : Type} (isBefore : α → Bool) (rest : List α) (item : α) :
    (Broadcast.insertAt isBefore rest item).Perm (item :: rest) := by
  refine perm_middle.trans (List.Perm.cons item ?_)
  rw [takeWhile_append_dropWhile]

theorem moved_perm {w : Workspaces} (well : Well w) {workspaceId : Nat}
    (found : w.get workspaceId = some row) (isBefore : WorkspaceView → Bool) :
    (Broadcast.insertAt isBefore (w.items.filter (·.workspaceId ≠ workspaceId)) row).Perm w.items := by
  have isId := key_of_rowOf found
  refine (insertAt_perm _ _ row).trans (perm_of_rowOf well.unique ?_ fun other => ?_)
  · refine nodup_cons.mpr ⟨fun member => ?_, well.unique.sublist (filter_sublist.map _)⟩
    obtain ⟨item, member, same⟩ := mem_map.mp member
    have := (mem_filter.mp member).2
    simp [same, isId] at this
  · by_cases same : other = workspaceId
    · rw [rowOf, find?_cons_of_pos (by simp [same, isId]), same]
      exact found.symm
    · rw [rowOf, find?_cons_of_neg (by simp [isId, Ne.symm same])]
      exact (rowAt_without _ _ _).trans (if_neg same)

theorem Told.insertBefore (told : Told f b) {workspaceId : Nat} {beforeWorkspaceId : Option Nat} (is : b.insertBefore workspaceId beforeWorkspaceId = .ok b') : Told f b' := by
  obtain ⟨well, sees⟩ := told
  unfold Broadcast.insertBefore at is
  split at is
  · cases is
  · next row found =>
    cases is
    have perm := moved_perm well found fun item => some item.workspaceId = beforeWorkspaceId
    revert perm
    generalize Broadcast.insertAt _ _ row = items
    intro perm
    have moved : Well { b.1 with items := items } :=
      ⟨(perm.map _).nodup_iff.mpr well.unique, fun item member =>
        well.known item (perm.mem_iff.mp member)⟩
    refine ToldExcept.order (b := ({ b.1 with items := items }, b.2))
      ⟨moved, sees.unique, fun other _ => ?_, sees.pinned, sees.archived⟩ _
    rw [rowAt_list moved, sees.rows other id, rowAt_list well]
    exact congrArg (Option.bind · (view b.1)) (rowOf_perm well.unique perm).symm

theorem rowAt_removes (workspaceIds : List Nat) (other : Nat) (f : Follower) :
    rowAt ((workspaceIds.map Frame.remove).foldl Follower.receive f).rows other =
      if other ∈ workspaceIds then none else rowAt f.rows other := by
  induction workspaceIds generalizing f with
  | nil => rfl
  | cons workspaceId rest ih =>
    rw [map_cons, foldl_cons, ih, receive, rowAt_without]
    by_cases last : other ∈ rest
    · rw [if_pos last, if_pos (mem_cons_of_mem _ last)]
    · by_cases same : other = workspaceId
      · rw [if_neg last, if_pos same, if_pos (same ▸ mem_cons_self)]
      · rw [if_neg last, if_neg same, if_neg (not_mem_cons_of_ne_of_not_mem same last)]

theorem rowAt_upserts {rows : List WorkspaceView} (unique : (rows.map (·.workspaceId)).Nodup)
    (other : Nat) (f : Follower) :
    rowAt ((rows.map Frame.upsert).foldl Follower.receive f).rows other =
      (rowAt rows other).or (rowAt f.rows other) := by
  induction rows generalizing f with
  | nil => rfl
  | cons row rest ih =>
    rw [map_cons, nodup_cons] at unique
    rw [map_cons, foldl_cons, ih unique.2, receive, rowAt_upsert]
    by_cases same : other = row.workspaceId
    · have absent : rowAt rest other = none := by
        rw [rowAt, rowOf_eq_none_iff, same]
        exact unique.1
      have here : rowAt (row :: rest) other = some row := by simp [rowAt, rowOf, same]
      rw [absent, here, if_pos same]
      rfl
    · have here : rowAt (row :: rest) other = rowAt rest other := by
        simp [rowAt, rowOf, Ne.symm same]
      rw [here, if_neg same]

/-- The lists and the uniqueness of the rows after removes and upserts. -/
theorem receive_rows {frames : List Frame} (unique : (f.rows.map (·.workspaceId)).Nodup)
    (rows : ∀ frame ∈ frames, (∃ row, frame = .upsert row) ∨ ∃ workspaceId, frame = .remove workspaceId) :
    ((frames.foldl Follower.receive f).rows.map (·.workspaceId)).Nodup ∧
      (frames.foldl Follower.receive f).pinned = f.pinned ∧
      (frames.foldl Follower.receive f).archived = f.archived := by
  induction frames generalizing f with
  | nil => exact ⟨unique, rfl, rfl⟩
  | cons frame rest ih =>
    rw [forall_mem_cons] at rows
    rcases rows.1 with ⟨row, rfl⟩ | ⟨workspaceId, rfl⟩
    · obtain ⟨unique, pinned, archived⟩ := ih (upsert_unique unique row) rows.2
      exact ⟨unique, pinned.trans (upsert_lists f row).1, archived.trans (upsert_lists f row).2⟩
    · exact ih (unique.sublist (filter_sublist.map _)) rows.2

/-- The frames that turn some rows into others. -/
def replacing (before after : List WorkspaceView) : List Frame :=
  (before.filter fun workspace =>
    !(after.map (·.workspaceId)).contains workspace.workspaceId).map (fun workspace =>
      Frame.remove workspace.workspaceId) ++
  (after.filter fun workspace =>
    before.find? (·.workspaceId = workspace.workspaceId) ≠ some workspace).map Frame.upsert

theorem rowAt_replacing {before after : List WorkspaceView} (unique' : (after.map (·.workspaceId)).Nodup)
    {other : Nat} (same : rowAt f.rows other = rowAt before other) :
    rowAt ((replacing before after).foldl Follower.receive f).rows other = rowAt after other := by
  have changedUnique : ((after.filter fun workspace =>
      before.find? (·.workspaceId = workspace.workspaceId) ≠ some workspace).map
        (·.workspaceId)).Nodup := unique'.sublist (List.filter_sublist.map _)
  have removed (rows : List WorkspaceView) : rows.map (fun workspace =>
      Frame.remove workspace.workspaceId) = (rows.map (·.workspaceId)).map Frame.remove :=
    (List.map_map).symm
  unfold replacing
  rw [List.foldl_append, rowAt_upserts changedUnique, removed, rowAt_removes, same]
  cases is : rowAt after other with
  | some row =>
    have isId := key_of_rowOf is
    have notRemoved : other ∉ (before.filter fun workspace =>
        !(after.map (·.workspaceId)).contains workspace.workspaceId).map (·.workspaceId) := by
      intro member
      obtain ⟨item, isRemoved, isOther⟩ := List.mem_map.mp member
      have absent := (List.mem_filter.mp isRemoved).2
      rw [isOther, Bool.not_eq_true', List.contains_eq_mem, decide_eq_false_iff_not] at absent
      exact absent (isId ▸ List.mem_map_of_mem (mem_of_rowOf is))
    rw [if_neg notRemoved]
    by_cases kept : rowAt before other = some row
    · have : rowAt (after.filter fun workspace =>
          before.find? (·.workspaceId = workspace.workspaceId) ≠ some workspace) other = none := by
        rw [rowAt, rowOf_eq_none_iff]
        intro member
        obtain ⟨item, isChanged, isOther⟩ := List.mem_map.mp member
        obtain ⟨isItem, changed⟩ := List.mem_filter.mp isChanged
        have : rowAt after item.workspaceId = some item := rowOf_of_mem unique' isItem
        rw [isOther] at this
        obtain rfl : item = row := Option.some.inj (this.symm.trans is)
        rw [isOther] at changed
        exact of_decide_eq_true changed kept
      rw [this, kept, Option.none_or]
    · have : rowAt (after.filter fun workspace =>
          before.find? (·.workspaceId = workspace.workspaceId) ≠ some workspace) other = some row := by
        refine (rowOf_eq_some_iff changedUnique).mpr ⟨?_, isId⟩
        refine List.mem_filter.mpr ⟨mem_of_rowOf is, decide_eq_true ?_⟩
        rw [isId]
        exact kept
      rw [this, Option.some_or]
  | none =>
    have absent := rowOf_eq_none_iff.mp is
    have : rowAt (after.filter fun workspace =>
        before.find? (·.workspaceId = workspace.workspaceId) ≠ some workspace) other = none :=
      rowOf_eq_none_iff.mpr fun member => absent ((List.filter_sublist.map _).subset member)
    rw [this, Option.none_or]
    split
    · rfl
    · next notRemoved =>
      rw [rowAt, rowOf_eq_none_iff]
      intro member
      obtain ⟨item, isItem, isOther⟩ := List.mem_map.mp member
      refine notRemoved (List.mem_map.mpr ⟨item, List.mem_filter.mpr ⟨isItem, ?_⟩, isOther⟩)
      rw [isOther, Bool.not_eq_true', List.contains_eq_mem, decide_eq_false_iff_not]
      exact absent

/-- What was shown is removed, what is shown otherwise than before is told. -/
theorem SeesExcept.replaced {w w' : Workspaces} (well' : Well w')
    (pinned : w'.pinnedSessionIds = w.pinnedSessionIds)
    (archived : w'.archivedSessionIds = w.archivedSessionIds) (sees : Sees w f) :
    Sees w' ((replacing w.list w'.list).foldl Follower.receive f) := by
  obtain ⟨kept, isPinned, isArchived⟩ := @receive_rows f (replacing w.list w'.list) sees.unique (by
      refine forall_mem_append.mpr ⟨fun frame member => ?_, fun frame member => ?_⟩
      · obtain ⟨row, -, rfl⟩ := mem_map.mp member
        exact .inr ⟨_, rfl⟩
      · obtain ⟨row, -, rfl⟩ := mem_map.mp member
        exact .inl ⟨_, rfl⟩)
  exact ⟨kept, fun other _ => rowAt_replacing (list_unique well')
      (sees.rows other id), isPinned.trans (sees.pinned.trans pinned.symm),
    isArchived.trans (sees.archived.trans archived.symm)⟩

section
variable (told : Told f b)
include told

theorem Told.setReferenceGroups (groups : OrderedMap String (Option String))
    (projectless : List String) : Told f (b.setReferenceGroups groups projectless) := by
  obtain ⟨well, sees⟩ := told
  have after : Well { b.1 with referenceGroups := some groups, referenceProjectless := projectless } :=
    ⟨well.unique, well.known⟩
  refine ⟨after, ?_⟩
  have replaced := @SeesExcept.replaced _ b.1 _ after rfl rfl sees
  simp only [Broadcast.setReferenceGroups]
  rw [append_assoc, foldl_append]
  exact replaced

theorem Told.setReferencePins (ids : List String) : Told f (b.setReferencePins ids) := by
  obtain ⟨well, sees⟩ := told
  unfold Broadcast.setReferencePins
  simp only
  split
  · exact ⟨well, sees⟩
  · refine ⟨⟨well.unique, well.known⟩, ?_⟩
    simp only [Broadcast.push, foldl_append, foldl_cons, foldl_nil, Follower.receive]
    exact ⟨sees.unique, sees.rows, rfl, sees.archived⟩

theorem Told.setReferenceArchives (ids : List String) :
    Told f (b.setReferenceArchives ids) := by
  obtain ⟨well, sees⟩ := told
  unfold Broadcast.setReferenceArchives
  simp only
  split
  · exact ⟨well, sees⟩
  · refine ⟨⟨well.unique, well.known⟩, ?_⟩
    simp only [Broadcast.push, foldl_append, foldl_cons, foldl_nil, Follower.receive]
    exact ⟨sees.unique, sees.rows, sees.pinned, rfl⟩

theorem Told.setPinned (sessionId : String) (add : Bool) :
    Told f (b.setPinned sessionId add) := by
  obtain ⟨well, sees⟩ := told
  refine ⟨⟨well.unique, well.known⟩, ?_⟩
  simp only [Broadcast.setPinned, Broadcast.push, foldl_append, foldl_cons, foldl_nil, Follower.receive]
  exact ⟨sees.unique, sees.rows, rfl, sees.archived⟩

theorem Told.setArchived (sessionId : String) (add : Bool) :
    Told f (b.setArchived sessionId add) := by
  obtain ⟨well, sees⟩ := told
  refine ⟨⟨well.unique, well.known⟩, ?_⟩
  simp only [Broadcast.setArchived, Broadcast.push, foldl_append, foldl_cons, foldl_nil, Follower.receive]
  exact ⟨sees.unique, sees.rows, sees.pinned, rfl⟩

theorem Told.rename {workspaceId : Nat} {title : String}
    (is : b.rename now workspaceId title = .ok b') : Told f b' := by
  unfold Broadcast.rename at is
  split at is
  · cases is
  · cases is
    exact told.title workspaceId title

end

end Operations

section Runs

/-- The operation hides no row that is shown, unless it tells so, and makes no row that is hidden. -/
def Good (rules : PathRules) (w : Workspaces) : Operation → Prop
  | .attachSession _ sessionId workspaceId cwd _ =>
    ∀ row, ((workspaceId.bind w.get).or (cwd.bind fun cwd => w.byPath (rules.resolve cwd))) = some row →
        Joins w sessionId (sessionId :: ·) row
  | .attachReferencedSession _ sessionId cwd _ =>
    (∀ row, referencedRow rules w cwd = some row → Joins w sessionId (· ++ [sessionId]) row) ∧
      (referencedRow rules w cwd = none → rules.isAbsolute (rules.expanded cwd) = true →
        Allowed w (rules.resolve (rules.expanded cwd)))
  | .detachSession _ sessionId =>
    ∀ row ∈ w.items, sessionId ∈ row.sessionIds → Shows w row →
      Shows w { row with sessionIds := row.sessionIds.erase sessionId }
  | .insertSessionBefore _ workspaceId sessionId beforeSessionId =>
    (∀ row ∈ w.items, row.workspaceId ≠ workspaceId → sessionId ∈ row.sessionIds → Shows w row →
      Shows w { row with sessionIds := row.sessionIds.filter (· ≠ sessionId) }) ∧
    ∀ row, w.get workspaceId = some row → Shows w row → Shows w { row with
      sessionIds := Broadcast.insertAt (fun id => some id = beforeSessionId)
        (row.sessionIds.filter (· ≠ sessionId)) sessionId }
  | _ => True

variable {rules : PathRules} {w : Workspaces} {f : Follower}

theorem sees_step (well : Well w) (sees : Sees w f) {op : Operation} (good : Good rules w op) :
    Told f (op.step rules w) := by
  have told : Told f (w, []) := ⟨well, sees⟩
  unfold Operation.step
  split
  · next b is =>
    cases op with
    | create now path isDirectory =>
      obtain ⟨⟨id, q⟩, created, rfl⟩ := map_ok.mp is
      exact told.create created
    | attachSession now sessionId workspaceId cwd isDirectory => exact told.attachSession is good
    | attachReferencedSession now sessionId cwd title =>
      exact told.attachReferencedSession is good.1 good.2
    | selectReferenceWorkspace now cwd => exact told.selectReferenceWorkspace is
    | detachSession now sessionId =>
      cases is
      exact told.detachSession good
    | rename now workspaceId title => exact told.rename is
    | delete workspaceId => exact told.delete is
    | insertBefore workspaceId beforeWorkspaceId => exact told.insertBefore is
    | insertSessionBefore now workspaceId sessionId beforeSessionId =>
      exact told.insertSessionBefore is good.1 good.2
    | setPinned sessionId add =>
      cases is
      exact told.setPinned sessionId add
    | setArchived sessionId add =>
      cases is
      exact told.setArchived sessionId add
    | setReferenceGroups groups projectless =>
      cases is
      exact told.setReferenceGroups groups projectless
    | addDraftReference sessionId cwd =>
      cases is
      exact told.setReferenceGroups _ _
    | setReferencePins ids =>
      cases is
      exact told.setReferencePins ids
    | setReferenceArchives ids =>
      cases is
      exact told.setReferenceArchives ids
  · exact told

/-- Operations keep the ids of the workspaces apart. -/
theorem Well.touch {b : Broadcast} (well : Well b.1) (now : Int) (workspaceId : Nat)
    {change : WorkspaceView → WorkspaceView}
    (keeps : ∀ item, (change item).workspaceId = item.workspaceId) :
    Well (b.touch now workspaceId change).1 := by
  have keeps' (item : WorkspaceView) :
      ({ change item with updatedAt := now } : WorkspaceView).workspaceId = item.workspaceId :=
    keeps item
  rw [touch_items]
  exact well.modify workspaceId keeps'

theorem Well.join {b : Broadcast} (well : Well b.1) (now : Int) (workspaceId : Nat)
    (sessionId : String) (add : List String → List String) :
    Well (b.join now workspaceId sessionId add).1 := by
  unfold Broadcast.join
  split
  · split
    · exact well
    · exact well.touch now workspaceId fun _ => rfl
  · exact well

theorem Creates.well {b b' : Broadcast} {now : Int} {only : Bool}
    {workspaceId : Nat} (creates : Creates rules b now path only workspaceId b') (well : Well b.1) :
    Well b'.1 := by
  cases creates with
  | existing row found explicit => exact well
  | explicit row found only => exact well.touch now row.workspaceId fun _ => rfl
  | new row isAbsolute absent isId sessions isPath origin => exact well.added isId

theorem well_byPathOrCreate {b b' : Broadcast} {now : Int} {isDirectory only : Bool}
    {workspaceId : Nat} (well : Well b.1)
    (is : b.byPathOrCreate rules now cwd isDirectory only = .ok (workspaceId, b')) :
    Well b'.1 := by
  rcases byPathOrCreate_cases is with ⟨row, found, -, rfl⟩ | ⟨-, creates⟩
  · exact well
  · exact creates.well well

theorem well_rows {b : Broadcast} {now : Int} (step : Broadcast → WorkspaceView → Broadcast)
    (isStep : ∀ b row, step b row = b ∨ ∃ change : WorkspaceView → WorkspaceView,
      (∀ item, (change item).workspaceId = item.workspaceId) ∧
        step b row = b.touch now row.workspaceId change)
    (rows : List WorkspaceView) (well : Well b.1) : Well (rows.foldl step b).1 := by
  induction rows generalizing b with
  | nil => exact well
  | cons row rest ih =>
    rw [foldl_cons]
    rcases isStep b row with same | ⟨change, keeps, is⟩
    · rw [same]
      exact ih well
    · rw [is]
      exact ih (well.touch now row.workspaceId keeps)

theorem well_step (well : Well w) (op : Operation) : Well (op.step rules w).1 := by
  unfold Operation.step
  split
  · next b is =>
    cases op with
    | create now path isDirectory =>
      obtain ⟨⟨id, q⟩, created, rfl⟩ := map_ok.mp is
      exact (create_cases created).well well
    | attachSession now sessionId workspaceId cwd isDirectory =>
      obtain ⟨⟨id, q⟩, reached, rfl⟩ := map_ok.mp is
      refine Well.join ?_ now id sessionId _
      unfold owner at reached
      split at reached
      · cases reached
        exact well
      · split at reached
        · exact well_byPathOrCreate well reached
        · cases reached
    | attachReferencedSession now sessionId cwd title =>
      obtain ⟨⟨id, q⟩, reached, rfl⟩ := map_ok.mp is
      have reachedWell := well_byPathOrCreate well reached
      refine Well.join ?_ now id sessionId _
      split
      · split
        · exact reachedWell.touch now id fun _ => rfl
        · exact reachedWell
      · exact reachedWell
    | selectReferenceWorkspace now cwd =>
      obtain ⟨⟨id, q⟩, reached, rfl⟩ := map_ok.mp is
      have reachedWell := well_byPathOrCreate well reached
      simp only
      split
      · split
        · exact reachedWell.touch now id fun _ => rfl
        · exact reachedWell
      · exact reachedWell
    | detachSession now sessionId =>
      cases is
      refine @well_rows (w, []) now (detachFrom now sessionId) (fun b row => ?_) w.items
        well
      unfold detachFrom
      split
      · exact .inr ⟨fun item => { item with sessionIds := item.sessionIds.erase sessionId },
          fun _ => rfl, rfl⟩
      · exact .inl rfl
    | insertSessionBefore now workspaceId sessionId beforeSessionId =>
      simp only [Operation.run, insertSessionBefore] at is
      split at is
      · cases is
      · cases is
        refine Well.touch (@well_rows (w, []) now (leave now workspaceId sessionId)
          (fun b row => ?_) w.items well) now workspaceId fun _ => rfl
        unfold leave
        split
        · exact .inr ⟨fun item =>
            { item with sessionIds := item.sessionIds.filter (· ≠ sessionId) }, fun _ => rfl, rfl⟩
        · exact .inl rfl
    | rename now workspaceId title =>
      exact (Told.rename (f := .baseline w) ⟨well, sees_baseline well⟩ is).1
    | delete workspaceId => exact (Told.delete (f := .baseline w) ⟨well, sees_baseline well⟩ is).1
    | insertBefore workspaceId beforeWorkspaceId =>
      exact (Told.insertBefore (f := .baseline w) ⟨well, sees_baseline well⟩ is).1
    | setPinned sessionId add | setArchived sessionId add =>
      cases is
      exact ⟨well.unique, well.known⟩
    | setReferenceGroups groups projectless =>
      cases is
      exact ⟨well.unique, well.known⟩
    | addDraftReference sessionId cwd =>
      cases is
      exact ⟨well.unique, well.known⟩
    | setReferencePins ids =>
      cases is
      exact (Told.setReferencePins (f := .baseline w) ⟨well, sees_baseline well⟩ ids).1
    | setReferenceArchives ids =>
      cases is
      exact (Told.setReferenceArchives (f := .baseline w) ⟨well, sees_baseline well⟩ ids).1
  · exact well

/-- The registry after some operations. -/
def registryAfter (rules : PathRules) (w : Workspaces) (ops : List Operation) : Workspaces :=
  ops.foldl (fun w op => (op.step rules w).1) w

/-- What a follower that joined before these operations holds after them. -/
def followerAfter (rules : PathRules) (w : Workspaces) : Follower → List Operation → Follower
  | f, [] => f
  | f, op :: ops =>
    followerAfter rules (op.step rules w).1 ((op.step rules w).2.foldl Follower.receive f) ops

/-- Every operation is good where it happens. -/
def GoodRun (rules : PathRules) (w : Workspaces) : List Operation → Prop
  | [] => True
  | op :: ops => Good rules w op ∧ GoodRun rules (op.step rules w).1 ops

/-- The follower holds the rows of `list()` and the visible pins and archives. -/
structure Agrees (w : Workspaces) (f : Follower) : Prop where
  rows : f.rows.Perm w.list
  pinned : f.pinned = w.pinnedSessionIds
  archived : f.archived = w.archivedSessionIds

theorem SeesExcept.agrees (well : Well w) (sees : Sees w f) : Agrees w f :=
  ⟨perm_of_rowOf (list_unique well) sees.unique fun other => sees.rows other id, sees.pinned,
    sees.archived⟩

theorem well_run (well : Well w) (ops : List Operation) : Well (registryAfter rules w ops) := by
  induction ops generalizing w with
  | nil => exact well
  | cons op ops ih => exact ih (well_step well op)

theorem sees_run (well : Well w) (sees : Sees w f) {ops : List Operation} (good : GoodRun rules w ops) :
    Sees (registryAfter rules w ops) (followerAfter rules w f ops) := by
  induction ops generalizing w f with
  | nil => exact sees
  | cons op ops ih =>
    obtain ⟨well', sees'⟩ := sees_step well sees good.1
    exact ih well' sees' good.2

theorem goodRun_first {ops : List Operation} (good : GoodRun rules w ops) {first : List Operation}
    (isFirst : first <+: ops) : GoodRun rules w first := by
  induction first generalizing w ops with
  | nil => trivial
  | cons op first ih =>
    obtain ⟨rest, rfl⟩ := isFirst
    exact ⟨good.1, ih good.2 ⟨rest, rfl⟩⟩

/-- A registry without workspaces. -/
def empty : Workspaces := ⟨[], [], [], none, [], none, none, 0⟩

/-- POSIX paths without anything to resolve. -/
def plainPaths : PathRules :=
  ⟨id, fun path => "/".toList.isPrefixOf path.toList, id, fun path =>
    String.ofList (path.toList.reverse.takeWhile (· ≠ '/')).reverse⟩

theorem empty_well : Well empty := ⟨nodup_nil, nofun⟩

/-- A row of the previous build with a reference of another path. -/
def legacyRows : Workspaces :=
  ⟨[⟨0, "/p", "p", ["own", "shared"], 0, 0, none⟩], [], [],
    some (OrderedMap.empty.set "shared" none), [], none, none, 1⟩

end Runs

end CodexHost.Guarantees.WorkspaceFollow
