import CodexHost.Foundation.OrderedMap

/-!
# The workspace registry

`packages/web-server/src/workspaces.ts`: the operations of `Workspaces` with the frames that each of
them broadcasts, and the follower of `workspace/follow`. New workspace ids are counted; an operation
happens at one time. What Node makes of a path is a parameter.
-/
namespace CodexHost.Source.WebServer
open Foundation

inductive Origin where
  | web
  | codexhost
  deriving DecidableEq, Repr

structure WorkspaceView where
  workspaceId : Nat
  path : String
  title : String
  sessionIds : List String
  createdAt : Int
  updatedAt : Int
  origin : Option Origin
  deriving DecidableEq, Repr

/-- The functions of `node:path` and the home directory. -/
structure PathRules where
  expanded : String → String
  isAbsolute : String → Bool
  resolve : String → String
  basename : String → String

inductive Frame where
  | upsert (workspace : WorkspaceView)
  | remove (workspaceId : Nat)
  | order (workspaceIds : List Nat)
  | pinned (pinnedSessionIds : List String)
  | archived (archivedSessionIds : List String)
  deriving DecidableEq, Repr

structure Workspaces where
  items : List WorkspaceView
  archived : List String
  pinned : List String
  referenceGroups : Option (OrderedMap String (Option String))
  referenceProjectless : List String
  referencePins : Option (List String)
  referenceArchives : Option (List String)
  nextId : Nat

/-- The registry in the middle of an operation, and the frames so far. -/
abbrev Broadcast := Workspaces × List Frame

inductive RpcError where
  | invalidPath (message path : String)
  | notFound (workspaceId : Nat)
  deriving DecidableEq, Repr

/-- A row that the previous build made for referenced Sessions. -/
def legacyReference (references : OrderedMap String (Option String)) (workspace : WorkspaceView) : Bool :=
  workspace.origin.isNone && workspace.sessionIds.length > 0 && workspace.sessionIds.any (references.has ·) &&
    workspace.sessionIds.all fun id => references.has id || "draft-".toList.isPrefixOf id.toList

/-- The condition of the filter in `list`. -/
def isVisible (references : OrderedMap String (Option String)) (workspace : WorkspaceView) : Bool :=
  workspace.origin = some .web ||
    !(workspace.origin = some .codexhost || legacyReference references workspace) ||
    references.values.contains (some workspace.path)

/-- The row as `list` shows it. -/
def visibleRow (references : OrderedMap String (Option String)) (projectless : List String)
    (workspace : WorkspaceView) : WorkspaceView :=
  { workspace with
    sessionIds := workspace.sessionIds.filter fun id =>
      !references.has id || references.get? id = some (some workspace.path) ||
        (workspace.origin = some .web && ((references.get? id).bind fun path => path).isNone &&
          !projectless.contains id) }

namespace Workspaces
variable (w : Workspaces)

def list : List WorkspaceView :=
  match w.referenceGroups with
  | none => w.items
  | some references =>
    (w.items.filter (isVisible references)).map (visibleRow references w.referenceProjectless)

def pinnedSessionIds : List String :=
  match w.referencePins with
  | none => w.pinned
  | some ids => ids.eraseDups

def archivedSessionIds : List String :=
  match w.referenceArchives with
  | none => w.archived
  | some ids => ids.eraseDups

def get (workspaceId : Nat) : Option WorkspaceView := w.items.find? (·.workspaceId = workspaceId)

def byPath (path : String) : Option WorkspaceView := w.items.find? (·.path = path)

/-- The row with this id changes in place. -/
def modify (workspaceId : Nat) (change : WorkspaceView → WorkspaceView) : Workspaces :=
  { w with items := w.items.map fun item =>
      if item.workspaceId = workspaceId then change item else item }

end Workspaces

namespace Broadcast
variable (b : Broadcast)

def push (frame : Frame) : Broadcast := (b.1, b.2 ++ [frame])

/-- `touch`, of a row that was changed before. -/
def touch (now : Int) (workspaceId : Nat) (change : WorkspaceView → WorkspaceView) : Broadcast :=
  let w := b.1.modify workspaceId fun item => { change item with updatedAt := now }
  match w.list.find? (·.workspaceId = workspaceId) with
  | some visible => push (w, b.2) (.upsert visible)
  | none => (w, b.2)

/-- `create`: the id of the workspace, and whether it is new. -/
def create (rules : PathRules) (now : Int) (path : String) (isDirectory referenceOnly : Bool) :
    Except RpcError (Nat × Broadcast) :=
  let expanded := rules.expanded path
  if !rules.isAbsolute expanded then
    .error (.invalidPath ("Workspace path must be absolute: " ++ path) path)
  else
    let absolute := rules.resolve expanded
    if !referenceOnly && !isDirectory then .error (.invalidPath ("Not a directory: " ++ absolute) path)
    else
      match b.1.byPath absolute with
      | some existing =>
        if !referenceOnly && existing.origin ≠ some Origin.web then
          .ok (existing.workspaceId,
            b.touch now existing.workspaceId fun item => { item with origin := some .web })
        else .ok (existing.workspaceId, b)
      | none =>
        let title := if rules.basename absolute = "" then absolute else rules.basename absolute
        let workspace : WorkspaceView := ⟨b.1.nextId, absolute, title, [], now, now,
          some (if referenceOnly then .codexhost else .web)⟩
        let w := { b.1 with items := b.1.items ++ [workspace], nextId := b.1.nextId + 1 }
        .ok (workspace.workspaceId, (push (push (w, b.2) (.upsert workspace))
          (.order (w.items.map (·.workspaceId)))))

/-- The row of a path, which is created when there is none. -/
def byPathOrCreate (rules : PathRules) (now : Int) (cwd : String) (isDirectory referenceOnly : Bool) :
    Except RpcError (Nat × Broadcast) :=
  match b.1.byPath (rules.resolve cwd) with
  | some workspace => .ok (workspace.workspaceId, b)
  | none => b.create rules now cwd isDirectory referenceOnly

/-- A Session joins the row, unless it is there; the row is touched then. -/
def join (now : Int) (workspaceId : Nat) (sessionId : String) (add : List String → List String) : Broadcast :=
  match b.1.get workspaceId with
  | some workspace =>
    if workspace.sessionIds.contains sessionId then b
    else b.touch now workspaceId fun item => { item with sessionIds := add item.sessionIds }
  | none => b

/-- The row that `attachSession` attaches to. -/
def owner (rules : PathRules) (now : Int) (workspaceId : Option Nat) (cwd : Option String)
    (isDirectory : Bool) : Except RpcError (Nat × Broadcast) :=
  match workspaceId.bind b.1.get with
  | some workspace => .ok (workspace.workspaceId, b)
  | none =>
    match cwd with
    | some cwd => b.byPathOrCreate rules now cwd isDirectory false
    | none => .error (.invalidPath "Session needs a workspace or cwd" "")

def attachSession (rules : PathRules) (now : Int) (sessionId : String) (workspaceId : Option Nat)
    (cwd : Option String) (isDirectory : Bool) : Except RpcError Broadcast :=
  (b.owner rules now workspaceId cwd isDirectory).map fun (workspaceId, b) =>
    b.join now workspaceId sessionId fun ids => sessionId :: ids

def attachReferencedSession (rules : PathRules) (now : Int) (sessionId cwd : String)
    (title : Option String) : Except RpcError Broadcast :=
  (b.byPathOrCreate rules now cwd false true).map fun (workspaceId, b) =>
    let b := match b.1.get workspaceId, title.filter (· ≠ "") with
      | some workspace, some title =>
        if workspace.origin ≠ some Origin.web && workspace.title ≠ title then
          b.touch now workspaceId fun item => { item with title := title }
        else b
      | _, _ => b
    b.join now workspaceId sessionId fun ids => ids ++ [sessionId]

def selectReferenceWorkspace (rules : PathRules) (now : Int) (cwd : String) : Except RpcError Broadcast :=
  (b.byPathOrCreate rules now cwd false true).map fun (workspaceId, b) =>
    match b.1.get workspaceId with
    | some workspace =>
      if workspace.origin ≠ some Origin.web then
        b.touch now workspaceId fun item => { item with origin := some .web }
      else b
    | none => b

/-- The loop body of `detachSession`. -/
def detachFrom (now : Int) (sessionId : String) (b : Broadcast) (workspace : WorkspaceView) : Broadcast :=
  if workspace.sessionIds.contains sessionId then
    b.touch now workspace.workspaceId fun item =>
      { item with sessionIds := item.sessionIds.erase sessionId }
  else b

def detachSession (now : Int) (sessionId : String) : Broadcast :=
  b.1.items.foldl (detachFrom now sessionId) b

def setReferenceGroups (groups : OrderedMap String (Option String)) (projectless : List String) : Broadcast :=
  let before := b.1.list
  let w := { b.1 with referenceGroups := some groups, referenceProjectless := projectless }
  let after := w.list
  let removed := (before.filter fun workspace =>
    !(after.map (·.workspaceId)).contains workspace.workspaceId).map fun workspace =>
      Frame.remove workspace.workspaceId
  let changed := (after.filter fun workspace =>
    before.find? (·.workspaceId = workspace.workspaceId) ≠ some workspace).map Frame.upsert
  (w, b.2 ++ removed ++ changed)

def addDraftReference (rules : PathRules) (sessionId : String) (cwd : Option String) : Broadcast :=
  let cwd := cwd.filter (· ≠ "")
  let projectless := b.1.referenceProjectless.filter (· ≠ sessionId)
  b.setReferenceGroups ((b.1.referenceGroups.getD .empty).set sessionId (cwd.map rules.resolve))
    (if cwd.isSome then projectless else projectless ++ [sessionId])

def setReferencePins (ids : List String) : Broadcast :=
  let next := ids.eraseDups
  if b.1.referencePins = some next then b
  else
    let w := { b.1 with referencePins := some next }
    push (w, b.2) (.pinned w.pinnedSessionIds)

def setReferenceArchives (ids : List String) : Broadcast :=
  let next := ids.eraseDups
  if b.1.referenceArchives = some next then b
  else
    let w := { b.1 with referenceArchives := some next }
    push (w, b.2) (.archived w.archivedSessionIds)

def rename (now : Int) (workspaceId : Nat) (title : String) : Except RpcError Broadcast :=
  match b.1.get workspaceId with
  | none => .error (.notFound workspaceId)
  | some _ => .ok (b.touch now workspaceId fun item => { item with title := title })

def delete (workspaceId : Nat) : Except RpcError Broadcast :=
  match b.1.get workspaceId with
  | none => .error (.notFound workspaceId)
  | some _ =>
    let w := { b.1 with items := b.1.items.filter (·.workspaceId ≠ workspaceId) }
    .ok (push (w, b.2) (.remove workspaceId))

/-- `rest.splice(index, 0, item)` before the first element that this is, else at the end. -/
def insertAt {α : Type} (isBefore : α → Bool) (rest : List α) (item : α) : List α :=
  rest.takeWhile (!isBefore ·) ++ item :: rest.dropWhile (!isBefore ·)

def insertBefore (workspaceId : Nat) (beforeWorkspaceId : Option Nat) : Except RpcError Broadcast :=
  match b.1.get workspaceId with
  | none => .error (.notFound workspaceId)
  | some workspace =>
    let rest := b.1.items.filter (·.workspaceId ≠ workspaceId)
    let items := insertAt (fun item => some item.workspaceId = beforeWorkspaceId) rest workspace
    .ok (push ({ b.1 with items := items }, b.2) (.order (items.map (·.workspaceId))))

/-- The loop body of `insertSessionBefore` over the other rows. -/
def leave (now : Int) (workspaceId : Nat) (sessionId : String) (b : Broadcast)
    (other : WorkspaceView) : Broadcast :=
  if other.workspaceId ≠ workspaceId && other.sessionIds.contains sessionId then
    b.touch now other.workspaceId fun item =>
      { item with sessionIds := item.sessionIds.filter (· ≠ sessionId) }
  else b

def insertSessionBefore (now : Int) (workspaceId : Nat) (sessionId : String)
    (beforeSessionId : Option String) : Except RpcError Broadcast :=
  match b.1.get workspaceId with
  | none => .error (.notFound workspaceId)
  | some _ =>
    let b := b.1.items.foldl (leave now workspaceId sessionId) b
    .ok (b.touch now workspaceId fun item =>
      { item with
        sessionIds := insertAt (fun id => some id = beforeSessionId)
          (item.sessionIds.filter (· ≠ sessionId)) sessionId })

/-- What `setMembership` makes of its list. -/
def membership (ids : List String) (sessionId : String) (add : Bool) : List String :=
  ids.filter (· ≠ sessionId) ++ if add then [sessionId] else []

def setArchived (sessionId : String) (add : Bool) : Broadcast :=
  let w := { b.1 with archived := membership b.1.archived sessionId add }
  push (w, b.2) (.archived w.archivedSessionIds)

def setPinned (sessionId : String) (add : Bool) : Broadcast :=
  let w := { b.1 with pinned := membership b.1.pinned sessionId add }
  push (w, b.2) (.pinned w.pinnedSessionIds)

end Broadcast

inductive Operation where
  | create (now : Int) (path : String) (isDirectory : Bool)
  | attachSession (now : Int) (sessionId : String) (workspaceId : Option Nat) (cwd : Option String)
      (isDirectory : Bool)
  | attachReferencedSession (now : Int) (sessionId cwd : String) (title : Option String)
  | selectReferenceWorkspace (now : Int) (cwd : String)
  | detachSession (now : Int) (sessionId : String)
  | rename (now : Int) (workspaceId : Nat) (title : String)
  | delete (workspaceId : Nat)
  | insertBefore (workspaceId : Nat) (beforeWorkspaceId : Option Nat)
  | insertSessionBefore (now : Int) (workspaceId : Nat) (sessionId : String)
      (beforeSessionId : Option String)
  | setPinned (sessionId : String) (add : Bool)
  | setArchived (sessionId : String) (add : Bool)
  | setReferenceGroups (groups : OrderedMap String (Option String)) (projectless : List String)
  | addDraftReference (sessionId : String) (cwd : Option String)
  | setReferencePins (ids : List String)
  | setReferenceArchives (ids : List String)

namespace Operation

def run (rules : PathRules) (w : Workspaces) (op : Operation) : Except RpcError Broadcast :=
  let b : Broadcast := (w, [])
  match op with
  | .create now path isDirectory => (b.create rules now path isDirectory false).map (·.2)
  | .attachSession now sessionId workspaceId cwd isDirectory =>
    b.attachSession rules now sessionId workspaceId cwd isDirectory
  | .attachReferencedSession now sessionId cwd title =>
    b.attachReferencedSession rules now sessionId cwd title
  | .selectReferenceWorkspace now cwd => b.selectReferenceWorkspace rules now cwd
  | .detachSession now sessionId => .ok (b.detachSession now sessionId)
  | .rename now workspaceId title => b.rename now workspaceId title
  | .delete workspaceId => b.delete workspaceId
  | .insertBefore workspaceId beforeWorkspaceId => b.insertBefore workspaceId beforeWorkspaceId
  | .insertSessionBefore now workspaceId sessionId beforeSessionId =>
    b.insertSessionBefore now workspaceId sessionId beforeSessionId
  | .setPinned sessionId add => .ok (b.setPinned sessionId add)
  | .setArchived sessionId add => .ok (b.setArchived sessionId add)
  | .setReferenceGroups groups projectless => .ok (b.setReferenceGroups groups projectless)
  | .addDraftReference sessionId cwd => .ok (b.addDraftReference rules sessionId cwd)
  | .setReferencePins ids => .ok (b.setReferencePins ids)
  | .setReferenceArchives ids => .ok (b.setReferenceArchives ids)

/-- An operation that throws changes nothing and broadcasts nothing. -/
def step (rules : PathRules) (w : Workspaces) (op : Operation) : Broadcast :=
  match op.run rules w with
  | .ok b => b
  | .error _ => (w, [])

end Operation

/-- What a follower holds. -/
structure Follower where
  rows : List WorkspaceView
  pinned : List String
  archived : List String
  deriving DecidableEq, Repr

namespace Follower

/-- The baseline of `workspace/follow`. -/
def baseline (w : Workspaces) : Follower := ⟨w.list, w.pinnedSessionIds, w.archivedSessionIds⟩

variable (f : Follower)

def upsert (workspace : WorkspaceView) : Follower :=
  if f.rows.any (·.workspaceId = workspace.workspaceId) then
    { f with rows := f.rows.map fun row =>
        if row.workspaceId = workspace.workspaceId then workspace else row }
  else { f with rows := workspace :: f.rows }

/-- The rows in the order of these ids, rows that are not named last. -/
def sorted (workspaceIds : List Nat) : Follower :=
  { f with rows := f.rows.mergeSort fun left right =>
      workspaceIds.idxOf left.workspaceId ≤ workspaceIds.idxOf right.workspaceId }

def receive (f : Follower) : Frame → Follower
  | .upsert workspace => f.upsert workspace
  | .remove workspaceId => { f with rows := f.rows.filter (·.workspaceId ≠ workspaceId) }
  | .order workspaceIds => f.sorted workspaceIds
  | .pinned pinnedSessionIds => { f with pinned := pinnedSessionIds }
  | .archived archivedSessionIds => { f with archived := archivedSessionIds }

end Follower

end CodexHost.Source.WebServer
