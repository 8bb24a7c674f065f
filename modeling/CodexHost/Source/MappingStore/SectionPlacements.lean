import CodexHost.Source.MappingStore.Operations

/-!
# Listing section placements

`listSectionPlacements` of `packages/mapping-store/src/mapping-store.ts`.
-/
namespace CodexHost.Source.MappingStore
open Foundation Source.SharedContracts

/-- The anchors of the placements of removed Threads. -/
def removedSuccessors (store : StoreState) : OrderedMap HostThreadId (Option String) :=
  OrderedMap.empty.setAll
    ((store.sectionPlacements.filter fun placement => !store.records.has placement.hostThreadId).map
      fun placement => (placement.hostThreadId, placement.beforeThreadId))

/-- The loop over a chain of removed Threads; it has no more turns than there are of them and one. -/
def followRemoved (removed : OrderedMap HostThreadId (Option String)) :
    Nat → List String → Option String → Option String
  | 0, _, before => before
  | _ + 1, _, none => none
  | turns + 1, visited, some before =>
    match removed.get? before with
    | none => some before
    | some next =>
      if before ∈ visited then none else followRemoved removed turns (before :: visited) next

def listSectionPlacements (store : StoreState) : List StoredSectionPlacementV1 :=
  let removed := removedSuccessors store
  (store.sectionPlacements.filter fun placement => store.records.has placement.hostThreadId).map
    fun placement =>
      { placement with
        beforeThreadId :=
          followRemoved removed (removed.entries.length + 1) [] placement.beforeThreadId }

end CodexHost.Source.MappingStore
