import Quorin.Construction.Segment
import Mathlib.Data.Finset.Card

namespace Quorin

open ByteMemory

/-- One call of `insert`. -/
structure InsertRequest where
  entityId : String
  rowData : List UInt8
  deriving DecidableEq

/-- A history is a segment with its fully written inserts, newest first, and its lost rows. -/
structure SegmentHistory where
  memory : Memory
  log : List InsertRequest
  lost : Nat

section Calls

variable (hashId : List UInt8 → UInt64) (layout : SegmentLayout)

/-- A fresh segment has no inserts and no lost rows. -/
def SegmentHistory.fresh (header : List UInt8) : SegmentHistory :=
  ⟨freshSegment layout header, [], 0⟩

/-- A completed call enters the log when it returns. -/
def SegmentHistory.completeInsert (history : SegmentHistory) (request : InsertRequest) :
    SegmentHistory :=
  let outcome := (insert hashId layout request.entityId request.rowData).run history.memory
  { history with
    memory := outcome.2
    log :=
      match outcome.1 with
      | .ok _ => request :: history.log
      | .error _ => history.log }

/-- A call that is cut off after `count` writes enters the log when none of its writes is missing. -/
def SegmentHistory.cutOffInsert (history : SegmentHistory) (request : InsertRequest)
    (count : Nat) : SegmentHistory :=
  let total :=
    ((insert hashId layout request.entityId request.rowData).writes history.memory).length
  { memory := cutInsert hashId layout history.memory request.entityId request.rowData count
    log := if 0 < total ∧ total ≤ count then request :: history.log else history.log
    lost := if 0 < count ∧ count < total then history.lost + 1 else history.lost }

/-- A call either completes or is cut off after a number of writes. -/
def SegmentHistory.perform (history : SegmentHistory) (call : InsertRequest × Option Nat) :
    SegmentHistory :=
  match call.2 with
  | none => history.completeInsert hashId layout call.1
  | some count => history.cutOffInsert hashId layout call.1 count

/-- The history of a sequence of completed calls on a fresh segment. -/
def runInserts (header : List UInt8) (requests : List InsertRequest) : SegmentHistory :=
  requests.foldl (SegmentHistory.completeInsert hashId layout) (.fresh layout header)

/-- The history of a sequence of calls, each completed or cut off, on a fresh segment. -/
def runCalls (header : List UInt8) (calls : List (InsertRequest × Option Nat)) : SegmentHistory :=
  calls.foldl (SegmentHistory.perform hashId layout) (.fresh layout header)

end Calls

/-- The row of the newest insert of an id. -/
def lastRow (log : List InsertRequest) (entityId : String) : Option (List UInt8) :=
  (log.find? fun request => request.entityId = entityId).map InsertRequest.rowData

/-- The ids of the inserts. -/
def presentIds (log : List InsertRequest) : Finset String :=
  (log.map InsertRequest.entityId).toFinset

/-- A segment behaves as a finite map with a number of consumed row indices. -/
structure BehavesAsMap (hashId : List UInt8 → UInt64) (layout : SegmentLayout) (memory : Memory)
    (rows : String → Option (List UInt8)) (consumed : Nat) : Prop where
  /-- A lookup of an absent id returns nothing. -/
  absent : ∀ entityId, entityId ≠ "" → rows entityId = none →
    (lookup hashId layout entityId).run memory = (.ok none, memory)
  /-- A lookup of a present id returns the offset of its row. -/
  present : ∀ entityId rowData, rows entityId = some rowData →
    ∃ address, (lookup hashId layout entityId).run memory = (.ok (some address), memory) ∧
      memory.read address layout.rowSize = rowData
  /-- Two present ids have disjoint rows. -/
  apart : ∀ first second firstAddress secondAddress, first ≠ second →
    (lookup hashId layout first).result memory = .ok (some firstAddress) →
    (lookup hashId layout second).result memory = .ok (some secondAddress) →
    firstAddress + layout.rowSize ≤ secondAddress ∨ secondAddress + layout.rowSize ≤ firstAddress
  /-- The iteration yields every present id once, with the offset of its row. -/
  iterated : ∃ entries, (iterateOccupied layout).run memory = (.ok entries, memory) ∧
    (entries.map Prod.fst).Nodup ∧
    (∀ entityId, entityId ∈ entries.map Prod.fst ↔ rows entityId ≠ none) ∧
    ∀ entry ∈ entries, (lookup hashId layout entry.1).result memory = .ok (some entry.2)
  /-- An insert of a well-formed request fails only for a long id or a full segment. -/
  inserted : ∀ entityId rowData, entityId ≠ "" → rowData.length = layout.rowSize →
    (insert hashId layout entityId rowData).result memory =
      if (encodeUtf8 entityId).length > layout.maxIdBytes then
        .error (.idTooLong (encodeUtf8 entityId).length layout.maxIdBytes)
      else if rows entityId = none ∧ consumed = layout.capacity then
        .error (.capacityReached layout.capacity consumed)
      else .ok (rows entityId).isNone
  /-- No request reaches the full pool or the end of the slot scan. -/
  unreachable : ∀ entityId rowData error,
    (insert hashId layout entityId rowData).result memory = .error error →
    error ≠ .slotTableScanned ∧
      ∀ cursor entrySize capacity, error ≠ .poolDataAreaFull cursor entrySize capacity
  /-- An insert that raises leaves every byte as it was. -/
  raised : ∀ entityId rowData error,
    (insert hashId layout entityId rowData).result memory = .error error →
    ((insert hashId layout entityId rowData).run memory).2 = memory

end Quorin
