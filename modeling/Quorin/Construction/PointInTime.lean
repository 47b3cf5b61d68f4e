import Quorin.Construction.OfflineStore
import Quorin.Library.BinarySearch
import Mathlib.Data.String.Basic

namespace Quorin

/-- One row of the feature dataset, whose `values` are the columns of the schema fields. -/
structure FeatureRow (V : Type) where
  entityId : String
  eventTimeNs : Int
  msgIdMs : Int
  msgIdSeq : Int
  values : V
  deriving DecidableEq

/-- One row of the query table, whose `columns` are kept as they are. -/
structure QueryRow (Q : Type) where
  entityId : String
  asOfTime : Int64
  columns : Q
  deriving DecidableEq

/-- The feature columns of one result row; the message columns exist in a dataset that has them. -/
structure FeaturePart (V : Type) where
  eventTimeNs : Int
  values : V
  msgId : Option (Int × Int)
  deriving DecidableEq

inductive PointInTimeError where
  | lookback (days : Int)
  | literal (value : Int)
  deriving DecidableEq

section Read

variable {V Q : Type}

/-- A literal of a filter on an int64 column is an int64. -/
def int64Literal (value : Int) : Except PointInTimeError Int :=
  if -2 ^ 63 ≤ value ∧ value < 2 ^ 63 then .ok value else .error (.literal value)

/-- The rows of every file whose event time is in the closed window. -/
def eventTimeWindow (files : List (List (FeatureRow V))) (winStartNs winEndNs : Int) :
    Except PointInTimeError (List (FeatureRow V)) := do
  let start ← int64Literal winStartNs
  let stop ← int64Literal winEndNs
  return files.flatMap fun rows => rows.filter fun row =>
    decide (start ≤ row.eventTimeNs ∧ row.eventTimeNs ≤ stop)

/-- The key of a group is the message, or the entity and the time without message columns. -/
inductive GroupKey where
  | message (ms seq : Int)
  | natural (entityId : String) (eventTimeNs : Int)
  deriving DecidableEq

def FeatureRow.groupKey (hasMsgId : Bool) (row : FeatureRow V) : GroupKey :=
  if hasMsgId then .message row.msgIdMs row.msgIdSeq else .natural row.entityId row.eventTimeNs

/-- The smallest or the largest index of a key. -/
def aggregateIdx (hasMsgId : Bool) (keys : List GroupKey) (key : GroupKey) : Nat :=
  if hasMsgId then keys.idxOf key else keys.length - 1 - keys.reverse.idxOf key

/-- One row for each group; the groups come in an order that the grouping chooses. -/
def dedupFeatures (order : List GroupKey → List GroupKey) (hasMsgId : Bool)
    (table : List (FeatureRow V)) : List (FeatureRow V) :=
  match table with
  | [] => []
  | _ :: _ =>
      let keys := table.map (FeatureRow.groupKey hasMsgId)
      let indices := (order keys.dedup).map (aggregateIdx hasMsgId keys)
      indices.filterMap fun index => table[index]?

/-- The sort compares the bytes of the entity ids, the event times and the message ids. -/
def sortOrder (hasMsgId : Bool) (first second : FeatureRow V) : Ordering :=
  (compareOfLessAndEq (encodeUtf8 first.entityId) (encodeUtf8 second.entityId)).then
    ((compare first.eventTimeNs second.eventTimeNs).then
      (if hasMsgId then
        (compare first.msgIdMs second.msgIdMs).then (compare first.msgIdSeq second.msgIdSeq)
      else .eq))

def sortFeatures (hasMsgId : Bool) (features : List (FeatureRow V)) : List (FeatureRow V) :=
  features.mergeSort fun first second => (sortOrder hasMsgId first second).isLE

def FeatureRow.part (hasMsgId : Bool) (row : FeatureRow V) : FeaturePart V where
  eventTimeNs := row.eventTimeNs
  values := row.values
  msgId := if hasMsgId then some (row.msgIdMs, row.msgIdSeq) else none

/-- The index of the answer of one query in the sorted features. -/
def asofIndex (sorted : List (FeatureRow V)) (lookbackNs : Int) (query : QueryRow Q) : Option Nat :=
  let eids := sorted.map FeatureRow.entityId
  let ets := sorted.map FeatureRow.eventTimeNs
  let lo := BinarySearch.searchsorted .left eids query.entityId
  let hi := BinarySearch.searchsorted .right eids query.entityId
  if lo = hi then none
  else
    let pos := BinarySearch.searchsorted .right ((ets.take hi).drop lo) query.asOfTime.toInt
    if pos = 0 then none
    else
      let candidate := lo + pos - 1
      if ets.getD candidate 0 < query.asOfTime.toInt - lookbackNs then none else some candidate

/-- One row for each query in the order of the queries; a missing index takes nulls. -/
def asofJoin (hasMsgId : Bool) (lookbackNs : Int) (queries : List (QueryRow Q))
    (features : List (FeatureRow V)) : List (QueryRow Q × Option (FeaturePart V)) :=
  let sorted := sortFeatures hasMsgId features
  queries.map fun query =>
    (query, ((asofIndex sorted lookbackNs query).bind (sorted[·]?)).map (FeatureRow.part hasMsgId))

/-- The window filter covers every query, the duplicates go, and each query is then joined. -/
def readPointInTime (order : List GroupKey → List GroupKey) (hasMsgId : Bool)
    (files : List (List (FeatureRow V))) (queries : List (QueryRow Q)) (lookbackDays : Int) :
    Except PointInTimeError (List (QueryRow Q × Option (FeaturePart V))) :=
  if lookbackDays ≤ 0 then .error (.lookback lookbackDays)
  else
    let aots := queries.map fun query => query.asOfTime.toInt
    match aots.min?, aots.max? with
    | some minAot, some maxAot => do
        let lookbackNs := lookbackDays * dayNs
        let features ← eventTimeWindow files (minAot - lookbackNs) maxAot
        return asofJoin hasMsgId lookbackNs queries (dedupFeatures order hasMsgId features)
    | _, _ => .ok []

end Read

end Quorin
