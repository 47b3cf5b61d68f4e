import Quorin.Construction.DateText
import Quorin.Construction.PointInTime

namespace Quorin

/-- One file of the dataset with the value of its partition column `event_date`. -/
structure PartitionFile (V : Type) where
  eventDate : String
  rows : List (FeatureRow V)

/-- The failures of a read: a window without a date text, or one of the window itself. -/
inductive ReadError where
  | date (ns : Int)
  | window (error : PointInTimeError)
  deriving DecidableEq

section Read

variable {V Q : Type} (dateString : Int → Option String)

/-- The files that the two conjuncts on `event_date` keep. -/
def keptFiles (startDate stopDate : String) (files : List (PartitionFile V)) :
    List (List (FeatureRow V)) :=
  (files.filter fun file =>
    decide (startDate ≤ file.eventDate ∧ file.eventDate ≤ stopDate)).map PartitionFile.rows

/-- The filter of both readers: the date texts of the window ends first, then the event times. -/
def windowRows (files : List (PartitionFile V)) (winStartNs winEndNs : Int) :
    Except ReadError (List (FeatureRow V)) :=
  match dateString winStartNs, dateString winEndNs with
  | none, _ => .error (.date winStartNs)
  | some _, none => .error (.date winEndNs)
  | some startDate, some stopDate =>
      (eventTimeWindow (keptFiles startDate stopDate files) winStartNs winEndNs).mapError .window

/-- The body of `read_point_in_time` on the partitions of the dataset. -/
def readPartitions (order : List GroupKey → List GroupKey) (hasMsgId : Bool)
    (files : List (PartitionFile V)) (queries : List (QueryRow Q)) (lookbackDays : Int) :
    Except ReadError (List (QueryRow Q × Option (FeaturePart V))) :=
  if lookbackDays ≤ 0 then .error (.window (.lookback lookbackDays))
  else
    let aots := queries.map fun query => query.asOfTime.toInt
    match aots.min?, aots.max? with
    | some minAot, some maxAot => do
        let lookbackNs := lookbackDays * dayNs
        let features ← windowRows dateString files (minAot - lookbackNs) maxAot
        return asofJoin hasMsgId lookbackNs queries (dedupFeatures order hasMsgId features)
    | _, _ => .ok []

/-- The largest index of an entity id. -/
def lastIdx (eids : List String) (entityId : String) : Nat :=
  eids.length - 1 - eids.reverse.idxOf entityId

/-- The last row of each entity in the sorted window; the grouping chooses the order. -/
def latestFeatures (order : List String → List String) (hasMsgId : Bool)
    (files : List (PartitionFile V)) (snapshotNs lookbackDays : Int) :
    Except ReadError (List (FeatureRow V)) :=
  if lookbackDays ≤ 0 then .error (.window (.lookback lookbackDays))
  else do
    let features ← windowRows dateString files (snapshotNs - lookbackDays * dayNs) snapshotNs
    match features with
    | [] => return []
    | _ :: _ =>
        let sorted := sortFeatures hasMsgId features
        let eids := sorted.map FeatureRow.entityId
        let indices := (order eids.dedup).map (lastIdx eids)
        return indices.filterMap fun index => sorted[index]?

end Read

end Quorin
