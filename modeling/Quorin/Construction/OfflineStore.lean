import Quorin.Construction.RowPack

namespace Quorin

/-- The column names that the writer keeps for itself. -/
def reservedFieldNames : List String :=
  ["entity_id", "event_time_ns", "msg_id_ms", "msg_id_seq", "event_date"]

/-- The failures of an append, in the order of its steps. -/
inductive AppendError where
  | unsupportedShape (name : String) (shape : List Nat)
  | reservedNames (className : String) (names : List String)
  | date (eventTimeNs : Int)
  | valuesLength (length fields : Nat)
  | msgId (text : List UInt8)
  deriving DecidableEq

def arrowTypeFor (field : FeatureField) : Except AppendError ArrowType :=
  match field.shape with
  | [] => .ok (.leaf field.dtype)
  | [length] => .ok (.fixedList (.leaf field.dtype) length)
  | [rows, columns] => .ok (.fixedList (.fixedList (.leaf field.dtype) columns) rows)
  | _ => .error (.unsupportedShape field.name field.shape)

/-- The types of the field columns in wire order, which is the order of the name hashes. -/
structure ArrowPlan where
  wireTypes : List ArrowType
  deriving DecidableEq

/-- The fields of a schema in wire order. -/
def wireOrder (hashName : String → UInt64) (schema : FeatureSchema) : List FeatureField :=
  schema.fields.mergeSort fun first second => decide (hashName first.name ≤ hashName second.name)

/-- The Arrow plan refuses reserved names first and unsupported shapes in declaration order. -/
def arrowPlanFor (hashName : String → UInt64) (schema : FeatureSchema) :
    Except AppendError ArrowPlan := do
  let collisions := ((schema.fields.map FeatureField.name).filter fun name =>
    decide (name ∈ reservedFieldNames)).mergeSort fun first second => decide (first ≤ second)
  if collisions ≠ [] then throw (.reservedNames schema.className collisions)
  let _ ← schema.fields.mapM arrowTypeFor
  return ⟨← (wireOrder hashName schema).mapM arrowTypeFor⟩

/-- The columns of one `(schema, date)` bucket are kept at one length. -/
structure Bucket where
  entityIdCol : List String
  eventTimeNsCol : List Int
  wireLists : List (List WireValue)
  msgIdCols : Option (List Int × List Int)
  timesAligned : eventTimeNsCol.length = entityIdCol.length
  listsAligned : ∀ column ∈ wireLists, column.length = entityIdCol.length
  idsAligned : ∀ columns, msgIdCols = some columns →
    columns.1.length = entityIdCol.length ∧ columns.2.length = entityIdCol.length

/-- A fresh bucket has an empty list for each column of the plan. -/
def makeBucket (plan : ArrowPlan) (includeMsgId : Bool) : Bucket where
  entityIdCol := []
  eventTimeNsCol := []
  wireLists := plan.wireTypes.map fun _ => []
  msgIdCols := if includeMsgId then some ([], []) else none
  timesAligned := rfl
  listsAligned := by simp
  idsAligned := by
    intro columns held
    split at held
    · obtain rfl := Option.some.inj held
      exact ⟨rfl, rfl⟩
    · cases held

/-- The columns grow by one row after every check has passed. -/
def Bucket.push (bucket : Bucket) (entityId : String) (eventTimeNs : Int)
    (values : List WireValue) (msgId : Int × Int) : Bucket where
  entityIdCol := bucket.entityIdCol ++ [entityId]
  eventTimeNsCol := bucket.eventTimeNsCol ++ [eventTimeNs]
  wireLists := (bucket.wireLists.zip values).map fun entry => entry.1 ++ [entry.2]
  msgIdCols := bucket.msgIdCols.map fun columns => (columns.1 ++ [msgId.1], columns.2 ++ [msgId.2])
  timesAligned := by simp [bucket.timesAligned]
  listsAligned := by
    intro column member
    obtain ⟨entry, inside, rfl⟩ := List.mem_map.mp member
    have aligned := bucket.listsAligned entry.1 (List.of_mem_zip inside).1
    simp [aligned]
  idsAligned := by
    intro columns held
    obtain ⟨before, stored, rfl⟩ := Option.map_eq_some_iff.mp held
    obtain ⟨first, second⟩ := bucket.idsAligned before stored
    simp [first, second]

abbrev BucketKey := FeatureSchema × String

instance bucketKeyLawful : LawfulBEq BucketKey := inferInstance

/-- The buffers of the writer in insertion order, and its cache of date texts. -/
structure OfflineStore where
  includeMsgId : Bool
  buffers : List (BucketKey × Bucket)
  dateCache : List (Int × String)
  keysDistinct : (buffers.map Prod.fst).Nodup

/-- A new writer has no buffers. -/
def OfflineStore.empty (includeMsgId : Bool) : OfflineStore := ⟨includeMsgId, [], [], List.nodup_nil⟩

def dayNs : Int := 86400 * 1000000000

/-- The date text of a day is computed once. -/
def OfflineStore.getDateStr (externals : Externals) (store : OfflineStore) (eventTimeNs : Int) :
    Option (String × List (Int × String)) :=
  match store.dateCache.lookup (eventTimeNs / dayNs) with
  | some cached => some (cached, store.dateCache)
  | none =>
      (externals.dateString eventTimeNs).map fun text =>
        (text, (eventTimeNs / dayNs, text) :: store.dateCache)

/-- The text before and the text after the first hyphen. -/
def partitionHyphen (text : List UInt8) : List UInt8 × List UInt8 :=
  (text.takeWhile (· ≠ 45), (text.dropWhile (· ≠ 45)).tail)

/-- A malformed id is refused before any column changes; no id columns mean no parse. -/
def parseMsgId (bucket : Bucket) (msgId : List UInt8) : Except AppendError (Int × Int) :=
  match bucket.msgIdCols with
  | none => .ok (0, 0)
  | some _ =>
      match parseInt (partitionHyphen msgId).1, parseInt (partitionHyphen msgId).2 with
      | some ms, some seq => .ok (ms, seq)
      | _, _ => .error (.msgId msgId)

/-- This replaces the bucket of a key or adds it behind the others. -/
def setBucket (buffers : List (BucketKey × Bucket)) (key : BucketKey) (bucket : Bucket) :
    List (BucketKey × Bucket) :=
  if key ∈ buffers.map Prod.fst then
    buffers.map fun entry => if entry.1 = key then (key, bucket) else entry
  else buffers ++ [(key, bucket)]

theorem setBucket_keys (buffers : List (BucketKey × Bucket)) (key : BucketKey) (bucket : Bucket) :
    (setBucket buffers key bucket).map Prod.fst =
      if key ∈ buffers.map Prod.fst then buffers.map Prod.fst else buffers.map Prod.fst ++ [key] := by
  unfold setBucket
  split
  · rw [List.map_map]
    apply List.map_congr_left
    intro entry _
    simp only [Function.comp_apply]
    split
    · rename_i same
      exact same.symm
    · rfl
  · rw [List.map_append]
    rfl

theorem setBucket_distinct {buffers : List (BucketKey × Bucket)}
    (distinct : (buffers.map Prod.fst).Nodup) (key : BucketKey) (bucket : Bucket) :
    ((setBucket buffers key bucket).map Prod.fst).Nodup := by
  rw [setBucket_keys]
  split
  · exact distinct
  · rename_i absent
    exact distinct.append (List.nodup_singleton key) (by simpa using absent)

/-- A store with one bucket replaced or added. -/
def OfflineStore.withBucket (store : OfflineStore) (key : BucketKey) (bucket : Bucket) :
    OfflineStore :=
  { store with
    buffers := setBucket store.buffers key bucket
    keysDistinct := setBucket_distinct store.keysDistinct key bucket }

/-- The append checks the length and the id before it adds a row to the bucket. -/
def OfflineStore.append (externals : Externals) (store : OfflineStore) (schema : FeatureSchema)
    (entityId : String) (eventTimeNs : Int) (values : List WireValue) (msgId : List UInt8) :
    Except AppendError Unit × OfflineStore :=
  match arrowPlanFor externals.hashName schema with
  | .error error => (.error error, store)
  | .ok plan =>
      match store.getDateStr externals eventTimeNs with
      | none => (.error (.date eventTimeNs), store)
      | some (date, dateCache) =>
          let key := (schema, date)
          let bucket := (store.buffers.lookup key).getD (makeBucket plan store.includeMsgId)
          let opened := { store with dateCache := dateCache }.withBucket key bucket
          if values.length ≠ bucket.wireLists.length then
            (.error (.valuesLength values.length bucket.wireLists.length), opened)
          else
            match parseMsgId bucket msgId with
            | .error error => (.error error, opened)
            | .ok parsed =>
                (.ok (), opened.withBucket key (bucket.push entityId eventTimeNs values parsed))

/-- A column converts integers in range, floats and lists of its length; the rest is up to Arrow. -/
def ArrowType.converts (externals : Externals) : ArrowType → WireValue → Bool
  | .leaf dtype, .int number =>
      match dtype.intRange with
      | some (low, high) => decide (low ≤ number ∧ number ≤ high)
      | none => externals.arrowCoerces (.leaf dtype) (.int number)
  | .leaf .float32, .float _ => true
  | .leaf .float64, .float _ => true
  | .fixedList item length, .list items =>
      items.length = length && items.all (item.converts externals)
  | type, value => externals.arrowCoerces type value

/-- The table conversion succeeds when every value of every column is converted. -/
def Bucket.fromPydict (externals : Externals) (plan : ArrowPlan) (bucket : Bucket) : Bool :=
  bucket.eventTimeNsCol.all (fun time => (ArrowType.leaf .int64).converts externals (.int time)) &&
  (plan.wireTypes.zip bucket.wireLists).all (fun entry => entry.2.all (entry.1.converts externals)) &&
  match bucket.msgIdCols with
  | none => true
  | some (milliseconds, sequences) =>
      milliseconds.all (fun number => (ArrowType.leaf .int64).converts externals (.int number)) &&
      sequences.all (fun number => (ArrowType.leaf .int32).converts externals (.int number))

/-- A sealed file is a bucket that was renamed into its partition. -/
structure SealedFile where
  key : BucketKey
  bucket : Bucket

/-- What the file system does with one bucket: a failure comes before or after the rename. -/
inductive WriteOutcome where
  | renamed
  | raisedBefore
  | raisedAfter
  deriving DecidableEq

/-- The loop of `flush` returns the sealed files, the written keys and whether it came to its end. -/
def flushLoop (externals : Externals) (outcome : BucketKey → WriteOutcome) :
    List (BucketKey × Bucket) → List SealedFile × List BucketKey × Bool
  | [] => ([], [], true)
  | (key, bucket) :: rest =>
      match arrowPlanFor externals.hashName key.1 with
      | .error _ => ([], [], false)
      | .ok plan =>
          if bucket.fromPydict externals plan then
            match outcome key with
            | .raisedBefore => ([], [], false)
            | .raisedAfter => ([⟨key, bucket⟩], [], false)
            | .renamed =>
                let (files, written, finished) := flushLoop externals outcome rest
                (⟨key, bucket⟩ :: files, key :: written, finished)
          else ([], [], false)

/-- The flush seals the buckets in order and restores those that were not written. -/
def OfflineStore.flush (externals : Externals) (outcome : BucketKey → WriteOutcome)
    (store : OfflineStore) : Bool × OfflineStore × List SealedFile :=
  let snapshot := store.buffers.filter fun entry => entry.2.entityIdCol ≠ []
  let (files, written, finished) := flushLoop externals outcome snapshot
  let unwritten := if finished then [] else snapshot.filter fun entry => entry.1 ∉ written
  (finished,
    { store with
      buffers := unwritten
      keysDistinct := by
        have kept : unwritten.Sublist store.buffers := by
          unfold unwritten
          split
          · exact List.nil_sublist _
          · exact List.filter_sublist.trans List.filter_sublist
        exact (kept.map Prod.fst).nodup store.keysDistinct },
    files)

end Quorin
