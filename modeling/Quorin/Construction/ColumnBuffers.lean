import Quorin.Construction.OfflineStore

namespace Quorin

/-- The list objects of the process by their identities; a new object takes the next identity. -/
structure ListHeap where
  next : Nat
  contents : Nat → List WireValue

/-- A new list object is empty. -/
def ListHeap.alloc (heap : ListHeap) : ListHeap where
  next := heap.next + 1
  contents := Function.update heap.contents heap.next []

/-- The call `append` of one list object. -/
def ListHeap.push (heap : ListHeap) (entry : Nat × WireValue) : ListHeap :=
  { heap with
    contents := Function.update heap.contents entry.1 (heap.contents entry.1 ++ [entry.2]) }

/-- The type of a column: the string type, or the type of a number or a list of numbers. -/
inductive ColumnType where
  | text
  | arrow (type : ArrowType)

/-- Whether a cell is converted to the type of its column. -/
def ColumnType.converts (externals : Externals) : ColumnType → WireValue → Bool
  | .text, .text _ => true
  | .text, _ => false
  | .arrow type, value => type.converts externals value

/-- The columns in declaration order, and the places of the fields in wire order. -/
structure ColumnPlan where
  arrowSchema : List (String × ColumnType)
  wireToDecl : List Nat

def ColumnPlan.columnNames (plan : ColumnPlan) : List String := plan.arrowSchema.map Prod.fst

/-- The two leading columns stand before the fields. -/
def declOffset : Nat := 2

/-- The trailing columns of the message id. -/
def msgIdColumns (includeMsgId : Bool) : List (String × ColumnType) :=
  if includeMsgId then
    [("msg_id_ms", .arrow (.leaf .int64)), ("msg_id_seq", .arrow (.leaf .int32))]
  else []

/-- The place of each field by its name. -/
def nameToDecl (schema : FeatureSchema) : List (String × Nat) :=
  (schema.fields.map FeatureField.name).zipIdx declOffset

/-- The plan of the columns refuses what the Arrow plan refuses. -/
def columnPlanFor (hashName : String → UInt64) (schema : FeatureSchema) (includeMsgId : Bool) :
    Except AppendError ColumnPlan := do
  let collisions := ((schema.fields.map FeatureField.name).filter fun name =>
    decide (name ∈ reservedFieldNames)).mergeSort fun first second => decide (first ≤ second)
  if collisions ≠ [] then throw (.reservedNames schema.className collisions)
  let types ← schema.fields.mapM arrowTypeFor
  let declared := (schema.fields.map FeatureField.name).zip (types.map ColumnType.arrow)
  return {
    arrowSchema := ("entity_id", .text) :: ("event_time_ns", .arrow (.leaf .int64)) ::
      (declared ++ msgIdColumns includeMsgId)
    wireToDecl := (wireOrder hashName schema).map fun field =>
      ((nameToDecl schema).lookup field.name).getD 0 }

/-- The columns of one bucket: the dictionary, and the same list objects again by their uses. -/
structure ColumnBucket where
  columns : List (String × Nat)
  wireLists : List Nat
  entityIdCol : Nat
  eventTimeNsCol : Nat
  msgIdCols : Option (Nat × Nat)
  deriving DecidableEq

/-- The item assignment of a dictionary. -/
def setColumn (columns : List (String × Nat)) (name : String) (ref : Nat) :
    List (String × Nat) :=
  if name ∈ columns.map Prod.fst then
    columns.map fun entry => if entry.1 = name then (name, ref) else entry
  else columns ++ [(name, ref)]

/-- The dictionary gets a new list object for each name. -/
def allocColumns : List String → ListHeap → List (String × Nat) →
    List (String × Nat) × ListHeap
  | [], heap, columns => (columns, heap)
  | name :: rest, heap, columns => allocColumns rest heap.alloc (setColumn columns name heap.next)

/-- A fresh bucket resolves its list objects by their names; a missing name is a `KeyError`. -/
def makeColumns (plan : ColumnPlan) (includeMsgId : Bool) (heap : ListHeap) :
    Option (ColumnBucket × ListHeap) := do
  let (columns, heap) := allocColumns plan.columnNames heap []
  let wireLists ← plan.wireToDecl.mapM fun index => plan.columnNames[index]?.bind fun name =>
    columns.lookup name
  let entityIdCol ← columns.lookup "entity_id"
  let eventTimeNsCol ← columns.lookup "event_time_ns"
  if includeMsgId then
    let msgIdMsCol ← columns.lookup "msg_id_ms"
    let msgIdSeqCol ← columns.lookup "msg_id_seq"
    return (⟨columns, wireLists, entityIdCol, eventTimeNsCol, some (msgIdMsCol, msgIdSeqCol)⟩, heap)
  else return (⟨columns, wireLists, entityIdCol, eventTimeNsCol, none⟩, heap)

/-- The writer with its list objects. -/
structure ColumnStore where
  includeMsgId : Bool
  heap : ListHeap
  buffers : List (BucketKey × ColumnBucket)
  dateCache : List (Int × String)

/-- A new writer has no buffers. -/
def ColumnStore.empty (includeMsgId : Bool) : ColumnStore :=
  ⟨includeMsgId, ⟨0, fun _ => []⟩, [], []⟩

/-- The failures of an append: those of its checks, and a name without a column. -/
inductive ColumnError where
  | append (error : AppendError)
  | keyError

/-- The date text of a day is computed once. -/
def ColumnStore.getDateStr (externals : Externals) (store : ColumnStore) (eventTimeNs : Int) :
    Option (String × List (Int × String)) :=
  match store.dateCache.lookup (eventTimeNs / dayNs) with
  | some cached => some (cached, store.dateCache)
  | none =>
      (externals.dateString eventTimeNs).map fun text =>
        (text, (eventTimeNs / dayNs, text) :: store.dateCache)

/-- The bucket of a key is taken from the buffers or added behind them. -/
def ColumnStore.openBucket (store : ColumnStore) (plan : ColumnPlan) (key : BucketKey) :
    Option (ColumnBucket × ColumnStore) :=
  match store.buffers.lookup key with
  | some bucket => some (bucket, store)
  | none =>
      (makeColumns plan store.includeMsgId store.heap).map fun made =>
        (made.1, { store with heap := made.2, buffers := store.buffers ++ [(key, made.1)] })

/-- A malformed id is refused before any column changes; no id columns mean no parse. -/
def ColumnBucket.parseMsgId (bucket : ColumnBucket) (msgId : List UInt8) :
    Except AppendError (Int × Int) :=
  match bucket.msgIdCols with
  | none => .ok (0, 0)
  | some _ =>
      match parseInt (partitionHyphen msgId).1, parseInt (partitionHyphen msgId).2 with
      | some ms, some seq => .ok (ms, seq)
      | _, _ => .error (.msgId msgId)

/-- The appends to the id columns, when there are any. -/
def ColumnBucket.idCells (bucket : ColumnBucket) (msgId : Int × Int) : List (Nat × WireValue) :=
  match bucket.msgIdCols with
  | none => []
  | some columns => [(columns.1, .int msgId.1), (columns.2, .int msgId.2)]

/-- The appends of one row, one list object after another. -/
def ColumnBucket.pushRow (bucket : ColumnBucket) (heap : ListHeap) (entityId : String)
    (eventTimeNs : Int) (values : List WireValue) (msgId : Int × Int) : ListHeap :=
  let keyed := (heap.push (bucket.entityIdCol, .text entityId)).push
    (bucket.eventTimeNsCol, .int eventTimeNs)
  (bucket.idCells msgId).foldl ListHeap.push ((bucket.wireLists.zip values).foldl ListHeap.push keyed)

/-- The append checks the length and the id before it changes a list object of the bucket. -/
def ColumnStore.append (externals : Externals) (store : ColumnStore) (schema : FeatureSchema)
    (entityId : String) (eventTimeNs : Int) (values : List WireValue) (msgId : List UInt8) :
    Except ColumnError Unit × ColumnStore :=
  match columnPlanFor externals.hashName schema store.includeMsgId with
  | .error error => (.error (.append error), store)
  | .ok plan =>
      match store.getDateStr externals eventTimeNs with
      | none => (.error (.append (.date eventTimeNs)), store)
      | some (date, dateCache) =>
          match ColumnStore.openBucket { store with dateCache := dateCache } plan (schema, date) with
          | none => (.error .keyError, { store with dateCache := dateCache })
          | some (bucket, opened) =>
              if values.length ≠ bucket.wireLists.length then
                (.error (.append (.valuesLength values.length bucket.wireLists.length)), opened)
              else
                match bucket.parseMsgId msgId with
                | .error error => (.error (.append error), opened)
                | .ok parsed =>
                    (.ok (), { opened with
                      heap := bucket.pushRow opened.heap entityId eventTimeNs values parsed })

/-- The table of a bucket needs every column of the plan, at one length and of its type. -/
def ColumnBucket.fromPydict (externals : Externals) (plan : ColumnPlan) (heap : ListHeap)
    (bucket : ColumnBucket) : Option (List (String × List WireValue)) := do
  let table ← plan.arrowSchema.mapM fun column =>
    (bucket.columns.lookup column.1).bind fun ref =>
      if (heap.contents ref).all (column.2.converts externals) then
        some (column.1, heap.contents ref)
      else none
  if table.all fun column => column.2.length = (heap.contents bucket.entityIdCol).length then
    some table
  else none

/-- A sealed file is a table that was renamed into its partition. -/
structure SealedTable where
  key : BucketKey
  table : List (String × List WireValue)

/-- The loop of `flush` returns the sealed files, the written keys and whether it came to its end. -/
def flushTables (externals : Externals) (includeMsgId : Bool) (heap : ListHeap)
    (outcome : BucketKey → WriteOutcome) :
    List (BucketKey × ColumnBucket) → List SealedTable × List BucketKey × Bool
  | [] => ([], [], true)
  | (key, bucket) :: rest =>
      match columnPlanFor externals.hashName key.1 includeMsgId with
      | .error _ => ([], [], false)
      | .ok plan =>
          match bucket.fromPydict externals plan heap with
          | none => ([], [], false)
          | some table =>
              match outcome key with
              | .raisedBefore => ([], [], false)
              | .raisedAfter => ([⟨key, table⟩], [], false)
              | .renamed =>
                  let (files, written, finished) :=
                    flushTables externals includeMsgId heap outcome rest
                  (⟨key, table⟩ :: files, key :: written, finished)

/-- The flush seals the buckets in order and restores those that were not written. -/
def ColumnStore.flush (externals : Externals) (outcome : BucketKey → WriteOutcome)
    (store : ColumnStore) : Bool × ColumnStore × List SealedTable :=
  let snapshot := store.buffers.filter fun entry =>
    !(store.heap.contents entry.2.entityIdCol).isEmpty
  let (files, written, finished) :=
    flushTables externals store.includeMsgId store.heap outcome snapshot
  let unwritten := if finished then [] else snapshot.filter fun entry => entry.1 ∉ written
  (finished, { store with buffers := unwritten }, files)

/-- A call on the writer; the outcomes of a flush say where it fails. -/
inductive DatasetCall where
  | append (schema : FeatureSchema) (entityId : String) (eventTimeNs : Int)
      (values : List WireValue) (msgId : List UInt8)
  | flush (outcome : BucketKey → WriteOutcome)

/-- The writer and the files that it has sealed, in the order of their renames. -/
structure DatasetState where
  store : ColumnStore
  files : List SealedTable

/-- The state behind one call, whether the call returns or raises. -/
def DatasetState.perform (externals : Externals) (state : DatasetState) (call : DatasetCall) :
    DatasetState :=
  match call with
  | .append schema entityId eventTimeNs values msgId =>
      { state with
        store := (state.store.append externals schema entityId eventTimeNs values msgId).2 }
  | .flush outcome =>
      let flushed := state.store.flush externals outcome
      ⟨flushed.2.1, state.files ++ flushed.2.2⟩

/-- The state behind a sequence of calls on a new writer. -/
def runDataset (externals : Externals) (includeMsgId : Bool) (calls : List DatasetCall) : DatasetState :=
  calls.foldl (DatasetState.perform externals) ⟨.empty includeMsgId, []⟩

end Quorin
