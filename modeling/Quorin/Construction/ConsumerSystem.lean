import Quorin.Construction.Consumer

namespace Quorin

open ByteMemory

/-- The consumer group: its delivery cursor and its pending entries in id order. -/
structure Group where
  lastDelivered : MsgId
  pending : List MsgId

/-- What the operator configured, with the outside functions the code calls. -/
structure Deployment where
  externals : Externals
  schemas : List (List UInt8 × FeatureSchema)
  batchCount : Nat
  maxPendingAck : Nat
  includeMsgId : Bool

/-- A batch as redis-py returns it; an entry that was trimmed from the stream has no fields. -/
abbrev Batch := List (MsgId × Option MessageFields)

/-- The caller of `_process_batch` and what it does next. -/
inductive BatchOrigin where
  | drain (lastId : MsgId)
  | loop

/-- The await points of the read task, and the loop of `_process_batch` between two of them. -/
inductive ReaderPhase where
  | starting
  | draining (lastId : MsgId)
  | announcing
  | reading
  | checking (batch : Batch)
  | pauseAcking (batch : Batch) (snapshot : List MsgId)
  | parked (batch : Batch)
  | refreshing (batch : Batch)
  | batching (origin : BatchOrigin) (batch : Batch)
  | applying (origin : BatchOrigin) (batch : Batch) (applied : List MsgId)
  | setting (origin : BatchOrigin) (applied : List MsgId)
  | stopping
  | finalAcking (snapshot : List MsgId)
  | closing
  | ended

/-- The await points of the flush task. -/
inductive FlusherPhase where
  | absent
  | waiting
  | renewing
  | acking (snapshot : List MsgId)
  | failed
  | finished

/-- The live process: the consumer object, its two tasks, and the messages of this run. -/
structure Run where
  consumer : Consumer
  reader : ReaderPhase
  flusher : FlusherPhase
  /-- The ids that `XREADGROUP >` returned in this run. -/
  delivered : List MsgId
  /-- The ids that were passed to `_apply` in this run. -/
  passed : List MsgId

/-- An insert that was executed: the message, the segment and the request. -/
structure InsertRecord where
  msgId : MsgId
  segment : String
  request : InsertRequest

/-- Redis, the file system, the shared memory and the process. -/
structure World where
  /-- Every entry that was ever added, oldest first. -/
  produced : List StreamEntry
  entries : List StreamEntry
  group : Option Group
  /-- The ids of successful XACK calls. -/
  acked : List MsgId
  /-- The ids whose processed key was set. -/
  processed : List MsgId
  pauseKeys : List UInt8 → Bool
  liveness : Bool
  current : List UInt8 → Option String
  shared : SharedMemory
  files : List SealedFile
  /-- The executed inserts, newest first. -/
  inserted : List InsertRecord
  /-- Whether the last drain came to its end. -/
  drained : Bool
  run : Option Run

section Pieces

variable (deployment : Deployment)

/-- A consumer object of a new process. -/
def freshConsumer (current : List UInt8 → Option String) : Consumer where
  schemas := deployment.schemas
  segments := fun name => if name ∈ deployment.schemas.map Prod.fst then current name else none
  rowBuffers := fun name =>
    match deployment.schemas.lookup name with
    | none => []
    | some schema =>
        List.replicate (((rowSize deployment.externals.hashName schema).toOption).getD 0) 0
  offline := .empty deployment.includeMsgId
  pendingAck := []
  stopEvent := false

/-- The fields of an entry, absent when the entry is no longer in the stream. -/
def World.fieldsOf (world : World) (msgId : MsgId) : Option MessageFields :=
  (world.entries.find? fun entry => entry.id = msgId).map StreamEntry.fields

/-- The read of the pending entries behind an id. -/
def World.pendingBatch (world : World) (group : Group) (lastId : MsgId) : Batch :=
  ((group.pending.filter fun msgId => lastId < msgId).take deployment.batchCount).map
    fun msgId => (msgId, world.fieldsOf msgId)

/-- The read of the entries that were not delivered yet. -/
def World.newBatch (world : World) (group : Group) : List StreamEntry :=
  (world.entries.filter fun entry => group.lastDelivered < entry.id).take deployment.batchCount

/-- A delivery moves the cursor and adds the ids to the pending entries. -/
def Group.deliver (group : Group) (batch : List StreamEntry) : Group where
  lastDelivered := (batch.getLast?.map StreamEntry.id).getD group.lastDelivered
  pending := group.pending ++ batch.map StreamEntry.id

def Group.ack (group : Group) (msgIds : List MsgId) : Group :=
  { group with pending := group.pending.filter fun msgId => msgId ∉ msgIds }

/-- The effect of an XACK call. -/
def World.ack (world : World) (msgIds : List MsgId) : World :=
  { world with
    acked := world.acked ++ msgIds
    group := world.group.map fun group => group.ack msgIds }

/-- The phase behind a finished batch. -/
def BatchOrigin.next : BatchOrigin → ReaderPhase
  | .drain lastId => .draining lastId
  | .loop => .reading

/-- Whether one of the served schemas has its pause key set. -/
def World.paused (world : World) : Bool :=
  deployment.schemas.any fun entry => world.pauseKeys entry.1

/-- The record of an insert that was executed by `_apply`. -/
def executedInsert (consumer : Consumer) (shared : SharedMemory) (msgId : MsgId)
    (fields : Option MessageFields) : Option InsertRecord :=
  match fields with
  | none => none
  | some fields =>
      match (prepareInsert deployment.externals consumer fields).1 with
      | .error _ => none
      | .ok none => none
      | .ok (some prepared) =>
          match consumer.held shared prepared.message.name with
          | none => none
          | some (segmentName, segment) =>
              match (insert deployment.externals.hashId segment.layout prepared.request.entityId
                  prepared.request.rowData).result segment.memory with
              | .error _ => none
              | .ok _ => some ⟨msgId, segmentName, prepared.request⟩

/-- The shared memory when the process dies after `count` writes of an insert. -/
def cutApply (consumer : Consumer) (shared : SharedMemory) (fields : MessageFields)
    (count : Nat) : SharedMemory :=
  match (prepareInsert deployment.externals consumer fields).1 with
  | .error _ => shared
  | .ok none => shared
  | .ok (some prepared) =>
      match consumer.held shared prepared.message.name with
      | none => shared
      | some (segmentName, segment) =>
          Function.update shared segmentName (some { segment with
            memory := cutInsert deployment.externals.hashId segment.layout segment.memory
              prepared.request.entityId prepared.request.rowData count })

/-- The start of `_flush_and_ack`: the flush, and the snapshot when the flush succeeded. -/
def Consumer.flush (consumer : Consumer) (outcome : BucketKey → WriteOutcome) :
    Bool × Consumer × List SealedFile :=
  let result := consumer.offline.flush deployment.externals outcome
  (result.1, { consumer with offline := result.2.1 }, result.2.2)

/-- The read task awaits, and an exception of it enters the cleanup of `run`. -/
def ReaderPhase.running : ReaderPhase → Bool
  | .applying _ _ _ => false
  | .stopping => false
  | .finalAcking _ => false
  | .closing => false
  | .ended => false
  | _ => true

/-- The read task is in the cleanup of `run`. -/
def ReaderPhase.cleaning : ReaderPhase → Bool
  | .stopping => true
  | .finalAcking _ => true
  | .closing => true
  | _ => false

/-- An exception enters the cleanup; before the flush task exists there is nothing to flush. -/
def Run.raised (run : Run) : Run :=
  { run with
    reader :=
      match run.flusher with
      | .absent => .ended
      | _ => .stopping }

/-- The world with another state of the process. -/
def World.withRun (world : World) (run : Run) : World := { world with run := some run }

/-- The run behind a successful XACK of a snapshot: the prefix of that length is trimmed. -/
def Consumer.trim (consumer : Consumer) (snapshot : List MsgId) : Consumer :=
  { consumer with pendingAck := consumer.pendingAck.drop snapshot.length }

/-- The run behind the flush of its consumer. -/
def Run.flushed (run : Run) (outcome : BucketKey → WriteOutcome) : Run :=
  { run with consumer := (run.consumer.flush deployment outcome).2.1 }

/-- The world behind a flush of the live consumer. -/
def World.flushed (world : World) (run : Run) (outcome : BucketKey → WriteOutcome) : World :=
  { world with files := world.files ++ (run.consumer.flush deployment outcome).2.2 }

end Pieces

end Quorin
