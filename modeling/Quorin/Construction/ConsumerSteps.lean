import Quorin.Construction.ConsumerSystem

namespace Quorin

open ByteMemory

/-- The steps of the producers, of Redis and of the operators. -/
inductive EnvironmentStep (deployment : Deployment) : World → World → Prop where
  | xadd {world : World} (entry : StreamEntry) (positive : MsgId.of 0 0 < entry.id)
      (newer : ∀ other ∈ world.produced, other.id < entry.id) :
      EnvironmentStep deployment world
        { world with produced := world.produced ++ [entry], entries := world.entries ++ [entry] }
  | trim {world : World} (count : Nat) :
      EnvironmentStep deployment world { world with entries := world.entries.drop count }
  | livenessExpires {world : World} :
      EnvironmentStep deployment world { world with liveness := false }
  | pause {world : World} (name : List UInt8) (value : Bool) :
      EnvironmentStep deployment world
        { world with pauseKeys := Function.update world.pauseKeys name value }
  | flip {world : World} (name : List UInt8) (segmentName : String) (segment : Segment)
      (unused : world.shared segmentName = none)
      (refused : ∀ schema, deployment.schemas.lookup name = some schema →
        verifyHeader deployment.externals segment schema = false) :
      EnvironmentStep deployment world
        { world with
          shared := Function.update world.shared segmentName (some segment)
          current := Function.update world.current name (some segmentName) }
  | deleteCurrent {world : World} (name : List UInt8) :
      EnvironmentStep deployment world
        { world with current := Function.update world.current name none }

/-- The starts, stops and crashes of the process. -/
inductive LifecycleStep (deployment : Deployment) : World → World → Prop where
  | start {world : World} (none : world.run = none)
      (opened : ∀ entry ∈ deployment.schemas, ∃ segmentName,
        openCurrent deployment.externals world.current world.shared entry.1 entry.2 =
          .reopened segmentName) :
      LifecycleStep deployment world
        { world with
          drained := false
          run := some ⟨freshConsumer deployment world.current, .starting, .absent, [], []⟩ }
  | rerun {world : World} {run : Run} (live : world.run = some run) (ended : run.reader = .ended) :
      LifecycleStep deployment world
        { world with
          drained := false
          run := some ⟨run.consumer, .starting, .absent, [], []⟩ }
  | exit {world : World} {run : Run} (live : world.run = some run) (ended : run.reader = .ended) :
      LifecycleStep deployment world { world with run := none }
  | crash {world : World} : LifecycleStep deployment world { world with run := none }
  | crashInInsert {world : World} {run : Run} {origin : BatchOrigin} {msgId : MsgId}
      {fields : MessageFields} {rest : Batch} {applied : List MsgId}
      (live : world.run = some run)
      (applying : run.reader = .applying origin ((msgId, some fields) :: rest) applied)
      (count : Nat)
      (early : ∀ prepared segmentName segment,
        (prepareInsert deployment.externals run.consumer fields).1 = .ok (some prepared) →
        run.consumer.held world.shared prepared.message.name = some (segmentName, segment) →
        count < ((insert deployment.externals.hashId segment.layout prepared.request.entityId
          prepared.request.rowData).writes segment.memory).length) :
      LifecycleStep deployment world
        { world with
          shared := cutApply deployment run.consumer world.shared fields count
          run := none }
  | crashInFlush {world : World} {run : Run} (live : world.run = some run)
      (outcome : BucketKey → WriteOutcome) (count : Nat) :
      LifecycleStep deployment world
        { world with
          files := world.files ++ (run.consumer.flush deployment outcome).2.2.take count
          run := none }
  | requestStop {world : World} {run : Run} (live : world.run = some run) :
      LifecycleStep deployment world
        (world.withRun { run with consumer := { run.consumer with stopEvent := true } })

/-- The steps of the read task, each from one await point to the next. -/
inductive ReaderStep (deployment : Deployment) : World → World → Prop where
  | ensureGroup {world : World} {run : Run} (live : world.run = some run)
      (phase : run.reader = .starting) :
      ReaderStep deployment world
        { world with
          group := some (world.group.getD ⟨MsgId.of 0 0, []⟩)
          run := some { run with reader := .draining (MsgId.of 0 0) } }
  | drainStopped {world : World} {run : Run} {lastId : MsgId} (live : world.run = some run)
      (phase : run.reader = .draining lastId) (stopped : run.consumer.stopEvent = true) :
      ReaderStep deployment world (world.withRun { run with reader := .announcing })
  | drainRead {world : World} {run : Run} {lastId : MsgId} {group : Group}
      (live : world.run = some run) (phase : run.reader = .draining lastId)
      (running : run.consumer.stopEvent = false) (present : world.group = some group)
      (counted : 0 < deployment.batchCount)
      {first : MsgId × Option MessageFields} {others : Batch}
      (batch : world.pendingBatch deployment group lastId = first :: others) :
      ReaderStep deployment world
        (world.withRun { run with
          reader := .batching (.drain ((first :: others).getLastD first).1) (first :: others) })
  | drainEnd {world : World} {run : Run} {lastId : MsgId} {group : Group}
      (live : world.run = some run) (phase : run.reader = .draining lastId)
      (running : run.consumer.stopEvent = false) (present : world.group = some group)
      (counted : 0 < deployment.batchCount)
      (empty : world.pendingBatch deployment group lastId = []) :
      ReaderStep deployment world
        { world with drained := true, run := some { run with reader := .announcing } }
  | announce {world : World} {run : Run} (live : world.run = some run)
      (phase : run.reader = .announcing) (refreshed : Bool) :
      ReaderStep deployment world
        { world with
          liveness := world.liveness || refreshed
          run := some { run with reader := .reading, flusher := .waiting } }
  | leave {world : World} {run : Run} (live : world.run = some run)
      (phase : run.reader = .reading) (stopped : run.consumer.stopEvent = true) :
      ReaderStep deployment world (world.withRun { run with reader := .stopping })
  | read {world : World} {run : Run} {group : Group} (live : world.run = some run)
      (phase : run.reader = .reading) (running : run.consumer.stopEvent = false)
      (present : world.group = some group) (counted : 0 < deployment.batchCount) :
      ReaderStep deployment world
        { world with
          group := some (group.deliver (world.newBatch deployment group))
          run := some { run with
            reader := .checking ((world.newBatch deployment group).map fun entry =>
              (entry.id, some entry.fields))
            delivered := run.delivered ++ (world.newBatch deployment group).map StreamEntry.id } }
  | checkClear {world : World} {run : Run} {batch : Batch} (live : world.run = some run)
      (phase : run.reader = .checking batch) (clear : world.paused deployment = false) :
      ReaderStep deployment world (world.withRun { run with reader := .refreshing batch })
  | checkPaused {world : World} {run : Run} {batch : Batch} (live : world.run = some run)
      (phase : run.reader = .checking batch) (paused : world.paused deployment = true)
      (settled : run.consumer.pendingAck = []) :
      ReaderStep deployment world (world.withRun { run with reader := .parked batch })
  | checkFlushed {world : World} {run : Run} {batch : Batch} (live : world.run = some run)
      (phase : run.reader = .checking batch) (paused : world.paused deployment = true)
      (unsettled : run.consumer.pendingAck ≠ []) (outcome : BucketKey → WriteOutcome)
      (flushed : (run.consumer.flush deployment outcome).1 = true) :
      ReaderStep deployment world
        ((world.flushed deployment run outcome).withRun { run.flushed deployment outcome with
          reader := .pauseAcking batch run.consumer.pendingAck })
  | checkNotFlushed {world : World} {run : Run} {batch : Batch} (live : world.run = some run)
      (phase : run.reader = .checking batch) (paused : world.paused deployment = true)
      (unsettled : run.consumer.pendingAck ≠ []) (outcome : BucketKey → WriteOutcome)
      (failed : (run.consumer.flush deployment outcome).1 = false) :
      ReaderStep deployment world
        ((world.flushed deployment run outcome).withRun { run.flushed deployment outcome with
          reader := .parked batch })
  | pauseAcked {world : World} {run : Run} {batch : Batch} {snapshot : List MsgId}
      (live : world.run = some run) (phase : run.reader = .pauseAcking batch snapshot) :
      ReaderStep deployment world
        ((world.ack snapshot).withRun { run with
          consumer := run.consumer.trim snapshot, reader := .parked batch })
  | pauseAckLost {world : World} {run : Run} {batch : Batch} {snapshot : List MsgId}
      (live : world.run = some run) (phase : run.reader = .pauseAcking batch snapshot) :
      ReaderStep deployment world ((world.ack snapshot).withRun run.raised)
  | parkedRefresh {world : World} {run : Run} {batch : Batch} (live : world.run = some run)
      (phase : run.reader = .parked batch) :
      ReaderStep deployment world { world with liveness := true }
  | parkedStopped {world : World} {run : Run} {batch : Batch} (live : world.run = some run)
      (phase : run.reader = .parked batch) (stopped : run.consumer.stopEvent = true) :
      ReaderStep deployment world (world.withRun { run with reader := .reading })
  | resume {world : World} {run : Run} {batch : Batch} (live : world.run = some run)
      (phase : run.reader = .parked batch) (clear : world.paused deployment = false) :
      ReaderStep deployment world
        (world.withRun { run with
          consumer := reopenSegments deployment.externals world.current world.shared
            deployment.schemas run.consumer
          reader := .reading })
  | refresh {world : World} {run : Run} {batch : Batch} (live : world.run = some run)
      (phase : run.reader = .refreshing batch) (refreshed : Bool) :
      ReaderStep deployment world
        { world with
          liveness := world.liveness || refreshed
          run := some { run with
            reader := if batch.isEmpty then .reading else .batching .loop batch } }
  | startBatch {world : World} {run : Run} {origin : BatchOrigin} {batch : Batch}
      (live : world.run = some run) (phase : run.reader = .batching origin batch)
      (room : run.consumer.pendingAck.length < 2 * deployment.maxPendingAck ∨
        run.consumer.stopEvent = true) :
      ReaderStep deployment world (world.withRun { run with reader := .applying origin batch [] })
  | applyReturns {world : World} {run : Run} {origin : BatchOrigin} {msgId : MsgId}
      {fields : Option MessageFields} {rest : Batch} {applied : List MsgId} {outcome : Bool}
      {consumer : Consumer} {shared : SharedMemory} (live : world.run = some run)
      (phase : run.reader = .applying origin ((msgId, fields) :: rest) applied)
      (returned : apply deployment.externals run.consumer world.shared msgId fields =
        (.ok outcome, consumer, shared)) :
      ReaderStep deployment world
        { world with
          shared := shared
          inserted := (executedInsert deployment run.consumer world.shared msgId fields).toList ++
            world.inserted
          run := some { run with
            consumer := consumer
            reader := .applying origin rest (if outcome then applied ++ [msgId] else applied)
            passed := run.passed ++ [msgId] } }
  | applyRaises {world : World} {run : Run} {origin : BatchOrigin} {msgId : MsgId}
      {fields : Option MessageFields} {rest : Batch} {applied : List MsgId}
      {exception : ApplyException} {consumer : Consumer} {shared : SharedMemory}
      (live : world.run = some run)
      (phase : run.reader = .applying origin ((msgId, fields) :: rest) applied)
      (raised : apply deployment.externals run.consumer world.shared msgId fields =
        (.error exception, consumer, shared)) :
      ReaderStep deployment world
        { world with
          shared := shared
          run := some { run with consumer := consumer, passed := run.passed ++ [msgId] }.raised }
  | batchRefused {world : World} {run : Run} {origin : BatchOrigin} (live : world.run = some run)
      (phase : run.reader = .applying origin [] []) :
      ReaderStep deployment world (world.withRun { run with reader := origin.next })
  | batchApplied {world : World} {run : Run} {origin : BatchOrigin} {applied : List MsgId}
      (live : world.run = some run) (phase : run.reader = .applying origin [] applied)
      (some : applied ≠ []) :
      ReaderStep deployment world (world.withRun { run with reader := .setting origin applied })
  | keysSet {world : World} {run : Run} {origin : BatchOrigin} {applied : List MsgId}
      (live : world.run = some run) (phase : run.reader = .setting origin applied) :
      ReaderStep deployment world
        { world with
          processed := world.processed ++ applied
          run := some { run with
            consumer := { run.consumer with pendingAck := run.consumer.pendingAck ++ applied }
            reader := origin.next } }
  | keysFailed {world : World} {run : Run} {origin : BatchOrigin} {applied : List MsgId}
      (live : world.run = some run) (phase : run.reader = .setting origin applied)
      (keys : List MsgId) (among : keys ⊆ applied) :
      ReaderStep deployment world
        { world with processed := world.processed ++ keys, run := some run.raised }
  | raises {world : World} {run : Run} (live : world.run = some run)
      (running : run.reader.running = true) :
      ReaderStep deployment world (world.withRun run.raised)

/-- The steps of the cleanup of `run`. -/
inductive CleanupStep (deployment : Deployment) : World → World → Prop where
  | flusherFailed {world : World} {run : Run} (live : world.run = some run)
      (phase : run.reader = .stopping) (failed : run.flusher = .failed) :
      CleanupStep deployment world (world.withRun { run with reader := .ended })
  | flusherAckLost {world : World} {run : Run} {snapshot : List MsgId}
      (live : world.run = some run) (phase : run.reader = .stopping)
      (acking : run.flusher = .acking snapshot) :
      CleanupStep deployment world
        ((world.ack snapshot).withRun { run with flusher := .finished })
  | nothingPending {world : World} {run : Run} (live : world.run = some run)
      (phase : run.reader = .stopping) (alive : run.flusher ≠ .failed)
      (settled : run.consumer.pendingAck = []) :
      CleanupStep deployment world
        (world.withRun { run with reader := .closing, flusher := .finished })
  | flushed {world : World} {run : Run} (live : world.run = some run)
      (phase : run.reader = .stopping) (alive : run.flusher ≠ .failed)
      (unsettled : run.consumer.pendingAck ≠ []) (outcome : BucketKey → WriteOutcome)
      (succeeded : (run.consumer.flush deployment outcome).1 = true) :
      CleanupStep deployment world
        ((world.flushed deployment run outcome).withRun { run.flushed deployment outcome with
          reader := .finalAcking run.consumer.pendingAck, flusher := .finished })
  | notFlushed {world : World} {run : Run} (live : world.run = some run)
      (phase : run.reader = .stopping) (alive : run.flusher ≠ .failed)
      (unsettled : run.consumer.pendingAck ≠ []) (outcome : BucketKey → WriteOutcome)
      (failed : (run.consumer.flush deployment outcome).1 = false) :
      CleanupStep deployment world
        ((world.flushed deployment run outcome).withRun { run.flushed deployment outcome with
          reader := .closing, flusher := .finished })
  | acked {world : World} {run : Run} {snapshot : List MsgId} (live : world.run = some run)
      (phase : run.reader = .finalAcking snapshot) :
      CleanupStep deployment world
        ((world.ack snapshot).withRun { run with
          consumer := run.consumer.trim snapshot, reader := .closing })
  | ackLost {world : World} {run : Run} {snapshot : List MsgId} (live : world.run = some run)
      (phase : run.reader = .finalAcking snapshot) :
      CleanupStep deployment world ((world.ack snapshot).withRun { run with reader := .closing })
  | ackFailed {world : World} {run : Run} {snapshot : List MsgId} (live : world.run = some run)
      (phase : run.reader = .finalAcking snapshot) :
      CleanupStep deployment world (world.withRun { run with reader := .closing })
  | closed {world : World} {run : Run} (live : world.run = some run)
      (phase : run.reader = .closing) (outcome : BucketKey → WriteOutcome) (deleted : Bool) :
      CleanupStep deployment world
        { world.flushed deployment run outcome with
          liveness := world.liveness && !deleted
          run := some { run.flushed deployment outcome with reader := .ended } }
  | cancelled {world : World} {run : Run} (live : world.run = some run)
      (cleaning : run.reader.cleaning = true) :
      CleanupStep deployment world
        (world.withRun { run with reader := .ended, flusher := .finished })

/-- The steps of the flush task, which runs only while the read task awaits in its loop. -/
inductive FlusherStep (deployment : Deployment) : World → World → Prop where
  | wake {world : World} {run : Run} (live : world.run = some run)
      (turn : run.reader.running = true) (phase : run.flusher = .waiting)
      (running : run.consumer.stopEvent = false) :
      FlusherStep deployment world (world.withRun { run with flusher := .renewing })
  | stopped {world : World} {run : Run} (live : world.run = some run)
      (turn : run.reader.running = true) (phase : run.flusher = .waiting)
      (stopped : run.consumer.stopEvent = true) :
      FlusherStep deployment world (world.withRun { run with flusher := .finished })
  | nothingPending {world : World} {run : Run} (live : world.run = some run)
      (turn : run.reader.running = true) (phase : run.flusher = .renewing)
      (settled : run.consumer.pendingAck = []) :
      FlusherStep deployment world (world.withRun { run with flusher := .waiting })
  | flushed {world : World} {run : Run} (live : world.run = some run)
      (turn : run.reader.running = true) (phase : run.flusher = .renewing)
      (unsettled : run.consumer.pendingAck ≠ []) (outcome : BucketKey → WriteOutcome)
      (succeeded : (run.consumer.flush deployment outcome).1 = true) :
      FlusherStep deployment world
        ((world.flushed deployment run outcome).withRun { run.flushed deployment outcome with
          flusher := .acking run.consumer.pendingAck })
  | notFlushed {world : World} {run : Run} (live : world.run = some run)
      (turn : run.reader.running = true) (phase : run.flusher = .renewing)
      (unsettled : run.consumer.pendingAck ≠ []) (outcome : BucketKey → WriteOutcome)
      (failed : (run.consumer.flush deployment outcome).1 = false) :
      FlusherStep deployment world
        ((world.flushed deployment run outcome).withRun { run.flushed deployment outcome with
          flusher := .waiting })
  | acked {world : World} {run : Run} {snapshot : List MsgId} (live : world.run = some run)
      (turn : run.reader.running = true) (phase : run.flusher = .acking snapshot) :
      FlusherStep deployment world
        ((world.ack snapshot).withRun { run with
          consumer := run.consumer.trim snapshot, flusher := .waiting })
  | ackLost {world : World} {run : Run} {snapshot : List MsgId} (live : world.run = some run)
      (turn : run.reader.running = true) (phase : run.flusher = .acking snapshot) :
      FlusherStep deployment world ((world.ack snapshot).withRun { run with flusher := .failed })
  | ackFailed {world : World} {run : Run} {snapshot : List MsgId} (live : world.run = some run)
      (turn : run.reader.running = true) (phase : run.flusher = .acking snapshot) :
      FlusherStep deployment world (world.withRun { run with flusher := .failed })

/-- The steps of the process. -/
inductive ConsumerStep (deployment : Deployment) (before after : World) : Prop where
  | lifecycle (step : LifecycleStep deployment before after)
  | reader (step : ReaderStep deployment before after)
  | cleanup (step : CleanupStep deployment before after)
  | flusher (step : FlusherStep deployment before after)

/-- The steps of the process and of its environment. -/
inductive WorldStep (deployment : Deployment) (before after : World) : Prop where
  | environment (step : EnvironmentStep deployment before after)
  | consumer (step : ConsumerStep deployment before after)

/-- The start: an empty stream, no process, and one segment for each served schema. -/
structure World.Initial (deployment : Deployment) (world : World) : Prop where
  namesDistinct : (deployment.schemas.map Prod.fst).Nodup
  produced : world.produced = []
  entries : world.entries = []
  group : world.group = none
  acked : world.acked = []
  processed : world.processed = []
  inserted : world.inserted = []
  run : world.run = none
  segments : ∀ entry ∈ deployment.schemas, ∃ segmentName segment capacity maxIdBytes header calls,
    world.current entry.1 = some segmentName ∧ world.shared segmentName = some segment ∧
    segment.schema = entry.2 ∧
    computeLayout deployment.externals.hashName entry.2 capacity maxIdBytes = .ok segment.layout ∧
    header.length = headerSize ∧
    segment.memory = (runCalls deployment.externals.hashId segment.layout header calls).memory
  segmentsDistinct : ∀ first ∈ deployment.schemas, ∀ second ∈ deployment.schemas,
    world.current first.1 = world.current second.1 → first.1 = second.1

/-- The worlds of all runs. -/
def Reachable (deployment : Deployment) (world : World) : Prop :=
  ∃ start : World, start.Initial deployment ∧
    Relation.ReflTransGen (WorldStep deployment) start world

end Quorin
