import Quorin.Construction.ConsumerSteps
import Quorin.Proof.Consumer.ApplySpec

namespace Quorin

/-- The ids of the batch in progress that were applied. -/
def ReaderPhase.applied : ReaderPhase → List MsgId
  | .applying _ _ applied => applied
  | .setting _ applied => applied
  | _ => []

/-- The ids that the read task is about to acknowledge. -/
def ReaderPhase.snapshot : ReaderPhase → List MsgId
  | .pauseAcking _ snapshot => snapshot
  | .finalAcking snapshot => snapshot
  | _ => []

/-- The batch that the read task holds. -/
def ReaderPhase.batch : ReaderPhase → Batch
  | .checking batch => batch
  | .pauseAcking batch _ => batch
  | .parked batch => batch
  | .refreshing batch => batch
  | .batching _ batch => batch
  | .applying _ batch _ => batch
  | _ => []

/-- The ids that the flush task is about to acknowledge. -/
def FlusherPhase.snapshot : FlusherPhase → List MsgId
  | .acking snapshot => snapshot
  | _ => []

/-- The row of a message is in a sealed file. -/
def SealedMessage (deployment : Deployment) (produced : List StreamEntry) (files : List SealedFile)
    (msgId : MsgId) : Prop :=
  ∃ entry ∈ produced, entry.id = msgId ∧ ∃ key row,
    RowOf deployment.externals deployment.schemas deployment.includeMsgId msgId entry.fields key row ∧
    SealedIn files key row

/-- The row of a message is in a sealed file or in the buffers of the writer. -/
def RecordedMessage (deployment : Deployment) (produced : List StreamEntry)
    (files : List SealedFile) (offline : OfflineStore) (msgId : MsgId) : Prop :=
  ∃ entry ∈ produced, entry.id = msgId ∧ ∃ key row,
    RowOf deployment.externals deployment.schemas deployment.includeMsgId msgId entry.fields key row ∧
    (SealedIn files key row ∨ offline.Buffered key row)

/-- Acknowledging never outruns the sealed files within one process. -/
structure RunDurable (deployment : Deployment) (produced : List StreamEntry)
    (files : List SealedFile) (run : Run) : Prop where
  sound : run.consumer.offline.Sound deployment.externals
  included : run.consumer.offline.includeMsgId = deployment.includeMsgId
  schemas : run.consumer.schemas = deployment.schemas
  pending : ∀ msgId ∈ run.consumer.pendingAck,
    RecordedMessage deployment produced files run.consumer.offline msgId
  applied : ∀ msgId ∈ run.reader.applied,
    RecordedMessage deployment produced files run.consumer.offline msgId
  readerSnapshot : ∀ msgId ∈ run.reader.snapshot, SealedMessage deployment produced files msgId
  flusherSnapshot : ∀ msgId ∈ run.flusher.snapshot, SealedMessage deployment produced files msgId
  batch : ∀ msgId fields, (msgId, some fields) ∈ run.reader.batch → ⟨msgId, fields⟩ ∈ produced

/-- Acknowledging never outruns the sealed files. -/
structure Durable (deployment : Deployment) (world : World) : Prop where
  entries : ∀ entry ∈ world.entries, entry ∈ world.produced
  acked : ∀ msgId ∈ world.acked, SealedMessage deployment world.produced world.files msgId
  run : ∀ run, world.run = some run → RunDurable deployment world.produced world.files run

section Rules

variable {deployment : Deployment} {produced : List StreamEntry} {files : List SealedFile}

/-- More entries and more files keep a message sealed. -/
theorem SealedMessage.mono {msgId : MsgId} (held : SealedMessage deployment produced files msgId)
    {more : List StreamEntry} (grown : ∀ entry ∈ produced, entry ∈ more) (newFiles : List SealedFile) :
    SealedMessage deployment more (files ++ newFiles) msgId := by
  obtain ⟨entry, member, same, key, row, rowOf, stored⟩ := held
  exact ⟨entry, grown entry member, same, key, row, rowOf, stored.append_left newFiles⟩

theorem RecordedMessage.mono {msgId : MsgId} {offline : OfflineStore}
    (held : RecordedMessage deployment produced files offline msgId)
    {more : List StreamEntry} (grown : ∀ entry ∈ produced, entry ∈ more) (newFiles : List SealedFile) :
    RecordedMessage deployment more (files ++ newFiles) offline msgId := by
  obtain ⟨entry, member, same, key, row, rowOf, stored⟩ := held
  refine ⟨entry, grown entry member, same, key, row, rowOf, ?_⟩
  rcases stored with inFile | buffered
  · exact Or.inl (inFile.append_left newFiles)
  · exact Or.inr buffered

/-- A writer that keeps its buffered rows keeps a message recorded. -/
theorem RecordedMessage.kept {msgId : MsgId} {before after : OfflineStore}
    (held : RecordedMessage deployment produced files before msgId)
    (kept : ∀ key row, before.Buffered key row → after.Buffered key row) :
    RecordedMessage deployment produced files after msgId := by
  obtain ⟨entry, member, same, key, row, rowOf, stored⟩ := held
  exact ⟨entry, member, same, key, row, rowOf, stored.imp_right (kept key row)⟩

/-- A flush that comes to its end seals every recorded message. -/
theorem RecordedMessage.sealed {msgId : MsgId} {offline : OfflineStore}
    (held : RecordedMessage deployment produced files offline msgId)
    {outcome : BucketKey → WriteOutcome}
    (finished : (offline.flush deployment.externals outcome).1 = true) :
    SealedMessage deployment produced (files ++ (offline.flush deployment.externals outcome).2.2)
      msgId := by
  obtain ⟨entry, member, same, key, row, rowOf, stored⟩ := held
  refine ⟨entry, member, same, key, row, rowOf, ?_⟩
  rcases stored with inFile | buffered
  · exact inFile.append_left _
  · rcases flush_conserves outcome buffered with inFile | ⟨unfinished, _⟩
    · exact inFile.append_right files
    · rw [finished] at unfinished
      cases unfinished

/-- A flush keeps every message recorded, however it ends. -/
theorem RecordedMessage.flushed {msgId : MsgId} {offline : OfflineStore}
    (held : RecordedMessage deployment produced files offline msgId)
    (outcome : BucketKey → WriteOutcome) :
    RecordedMessage deployment produced
      (files ++ (offline.flush deployment.externals outcome).2.2)
      (offline.flush deployment.externals outcome).2.1 msgId := by
  obtain ⟨entry, member, same, key, row, rowOf, stored⟩ := held
  refine ⟨entry, member, same, key, row, rowOf, ?_⟩
  rcases stored with inFile | buffered
  · exact Or.inl (inFile.append_left _)
  · rcases flush_conserves outcome buffered with inFile | ⟨_, still⟩
    · exact Or.inl (inFile.append_right files)
    · exact Or.inr still

variable {run : Run} (durable : RunDurable deployment produced files run)

include durable in
theorem RunDurable.mono {more : List StreamEntry} (grown : ∀ entry ∈ produced, entry ∈ more)
    (newFiles : List SealedFile) : RunDurable deployment more (files ++ newFiles) run := by
  constructor
  · exact durable.sound
  · exact durable.included
  · exact durable.schemas
  · exact fun msgId member => (durable.pending msgId member).mono grown newFiles
  · exact fun msgId member => (durable.applied msgId member).mono grown newFiles
  · exact fun msgId member => (durable.readerSnapshot msgId member).mono grown newFiles
  · exact fun msgId member => (durable.flusherSnapshot msgId member).mono grown newFiles
  · exact fun msgId fields member => grown _ (durable.batch msgId fields member)

include durable in
/-- A run that holds no further ids than before stays durable. -/
theorem RunDurable.shrink {after : Run} (offline : after.consumer.offline = run.consumer.offline)
    (schemas : after.consumer.schemas = run.consumer.schemas)
    (pending : ∀ msgId ∈ after.consumer.pendingAck,
      msgId ∈ run.consumer.pendingAck ∨ msgId ∈ run.reader.applied)
    (applied : ∀ msgId ∈ after.reader.applied, msgId ∈ run.reader.applied)
    (readerSnapshot : ∀ msgId ∈ after.reader.snapshot, msgId ∈ run.reader.snapshot)
    (flusherSnapshot : ∀ msgId ∈ after.flusher.snapshot, msgId ∈ run.flusher.snapshot)
    (batch : ∀ entry ∈ after.reader.batch, entry ∈ run.reader.batch) :
    RunDurable deployment produced files after := by
  constructor
  · rw [offline]
    exact durable.sound
  · rw [offline]
    exact durable.included
  · rw [schemas]
    exact durable.schemas
  · intro msgId member
    rw [offline]
    rcases pending msgId member with before | before
    · exact durable.pending msgId before
    · exact durable.applied msgId before
  · intro msgId member
    rw [offline]
    exact durable.applied msgId (applied msgId member)
  · exact fun msgId member => durable.readerSnapshot msgId (readerSnapshot msgId member)
  · exact fun msgId member => durable.flusherSnapshot msgId (flusherSnapshot msgId member)
  · exact fun msgId fields member => durable.batch msgId fields (batch _ member)

include durable in
/-- A run that only moves to another phase holds no further ids. -/
theorem RunDurable.turn {after : Run} (consumer : after.consumer = run.consumer)
    (applied : ∀ msgId ∈ after.reader.applied, msgId ∈ run.reader.applied)
    (readerSnapshot : after.reader.snapshot = [])
    (flusherSnapshot : ∀ msgId ∈ after.flusher.snapshot, msgId ∈ run.flusher.snapshot)
    (batch : ∀ entry ∈ after.reader.batch, entry ∈ run.reader.batch) :
    RunDurable deployment produced files after := by
  apply durable.shrink _ _ _ applied _ flusherSnapshot batch
  · rw [consumer]
  · rw [consumer]
  · rw [consumer]
    exact fun msgId member => Or.inl member
  · rw [readerSnapshot]
    intro msgId member
    cases member

include durable in
theorem RunDurable.raised : RunDurable deployment produced files run.raised := by
  have consumer : run.raised.consumer = run.consumer := rfl
  apply durable.turn consumer
  · intro msgId member
    unfold Run.raised at member
    dsimp only at member
    split at member <;> cases member
  · unfold Run.raised
    dsimp only
    split <;> rfl
  · exact fun msgId member => member
  · intro entry member
    unfold Run.raised at member
    dsimp only at member
    split at member <;> cases member

include durable in
/-- A flush seals the pending ids that enter a snapshot, and keeps the others recorded. -/
theorem RunDurable.flush (outcome : BucketKey → WriteOutcome) {after : Run}
    (consumer : after.consumer = (run.consumer.flush deployment outcome).2.1)
    (applied : ∀ msgId ∈ after.reader.applied, msgId ∈ run.reader.applied)
    (readerSnapshot : ∀ msgId ∈ after.reader.snapshot, msgId ∈ run.reader.snapshot ∨
      (run.consumer.flush deployment outcome).1 = true ∧ msgId ∈ run.consumer.pendingAck)
    (flusherSnapshot : ∀ msgId ∈ after.flusher.snapshot, msgId ∈ run.flusher.snapshot ∨
      (run.consumer.flush deployment outcome).1 = true ∧ msgId ∈ run.consumer.pendingAck)
    (batch : ∀ entry ∈ after.reader.batch, entry ∈ run.reader.batch) :
    RunDurable deployment produced (files ++ (run.consumer.flush deployment outcome).2.2) after := by
  have sealedPending : ∀ msgId, (run.consumer.flush deployment outcome).1 = true ∧
      msgId ∈ run.consumer.pendingAck → SealedMessage deployment produced
        (files ++ (run.consumer.flush deployment outcome).2.2) msgId :=
    fun msgId reached => (durable.pending msgId reached.2).sealed reached.1
  constructor
  · rw [consumer]
    exact flush_sound outcome durable.sound
  · rw [consumer]
    exact durable.included
  · rw [consumer]
    exact durable.schemas
  · rw [consumer]
    exact fun msgId member => (durable.pending msgId member).flushed outcome
  · rw [consumer]
    exact fun msgId member => (durable.applied msgId (applied msgId member)).flushed outcome
  · intro msgId member
    rcases readerSnapshot msgId member with before | reached
    · exact (durable.readerSnapshot msgId before).mono (fun _ member => member) _
    · exact sealedPending msgId reached
  · intro msgId member
    rcases flusherSnapshot msgId member with before | reached
    · exact (durable.flusherSnapshot msgId before).mono (fun _ member => member) _
    · exact sealedPending msgId reached
  · exact fun msgId fields member => durable.batch msgId fields (batch _ member)

include durable in
/-- A call of `_apply` that returns true records its message. -/
theorem RunDurable.applyReturns {shared written : SharedMemory} {msgId : MsgId}
    {fields : Option MessageFields} {result : Except ApplyException Bool} {consumer : Consumer}
    (returned : apply deployment.externals run.consumer shared msgId fields =
      (result, consumer, written)) (inBatch : (msgId, fields) ∈ run.reader.batch)
    {after : Run} (sameConsumer : after.consumer = consumer)
    (applied : ∀ other ∈ after.reader.applied, other ∈ run.reader.applied ∨
      result = .ok true ∧ other = msgId)
    (readerSnapshot : after.reader.snapshot = [])
    (flusherSnapshot : after.flusher = run.flusher)
    (batch : ∀ entry ∈ after.reader.batch, entry ∈ run.reader.batch) :
    RunDurable deployment produced files after := by
  have frame := @apply_frame deployment.externals run.consumer shared msgId fields
  rw [returned] at frame
  obtain ⟨sound, included, kept⟩ := frame.keeps durable.sound
  constructor
  · rw [sameConsumer]
    exact sound
  · rw [sameConsumer, included]
    exact durable.included
  · rw [sameConsumer, frame.schemas]
    exact durable.schemas
  · rw [sameConsumer, frame.pendingAck]
    exact fun other member => (durable.pending other member).kept kept
  · rw [sameConsumer]
    intro other member
    rcases applied other member with before | ⟨rfl, rfl⟩
    · exact (durable.applied other before).kept kept
    · obtain ⟨held, rfl, key, row, rowOf, buffered⟩ := apply_true durable.sound returned
      rw [durable.schemas, durable.included] at rowOf
      exact ⟨⟨other, held⟩, durable.batch other held inBatch, rfl, key, row, rowOf, Or.inr buffered⟩
  · rw [readerSnapshot]
    intro other member
    cases member
  · rw [flusherSnapshot]
    exact durable.flusherSnapshot
  · exact fun other held member => durable.batch other held (batch _ member)

end Rules

section Steps

variable {deployment : Deployment} {world after : World} (durable : Durable deployment world)

include durable in
/-- A step of the process that leaves the stream and the files as they are. -/
theorem Durable.moved {next : Run} (stream : after.entries = world.entries ∧
      after.produced = world.produced ∧ after.acked = world.acked ∧ after.files = world.files)
    (run : after.run = some next)
    (kept : RunDurable deployment world.produced world.files next) : Durable deployment after := by
  obtain ⟨entries, produced, acked, files⟩ := stream
  constructor
  · rw [entries, produced]
    exact durable.entries
  · rw [acked, produced, files]
    exact durable.acked
  · intro other same
    rw [run] at same
    obtain rfl := Option.some.inj same
    rw [produced, files]
    exact kept

include durable in
/-- A step to a phase that holds no applied ids and at most the batch of before. -/
theorem Durable.turned {run next : Run} (live : world.run = some run)
    (stream : after.entries = world.entries ∧ after.produced = world.produced ∧
      after.acked = world.acked ∧ after.files = world.files)
    (now : after.run = some next) (consumer : next.consumer = run.consumer)
    (applied : next.reader.applied = []) (snapshot : next.reader.snapshot = [])
    (flusher : next.flusher.snapshot = [] ∨ next.flusher = run.flusher)
    (batch : next.reader.batch = [] ∨ next.reader.batch = run.reader.batch) :
    Durable deployment after := by
  apply durable.moved stream now
  apply (durable.run run live).turn consumer _ snapshot
  · intro msgId member
    rcases flusher with none | same
    · rw [none] at member
      cases member
    · rwa [same] at member
  · intro entry member
    rcases batch with none | same
    · rw [none] at member
      cases member
    · rwa [same] at member
  · rw [applied]
    intro msgId member
    cases member

include durable in
/-- A step of the process that acknowledges sealed messages. -/
theorem Durable.acknowledged {snapshot : List MsgId}
    (sealed : ∀ msgId ∈ snapshot, SealedMessage deployment world.produced world.files msgId)
    {next : Run} (kept : RunDurable deployment world.produced world.files next) :
    Durable deployment ((world.ack snapshot).withRun next) := by
  constructor
  · exact durable.entries
  · intro msgId member
    rcases List.mem_append.mp member with before | now
    · exact durable.acked msgId before
    · exact sealed msgId now
  · intro other same
    obtain rfl := Option.some.inj same
    exact kept

include durable in
/-- A step of the process that flushes. -/
theorem Durable.flushed {run next : Run} {outcome : BucketKey → WriteOutcome}
    (files : after.files = world.files ++ (run.consumer.flush deployment outcome).2.2)
    (stream : after.entries = world.entries ∧ after.produced = world.produced ∧
      after.acked = world.acked)
    (now : after.run = some next)
    (kept : RunDurable deployment world.produced
      (world.files ++ (run.consumer.flush deployment outcome).2.2) next) :
    Durable deployment after := by
  obtain ⟨entries, produced, acked⟩ := stream
  constructor
  · rw [entries, produced]
    exact durable.entries
  · rw [acked, produced, files]
    exact fun msgId member => (durable.acked msgId member).mono (fun _ member => member) _
  · intro other same
    rw [now] at same
    obtain rfl := Option.some.inj same
    rw [produced, files]
    exact kept

include durable in
theorem Durable.stopped (stream : after.entries = world.entries ∧
      after.produced = world.produced ∧ after.acked = world.acked)
    (files : ∃ newFiles, after.files = world.files ++ newFiles) (run : after.run = none) :
    Durable deployment after := by
  obtain ⟨entries, produced, acked⟩ := stream
  obtain ⟨newFiles, files⟩ := files
  constructor
  · rw [entries, produced]
    exact durable.entries
  · rw [acked, produced, files]
    exact fun msgId member => (durable.acked msgId member).mono (fun _ member => member) _
  · intro other same
    rw [run] at same
    cases same

end Steps

end Quorin
