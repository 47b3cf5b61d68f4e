import Quorin.Proof.Consumer.Arrivals
import Quorin.Proof.Consumer.HomeSegments
import Quorin.Proof.Consumer.DrainGates

namespace Quorin

open ByteMemory

/-- The segment and the entity of an executed insert. -/
def InsertRecord.target (record : InsertRecord) : String × String :=
  (record.segment, record.request.entityId)

/-- The newest executed insert of an entity. -/
def newestRecord (inserted : List InsertRecord) (target : String × String) : Option InsertRecord :=
  inserted.find? fun record => record.target = target

/-- An executed insert that no executed insert of its entity is newer than. -/
def LastRecord (inserted : List InsertRecord) (record : InsertRecord) : Prop :=
  record ∈ inserted ∧
    ∀ other ∈ inserted, other.target = record.target → other.msgId ≤ record.msgId

/-- The last insert of an entity that now has the row of an older message. -/
def Overtaken (inserted : List InsertRecord) (record : InsertRecord) : Prop :=
  LastRecord inserted record ∧ ∃ newest, newestRecord inserted record.target = some newest ∧
    newest.msgId < record.msgId

/-- The segment and the entity that a message writes to. -/
def Consumer.target (externals : Externals) (consumer : Consumer) (fields : MessageFields) :
    Option (String × String) :=
  match decodeMessage externals consumer.schemas fields with
  | .ok (some message) =>
      (consumer.segments message.name).map fun segmentName => (segmentName, message.entityId)
  | _ => none

/-- A replayed message is the last of its entity or followed by a pending one; no trimmed entry is
the message of an overtaken row. -/
def ReplaySafe (deployment : Deployment) (inserted : List InsertRecord) (consumer : Consumer)
    (group : Group) : MsgId × Option MessageFields → Prop
  | (msgId, some fields) => ∀ record, LastRecord inserted record →
      consumer.target deployment.externals fields = some record.target →
      msgId < record.msgId → record.msgId ∈ group.pending
  | (msgId, none) => ∀ record, Overtaken inserted record → record.msgId ≠ msgId

/-- Every entry that a drain is about to read is safe to replay or to skip. -/
def DrainSafe (deployment : Deployment) (world : World) : Prop :=
  ∀ run group lastId, world.run = some run → run.reader = .draining lastId →
    run.consumer.stopEvent = false → world.group = some group →
    ∀ entry ∈ world.pendingBatch deployment group lastId,
      ReplaySafe deployment world.inserted run.consumer group entry

/-- A drain is stopped only when no message of an overtaken row waits for its acknowledgement. -/
def StopSafe (world : World) : Prop :=
  ∀ run lastId, world.run = some run → run.reader = .draining lastId →
    run.consumer.stopEvent = true → ∀ record, Overtaken world.inserted record →
    record.msgId ∉ run.consumer.pendingAck

/-- The steps of a run in which no replay leaves an older row behind. -/
def ReplaySafeStep (deployment : Deployment) (before after : World) : Prop :=
  WorldStep deployment before after ∧ DrainSafe deployment before ∧ StopSafe before

/-- A drain applies no message while the key of a newer message of its entity is set. -/
def ReplaysForward (deployment : Deployment) (world : World) : Prop :=
  ∀ run lastId msgId fields rest applied, world.run = some run →
    run.reader = .applying (.drain lastId) ((msgId, some fields) :: rest) applied →
    ∀ record ∈ world.inserted, record.msgId ∈ world.processed →
      run.consumer.target deployment.externals fields = some record.target →
      record.msgId ≤ msgId

/-- The steps of a run in which no drain goes back behind a set key. -/
def ForwardStep (deployment : Deployment) (before after : World) : Prop :=
  WorldStep deployment before after ∧ ReplaysForward deployment before

/-- How far the drain of a run has come: the ids it holds and the id it read up to. -/
inductive DrainStage where
  | idle
  | replaying (left : List MsgId) (lastId : MsgId)
  | serving

def ReaderPhase.drainStage : ReaderPhase → DrainStage
  | .starting => .idle
  | .ended => .idle
  | .draining lastId => .replaying [] lastId
  | .batching (.drain lastId) batch => .replaying (batch.map Prod.fst) lastId
  | .applying (.drain lastId) batch _ => .replaying (batch.map Prod.fst) lastId
  | .setting (.drain lastId) _ => .replaying [] lastId
  | _ => .serving

/-- A drain between two awaits: what it holds and what it has not read yet covers every overtaken row. -/
structure Replaying (deployment : Deployment) (world : World) (run : Run) (group : Group)
    (left : List MsgId) (lastId : MsgId) : Prop where
  present : world.group = some group
  safe : ∀ entry ∈ run.reader.batch,
    ReplaySafe deployment world.inserted run.consumer group entry
  trimmed : ∀ first second fields, (first, none) ∈ run.reader.batch →
    (second, some fields) ∈ run.reader.batch → first < second
  sorted : left.Pairwise (· < ·)
  held : ∀ msgId ∈ left, msgId ∈ group.pending
  covers : ∀ first ∈ left, ∀ msgId ∈ group.pending, first ≤ msgId → msgId ∈ left ∨ lastId < msgId
  ahead : ∀ record, Overtaken world.inserted record → record.msgId ∈ left ∨ lastId < record.msgId

/-- An overtaken row of a run is ahead of its drain, or none of the ids it will acknowledge. -/
def RunPursued (deployment : Deployment) (world : World) (run : Run) : Prop :=
  match run.reader.drainStage with
  | .idle => True
  | .replaying left lastId => ∃ group, Replaying deployment world run group left lastId
  | .serving => ∀ record, Overtaken world.inserted record → record.msgId ∉ run.waiting

/-- An overtaken row is pending until a drain has replayed its message. -/
structure Pursued (deployment : Deployment) (world : World) : Prop where
  pending : ∀ record, Overtaken world.inserted record →
    ∃ group, world.group = some group ∧ record.msgId ∈ group.pending
  settled : world.drained = true → ∀ record, ¬ Overtaken world.inserted record
  run : ∀ run, world.run = some run → RunPursued deployment world run

section Rules

variable {deployment : Deployment} {world after : World}

theorem drainStage_gate {phase : ReaderPhase} {left : List MsgId} {lastId : MsgId}
    (stage : phase.drainStage = .replaying left lastId) : phase.gate = .draining := by
  cases phase with
  | draining lastId => rfl
  | batching origin batch =>
      cases origin with
      | drain lastId => rfl
      | loop => cases stage
  | applying origin batch applied =>
      cases origin with
      | drain lastId => rfl
      | loop => cases stage
  | setting origin applied =>
      cases origin with
      | drain lastId => rfl
      | loop => cases stage
  | _ => cases stage

/-- Without overtaken rows only a drain in progress has something to show. -/
theorem pursued_of_none (none : ∀ record, ¬ Overtaken after.inserted record)
    (still : ∀ run, after.run = some run → ∀ left lastId,
      run.reader.drainStage ≠ .replaying left lastId) : Pursued deployment after where
  pending := fun record overtaken => absurd overtaken (none record)
  settled := fun _ => none
  run := by
    intro run live
    unfold RunPursued
    cases stage : run.reader.drainStage with
    | idle => trivial
    | replaying left lastId => exact absurd stage (still run live left lastId)
    | serving => exact fun record overtaken => absurd overtaken (none record)

/-- A drained world has no drain in progress. -/
theorem still_of_gated (gated : ∀ run, after.run = some run → Gated after.drained run)
    (drained : after.drained = true) : ∀ run, after.run = some run → ∀ left lastId,
      run.reader.drainStage ≠ .replaying left lastId := by
  intro run live left lastId stage
  have closed := gated run live
  simp only [Gated, drainStage_gate stage, drained] at closed
  exact absurd closed.2 (by simp)

/-- An acknowledgement of waiting ids keeps the overtaken rows pending. -/
theorem Settling.pursued {run next : Run} (settling : Settling world after run next)
    (before : Pursued deployment world) (serving : run.reader.drainStage = .serving)
    (later : ∀ left lastId, next.reader.drainStage ≠ .replaying left lastId) :
    Pursued deployment after := by
  have unwaited : ∀ record, Overtaken world.inserted record → record.msgId ∉ run.waiting := by
    have held := before.run run settling.live
    simp only [RunPursued, serving] at held
    exact held
  obtain ⟨snapshot, named, group⟩ := settling.group
  refine ⟨?_, ?_, ?_⟩
  · rw [settling.inserted]
    intro record overtaken
    obtain ⟨old, present, pending⟩ := before.pending record overtaken
    rw [present] at group
    refine ⟨_, group, List.mem_filter.mpr ⟨pending, ?_⟩⟩
    simpa using fun inside => unwaited record overtaken (named inside)
  · rw [settling.inserted, settling.drained]
    exact before.settled
  · refine World.forRun settling.now ?_
    unfold RunPursued
    cases stage : next.reader.drainStage with
    | idle => trivial
    | replaying left lastId => exact absurd stage (later left lastId)
    | serving =>
        rw [settling.inserted]
        exact fun record overtaken waits => unwaited record overtaken (settling.waiting waits)

/-- A step behind which the read task has nothing to replay and nothing to acknowledge. -/
theorem Pursued.rest (before : Pursued deployment world) (inserted : after.inserted = world.inserted)
    (drained : after.drained = true → world.drained = true) (group : after.group = world.group)
    (idle : ∀ run, after.run = some run → run.reader.drainStage = .idle) :
    Pursued deployment after where
  pending := by
    rw [inserted, group]
    exact before.pending
  settled := by
    rw [inserted]
    exact fun now => before.settled (drained now)
  run := by
    intro run live
    simp only [RunPursued, idle run live]

theorem raised_absent {run : Run} (absent : run.flusher = .absent) : run.raised.reader = .ended := by
  unfold Run.raised
  rw [absent]

theorem raised_waiting (run : Run) : run.raised.waiting ⊆ run.waiting := by
  refine waiting_subset (List.Subset.refl _) ?_ (flusherSnapshot_waiting run)
  unfold Run.raised
  cases run.flusher <;> exact List.nil_subset _

/-- What a drain reads stays safe while the inserts and the segments stay the same. -/
theorem ReplaySafe.congr {inserted : List InsertRecord} {consumer other : Consumer} {group : Group}
    {entry : MsgId × Option MessageFields}
    (safe : ReplaySafe deployment inserted consumer group entry)
    (schemas : other.schemas = consumer.schemas) (segments : other.segments = consumer.segments) :
    ReplaySafe deployment inserted other group entry := by
  obtain ⟨msgId, fields⟩ := entry
  cases fields with
  | none => exact safe
  | some fields =>
      intro record last same
      refine safe record last ?_
      rw [← same]
      simp [Consumer.target, schemas, segments]

/-- The read task holds its place while the stream grows or shrinks. -/
theorem Replaying.congr {run next : Run} {group : Group} {left : List MsgId} {lastId : MsgId}
    (replaying : Replaying deployment world run group left lastId)
    (present : after.group = world.group) (inserted : after.inserted = world.inserted)
    (batch : next.reader.batch ⊆ run.reader.batch)
    (schemas : next.consumer.schemas = run.consumer.schemas)
    (segments : next.consumer.segments = run.consumer.segments) :
    Replaying deployment after next group left lastId where
  present := present.trans replaying.present
  safe := by
    intro entry held
    rw [inserted]
    exact (replaying.safe entry (batch held)).congr schemas segments
  trimmed := fun first second fields gone kept =>
    replaying.trimmed first second fields (batch gone) (batch kept)
  sorted := replaying.sorted
  held := replaying.held
  covers := replaying.covers
  ahead := by
    rw [inserted]
    exact replaying.ahead

/-- A step that leaves the inserts, the group and the place of the read task as they are. -/
theorem RunPursued.congr {run next : Run} (before : RunPursued deployment world run)
    (present : after.group = world.group) (inserted : after.inserted = world.inserted)
    (stage : next.reader.drainStage = run.reader.drainStage)
    (batch : next.reader.batch ⊆ run.reader.batch) (waiting : next.waiting ⊆ run.waiting)
    (schemas : next.consumer.schemas = run.consumer.schemas)
    (segments : next.consumer.segments = run.consumer.segments) :
    RunPursued deployment after next := by
  unfold RunPursued at before ⊢
  rw [stage]
  cases shape : run.reader.drainStage with
  | idle => trivial
  | replaying left lastId =>
      rw [shape] at before
      obtain ⟨group, replaying⟩ := before
      exact ⟨group, replaying.congr present inserted batch schemas segments⟩
  | serving =>
      rw [shape] at before
      rw [inserted]
      exact fun record overtaken waits => before record overtaken (waiting waits)

theorem EnvironmentStep.pursued (step : EnvironmentStep deployment world after)
    (before : Pursued deployment world) : Pursued deployment after := by
  have inserted : after.inserted = world.inserted := by cases step <;> rfl
  have group : after.group = world.group := by cases step <;> rfl
  have run : after.run = world.run := by cases step <;> rfl
  have drained : after.drained = world.drained := by cases step <;> rfl
  refine ⟨?_, ?_, ?_⟩
  · rw [inserted, group]
    exact before.pending
  · rw [inserted, drained]
    exact before.settled
  · rw [run]
    intro held live
    exact (before.run held live).congr group inserted rfl (List.Subset.refl _)
      (List.Subset.refl _) rfl rfl

theorem LifecycleStep.pursued (step : LifecycleStep deployment world after)
    (before : Pursued deployment world) : Pursued deployment after := by
  cases step with
  | start none opened =>
      exact before.rest rfl (fun now => by cases now) rfl (World.forRun rfl rfl)
  | rerun live ended =>
      exact before.rest rfl (fun now => by cases now) rfl (World.forRun rfl rfl)
  | exit live ended => exact before.rest rfl id rfl fun run live => by cases live
  | crash => exact before.rest rfl id rfl fun run live => by cases live
  | crashInInsert live applying count early =>
      exact before.rest rfl id rfl fun run live => by cases live
  | crashInFlush live outcome count => exact before.rest rfl id rfl fun run live => by cases live
  | requestStop live =>
      refine ⟨before.pending, before.settled, World.forRun rfl ?_⟩
      exact (before.run _ live).congr rfl rfl rfl (List.Subset.refl _) (List.Subset.refl _) rfl rfl

end Rules

end Quorin
