import Quorin.Proof.Consumer.RowBuffers
import Quorin.Construction.ConsumerSteps
import Quorin.Proof.Segment.Histories

namespace Quorin

open ByteMemory

/-- The executed inserts of one segment, newest first. -/
def segmentLog (inserted : List InsertRecord) (segmentName : String) : List InsertRequest :=
  (inserted.filter fun record => record.segment = segmentName).map InsertRecord.request

theorem segmentLog_append (first second : List InsertRecord) (segmentName : String) :
    segmentLog (first ++ second) segmentName =
      segmentLog first segmentName ++ segmentLog second segmentName := by
  simp [segmentLog]

/-- The call of `insert` that one call of `_apply` leads to. -/
structure InsertCall (deployment : Deployment) (consumer : Consumer) (shared : SharedMemory)
    (fields : Option MessageFields) (prepared : PreparedInsert) (segmentName : String)
    (segment : Segment) : Prop where
  ready : ∃ present, fields = some present ∧
    (prepareInsert deployment.externals consumer present).1 = .ok (some prepared)
  held : consumer.held shared prepared.message.name = some (segmentName, segment)

/-- The rest of `_apply` writes to the segment through `insert` only. -/
theorem finishApply_shared (externals : Externals) (consumer : Consumer) (shared : SharedMemory)
    (msgId : MsgId) (fields : MessageFields) (prepared : PreparedInsert) :
    (finishApply externals consumer shared msgId fields prepared).2.2 =
      match consumer.held shared prepared.message.name with
      | none => shared
      | some (segmentName, segment) => Function.update shared segmentName (some { segment with
          memory := ((insert externals.hashId segment.layout prepared.request.entityId
            prepared.request.rowData).run segment.memory).2 }) := by
  unfold finishApply
  cases consumer.held shared prepared.message.name with
  | none => rfl
  | some pair =>
      dsimp only
      split
      · rfl
      · split
        · split <;> rfl
        · rfl

/-- What one call of `_apply` does to the segments: nothing, or one call of `insert`. -/
theorem apply_effect (deployment : Deployment) (consumer : Consumer) (shared : SharedMemory)
    (msgId : MsgId) (fields : Option MessageFields) :
    ((apply deployment.externals consumer shared msgId fields).2.2 = shared ∧
        executedInsert deployment consumer shared msgId fields = none) ∨
      ∃ prepared segmentName segment,
        InsertCall deployment consumer shared fields prepared segmentName segment ∧
        (apply deployment.externals consumer shared msgId fields).2.2 =
          Function.update shared segmentName (some { segment with
            memory := ((insert deployment.externals.hashId segment.layout prepared.request.entityId
              prepared.request.rowData).run segment.memory).2 }) ∧
        executedInsert deployment consumer shared msgId fields =
          match (insert deployment.externals.hashId segment.layout prepared.request.entityId
            prepared.request.rowData).result segment.memory with
          | .error _ => none
          | .ok _ => some ⟨msgId, segmentName, prepared.request⟩ := by
  cases fields with
  | none => exact Or.inl ⟨rfl, rfl⟩
  | some present =>
      cases ready : prepareInsert deployment.externals consumer present with
      | mk result rowBuffers =>
          rcases result with exception | none | prepared
          · exact Or.inl ⟨by simp [apply, ready], by simp [executedInsert, ready]⟩
          · exact Or.inl ⟨by simp [apply, ready], by simp [executedInsert, ready]⟩
          · have written := finishApply_shared deployment.externals
              { consumer with rowBuffers := rowBuffers } shared msgId present prepared
            rw [show Consumer.held { consumer with rowBuffers := rowBuffers } shared
              prepared.message.name = consumer.held shared prepared.message.name from rfl] at written
            cases held : consumer.held shared prepared.message.name with
            | none =>
                rw [held] at written
                exact Or.inl ⟨by simpa [apply, ready] using written, by simp [executedInsert, ready, held]⟩
            | some pair =>
                obtain ⟨segmentName, segment⟩ := pair
                rw [held] at written
                refine Or.inr ⟨prepared, segmentName, segment, ⟨⟨present, rfl, ?_⟩, held⟩, ?_, ?_⟩
                · rw [ready]
                · simpa [apply, ready] using written
                · simp only [executedInsert, ready]
                  exact held ▸ rfl

/-- A call of `_apply` that raises has not reached `insert`. -/
theorem apply_error {deployment : Deployment} {consumer after : Consumer} {shared written : SharedMemory}
    {msgId : MsgId} {fields : Option MessageFields} {exception : ApplyException}
    (raised : apply deployment.externals consumer shared msgId fields =
      (.error exception, after, written)) : written = shared := by
  unfold apply at raised
  split at raised
  · exact (Prod.mk.inj (Prod.mk.inj raised).2).2.symm
  · split at raised
    · exact (Prod.mk.inj (Prod.mk.inj raised).2).2.symm
    · cases raised
    · cases raised

/-- What one step of the process does to the segments and to the record of the inserts. -/
inductive SegmentEffect (deployment : Deployment) (world after : World) : Prop where
  | none (shared : after.shared = world.shared) (inserted : after.inserted = world.inserted)
  | applied {run : Run} {origin : BatchOrigin} {msgId : MsgId} {fields : Option MessageFields}
      {rest : Batch} {applied : List MsgId} (live : world.run = some run)
      (phase : run.reader = .applying origin ((msgId, fields) :: rest) applied)
      (shared : after.shared =
        (apply deployment.externals run.consumer world.shared msgId fields).2.2)
      (inserted : after.inserted =
        (executedInsert deployment run.consumer world.shared msgId fields).toList ++ world.inserted)
  | cut {run : Run} {fields : Option MessageFields} {prepared : PreparedInsert}
      {segmentName : String} {segment : Segment} {count : Nat} (live : world.run = some run)
      (call : InsertCall deployment run.consumer world.shared fields prepared segmentName segment)
      (early : count < ((insert deployment.externals.hashId segment.layout prepared.request.entityId
        prepared.request.rowData).writes segment.memory).length)
      (shared : after.shared = Function.update world.shared segmentName (some { segment with
        memory := cutInsert deployment.externals.hashId segment.layout segment.memory
          prepared.request.entityId prepared.request.rowData count }))
      (inserted : after.inserted = world.inserted)

section Effects

variable {deployment : Deployment} {world after : World}

theorem LifecycleStep.segmentEffect (step : LifecycleStep deployment world after) :
    SegmentEffect deployment world after := by
  cases step with
  | @crashInInsert run origin msgId fields rest applied live applying count early =>
      rcases ready : (prepareInsert deployment.externals run.consumer fields).1 with
        exception | none | prepared
      · exact .none (by simp [cutApply, ready]) rfl
      · exact .none (by simp [cutApply, ready]) rfl
      · rcases held : run.consumer.held world.shared prepared.message.name with
          none | ⟨segmentName, segment⟩
        · exact .none (by simp [cutApply, ready, held]) rfl
        · exact .cut live ⟨⟨fields, rfl, ready⟩, held⟩ (early prepared segmentName segment ready held)
            (by simp [cutApply, ready, held]) rfl
  | _ => exact .none rfl rfl

theorem ReaderStep.segmentEffect (step : ReaderStep deployment world after) :
    SegmentEffect deployment world after := by
  cases step with
  | applyReturns live phase returned =>
      refine .applied live phase ?_ rfl
      rw [returned]
  | applyRaises live phase raised => exact .none (apply_error raised) rfl
  | _ => exact .none rfl rfl

theorem CleanupStep.segmentEffect (step : CleanupStep deployment world after) :
    SegmentEffect deployment world after := by
  cases step <;> exact .none rfl rfl

theorem FlusherStep.segmentEffect (step : FlusherStep deployment world after) :
    SegmentEffect deployment world after := by
  cases step <;> exact .none rfl rfl

theorem ConsumerStep.segmentEffect (step : ConsumerStep deployment world after) :
    SegmentEffect deployment world after := by
  cases step with
  | lifecycle step => exact step.segmentEffect
  | reader step => exact step.segmentEffect
  | cleanup step => exact step.segmentEffect
  | flusher step => exact step.segmentEffect

end Effects

/-- The segment of a served name in the start world. -/
def HomeOf (deployment : Deployment) (start : World) (name : List UInt8) (segmentName : String) :
    Prop :=
  name ∈ deployment.schemas.map Prod.fst ∧ start.current name = some segmentName

/-- A segment holds its executed inserts over the rows of a base. -/
def LoggedOver (deployment : Deployment) (first : Segment) (base : List InsertRequest) (world : World)
    (segmentName : String) : Prop :=
  ∃ memory lost, world.shared segmentName = some { first with memory := memory } ∧
    (SegmentHistory.mk memory (segmentLog world.inserted segmentName ++ base) lost).Refined
      deployment.externals.hashId first.layout

/-- A segment holds its executed inserts over the rows that it had in the start world. -/
def LoggedSegment (deployment : Deployment) (start world : World) (segmentName : String) : Prop :=
  ∃ first memory base lost, start.shared segmentName = some first ∧
    LayoutSound first.layout ∧
    world.shared segmentName = some { first with memory := memory } ∧
    (SegmentHistory.mk memory (segmentLog world.inserted segmentName ++ base) lost).Refined
      deployment.externals.hashId first.layout

theorem InsertCall.present {deployment : Deployment} {consumer : Consumer} {shared : SharedMemory}
    {fields : Option MessageFields} {prepared : PreparedInsert} {segmentName : String}
    {segment : Segment} (call : InsertCall deployment consumer shared fields prepared segmentName segment) :
    consumer.segments prepared.message.name = some segmentName ∧ shared segmentName = some segment := by
  obtain ⟨name, handle, held⟩ := Option.bind_eq_some_iff.mp call.held
  obtain ⟨stored, present, same⟩ := Option.map_eq_some_iff.mp held
  obtain ⟨rfl, rfl⟩ := Prod.mk.inj same
  exact ⟨handle, present⟩

section Logged

variable {deployment : Deployment} {start world after : World} {segmentName : String} {first : Segment}
  {base : List InsertRequest}

theorem LoggedSegment.over (logged : LoggedSegment deployment start world segmentName) :
    ∃ first base, start.shared segmentName = some first ∧ LayoutSound first.layout ∧
      LoggedOver deployment first base world segmentName := by
  obtain ⟨first, memory, base, lost, origin, sound, present, refined⟩ := logged
  exact ⟨first, base, origin, sound, memory, lost, present, refined⟩

theorem LoggedOver.segment (logged : LoggedOver deployment first base world segmentName)
    (origin : start.shared segmentName = some first) (sound : LayoutSound first.layout) :
    LoggedSegment deployment start world segmentName := by
  obtain ⟨memory, lost, present, refined⟩ := logged
  exact ⟨first, memory, base, lost, origin, sound, present, refined⟩

/-- A segment that neither a record nor a write concerns stays logged. -/
theorem LoggedOver.congr (logged : LoggedOver deployment first base world segmentName)
    (shared : after.shared segmentName = world.shared segmentName)
    (inserted : after.inserted = world.inserted) :
    LoggedOver deployment first base after segmentName := by
  obtain ⟨memory, lost, present, refined⟩ := logged
  rw [← shared] at present
  rw [← inserted] at refined
  exact ⟨memory, lost, present, refined⟩

/-- A step of the process keeps a segment the record of its inserts over the same base. -/
theorem SegmentEffect.loggedOver (effect : SegmentEffect deployment world after)
    (sound : LayoutSound first.layout) (logged : LoggedOver deployment first base world segmentName) :
    LoggedOver deployment first base after segmentName := by
  cases effect with
  | none shared inserted => exact logged.congr (by rw [shared]) inserted
  | @applied run caller msgId fields rest applied live phase shared inserted =>
      rcases apply_effect deployment run.consumer world.shared msgId fields with
        ⟨same, nothing⟩ | ⟨prepared, target, segment, call, written, executed⟩
      · rw [nothing] at inserted
        rw [same] at shared
        exact logged.congr (by rw [shared]) inserted
      · obtain ⟨memory, lost, present, refined⟩ := logged
        rw [written] at shared
        rw [executed] at inserted
        by_cases here : target = segmentName
        · subst here
          obtain rfl : { first with memory := memory } = segment :=
            Option.some.inj (present.symm.trans call.present.2)
          have completed := refined.completeInsert sound prepared.request
          refine ⟨_, lost, by rw [shared, Function.update_self], ?_⟩
          unfold SegmentHistory.completeInsert at completed
          unfold Program.run at completed ⊢
          rw [inserted, segmentLog_append]
          cases result : (insert deployment.externals.hashId first.layout prepared.request.entityId
              prepared.request.rowData).result memory with
          | error error => simpa [result, segmentLog] using completed
          | ok fresh => simpa [result, segmentLog] using completed
        · refine ⟨memory, lost, ?_, ?_⟩
          · rw [shared, Function.update_of_ne (Ne.symm here), present]
          · rw [inserted, segmentLog_append]
            split
            · exact refined
            · simpa [segmentLog, here] using refined
  | @cut run fields prepared target segment count live call early shared inserted =>
      obtain ⟨memory, lost, present, refined⟩ := logged
      by_cases here : target = segmentName
      · subst here
        obtain rfl : { first with memory := memory } = segment :=
          Option.some.inj (present.symm.trans call.present.2)
        have cut := refined.cutOffInsert sound prepared.request count
        rw [← inserted] at cut
        unfold SegmentHistory.cutOffInsert at cut
        dsimp only at cut early
        rw [if_neg (by omega)] at cut
        exact ⟨_, _, by rw [shared, Function.update_self], cut⟩
      · rw [← inserted] at refined
        refine ⟨memory, lost, ?_, refined⟩
        rw [shared, Function.update_of_ne (Ne.symm here), present]

/-- The lookup of an entity with a record returns the row of its newest record. -/
theorem LoggedOver.newest (logged : LoggedOver deployment first base world segmentName)
    (sound : LayoutSound first.layout) {entityId : String} {record : InsertRecord}
    (newest : world.inserted.find? (fun record =>
      record.segment = segmentName ∧ record.request.entityId = entityId) = some record) :
    ∃ segment address, world.shared segmentName = some segment ∧
      (lookup deployment.externals.hashId segment.layout entityId).result segment.memory =
        .ok (some address) ∧
      segment.memory.read address segment.layout.rowSize = record.request.rowData := by
  obtain ⟨memory, lost, present, refined⟩ := logged
  have rows : lastRow (segmentLog world.inserted segmentName ++ base) entityId =
      some record.request.rowData := by
    have found : (segmentLog world.inserted segmentName).find?
        (fun request => request.entityId = entityId) = some record.request := by
      rw [segmentLog, List.find?_map, List.find?_filter, Option.map_eq_some_iff]
      exact ⟨record, by simpa using newest, rfl⟩
    rw [lastRow, List.find?_append, found]
    rfl
  obtain ⟨address, found, row⟩ := (refined.behavesAsMap sound).present entityId _ rows
  exact ⟨_, address, present, congrArg Prod.fst found, row⟩

/-- A step of the process keeps a segment the record of its inserts. -/
theorem SegmentEffect.logged (effect : SegmentEffect deployment world after)
    (logged : LoggedSegment deployment start world segmentName) :
    LoggedSegment deployment start after segmentName := by
  obtain ⟨first, base, origin, sound, recorded⟩ := logged.over
  exact (effect.loggedOver sound recorded).segment origin sound

theorem LoggedSegment.congr (logged : LoggedSegment deployment start world segmentName)
    (shared : after.shared segmentName = world.shared segmentName)
    (inserted : after.inserted = world.inserted) :
    LoggedSegment deployment start after segmentName := by
  obtain ⟨first, base, origin, sound, recorded⟩ := logged.over
  exact (recorded.congr shared inserted).segment origin sound

theorem LoggedSegment.newest (logged : LoggedSegment deployment start world segmentName)
    {entityId : String} {record : InsertRecord}
    (newest : world.inserted.find? (fun record =>
      record.segment = segmentName ∧ record.request.entityId = entityId) = some record) :
    ∃ segment address, world.shared segmentName = some segment ∧
      (lookup deployment.externals.hashId segment.layout entityId).result segment.memory =
        .ok (some address) ∧
      segment.memory.read address segment.layout.rowSize = record.request.rowData := by
  obtain ⟨first, base, _, sound, recorded⟩ := logged.over
  exact recorded.newest sound newest

end Logged

/-- What one step of the process does to the handles of its consumer. -/
inductive HandleEffect (deployment : Deployment) (world after : World) : Prop where
  | absent (none : after.run = none)
  | kept {run next : Run} (live : world.run = some run) (now : after.run = some next)
      (schemas : next.consumer.schemas = run.consumer.schemas)
      (segments : next.consumer.segments = run.consumer.segments)
      (buffers : ∀ name, (next.consumer.rowBuffers name).length =
        (run.consumer.rowBuffers name).length)
  | fresh {next : Run} (now : after.run = some next)
      (consumer : next.consumer = freshConsumer deployment world.current)
      (opened : ∀ entry ∈ deployment.schemas, ∃ segmentName,
        openCurrent deployment.externals world.current world.shared entry.1 entry.2 =
          .reopened segmentName)
  | reopened {run next : Run} (live : world.run = some run) (now : after.run = some next)
      (consumer : next.consumer = reopenSegments deployment.externals world.current world.shared
        deployment.schemas run.consumer)

section Handles

variable {deployment : Deployment} {world after : World}

theorem LifecycleStep.handleEffect (step : LifecycleStep deployment world after) :
    HandleEffect deployment world after := by
  cases step with
  | start none opened => exact .fresh rfl rfl opened
  | rerun live ended => exact .kept live rfl rfl rfl fun _ => rfl
  | exit live ended => exact .absent rfl
  | crash => exact .absent rfl
  | crashInInsert live applying count early => exact .absent rfl
  | crashInFlush live outcome count => exact .absent rfl
  | requestStop live => exact .kept live rfl rfl rfl fun _ => rfl

theorem ReaderStep.handleEffect (step : ReaderStep deployment world after) :
    HandleEffect deployment world after := by
  cases step with
  | @applyReturns run origin msgId fields rest applied outcome consumer shared live phase returned =>
      have frame := @apply_frame deployment.externals run.consumer world.shared msgId fields
      have buffers := apply_buffers deployment.externals run.consumer world.shared msgId fields
      rw [returned] at frame buffers
      exact .kept live rfl frame.schemas frame.segments buffers
  | @applyRaises run origin msgId fields rest applied exception consumer shared live phase raised =>
      have frame := @apply_frame deployment.externals run.consumer world.shared msgId fields
      have buffers := apply_buffers deployment.externals run.consumer world.shared msgId fields
      rw [raised] at frame buffers
      exact .kept live rfl frame.schemas frame.segments buffers
  | resume live phase clear => exact .reopened live rfl rfl
  | parkedRefresh live phase => exact .kept live live rfl rfl fun _ => rfl
  | _ => refine .kept (by assumption) rfl ?_ ?_ (fun _ => ?_) <;> rfl

theorem CleanupStep.handleEffect (step : CleanupStep deployment world after) :
    HandleEffect deployment world after := by
  cases step <;> refine .kept (by assumption) rfl ?_ ?_ (fun _ => ?_) <;> rfl

theorem FlusherStep.handleEffect (step : FlusherStep deployment world after) :
    HandleEffect deployment world after := by
  cases step <;> refine .kept (by assumption) rfl ?_ ?_ (fun _ => ?_) <;> rfl

theorem ConsumerStep.handleEffect (step : ConsumerStep deployment world after) :
    HandleEffect deployment world after := by
  cases step with
  | lifecycle step => exact step.handleEffect
  | reader step => exact step.handleEffect
  | cleanup step => exact step.handleEffect
  | flusher step => exact step.handleEffect

/-- No step of the process moves a current name. -/
theorem ConsumerStep.current (step : ConsumerStep deployment world after) :
    after.current = world.current := by
  rcases step with step | step | step | step <;> cases step <;> rfl

end Handles

end Quorin
