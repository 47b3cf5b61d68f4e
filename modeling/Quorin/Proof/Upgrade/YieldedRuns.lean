import Quorin.Proof.Consumer.HomeSegments

namespace Quorin

open ByteMemory

/-- The fields of an entry are a message of a schema. -/
def MessageOf (deployment : Deployment) (name : List UInt8) (fields : Option MessageFields) : Prop :=
  ∃ present message, fields = some present ∧
    decodeMessage deployment.externals deployment.schemas present = .ok (some message) ∧
    message.name = name

/-- The process is about to apply a message of the schema. -/
def Run.applies (deployment : Deployment) (name : List UInt8) (run : Run) : Prop :=
  ∃ origin msgId fields rest applied,
    run.reader = .applying origin ((msgId, fields) :: rest) applied ∧ MessageOf deployment name fields

/-- The read task reopens its segments or ends before it applies anything. -/
def ReaderPhase.detached : ReaderPhase → Bool
  | .parked _ => true
  | .pauseAcking _ _ => true
  | .stopping => true
  | .finalAcking _ => true
  | .closing => true
  | .ended => true
  | _ => false

/-- The process applies no message of the schema before it reopens its segments. -/
def Run.yielded (deployment : Deployment) (name : List UInt8) (run : Run) : Prop :=
  run.reader.detached = true ∨
    run.consumer.stopEvent = true ∧
      ∀ entry ∈ run.reader.batch, ¬ MessageOf deployment name entry.2

/-- A step of the process writes to one segment at most, which a message at hand names. -/
inductive WriteEffect (deployment : Deployment) (world after : World) : Prop where
  | none (shared : after.shared = world.shared) (inserted : after.inserted = world.inserted)
  | wrote {run : Run} {origin : BatchOrigin} {msgId : MsgId} {fields : Option MessageFields}
      {rest : Batch} {applied : List MsgId} {prepared : PreparedInsert} {target : String}
      {segment : Segment} (live : world.run = some run)
      (phase : run.reader = .applying origin ((msgId, fields) :: rest) applied)
      (call : InsertCall deployment run.consumer world.shared fields prepared target segment)
      (others : ∀ other, other ≠ target → after.shared other = world.shared other)
      (records : ∃ added, after.inserted = added ++ world.inserted ∧
        ∀ record ∈ added, record.segment = target)

/-- What a step of one `run` does to its yielding: it stays yielded until it opens segments again. -/
inductive YieldEffect (deployment : Deployment) (name : List UInt8) (world after : World) : Prop where
  | absent (none : after.run = none)
  | kept {run next : Run} (live : world.run = some run) (now : after.run = some next)
      (stays : run.yielded deployment name → next.yielded deployment name)
  | fresh {next : Run} (now : after.run = some next)
      (consumer : next.consumer = freshConsumer deployment world.current)
  | reopened {run next : Run} (live : world.run = some run) (now : after.run = some next)
      (consumer : next.consumer = reopenSegments deployment.externals world.current world.shared
        deployment.schemas run.consumer) (reader : next.reader = .reading)

section Writes

variable {deployment : Deployment} {world after : World}

/-- A message at hand belongs to the schema it was decoded under. -/
theorem InsertCall.messageOf {consumer : Consumer} {shared : SharedMemory}
    {fields : Option MessageFields} {prepared : PreparedInsert} {segmentName : String}
    {segment : Segment}
    (call : InsertCall deployment consumer shared fields prepared segmentName segment)
    (schemas : consumer.schemas = deployment.schemas) :
    MessageOf deployment prepared.message.name fields := by
  obtain ⟨present, same, ready⟩ := call.ready
  have decoded := (prepareInsert_some ready).1
  rw [schemas] at decoded
  exact ⟨present, prepared.message, same, decoded, rfl⟩

theorem LifecycleStep.writes (step : LifecycleStep deployment world after) :
    WriteEffect deployment world after := by
  cases step with
  | @crashInInsert run origin msgId fields rest applied live applying count early =>
      rcases ready : (prepareInsert deployment.externals run.consumer fields).1 with
        exception | none | prepared
      · exact .none (by simp [cutApply, ready]) rfl
      · exact .none (by simp [cutApply, ready]) rfl
      · rcases held : run.consumer.held world.shared prepared.message.name with
          none | ⟨target, segment⟩
        · exact .none (by simp [cutApply, ready, held]) rfl
        · refine .wrote live applying ⟨⟨fields, rfl, ready⟩, held⟩ ?_ ⟨[], rfl, by simp⟩
          intro other different
          simp [cutApply, ready, held, Function.update_of_ne different]
  | _ => exact .none rfl rfl

theorem ReaderStep.writes (step : ReaderStep deployment world after) :
    WriteEffect deployment world after := by
  cases step with
  | @applyReturns run origin msgId fields rest applied outcome consumer shared live phase returned =>
      rcases apply_effect deployment run.consumer world.shared msgId fields with
        ⟨same, nothing⟩ | ⟨prepared, target, segment, call, written, executed⟩
      · rw [returned] at same
        exact .none same (by rw [nothing]; rfl)
      · rw [returned] at written
        refine .wrote live phase call ?_ ⟨_, rfl, ?_⟩
        · intro other different
          change shared other = _
          rw [show shared = _ from written, Function.update_of_ne different]
        · intro record member
          rw [executed] at member
          have found := Option.mem_toList.mp member
          split at found
          · cases found
          · obtain rfl := Option.some.inj found
            rfl
  | applyRaises live phase raised => exact .none (apply_error raised) rfl
  | _ => exact .none rfl rfl

theorem ConsumerStep.writes (step : ConsumerStep deployment world after) :
    WriteEffect deployment world after := by
  cases step with
  | lifecycle step => exact step.writes
  | reader step => exact step.writes
  | cleanup step => cases step <;> exact .none rfl rfl
  | flusher step => cases step <;> exact .none rfl rfl

end Writes

section Reopening

variable {externals : Externals} {current : List UInt8 → Option String} {shared : SharedMemory}

theorem openCurrent_current {name : List UInt8} {schema : FeatureSchema} {segmentName : String}
    (opened : openCurrent externals current shared name schema = .reopened segmentName) :
    current name = some segmentName := by
  unfold openCurrent at opened
  split at opened
  · cases opened
  · split at opened
    · cases opened
    · split at opened
      · obtain rfl := ReopenResult.reopened.inj opened
        assumption
      · cases opened

/-- A handle behind the reopen loop is an old one or a current one. -/
theorem reopenSegments_handle (schemas : List (List UInt8 × FeatureSchema)) (consumer : Consumer)
    (name : List UInt8) :
    (reopenSegments externals current shared schemas consumer).segments name = consumer.segments name ∨
      name ∈ schemas.map Prod.fst ∧
        (reopenSegments externals current shared schemas consumer).segments name = current name := by
  induction schemas generalizing consumer with
  | nil => exact Or.inl rfl
  | cons entry rest ih =>
      obtain ⟨served, schema⟩ := entry
      have later : ∀ {middle : Consumer},
          (reopenSegments externals current shared rest middle).segments name = middle.segments name ∨
            name ∈ rest.map Prod.fst ∧
              (reopenSegments externals current shared rest middle).segments name = current name →
          (middle.segments name = consumer.segments name ∨
            name = served ∧ middle.segments name = current name) →
          (reopenSegments externals current shared rest middle).segments name =
              consumer.segments name ∨
            name ∈ ((served, schema) :: rest).map Prod.fst ∧
              (reopenSegments externals current shared rest middle).segments name = current name := by
        intro middle behind front
        rcases behind with same | ⟨member, moved⟩
        · rw [same]
          refine front.imp_right fun ⟨here, moved⟩ => ⟨?_, moved⟩
          rw [here]
          exact List.mem_cons_self
        · exact Or.inr ⟨List.mem_cons_of_mem _ member, moved⟩
      unfold reopenSegments
      split
      · rename_i segmentName opened
        split
        · exact later (ih consumer) (Or.inl rfl)
        · refine later (ih _) ?_
          by_cases here : name = served
          · subst here
            refine Or.inr ⟨rfl, ?_⟩
            dsimp only
            rw [Function.update_self, openCurrent_current opened]
          · exact Or.inl (Function.update_of_ne here _ _)
      · exact Or.inl rfl
      · exact Or.inl rfl

/-- The reopen loop brings every name to its current segment, or asks the process to stop. -/
theorem reopenSegments_follows (schemas : List (List UInt8 × FeatureSchema)) (consumer : Consumer) :
    (reopenSegments externals current shared schemas consumer).stopEvent = true ∨
      ∀ name, name ∈ schemas.map Prod.fst ∨ consumer.segments name = current name →
        (reopenSegments externals current shared schemas consumer).segments name = current name := by
  induction schemas generalizing consumer with
  | nil => exact Or.inr fun name place => place.elim (fun member => absurd member (by simp)) id
  | cons entry rest ih =>
      obtain ⟨served, schema⟩ := entry
      unfold reopenSegments
      split
      · rename_i segmentName opened
        have points := openCurrent_current opened
        split
        · rename_i held
          refine (ih consumer).imp_right fun follows name place => follows name ?_
          rcases place with member | same
          · rcases List.mem_cons.mp member with here | later
            · exact Or.inr (by rw [here, held, points])
            · exact Or.inl later
          · exact Or.inr same
        · refine (ih _).imp_right fun follows name place => follows name ?_
          by_cases here : name = served
          · subst here
            refine Or.inr ?_
            dsimp only
            rw [Function.update_self, points]
          · rcases place with member | same
            · exact Or.inl ((List.mem_cons.mp member).resolve_left here)
            · exact Or.inr ((Function.update_of_ne here _ _).trans same)
      · exact Or.inl rfl
      · exact Or.inl rfl

end Reopening

section Yielding

variable {deployment : Deployment} {world after : World} {name : List UInt8} {run next : Run}

theorem raised_detached (run : Run) : run.raised.reader.detached = true := by
  unfold Run.raised
  cases run.flusher <;> rfl

/-- A process that is asked to stop takes no further messages. -/
theorem Run.yielded.turn {phase : ReaderPhase} (yielded : run.yielded deployment name)
    (before : run.reader = phase) (attached : phase.detached = false)
    (stopEvent : next.consumer.stopEvent = run.consumer.stopEvent)
    (batch : next.reader.batch ⊆ phase.batch) : next.yielded deployment name := by
  subst before
  rcases yielded with detached | ⟨stopped, others⟩
  · rw [attached] at detached
    cases detached
  · exact Or.inr ⟨stopEvent.trans stopped, fun entry member => others entry (batch member)⟩

theorem Run.yielded.stopped {phase : ReaderPhase} (yielded : run.yielded deployment name)
    (before : run.reader = phase) (attached : phase.detached = false) :
    run.consumer.stopEvent = true := by
  subst before
  rcases yielded with detached | ⟨stopped, _⟩
  · rw [attached] at detached
    cases detached
  · exact stopped

/-- A process that is not asked to stop does not read or drain once it has yielded. -/
theorem Run.yielded.refuses {phase : ReaderPhase} (yielded : run.yielded deployment name)
    (before : run.reader = phase) (attached : phase.detached = false)
    (running : run.consumer.stopEvent = false) : False := by
  have stopped := yielded.stopped before attached
  rw [running] at stopped
  cases stopped

theorem ReaderStep.yieldEffect (step : ReaderStep deployment world after) :
    YieldEffect deployment name world after := by
  cases step with
  | ensureGroup live phase =>
      exact .kept live rfl fun yielded => yielded.turn phase rfl rfl (List.Subset.refl _)
  | drainStopped live phase stopped =>
      exact .kept live rfl fun yielded => yielded.turn phase rfl rfl (List.Subset.refl _)
  | drainRead live phase running present counted batch =>
      exact .kept live rfl fun yielded => (yielded.refuses phase rfl running).elim
  | drainEnd live phase running present counted empty =>
      exact .kept live rfl fun yielded => (yielded.refuses phase rfl running).elim
  | announce live phase refreshed =>
      exact .kept live rfl fun yielded => yielded.turn phase rfl rfl (List.Subset.refl _)
  | leave live phase stopped => exact .kept live rfl fun _ => Or.inl rfl
  | read live phase running present counted =>
      exact .kept live rfl fun yielded => (yielded.refuses phase rfl running).elim
  | checkClear live phase clear =>
      exact .kept live rfl fun yielded => yielded.turn phase rfl rfl (List.Subset.refl _)
  | checkPaused live phase paused settled => exact .kept live rfl fun _ => Or.inl rfl
  | checkFlushed live phase paused unsettled outcome flushed =>
      exact .kept live rfl fun _ => Or.inl rfl
  | checkNotFlushed live phase paused unsettled outcome failed =>
      exact .kept live rfl fun _ => Or.inl rfl
  | pauseAcked live phase => exact .kept live rfl fun _ => Or.inl rfl
  | pauseAckLost live phase => exact .kept live rfl fun _ => Or.inl (raised_detached _)
  | parkedRefresh live phase => exact .kept live live id
  | parkedStopped live phase stopped =>
      exact .kept live rfl fun _ => Or.inr ⟨stopped, fun entry member => absurd member List.not_mem_nil⟩
  | resume live phase clear => exact .reopened live rfl rfl rfl
  | @refresh run batch live phase refreshed =>
      refine .kept live rfl fun yielded => yielded.turn phase rfl rfl ?_
      cases batch with
      | nil => exact List.Subset.refl _
      | cons entry rest => exact List.Subset.refl _
  | startBatch live phase room =>
      exact .kept live rfl fun yielded => yielded.turn phase rfl rfl (List.Subset.refl _)
  | @applyReturns run origin msgId fields rest applied outcome consumer shared live phase returned =>
      have frame := @apply_frame deployment.externals run.consumer world.shared msgId fields
      rw [returned] at frame
      exact .kept live rfl fun yielded =>
        yielded.turn phase rfl frame.stopEvent (List.subset_cons_self _ _)
  | applyRaises live phase raised => exact .kept live rfl fun _ => Or.inl (raised_detached _)
  | batchRefused live phase =>
      refine .kept live rfl fun yielded => yielded.turn phase rfl rfl ?_
      exact (next_batch _).symm ▸ List.nil_subset _
  | batchApplied live phase some =>
      exact .kept live rfl fun yielded => yielded.turn phase rfl rfl (List.Subset.refl _)
  | keysSet live phase =>
      refine .kept live rfl fun yielded => yielded.turn phase rfl rfl ?_
      exact (next_batch _).symm ▸ List.nil_subset _
  | keysFailed live phase keys among => exact .kept live rfl fun _ => Or.inl (raised_detached _)
  | raises live running => exact .kept live rfl fun _ => Or.inl (raised_detached _)

theorem CleanupStep.yieldEffect (step : CleanupStep deployment world after) :
    YieldEffect deployment name world after := by
  cases step with
  | flusherAckLost live phase acking =>
      exact .kept live rfl fun _ => Or.inl (by rw [phase]; rfl)
  | _ => exact .kept (by assumption) rfl fun _ => Or.inl rfl

theorem FlusherStep.yieldEffect (step : FlusherStep deployment world after) :
    YieldEffect deployment name world after := by
  cases step <;> refine .kept (by assumption) rfl fun yielded => ?_ <;> exact yielded

theorem LifecycleStep.yieldEffect (step : LifecycleStep deployment world after)
    (once : ∀ run, world.run = some run → run.reader = .ended →
      ∀ next, after.run = some next → next.reader = .ended) :
    YieldEffect deployment name world after := by
  cases step with
  | start none opened => exact .fresh rfl rfl
  | rerun live ended => cases once _ live ended _ rfl
  | requestStop live =>
      exact .kept live rfl fun yielded => yielded.imp_right fun stopped => ⟨rfl, stopped.2⟩
  | _ => exact .absent rfl

theorem ConsumerStep.yieldEffect (step : ConsumerStep deployment world after)
    (once : ∀ run, world.run = some run → run.reader = .ended →
      ∀ next, after.run = some next → next.reader = .ended) :
    YieldEffect deployment name world after := by
  cases step with
  | lifecycle step => exact step.yieldEffect once
  | reader step => exact step.yieldEffect
  | cleanup step => exact step.yieldEffect
  | flusher step => exact step.yieldEffect

end Yielding

end Quorin
