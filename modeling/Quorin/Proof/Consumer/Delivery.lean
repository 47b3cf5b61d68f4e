import Quorin.Proof.Consumer.Durability
import Quorin.Proof.Consumer.Progress

namespace Quorin

/-- The run has entered its cleanup or has ended. -/
def ReaderPhase.over : ReaderPhase → Bool
  | .stopping => true
  | .finalAcking _ => true
  | .closing => true
  | .ended => true
  | _ => false

/-- Every message that the loop received was passed to `_apply` or is still in the held batch. -/
def Run.Accounted (run : Run) : Prop :=
  run.reader.over = false → (run.reader = .reading → run.consumer.stopEvent = false) →
    ∀ msgId ∈ run.delivered, msgId ∈ run.passed ∨ msgId ∈ run.reader.batch.map Prod.fst

/-- One of the served schemas has no current segment that its class can open. -/
def ReopenFails (deployment : Deployment) (world : World) : Prop :=
  ∃ entry ∈ deployment.schemas, ∀ segmentName,
    openCurrent deployment.externals world.current world.shared entry.1 entry.2 ≠
      .reopened segmentName

/-- A pause that began with a non-empty batch ends only with the run. -/
def PauseSafe (deployment : Deployment) (world : World) : Prop :=
  ∀ run batch, world.run = some run → run.reader = .parked batch → batch ≠ [] →
    world.paused deployment = false →
    run.consumer.stopEvent = true ∨ ReopenFails deployment world

theorem reopenSegments_stop {externals : Externals} {current : List UInt8 → Option String}
    {shared : SharedMemory} {schemas : List (List UInt8 × FeatureSchema)} {consumer : Consumer}
    (stopped : consumer.stopEvent = true ∨ ∃ entry ∈ schemas, ∀ segmentName,
      openCurrent externals current shared entry.1 entry.2 ≠ .reopened segmentName) :
    (reopenSegments externals current shared schemas consumer).stopEvent = true := by
  induction schemas generalizing consumer with
  | nil =>
      rcases stopped with already | ⟨entry, member, _⟩
      · exact already
      · cases member
  | cons first rest ih =>
      obtain ⟨name, schema⟩ := first
      unfold reopenSegments
      cases opened : openCurrent externals current shared name schema with
      | schemaCRCMismatch => rfl
      | segmentNotFound => rfl
      | reopened segmentName =>
          have later : consumer.stopEvent = true ∨ ∃ entry ∈ rest, ∀ segmentName,
              openCurrent externals current shared entry.1 entry.2 ≠ .reopened segmentName := by
            rcases stopped with already | ⟨entry, member, refused⟩
            · exact Or.inl already
            · rcases List.mem_cons.mp member with rfl | behind
              · exact absurd opened (refused segmentName)
              · exact Or.inr ⟨entry, behind, refused⟩
          dsimp only
          split
          · exact ih later
          · exact ih later

section Rules

variable {run after : Run}

/-- A phase that keeps the batch and the passed ids keeps the account. -/
theorem Run.Accounted.turn (accounted : run.Accounted) (running : run.reader.over = false)
    (looping : run.reader = .reading → run.consumer.stopEvent = false)
    (delivered : after.delivered = run.delivered) (passed : after.passed = run.passed)
    (batch : ∀ entry ∈ run.reader.batch, entry ∈ after.reader.batch) : after.Accounted := by
  intro _ _ msgId member
  rw [delivered] at member
  rw [passed]
  rcases accounted running looping msgId member with before | held
  · exact Or.inl before
  · obtain ⟨entry, inside, same⟩ := List.mem_map.mp held
    exact Or.inr (List.mem_map.mpr ⟨entry, batch entry inside, same⟩)

theorem accounted_of_over (finished : after.reader.over = true) : after.Accounted := by
  intro running
  rw [finished] at running
  cases running

theorem raised_over (run : Run) : run.raised.reader.over = true := by
  unfold Run.raised
  cases run.flusher <;> rfl

/-- A step of the flush task keeps the account. -/
theorem Run.Accounted.same (accounted : run.Accounted) (reader : after.reader = run.reader)
    (stopEvent : after.consumer.stopEvent = run.consumer.stopEvent)
    (delivered : after.delivered = run.delivered) (passed : after.passed = run.passed) :
    after.Accounted := by
  unfold Run.Accounted at *
  rw [reader, stopEvent, delivered, passed]
  exact accounted

end Rules

/-- A property of the process is a property of the one process there is. -/
theorem World.forRun {world : World} {next : Run} {property : Run → Prop}
    (now : world.run = some next) (held : property next) :
    ∀ run, world.run = some run → property run := by
  intro run live
  rw [now] at live
  obtain rfl := Option.some.inj live
  exact held

section Steps

variable {deployment : Deployment} {world after : World}
  (before : ∀ run, world.run = some run → run.Accounted)

include before in
theorem EnvironmentStep.accounted (step : EnvironmentStep deployment world after) :
    ∀ run, after.run = some run → run.Accounted := by
  cases step <;> exact before

include before in
theorem LifecycleStep.accounted (step : LifecycleStep deployment world after) :
    ∀ run, after.run = some run → run.Accounted := by
  cases step with
  | start none opened =>
      refine World.forRun rfl ?_
      intro _ _ msgId member
      cases member
  | rerun live ended =>
      refine World.forRun rfl ?_
      intro _ _ msgId member
      cases member
  | exit live ended => simp
  | crash => simp
  | crashInInsert live applying count early => simp
  | crashInFlush live outcome count => simp
  | requestStop live =>
      have held := before _ live
      refine World.forRun rfl ?_
      intro running looping
      exact held running fun reading => absurd (looping reading) (by simp)

omit before in
theorem CleanupStep.accounted (step : CleanupStep deployment world after) :
    ∀ run, after.run = some run → run.Accounted := by
  cases step with
  | flusherFailed live phase failed => exact World.forRun rfl (accounted_of_over rfl)
  | flusherAckLost live phase acking =>
      refine World.forRun rfl ?_
      exact accounted_of_over (by rw [phase]; rfl)
  | nothingPending live phase alive settled => exact World.forRun rfl (accounted_of_over rfl)
  | flushed live phase alive unsettled outcome succeeded =>
      refine World.forRun rfl ?_
      exact accounted_of_over rfl
  | notFlushed live phase alive unsettled outcome failed =>
      refine World.forRun rfl ?_
      exact accounted_of_over rfl
  | acked live phase => exact World.forRun rfl (accounted_of_over rfl)
  | ackLost live phase => exact World.forRun rfl (accounted_of_over rfl)
  | ackFailed live phase => exact World.forRun rfl (accounted_of_over rfl)
  | closed live phase outcome deleted => exact World.forRun rfl (accounted_of_over rfl)
  | cancelled live cleaning => exact World.forRun rfl (accounted_of_over rfl)

include before in
theorem FlusherStep.accounted (step : FlusherStep deployment world after) :
    ∀ run, after.run = some run → run.Accounted := by
  cases step with
  | wake live turn phase running =>
      refine World.forRun rfl ?_
      exact (before _ live).same rfl rfl rfl rfl
  | stopped live turn phase stopped =>
      refine World.forRun rfl ?_
      exact (before _ live).same rfl rfl rfl rfl
  | nothingPending live turn phase settled =>
      refine World.forRun rfl ?_
      exact (before _ live).same rfl rfl rfl rfl
  | flushed live turn phase unsettled outcome succeeded =>
      refine World.forRun rfl ?_
      exact (before _ live).same rfl rfl rfl rfl
  | notFlushed live turn phase unsettled outcome failed =>
      refine World.forRun rfl ?_
      exact (before _ live).same rfl rfl rfl rfl
  | acked live turn phase =>
      refine World.forRun rfl ?_
      exact (before _ live).same rfl rfl rfl rfl
  | ackLost live turn phase =>
      refine World.forRun rfl ?_
      exact (before _ live).same rfl rfl rfl rfl
  | ackFailed live turn phase =>
      refine World.forRun rfl ?_
      exact (before _ live).same rfl rfl rfl rfl

include before in
/-- A step of the read task keeps the account, unless it leaves a pause and drops a batch. -/
theorem ReaderStep.accounted (step : ReaderStep deployment world after)
    (safe : PauseSafe deployment world) : ∀ run, after.run = some run → run.Accounted := by
  cases step with
  | ensureGroup live phase =>
      refine World.forRun rfl ?_
      exact (before _ live).turn (by rw [phase]; rfl) (by rw [phase]; simp) rfl rfl
        (by rw [phase]; simp [ReaderPhase.batch])
  | drainStopped live phase stopped =>
      refine World.forRun rfl ?_
      exact (before _ live).turn (by rw [phase]; rfl) (by rw [phase]; simp) rfl rfl
        (by rw [phase]; simp [ReaderPhase.batch])
  | drainRead live phase running present counted batch =>
      refine World.forRun rfl ?_
      exact (before _ live).turn (by rw [phase]; rfl) (by rw [phase]; simp) rfl rfl
        (by rw [phase]; simp [ReaderPhase.batch])
  | drainEnd live phase running present counted empty =>
      refine World.forRun rfl ?_
      exact (before _ live).turn (by rw [phase]; rfl) (by rw [phase]; simp) rfl rfl
        (by rw [phase]; simp [ReaderPhase.batch])
  | announce live phase refreshed =>
      refine World.forRun rfl ?_
      exact (before _ live).turn (by rw [phase]; rfl) (by rw [phase]; simp) rfl rfl
        (by rw [phase]; simp [ReaderPhase.batch])
  | leave live phase stopped =>
      refine World.forRun rfl ?_
      exact accounted_of_over rfl
  | read live phase running present counted =>
      refine World.forRun rfl ?_
      intro _ _ msgId member
      rcases List.mem_append.mp member with earlier | now
      · rcases before _ live (by rw [phase]; rfl) (fun _ => running) msgId earlier with done | held
        · exact Or.inl done
        · rw [phase] at held
          cases held
      · refine Or.inr ?_
        simpa [ReaderPhase.batch] using now
  | checkClear live phase clear =>
      refine World.forRun rfl ?_
      exact (before _ live).turn (by rw [phase]; rfl) (by rw [phase]; simp) rfl rfl
        (by rw [phase]; simp [ReaderPhase.batch])
  | checkPaused live phase paused settled =>
      refine World.forRun rfl ?_
      exact (before _ live).turn (by rw [phase]; rfl) (by rw [phase]; simp) rfl rfl
        (by rw [phase]; simp [ReaderPhase.batch])
  | checkFlushed live phase paused unsettled outcome flushed =>
      refine World.forRun rfl ?_
      exact (before _ live).turn (by rw [phase]; rfl) (by rw [phase]; simp) rfl rfl
        (by rw [phase]; simp [ReaderPhase.batch])
  | checkNotFlushed live phase paused unsettled outcome failed =>
      refine World.forRun rfl ?_
      exact (before _ live).turn (by rw [phase]; rfl) (by rw [phase]; simp) rfl rfl
        (by rw [phase]; simp [ReaderPhase.batch])
  | pauseAcked live phase =>
      refine World.forRun rfl ?_
      exact (before _ live).turn (by rw [phase]; rfl) (by rw [phase]; simp) rfl rfl
        (by rw [phase]; simp [ReaderPhase.batch])
  | pauseAckLost live phase =>
      refine World.forRun rfl ?_
      exact accounted_of_over (raised_over _)
  | parkedRefresh live phase => exact before
  | parkedStopped live phase stopped =>
      refine World.forRun rfl ?_
      intro _ looping
      have running := looping rfl
      rw [show _ = true from stopped] at running
      cases running
  | @resume old batch live phase clear =>
      refine World.forRun rfl ?_
      by_cases empty : batch = []
      · subst empty
        exact (before _ live).turn (by rw [phase]; rfl) (by rw [phase]; simp) rfl rfl
          (by rw [phase]; simp [ReaderPhase.batch])
      · intro _ looping
        have running := looping rfl
        have stopped := reopenSegments_stop (safe old batch live phase empty clear)
        rw [show _ = true from stopped] at running
        cases running
  | @refresh old batch live phase refreshed =>
      refine World.forRun rfl ?_
      refine (before _ live).turn (by rw [phase]; rfl) (by rw [phase]; simp) rfl rfl ?_
      cases batch <;> simp [phase, ReaderPhase.batch]
  | startBatch live phase room =>
      refine World.forRun rfl ?_
      exact (before _ live).turn (by rw [phase]; rfl) (by rw [phase]; simp) rfl rfl
        (by rw [phase]; simp [ReaderPhase.batch])
  | applyReturns live phase returned =>
      refine World.forRun rfl ?_
      intro _ _ other member
      rcases before _ live (by rw [phase]; rfl) (by rw [phase]; simp) other member with done | held
      · exact Or.inl (List.mem_append_left _ done)
      · rw [phase] at held
        rcases List.mem_cons.mp held with rfl | later
        · exact Or.inl (List.mem_append_right _ List.mem_cons_self)
        · exact Or.inr later
  | applyRaises live phase raised =>
      refine World.forRun rfl ?_
      exact accounted_of_over (raised_over _)
  | @batchRefused old origin live phase =>
      refine World.forRun rfl ?_
      exact (before _ live).turn (by rw [phase]; rfl) (by rw [phase]; simp) rfl rfl
        (by rw [phase]; simp [ReaderPhase.batch])
  | batchApplied live phase some =>
      refine World.forRun rfl ?_
      exact (before _ live).turn (by rw [phase]; rfl) (by rw [phase]; simp) rfl rfl
        (by rw [phase]; simp [ReaderPhase.batch])
  | keysSet live phase =>
      refine World.forRun rfl ?_
      exact (before _ live).turn (by rw [phase]; rfl) (by rw [phase]; simp) rfl rfl
        (by rw [phase]; simp [ReaderPhase.batch])
  | keysFailed live phase keys among =>
      refine World.forRun rfl ?_
      exact accounted_of_over (raised_over _)
  | raises live running =>
      refine World.forRun rfl ?_
      exact accounted_of_over (raised_over _)

end Steps

/-- The steps of a run in which no pause drops a batch. -/
def PauseSafeStep (deployment : Deployment) (before after : World) : Prop :=
  WorldStep deployment before after ∧ PauseSafe deployment before

theorem PauseSafeStep.accounted {deployment : Deployment} {world after : World}
    (step : PauseSafeStep deployment world after)
    (before : ∀ run, world.run = some run → run.Accounted) :
    ∀ run, after.run = some run → run.Accounted := by
  obtain ⟨step, safe⟩ := step
  cases step with
  | environment step => exact step.accounted before
  | consumer step =>
      cases step with
      | lifecycle step => exact step.accounted before
      | reader step => exact step.accounted before safe
      | cleanup step => exact step.accounted
      | flusher step => exact step.accounted before

theorem accounted_of_steps {deployment : Deployment} {start world : World}
    (initial : start.Initial deployment)
    (steps : Relation.ReflTransGen (PauseSafeStep deployment) start world) :
    ∀ run, world.run = some run → run.Accounted := by
  induction steps with
  | refl =>
      intro run live
      rw [initial.run] at live
      cases live
  | tail _ step ih => exact step.accounted ih

/-- In a run without dropped batches every delivered message is passed on before the next read. -/
theorem delivered_passed {deployment : Deployment} {start world : World}
    (initial : start.Initial deployment)
    (steps : Relation.ReflTransGen (PauseSafeStep deployment) start world)
    {run : Run} (live : world.run = some run) (phase : run.reader = .reading)
    (running : run.consumer.stopEvent = false) :
    ∀ msgId ∈ run.delivered, msgId ∈ run.passed := by
  intro msgId member
  rcases accounted_of_steps initial steps run live (by rw [phase]; rfl) (fun _ => running) msgId member
    with done | held
  · exact done
  · rw [phase] at held
    cases held

theorem World.Plain.pauseSafe {deployment : Deployment} {world : World} (plain : world.Plain) :
    PauseSafe deployment world := by
  intro run batch live parked
  exact absurd parked ((plain run live).2.1 batch)

/-- A process that parks with empty hands drops no batch. -/
theorem PauseStep.safe {deployment : Deployment} {idle : Prop} {before after : World}
    (step : PauseStep deployment idle before after) : PauseSafeStep deployment before after := by
  refine ⟨step.step, ?_⟩
  intro run batch live parked unfinished
  exact absurd (step.parked run batch live parked) unfinished

/-- Both sample messages, with a pause between them, are passed on before the next read. -/
theorem delivered_passed_sample : ∃ (world : World) (run : Run), world.run = some run ∧
    run.delivered = [MsgId.of 1 0, MsgId.of 2 0] ∧ ∀ msgId ∈ run.delivered, msgId ∈ run.passed := by
  obtain ⟨consumer, written, rowData, applied, _, convertible, steps⟩ := sampleFirst_consumed
  obtain ⟨trimmed, files, serving, running, sealable, paused⟩ :=
    @sampleTrimmed_steps consumer written rowData [] .waiting applied.serving applied.stopEvent
      convertible
  obtain ⟨later, rewritten, newRow, runningStill, _, resumed⟩ :=
    @sampleResumed_steps trimmed written rowData files .waiting serving running sealable
  have safe {before after : World}
      (steps : Relation.ReflTransGen (PlainStep sampleDeployment) before after) :
      Relation.ReflTransGen (PauseSafeStep sampleDeployment) before after :=
    Relation.ReflTransGen.mono (fun _ _ step => ⟨step.1, step.2.pauseSafe⟩) _ _ steps
  have pausing := Relation.ReflTransGen.mono (fun _ _ step => PauseStep.safe step) _ _ paused
  have behind := ((safe steps).trans pausing).trans (safe (plain_of_calm resumed))
  exact ⟨sampleResumed later rewritten rowData newRow files .waiting, _, rfl, rfl,
    delivered_passed sampleWorld_initial behind rfl rfl runningStill⟩

/-- A pause that begins before the check of a batch and is lifted again drops the batch. -/
theorem dropped_steps {deployment : Deployment} {world : World} {run : Run} {group : Group}
    (live : world.run = some run) (phase : run.reader = .reading)
    (running : run.consumer.stopEvent = false) (present : world.group = some group)
    (counted : 0 < deployment.batchCount) (settled : run.consumer.pendingAck = [])
    {name : List UInt8} (served : name ∈ deployment.schemas.map Prod.fst)
    (clear : ∀ other, other ≠ name → world.pauseKeys other = false) :
    Relation.ReflTransGen (WorldStep deployment) world
      { world with
        group := some (group.deliver (world.newBatch deployment group))
        pauseKeys := fun _ => false
        run := some { run with
          consumer := reopenSegments deployment.externals world.current world.shared
            deployment.schemas run.consumer
          reader := .reading
          delivered := run.delivered ++ (world.newBatch deployment group).map StreamEntry.id } } := by
  have lifted : Function.update (Function.update world.pauseKeys name true) name false =
      fun _ => false := by
    funext other
    by_cases same : other = name
    · rw [same, Function.update_self]
    · rw [Function.update_of_ne same, Function.update_of_ne same, clear other same]
  obtain ⟨entry, member, rfl⟩ := List.mem_map.mp served
  refine .head (.environment (.pause entry.1 true)) ?_
  refine .head (.consumer (.reader (.read live phase running present counted))) ?_
  refine .head (.consumer (.reader (.checkPaused rfl rfl ?_ settled))) ?_
  · exact List.any_eq_true.mpr ⟨entry, member, by simp⟩
  refine .head (.environment (.pause entry.1 false)) ?_
  refine .head (.consumer (.reader (.resume rfl rfl ?_))) ?_
  · simp [World.withRun, World.paused, lifted]
  rw [← lifted]
  exact .refl

/-- The sample process behind a pause that dropped its first message. -/
def sampleDropped : World :=
  { sampleOffered sampleFirst with
    group := some ⟨MsgId.of 1 0, [MsgId.of 1 0]⟩
    run := some ⟨freshConsumer sampleDeployment sampleWorld.current, .reading, .waiting,
      [MsgId.of 1 0], []⟩ }

theorem sampleDropped_steps :
    Relation.ReflTransGen (WorldStep sampleDeployment) sampleWorld sampleDropped := by
  have positive : MsgId.of 0 0 < sampleFirst.id := by decide
  have offered := Relation.ReflTransGen.mono (fun _ _ step => step.plain.1) _ _
    (sampleOffered_steps sampleFirst positive)
  have dropped := @dropped_steps sampleDeployment (sampleOffered sampleFirst) _ ⟨MsgId.of 0 0, []⟩
    rfl rfl rfl rfl (by decide) rfl (encodeUtf8 "Sample") (by decide) (fun _ _ => rfl)
  have batch : (sampleOffered sampleFirst).newBatch sampleDeployment ⟨MsgId.of 0 0, []⟩ =
      [sampleFirst] := by
    simp [World.newBatch, sampleOffered, sampleDeployment, positive]
  have opened : openCurrent sampleExternals sampleWorld.current (sampleOffered sampleFirst).shared
      (encodeUtf8 "Sample") sampleSchema = .reopened "segment" :=
    openCurrent_self rfl rfl rfl sample_table
  have kept : reopenSegments sampleDeployment.externals (sampleOffered sampleFirst).current
      (sampleOffered sampleFirst).shared sampleDeployment.schemas
      (freshConsumer sampleDeployment sampleWorld.current) =
      freshConsumer sampleDeployment sampleWorld.current := by
    change reopenSegments sampleExternals sampleWorld.current (sampleOffered sampleFirst).shared
      [(encodeUtf8 "Sample", sampleSchema)] _ = _
    simp only [reopenSegments, opened]
    rfl
  rw [batch] at dropped
  dsimp only at dropped
  rw [kept] at dropped
  exact offered.trans dropped

/-- A reachable process is about to read again while a message that it received was never passed on. -/
theorem delivered_skipped : ∃ (world : World) (run : Run), Reachable sampleDeployment world ∧
    world.run = some run ∧ run.reader = .reading ∧ run.consumer.stopEvent = false ∧
    MsgId.of 1 0 ∈ run.delivered ∧ MsgId.of 1 0 ∉ run.passed :=
  ⟨sampleDropped, _, ⟨sampleWorld, sampleWorld_initial, sampleDropped_steps⟩, rfl, rfl, rfl,
    List.mem_cons_self, List.not_mem_nil⟩

end Quorin
