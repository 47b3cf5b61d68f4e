import Quorin.Proof.Consumer.DrainGates
import Quorin.Proof.Consumer.DurableRuns

namespace Quorin

/-- The flush task exists and has not ended. -/
def FlusherPhase.alive : FlusherPhase → Bool
  | .waiting => true
  | .renewing => true
  | .acking _ => true
  | _ => false

/-- The read task is in the loop of `run`, behind the creation of the flush task. -/
def ReaderPhase.inLoop (phase : ReaderPhase) : Prop :=
  phase.gate = .looping ∨ phase = .reading

/-- The XACK that the flush task awaits raises. -/
def FlushAckRaises (before after : World) : Prop :=
  ∃ run next snapshot, before.run = some run ∧ run.flusher = .acking snapshot ∧
    after.run = some next ∧ next.flusher = .failed

/-- A step in which no XACK of the flush task raises. -/
def FlushingStep (deployment : Deployment) (before after : World) : Prop :=
  WorldStep deployment before after ∧ ¬ FlushAckRaises before after

/-- The flush task of a run that is in its loop has ended only behind a stop request. -/
def Flushing (run : Run) : Prop :=
  run.reader.inLoop →
    run.flusher.alive = true ∨ run.flusher = .finished ∧ run.consumer.stopEvent = true

section Steps

variable {deployment : Deployment} {world after : World}

/-- A step that leaves the flush task and a stop request as they are. -/
theorem Flushing.same {run next : Run} (flushing : Flushing run)
    (entered : next.reader.inLoop → run.reader.inLoop) (flusher : next.flusher = run.flusher)
    (stopped : run.consumer.stopEvent = true → next.consumer.stopEvent = true) : Flushing next := by
  intro inLoop
  rw [flusher]
  exact (flushing (entered inLoop)).imp_right fun ended => ⟨ended.1, stopped ended.2⟩

theorem flushing_of_outside {run : Run} (outside : ¬ run.reader.inLoop) : Flushing run :=
  fun inLoop => absurd inLoop outside

theorem raised_outside (run : Run) : ¬ run.raised.reader.inLoop := by
  unfold Run.raised ReaderPhase.inLoop
  cases run.flusher <;> simp [ReaderPhase.gate]

/-- A batch of the read loop stays in the loop, and a batch of the drain in the drain. -/
theorem next_inLoop {origin : BatchOrigin} (entered : origin.next.inLoop) : origin = .loop := by
  cases origin with
  | drain lastId => rcases entered with gate | phase <;> simp_all [BatchOrigin.next, ReaderPhase.gate]
  | loop => rfl

theorem reopen_stopEvent (externals : Externals) (current : List UInt8 → Option String)
    (shared : SharedMemory) (schemas : List (List UInt8 × FeatureSchema)) (consumer : Consumer)
    (stopped : consumer.stopEvent = true) :
    (reopenSegments externals current shared schemas consumer).stopEvent = true := by
  induction schemas generalizing consumer with
  | nil => exact stopped
  | cons entry rest ih =>
      unfold reopenSegments
      split
      · split
        · exact ih consumer stopped
        · exact ih _ stopped
      · rfl
      · rfl

theorem ReaderStep.flushing (step : ReaderStep deployment world after)
    (flushing : ∀ run, world.run = some run → Flushing run) :
    ∀ run, after.run = some run → Flushing run := by
  have inside : ∀ {phase : ReaderPhase}, phase.gate = .looping → phase.inLoop := Or.inl
  cases step with
  | ensureGroup live phase =>
      exact World.forRun rfl (flushing_of_outside (by simp [ReaderPhase.inLoop, ReaderPhase.gate]))
  | drainStopped live phase stopped =>
      exact World.forRun rfl (flushing_of_outside (by simp [ReaderPhase.inLoop, ReaderPhase.gate]))
  | drainRead live phase running present counted batch =>
      exact World.forRun rfl (flushing_of_outside (by simp [ReaderPhase.inLoop, ReaderPhase.gate]))
  | drainEnd live phase running present counted empty =>
      exact World.forRun rfl (flushing_of_outside (by simp [ReaderPhase.inLoop, ReaderPhase.gate]))
  | announce live phase refreshed => exact World.forRun rfl fun _ => Or.inl rfl
  | leave live phase stopped =>
      exact World.forRun rfl (flushing_of_outside (by simp [ReaderPhase.inLoop, ReaderPhase.gate]))
  | read live phase running present counted =>
      exact World.forRun rfl ((flushing _ live).same (fun _ => Or.inr phase) rfl id)
  | checkClear live phase clear =>
      exact World.forRun rfl ((flushing _ live).same (fun _ => inside (by rw [phase]; rfl)) rfl id)
  | checkPaused live phase paused settled =>
      exact World.forRun rfl ((flushing _ live).same (fun _ => inside (by rw [phase]; rfl)) rfl id)
  | checkFlushed live phase paused unsettled outcome flushed =>
      exact World.forRun rfl ((flushing _ live).same (fun _ => inside (by rw [phase]; rfl)) rfl id)
  | checkNotFlushed live phase paused unsettled outcome failed =>
      exact World.forRun rfl ((flushing _ live).same (fun _ => inside (by rw [phase]; rfl)) rfl id)
  | pauseAcked live phase =>
      exact World.forRun rfl ((flushing _ live).same (fun _ => inside (by rw [phase]; rfl)) rfl id)
  | pauseAckLost live phase => exact World.forRun rfl (flushing_of_outside (raised_outside _))
  | parkedRefresh live phase => exact flushing
  | parkedStopped live phase stopped =>
      exact World.forRun rfl ((flushing _ live).same (fun _ => inside (by rw [phase]; rfl)) rfl id)
  | resume live phase clear =>
      exact World.forRun rfl ((flushing _ live).same (fun _ => inside (by rw [phase]; rfl)) rfl
        (reopen_stopEvent _ _ _ _ _))
  | refresh live phase refreshed =>
      exact World.forRun rfl ((flushing _ live).same (fun _ => inside (by rw [phase]; rfl)) rfl id)
  | @startBatch run origin batch live phase room =>
      refine World.forRun rfl ((flushing _ live).same ?_ rfl id)
      rw [phase]
      cases origin <;> simp [ReaderPhase.inLoop, ReaderPhase.gate]
  | @applyReturns run origin msgId fields rest applied outcome consumer shared live phase returned =>
      have frame := @apply_frame deployment.externals run.consumer world.shared msgId fields
      rw [returned] at frame
      refine World.forRun rfl ((flushing _ live).same ?_ rfl fun stopped =>
        frame.stopEvent.trans stopped)
      rw [phase]
      cases origin <;> simp [ReaderPhase.inLoop, ReaderPhase.gate]
  | applyRaises live phase raised => exact World.forRun rfl (flushing_of_outside (raised_outside _))
  | batchRefused live phase =>
      refine World.forRun rfl ((flushing _ live).same (fun entered => ?_) rfl id)
      rw [phase, next_inLoop entered]
      exact inside rfl
  | @batchApplied run origin applied live phase some =>
      refine World.forRun rfl ((flushing _ live).same ?_ rfl id)
      rw [phase]
      cases origin <;> simp [ReaderPhase.inLoop, ReaderPhase.gate]
  | keysSet live phase =>
      refine World.forRun rfl ((flushing _ live).same (fun entered => ?_) rfl id)
      rw [phase, next_inLoop entered]
      exact inside rfl
  | keysFailed live phase keys among =>
      exact World.forRun rfl (flushing_of_outside (raised_outside _))
  | raises live running => exact World.forRun rfl (flushing_of_outside (raised_outside _))

theorem FlusherStep.flushing (step : FlusherStep deployment world after)
    (unraised : ¬ FlushAckRaises world after) :
    ∀ run, after.run = some run → Flushing run := by
  cases step with
  | wake live turn phase running => exact World.forRun rfl fun _ => Or.inl rfl
  | stopped live turn phase stopped => exact World.forRun rfl fun _ => Or.inr ⟨rfl, stopped⟩
  | nothingPending live turn phase settled => exact World.forRun rfl fun _ => Or.inl rfl
  | flushed live turn phase unsettled outcome succeeded => exact World.forRun rfl fun _ => Or.inl rfl
  | notFlushed live turn phase unsettled outcome failed => exact World.forRun rfl fun _ => Or.inl rfl
  | acked live turn phase => exact World.forRun rfl fun _ => Or.inl rfl
  | ackLost live turn phase => exact absurd ⟨_, _, _, live, phase, rfl, rfl⟩ unraised
  | ackFailed live turn phase => exact absurd ⟨_, _, _, live, phase, rfl, rfl⟩ unraised

theorem CleanupStep.flushing (step : CleanupStep deployment world after) :
    ∀ run, after.run = some run → Flushing run := by
  cases step with
  | flusherAckLost live phase acking =>
      refine World.forRun rfl (flushing_of_outside ?_)
      simp [phase, ReaderPhase.inLoop, ReaderPhase.gate]
  | _ =>
      exact World.forRun rfl (flushing_of_outside (by simp [ReaderPhase.inLoop, ReaderPhase.gate]))

theorem LifecycleStep.flushing (step : LifecycleStep deployment world after)
    (flushing : ∀ run, world.run = some run → Flushing run) :
    ∀ run, after.run = some run → Flushing run := by
  cases step with
  | start none opened =>
      exact World.forRun rfl (flushing_of_outside (by simp [ReaderPhase.inLoop, ReaderPhase.gate]))
  | rerun live ended =>
      exact World.forRun rfl (flushing_of_outside (by simp [ReaderPhase.inLoop, ReaderPhase.gate]))
  | requestStop live => exact World.forRun rfl ((flushing _ live).same id rfl fun _ => rfl)
  | _ => exact fun run live => by cases live

theorem FlushingStep.flushing (step : FlushingStep deployment world after)
    (flushing : ∀ run, world.run = some run → Flushing run) :
    ∀ run, after.run = some run → Flushing run := by
  obtain ⟨step, unraised⟩ := step
  cases step with
  | environment step => cases step <;> exact flushing
  | consumer step =>
      cases step with
      | lifecycle step => exact step.flushing flushing
      | reader step => exact step.flushing flushing
      | cleanup step => exact step.flushing
      | flusher step => exact step.flushing unraised

/-- The flush task of every run whose acknowledgements do not raise is alive in the loop. -/
theorem flushing_run {start : World} (initial : start.Initial deployment)
    (steps : Relation.ReflTransGen (FlushingStep deployment) start world) :
    ∀ run, world.run = some run → Flushing run := by
  induction steps with
  | refl =>
      rw [initial.run]
      exact fun run live => by cases live
  | tail _ step ih => exact step.flushing ih

theorem FlusherStep.alive (step : FlusherStep deployment world after) :
    ∃ run, world.run = some run ∧ run.flusher.alive = true := by
  cases step with
  | wake live turn phase running => exact ⟨_, live, by rw [phase]; rfl⟩
  | stopped live turn phase stopped => exact ⟨_, live, by rw [phase]; rfl⟩
  | nothingPending live turn phase settled => exact ⟨_, live, by rw [phase]; rfl⟩
  | flushed live turn phase unsettled outcome succeeded => exact ⟨_, live, by rw [phase]; rfl⟩
  | notFlushed live turn phase unsettled outcome failed => exact ⟨_, live, by rw [phase]; rfl⟩
  | acked live turn phase => exact ⟨_, live, by rw [phase]; rfl⟩
  | ackLost live turn phase => exact ⟨_, live, by rw [phase]; rfl⟩
  | ackFailed live turn phase => exact ⟨_, live, by rw [phase]; rfl⟩

/-- Steps of the flush task alone lead to a run without pending ids. -/
def CanEmpty (deployment : Deployment) (world : World) : Prop :=
  ∃ after next, Relation.ReflTransGen (FlusherStep deployment) world after ∧
    after.run = some next ∧ next.consumer.pendingAck = []

theorem CanEmpty.head (step : FlusherStep deployment world after)
    (later : CanEmpty deployment after) : CanEmpty deployment world := by
  obtain ⟨final, next, steps, live, empty⟩ := later
  exact ⟨final, next, .head step steps, live, empty⟩

theorem canEmpty_of_renewing {run : Run} {outcome : BucketKey → WriteOutcome}
    (live : world.run = some run) (turn : run.reader.running = true) (phase : run.flusher = .renewing)
    (succeeded : (run.consumer.flush deployment outcome).1 = true) : CanEmpty deployment world := by
  by_cases settled : run.consumer.pendingAck = []
  · exact ⟨world, run, .refl, live, settled⟩
  · have flushed := Relation.ReflTransGen.single
      (FlusherStep.flushed live turn phase settled outcome succeeded)
    refine ⟨_, _, flushed.tail (.acked rfl turn rfl), rfl, ?_⟩
    simp [Consumer.trim, Run.flushed, Consumer.flush]

theorem canEmpty_of_waiting {run : Run} {outcome : BucketKey → WriteOutcome}
    (live : world.run = some run) (turn : run.reader.running = true) (phase : run.flusher = .waiting)
    (running : run.consumer.stopEvent = false)
    (succeeded : (run.consumer.flush deployment outcome).1 = true) : CanEmpty deployment world :=
  .head (.wake live turn phase running) (canEmpty_of_renewing rfl turn rfl succeeded)

/-- A flush task that is alive empties the pending ids as soon as a flush and its XACK succeed. -/
theorem canEmpty_of_alive {run : Run} {outcome : BucketKey → WriteOutcome}
    (live : world.run = some run) (turn : run.reader.running = true)
    (alive : run.flusher.alive = true) (running : run.consumer.stopEvent = false)
    (succeeded : (run.consumer.flush deployment outcome).1 = true) : CanEmpty deployment world := by
  cases phase : run.flusher with
  | waiting => exact canEmpty_of_waiting live turn phase running succeeded
  | renewing => exact canEmpty_of_renewing live turn phase succeeded
  | acking snapshot =>
      exact .head (.acked live turn phase) (canEmpty_of_waiting rfl turn rfl running succeeded)
  | absent =>
      rw [phase] at alive
      cases alive
  | failed =>
      rw [phase] at alive
      cases alive
  | finished =>
      rw [phase] at alive
      cases alive

/-- The flush task of a running loop is alive when none of its acknowledgements raised. -/
theorem flusher_outlives {start : World} {run : Run} (initial : start.Initial deployment)
    (steps : Relation.ReflTransGen (FlushingStep deployment) start world)
    (live : world.run = some run) (inLoop : run.reader.inLoop)
    (running : run.consumer.stopEvent = false) :
    run.flusher.alive = true ∧
      (run.reader.running = true → ∀ outcome, (run.consumer.flush deployment outcome).1 = true →
        CanEmpty deployment world) := by
  have alive : run.flusher.alive = true := by
    rcases flushing_run initial steps run live inLoop with alive | ⟨_, stopped⟩
    · exact alive
    · rw [running] at stopped
      cases stopped
  exact ⟨alive, fun turn outcome succeeded => canEmpty_of_alive live turn alive running succeeded⟩

end Steps

/-- A calm step does not fail the flush task. -/
theorem CalmStep.flushing {deployment : Deployment} {before after : World}
    (step : CalmStep deployment before after) : FlushingStep deployment before after := by
  refine ⟨step.plain.1, ?_⟩
  rintro ⟨run, next, snapshot, live, acking, now, failed⟩
  have already := step.unfailed run next live now failed
  rw [acking] at already
  cases already

/-- A step of a process whose flush task awaits no XACK. -/
theorem flushingStep_of_idle {deployment : Deployment} {before after : World} {run : Run}
    (step : WorldStep deployment before after) (live : before.run = some run)
    (idle : ∀ snapshot, run.flusher ≠ .acking snapshot) : FlushingStep deployment before after := by
  refine ⟨step, ?_⟩
  rintro ⟨other, next, snapshot, same, acking, _⟩
  obtain rfl := Option.some.inj (live.symm.trans same)
  exact idle snapshot acking

/-- Behind a flush that failed the flush task is alive and can still empty the pending ids. -/
theorem flusher_outlives_sample : ∃ (before world : World) (run : Run),
    Relation.ReflTransGen (FlushingStep sampleDeployment) sampleWorld before ∧
    before.run = some run ∧ run.consumer.pendingAck = [MsgId.of 1 0] ∧
    (run.consumer.flush sampleDeployment fun _ => .raisedBefore).1 = false ∧
    FlushingStep sampleDeployment before world ∧
    world.run = some { run.flushed sampleDeployment (fun _ => .raisedBefore) with flusher := .waiting } ∧
    CanEmpty sampleDeployment world := by
  obtain ⟨after, written, rowData, applied, _, offline, steps⟩ :=
    @sampleConsumed_steps 1 (by decide) (by decide) 0x3ff0000000000000 [0, 0, 0x80, 0x3f] (by decide)
      rfl 0 [48] (by decide) (by decide)
  have convertible : after.offline.Convertible sampleExternals := by
    rw [offline]
    exact sample_convertible (OfflineStore.empty_sound sampleExternals true) sampleEmpty_convertible
      rfl rfl rfl
  have durable := durable_of_steps sampleWorld_initial.durable
    (Relation.ReflTransGen.mono (fun _ _ step => step.plain.1) _ _ steps)
  obtain ⟨_, _, _, key, row, _, ⟨file, impossible, _⟩ | buffered⟩ :=
    (durable.run _ rfl).pending (MsgId.of 1 0) List.mem_cons_self
  · cases impossible
  have fails : (after.offline.flush sampleExternals fun _ => .raisedBefore).1 = false :=
    flush_fails buffered
  have flushing := Relation.ReflTransGen.mono (fun _ _ step => CalmStep.flushing step) _ _ steps
  have woken := flushing.tail (flushingStep_of_idle (.consumer (.flusher (.wake rfl rfl rfl
    applied.stopEvent))) rfl (by simp))
  have notFlushed : WorldStep sampleDeployment _ _ :=
    .consumer (.flusher (@FlusherStep.notFlushed sampleDeployment
      ((sampleConsumed sampleFirst after written rowData).withRun ⟨{ after with
        pendingAck := [MsgId.of 1 0] }, .reading, .renewing, [MsgId.of 1 0], [MsgId.of 1 0]⟩) _ rfl rfl
      rfl (by simp) (fun _ => .raisedBefore) fails))
  have failed := flushingStep_of_idle notFlushed rfl (by simp)
  have outlives := flusher_outlives sampleWorld_initial (woken.tail failed) rfl (Or.inr rfl)
    applied.stopEvent
  exact ⟨_, _, _, woken, rfl, rfl, fails, failed, rfl, outlives.2 rfl (fun _ => .renamed)
    (flush_succeeds_iff.mpr (flush_convertible convertible _))⟩

/-- An XACK that raises ends the flush task under a running read loop with pending ids. -/
theorem flusher_dies : ∃ (world : World) (run : Run), Reachable sampleDeployment world ∧
    world.run = some run ∧ run.reader.inLoop ∧ run.consumer.stopEvent = false ∧
    run.flusher.alive = false ∧ ¬ CanEmpty sampleDeployment world := by
  obtain ⟨after, written, rowData, applied, _, convertible, steps⟩ := sampleFirst_consumed
  obtain ⟨start, initial, reached⟩ := reachable_of_plain sampleWorld_initial steps
  have woken := reached.tail (.consumer (.flusher (.wake rfl rfl rfl applied.stopEvent)))
  have flushed := woken.tail (.consumer (.flusher (@FlusherStep.flushed sampleDeployment _
    ⟨{ after with pendingAck := [sampleFirst.id] }, .reading, .renewing, _, _⟩ rfl rfl rfl (by simp)
    (fun _ => .renamed) (flush_succeeds_iff.mpr convertible))))
  have failed := flushed.tail (.consumer (.flusher (.ackFailed rfl rfl rfl)))
  refine ⟨_, _, ⟨start, initial, failed⟩, rfl, Or.inr rfl, applied.stopEvent, rfl, ?_⟩
  rintro ⟨final, next, path, now, empty⟩
  rcases Relation.ReflTransGen.cases_head path with rfl | ⟨middle, step, _⟩
  · obtain rfl := Option.some.inj now
    cases empty
  · obtain ⟨run, live, alive⟩ := step.alive
    obtain rfl := Option.some.inj live
    cases alive

end Quorin
