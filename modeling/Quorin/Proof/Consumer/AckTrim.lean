import Quorin.Proof.Consumer.DrainGates
import Quorin.Proof.Consumer.Progress

namespace Quorin

/-- The snapshot whose XACK the read task awaits. -/
def ReaderPhase.awaited : ReaderPhase → Option (List MsgId)
  | .pauseAcking _ snapshot => some snapshot
  | .finalAcking snapshot => some snapshot
  | _ => none

/-- The XACK of the pause path returns while the flush task awaits its own. -/
def PauseOvertakes (before after : World) : Prop :=
  ∃ run next batch snapshot other, before.run = some run ∧
    run.reader = .pauseAcking batch snapshot ∧ run.flusher = .acking other ∧
    after.run = some next ∧ next.reader = .parked batch

/-- A step in which the pause path does not trim under an outstanding snapshot. -/
def ApartStep (deployment : Deployment) (before after : World) : Prop :=
  WorldStep deployment before after ∧ ¬ PauseOvertakes before after

/-- Every id that leaves the pending ids was acknowledged. -/
def LeavesAcked (before after : World) : Prop :=
  ∀ run next, before.run = some run → after.run = some next →
    ∀ msgId ∈ run.consumer.pendingAck, msgId ∉ next.consumer.pendingAck → msgId ∈ after.acked

/-- What one step does to the pending ids and to the snapshots of them. -/
inductive TrimEffect (world after : World) : Prop where
  | absent (none : after.run = none)
  | grown {next : Run} (now : after.run = some next)
      (kept : ∀ run, world.run = some run →
        run.consumer.pendingAck <+: next.consumer.pendingAck)
      (flusher : ∀ snapshot, next.flusher = .acking snapshot →
        snapshot = next.consumer.pendingAck ∨
          ∃ run, world.run = some run ∧ run.flusher = .acking snapshot)
      (reader : ∀ snapshot, next.reader.awaited = some snapshot →
        snapshot = next.consumer.pendingAck ∨ ∃ run, world.run = some run ∧
          run.reader = next.reader ∧ next.consumer.pendingAck = run.consumer.pendingAck)
      (final : ∀ snapshot, next.reader = .finalAcking snapshot → next.flusher = .finished ∨
        ∃ run, world.run = some run ∧ run.reader = next.reader ∧ run.flusher = next.flusher)
  | flusherTrimmed {run next : Run} {snapshot : List MsgId} (live : world.run = some run)
      (now : after.run = some next) (phase : run.flusher = .acking snapshot)
      (reader : next.reader = run.reader) (turn : run.reader.running = true)
      (flusher : next.flusher = .waiting)
      (trimmed : next.consumer.pendingAck = run.consumer.pendingAck.drop snapshot.length)
      (acked : snapshot ⊆ after.acked)
  | readerTrimmed {run next : Run} {snapshot : List MsgId} (live : world.run = some run)
      (now : after.run = some next)
      (phase : run.reader = .finalAcking snapshot ∨
        ∃ batch, run.reader = .pauseAcking batch snapshot ∧ next.reader = .parked batch)
      (reader : next.reader.awaited = none) (flusher : next.flusher = run.flusher)
      (trimmed : next.consumer.pendingAck = run.consumer.pendingAck.drop snapshot.length)
      (acked : snapshot ⊆ after.acked)

section Effects

variable {deployment : Deployment} {world after : World}

/-- A step that takes no snapshot and keeps the pending ids. -/
theorem TrimEffect.quiet {run next : Run} (live : world.run = some run) (now : after.run = some next)
    (kept : run.consumer.pendingAck <+: next.consumer.pendingAck)
    (flusher : ∀ snapshot, next.flusher = .acking snapshot → run.flusher = .acking snapshot)
    (reader : next.reader.awaited = none) : TrimEffect world after := by
  refine .grown now ?_ ?_ ?_ ?_
  · intro other same
    obtain rfl := Option.some.inj (live.symm.trans same)
    exact kept
  · exact fun snapshot acking => Or.inr ⟨run, live, flusher snapshot acking⟩
  · intro snapshot awaits
    rw [reader] at awaits
    cases awaits
  · intro snapshot final
    rw [final] at reader
    cases reader

theorem raised_awaited (run : Run) : run.raised.reader.awaited = none := by
  unfold Run.raised
  cases run.flusher <;> rfl

theorem next_awaited (origin : BatchOrigin) : origin.next.awaited = none := by
  cases origin <;> rfl

theorem reopen_pendingAck (externals : Externals) (current : List UInt8 → Option String)
    (shared : SharedMemory) (schemas : List (List UInt8 × FeatureSchema)) (consumer : Consumer) :
    (reopenSegments externals current shared schemas consumer).pendingAck = consumer.pendingAck := by
  induction schemas generalizing consumer with
  | nil => rfl
  | cons entry rest ih =>
      unfold reopenSegments
      split
      · split
        · exact ih consumer
        · exact ih _
      · rfl
      · rfl

theorem ReaderStep.trimEffect (step : ReaderStep deployment world after) :
    TrimEffect world after := by
  cases step with
  | checkFlushed live phase paused unsettled outcome flushed =>
      refine .grown rfl ?_ ?_ ?_ ?_
      · intro other same
        obtain rfl := Option.some.inj (live.symm.trans same)
        exact List.prefix_refl _
      · exact fun snapshot acking => Or.inr ⟨_, live, acking⟩
      · exact fun snapshot awaits => Or.inl (Option.some.inj awaits).symm
      · intro snapshot final
        cases final
  | pauseAcked live phase =>
      exact .readerTrimmed live rfl (Or.inr ⟨_, phase, rfl⟩) rfl rfl rfl (List.subset_append_right _ _)
  | pauseAckLost live phase =>
      exact .quiet live rfl (List.prefix_refl _) (fun _ acking => acking) (raised_awaited _)
  | parkedRefresh live phase =>
      exact .quiet live live (List.prefix_refl _) (fun _ acking => acking) (by rw [phase]; rfl)
  | resume live phase clear =>
      exact .quiet live rfl (reopen_pendingAck .. ▸ List.prefix_refl _) (fun _ acking => acking) rfl
  | @refresh run batch live phase refreshed =>
      refine .quiet live rfl (List.prefix_refl _) (fun _ acking => acking) ?_
      cases batch <;> rfl
  | @applyReturns run origin msgId fields rest applied outcome consumer shared live phase returned =>
      have frame := @apply_frame deployment.externals run.consumer world.shared msgId fields
      rw [returned] at frame
      exact .quiet live rfl (frame.pendingAck ▸ List.prefix_refl _) (fun _ acking => acking) rfl
  | @applyRaises run origin msgId fields rest applied exception consumer shared live phase raised =>
      have frame := @apply_frame deployment.externals run.consumer world.shared msgId fields
      rw [raised] at frame
      exact .quiet live rfl (frame.pendingAck ▸ List.prefix_refl _) (fun _ acking => acking)
        (raised_awaited _)
  | batchRefused live phase =>
      exact .quiet live rfl (List.prefix_refl _) (fun _ acking => acking) (next_awaited _)
  | keysSet live phase =>
      exact .quiet live rfl (List.prefix_append _ _) (fun _ acking => acking) (next_awaited _)
  | keysFailed live phase keys among =>
      exact .quiet live rfl (List.prefix_refl _) (fun _ acking => acking) (raised_awaited _)
  | raises live running =>
      exact .quiet live rfl (List.prefix_refl _) (fun _ acking => acking) (raised_awaited _)
  | announce live phase refreshed =>
      exact .quiet live rfl (List.prefix_refl _) (fun _ acking => by cases acking) rfl
  | _ =>
      refine .quiet (by assumption) rfl ?_ ?_ ?_
      · exact List.prefix_refl _
      · exact fun _ acking => acking
      · rfl

/-- A step of the flush task that leaves the read task where it is. -/
theorem TrimEffect.flushing {run next : Run} (live : world.run = some run)
    (now : after.run = some next) (reader : next.reader = run.reader)
    (turn : run.reader.running = true)
    (kept : next.consumer.pendingAck = run.consumer.pendingAck)
    (flusher : ∀ snapshot, next.flusher = .acking snapshot →
      snapshot = next.consumer.pendingAck) : TrimEffect world after := by
  refine .grown now ?_ (fun snapshot acking => Or.inl (flusher snapshot acking)) ?_ ?_
  · intro other same
    obtain rfl := Option.some.inj (live.symm.trans same)
    rw [kept]
  · exact fun snapshot _ => Or.inr ⟨run, live, reader.symm, kept⟩
  · intro snapshot final
    rw [← reader, final] at turn
    cases turn

theorem FlusherStep.trimEffect (step : FlusherStep deployment world after) :
    TrimEffect world after := by
  cases step with
  | acked live turn phase =>
      exact .flusherTrimmed live rfl phase rfl turn rfl rfl (List.subset_append_right _ _)
  | flushed live turn phase unsettled outcome succeeded =>
      exact .flushing live rfl rfl turn rfl fun snapshot acking =>
        (FlusherPhase.acking.inj acking).symm
  | wake live turn phase running =>
      exact .flushing live rfl rfl turn rfl fun snapshot acking => by cases acking
  | stopped live turn phase stopped =>
      exact .flushing live rfl rfl turn rfl fun snapshot acking => by cases acking
  | nothingPending live turn phase settled =>
      exact .flushing live rfl rfl turn rfl fun snapshot acking => by cases acking
  | notFlushed live turn phase unsettled outcome failed =>
      exact .flushing live rfl rfl turn rfl fun snapshot acking => by cases acking
  | ackLost live turn phase =>
      exact .flushing live rfl rfl turn rfl fun snapshot acking => by cases acking
  | ackFailed live turn phase =>
      exact .flushing live rfl rfl turn rfl fun snapshot acking => by cases acking

theorem CleanupStep.trimEffect (step : CleanupStep deployment world after) :
    TrimEffect world after := by
  cases step with
  | flushed live phase alive unsettled outcome succeeded =>
      refine .grown rfl ?_ ?_ ?_ ?_
      · intro other same
        obtain rfl := Option.some.inj (live.symm.trans same)
        exact List.prefix_refl _
      · exact fun snapshot acking => by cases acking
      · exact fun snapshot awaits => Or.inl (Option.some.inj awaits).symm
      · exact fun _ _ => Or.inl rfl
  | acked live phase =>
      exact .readerTrimmed live rfl (Or.inl phase) rfl rfl rfl (List.subset_append_right _ _)
  | flusherAckLost live phase acking =>
      exact .quiet live rfl (List.prefix_refl _) (fun _ acking => by cases acking) (by rw [phase]; rfl)
  | flusherFailed live phase failed =>
      exact .quiet live rfl (List.prefix_refl _) (fun _ acking => acking) rfl
  | ackLost live phase => exact .quiet live rfl (List.prefix_refl _) (fun _ acking => acking) rfl
  | ackFailed live phase => exact .quiet live rfl (List.prefix_refl _) (fun _ acking => acking) rfl
  | closed live phase outcome deleted =>
      exact .quiet live rfl (List.prefix_refl _) (fun _ acking => acking) rfl
  | _ =>
      refine .quiet (by assumption) rfl ?_ ?_ ?_
      · exact List.prefix_refl _
      · exact fun _ acking => by cases acking
      · rfl

theorem LifecycleStep.trimEffect (step : LifecycleStep deployment world after) :
    TrimEffect world after := by
  cases step with
  | start none opened =>
      refine .grown rfl ?_ ?_ ?_ ?_
      · intro run live
        rw [none] at live
        cases live
      · exact fun snapshot acking => by cases acking
      · exact fun snapshot awaits => by cases awaits
      · exact fun snapshot final => by cases final
  | rerun live ended =>
      exact .quiet live rfl (List.prefix_refl _) (fun _ acking => by cases acking) rfl
  | @requestStop run live =>
      refine .grown rfl ?_ ?_ ?_ ?_
      · intro other same
        obtain rfl := Option.some.inj (live.symm.trans same)
        exact List.prefix_refl _
      · exact fun snapshot acking => Or.inr ⟨run, live, acking⟩
      · exact fun snapshot _ => Or.inr ⟨run, live, rfl, rfl⟩
      · exact fun snapshot _ => Or.inr ⟨run, live, rfl, rfl⟩
  | _ => exact .absent rfl

theorem WorldStep.trimEffect (step : WorldStep deployment world after) : TrimEffect world after := by
  cases step with
  | environment step =>
      have run : after.run = world.run := by cases step <;> rfl
      cases live : world.run with
      | none => exact .absent (run.trans live)
      | some held =>
          refine .grown (run.trans live) ?_ ?_ ?_ ?_
          · intro other same
            obtain rfl := Option.some.inj (live.symm.trans same)
            exact List.prefix_refl _
          · exact fun snapshot acking => Or.inr ⟨held, live, acking⟩
          · exact fun snapshot _ => Or.inr ⟨held, live, rfl, rfl⟩
          · exact fun snapshot _ => Or.inr ⟨held, live, rfl, rfl⟩
  | consumer step =>
      cases step with
      | lifecycle step => exact step.trimEffect
      | reader step => exact step.trimEffect
      | cleanup step => exact step.trimEffect
      | flusher step => exact step.trimEffect

end Effects

/-- The flush task awaits an XACK of the oldest pending ids, and the read task of all of them. -/
structure Snapshots (run : Run) : Prop where
  flusher : ∀ snapshot, run.flusher = .acking snapshot → snapshot <+: run.consumer.pendingAck
  reader : ∀ snapshot, run.reader.awaited = some snapshot → run.consumer.pendingAck ⊆ snapshot
  final : ∀ snapshot, run.reader = .finalAcking snapshot → run.flusher = .finished

section Runs

variable {deployment : Deployment} {world after : World}

/-- A trim of the read task happens when the flush task has no snapshot. -/
theorem Snapshots.alone {run next : Run} {snapshot : List MsgId} (snapshots : Snapshots run)
    (live : world.run = some run) (now : after.run = some next)
    (phase : run.reader = .finalAcking snapshot ∨
      ∃ batch, run.reader = .pauseAcking batch snapshot ∧ next.reader = .parked batch)
    (apart : ¬ PauseOvertakes world after) (other : List MsgId) : run.flusher ≠ .acking other := by
  intro acking
  rcases phase with final | ⟨batch, pausing, parked⟩
  · rw [snapshots.final snapshot final] at acking
    cases acking
  · exact apart ⟨run, next, batch, snapshot, other, live, pausing, acking, now, parked⟩

theorem awaited_of_phase {run next : Run} {snapshot : List MsgId}
    (phase : run.reader = .finalAcking snapshot ∨
      ∃ batch, run.reader = .pauseAcking batch snapshot ∧ next.reader = .parked batch) :
    run.reader.awaited = some snapshot := by
  rcases phase with final | ⟨batch, pausing, _⟩
  · rw [final]
    rfl
  · rw [pausing]
    rfl

/-- Every step keeps the snapshots among the oldest pending ids. -/
theorem TrimEffect.snapshots (effect : TrimEffect world after) (apart : ¬ PauseOvertakes world after)
    (snapshots : ∀ run, world.run = some run → Snapshots run) :
    ∀ run, after.run = some run → Snapshots run := by
  cases effect with
  | absent none =>
      rw [none]
      exact fun run live => by cases live
  | @grown next now kept flusher reader final =>
      refine World.forRun now ⟨?_, ?_, ?_⟩
      · intro snapshot acking
        rcases flusher snapshot acking with whole | ⟨run, live, before⟩
        · rw [whole]
        · exact ((snapshots run live).flusher snapshot before).trans (kept run live)
      · intro snapshot awaits
        rcases reader snapshot awaits with whole | ⟨run, live, same, pendingAck⟩
        · rw [whole]
          exact List.Subset.refl _
        · rw [pendingAck]
          rw [← same] at awaits
          exact (snapshots run live).reader snapshot awaits
      · intro snapshot finishing
        rcases final snapshot finishing with finished | ⟨run, live, same, flusher⟩
        · exact finished
        · rw [← flusher]
          exact (snapshots run live).final snapshot (same.trans finishing)
  | @flusherTrimmed run next snapshot live now phase reader turn flusher trimmed acked =>
      refine World.forRun now ⟨?_, ?_, ?_⟩
      · intro other acking
        rw [flusher] at acking
        cases acking
      · intro other awaits
        rw [trimmed]
        rw [reader] at awaits
        exact List.Subset.trans (List.drop_subset _ _) ((snapshots run live).reader other awaits)
      · intro other finishing
        rw [← reader, finishing] at turn
        cases turn
  | @readerTrimmed run next snapshot live now phase reader flusher trimmed acked =>
      refine World.forRun now ⟨?_, ?_, ?_⟩
      · intro other acking
        rw [flusher] at acking
        exact absurd acking ((snapshots run live).alone live now phase apart other)
      · intro other awaits
        rw [reader] at awaits
        cases awaits
      · intro other finishing
        rw [finishing] at reader
        cases reader

/-- An id that a trim removes is among the ids of the trimmed prefix. -/
theorem mem_take_of_dropped {ids : List MsgId} {count : Nat} {msgId : MsgId} (member : msgId ∈ ids)
    (dropped : msgId ∉ ids.drop count) : msgId ∈ ids.take count := by
  rw [← List.take_append_drop count ids] at member
  exact (List.mem_append.mp member).resolve_right dropped

/-- Every id that a step takes from the pending ids was acknowledged. -/
theorem TrimEffect.leavesAcked (effect : TrimEffect world after)
    (snapshots : ∀ run, world.run = some run → Snapshots run) : LeavesAcked world after := by
  intro run next live now msgId pending left
  cases effect with
  | absent none =>
      rw [none] at now
      cases now
  | grown turned kept flusher reader final =>
      obtain rfl := Option.some.inj (turned.symm.trans now)
      exact absurd ((kept run live).subset pending) left
  | @flusherTrimmed before later snapshot present turned phase reader turn flusher trimmed acked =>
      obtain rfl := Option.some.inj (turned.symm.trans now)
      obtain rfl := Option.some.inj (present.symm.trans live)
      rw [trimmed] at left
      have taken := mem_take_of_dropped pending left
      obtain ⟨rest, shape⟩ := (snapshots before live).flusher snapshot phase
      rw [← shape, List.take_left] at taken
      exact acked taken
  | @readerTrimmed before later snapshot present turned phase reader flusher trimmed acked =>
      obtain rfl := Option.some.inj (present.symm.trans live)
      exact acked ((snapshots before live).reader snapshot (awaited_of_phase phase) pending)

/-- The snapshots stay among the oldest pending ids over a whole run. -/
theorem snapshots_run {start : World} (initial : start.Initial deployment)
    (steps : Relation.ReflTransGen (ApartStep deployment) start world) :
    ∀ run, world.run = some run → Snapshots run := by
  induction steps with
  | refl =>
      rw [initial.run]
      exact fun run live => by cases live
  | tail _ step ih => exact step.1.trimEffect.snapshots step.2 ih

/-- An id leaves the pending ids only behind an XACK that names it. -/
theorem pendingAck_leavesAcked {start : World} (initial : start.Initial deployment)
    (steps : Relation.ReflTransGen (ApartStep deployment) start world)
    (step : WorldStep deployment world after) : LeavesAcked world after :=
  step.trimEffect.leavesAcked (snapshots_run initial steps)

end Runs

/-- A plain world behind a step has no parked read task. -/
theorem apartStep_of_plain {deployment : Deployment} {before after : World}
    (step : WorldStep deployment before after) (plain : after.Plain) :
    ApartStep deployment before after := by
  refine ⟨step, ?_⟩
  rintro ⟨run, next, batch, snapshot, other, _, _, _, now, parked⟩
  exact (plain next now).2.1 batch parked

/-- A pause path beside an idle flush task trims under no outstanding snapshot. -/
theorem PauseStep.apart {deployment : Deployment} {idle : Prop} {before after : World}
    (step : PauseStep deployment idle before after) (holds : idle) :
    ApartStep deployment before after := by
  refine ⟨step.step, ?_⟩
  rintro ⟨run, next, batch, snapshot, other, live, pausing, acking, _⟩
  exact step.alone holds run batch snapshot live pausing other acking

/-- The second sample message leaves the pending ids behind a pause that trimmed the first one. -/
theorem pendingAck_leavesAcked_sample : ∃ before after run, before.run = some run ∧
    run.consumer.pendingAck = [MsgId.of 2 0] ∧ before.acked = [MsgId.of 1 0] ∧
    after.acked = [MsgId.of 1 0, MsgId.of 2 0] ∧ LeavesAcked before after := by
  obtain ⟨consumer, written, rowData, applied, _, convertible, steps⟩ := sampleFirst_consumed
  obtain ⟨trimmed, files, serving, running, sealable, paused⟩ :=
    @sampleTrimmed_steps consumer written rowData [] .waiting applied.serving applied.stopEvent
      convertible
  obtain ⟨later, rewritten, newRow, runningStill, sealableStill, resumed⟩ :=
    @sampleResumed_steps trimmed written rowData files .waiting serving running sealable
  have acking := (plain_of_calm resumed).trans (@flushAcking_steps sampleDeployment
    (sampleResumed later rewritten rowData newRow files .waiting) _ rfl rfl runningStill rfl (by simp)
    (fun _ => .renamed) (flush_succeeds_iff.mpr sealableStill))
  have apart {before after : World}
      (steps : Relation.ReflTransGen (PlainStep sampleDeployment) before after) (plain : after.Plain) :
      Relation.ReflTransGen (ApartStep sampleDeployment) before after :=
    Relation.ReflTransGen.mono (fun _ _ step => apartStep_of_plain step.1 step.2.2) _ _
      (plain_behind steps plain)
  have consumed := apart steps (plain_of_run rfl applied.stopEvent (by simp) (by simp))
  have awaits := apart acking (plain_of_run rfl runningStill (by simp [Run.flushed])
    (by simp [Run.flushed]))
  have idle := Relation.ReflTransGen.mono
    (fun _ _ step => PauseStep.apart step fun _ => FlusherPhase.noConfusion) _ _ paused
  exact ⟨_, _, _, rfl, rfl, rfl, rfl, pendingAck_leavesAcked sampleWorld_initial
    ((consumed.trans idle).trans awaits) (.consumer (.flusher (.acked rfl rfl rfl)))⟩

/-- The trim of an outstanding snapshot drops a message that was never acknowledged. -/
theorem pendingAck_dropped : ∃ before after, Reachable sampleDeployment before ∧
    WorldStep sampleDeployment before after ∧ ¬ LeavesAcked before after := by
  obtain ⟨consumer, written, rowData, applied, _, convertible, steps⟩ := sampleFirst_consumed
  have acking := @flushAcking_steps sampleDeployment (sampleConsumed sampleFirst consumer written
    rowData) _ rfl rfl applied.stopEvent rfl (by simp) (fun _ => .renamed)
    (flush_succeeds_iff.mpr convertible)
  let flushed : Consumer := { consumer with
    offline := (consumer.offline.flush sampleExternals fun _ => .renamed).2.1 }
  obtain ⟨trimmed, files, serving, running, sealable, paused⟩ :=
    @sampleTrimmed_steps flushed written rowData
      (consumer.offline.flush sampleExternals fun _ => .renamed).2.2 (.acking [MsgId.of 1 0])
      (applied.serving.flushed _) applied.stopEvent
      (flush_convertible convertible _)
  obtain ⟨later, rewritten, newRow, _, _, resumed⟩ :=
    @sampleResumed_steps trimmed written rowData files (.acking [MsgId.of 1 0]) serving running
      sealable
  have awaited := Relation.ReflTransGen.mono (fun _ _ step => And.left step) _ _ (steps.trans acking)
  have reached := (awaited.trans (Relation.ReflTransGen.mono (fun _ _ step => step.step) _ _
    paused)).trans (Relation.ReflTransGen.mono (fun _ _ step => step.plain.1) _ _ resumed)
  refine ⟨_, _, ⟨sampleWorld, sampleWorld_initial, reached⟩,
    .consumer (.flusher (.acked rfl rfl rfl)), ?_⟩
  intro leaves
  have acked := leaves _ _ rfl rfl (MsgId.of 2 0) List.mem_cons_self List.not_mem_nil
  exact absurd acked (show MsgId.of 2 0 ∉ [MsgId.of 1 0, MsgId.of 1 0] by decide)

end Quorin
