import Quorin.Proof.Consumer.Delivery

namespace Quorin

/-- The parts of a run, between which the drain stands. -/
inductive ReaderGate where
  | draining
  | reading
  | looping
  | over

def ReaderPhase.gate : ReaderPhase → ReaderGate
  | .starting => .draining
  | .draining _ => .draining
  | .announcing => .reading
  | .reading => .reading
  | .checking _ => .looping
  | .pauseAcking _ _ => .looping
  | .parked _ => .looping
  | .refreshing _ => .looping
  | .batching (.drain _) _ => .draining
  | .batching .loop _ => .looping
  | .applying (.drain _) _ _ => .draining
  | .applying .loop _ _ => .looping
  | .setting (.drain _) _ => .draining
  | .setting .loop _ => .looping
  | .stopping => .over
  | .finalAcking _ => .over
  | .closing => .over
  | .ended => .over

/-- The flush task and the read loop run only behind a drain that ended or was stopped. -/
def Gated (drained : Bool) (run : Run) : Prop :=
  match run.reader.gate with
  | .draining => run.flusher = .absent ∧ drained = false
  | .reading => drained = true ∨ run.consumer.stopEvent = true
  | .looping => drained = true
  | .over => True

/-- The ids that are about to be acknowledged, now or later. -/
def Run.waiting (run : Run) : List MsgId :=
  run.consumer.pendingAck ++ run.reader.snapshot ++ run.flusher.snapshot

/-- A step that acknowledges only ids that were waiting for it. -/
structure Settling (world after : World) (run next : Run) : Prop where
  live : world.run = some run
  now : after.run = some next
  inserted : after.inserted = world.inserted
  drained : after.drained = world.drained
  waiting : next.waiting ⊆ run.waiting
  group : ∃ snapshot, snapshot ⊆ run.waiting ∧
    after.group = world.group.map fun group => group.ack snapshot

section Settling

variable {deployment : Deployment} {world after : World}

theorem group_ack_nil (group : Option Group) :
    (group.map fun group => group.ack []) = group := by
  cases group with
  | none => rfl
  | some held => simp [Group.ack]

/-- A step that acknowledges nothing. -/
theorem Settling.quiet {run next : Run} (live : world.run = some run) (now : after.run = some next)
    (inserted : after.inserted = world.inserted) (drained : after.drained = world.drained)
    (waiting : next.waiting ⊆ run.waiting) (group : after.group = world.group) :
    Settling world after run next :=
  ⟨live, now, inserted, drained, waiting, [], List.nil_subset _, by rw [group_ack_nil, group]⟩

theorem waiting_subset {run next : Run}
    (pendingAck : next.consumer.pendingAck ⊆ run.consumer.pendingAck)
    (reader : next.reader.snapshot ⊆ run.waiting) (flusher : next.flusher.snapshot ⊆ run.waiting) :
    next.waiting ⊆ run.waiting := by
  intro msgId member
  rcases List.mem_append.mp member with early | late
  · rcases List.mem_append.mp early with waits | snapshot
    · exact List.mem_append_left _ (List.mem_append_left _ (pendingAck waits))
    · exact reader snapshot
  · exact flusher late

theorem pendingAck_waiting (run : Run) : run.consumer.pendingAck ⊆ run.waiting :=
  fun _ member => List.mem_append_left _ (List.mem_append_left _ member)

theorem readerSnapshot_waiting (run : Run) : run.reader.snapshot ⊆ run.waiting :=
  fun _ member => List.mem_append_left _ (List.mem_append_right _ member)

theorem flusherSnapshot_waiting (run : Run) : run.flusher.snapshot ⊆ run.waiting :=
  fun _ member => List.mem_append_right _ member

theorem FlusherStep.settling (step : FlusherStep deployment world after) :
    ∃ run next, Settling world after run next ∧ run.flusher ≠ .absent ∧
      next.reader = run.reader ∧ next.consumer.stopEvent = run.consumer.stopEvent ∧
      run.reader.running = true := by
  cases step with
  | @wake run live turn phase running =>
      refine ⟨run, _, .quiet live rfl rfl rfl ?_ rfl, by rw [phase]; simp, rfl, rfl, turn⟩
      exact waiting_subset (List.Subset.refl _) (readerSnapshot_waiting run) (List.nil_subset _)
  | @stopped run live turn phase stopped =>
      refine ⟨run, _, .quiet live rfl rfl rfl ?_ rfl, by rw [phase]; simp, rfl, rfl, turn⟩
      exact waiting_subset (List.Subset.refl _) (readerSnapshot_waiting run) (List.nil_subset _)
  | @nothingPending run live turn phase settled =>
      refine ⟨run, _, .quiet live rfl rfl rfl ?_ rfl, by rw [phase]; simp, rfl, rfl, turn⟩
      exact waiting_subset (List.Subset.refl _) (readerSnapshot_waiting run) (List.nil_subset _)
  | @flushed run live turn phase unsettled outcome succeeded =>
      refine ⟨run, _, .quiet live rfl rfl rfl ?_ rfl, by rw [phase]; simp, rfl, rfl, turn⟩
      exact waiting_subset (List.Subset.refl _) (readerSnapshot_waiting run) (pendingAck_waiting run)
  | @notFlushed run live turn phase unsettled outcome failed =>
      refine ⟨run, _, .quiet live rfl rfl rfl ?_ rfl, by rw [phase]; simp, rfl, rfl, turn⟩
      exact waiting_subset (List.Subset.refl _) (readerSnapshot_waiting run) (List.nil_subset _)
  | @acked run snapshot live turn phase =>
      have held : snapshot ⊆ run.waiting := by
        have inside := flusherSnapshot_waiting run
        rwa [phase] at inside
      refine ⟨run, _, ⟨live, rfl, rfl, rfl, ?_, snapshot, held, rfl⟩, by rw [phase]; simp, rfl, rfl, turn⟩
      exact waiting_subset (List.drop_subset _ _) (readerSnapshot_waiting run) (List.nil_subset _)
  | @ackLost run snapshot live turn phase =>
      have held : snapshot ⊆ run.waiting := by
        have inside := flusherSnapshot_waiting run
        rwa [phase] at inside
      refine ⟨run, _, ⟨live, rfl, rfl, rfl, ?_, snapshot, held, rfl⟩, by rw [phase]; simp, rfl, rfl, turn⟩
      exact waiting_subset (List.Subset.refl _) (readerSnapshot_waiting run) (List.nil_subset _)
  | @ackFailed run snapshot live turn phase =>
      refine ⟨run, _, .quiet live rfl rfl rfl ?_ rfl, by rw [phase]; simp, rfl, rfl, turn⟩
      exact waiting_subset (List.Subset.refl _) (readerSnapshot_waiting run) (List.nil_subset _)

/-- A step of the cleanup acknowledges only ids that were waiting for it. -/
theorem CleanupStep.settling (step : CleanupStep deployment world after) :
    ∃ run next, Settling world after run next ∧ run.reader.cleaning = true := by
  cases step with
  | @flusherFailed run live phase failed =>
      refine ⟨run, _, .quiet live rfl rfl rfl ?_ rfl, by rw [phase]; rfl⟩
      exact waiting_subset (List.Subset.refl _) (List.nil_subset _) (flusherSnapshot_waiting run)
  | @flusherAckLost run snapshot live phase acking =>
      have held : snapshot ⊆ run.waiting := by
        have inside := flusherSnapshot_waiting run
        rwa [acking] at inside
      refine ⟨run, _, ⟨live, rfl, rfl, rfl, ?_, snapshot, held, rfl⟩, by rw [phase]; rfl⟩
      exact waiting_subset (List.Subset.refl _) (readerSnapshot_waiting run) (List.nil_subset _)
  | @nothingPending run live phase alive settled =>
      refine ⟨run, _, .quiet live rfl rfl rfl ?_ rfl, by rw [phase]; rfl⟩
      exact waiting_subset (List.Subset.refl _) (List.nil_subset _) (List.nil_subset _)
  | @flushed run live phase alive unsettled outcome succeeded =>
      refine ⟨run, _, .quiet live rfl rfl rfl ?_ rfl, by rw [phase]; rfl⟩
      exact waiting_subset (List.Subset.refl _) (pendingAck_waiting run) (List.nil_subset _)
  | @notFlushed run live phase alive unsettled outcome failed =>
      refine ⟨run, _, .quiet live rfl rfl rfl ?_ rfl, by rw [phase]; rfl⟩
      exact waiting_subset (List.Subset.refl _) (List.nil_subset _) (List.nil_subset _)
  | @acked run snapshot live phase =>
      have held : snapshot ⊆ run.waiting := by
        have inside := readerSnapshot_waiting run
        rwa [phase] at inside
      refine ⟨run, _, ⟨live, rfl, rfl, rfl, ?_, snapshot, held, rfl⟩, by rw [phase]; rfl⟩
      exact waiting_subset (List.drop_subset _ _) (List.nil_subset _) (flusherSnapshot_waiting run)
  | @ackLost run snapshot live phase =>
      have held : snapshot ⊆ run.waiting := by
        have inside := readerSnapshot_waiting run
        rwa [phase] at inside
      refine ⟨run, _, ⟨live, rfl, rfl, rfl, ?_, snapshot, held, rfl⟩, by rw [phase]; rfl⟩
      exact waiting_subset (List.Subset.refl _) (List.nil_subset _) (flusherSnapshot_waiting run)
  | @ackFailed run snapshot live phase =>
      refine ⟨run, _, .quiet live rfl rfl rfl ?_ rfl, by rw [phase]; rfl⟩
      exact waiting_subset (List.Subset.refl _) (List.nil_subset _) (flusherSnapshot_waiting run)
  | @closed run live phase outcome deleted =>
      refine ⟨run, _, .quiet live rfl rfl rfl ?_ rfl, by rw [phase]; rfl⟩
      exact waiting_subset (List.Subset.refl _) (List.nil_subset _) (flusherSnapshot_waiting run)
  | @cancelled run live cleaning =>
      refine ⟨run, _, .quiet live rfl rfl rfl ?_ rfl, cleaning⟩
      exact waiting_subset (List.Subset.refl _) (List.nil_subset _) (List.nil_subset _)

end Settling

section Gates

variable {deployment : Deployment} {world after : World}

theorem raised_gated (drained : Bool) (run : Run) : Gated drained run.raised := by
  unfold Gated Run.raised
  cases run.flusher <;> trivial

/-- A step that stays in its part of the run. -/
theorem Gated.same {drained : Bool} {run next : Run} (gated : Gated drained run)
    (gate : next.reader.gate = run.reader.gate) (flusher : next.flusher = run.flusher)
    (stopped : run.consumer.stopEvent = true → next.consumer.stopEvent = true) :
    Gated drained next := by
  unfold Gated at gated ⊢
  rw [gate, flusher]
  cases shape : run.reader.gate with
  | draining =>
      rw [shape] at gated
      exact gated
  | reading =>
      rw [shape] at gated
      exact gated.imp_right stopped
  | looping =>
      rw [shape] at gated
      exact gated
  | «over» => trivial

theorem ReaderStep.gated (step : ReaderStep deployment world after)
    (gated : ∀ run, world.run = some run → Gated world.drained run) :
    ∀ run, after.run = some run → Gated after.drained run := by
  cases step with
  | ensureGroup live phase =>
      exact World.forRun rfl ((gated _ live).same (by rw [phase]; rfl) rfl id)
  | drainStopped live phase stopped => exact World.forRun rfl (Or.inr stopped)
  | drainRead live phase running present counted batch =>
      exact World.forRun rfl ((gated _ live).same (by rw [phase]; rfl) rfl id)
  | drainEnd live phase running present counted empty => exact World.forRun rfl (Or.inl rfl)
  | announce live phase refreshed =>
      have before := gated _ live
      simp only [Gated, phase, ReaderPhase.gate] at before
      exact World.forRun rfl before
  | leave live phase stopped => exact World.forRun rfl trivial
  | read live phase running present counted =>
      have before := gated _ live
      simp only [Gated, phase, ReaderPhase.gate, running, Bool.false_eq_true, or_false] at before
      exact World.forRun rfl before
  | checkClear live phase clear =>
      exact World.forRun rfl ((gated _ live).same (by rw [phase]; rfl) rfl id)
  | checkPaused live phase paused settled =>
      exact World.forRun rfl ((gated _ live).same (by rw [phase]; rfl) rfl id)
  | checkFlushed live phase paused unsettled outcome flushed =>
      exact World.forRun rfl ((gated _ live).same (by rw [phase]; rfl) rfl id)
  | checkNotFlushed live phase paused unsettled outcome failed =>
      exact World.forRun rfl ((gated _ live).same (by rw [phase]; rfl) rfl id)
  | pauseAcked live phase =>
      exact World.forRun rfl ((gated _ live).same (by rw [phase]; rfl) rfl id)
  | pauseAckLost live phase => exact World.forRun rfl (raised_gated _ _)
  | parkedRefresh live phase => exact gated
  | parkedStopped live phase stopped => exact World.forRun rfl (Or.inr stopped)
  | resume live phase clear =>
      have before := gated _ live
      simp only [Gated, phase, ReaderPhase.gate] at before
      exact World.forRun rfl (Or.inl before)
  | @refresh run batch live phase refreshed =>
      have before := gated _ live
      simp only [Gated, phase, ReaderPhase.gate] at before
      cases batch with
      | nil => exact World.forRun rfl (Or.inl before)
      | cons entry rest => exact World.forRun rfl before
  | @startBatch run origin batch live phase room =>
      refine World.forRun rfl ((gated _ live).same ?_ rfl id)
      rw [phase]
      cases origin <;> rfl
  | @applyReturns run origin msgId fields rest applied outcome consumer shared live phase returned =>
      have frame := @apply_frame deployment.externals run.consumer world.shared msgId fields
      rw [returned] at frame
      refine World.forRun rfl ((gated _ live).same ?_ rfl fun stopped => frame.stopEvent.trans stopped)
      rw [phase]
      cases origin <;> rfl
  | applyRaises live phase raised => exact World.forRun rfl (raised_gated _ _)
  | @batchRefused run origin live phase =>
      have before := gated _ live
      refine World.forRun rfl ?_
      cases origin with
      | drain lastId => exact before.same (by rw [phase]; rfl) rfl id
      | loop =>
          simp only [Gated, phase, ReaderPhase.gate] at before
          exact Or.inl before
  | @batchApplied run origin applied live phase some =>
      refine World.forRun rfl ((gated _ live).same ?_ rfl id)
      rw [phase]
      cases origin <;> rfl
  | @keysSet run origin applied live phase =>
      have before := gated _ live
      refine World.forRun rfl ?_
      cases origin with
      | drain lastId => exact before.same (by rw [phase]; rfl) rfl id
      | loop =>
          simp only [Gated, phase, ReaderPhase.gate] at before
          exact Or.inl before
  | keysFailed live phase keys among => exact World.forRun rfl (raised_gated _ _)
  | raises live running => exact World.forRun rfl (raised_gated _ _)

/-- The flush task does not run during a drain. -/
theorem Gated.flushing {drained : Bool} {run next : Run} (gated : Gated drained run)
    (active : run.flusher ≠ .absent) (reader : next.reader = run.reader)
    (stopped : run.consumer.stopEvent = true → next.consumer.stopEvent = true) :
    Gated drained next := by
  unfold Gated at gated ⊢
  rw [reader]
  cases shape : run.reader.gate with
  | draining =>
      rw [shape] at gated
      exact absurd gated.1 active
  | reading =>
      rw [shape] at gated
      exact gated.imp_right stopped
  | looping =>
      rw [shape] at gated
      exact gated
  | «over» => trivial

theorem FlusherStep.gated (step : FlusherStep deployment world after)
    (gated : ∀ run, world.run = some run → Gated world.drained run) :
    ∀ run, after.run = some run → Gated after.drained run := by
  obtain ⟨run, next, settling, active, reader, stopEvent, _⟩ := step.settling
  rw [settling.drained]
  exact World.forRun settling.now ((gated run settling.live).flushing active reader fun stopped =>
    stopEvent.trans stopped)

theorem CleanupStep.gated (step : CleanupStep deployment world after) :
    ∀ run, after.run = some run → Gated after.drained run := by
  cases step with
  | flusherAckLost live phase acking =>
      refine World.forRun rfl ?_
      simp only [Gated, phase, ReaderPhase.gate]
  | _ => exact World.forRun rfl trivial

theorem LifecycleStep.gated (step : LifecycleStep deployment world after)
    (gated : ∀ run, world.run = some run → Gated world.drained run) :
    ∀ run, after.run = some run → Gated after.drained run := by
  cases step with
  | start none opened => exact World.forRun rfl ⟨rfl, rfl⟩
  | rerun live ended => exact World.forRun rfl ⟨rfl, rfl⟩
  | requestStop live => exact World.forRun rfl ((gated _ live).same rfl rfl fun _ => rfl)
  | _ => exact fun run live => by cases live

theorem WorldStep.gated (step : WorldStep deployment world after)
    (gated : ∀ run, world.run = some run → Gated world.drained run) :
    ∀ run, after.run = some run → Gated after.drained run := by
  cases step with
  | environment step => cases step <;> exact gated
  | consumer step =>
      cases step with
      | lifecycle step => exact step.gated gated
      | reader step => exact step.gated gated
      | cleanup step => exact step.gated
      | flusher step => exact step.gated gated

end Gates

end Quorin
