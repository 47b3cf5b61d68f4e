import Quorin.Proof.Consumer.Durability
import Quorin.Proof.Consumer.Progress

namespace Quorin

variable {deployment : Deployment} {world after : World}

theorem EnvironmentStep.durable (step : EnvironmentStep deployment world after)
    (durable : Durable deployment world) : Durable deployment after := by
  cases step with
  | xadd entry positive newer =>
      have grown : ∀ other ∈ world.produced, other ∈ world.produced ++ [entry] :=
        fun other member => List.mem_append_left _ member
      constructor
      · intro other member
        rcases List.mem_append.mp member with before | now
        · exact grown other (durable.entries other before)
        · exact List.mem_append_right _ now
      · intro msgId member
        have held := (durable.acked msgId member).mono grown []
        rwa [List.append_nil] at held
      · intro run live
        have held := (durable.run run live).mono grown []
        rwa [List.append_nil] at held
  | trim count =>
      exact ⟨fun entry member => durable.entries entry (List.mem_of_mem_drop member),
        durable.acked, durable.run⟩
  | livenessExpires => exact ⟨durable.entries, durable.acked, durable.run⟩
  | pause name value => exact ⟨durable.entries, durable.acked, durable.run⟩
  | flip name segmentName segment unused refused =>
      exact ⟨durable.entries, durable.acked, durable.run⟩
  | deleteCurrent name => exact ⟨durable.entries, durable.acked, durable.run⟩

/-- A new consumer object holds no ids. -/
theorem freshConsumer_durable (deployment : Deployment) (current : List UInt8 → Option String)
    (produced : List StreamEntry) (files : List SealedFile) :
    RunDurable deployment produced files
      ⟨freshConsumer deployment current, .starting, .absent, [], []⟩ := by
  constructor
  · exact OfflineStore.empty_sound deployment.externals deployment.includeMsgId
  · rfl
  · rfl
  · intro msgId member
    cases member
  · intro msgId member
    cases member
  · intro msgId member
    cases member
  · intro msgId member
    cases member
  · intro msgId fields member
    cases member

theorem LifecycleStep.durable (step : LifecycleStep deployment world after)
    (durable : Durable deployment world) : Durable deployment after := by
  cases step with
  | start none opened =>
      exact durable.moved ⟨rfl, rfl, rfl, rfl⟩ rfl
        (freshConsumer_durable deployment world.current world.produced world.files)
  | rerun live ended =>
      refine durable.moved ⟨rfl, rfl, rfl, rfl⟩ rfl ((durable.run _ live).turn rfl ?_ rfl ?_ ?_)
      · intro msgId member
        cases member
      · intro msgId member
        cases member
      · intro entry member
        cases member
  | exit live ended => exact durable.stopped ⟨rfl, rfl, rfl⟩ ⟨[], (List.append_nil _).symm⟩ rfl
  | crash => exact durable.stopped ⟨rfl, rfl, rfl⟩ ⟨[], (List.append_nil _).symm⟩ rfl
  | crashInInsert live applying count early =>
      exact durable.stopped ⟨rfl, rfl, rfl⟩ ⟨[], (List.append_nil _).symm⟩ rfl
  | crashInFlush live outcome count => exact durable.stopped ⟨rfl, rfl, rfl⟩ ⟨_, rfl⟩ rfl
  | requestStop live =>
      exact durable.moved ⟨rfl, rfl, rfl, rfl⟩ rfl ((durable.run _ live).shrink rfl rfl
        (fun _ member => Or.inl member) (fun _ member => member) (fun _ member => member)
        (fun _ member => member) fun _ member => member)

/-- The entries of a batch that Redis returns are entries of the stream. -/
theorem fieldsOf_produced (durable : Durable deployment world) {msgId : MsgId}
    {fields : MessageFields} (found : world.fieldsOf msgId = some fields) :
    ⟨msgId, fields⟩ ∈ world.produced := by
  obtain ⟨entry, here, rfl⟩ := Option.map_eq_some_iff.mp found
  have member := durable.entries entry (List.mem_of_find?_eq_some here)
  have same : entry.id = msgId := by simpa using List.find?_some here
  rw [← same]
  exact member

theorem reopenSegments_frame (externals : Externals) (current : List UInt8 → Option String)
    (shared : SharedMemory) (schemas : List (List UInt8 × FeatureSchema)) (consumer : Consumer) :
    (reopenSegments externals current shared schemas consumer).offline = consumer.offline ∧
      (reopenSegments externals current shared schemas consumer).schemas = consumer.schemas ∧
      (reopenSegments externals current shared schemas consumer).pendingAck =
        consumer.pendingAck := by
  induction schemas generalizing consumer with
  | nil => exact ⟨rfl, rfl, rfl⟩
  | cons entry rest ih =>
      obtain ⟨name, schema⟩ := entry
      unfold reopenSegments
      split
      · split
        · exact ih consumer
        · exact ih _
      · exact ⟨rfl, rfl, rfl⟩
      · exact ⟨rfl, rfl, rfl⟩

theorem next_applied (origin : BatchOrigin) : origin.next.applied = [] := by
  cases origin <;> rfl

theorem next_snapshot (origin : BatchOrigin) : origin.next.snapshot = [] := by
  cases origin <;> rfl

theorem next_batch (origin : BatchOrigin) : origin.next.batch = [] := by
  cases origin <;> rfl

theorem ReaderStep.durable (step : ReaderStep deployment world after)
    (durable : Durable deployment world) : Durable deployment after := by
  cases step with
  | ensureGroup live phase =>
      exact durable.turned live ⟨rfl, rfl, rfl, rfl⟩ rfl rfl rfl rfl (Or.inr rfl) (Or.inl rfl)
  | drainStopped live phase stopped =>
      exact durable.turned live ⟨rfl, rfl, rfl, rfl⟩ rfl rfl rfl rfl (Or.inr rfl) (Or.inl rfl)
  | drainRead live phase running present counted batch =>
      have held := durable.run _ live
      refine durable.moved ⟨rfl, rfl, rfl, rfl⟩ rfl ?_
      constructor
      · exact held.sound
      · exact held.included
      · exact held.schemas
      · exact held.pending
      · intro msgId member
        cases member
      · intro msgId member
        cases member
      · exact held.flusherSnapshot
      · intro msgId fields member
        change (msgId, some fields) ∈ _ :: _ at member
        rw [← batch] at member
        obtain ⟨other, _, same⟩ := List.mem_map.mp member
        obtain ⟨rfl, found⟩ := Prod.mk.inj same
        exact fieldsOf_produced durable found
  | drainEnd live phase running present counted empty =>
      exact durable.turned live ⟨rfl, rfl, rfl, rfl⟩ rfl rfl rfl rfl (Or.inr rfl) (Or.inl rfl)
  | announce live phase refreshed =>
      exact durable.turned live ⟨rfl, rfl, rfl, rfl⟩ rfl rfl rfl rfl (Or.inl rfl) (Or.inl rfl)
  | leave live phase stopped =>
      exact durable.turned live ⟨rfl, rfl, rfl, rfl⟩ rfl rfl rfl rfl (Or.inr rfl) (Or.inl rfl)
  | read live phase running present counted =>
      have held := durable.run _ live
      refine durable.moved ⟨rfl, rfl, rfl, rfl⟩ rfl ?_
      constructor
      · exact held.sound
      · exact held.included
      · exact held.schemas
      · exact held.pending
      · intro msgId member
        cases member
      · intro msgId member
        cases member
      · exact held.flusherSnapshot
      · intro msgId fields member
        obtain ⟨entry, inside, same⟩ := List.mem_map.mp member
        obtain ⟨rfl, found⟩ := Prod.mk.inj same
        obtain rfl := Option.some.inj found
        exact durable.entries entry (List.mem_of_mem_filter (List.mem_of_mem_take inside))
  | checkClear live phase clear =>
      exact durable.turned live ⟨rfl, rfl, rfl, rfl⟩ rfl rfl rfl rfl (Or.inr rfl)
        (Or.inr (by rw [phase]; rfl))
  | checkPaused live phase paused settled =>
      exact durable.turned live ⟨rfl, rfl, rfl, rfl⟩ rfl rfl rfl rfl (Or.inr rfl)
        (Or.inr (by rw [phase]; rfl))
  | checkFlushed live phase paused unsettled outcome flushed =>
      refine durable.flushed rfl ⟨rfl, rfl, rfl⟩ rfl ((durable.run _ live).flush outcome rfl
        ?_ (fun _ member => Or.inr ⟨flushed, member⟩) (fun _ member => Or.inl member) ?_)
      · intro msgId member
        cases member
      · rw [phase]
        exact fun _ member => member
  | checkNotFlushed live phase paused unsettled outcome failed =>
      refine durable.flushed rfl ⟨rfl, rfl, rfl⟩ rfl ((durable.run _ live).flush outcome rfl
        ?_ ?_ (fun _ member => Or.inl member) ?_)
      · intro msgId member
        cases member
      · intro msgId member
        cases member
      · rw [phase]
        exact fun _ member => member
  | pauseAcked live phase =>
      have held := durable.run _ live
      apply durable.acknowledged
      · have sealed := held.readerSnapshot
        rw [phase] at sealed
        exact sealed
      · refine held.shrink rfl rfl ?_ ?_ ?_ ?_ ?_
        · exact fun msgId member => Or.inl (List.mem_of_mem_drop member)
        · intro msgId member
          cases member
        · intro msgId member
          cases member
        · exact fun msgId member => member
        · rw [phase]
          exact fun _ member => member
  | pauseAckLost live phase =>
      have held := durable.run _ live
      apply durable.acknowledged
      · have sealed := held.readerSnapshot
        rw [phase] at sealed
        exact sealed
      · exact held.raised
  | parkedRefresh live phase =>
      exact ⟨durable.entries, durable.acked, durable.run⟩
  | parkedStopped live phase stopped =>
      exact durable.turned live ⟨rfl, rfl, rfl, rfl⟩ rfl rfl rfl rfl (Or.inr rfl) (Or.inl rfl)
  | @resume run batch live phase clear =>
      obtain ⟨offline, schemas, pending⟩ := reopenSegments_frame deployment.externals world.current
        world.shared deployment.schemas run.consumer
      refine durable.moved ⟨rfl, rfl, rfl, rfl⟩ rfl ?_
      refine (durable.run _ live).shrink offline schemas ?_ ?_ ?_ ?_ ?_
      · intro msgId member
        dsimp only at member
        rw [pending] at member
        exact Or.inl member
      · intro msgId member
        cases member
      · intro msgId member
        cases member
      · exact fun msgId member => member
      · intro entry member
        cases member
  | refresh live phase refreshed =>
      refine durable.moved ⟨rfl, rfl, rfl, rfl⟩ rfl ?_
      refine (durable.run _ live).turn rfl ?_ ?_ ?_ ?_
      · intro msgId member
        dsimp only at member
        split at member <;> cases member
      · dsimp only
        split <;> rfl
      · exact fun msgId member => member
      · intro entry member
        dsimp only at member
        split at member
        · cases member
        · rw [phase]
          exact member
  | startBatch live phase room =>
      exact durable.turned live ⟨rfl, rfl, rfl, rfl⟩ rfl rfl rfl rfl (Or.inr rfl)
        (Or.inr (by rw [phase]; rfl))
  | @applyReturns run origin msgId fields rest applied outcome consumer shared live phase returned =>
      refine durable.moved ⟨rfl, rfl, rfl, rfl⟩ rfl ?_
      refine (durable.run _ live).applyReturns returned ?_ rfl ?_ rfl rfl ?_
      · rw [phase]
        exact List.mem_cons_self
      · intro other member
        rw [phase]
        change other ∈ (if outcome = true then applied ++ [msgId] else applied) at member
        split at member
        · rename_i succeeded
          rcases List.mem_append.mp member with before | now
          · exact Or.inl before
          · exact Or.inr ⟨by rw [succeeded], List.mem_singleton.mp now⟩
        · exact Or.inl member
      · rw [phase]
        exact fun entry member => List.mem_cons_of_mem _ member
  | @applyRaises run origin msgId fields rest applied exception consumer shared live phase raised =>
      refine durable.moved ⟨rfl, rfl, rfl, rfl⟩ rfl ?_
      have inBatch : (msgId, fields) ∈ run.reader.batch := by
        rw [phase]
        exact List.mem_cons_self
      have held : RunDurable deployment world.produced world.files
          { run with consumer := consumer, passed := run.passed ++ [msgId], reader := .reading } := by
        refine (durable.run _ live).applyReturns raised inBatch rfl ?_ rfl rfl ?_
        · intro other member
          cases member
        · intro entry member
          cases member
      exact held.raised
  | batchRefused live phase =>
      exact durable.turned live ⟨rfl, rfl, rfl, rfl⟩ rfl rfl (next_applied _) (next_snapshot _)
        (Or.inr rfl) (Or.inl (next_batch _))
  | batchApplied live phase some =>
      refine durable.moved ⟨rfl, rfl, rfl, rfl⟩ rfl ?_
      refine (durable.run _ live).turn rfl ?_ ?_ ?_ ?_
      · rw [phase]
        exact fun msgId member => member
      · rfl
      · exact fun msgId member => member
      · intro entry member
        cases member
  | keysSet live phase =>
      refine durable.moved ⟨rfl, rfl, rfl, rfl⟩ rfl ?_
      refine (durable.run _ live).shrink rfl rfl ?_ ?_ ?_ ?_ ?_
      · rw [phase]
        exact fun msgId member => List.mem_append.mp member
      · dsimp only
        rw [next_applied]
        intro msgId member
        cases member
      · dsimp only
        rw [next_snapshot]
        intro msgId member
        cases member
      · exact fun msgId member => member
      · dsimp only
        rw [next_batch]
        intro entry member
        cases member
  | keysFailed live phase keys among =>
      exact durable.moved ⟨rfl, rfl, rfl, rfl⟩ rfl (durable.run _ live).raised
  | raises live running =>
      exact durable.moved ⟨rfl, rfl, rfl, rfl⟩ rfl (durable.run _ live).raised

theorem CleanupStep.durable (step : CleanupStep deployment world after)
    (durable : Durable deployment world) : Durable deployment after := by
  cases step with
  | flusherFailed live phase failed =>
      exact durable.turned live ⟨rfl, rfl, rfl, rfl⟩ rfl rfl rfl rfl (Or.inr rfl) (Or.inl rfl)
  | flusherAckLost live phase acking =>
      have held := durable.run _ live
      apply durable.acknowledged
      · have sealed := held.flusherSnapshot
        rw [acking] at sealed
        exact sealed
      · refine held.turn rfl (fun _ member => member) ?_ ?_ fun _ member => member
        · rw [phase]
          rfl
        · intro msgId member
          cases member
  | nothingPending live phase alive settled =>
      exact durable.turned live ⟨rfl, rfl, rfl, rfl⟩ rfl rfl rfl rfl (Or.inl rfl) (Or.inl rfl)
  | flushed live phase alive unsettled outcome succeeded =>
      refine durable.flushed rfl ⟨rfl, rfl, rfl⟩ rfl ((durable.run _ live).flush outcome rfl
        ?_ (fun _ member => Or.inr ⟨succeeded, member⟩) ?_ ?_)
      · intro msgId member
        cases member
      · intro msgId member
        cases member
      · intro entry member
        cases member
  | notFlushed live phase alive unsettled outcome failed =>
      refine durable.flushed rfl ⟨rfl, rfl, rfl⟩ rfl ((durable.run _ live).flush outcome rfl
        ?_ ?_ ?_ ?_)
      · intro msgId member
        cases member
      · intro msgId member
        cases member
      · intro msgId member
        cases member
      · intro entry member
        cases member
  | acked live phase =>
      have held := durable.run _ live
      apply durable.acknowledged
      · have sealed := held.readerSnapshot
        rw [phase] at sealed
        exact sealed
      · refine held.shrink rfl rfl (fun _ member => Or.inl (List.mem_of_mem_drop member)) ?_ ?_
          (fun _ member => member) ?_
        · intro msgId member
          cases member
        · intro msgId member
          cases member
        · intro entry member
          cases member
  | ackLost live phase =>
      have held := durable.run _ live
      apply durable.acknowledged
      · have sealed := held.readerSnapshot
        rw [phase] at sealed
        exact sealed
      · refine held.turn rfl ?_ rfl (fun _ member => member) ?_
        · intro msgId member
          cases member
        · intro entry member
          cases member
  | ackFailed live phase =>
      exact durable.turned live ⟨rfl, rfl, rfl, rfl⟩ rfl rfl rfl rfl (Or.inr rfl) (Or.inl rfl)
  | closed live phase outcome deleted =>
      refine durable.flushed rfl ⟨rfl, rfl, rfl⟩ rfl ((durable.run _ live).flush outcome rfl
        ?_ ?_ (fun _ member => Or.inl member) ?_)
      · intro msgId member
        cases member
      · intro msgId member
        cases member
      · intro entry member
        cases member
  | cancelled live cleaning =>
      exact durable.turned live ⟨rfl, rfl, rfl, rfl⟩ rfl rfl rfl rfl (Or.inl rfl) (Or.inl rfl)

theorem FlusherStep.durable (step : FlusherStep deployment world after)
    (durable : Durable deployment world) : Durable deployment after := by
  have idle : ∀ {run : Run} (phase : FlusherPhase), world.run = some run → phase.snapshot = [] →
      RunDurable deployment world.produced world.files { run with flusher := phase } := by
    intro run phase live none
    refine (durable.run run live).shrink rfl rfl (fun _ member => Or.inl member)
      (fun _ member => member) (fun _ member => member) ?_ fun _ member => member
    rw [none]
    intro msgId member
    cases member
  have sealed : ∀ {run : Run} {snapshot : List MsgId}, world.run = some run →
      run.flusher = .acking snapshot → ∀ msgId ∈ snapshot,
        SealedMessage deployment world.produced world.files msgId := by
    intro run snapshot live phase
    have held := (durable.run run live).flusherSnapshot
    rw [phase] at held
    exact held
  cases step with
  | wake live turn phase running =>
      exact durable.moved ⟨rfl, rfl, rfl, rfl⟩ rfl (idle .renewing live rfl)
  | stopped live turn phase stopped =>
      exact durable.moved ⟨rfl, rfl, rfl, rfl⟩ rfl (idle .finished live rfl)
  | nothingPending live turn phase settled =>
      exact durable.moved ⟨rfl, rfl, rfl, rfl⟩ rfl (idle .waiting live rfl)
  | flushed live turn phase unsettled outcome succeeded =>
      exact durable.flushed rfl ⟨rfl, rfl, rfl⟩ rfl ((durable.run _ live).flush outcome rfl
        (fun _ member => member) (fun _ member => Or.inl member)
        (fun _ member => Or.inr ⟨succeeded, member⟩) fun _ member => member)
  | notFlushed live turn phase unsettled outcome failed =>
      refine durable.flushed rfl ⟨rfl, rfl, rfl⟩ rfl ((durable.run _ live).flush outcome rfl
        (fun _ member => member) (fun _ member => Or.inl member) ?_ fun _ member => member)
      intro msgId member
      cases member
  | acked live turn phase =>
      apply durable.acknowledged (sealed live phase)
      refine (durable.run _ live).shrink rfl rfl
        (fun _ member => Or.inl (List.mem_of_mem_drop member)) (fun _ member => member)
        (fun _ member => member) ?_ fun _ member => member
      intro msgId member
      cases member
  | ackLost live turn phase =>
      exact durable.acknowledged (sealed live phase) (idle .failed live rfl)
  | ackFailed live turn phase =>
      exact durable.moved ⟨rfl, rfl, rfl, rfl⟩ rfl (idle .failed live rfl)

/-- Every step of the process and of its environment keeps the world durable. -/
theorem WorldStep.durable (step : WorldStep deployment world after)
    (durable : Durable deployment world) : Durable deployment after := by
  cases step with
  | environment step => exact step.durable durable
  | consumer step =>
      cases step with
      | lifecycle step => exact step.durable durable
      | reader step => exact step.durable durable
      | cleanup step => exact step.durable durable
      | flusher step => exact step.durable durable

theorem World.Initial.durable (initial : world.Initial deployment) : Durable deployment world := by
  constructor
  · rw [initial.entries]
    intro entry member
    cases member
  · rw [initial.acked]
    intro msgId member
    cases member
  · intro run live
    rw [initial.run] at live
    cases live

/-- A run of steps keeps the world durable. -/
theorem durable_of_steps {start : World} (durable : Durable deployment start)
    (steps : Relation.ReflTransGen (WorldStep deployment) start world) :
    Durable deployment world := by
  induction steps with
  | refl => exact durable
  | tail _ step ih => exact step.durable ih

/-- Every acknowledged message has its row in a sealed file. -/
theorem acked_sealed (reachable : Reachable deployment world) :
    ∀ msgId ∈ world.acked, SealedMessage deployment world.produced world.files msgId := by
  obtain ⟨start, initial, steps⟩ := reachable
  exact (durable_of_steps initial.durable steps).acked

/-- A run that flushes and acknowledges the first sample message has sealed its row. -/
theorem acked_sealed_sample : ∃ world : World, world.acked = [MsgId.of 1 0] ∧
    SealedMessage sampleDeployment world.produced world.files (MsgId.of 1 0) := by
  obtain ⟨after, written, rowData, applied, _, convertible, steps⟩ := sampleFirst_consumed
  have flushed := @flush_steps sampleDeployment (sampleConsumed sampleFirst after written rowData) _
    rfl rfl applied.stopEvent rfl (by simp) (fun _ => .renamed) (flush_succeeds_iff.mpr convertible)
  have reached := reachable_of_plain sampleWorld_initial (steps.trans flushed)
  exact ⟨_, rfl, acked_sealed reached _ List.mem_cons_self⟩

end Quorin
