import Quorin.Proof.Consumer.StreamOrder
import Quorin.Proof.Consumer.DurableRuns

namespace Quorin

/-- The group has delivered an id. -/
def World.Delivered (world : World) (msgId : MsgId) : Prop :=
  ∃ group, world.group = some group ∧ msgId ≤ group.lastDelivered

/-- The ids of the new messages that the read loop still has to apply. -/
def ReaderPhase.arrivals : ReaderPhase → List MsgId
  | .checking batch => batch.map Prod.fst
  | .pauseAcking batch _ => batch.map Prod.fst
  | .parked batch => batch.map Prod.fst
  | .refreshing batch => batch.map Prod.fst
  | .batching .loop batch => batch.map Prod.fst
  | .applying .loop batch _ => batch.map Prod.fst
  | _ => []

/-- What one step does to the batch of the read task and to the record of the inserts. -/
inductive BatchEffect (deployment : Deployment) (world after : World) : Prop where
  | idle (inserted : after.inserted = world.inserted)
      (empty : ∀ next, after.run = some next → next.reader.batch = [])
  | kept {run next : Run} (live : world.run = some run) (now : after.run = some next)
      (inserted : after.inserted = world.inserted) (batch : next.reader.batch ⊆ run.reader.batch)
      (arrivals : next.reader.arrivals.Sublist run.reader.arrivals)
  | received {next : Run} {group : Group} (now : after.run = some next)
      (inserted : after.inserted = world.inserted) (present : world.group = some group)
      (moved : after.group = some (group.deliver (world.newBatch deployment group)))
      (batch : next.reader.batch = (world.newBatch deployment group).map fun entry =>
        (entry.id, some entry.fields))
      (arrivals : next.reader.arrivals = (world.newBatch deployment group).map StreamEntry.id)
  | replayed {next : Run} {group : Group} {lastId : MsgId} (now : after.run = some next)
      (inserted : after.inserted = world.inserted) (present : world.group = some group)
      (batch : next.reader.batch = world.pendingBatch deployment group lastId)
      (arrivals : next.reader.arrivals = [])
  | applied {run next : Run} {origin : BatchOrigin} {msgId : MsgId} {fields : Option MessageFields}
      {rest : Batch} {before later : List MsgId} (live : world.run = some run)
      (now : after.run = some next)
      (phase : run.reader = .applying origin ((msgId, fields) :: rest) before)
      (turned : next.reader = .applying origin rest later)
      (inserted : after.inserted =
        (executedInsert deployment run.consumer world.shared msgId fields).toList ++ world.inserted)

section Effects

variable {deployment : Deployment} {world after : World}

theorem raised_batch (run : Run) : run.raised.reader.batch = [] := by
  unfold Run.raised
  cases run.flusher <;> rfl

theorem BatchEffect.emptied {next : Run} (now : after.run = some next)
    (inserted : after.inserted = world.inserted) (batch : next.reader.batch = []) :
    BatchEffect deployment world after := by
  refine .idle inserted ?_
  intro other same
  rw [now] at same
  obtain rfl := Option.some.inj same
  exact batch

/-- A step that hands the batch on. -/
theorem BatchEffect.handed {run next : Run} {phase : ReaderPhase} (live : world.run = some run)
    (now : after.run = some next) (inserted : after.inserted = world.inserted)
    (before : run.reader = phase) (batch : next.reader.batch = phase.batch)
    (arrivals : next.reader.arrivals = phase.arrivals) : BatchEffect deployment world after := by
  subst before
  refine .kept live now inserted ?_ ?_
  · rw [batch]
    exact List.Subset.refl _
  · rw [arrivals]

theorem ReaderStep.batchEffect (step : ReaderStep deployment world after) :
    BatchEffect deployment world after := by
  cases step with
  | ensureGroup live phase => exact .emptied rfl rfl rfl
  | drainStopped live phase stopped => exact .emptied rfl rfl rfl
  | drainRead live phase running present counted batch =>
      exact .replayed rfl rfl present batch.symm rfl
  | drainEnd live phase running present counted empty => exact .emptied rfl rfl rfl
  | announce live phase refreshed => exact .emptied rfl rfl rfl
  | leave live phase stopped => exact .emptied rfl rfl rfl
  | read live phase running present counted =>
      exact .received rfl rfl present rfl rfl (List.map_map ..)
  | checkClear live phase clear => exact .handed live rfl rfl phase rfl rfl
  | checkPaused live phase paused settled => exact .handed live rfl rfl phase rfl rfl
  | checkFlushed live phase paused unsettled outcome flushed =>
      exact .handed live rfl rfl phase rfl rfl
  | checkNotFlushed live phase paused unsettled outcome failed =>
      exact .handed live rfl rfl phase rfl rfl
  | pauseAcked live phase => exact .handed live rfl rfl phase rfl rfl
  | pauseAckLost live phase => exact .emptied rfl rfl (raised_batch _)
  | parkedRefresh live phase => exact .handed live live rfl phase (by rw [phase]) (by rw [phase])
  | parkedStopped live phase stopped => exact .emptied rfl rfl rfl
  | resume live phase clear => exact .emptied rfl rfl rfl
  | @refresh run batch live phase refreshed =>
      cases batch with
      | nil => exact .emptied rfl rfl rfl
      | cons entry rest => exact .handed live rfl rfl phase rfl rfl
  | @startBatch run origin batch live phase room =>
      cases origin <;> exact .handed live rfl rfl phase rfl rfl
  | applyReturns live phase returned => exact .applied live rfl phase rfl rfl
  | applyRaises live phase raised => exact .emptied rfl rfl (raised_batch _)
  | batchRefused live phase => exact .emptied rfl rfl (next_batch _)
  | batchApplied live phase some => exact .emptied rfl rfl rfl
  | keysSet live phase => exact .emptied rfl rfl (next_batch _)
  | keysFailed live phase keys among => exact .emptied rfl rfl (raised_batch _)
  | raises live running => exact .emptied rfl rfl (raised_batch _)

theorem CleanupStep.batchEffect (step : CleanupStep deployment world after) :
    BatchEffect deployment world after := by
  cases step with
  | flusherAckLost live phase acking => exact .emptied rfl rfl (by rw [phase]; rfl)
  | _ => exact .emptied rfl rfl rfl

theorem FlusherStep.batchEffect (step : FlusherStep deployment world after) :
    BatchEffect deployment world after := by
  cases step <;> refine .handed (by assumption) rfl rfl rfl ?_ ?_ <;> rfl

theorem LifecycleStep.batchEffect (step : LifecycleStep deployment world after) :
    BatchEffect deployment world after := by
  cases step with
  | start none opened => exact .emptied rfl rfl rfl
  | rerun live ended => exact .emptied rfl rfl rfl
  | requestStop live => exact .handed live rfl rfl rfl rfl rfl
  | _ => exact .idle rfl fun next now => by cases now

theorem EnvironmentStep.batchEffect (step : EnvironmentStep deployment world after) :
    BatchEffect deployment world after := by
  have run : after.run = world.run := by cases step <;> rfl
  have inserted : after.inserted = world.inserted := by cases step <;> rfl
  cases live : world.run with
  | none => exact .idle inserted fun next now => by rw [run, live] at now; cases now
  | some held => exact .handed live (run.trans live) inserted rfl rfl rfl

theorem WorldStep.batchEffect (step : WorldStep deployment world after) :
    BatchEffect deployment world after := by
  cases step with
  | environment step => exact step.batchEffect
  | consumer step =>
      cases step with
      | lifecycle step => exact step.batchEffect
      | reader step => exact step.batchEffect
      | cleanup step => exact step.batchEffect
      | flusher step => exact step.batchEffect

end Effects

/-- The new messages of the read loop are newer than every executed insert. -/
structure Arrivals (world : World) : Prop where
  records : ∀ record ∈ world.inserted, world.Delivered record.msgId
  batch : ∀ run, world.run = some run → ∀ entry ∈ run.reader.batch, world.Delivered entry.1
  sorted : ∀ run, world.run = some run → run.reader.arrivals.Pairwise (· < ·)
  newer : ∀ run, world.run = some run → ∀ msgId ∈ run.reader.arrivals,
    ∀ record ∈ world.inserted, record.msgId < msgId

section Order

variable {deployment : Deployment} {world after : World}

/-- The cursor of the group never moves back. -/
theorem StreamEffect.delivered_kept (effect : StreamEffect deployment world after)
    (ordered : StreamOrdered world) {msgId : MsgId} (delivered : world.Delivered msgId) :
    after.Delivered msgId := by
  obtain ⟨group, present, within⟩ := delivered
  cases effect with
  | kept _ _ same _ => exact ⟨group, same.trans present, within⟩
  | added _ _ _ _ _ same _ => exact ⟨group, same.trans present, within⟩
  | trimmed _ _ _ same _ => exact ⟨group, same.trans present, within⟩
  | created _ _ same _ =>
      rw [present] at same
      exact ⟨group, same, within⟩
  | @delivered _ _ other here moved _ =>
      obtain rfl := Option.some.inj (here.symm.trans present)
      exact ⟨_, moved, within.trans (deliver_forward ordered other)⟩
  | acknowledged snapshot _ _ same _ =>
      rw [present] at same
      exact ⟨_, same, within⟩

theorem executedInsert_msgId {consumer : Consumer} {shared : SharedMemory} {msgId : MsgId}
    {fields : Option MessageFields} {record : InsertRecord}
    (executed : record ∈ (executedInsert deployment consumer shared msgId fields).toList) :
    record.msgId = msgId := by
  have found := Option.mem_toList.mp executed
  unfold executedInsert at found
  split at found
  · cases found
  · split at found
    · cases found
    · cases found
    · split at found
      · cases found
      · split at found
        · cases found
        · obtain rfl := Option.some.inj found
          rfl

theorem arrivals_batch (phase : ReaderPhase) {msgId : MsgId} (member : msgId ∈ phase.arrivals) :
    msgId ∈ phase.batch.map Prod.fst := by
  cases phase with
  | batching origin batch =>
      cases origin with
      | drain lastId => cases member
      | loop => exact member
  | applying origin batch applied =>
      cases origin with
      | drain lastId => cases member
      | loop => exact member
  | checking batch => exact member
  | pauseAcking batch snapshot => exact member
  | parked batch => exact member
  | refreshing batch => exact member
  | _ => cases member

theorem arrivals_of_empty {phase : ReaderPhase} (empty : phase.batch = []) : phase.arrivals = [] := by
  apply List.eq_nil_iff_forall_not_mem.mpr
  intro msgId member
  have inBatch := arrivals_batch phase member
  rw [empty] at inBatch
  cases inBatch

/-- The next message of a new batch is newer than every record, and the rest is newer than it. -/
theorem applying_arrivals {origin : BatchOrigin} {msgId : MsgId} {fields : Option MessageFields}
    {rest : Batch} {before later : List MsgId} :
    ReaderPhase.arrivals (.applying origin ((msgId, fields) :: rest) before) = [] ∧
        ReaderPhase.arrivals (.applying origin rest later) = [] ∨
      ReaderPhase.arrivals (.applying origin ((msgId, fields) :: rest) before) =
        msgId :: ReaderPhase.arrivals (.applying origin rest later) := by
  cases origin with
  | drain lastId => exact Or.inl ⟨rfl, rfl⟩
  | loop => exact Or.inr rfl

/-- Every step keeps the new messages newer than the executed inserts. -/
theorem BatchEffect.arrivals (effect : BatchEffect deployment world after)
    (stream : StreamEffect deployment world after) (ordered : StreamOrdered world)
    (before : Arrivals world) : Arrivals after := by
  have moved := fun msgId => @StreamEffect.delivered_kept deployment world after stream ordered msgId
  have only : ∀ {next other : Run}, after.run = some next → after.run = some other → other = next :=
    fun now same => Option.some.inj (same.symm.trans now)
  cases effect with
  | idle inserted empty =>
      refine ⟨?_, ?_, ?_, ?_⟩
      · rw [inserted]
        exact fun record member => moved _ (before.records record member)
      · intro run live entry member
        rw [empty run live] at member
        cases member
      · intro run live
        rw [arrivals_of_empty (empty run live)]
        exact List.Pairwise.nil
      · intro run live msgId member
        rw [arrivals_of_empty (empty run live)] at member
        cases member
  | @kept run next live now inserted batch arrivals =>
      refine ⟨?_, ?_, ?_, ?_⟩
      · rw [inserted]
        exact fun record member => moved _ (before.records record member)
      · intro other same entry member
        obtain rfl := only now same
        exact moved _ (before.batch run live entry (batch member))
      · intro other same
        obtain rfl := only now same
        exact (before.sorted run live).sublist arrivals
      · intro other same msgId member
        obtain rfl := only now same
        rw [inserted]
        exact before.newer run live msgId (arrivals.subset member)
  | @received next group now inserted present turned batch arrivals =>
      refine ⟨?_, ?_, ?_, ?_⟩
      · rw [inserted]
        exact fun record member => moved _ (before.records record member)
      · intro other same entry member
        obtain rfl := only now same
        rw [batch] at member
        obtain ⟨received, inBatch, rfl⟩ := List.mem_map.mp member
        exact ⟨_, turned, (deliver_cursor ordered group (newBatch_undelivered inBatch)).mpr inBatch⟩
      · intro other same
        obtain rfl := only now same
        rw [arrivals]
        exact List.pairwise_map.mpr
          ((ordered.undelivered_sorted group).sublist (List.take_sublist _ _))
      · intro other same msgId member record recorded
        obtain rfl := only now same
        rw [arrivals] at member
        obtain ⟨received, inBatch, rfl⟩ := List.mem_map.mp member
        rw [inserted] at recorded
        obtain ⟨old, same, within⟩ := before.records record recorded
        obtain rfl := Option.some.inj (present.symm.trans same)
        exact lt_of_le_of_lt within
          (of_decide_eq_true (List.mem_filter.mp (newBatch_undelivered inBatch)).2)
  | @replayed next group lastId now inserted present batch arrivals =>
      refine ⟨?_, ?_, ?_, ?_⟩
      · rw [inserted]
        exact fun record member => moved _ (before.records record member)
      · intro other same entry member
        obtain rfl := only now same
        rw [batch] at member
        obtain ⟨msgId, inPending, rfl⟩ := List.mem_map.mp member
        have pending := (List.mem_filter.mp (List.mem_of_mem_take inPending)).1
        exact moved _ ⟨group, present, (ordered.group group present).bounded msgId pending⟩
      · intro other same
        obtain rfl := only now same
        rw [arrivals]
        exact List.Pairwise.nil
      · intro other same msgId member
        obtain rfl := only now same
        rw [arrivals] at member
        cases member
  | @applied run next origin msgId fields rest early later live now phase turned inserted =>
      have sorted := before.sorted run live
      have newer := before.newer run live
      rw [phase] at sorted newer
      have here : world.Delivered msgId := before.batch run live (msgId, fields) (by
        rw [phase]
        exact List.mem_cons_self)
      have records : ∀ record ∈ after.inserted, record.msgId = msgId ∨ record ∈ world.inserted := by
        rw [inserted]
        intro record member
        rcases List.mem_append.mp member with new | old
        · exact Or.inl (executedInsert_msgId new)
        · exact Or.inr old
      refine ⟨?_, ?_, ?_, ?_⟩
      · intro record member
        rcases records record member with same | old
        · rw [same]
          exact moved _ here
        · exact moved _ (before.records record old)
      · intro other same entry member
        obtain rfl := only now same
        rw [turned] at member
        exact moved _ (before.batch run live entry (by
          rw [phase]
          exact List.mem_cons_of_mem _ member))
      · intro other same
        obtain rfl := only now same
        rw [turned]
        rcases @applying_arrivals origin msgId fields rest early later with ⟨_, empty⟩ | shape
        · rw [empty]
          exact List.Pairwise.nil
        · rw [shape] at sorted
          exact (List.pairwise_cons.mp sorted).2
      · intro other same next member record recorded
        obtain rfl := only now same
        rw [turned] at member
        rcases @applying_arrivals origin msgId fields rest early later with ⟨_, empty⟩ | shape
        · rw [empty] at member
          cases member
        · rw [shape] at sorted newer
          rcases records record recorded with new | old
          · rw [new]
            exact (List.pairwise_cons.mp sorted).1 next member
          · exact newer next (List.mem_cons_of_mem _ member) record old

theorem World.Initial.arrivals (initial : world.Initial deployment) : Arrivals world where
  records := by
    rw [initial.inserted]
    exact fun record member => absurd member List.not_mem_nil
  batch := by
    rw [initial.run]
    exact fun run live => by cases live
  sorted := by
    rw [initial.run]
    exact fun run live => by cases live
  newer := by
    rw [initial.run]
    exact fun run live => by cases live

end Order

end Quorin
