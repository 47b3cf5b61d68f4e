import Quorin.Proof.Consumer.ReplayRuns

namespace Quorin

open ByteMemory

/-- The insert of a message was executed, and the row of its entity is not older. -/
def RowCurrent (inserted : List InsertRecord) (msgId : MsgId) : Prop :=
  ∃ own ∈ inserted, own.msgId = msgId ∧
    ∀ newest, newestRecord inserted own.target = some newest → msgId ≤ newest.msgId

/-- A calm step applies no message in a drain. -/
theorem CalmStep.forward {deployment : Deployment} {before after : World}
    (step : CalmStep deployment before after) : ForwardStep deployment before after := by
  refine ⟨step.plain.1, ?_⟩
  intro run lastId msgId fields rest applied live phase
  exact absurd phase (step.looping run lastId _ applied live)

/-- The lookup of the entity of every message whose key is set returns the row of the message or of
a later one. -/
def ReadsOwnWrites (deployment : Deployment) (world : World) : Prop :=
  ∀ msgId ∈ world.processed, ∃ own ∈ world.inserted, own.msgId = msgId ∧
    ∃ later ∈ world.inserted, later.target = own.target ∧ msgId ≤ later.msgId ∧
      ServesRow deployment world later

/-- The messages whose keys are set, or are going to be, have current rows. -/
structure Signalled (world : World) : Prop where
  processed : ∀ msgId ∈ world.processed, RowCurrent world.inserted msgId
  batch : ∀ run, world.run = some run → ∀ msgId ∈ run.reader.applied,
    RowCurrent world.inserted msgId
  sorted : ∀ run, world.run = some run →
    (run.reader.applied ++ run.reader.batch.map Prod.fst).Pairwise (· < ·)

/-- What one step does to the set keys and to the batch that sets the next ones. -/
inductive SignalEffect (deployment : Deployment) (world after : World) : Prop where
  | idle (inserted : after.inserted = world.inserted) (processed : after.processed = world.processed)
      (empty : ∀ next, after.run = some next →
        next.reader.applied = [] ∧ next.reader.batch = [])
  | kept {run next : Run} (live : world.run = some run) (now : after.run = some next)
      (inserted : after.inserted = world.inserted) (processed : after.processed = world.processed)
      (appliedIds : next.reader.applied = run.reader.applied)
      (batch : next.reader.batch = run.reader.batch)
  | loaded {next : Run} (now : after.run = some next)
      (inserted : after.inserted = world.inserted) (processed : after.processed = world.processed)
      (appliedIds : next.reader.applied = [])
      (sorted : (next.reader.batch.map Prod.fst).Pairwise (· < ·))
  | applied {run next : Run} {origin : BatchOrigin} {msgId : MsgId} {fields : Option MessageFields}
      {rest : Batch} {before : List MsgId} {outcome : Bool} {consumer : Consumer}
      {shared : SharedMemory} (live : world.run = some run) (now : after.run = some next)
      (phase : run.reader = .applying origin ((msgId, fields) :: rest) before)
      (returned : apply deployment.externals run.consumer world.shared msgId fields =
        (.ok outcome, consumer, shared))
      (turned : next.reader =
        .applying origin rest (if outcome then before ++ [msgId] else before))
      (inserted : after.inserted =
        (executedInsert deployment run.consumer world.shared msgId fields).toList ++ world.inserted)
      (processed : after.processed = world.processed)
  | signalled {run : Run} {keys : List MsgId} (live : world.run = some run)
      (inserted : after.inserted = world.inserted) (among : keys ⊆ run.reader.applied)
      (processed : after.processed = world.processed ++ keys)
      (empty : ∀ next, after.run = some next →
        next.reader.applied = [] ∧ next.reader.batch = [])

section Effects

variable {deployment : Deployment} {world after : World}

theorem raised_applied (run : Run) : run.raised.reader.applied = [] := by
  unfold Run.raised
  cases run.flusher <;> rfl

/-- A step of a live process that leaves nothing to signal. -/
theorem SignalEffect.emptied {next : Run} (now : after.run = some next)
    (inserted : after.inserted = world.inserted) (processed : after.processed = world.processed)
    (appliedIds : next.reader.applied = []) (batch : next.reader.batch = []) :
    SignalEffect deployment world after := by
  refine .idle inserted processed ?_
  intro other same
  rw [now] at same
  obtain rfl := Option.some.inj same
  exact ⟨appliedIds, batch⟩

/-- A step that hands its ids on. -/
theorem SignalEffect.handed {run next : Run} {phase : ReaderPhase} (live : world.run = some run)
    (now : after.run = some next) (inserted : after.inserted = world.inserted)
    (processed : after.processed = world.processed) (before : run.reader = phase)
    (appliedIds : next.reader.applied = phase.applied)
    (batch : next.reader.batch = phase.batch) : SignalEffect deployment world after := by
  subst before
  exact .kept live now inserted processed appliedIds batch

/-- The keys of a batch are set behind its last message. -/
theorem SignalEffect.signals {run next : Run} {keys : List MsgId} (live : world.run = some run)
    (now : after.run = some next) (inserted : after.inserted = world.inserted)
    (among : keys ⊆ run.reader.applied) (processed : after.processed = world.processed ++ keys)
    (appliedIds : next.reader.applied = []) (batch : next.reader.batch = []) :
    SignalEffect deployment world after := by
  refine .signalled live inserted among processed ?_
  intro other same
  rw [now] at same
  obtain rfl := Option.some.inj same
  exact ⟨appliedIds, batch⟩

/-- The pending ids that a drain reads are sorted. -/
theorem pendingBatch_sorted (ordered : StreamOrdered world) {group : Group}
    (present : world.group = some group) (lastId : MsgId) :
    ((world.pendingBatch deployment group lastId).map Prod.fst).Pairwise (· < ·) := by
  have ids : (world.pendingBatch deployment group lastId).map Prod.fst =
      (group.pending.filter fun msgId => lastId < msgId).take deployment.batchCount := by
    simp [World.pendingBatch, Function.comp_def]
  rw [ids]
  exact (ordered.group group present).sorted.sublist
    ((List.take_sublist _ _).trans List.filter_sublist)

theorem ReaderStep.signalEffect (step : ReaderStep deployment world after)
    (ordered : StreamOrdered world) : SignalEffect deployment world after := by
  cases step with
  | ensureGroup live phase => exact .emptied rfl rfl rfl rfl rfl
  | drainStopped live phase stopped => exact .emptied rfl rfl rfl rfl rfl
  | @drainRead run lastId group live phase running present counted first others batch =>
      refine .loaded rfl rfl rfl rfl ?_
      have sorted := @pendingBatch_sorted deployment world ordered group present lastId
      rw [batch] at sorted
      exact sorted
  | drainEnd live phase running present counted empty => exact .emptied rfl rfl rfl rfl rfl
  | announce live phase refreshed => exact .emptied rfl rfl rfl rfl rfl
  | leave live phase stopped => exact .emptied rfl rfl rfl rfl rfl
  | @read run group live phase running present counted =>
      refine .loaded rfl rfl rfl rfl ?_
      rw [ReaderPhase.batch, List.map_map]
      exact List.pairwise_map.mpr
        ((ordered.undelivered_sorted group).sublist (List.take_sublist _ _))
  | checkClear live phase clear => exact .handed live rfl rfl rfl phase rfl rfl
  | checkPaused live phase paused settled => exact .handed live rfl rfl rfl phase rfl rfl
  | checkFlushed live phase paused unsettled outcome flushed =>
      exact .handed live rfl rfl rfl phase rfl rfl
  | checkNotFlushed live phase paused unsettled outcome failed =>
      exact .handed live rfl rfl rfl phase rfl rfl
  | pauseAcked live phase => exact .handed live rfl rfl rfl phase rfl rfl
  | pauseAckLost live phase => exact .emptied rfl rfl rfl (raised_applied _) (raised_batch _)
  | parkedRefresh live phase =>
      exact .handed live live rfl rfl phase (by rw [phase]) (by rw [phase])
  | parkedStopped live phase stopped => exact .emptied rfl rfl rfl rfl rfl
  | resume live phase clear => exact .emptied rfl rfl rfl rfl rfl
  | @refresh run batch live phase refreshed =>
      cases batch with
      | nil => exact .emptied rfl rfl rfl rfl rfl
      | cons entry rest => exact .handed live rfl rfl rfl phase rfl rfl
  | startBatch live phase room => exact .handed live rfl rfl rfl phase rfl rfl
  | applyReturns live phase returned => exact .applied live rfl phase returned rfl rfl rfl
  | applyRaises live phase raised =>
      exact .emptied rfl rfl rfl (raised_applied _) (raised_batch _)
  | batchRefused live phase => exact .emptied rfl rfl rfl (next_applied _) (next_batch _)
  | batchApplied live phase some => exact .handed live rfl rfl rfl phase rfl rfl
  | keysSet live phase =>
      exact .signals live rfl rfl (by rw [phase]; exact List.Subset.refl _) rfl (next_applied _)
        (next_batch _)
  | keysFailed live phase keys among =>
      exact .signals live rfl rfl (by rw [phase]; exact among) rfl (raised_applied _)
        (raised_batch _)
  | raises live running => exact .emptied rfl rfl rfl (raised_applied _) (raised_batch _)

theorem CleanupStep.signalEffect (step : CleanupStep deployment world after) :
    SignalEffect deployment world after := by
  cases step with
  | flusherAckLost live phase acking =>
      exact .emptied rfl rfl rfl (by rw [phase]; rfl) (by rw [phase]; rfl)
  | _ => exact .emptied rfl rfl rfl rfl rfl

theorem FlusherStep.signalEffect (step : FlusherStep deployment world after) :
    SignalEffect deployment world after := by
  cases step <;> refine .handed (by assumption) rfl rfl rfl rfl ?_ ?_ <;> rfl

theorem LifecycleStep.signalEffect (step : LifecycleStep deployment world after) :
    SignalEffect deployment world after := by
  cases step with
  | start none opened => exact .emptied rfl rfl rfl rfl rfl
  | rerun live ended => exact .emptied rfl rfl rfl rfl rfl
  | requestStop live => exact .handed live rfl rfl rfl rfl rfl rfl
  | _ => exact .idle rfl rfl fun next now => by cases now

theorem EnvironmentStep.signalEffect (step : EnvironmentStep deployment world after) :
    SignalEffect deployment world after := by
  have run : after.run = world.run := by cases step <;> rfl
  have inserted : after.inserted = world.inserted := by cases step <;> rfl
  have processed : after.processed = world.processed := by cases step <;> rfl
  cases live : world.run with
  | none => exact .idle inserted processed fun next now => by rw [run, live] at now; cases now
  | some held => exact .handed live (run.trans live) inserted processed rfl rfl rfl

theorem WorldStep.signalEffect (step : WorldStep deployment world after)
    (ordered : StreamOrdered world) : SignalEffect deployment world after := by
  cases step with
  | environment step => exact step.signalEffect
  | consumer step =>
      cases step with
      | lifecycle step => exact step.signalEffect
      | reader step => exact step.signalEffect ordered
      | cleanup step => exact step.signalEffect
      | flusher step => exact step.signalEffect

end Effects

section Runs

variable {deployment : Deployment} {start world after : World}

/-- A call of `_apply` that returns true has executed its insert. -/
theorem executedInsert_of_true {consumer later : Consumer} {shared written : SharedMemory}
    {msgId : MsgId} {fields : Option MessageFields}
    (returned : apply deployment.externals consumer shared msgId fields = (.ok true, later, written)) :
    executedInsert deployment consumer shared msgId fields ≠ none := by
  unfold apply at returned
  split at returned
  · cases returned
  · rename_i held
    split at returned
    · cases returned
    · cases returned
    · rename_i prepared rowBuffers ready
      have outcome := Except.ok.inj (Prod.mk.inj returned).1
      have same : Consumer.held { consumer with rowBuffers := rowBuffers } shared
        prepared.message.name = consumer.held shared prepared.message.name := rfl
      rw [finishApply, same] at outcome
      cases found : consumer.held shared prepared.message.name with
      | none =>
          rw [found] at outcome
          cases outcome
      | some pair =>
          obtain ⟨segmentName, segment⟩ := pair
          rw [found] at outcome
          cases result : (insert deployment.externals.hashId segment.layout
              prepared.request.entityId prepared.request.rowData).result segment.memory with
          | error error =>
              have failed : ((insert deployment.externals.hashId segment.layout
                prepared.request.entityId prepared.request.rowData).run segment.memory).1 =
                  .error error := result
              simp only [failed] at outcome
              cases outcome
          | ok fresh => simp [executedInsert, ready, found, result]

/-- A new record leaves the rows current that are not newer than it. -/
theorem RowCurrent.cons {inserted : List InsertRecord} {record : InsertRecord} {msgId : MsgId}
    (current : RowCurrent inserted msgId)
    (behind : ∀ own ∈ inserted, own.msgId = msgId → own.target = record.target →
      msgId ≤ record.msgId) : RowCurrent (record :: inserted) msgId := by
  obtain ⟨own, member, named, newest⟩ := current
  refine ⟨own, List.mem_cons_of_mem _ member, named, ?_⟩
  intro latest found
  by_cases same : record.target = own.target
  · rw [newestRecord, List.find?_cons_of_pos (by simpa using same)] at found
    obtain rfl := Option.some.inj found
    exact behind own member named same.symm
  · rw [newestRecord, List.find?_cons_of_neg (by simpa using same)] at found
    exact newest latest found

theorem RowCurrent.new (inserted : List InsertRecord) (record : InsertRecord) :
    RowCurrent (record :: inserted) record.msgId := by
  refine ⟨record, List.mem_cons_self, rfl, ?_⟩
  intro latest found
  rw [newestRecord, List.find?_cons_of_pos (by simp)] at found
  obtain rfl := Option.some.inj found
  exact le_rfl

/-- The record of a message that is applied leaves every set or promised row current. -/
theorem Signalled.behind (facts : DrainFacts deployment start world)
    (forward : ReplaysForward deployment world) (before : Signalled world) {run : Run}
    {origin : BatchOrigin} {fields : Option MessageFields} {rest : Batch} {applied : List MsgId}
    {record : InsertRecord} (live : world.run = some run)
    (phase : run.reader = .applying origin ((record.msgId, fields) :: rest) applied)
    (executed : executedInsert deployment run.consumer world.shared record.msgId fields =
      some record) {msgId : MsgId} (known : msgId ∈ world.processed ∨ msgId ∈ applied) :
    ∀ own ∈ world.inserted, own.msgId = msgId → own.target = record.target →
      msgId ≤ record.msgId := by
  intro own member named same
  rcases known with processed | pending
  · cases origin with
    | loop =>
        have newer := facts.arrivals.newer run live record.msgId (by
          rw [phase]
          exact List.mem_cons_self) own member
        exact named ▸ newer.le
    | drain lastId =>
        cases fields with
        | none => cases executed
        | some fields =>
            have home := facts.homely.run run live
            obtain ⟨message, recordOf⟩ :=
              executedInsert_recordOf home facts.initial.served executed
            have target := recordOf.target home
            have ahead := forward run lastId record.msgId fields rest applied live phase own member
              (named ▸ processed) (target.trans (congrArg some same.symm))
            exact named ▸ ahead
  · have sorted := before.sorted run live
    rw [phase] at sorted
    exact ((List.pairwise_append.mp sorted).2.2 msgId pending record.msgId
      List.mem_cons_self).le

/-- Every step keeps the set and the promised rows current when the drain goes forward. -/
theorem SignalEffect.signalled_kept (effect : SignalEffect deployment world after)
    (facts : DrainFacts deployment start world) (forward : ReplaysForward deployment world)
    (before : Signalled world) : Signalled after := by
  have only : ∀ {next other : Run}, after.run = some next → after.run = some other → other = next :=
    fun now same => Option.some.inj (same.symm.trans now)
  cases effect with
  | idle inserted processed empty =>
      refine ⟨?_, ?_, ?_⟩
      · rw [inserted, processed]
        exact before.processed
      · intro run live msgId member
        rw [(empty run live).1] at member
        cases member
      · intro run live
        rw [(empty run live).1, (empty run live).2]
        exact List.Pairwise.nil
  | @kept run next live now inserted processed appliedIds batch =>
      refine ⟨?_, ?_, ?_⟩
      · rw [inserted, processed]
        exact before.processed
      · intro other same
        obtain rfl := only now same
        rw [inserted, appliedIds]
        exact before.batch run live
      · intro other same
        obtain rfl := only now same
        rw [appliedIds, batch]
        exact before.sorted run live
  | @loaded next now inserted processed appliedIds sorted =>
      refine ⟨?_, ?_, ?_⟩
      · rw [inserted, processed]
        exact before.processed
      · intro other same msgId member
        obtain rfl := only now same
        rw [appliedIds] at member
        cases member
      · intro other same
        obtain rfl := only now same
        rw [appliedIds, List.nil_append]
        exact sorted
  | @signalled run keys live inserted among processed empty =>
      refine ⟨?_, ?_, ?_⟩
      · rw [inserted, processed]
        intro msgId member
        rcases List.mem_append.mp member with old | new
        · exact before.processed msgId old
        · exact before.batch run live msgId (among new)
      · intro other same msgId member
        rw [(empty other same).1] at member
        cases member
      · intro other same
        rw [(empty other same).1, (empty other same).2]
        exact List.Pairwise.nil
  | @applied run next origin msgId fields rest early outcome consumer shared live now phase returned
      turned inserted processed =>
      have sorted := before.sorted run live
      have promised := before.batch run live
      rw [phase] at sorted promised
      change (early ++ msgId :: rest.map Prod.fst).Pairwise (· < ·) at sorted
      have kept : ∀ other, other ∈ world.processed ∨ other ∈ early →
          RowCurrent after.inserted other := by
        intro other known
        have current : RowCurrent world.inserted other :=
          known.elim (before.processed other) (promised other)
        rw [inserted]
        cases executed : executedInsert deployment run.consumer world.shared msgId fields with
        | none => exact current
        | some record =>
            have named : record.msgId = msgId := executedInsert_msgId (by
              rw [executed]
              exact List.mem_cons_self)
            subst named
            exact current.cons (before.behind facts forward live phase executed known)
      refine ⟨?_, ?_, ?_⟩
      · rw [processed]
        exact fun other member => kept other (Or.inl member)
      · intro other same
        obtain rfl := only now same
        rw [turned]
        intro promisedId member
        cases outcome with
        | false => exact kept promisedId (Or.inr member)
        | true =>
            rcases List.mem_append.mp member with old | new
            · exact kept promisedId (Or.inr old)
            · obtain rfl := List.mem_singleton.mp new
              obtain ⟨record, executed⟩ :=
                Option.ne_none_iff_exists'.mp (executedInsert_of_true returned)
              have named : record.msgId = promisedId := executedInsert_msgId (by
                rw [executed]
                exact List.mem_cons_self)
              rw [inserted, executed, ← named]
              exact RowCurrent.new world.inserted record
      · intro other same
        obtain rfl := only now same
        rw [turned]
        cases outcome with
        | false =>
            refine sorted.sublist ?_
            exact List.Sublist.append_left (List.sublist_cons_self _ _) _
        | true =>
            change ((early ++ [msgId]) ++ rest.map Prod.fst).Pairwise (· < ·)
            rw [List.append_assoc]
            exact sorted

theorem World.Initial.signalled (initial : start.Initial deployment) : Signalled start := by
  refine ⟨?_, ?_, ?_⟩
  · rw [initial.processed]
    exact fun msgId member => absurd member List.not_mem_nil
  · rw [initial.run]
    exact fun run live => by cases live
  · rw [initial.run]
    exact fun run live => by cases live

/-- The set keys stay behind the rows over a whole run of forward steps. -/
theorem forward_run (initial : start.Initial deployment)
    (steps : Relation.ReflTransGen (ForwardStep deployment) start world) :
    DrainFacts deployment start world ∧ Signalled world := by
  induction steps with
  | refl => exact ⟨initial.drainFacts, initial.signalled⟩
  | tail _ step ih =>
      exact ⟨ih.1.step step.1,
        (step.1.signalEffect ih.1.ordered).signalled_kept ih.1 step.2 ih.2⟩

/-- A producer reads its own write, or a later one, in every world of a forward run. -/
theorem readsOwnWrites_of_forward (initial : start.Initial deployment)
    (steps : Relation.ReflTransGen (ForwardStep deployment) start world) :
    ReadsOwnWrites deployment world := by
  obtain ⟨facts, signalled⟩ := forward_run initial steps
  intro msgId member
  obtain ⟨own, inside, named, newest⟩ := signalled.processed msgId member
  have found : (newestRecord world.inserted own.target).isSome := by
    rw [newestRecord, List.find?_isSome]
    exact ⟨own, inside, by simp⟩
  obtain ⟨latest, search⟩ := Option.isSome_iff_exists.mp found
  obtain ⟨latestInside, same, serves⟩ := facts.serves search
  exact ⟨own, inside, named, latest, latestInside, same, newest latest search, serves⟩

end Runs

/-- The first sample message is applied, and replayed by a drain behind a crash. -/
theorem sampleReplayed_steps : ∃ (world : World) (run : Run),
    Relation.ReflTransGen (ForwardStep sampleDeployment) sampleWorld world ∧
    world.produced = [sampleFirst] ∧ world.processed = [MsgId.of 1 0, MsgId.of 1 0] ∧
    world.run = some run ∧ run.reader = .draining (MsgId.of 1 0) := by
  obtain ⟨first, written, rowData, applied, _, _, steps⟩ :=
    @sampleConsumed_steps 1 (by decide) (by decide) 0x3ff0000000000000 [0, 0, 0x80, 0x3f] (by decide)
      rfl 0 [48] (by decide) (by decide)
  obtain ⟨consumer, rewritten, newRow, reapplied, _, _⟩ :=
    sampleFirst_apply applied.serving.restart (by simp [presentIds])
  have crash : CalmStep sampleDeployment (sampleConsumed sampleFirst first written rowData)
      { sampleConsumed sampleFirst first written rowData with run := none } :=
    calm_of_run (.consumer (.lifecycle .crash)) rfl applied.stopEvent rfl (by simp) (by simp) (by simp)
      (by simp)
  have replay := @replay_steps sampleDeployment
    { sampleConsumed sampleFirst first written rowData with run := none } sampleFirst consumer rewritten
    (MsgId.of 1 0) [] rfl rfl (by decide) applied.serving.opened rfl (by decide) rfl rfl
    reapplied.returned
  have crashed := Relation.ReflTransGen.mono (fun _ _ step => CalmStep.forward step) _ _
    (steps.tail crash)
  have forward := Relation.ReflTransGen.mono (fun _ _ step => ReplayStep.forward step ?_) _ _ replay
  · exact ⟨_, _, crashed.trans forward, rfl, rfl, rfl, rfl⟩
  · intro record listed _ _
    obtain rfl := List.mem_singleton.mp listed
    exact le_refl (MsgId.of 1 0)

/-- Behind a crash and the replay of the first sample message the producer reads its row. -/
theorem readsOwnWrites_of_forward_sample : ∃ (world : World) (run : Run), world.run = some run ∧
    run.reader = .draining (MsgId.of 1 0) ∧ world.processed = [MsgId.of 1 0, MsgId.of 1 0] ∧
    ReadsOwnWrites sampleDeployment world := by
  obtain ⟨world, run, steps, _, processed, live, phase⟩ := sampleReplayed_steps
  exact ⟨world, run, live, phase, processed, readsOwnWrites_of_forward sampleWorld_initial steps⟩

/-- A restart puts the row of a replayed message back over the row of a signalled newer one. -/
theorem readsOwnWrites_replayed : ∃ world : World,
    Relation.ReflTransGen (SmoothStep sampleDeployment) sampleWorld world ∧
    sampleWorld.Initial sampleDeployment ∧ MsgId.of 2 0 ∈ world.processed ∧
    ¬ ReadsOwnWrites sampleDeployment world := by
  obtain ⟨after, written, oldRow, rowData, serving, score, _, steps⟩ := sampleTwice_steps
  obtain ⟨replayed, rewritten, again, applied, oldScore, _⟩ :=
    sampleFirst_apply serving.restart (by simp [presentIds])
  have crashed := (smooth_of_calm steps).tail (c := { sampleTwice after written oldRow rowData with run := none })
    ⟨.consumer (.lifecycle .crash), smooth_of_run rfl rfl (by simp)⟩
  have drained := @replay_steps sampleDeployment
    { sampleTwice after written oldRow rowData with run := none } sampleFirst replayed
    rewritten (MsgId.of 2 0) [MsgId.of 2 0] rfl rfl (by decide) serving.opened rfl (by decide) rfl rfl
    applied.returned
  have smooth := Relation.ReflTransGen.mono (fun _ _ step => step.smooth) _ _ drained
  refine ⟨_, crashed.trans smooth, sampleWorld_initial, ?_, ?_⟩
  · simp [sampleTwice]
  intro reads
  have executed : executedInsert sampleDeployment (freshConsumer sampleDeployment sampleWorld.current)
      written sampleFirst.id (some sampleFirst.fields) =
      some ⟨MsgId.of 1 0, "segment", ⟨"a", again⟩⟩ := applied.executed
  obtain ⟨own, _, _, later, inside, _, newer, serves⟩ :=
    reads (MsgId.of 2 0) (by simp [sampleTwice])
  have second : later = ⟨MsgId.of 2 0, "segment", ⟨"a", rowData⟩⟩ := by
    rcases List.mem_append.mp inside with replay | old
    · have same : later = ⟨MsgId.of 1 0, "segment", ⟨"a", again⟩⟩ :=
        Option.some.inj ((Option.mem_toList.mp replay).symm.trans executed)
      rw [same] at newer
      exact absurd newer (show ¬ MsgId.of 2 0 ≤ MsgId.of 1 0 by decide)
    · rcases List.mem_pair.mp old with same | same
      · exact same
      · rw [same] at newer
        exact absurd newer (show ¬ MsgId.of 2 0 ≤ MsgId.of 1 0 by decide)
  rw [second] at serves
  have row : rowData = again := applied.serving.row serves
  rw [row, oldScore] at score
  exact absurd score (by decide)

end Quorin
