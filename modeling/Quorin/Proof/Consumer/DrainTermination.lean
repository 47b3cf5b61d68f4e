import Quorin.Library.Inevitable
import Quorin.Proof.Consumer.BatchOutcome
import Quorin.Proof.Consumer.ReplayRuns

namespace Quorin

section Accepted

variable (externals : Externals)

/-- The ids of a batch whose `_apply` returns true, one message after the other. -/
def acceptedIds (consumer : Consumer) (shared : SharedMemory) (batch : Batch) : List MsgId :=
  ((applyBatch externals consumer shared batch []).1.toOption).getD []

variable {externals} {consumer : Consumer} {shared : SharedMemory}

/-- `_apply` neither reads nor changes the ids that wait for their acknowledgement. -/
theorem apply_pendingAck (waiting : List MsgId) (msgId : MsgId) (fields : Option MessageFields) :
    apply externals { consumer with pendingAck := waiting } shared msgId fields =
      ((apply externals consumer shared msgId fields).1,
        { (apply externals consumer shared msgId fields).2.1 with pendingAck := waiting },
        (apply externals consumer shared msgId fields).2.2) := by
  cases fields with
  | none => rfl
  | some fields =>
      have prepared : prepareInsert externals { consumer with pendingAck := waiting } fields =
          prepareInsert externals consumer fields := rfl
      simp only [apply, prepared]
      cases prepareInsert externals consumer fields with
      | mk result rowBuffers =>
          cases result with
          | error exception => rfl
          | ok call =>
              cases call with
              | none => rfl
              | some call =>
                  simp only [finishApply, Consumer.held]
                  cases (consumer.segments call.message.name).bind fun segmentName =>
                      (shared segmentName).map fun segment => (segmentName, segment) with
                  | none => rfl
                  | some held =>
                      obtain ⟨segmentName, segment⟩ := held
                      dsimp only
                      split
                      · rfl
                      · split
                        · split <;> rfl
                        · rfl

/-- The loop neither reads nor changes the ids that wait for their acknowledgement. -/
theorem applyBatch_pendingAck (waiting : List MsgId) {batch : Batch} {before : List MsgId} :
    applyBatch externals { consumer with pendingAck := waiting } shared batch before =
      ((applyBatch externals consumer shared batch before).1,
        { (applyBatch externals consumer shared batch before).2.1 with pendingAck := waiting },
        (applyBatch externals consumer shared batch before).2.2) := by
  induction batch generalizing consumer shared before with
  | nil => rfl
  | cons item rest ih =>
      obtain ⟨msgId, fields⟩ := item
      rw [applyBatch, apply_pendingAck, applyBatch]
      cases apply externals consumer shared msgId fields with
      | mk result state =>
          obtain ⟨after, written⟩ := state
          cases result with
          | error exception => rfl
          | ok outcome => exact ih

/-- The ids that were collected before stay in front. -/
theorem applyBatch_before {batch : Batch} (before : List MsgId) :
    applyBatch externals consumer shared batch before =
      ((applyBatch externals consumer shared batch []).1.map (before ++ ·),
        (applyBatch externals consumer shared batch []).2) := by
  induction batch generalizing consumer shared before with
  | nil => simp [applyBatch, Except.map]
  | cons item rest ih =>
      obtain ⟨msgId, fields⟩ := item
      simp only [applyBatch]
      cases apply externals consumer shared msgId fields with
      | mk result state =>
          obtain ⟨after, written⟩ := state
          cases result with
          | error exception => rfl
          | ok outcome =>
              dsimp only
              rw [ih, @ih _ _ (if outcome then [] ++ [msgId] else [])]
              cases (applyBatch externals after written rest []).1 with
              | error exception => rfl
              | ok applied => cases outcome <;> simp [Except.map]

/-- The loop over two batches in a row. -/
theorem applyBatch_append {first second : Batch} {before applied : List MsgId} {after : Consumer}
    {written : SharedMemory}
    (returned : applyBatch externals consumer shared first before = (.ok applied, after, written)) :
    applyBatch externals consumer shared (first ++ second) before =
      applyBatch externals after written second applied := by
  induction first generalizing consumer shared before with
  | nil =>
      cases returned
      rfl
  | cons item rest ih =>
      obtain ⟨msgId, fields⟩ := item
      simp only [applyBatch, List.cons_append] at returned ⊢
      cases step : apply externals consumer shared msgId fields with
      | mk result state =>
          obtain ⟨next, memory⟩ := state
          rw [step] at returned
          cases result with
          | error exception => cases returned
          | ok outcome => exact ih returned

/-- The accepted ids do not depend on the ids that wait for their acknowledgement. -/
theorem acceptedIds_pendingAck (waiting : List MsgId) (batch : Batch) :
    acceptedIds externals { consumer with pendingAck := waiting } shared batch =
      acceptedIds externals consumer shared batch := by
  simp only [acceptedIds, applyBatch_pendingAck]

/-- The ids that a batch accepts behind a batch that came to its end. -/
theorem acceptedIds_append {first second : Batch} {applied : List MsgId} {after : Consumer}
    {written : SharedMemory}
    (returned : applyBatch externals consumer shared first [] = (.ok applied, after, written))
    (returns : ∃ later, (applyBatch externals after written second []).1 = .ok later) :
    acceptedIds externals consumer shared (first ++ second) =
      applied ++ acceptedIds externals after written second := by
  obtain ⟨later, returns⟩ := returns
  simp only [acceptedIds, applyBatch_append returned, returns]
  rw [applyBatch_before, returns]
  rfl

/-- A batch accepts at most as many ids as it has messages. -/
theorem acceptedIds_length {batch : Batch} :
    (acceptedIds externals consumer shared batch).length ≤ batch.length := by
  induction batch generalizing consumer shared with
  | nil => simp [acceptedIds, applyBatch, Except.toOption]
  | cons item rest ih =>
      obtain ⟨msgId, fields⟩ := item
      simp only [acceptedIds, applyBatch]
      cases apply externals consumer shared msgId fields with
      | mk result state =>
          obtain ⟨after, written⟩ := state
          cases result with
          | error exception => simp [Except.toOption]
          | ok outcome =>
              have rests := @ih after written
              simp only [acceptedIds] at rests
              dsimp only
              rw [applyBatch_before]
              cases found : (applyBatch externals after written rest []).1 with
              | error exception => simp [Except.map, Except.toOption]
              | ok applied =>
                  rw [found] at rests
                  simp only [Except.toOption, Option.getD_some] at rests
                  simp only [Except.map, Except.toOption, Option.getD_some, List.length_append,
                    List.length_cons]
                  cases outcome <;> simp <;> omega

/-- The loop keeps the schemas, the waiting ids and the stop request. -/
theorem applyBatch_frame {batch : Batch} {before : List MsgId} :
    (applyBatch externals consumer shared batch before).2.1.schemas = consumer.schemas ∧
    (applyBatch externals consumer shared batch before).2.1.pendingAck = consumer.pendingAck ∧
    (applyBatch externals consumer shared batch before).2.1.stopEvent = consumer.stopEvent := by
  induction batch generalizing consumer shared before with
  | nil => exact ⟨rfl, rfl, rfl⟩
  | cons item rest ih =>
      obtain ⟨msgId, fields⟩ := item
      have frame := @apply_frame externals consumer shared msgId fields
      rw [applyBatch]
      generalize apply externals consumer shared msgId fields = result at frame
      obtain ⟨result, after, written⟩ := result
      cases result with
      | error exception => exact ⟨frame.schemas, frame.pendingAck, frame.stopEvent⟩
      | ok outcome =>
          obtain ⟨schemas, pendingAck, stopEvent⟩ :=
            @ih after written (if outcome then before ++ [msgId] else before)
          exact ⟨schemas.trans frame.schemas, pendingAck.trans frame.pendingAck,
            stopEvent.trans frame.stopEvent⟩

end Accepted

section Steps

variable (deployment : Deployment)

/-- A step of `_drain_pel` without an error. -/
def DrainStep (before after : World) : Prop :=
  ReaderStep deployment before after ∧ ∃ run next, before.run = some run ∧ after.run = some next ∧
    run.reader.gate = .draining ∧ next.reader ≠ .ended

/-- The step that a drain takes next while nobody stops it. -/
def drainNext (world : World) (run : Run) : Option World :=
  match run.reader with
  | .starting =>
      some { world with
        group := some (world.group.getD ⟨MsgId.of 0 0, []⟩)
        run := some { run with reader := .draining (MsgId.of 0 0) } }
  | .draining lastId =>
      world.group.map fun group =>
        match world.pendingBatch deployment group lastId with
        | [] => { world with drained := true, run := some { run with reader := .announcing } }
        | first :: others => world.withRun { run with
            reader := .batching (.drain ((first :: others).getLastD first).1) (first :: others) }
  | .batching origin batch =>
      if run.consumer.pendingAck.length < 2 * deployment.maxPendingAck then
        some (world.withRun { run with reader := .applying origin batch [] })
      else none
  | .applying origin ((msgId, fields) :: rest) applied =>
      match apply deployment.externals run.consumer world.shared msgId fields with
      | (.error _, _, _) => none
      | (.ok outcome, consumer, shared) =>
          some { world with
            shared := shared
            inserted := (executedInsert deployment run.consumer world.shared msgId fields).toList ++
              world.inserted
            run := some { run with
              consumer := consumer
              reader := .applying origin rest (if outcome then applied ++ [msgId] else applied)
              passed := run.passed ++ [msgId] } }
  | .applying origin [] [] => some (world.withRun { run with reader := origin.next })
  | .applying origin [] applied => some (world.withRun { run with reader := .setting origin applied })
  | .setting origin applied =>
      some { world with
        processed := world.processed ++ applied
        run := some { run with
          consumer := { run.consumer with pendingAck := run.consumer.pendingAck ++ applied }
          reader := origin.next } }
  | _ => none

variable {deployment} {world after : World} {run : Run}

/-- A drain that nobody stops has one way on. -/
theorem DrainStep.next (step : DrainStep deployment world after) (live : world.run = some run)
    (absent : run.flusher = .absent) (running : run.consumer.stopEvent = false) :
    drainNext deployment world run = some after := by
  obtain ⟨step, old, next, same, now, gate, going⟩ := step
  obtain rfl := Option.some.inj (live.symm.trans same)
  have inside : ∀ {other : Run} {phase : ReaderPhase}, world.run = some other →
      other.reader = phase → phase.gate = .draining := by
    intro other phase here named
    obtain rfl := Option.some.inj (live.symm.trans here)
    rw [← named]
    exact gate
  cases step with
  | ensureGroup here phase =>
      obtain rfl := Option.some.inj (live.symm.trans here)
      simp only [drainNext, phase]
  | drainStopped here phase stopped =>
      obtain rfl := Option.some.inj (live.symm.trans here)
      exact absurd (running.symm.trans stopped) (by simp)
  | drainRead here phase started present counted batch =>
      obtain rfl := Option.some.inj (live.symm.trans here)
      simp only [drainNext, phase, present, Option.map_some, batch]
  | drainEnd here phase started present counted empty =>
      obtain rfl := Option.some.inj (live.symm.trans here)
      simp only [drainNext, phase, present, Option.map_some, empty]
  | announce here phase => cases inside here phase
  | leave here phase => cases inside here phase
  | read here phase => cases inside here phase
  | checkClear here phase => cases inside here phase
  | checkPaused here phase => cases inside here phase
  | checkFlushed here phase => cases inside here phase
  | checkNotFlushed here phase => cases inside here phase
  | pauseAcked here phase => cases inside here phase
  | pauseAckLost here phase => cases inside here phase
  | parkedRefresh here phase => cases inside here phase
  | parkedStopped here phase => cases inside here phase
  | resume here phase => cases inside here phase
  | refresh here phase => cases inside here phase
  | startBatch here phase room =>
      obtain rfl := Option.some.inj (live.symm.trans here)
      have free := room.resolve_right (by simp [running])
      simp only [drainNext, phase, free, if_true]
  | applyReturns here phase returned =>
      obtain rfl := Option.some.inj (live.symm.trans here)
      simp only [drainNext, phase, returned]
  | applyRaises here phase raised =>
      obtain rfl := Option.some.inj (live.symm.trans here)
      obtain rfl := Option.some.inj now
      exact absurd (raised_absent absent) going
  | batchRefused here phase =>
      obtain rfl := Option.some.inj (live.symm.trans here)
      simp only [drainNext, phase]
  | batchApplied here phase nonempty =>
      obtain rfl := Option.some.inj (live.symm.trans here)
      simp only [drainNext, phase]
  | keysSet here phase =>
      obtain rfl := Option.some.inj (live.symm.trans here)
      simp only [drainNext, phase]
  | keysFailed here phase keys among =>
      obtain rfl := Option.some.inj (live.symm.trans here)
      obtain rfl := Option.some.inj now
      exact absurd (raised_absent absent) going
  | raises here awaits =>
      obtain rfl := Option.some.inj (live.symm.trans here)
      obtain rfl := Option.some.inj now
      exact absurd (raised_absent absent) going

/-- A drain is over when it read to the end and passed the given ids to `_apply`. -/
def DrainedAll (target : List MsgId) (world : World) : Prop :=
  ∃ run, world.run = some run ∧ run.reader = .announcing ∧ world.drained = true ∧
    run.passed = target

variable {target : List MsgId}

/-- A drain comes to its end as it does behind its next step. -/
theorem DrainStep.inevitable_iff (step : DrainStep deployment world after)
    (live : world.run = some run) (absent : run.flusher = .absent)
    (running : run.consumer.stopEvent = false) :
    Inevitable (DrainStep deployment) (DrainedAll target) world ↔
      Inevitable (DrainStep deployment) (DrainedAll target) after := by
  refine Inevitable.iff_next ?_ step ?_
  · rintro ⟨other, here, announcing, _⟩
    obtain ⟨_, old, _, same, _, gate, _⟩ := step
    obtain rfl := Option.some.inj (here.symm.trans same)
    rw [announcing] at gate
    cases gate
  · intro other taken
    have next := taken.next live absent running
    rw [step.next live absent running] at next
    exact (Option.some.inj next).symm

/-- A full list of waiting ids blocks the drain for good. -/
theorem drain_blocked {lastId : MsgId} {batch : Batch} (live : world.run = some run)
    (phase : run.reader = .batching (.drain lastId) batch) (absent : run.flusher = .absent)
    (running : run.consumer.stopEvent = false)
    (full : 2 * deployment.maxPendingAck ≤ run.consumer.pendingAck.length) :
    ¬ Inevitable (DrainStep deployment) (DrainedAll target) world := by
  refine Inevitable.not_of_stuck ?_ ?_
  · rintro ⟨other, here, announcing, _⟩
    obtain rfl := Option.some.inj (live.symm.trans here)
    cases phase.symm.trans announcing
  · intro next taken
    have none := taken.next live absent running
    simp only [drainNext, phase, if_neg (Nat.not_lt.mpr full)] at none
    cases none

/-- The drain comes to its end as it does behind the loop over its batch. -/
theorem drain_applying_iff {lastId : MsgId} {batch : Batch} {before applied : List MsgId}
    {consumer : Consumer} {shared : SharedMemory} (live : world.run = some run)
    (phase : run.reader = .applying (.drain lastId) batch before) (absent : run.flusher = .absent)
    (running : run.consumer.stopEvent = false)
    (returned : applyBatch deployment.externals run.consumer world.shared batch before =
      (.ok applied, consumer, shared)) :
    ∃ inserted, Inevitable (DrainStep deployment) (DrainedAll target) world ↔
      Inevitable (DrainStep deployment) (DrainedAll target)
        { world with
          shared := shared
          inserted := inserted
          run := some { run with
            consumer := consumer
            reader := .applying (.drain lastId) [] applied
            passed := run.passed ++ batch.map Prod.fst } } := by
  induction batch generalizing world run before with
  | nil =>
      obtain ⟨same, rest⟩ := Prod.mk.inj returned
      obtain ⟨sameConsumer, sameShared⟩ := Prod.mk.inj rest
      obtain rfl := Except.ok.inj same
      refine ⟨world.inserted, ?_⟩
      rw [← sameConsumer, ← sameShared, List.map_nil, List.append_nil, ← phase]
      have unchanged : world = { world with run := some run } := by rw [← live]
      rw [← unchanged]
  | cons item rest ih =>
      obtain ⟨msgId, fields⟩ := item
      have frame := @apply_frame deployment.externals run.consumer world.shared msgId fields
      rw [applyBatch] at returned
      cases step : apply deployment.externals run.consumer world.shared msgId fields with
      | mk result state =>
          obtain ⟨after, written⟩ := state
          rw [step] at returned frame
          cases result with
          | error exception => cases returned
          | ok outcome =>
              let next : World := { world with
                shared := written
                inserted := (executedInsert deployment run.consumer world.shared msgId fields).toList ++
                  world.inserted
                run := some { run with
                  consumer := after
                  reader := .applying (.drain lastId) rest
                    (if outcome then before ++ [msgId] else before)
                  passed := run.passed ++ [msgId] } }
              have turned : DrainStep deployment world next :=
                ⟨.applyReturns live phase step, _, _, live, rfl, by rw [phase]; rfl, by simp⟩
              obtain ⟨inserted, later⟩ :=
                @ih next _ _ rfl rfl absent (frame.stopEvent.trans running) returned
              refine ⟨inserted, (turned.inevitable_iff live absent running).trans ?_⟩
              simpa only [List.map_cons, List.append_assoc, List.singleton_append] using later

/-- The drain comes to its end as it does behind the read batch. -/
theorem drain_batch_iff {lastId : MsgId} {batch : Batch} {applied : List MsgId}
    {consumer : Consumer} {shared : SharedMemory} (live : world.run = some run)
    (phase : run.reader = .batching (.drain lastId) batch) (absent : run.flusher = .absent)
    (running : run.consumer.stopEvent = false)
    (room : run.consumer.pendingAck.length < 2 * deployment.maxPendingAck)
    (returned : applyBatch deployment.externals run.consumer world.shared batch [] =
      (.ok applied, consumer, shared)) :
    ∃ inserted processed, Inevitable (DrainStep deployment) (DrainedAll target) world ↔
      Inevitable (DrainStep deployment) (DrainedAll target)
        { world with
          shared := shared
          inserted := inserted
          processed := processed
          run := some { run with
            consumer := { consumer with pendingAck := run.consumer.pendingAck ++ applied }
            reader := .draining lastId
            passed := run.passed ++ batch.map Prod.fst } } := by
  have frame := @applyBatch_frame deployment.externals run.consumer world.shared batch []
  rw [returned] at frame
  obtain ⟨_, waiting, stopEvent⟩ := frame
  have started : DrainStep deployment world
      (world.withRun { run with reader := .applying (.drain lastId) batch [] }) :=
    ⟨.startBatch live phase (Or.inl room), _, _, live, rfl, by rw [phase]; rfl, by simp⟩
  obtain ⟨inserted, looped⟩ := @drain_applying_iff deployment
    (world.withRun { run with reader := .applying (.drain lastId) batch [] }) _ target lastId batch []
    applied consumer shared rfl rfl absent running returned
  have begun := (started.inevitable_iff live absent running).trans looped
  have still : consumer.stopEvent = false := stopEvent.trans running
  have kept : consumer.pendingAck = run.consumer.pendingAck := waiting
  let done : World := { world with
    shared := shared
    inserted := inserted
    run := some { run with
      consumer := consumer
      reader := .applying (.drain lastId) [] applied
      passed := run.passed ++ batch.map Prod.fst } }
  cases applied with
  | nil =>
      refine ⟨inserted, world.processed, begun.trans ?_⟩
      rw [List.append_nil, ← kept]
      have refused : ReaderStep deployment done _ := .batchRefused rfl rfl
      exact DrainStep.inevitable_iff ⟨refused, _, _, rfl, rfl, rfl, nofun⟩ rfl absent still
  | cons first others =>
      refine ⟨inserted, world.processed ++ first :: others, begun.trans ?_⟩
      rw [← kept]
      have collected : ReaderStep deployment done _ := .batchApplied rfl rfl (by simp)
      refine (DrainStep.inevitable_iff
        ⟨collected, _, _, rfl, rfl, rfl, nofun⟩ rfl absent still).trans ?_
      have keys : ReaderStep deployment (done.withRun { run with
          consumer := consumer
          reader := .setting (.drain lastId) (first :: others)
          passed := run.passed ++ batch.map Prod.fst }) _ := .keysSet rfl rfl
      exact DrainStep.inevitable_iff ⟨keys, _, _, rfl, rfl, rfl, nofun⟩ rfl absent still

/-- The entries that a drain has still to read, in the order of their ids. -/
structure DrainLeft (world : World) (run : Run) (group : Group) (lastId : MsgId)
    (left : List StreamEntry) : Prop where
  present : world.group = some group
  ids : (group.pending.filter fun msgId => lastId < msgId) = left.map StreamEntry.id
  sorted : (left.map StreamEntry.id).Pairwise (· < ·)
  stored : ∀ entry ∈ left, world.fieldsOf entry.id = some entry.fields
  complete : ∀ entry ∈ left, ¬ LacksEntity run.consumer.schemas entry.fields

/-- A drain reads the first entries that are left. -/
theorem DrainLeft.batch {group : Group} {lastId : MsgId} {left : List StreamEntry}
    (drainLeft : DrainLeft world run group lastId left) :
    world.pendingBatch deployment group lastId = batchOf (left.take deployment.batchCount) := by
  rw [World.pendingBatch, drainLeft.ids, ← List.map_take, List.map_map]
  refine List.map_congr_left ?_
  intro entry member
  rw [Function.comp_apply, drainLeft.stored entry (List.mem_of_mem_take member)]

/-- Behind a batch the entries that are left are the ones it did not hold. -/
theorem DrainLeft.behind {group : Group} {lastId : MsgId} {left taken rest : List StreamEntry}
    (drainLeft : DrainLeft world run group lastId left) {first : StreamEntry} (split : left = taken ++ rest)
    (last : taken.getLast? = some first) :
    (group.pending.filter fun msgId => first.id < msgId) = rest.map StreamEntry.id := by
  have member : first ∈ taken := List.mem_of_getLast? last
  have sorted := drainLeft.sorted
  rw [split, List.map_append] at sorted
  obtain ⟨early, _, across⟩ := List.pairwise_append.mp sorted
  have place : first.id ∈ group.pending.filter fun msgId => lastId < msgId := by
    rw [drainLeft.ids, split]
    exact List.mem_map_of_mem (List.mem_append_left _ member)
  have after : lastId < first.id := by simpa using (List.mem_filter.mp place).2
  have narrowed : (group.pending.filter fun msgId => first.id < msgId) =
      (group.pending.filter fun msgId => lastId < msgId).filter fun msgId => first.id < msgId := by
    rw [List.filter_filter]
    refine List.filter_congr ?_
    intro msgId _
    by_cases later : first.id < msgId
    · simp [later, after.trans later]
    · simp [later]
  rw [narrowed, drainLeft.ids, split, List.map_append, List.filter_append]
  have none : (taken.map StreamEntry.id).filter (fun msgId => first.id < msgId) = [] := by
    obtain ⟨front, rfl⟩ := List.getLast?_eq_some_iff.mp last
    rw [List.filter_eq_nil_iff]
    intro msgId held
    rw [List.map_append, List.map_singleton] at held early
    rcases List.mem_append.mp held with front | same
    · have older := (List.pairwise_append.mp early).2.2 msgId front first.id List.mem_cons_self
      simp [older.le]
    · obtain rfl := List.mem_singleton.mp same
      simp
  have all : (rest.map StreamEntry.id).filter (fun msgId => first.id < msgId) = rest.map StreamEntry.id := by
    refine List.filter_eq_self.mpr ?_
    intro msgId held
    simpa using across first.id (List.mem_map_of_mem member) msgId held
  rw [none, all, List.nil_append]

theorem batchOf_append (first second : List StreamEntry) :
    batchOf (first ++ second) = batchOf first ++ batchOf second := List.map_append

/-- The entries in front of the last batch of a drain. -/
def beforeLastBatch (batchCount : Nat) (entries : List StreamEntry) : List StreamEntry :=
  entries.take ((entries.length - 1) / batchCount * batchCount)

theorem beforeLastBatch_short {batchCount : Nat} {entries : List StreamEntry}
    (counted : 0 < batchCount) (short : entries.length ≤ batchCount) :
    beforeLastBatch batchCount entries = [] := by
  have less : (entries.length - 1) / batchCount = 0 := Nat.div_eq_of_lt (by omega)
  rw [beforeLastBatch, less, Nat.zero_mul, List.take_zero]

theorem beforeLastBatch_append {batchCount : Nat} {taken rest : List StreamEntry}
    (counted : 0 < batchCount) (full : taken.length = batchCount) (more : rest ≠ []) :
    beforeLastBatch batchCount (taken ++ rest) = taken ++ beforeLastBatch batchCount rest := by
  have positive : 0 < rest.length := List.length_pos_iff.mpr more
  have shift : (taken.length + rest.length - 1) / batchCount =
      (rest.length - 1) / batchCount + 1 := by
    rw [full, show batchCount + rest.length - 1 = rest.length - 1 + batchCount by omega,
      Nat.add_div_right _ counted]
  rw [beforeLastBatch, beforeLastBatch, List.length_append, shift, Nat.add_one_mul,
    Nat.add_comm _ batchCount, List.take_append, List.take_of_length_le (by omega), full,
    Nat.add_sub_cancel_left]

/-- The room condition of a drain follows its batches. -/
theorem room_iff_behind {taken rest : List StreamEntry} {applied : List MsgId} {after : Consumer}
    {written : SharedMemory} {consumer : Consumer} {shared : SharedMemory}
    (counted : 0 < deployment.batchCount) (short : taken.length ≤ deployment.batchCount)
    (full : rest ≠ [] → taken.length = deployment.batchCount)
    (room : consumer.pendingAck.length < 2 * deployment.maxPendingAck)
    (returned : applyBatch deployment.externals consumer shared (batchOf taken) [] =
      (.ok applied, after, written))
    (complete : ∀ entry ∈ rest, ¬ LacksEntity after.schemas entry.fields) :
    (rest = [] ∨ (consumer.pendingAck ++ applied).length + (acceptedIds deployment.externals
        { after with pendingAck := consumer.pendingAck ++ applied } written
        (batchOf (beforeLastBatch deployment.batchCount rest))).length < 2 * deployment.maxPendingAck) ↔
      consumer.pendingAck.length + (acceptedIds deployment.externals consumer shared
        (batchOf (beforeLastBatch deployment.batchCount (taken ++ rest)))).length <
          2 * deployment.maxPendingAck := by
  cases rest with
  | nil =>
      rw [List.append_nil, beforeLastBatch_short counted short]
      refine ⟨fun _ => ?_, fun _ => Or.inl rfl⟩
      simpa [batchOf, acceptedIds, applyBatch, Except.toOption] using room
  | cons entry others =>
      have returns : ∃ later, (applyBatch deployment.externals after written
          (batchOf (beforeLastBatch deployment.batchCount (entry :: others))) []).1 = .ok later := by
        refine applyBatch_returns ?_ written []
        exact fun other member => complete other (List.mem_of_mem_take member)
      rw [beforeLastBatch_append counted (full (by simp)) (by simp), batchOf_append,
        acceptedIds_append returned returns, acceptedIds_pendingAck]
      simp only [reduceCtorEq, false_or, List.length_append]
      omega

/-- A drain comes to its end exactly when the batches before the last one leave room. -/
theorem draining_iff {group : Group} {lastId : MsgId} {left : List StreamEntry}
    (counted : 0 < deployment.batchCount) (live : world.run = some run)
    (phase : run.reader = .draining lastId) (absent : run.flusher = .absent)
    (running : run.consumer.stopEvent = false)
    (drainLeft : DrainLeft world run group lastId left) :
    Inevitable (DrainStep deployment) (DrainedAll (run.passed ++ left.map StreamEntry.id)) world ↔
      left = [] ∨ run.consumer.pendingAck.length + (acceptedIds deployment.externals run.consumer
        world.shared (batchOf (beforeLastBatch deployment.batchCount left))).length <
          2 * deployment.maxPendingAck := by
  induction size_eq : left.length using Nat.strongRecOn generalizing world run lastId left with
  | ind size ih =>
      have draining : run.reader.gate = .draining := by rw [phase]; rfl
      by_cases done : left = []
      · subst done
        have empty : world.pendingBatch deployment group lastId = [] := by
          rw [drainLeft.batch, List.take_nil]
          rfl
        have ended : DrainStep deployment world _ :=
          ⟨.drainEnd live phase running drainLeft.present counted empty, _, _, live, rfl, draining,
            by simp⟩
        rw [ended.inevitable_iff live absent running]
        refine ⟨fun _ => Or.inl rfl, fun _ => .now ⟨_, rfl, rfl, rfl, ?_⟩⟩
        simp
      · obtain ⟨taken, takenEq⟩ : ∃ taken, taken = left.take deployment.batchCount := ⟨_, rfl⟩
        obtain ⟨rest, restEq⟩ : ∃ rest, rest = left.drop deployment.batchCount := ⟨_, rfl⟩
        have split : left = taken ++ rest := by
          rw [takenEq, restEq, List.take_append_drop]
        have short : taken.length ≤ deployment.batchCount := by
          rw [takenEq]
          exact List.length_take_le _ _
        have full : rest ≠ [] → taken.length = deployment.batchCount := by
          intro more
          have longer : deployment.batchCount < left.length := by
            rw [restEq] at more
            by_contra within
            exact more (List.drop_eq_nil_of_le (by omega))
          rw [takenEq, List.length_take, Nat.min_eq_left longer.le]
        have nonempty : taken ≠ [] := by
          rw [takenEq]
          simp only [ne_eq, List.take_eq_nil_iff, done, or_false]
          omega
        obtain ⟨front, last, shape⟩ : ∃ front last, taken = front ++ [last] :=
          ⟨_, _, (List.dropLast_append_getLast nonempty).symm⟩
        have read : world.pendingBatch deployment group lastId = batchOf taken := by
          rw [takenEq]
          exact drainLeft.batch
        obtain ⟨first, others, pair⟩ : ∃ first others, batchOf taken = first :: others :=
          List.exists_cons_of_ne_nil (by simpa [batchOf] using nonempty)
        have lastRead : ((first :: others).getLastD first).1 = last.id := by
          rw [List.getLastD_eq_getLast?, ← pair, shape, batchOf_append]
          simp [batchOf]
        have began : DrainStep deployment world _ :=
          ⟨.drainRead live phase running drainLeft.present counted (read.trans pair), _, _, live, rfl,
            draining, by simp⟩
        rw [lastRead, ← pair] at began
        rw [began.inevitable_iff live absent running]
        by_cases room : run.consumer.pendingAck.length < 2 * deployment.maxPendingAck
        · obtain ⟨applied, returned⟩ := @applyBatch_returns deployment.externals taken run.consumer
            (fun entry member => drainLeft.complete entry (by rw [split]; exact List.mem_append_left _ member))
            world.shared []
          cases result : applyBatch deployment.externals run.consumer world.shared (batchOf taken) [] with
          | mk outcome state =>
              obtain ⟨consumer, shared⟩ := state
              rw [result] at returned
              obtain rfl : outcome = .ok applied := returned
              have frame := @applyBatch_frame deployment.externals run.consumer world.shared
                (batchOf taken) []
              rw [result] at frame
              obtain ⟨inserted, processed, looped⟩ := @drain_batch_iff deployment
                (world.withRun { run with reader := .batching (.drain last.id) (batchOf taken) }) _
                (run.passed ++ left.map StreamEntry.id) last.id (batchOf taken) applied consumer shared
                rfl rfl absent running room result
              rw [looped]
              have passed : (batchOf taken).map Prod.fst = taken.map StreamEntry.id := by
                simp [batchOf, Function.comp_def]
              have target : run.passed ++ left.map StreamEntry.id =
                  (run.passed ++ (batchOf taken).map Prod.fst) ++ rest.map StreamEntry.id := by
                rw [passed, split, List.map_append, List.append_assoc]
              have fewer : rest.length < size := by
                rw [← size_eq, split, List.length_append]
                have some := List.length_pos_iff.mpr nonempty
                omega
              have restLeft : DrainLeft
                  { world with
                    shared := shared, inserted := inserted, processed := processed
                    run := some { run with
                      consumer := { consumer with pendingAck := run.consumer.pendingAck ++ applied }
                      reader := .draining last.id
                      passed := run.passed ++ (batchOf taken).map Prod.fst } }
                  { run with
                    consumer := { consumer with pendingAck := run.consumer.pendingAck ++ applied }
                    reader := .draining last.id
                    passed := run.passed ++ (batchOf taken).map Prod.fst } group last.id rest := by
                have sorted := drainLeft.sorted
                rw [split, List.map_append] at sorted
                have inside : ∀ entry ∈ rest, entry ∈ left := by
                  rw [split]
                  exact fun entry member => List.mem_append_right _ member
                refine ⟨drainLeft.present, ?_, (List.pairwise_append.mp sorted).2.1, ?_, ?_⟩
                · exact drainLeft.behind split (by rw [shape]; simp)
                · exact fun entry member => drainLeft.stored entry (inside entry member)
                · intro entry member
                  rw [show consumer.schemas = run.consumer.schemas from frame.1]
                  exact drainLeft.complete entry (inside entry member)
              have still : consumer.stopEvent = false := frame.2.2.trans running
              rw [target]
              refine (@ih rest.length fewer _ { run with
                consumer := { consumer with pendingAck := run.consumer.pendingAck ++ applied }
                reader := .draining last.id
                passed := run.passed ++ (batchOf taken).map Prod.fst }
                last.id rest rfl rfl absent still restLeft rfl).trans ?_
              refine (room_iff_behind counted short full room result restLeft.complete).trans ?_
              rw [← split]
              simp only [done, false_or]
        · have blocked := @drain_blocked deployment
            (world.withRun { run with reader := .batching (.drain last.id) (batchOf taken) }) _
            (run.passed ++ left.map StreamEntry.id) last.id (batchOf taken) rfl rfl absent running
            (not_lt.mp room)
          refine ⟨fun inevitable => absurd inevitable blocked, ?_⟩
          rintro (empty | room)
          · exact absurd empty done
          · omega

/-- When every message is accepted, the accepted ids in front of the last batch are its places. -/
theorem accepted_beforeLastBatch {externals : Externals} {consumer : Consumer} {shared : SharedMemory}
    {entries : List StreamEntry} (batchCount : Nat)
    (complete : ∀ entry ∈ entries, ¬ LacksEntity consumer.schemas entry.fields)
    (all : acceptedIds externals consumer shared (batchOf entries) = entries.map StreamEntry.id) :
    (acceptedIds externals consumer shared (batchOf (beforeLastBatch batchCount entries))).length =
      (entries.length - 1) / batchCount * batchCount := by
  have within : (entries.length - 1) / batchCount * batchCount ≤ entries.length :=
    (Nat.div_mul_le_self _ _).trans (Nat.sub_le _ _)
  have split : entries = beforeLastBatch batchCount entries ++
      entries.drop ((entries.length - 1) / batchCount * batchCount) :=
    (List.take_append_drop _ _).symm
  have size : (beforeLastBatch batchCount entries).length =
      (entries.length - 1) / batchCount * batchCount := by
    rw [beforeLastBatch, List.length_take, Nat.min_eq_left within]
  obtain ⟨applied, returned⟩ := @applyBatch_returns externals (beforeLastBatch batchCount entries) consumer
    (fun entry member => complete entry (List.mem_of_mem_take member)) shared []
  cases result : applyBatch externals consumer shared
      (batchOf (beforeLastBatch batchCount entries)) [] with
  | mk outcome state =>
      obtain ⟨after, written⟩ := state
      rw [result] at returned
      obtain rfl : outcome = .ok applied := returned
      have frame := @applyBatch_frame externals consumer shared
        (batchOf (beforeLastBatch batchCount entries)) []
      rw [result] at frame
      have returns := @applyBatch_returns externals
        (entries.drop ((entries.length - 1) / batchCount * batchCount)) after
        (fun entry member => by
          rw [show after.schemas = consumer.schemas from frame.1]
          exact complete entry (List.mem_of_mem_drop member)) written []
      have accepted := acceptedIds_append result returns
      rw [← batchOf_append, ← split, all] at accepted
      have lengths := congrArg List.length accepted
      have front := @acceptedIds_length externals consumer shared
        (batchOf (beforeLastBatch batchCount entries))
      have back := @acceptedIds_length externals after written
        (batchOf (entries.drop ((entries.length - 1) / batchCount * batchCount)))
      have ids : acceptedIds externals consumer shared (batchOf (beforeLastBatch batchCount entries)) =
          applied := by
        rw [acceptedIds, result]
        rfl
      rw [ids] at front ⊢
      simp only [batchOf, List.length_map, List.length_append, List.length_drop, size] at lengths front back
      omega

/-- The facts that a drain rests on hold in every run. -/
theorem drainFacts_of_steps {start : World} (initial : start.Initial deployment)
    (steps : Relation.ReflTransGen (WorldStep deployment) start world) :
    DrainFacts deployment start world := by
  induction steps with
  | refl => exact initial.drainFacts
  | tail _ step ih => exact ih.step step

/-- The call of `_drain_pel` passes every pending entry to `_apply` once, in id order, and returns. -/
def PelDrained (deployment : Deployment) (world : World) (run : Run) (group : Group) : Prop :=
  Inevitable (DrainStep deployment) (DrainedAll (run.passed ++ group.pending)) world ∧
    group.pending.Pairwise (· < ·)

/-- The drain returns exactly when the ids accepted before its last batch stay below the ceiling. -/
theorem pelDrained_iff (reachable : Reachable deployment world) (live : world.run = some run)
    (phase : run.reader = .draining (MsgId.of 0 0)) (running : run.consumer.stopEvent = false)
    (counted : 0 < deployment.batchCount) {group : Group} (present : world.group = some group)
    {entries : List StreamEntry} (pending : group.pending = entries.map StreamEntry.id)
    (stored : ∀ entry ∈ entries, world.fieldsOf entry.id = some entry.fields)
    (complete : ∀ entry ∈ entries, ¬ LacksEntity run.consumer.schemas entry.fields) :
    (PelDrained deployment world run group ↔
      entries = [] ∨ run.consumer.pendingAck.length + (acceptedIds deployment.externals run.consumer
        world.shared (batchOf (beforeLastBatch deployment.batchCount entries))).length <
          2 * deployment.maxPendingAck) ∧
    (acceptedIds deployment.externals run.consumer world.shared (batchOf entries) = group.pending →
      (PelDrained deployment world run group ↔
        entries = [] ∨ run.consumer.pendingAck.length +
          (entries.length - 1) / deployment.batchCount * deployment.batchCount <
            2 * deployment.maxPendingAck)) := by
  obtain ⟨start, initial, steps⟩ := reachable
  have facts := drainFacts_of_steps initial steps
  have absent := facts.absent live phase rfl
  have sorted := (facts.ordered.group group present).sorted
  have behind : (group.pending.filter fun msgId => MsgId.of 0 0 < msgId) =
      entries.map StreamEntry.id := by
    rw [pending]
    refine List.filter_eq_self.mpr ?_
    intro msgId member
    obtain ⟨entry, listed, rfl⟩ := List.mem_map.mp member
    obtain ⟨found, search, _⟩ := Option.map_eq_some_iff.mp (stored entry listed)
    have same : found.id = entry.id := by simpa using List.find?_some search
    have positive := facts.ordered.positive found
      (facts.ordered.recent.subset (List.mem_of_find?_eq_some search))
    rw [← same]
    simpa using positive
  have drainLeft : DrainLeft world run group (MsgId.of 0 0) entries :=
    ⟨present, behind, pending ▸ sorted, stored, complete⟩
  have drained := draining_iff counted live phase absent running drainLeft
  rw [← pending] at drained
  refine ⟨⟨fun both => drained.mp both.1, fun room => ⟨drained.mpr room, sorted⟩⟩, ?_⟩
  intro all
  rw [pending] at all
  rw [accepted_beforeLastBatch deployment.batchCount complete all] at drained
  exact ⟨fun both => drained.mp both.1, fun room => ⟨drained.mpr room, sorted⟩⟩

end Steps

/-- The sample process with room for two ids that wait for their acknowledgement. -/
def sampleTight : Deployment := { sampleDeployment with maxPendingAck := 1 }

/-- A sample message with the score one. -/
def sampleMessage (milliseconds : Nat) : StreamEntry := sampleEntry milliseconds 0x3ff0000000000000 0

/-- The sample process in its read loop, behind pauses that dropped all its messages. -/
def sampleBacklog (entries : List StreamEntry) : World :=
  { sampleWorld with
    produced := entries
    entries := entries
    group := some ⟨(entries.getLast?.map StreamEntry.id).getD (MsgId.of 0 0), entries.map StreamEntry.id⟩
    drained := true
    run := some ⟨freshConsumer sampleDeployment sampleWorld.current, .reading, .waiting,
      entries.map StreamEntry.id, []⟩ }

/-- A new sample process calls `_drain_pel`. -/
def sampleRecovering (entries : List StreamEntry) : World :=
  { sampleBacklog entries with
    drained := false
    run := some ⟨freshConsumer sampleDeployment sampleWorld.current, .draining (MsgId.of 0 0), .absent,
      [], []⟩ }

theorem sample_opened (entry : List UInt8 × FeatureSchema) (member : entry ∈ sampleTight.schemas) :
    ∃ segmentName, openCurrent sampleTight.externals sampleWorld.current sampleWorld.shared entry.1
      entry.2 = .reopened segmentName := by
  obtain rfl := List.mem_singleton.mp member
  exact ⟨"segment", openCurrent_self rfl rfl rfl sample_table⟩

/-- A pause drops the next message. -/
theorem sampleBacklog_next {front : List StreamEntry} {entry : StreamEntry}
    (positive : MsgId.of 0 0 < entry.id) (newer : ∀ other ∈ front, other.id < entry.id)
    (sorted : front.Pairwise fun first second => first.id < second.id) :
    Relation.ReflTransGen (WorldStep sampleTight) (sampleBacklog front)
      (sampleBacklog (front ++ [entry])) := by
  let offered : World :=
    { sampleBacklog front with produced := front ++ [entry], entries := front ++ [entry] }
  let group : Group :=
    ⟨(front.getLast?.map StreamEntry.id).getD (MsgId.of 0 0), front.map StreamEntry.id⟩
  have added : WorldStep sampleTight (sampleBacklog front) offered :=
    .environment (.xadd entry positive newer)
  have batch : offered.newBatch sampleTight group = [entry] := by
    have before : front.filter (fun other => group.lastDelivered < other.id) = [] := by
      rw [List.filter_eq_nil_iff]
      intro other member
      obtain ⟨early, last, rfl⟩ : ∃ early last, front = early ++ [last] :=
        ⟨_, _, (List.dropLast_append_getLast (List.ne_nil_of_mem member)).symm⟩
      have cursor : group.lastDelivered = last.id := by simp [group]
      rw [cursor]
      rcases List.mem_append.mp member with old | same
      · have older := (List.pairwise_append.mp sorted).2.2 other old last List.mem_cons_self
        simp [older.le]
      · obtain rfl := List.mem_singleton.mp same
        simp
    have behind : group.lastDelivered < entry.id := by
      cases last : front.getLast? with
      | none => simpa [group, last] using positive
      | some other => simpa [group, last] using newer other (List.mem_of_getLast? last)
    change (((front ++ [entry]).filter fun other => group.lastDelivered < other.id).take 1) = [entry]
    rw [List.filter_append, before]
    simp [behind]
  have dropped := @dropped_steps sampleTight offered _ group
    rfl rfl rfl rfl (by decide) rfl (encodeUtf8 "Sample") (by decide) (fun _ _ => rfl)
  have opened : openCurrent sampleExternals sampleWorld.current sampleWorld.shared
      (encodeUtf8 "Sample") sampleSchema = .reopened "segment" :=
    openCurrent_self rfl rfl rfl sample_table
  have kept : reopenSegments sampleTight.externals offered.current offered.shared sampleTight.schemas
      (freshConsumer sampleDeployment sampleWorld.current) =
      freshConsumer sampleDeployment sampleWorld.current := by
    change reopenSegments sampleExternals sampleWorld.current sampleWorld.shared
      [(encodeUtf8 "Sample", sampleSchema)] _ = _
    simp only [reopenSegments, opened]
    rfl
  rw [batch] at dropped
  dsimp only at dropped
  rw [kept] at dropped
  refine .head added ?_
  simpa [offered, group, sampleBacklog, Group.deliver, sampleWorld] using dropped

/-- A new sample process finds the dropped messages in its pending entries. -/
theorem sampleRecovering_reachable {entries : List StreamEntry}
    (positive : ∀ entry ∈ entries, MsgId.of 0 0 < entry.id)
    (sorted : entries.Pairwise fun first second => first.id < second.id) :
    Reachable sampleTight (sampleRecovering entries) := by
  have initial : sampleWorld.Initial sampleTight :=
    ⟨sampleWorld_initial.namesDistinct, rfl, rfl, rfl, rfl, rfl, rfl, rfl,
      sampleWorld_initial.segments, sampleWorld_initial.segmentsDistinct⟩
  have started : Relation.ReflTransGen (WorldStep sampleTight) sampleWorld (sampleBacklog []) :=
    Relation.ReflTransGen.mono (fun _ _ step => step.plain.1) _ _
      (startup_steps rfl (by decide) sample_opened (by simp [sampleWorld]) rfl false)
  have backlog : Relation.ReflTransGen (WorldStep sampleTight) sampleWorld (sampleBacklog entries) := by
    induction entries using List.reverseRecOn with
    | nil => exact started
    | append_singleton front entry ih =>
        obtain ⟨before, _, across⟩ := List.pairwise_append.mp sorted
        refine (ih (fun other member => positive other (List.mem_append_left _ member)) before).trans ?_
        exact sampleBacklog_next (positive entry (by simp))
          (fun other member => across other member entry List.mem_cons_self) before
  refine ⟨sampleWorld, initial, backlog.trans ?_⟩
  refine .head (.consumer (.lifecycle .crash)) ?_
  refine .head (.consumer (.lifecycle (.start rfl sample_opened))) ?_
  exact .head (.consumer (.reader (.ensureGroup rfl rfl))) .refl

theorem sampleMessage_complete {schemas : List (List UInt8 × FeatureSchema)} {milliseconds : List Nat}
    {entry : StreamEntry} (member : entry ∈ milliseconds.map sampleMessage) :
    ¬ LacksEntity schemas entry.fields := by
  obtain ⟨number, _, rfl⟩ := List.mem_map.mp member
  exact fun lacks => absurd lacks.2 (by simp [sampleMessage, sampleEntry])

/-- The sample process accepts its messages one after the other. -/
theorem sample_accepted {milliseconds : List Nat}
    (short : ∀ number ∈ milliseconds, (decimal number).length ≤ intMaxStrDigits)
    {consumer : Consumer} {shared : SharedMemory} {log : List InsertRequest}
    (serving : SampleServing consumer shared log) (single : presentIds log ⊆ {"a"}) :
    acceptedIds sampleExternals consumer shared (batchOf (milliseconds.map sampleMessage)) =
      milliseconds.map fun number => MsgId.of number 0 := by
  induction milliseconds generalizing consumer shared log with
  | nil => rfl
  | cons number rest ih =>
      obtain ⟨after, written, rowData, applied, _, _⟩ :=
        @sample_apply consumer shared log serving single number
          (fun bucket => ⟨_, sample_parsed bucket (short number List.mem_cons_self)⟩)
          0x3ff0000000000000 [0, 0, 0x80, 0x3f] (by decide) rfl 0 [48] (by decide) (by decide)
      have still : presentIds (⟨"a", rowData⟩ :: log) ⊆ {"a"} := by
        rw [presentIds, List.map_cons, List.toFinset_cons]
        exact Finset.insert_subset (Finset.mem_singleton_self "a") single
      have later := ih (fun other member => short other (List.mem_cons_of_mem _ member))
        applied.serving still
      have returned : applyBatch sampleExternals consumer shared (batchOf [sampleMessage number]) [] =
          (.ok [MsgId.of number 0], after, written) := by
        rw [batchOf, List.map_singleton, applyBatch,
          show apply sampleExternals consumer shared (sampleMessage number).id
            (some (sampleMessage number).fields) = _ from applied.returned]
        rfl
      have returns := @applyBatch_returns sampleExternals (rest.map sampleMessage) after
        (fun entry member => sampleMessage_complete member) written []
      have split : batchOf ((number :: rest).map sampleMessage) =
          batchOf [sampleMessage number] ++ batchOf (rest.map sampleMessage) := rfl
      rw [split, acceptedIds_append returned returns, later]
      rfl

theorem sampleRecovering_stored {entries : List StreamEntry}
    (distinct : (entries.map StreamEntry.id).Nodup) :
    ∀ entry ∈ entries, (sampleRecovering entries).fieldsOf entry.id = some entry.fields := by
  intro entry member
  have found : entries.find? (fun other => other.id = entry.id) = some entry := by
    cases search : entries.find? (fun other => other.id = entry.id) with
    | none => simpa using List.find?_eq_none.mp search entry member
    | some other =>
        have same : other.id = entry.id := by simpa using List.find?_some search
        rw [List.inj_on_of_nodup_map distinct (List.mem_of_find?_eq_some search) member same]
  exact congrArg (Option.map StreamEntry.fields) found

/-- Two pending messages are recovered with room for two. -/
theorem pelDrained_iff_sample : ∃ world run group, Reachable sampleTight world ∧
    world.run = some run ∧ world.group = some group ∧
    group.pending = [MsgId.of 1 0, MsgId.of 2 0] ∧ PelDrained sampleTight world run group := by
  have reachable := @sampleRecovering_reachable ([1, 2].map sampleMessage) (by decide) (by decide)
  have drained := @pelDrained_iff sampleTight _ _ reachable rfl rfl rfl (by decide) _ rfl
    ([1, 2].map sampleMessage) rfl (sampleRecovering_stored (by decide))
    (fun entry member => sampleMessage_complete member)
  refine ⟨_, _, _, reachable, rfl, rfl, rfl, drained.1.mpr (Or.inr ?_)⟩
  refine Nat.lt_of_le_of_lt (Nat.add_le_add_left acceptedIds_length 0) ?_
  decide

/-- The recovery of three accepted messages blocks behind the second one. -/
theorem pel_blocked : ∃ world run group, Reachable sampleTight world ∧ world.run = some run ∧
    run.reader = .draining (MsgId.of 0 0) ∧ run.consumer.stopEvent = false ∧
    world.group = some group ∧ group.pending = [MsgId.of 1 0, MsgId.of 2 0, MsgId.of 3 0] ∧
    acceptedIds sampleTight.externals run.consumer world.shared
      (batchOf ([1, 2, 3].map sampleMessage)) = group.pending ∧
    ¬ PelDrained sampleTight world run group := by
  have reachable := @sampleRecovering_reachable ([1, 2, 3].map sampleMessage) (by decide) (by decide)
  have stored : ∀ entry ∈ [1, 2, 3].map sampleMessage,
      (sampleRecovering ([1, 2, 3].map sampleMessage)).fieldsOf entry.id = some entry.fields :=
    sampleRecovering_stored (by decide)
  have serving := sampleOffered_serving sampleFirst
  have drainLeft : DrainLeft (sampleRecovering ([1, 2, 3].map sampleMessage))
      ⟨freshConsumer sampleDeployment sampleWorld.current, .draining (MsgId.of 0 0), .absent, [], []⟩
      ⟨MsgId.of 3 0, [MsgId.of 1 0, MsgId.of 2 0, MsgId.of 3 0]⟩ (MsgId.of 0 0)
      ([1, 2, 3].map sampleMessage) :=
    ⟨rfl, by decide, by decide, stored, fun entry member => sampleMessage_complete member⟩
  refine ⟨_, _, _, reachable, rfl, rfl, rfl, rfl, rfl, ?_, ?_⟩
  · exact @sample_accepted [1, 2, 3] (by decide) _ _ _ serving (by simp [presentIds])
  · intro drained
    have room := (@draining_iff sampleTight _ _ _ _ _ (by decide) rfl rfl rfl rfl drainLeft).mp drained.1
    have accepted := @sample_accepted [1, 2] (by decide) _ _ _ serving (by simp [presentIds])
    have waiting : 0 + (acceptedIds sampleExternals (freshConsumer sampleDeployment sampleWorld.current)
        sampleWorld.shared (batchOf ([1, 2].map sampleMessage))).length < 2 :=
      room.resolve_left (by simp)
    rw [show acceptedIds sampleExternals (freshConsumer sampleDeployment sampleWorld.current)
      sampleWorld.shared (batchOf ([1, 2].map sampleMessage)) = _ from accepted] at waiting
    exact absurd waiting (by decide)

end Quorin
