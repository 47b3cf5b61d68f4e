import Quorin.Proof.Consumer.Progress

namespace Quorin

/-- A mapping that names a served schema and has no entity id. -/
def LacksEntity (schemas : List (List UInt8 × FeatureSchema)) (fields : MessageFields) : Prop :=
  (fields.schema.bind fun name => schemas.lookup name).isSome = true ∧ fields.entityId = none

section Returns

variable {externals : Externals} {consumer : Consumer} {shared : SharedMemory} {msgId : MsgId}
  {fields : MessageFields}

/-- The decoding raises only on a mapping without an entity id. -/
theorem decodeMessage_returns_iff {schemas : List (List UInt8 × FeatureSchema)} :
    (∃ decoded, decodeMessage externals schemas fields = .ok decoded) ↔
      ¬ LacksEntity schemas fields := by
  unfold decodeMessage LacksEntity
  cases fields.schema with
  | none => simp
  | some name =>
      cases known : schemas.lookup name with
      | none => simp [known]
      | some schema =>
          cases fields.entityId with
          | none => simp [known]
          | some entityIdBytes =>
              cases text : decodeUtf8 entityIdBytes with
              | none => simp [known, text]
              | some entityId => simp [known, text]

/-- `_apply` returns on every mapping but one that names a served schema and lacks the entity id. -/
theorem apply_returns_iff :
    (∃ outcome, (apply externals consumer shared msgId (some fields)).1 = .ok outcome) ↔
      ¬ LacksEntity consumer.schemas fields := by
  rw [← @decodeMessage_returns_iff externals]
  unfold apply prepareInsert
  dsimp only
  cases decodeMessage externals consumer.schemas fields with
  | error exception => simp
  | ok decoded =>
      cases decoded with
      | none => simp
      | some message =>
          dsimp only
          split
          · rename_i exception rowBuffers raised
            split at raised <;> cases raised
          · exact ⟨fun _ => ⟨_, rfl⟩, fun _ => ⟨_, rfl⟩⟩
          · exact ⟨fun _ => ⟨_, rfl⟩, fun _ => ⟨_, rfl⟩⟩

end Returns

/-- The entries of a batch as Redis returns them while they are in the stream. -/
def batchOf (entries : List StreamEntry) : Batch :=
  entries.map fun entry => (entry.id, some entry.fields)

section Batch

variable {externals : Externals}

/-- The loop comes to its end when no mapping of the batch lacks its entity id. -/
theorem applyBatch_returns {entries : List StreamEntry} {consumer : Consumer}
    (complete : ∀ entry ∈ entries, ¬ LacksEntity consumer.schemas entry.fields)
    (shared : SharedMemory) (before : List MsgId) :
    ∃ applied, (applyBatch externals consumer shared (batchOf entries) before).1 = .ok applied := by
  induction entries generalizing consumer shared before with
  | nil => exact ⟨before, rfl⟩
  | cons entry rest ih =>
      obtain ⟨outcome, returned⟩ := (@apply_returns_iff externals consumer shared entry.id
        entry.fields).mpr (complete entry List.mem_cons_self)
      have frame := @apply_frame externals consumer shared entry.id (some entry.fields)
      rw [batchOf, List.map_cons, applyBatch]
      generalize apply externals consumer shared entry.id (some entry.fields) = result at returned frame
      obtain ⟨result, after, written⟩ := result
      obtain rfl : result = .ok outcome := returned
      refine ih ?_ written _
      intro other member
      rw [frame.schemas]
      exact complete other (List.mem_cons_of_mem _ member)

end Batch

section Steps

variable {deployment : Deployment}

/-- The steps of the read task follow the loop. -/
theorem applyBatch_steps {batch : Batch} {world : World} {run : Run} {origin : BatchOrigin}
    {before applied : List MsgId} {consumer : Consumer} {shared : SharedMemory}
    (live : world.run = some run) (phase : run.reader = .applying origin batch before)
    (returned : applyBatch deployment.externals run.consumer world.shared batch before =
      (.ok applied, consumer, shared)) :
    ∃ inserted, Relation.ReflTransGen (ReaderStep deployment) world
      { world with
        shared := shared
        inserted := inserted
        run := some { run with
          consumer := consumer
          reader := .applying origin [] applied
          passed := run.passed ++ batch.map Prod.fst } } := by
  induction batch generalizing world run before with
  | nil =>
      obtain ⟨same, rest⟩ := Prod.mk.inj returned
      obtain ⟨sameConsumer, sameShared⟩ := Prod.mk.inj rest
      obtain rfl := Except.ok.inj same
      refine ⟨world.inserted, ?_⟩
      rw [← sameConsumer, ← sameShared, List.map_nil, List.append_nil, ← phase]
      have unchanged : world = { world with run := some run } := by rw [← live]
      rw [← unchanged]
  | cons item rest ih =>
      obtain ⟨msgId, fields⟩ := item
      rw [applyBatch] at returned
      cases step : apply deployment.externals run.consumer world.shared msgId fields with
      | mk result state =>
          obtain ⟨after, written⟩ := state
          rw [step] at returned
          cases result with
          | error exception => cases returned
          | ok outcome =>
              let next : World := { world with
                shared := written
                inserted := (executedInsert deployment run.consumer world.shared msgId fields).toList ++
                  world.inserted
                run := some { run with
                  consumer := after
                  reader := .applying origin rest (if outcome then before ++ [msgId] else before)
                  passed := run.passed ++ [msgId] } }
              have turned : ReaderStep deployment world next := .applyReturns live phase step
              obtain ⟨inserted, steps⟩ := @ih next _ _ rfl rfl returned
              refine ⟨inserted, .head turned ?_⟩
              simpa only [List.map_cons, List.append_assoc, List.singleton_append] using steps

/-- `_apply` returns on every message of a batch, and the batch comes to its end. -/
structure BatchSurvives (deployment : Deployment) (world : World) (run : Run) (origin : BatchOrigin)
    (entries : List StreamEntry) : Prop where
  returns : ∀ entry ∈ entries, ∀ consumer shared msgId,
    consumer.schemas = run.consumer.schemas →
    ∃ outcome, (apply deployment.externals consumer shared msgId (some entry.fields)).1 = .ok outcome
  completes : ∃ applied after next,
    (applyBatch deployment.externals run.consumer world.shared (batchOf entries) []).1 = .ok applied ∧
    Relation.ReflTransGen (ReaderStep deployment) world after ∧ after.run = some next ∧
    next.reader = origin.next ∧ next.passed = run.passed ++ entries.map StreamEntry.id ∧
    after.processed = world.processed ++ applied

/-- One message aborts its batch exactly when it names a served schema and lacks its entity id. -/
theorem batch_survives_iff {world : World} {run : Run} {origin : BatchOrigin}
    {entries : List StreamEntry} (live : world.run = some run)
    (phase : run.reader = .applying origin (batchOf entries) []) :
    BatchSurvives deployment world run origin entries ↔
      ∀ entry ∈ entries, ¬ LacksEntity run.consumer.schemas entry.fields := by
  constructor
  · intro survives entry member
    exact apply_returns_iff.mp
      (survives.returns entry member run.consumer world.shared entry.id rfl)
  · intro complete
    refine ⟨?_, ?_⟩
    · intro entry member consumer shared msgId schemas
      refine apply_returns_iff.mpr ?_
      rw [schemas]
      exact complete entry member
    · obtain ⟨applied, returned⟩ :=
        @applyBatch_returns deployment.externals _ _ complete world.shared []
      cases result : applyBatch deployment.externals run.consumer world.shared (batchOf entries) [] with
      | mk outcome state =>
          obtain ⟨consumer, shared⟩ := state
          rw [result] at returned
          obtain rfl : outcome = .ok applied := returned
          obtain ⟨inserted, steps⟩ := applyBatch_steps live phase result
          have passed : (batchOf entries).map Prod.fst = entries.map StreamEntry.id := by
            simp [batchOf, Function.comp_def]
          rw [passed] at steps
          cases applied with
          | nil =>
              refine ⟨[], _, _, rfl, steps.tail (.batchRefused rfl rfl), rfl, rfl, rfl, ?_⟩
              exact (List.append_nil _).symm
          | cons first others =>
              have keys := (steps.tail (.batchApplied rfl rfl (by simp))).tail (.keysSet rfl rfl)
              exact ⟨first :: others, _, _, rfl, keys, rfl, rfl, rfl, rfl⟩

end Steps

/-- A process in its read loop reads the new messages and enters their batch. -/
theorem batch_entered {deployment : Deployment} {world : World} {run : Run} {group : Group}
    (live : world.run = some run) (phase : run.reader = .reading)
    (running : run.consumer.stopEvent = false) (present : world.group = some group)
    (counted : 0 < deployment.batchCount) (clear : world.paused deployment = false)
    (offered : world.newBatch deployment group ≠ [])
    (room : run.consumer.pendingAck.length < 2 * deployment.maxPendingAck) :
    ∃ after entered, Relation.ReflTransGen (WorldStep deployment) world after ∧
      after.run = some entered ∧
      entered.reader = .applying .loop (batchOf (world.newBatch deployment group)) [] ∧
      entered.consumer = run.consumer := by
  cases next : world.newBatch deployment group with
  | nil => exact absurd next offered
  | cons first others =>
      have read : WorldStep deployment world _ :=
        .consumer (.reader (.read live phase running present counted))
      rw [next] at read
      have checked := (Relation.ReflTransGen.single read).tail
        (.consumer (.reader (.checkClear rfl rfl clear)))
      have refreshed := checked.tail (.consumer (.reader (.refresh rfl rfl false)))
      have started := refreshed.tail (.consumer (.reader (.startBatch rfl rfl (Or.inl room))))
      exact ⟨_, _, started, rfl, rfl, rfl⟩

/-- The sample process reads the next message and enters its batch. -/
theorem sample_batch_steps (entry : StreamEntry) (positive : MsgId.of 0 0 < entry.id) :
    ∃ world run, Reachable sampleDeployment world ∧ world.run = some run ∧
      run.reader = .applying .loop (batchOf [entry]) [] ∧
      run.consumer = freshConsumer sampleDeployment sampleWorld.current := by
  have batch : (sampleOffered entry).newBatch sampleDeployment ⟨MsgId.of 0 0, []⟩ = [entry] := by
    simp [World.newBatch, sampleOffered, sampleDeployment, positive]
  have offered := Relation.ReflTransGen.mono (fun _ _ step => step.plain.1) _ _
    (sampleOffered_steps entry positive)
  obtain ⟨world, run, steps, live, phase, consumer⟩ := @batch_entered sampleDeployment
    (sampleOffered entry) _ ⟨MsgId.of 0 0, []⟩ rfl rfl rfl rfl (by decide) rfl (by simp [batch])
    (by decide)
  rw [batch] at phase
  exact ⟨world, run, ⟨sampleWorld, sampleWorld_initial, offered.trans steps⟩, live, phase, consumer⟩

/-- The sample deployment with two messages to a read. -/
def sampleBatches : Deployment := { sampleDeployment with batchCount := 2 }

theorem sampleBatches_initial : sampleWorld.Initial sampleBatches :=
  { namesDistinct := sampleWorld_initial.namesDistinct
    produced := rfl
    entries := rfl
    group := rfl
    acked := rfl
    processed := rfl
    inserted := rfl
    run := rfl
    segments := sampleWorld_initial.segments
    segmentsDistinct := sampleWorld_initial.segmentsDistinct }

/-- The sample process reads both sample messages and enters their batch. -/
theorem sampleBatches_steps :
    ∃ world run, Reachable sampleBatches world ∧ world.run = some run ∧
      run.reader = .applying .loop (batchOf [sampleFirst, sampleSecond]) [] := by
  have batch : ({ sampleOffered sampleFirst with
      produced := [sampleFirst, sampleSecond], entries := [sampleFirst, sampleSecond] } :
        World).newBatch sampleBatches ⟨MsgId.of 0 0, []⟩ = [sampleFirst, sampleSecond] := by decide
  have started : Relation.ReflTransGen (WorldStep sampleBatches) sampleWorld _ :=
    Relation.ReflTransGen.mono (fun _ _ step => step.plain.1) _ _
      (@startup_steps sampleBatches sampleWorld rfl (by decide)
        (by
          intro entry member
          obtain rfl := List.mem_singleton.mp member
          exact ⟨"segment", openCurrent_self rfl rfl rfl sample_table⟩)
        (by simp [sampleWorld]) rfl false)
  have added := started.tail (.environment (.xadd sampleFirst (by decide) (by simp [sampleWorld])))
  have offered := added.tail (.environment (.xadd sampleSecond (by decide) (by decide)))
  obtain ⟨world, run, steps, live, phase, _⟩ := @batch_entered sampleBatches
    { sampleOffered sampleFirst with
      produced := [sampleFirst, sampleSecond], entries := [sampleFirst, sampleSecond] } _
    ⟨MsgId.of 0 0, []⟩ rfl rfl rfl rfl (by decide) rfl (by simp [batch]) (by decide)
  rw [batch] at phase
  exact ⟨world, run, ⟨sampleWorld, sampleBatches_initial, offered.trans steps⟩, live, phase⟩

/-- A batch with the two sample messages comes to its end. -/
theorem batch_survives_iff_sample : ∃ world run, Reachable sampleBatches world ∧
    BatchSurvives sampleBatches world run .loop [sampleFirst, sampleSecond] := by
  obtain ⟨world, run, reached, live, phase⟩ := sampleBatches_steps
  refine ⟨world, run, reached, (batch_survives_iff live phase).mpr ?_⟩
  intro entry member lacks
  rcases List.mem_pair.mp member with rfl | rfl
  · exact absurd lacks.2 (by simp [sampleFirst, sampleEntry])
  · exact absurd lacks.2 (by simp [sampleSecond, sampleEntry])

/-- A message of the sample schema without an entity id. -/
def sampleAnonymous : StreamEntry where
  id := MsgId.of 1 0
  fields :=
    { schema := some (encodeUtf8 "Sample")
      entityId := none
      eventTime := strInt 0
      blob := samplePackb (.list [.float 0x3ff0000000000000]) }

/-- A reachable process does not survive the batch of a message without an entity id. -/
theorem batch_aborted : ∃ world run, Reachable sampleDeployment world ∧ world.run = some run ∧
    run.reader = .applying .loop (batchOf [sampleAnonymous]) [] ∧
    (apply sampleExternals run.consumer world.shared sampleAnonymous.id
      (some sampleAnonymous.fields)).1 = .error .keyError ∧
    ¬ BatchSurvives sampleDeployment world run .loop [sampleAnonymous] := by
  obtain ⟨world, run, reached, live, phase, consumer⟩ := sample_batch_steps sampleAnonymous (by decide)
  have raised : (apply sampleExternals run.consumer world.shared sampleAnonymous.id
      (some sampleAnonymous.fields)).1 = .error .keyError := by
    rw [consumer]
    rfl
  refine ⟨world, run, reached, live, phase, raised, ?_⟩
  intro survives
  obtain ⟨outcome, returned⟩ := survives.returns sampleAnonymous List.mem_cons_self run.consumer
    world.shared sampleAnonymous.id rfl
  have both : Except.error ApplyException.keyError = Except.ok outcome := raised.symm.trans returned
  cases both

end Quorin
