import Quorin.Construction.ConsumerSteps
import Quorin.Proof.Consumer.ApplySpec
import Quorin.Proof.Evolution.FieldOffsets
import Quorin.Proof.Offline.AcceptedRows
import Quorin.Proof.Segment.Histories

namespace Quorin

/-- The process is not stopping or parked, and its drain has no pending entries. -/
def World.Plain (world : World) : Prop :=
  ∀ run, world.run = some run → run.consumer.stopEvent = false ∧
    (∀ batch, run.reader ≠ .parked batch) ∧
    ∀ lastId, run.reader = .draining lastId →
      ∀ group, world.group = some group → group.pending = []

/-- The steps that need no care of the operators. -/
def PlainStep (deployment : Deployment) (before after : World) : Prop :=
  WorldStep deployment before after ∧ before.Plain

/-- A run of plain steps from a start is a run. -/
theorem reachable_of_plain {deployment : Deployment} {start world : World}
    (initial : start.Initial deployment)
    (steps : Relation.ReflTransGen (PlainStep deployment) start world) : Reachable deployment world :=
  ⟨start, initial, Relation.ReflTransGen.mono (fun _ _ step => step.1) _ _ steps⟩

theorem plain_of_absent {world : World} (absent : world.run = none) : world.Plain := by
  intro run live
  rw [absent] at live
  cases live

theorem plain_of_run {world : World} {run : Run} (live : world.run = some run)
    (running : run.consumer.stopEvent = false) (parked : ∀ batch, run.reader ≠ .parked batch)
    (drained : ∀ lastId, run.reader ≠ .draining lastId) : world.Plain := by
  intro other same
  rw [live] at same
  obtain rfl := Option.some.inj same
  exact ⟨running, parked, fun lastId draining => absurd draining (drained lastId)⟩

/-- In a run of plain steps to a plain world the world behind every step is plain too. -/
theorem plain_behind {deployment : Deployment} {start world : World}
    (steps : Relation.ReflTransGen (PlainStep deployment) start world) (plain : world.Plain) :
    Relation.ReflTransGen
      (fun before after => WorldStep deployment before after ∧ before.Plain ∧ after.Plain)
      start world := by
  induction steps using Relation.ReflTransGen.head_induction_on with
  | refl => exact .refl
  | @head before after step rest ih =>
      refine .head ⟨step.1, step.2, ?_⟩ ih
      rcases rest.cases_head with rfl | ⟨later, next, _⟩
      · exact plain
      · exact next.2

/-- No schema is paused, and the next message is applied with success. -/
def World.Smooth (deployment : Deployment) (world : World) : Prop :=
  world.paused deployment = false ∧
  ∀ run origin msgId fields rest applied, world.run = some run →
    run.reader = .applying origin ((msgId, fields) :: rest) applied →
    ∃ consumer shared, apply deployment.externals run.consumer world.shared msgId fields =
      (.ok true, consumer, shared)

/-- The steps of a history without pauses and failed writes. -/
def SmoothStep (deployment : Deployment) (before after : World) : Prop :=
  WorldStep deployment before after ∧ before.Smooth deployment

/-- The plain steps of a smooth history in which no drain applies a message and no flush task fails. -/
structure CalmStep (deployment : Deployment) (before after : World) : Prop where
  plain : PlainStep deployment before after
  smooth : before.Smooth deployment
  looping : ∀ run lastId batch applied, before.run = some run →
    run.reader ≠ .applying (.drain lastId) batch applied
  unfailed : ∀ run next, before.run = some run → after.run = some next → next.flusher = .failed →
    run.flusher = .failed

theorem plain_of_calm {deployment : Deployment} {start world : World}
    (steps : Relation.ReflTransGen (CalmStep deployment) start world) :
    Relation.ReflTransGen (PlainStep deployment) start world :=
  Relation.ReflTransGen.mono (fun _ _ step => step.plain) _ _ steps

theorem smooth_of_calm {deployment : Deployment} {start world : World}
    (steps : Relation.ReflTransGen (CalmStep deployment) start world) :
    Relation.ReflTransGen (SmoothStep deployment) start world :=
  Relation.ReflTransGen.mono (fun _ _ step => ⟨step.plain.1, step.smooth⟩) _ _ steps

theorem smooth_of_run {deployment : Deployment} {world : World} {run : Run}
    (live : world.run = some run) (clear : world.paused deployment = false)
    (still : ∀ origin entry rest applied, run.reader ≠ .applying origin (entry :: rest) applied) :
    world.Smooth deployment := by
  refine ⟨clear, ?_⟩
  intro other origin msgId fields rest applied same phase
  obtain rfl := Option.some.inj (live.symm.trans same)
  exact absurd phase (still origin _ rest applied)

theorem smooth_of_apply {deployment : Deployment} {world : World} {run : Run} {origin : BatchOrigin}
    {msgId : MsgId} {fields : Option MessageFields} {rest : Batch} {applied : List MsgId}
    {consumer : Consumer} {shared : SharedMemory} (live : world.run = some run)
    (clear : world.paused deployment = false)
    (phase : run.reader = .applying origin ((msgId, fields) :: rest) applied)
    (returned : apply deployment.externals run.consumer world.shared msgId fields =
      (.ok true, consumer, shared)) : world.Smooth deployment := by
  refine ⟨clear, ?_⟩
  intro other otherOrigin otherId otherFields otherRest otherApplied same otherPhase
  obtain rfl := Option.some.inj (live.symm.trans same)
  rw [phase] at otherPhase
  cases otherPhase
  exact ⟨consumer, shared, returned⟩

/-- A step of a live process that neither starts nor applies a message. -/
theorem calm_of_run {deployment : Deployment} {world after : World} {run : Run}
    (step : WorldStep deployment world after) (live : world.run = some run)
    (running : run.consumer.stopEvent = false) (clear : world.paused deployment = false)
    (parked : ∀ batch, run.reader ≠ .parked batch) (drained : ∀ lastId, run.reader ≠ .draining lastId)
    (still : ∀ origin batch applied, run.reader = .applying origin batch applied →
      origin = .loop ∧ batch = [])
    (unfailed : ∀ next, after.run = some next → next.flusher = .failed → run.flusher = .failed) :
    CalmStep deployment world after where
  plain := ⟨step, plain_of_run live running parked drained⟩
  smooth := smooth_of_run live clear fun origin entry rest applied phase =>
    List.cons_ne_nil _ _ (still origin _ applied phase).2
  looping := by
    intro other lastId batch applied same phase
    obtain rfl := Option.some.inj (live.symm.trans same)
    exact BatchOrigin.noConfusion (still _ batch applied phase).1
  unfailed := by
    intro other next same
    obtain rfl := Option.some.inj (live.symm.trans same)
    exact unfailed next

section Steps

variable {deployment : Deployment} {world : World} {run : Run}

theorem FlusherStep.plain {after : World} (step : FlusherStep deployment world after)
    (plain : world.Plain) : PlainStep deployment world after :=
  ⟨.consumer (.flusher step), plain⟩

/-- A process that finds its segments and no pending entries comes to its read loop. -/
theorem startup_steps (absent : world.run = none) (counted : 0 < deployment.batchCount)
    (opened : ∀ entry ∈ deployment.schemas, ∃ segmentName,
      openCurrent deployment.externals world.current world.shared entry.1 entry.2 =
        .reopened segmentName)
    (settled : ∀ group, world.group = some group → group.pending = [])
    (clear : world.paused deployment = false) (refreshed : Bool) :
    Relation.ReflTransGen (CalmStep deployment) world
      { world with
        group := some (world.group.getD ⟨MsgId.of 0 0, []⟩)
        drained := true
        liveness := world.liveness || refreshed
        run := some ⟨freshConsumer deployment world.current, .reading, .waiting, [], []⟩ } := by
  have nothing : (world.group.getD ⟨MsgId.of 0 0, []⟩).pending = [] := by
    cases present : world.group with
    | none => rfl
    | some group => exact settled group present
  refine .head ⟨⟨.consumer (.lifecycle (.start absent opened)), plain_of_absent absent⟩, ⟨clear, ?_⟩,
    ?_, ?_⟩ ?_
  · intro other origin msgId fields rest applied live
    rw [absent] at live
    cases live
  · intro other lastId batch applied live
    rw [absent] at live
    cases live
  · intro other next live
    rw [absent] at live
    cases live
  refine .head (calm_of_run (.consumer (.reader (.ensureGroup rfl rfl))) rfl rfl clear (by simp)
    (by simp) (by simp) (by simp)) ?_
  refine .head ⟨⟨.consumer (.reader (.drainEnd rfl rfl rfl rfl counted ?_)), ?_⟩,
    smooth_of_run rfl clear (by simp), ?_, ?_⟩ ?_
  · simp [World.pendingBatch, nothing]
  · intro other same
    obtain rfl := Option.some.inj same
    refine ⟨rfl, by simp, ?_⟩
    intro lastId _ group present
    obtain rfl := Option.some.inj present
    exact nothing
  · intro other lastId batch applied same
    obtain rfl := Option.some.inj same
    simp
  · intro other next same now
    obtain rfl := Option.some.inj same
    obtain rfl := Option.some.inj now
    exact id
  refine .head (calm_of_run (.consumer (.reader (.announce rfl rfl refreshed))) rfl rfl clear
    (by simp) (by simp) (by simp) (by simp)) .refl

/-- One iteration of the read loop applies the next message and sets its processed key. -/
theorem consume_steps {group : Group} {entry : StreamEntry} {consumer : Consumer}
    {shared : SharedMemory} (live : world.run = some run) (phase : run.reader = .reading)
    (running : run.consumer.stopEvent = false) (present : world.group = some group)
    (counted : 0 < deployment.batchCount) (next : world.newBatch deployment group = [entry])
    (clear : world.paused deployment = false)
    (room : run.consumer.pendingAck.length < 2 * deployment.maxPendingAck)
    (returned : apply deployment.externals run.consumer world.shared entry.id (some entry.fields) =
      (.ok true, consumer, shared)) (refreshed : Bool) :
    Relation.ReflTransGen (CalmStep deployment) world
      { world with
        group := some (group.deliver [entry])
        liveness := world.liveness || refreshed
        shared := shared
        inserted := (executedInsert deployment run.consumer world.shared entry.id
          (some entry.fields)).toList ++ world.inserted
        processed := world.processed ++ [entry.id]
        run := some { run with
          consumer := { consumer with pendingAck := consumer.pendingAck ++ [entry.id] }
          reader := .reading
          delivered := run.delivered ++ [entry.id]
          passed := run.passed ++ [entry.id] } } := by
  have frame := @apply_frame deployment.externals run.consumer world.shared entry.id (some entry.fields)
  rw [returned] at frame
  have stopEvent := frame.stopEvent.trans running
  refine .head (calm_of_run (.consumer (.reader (.read live phase running present counted))) live
    running clear (by simp [phase]) (by simp [phase]) (by simp [phase]) (by simp)) ?_
  rw [next]
  refine .head (calm_of_run (.consumer (.reader (.checkClear rfl rfl clear))) rfl running clear
    (by simp) (by simp) (by simp) (by simp [World.withRun])) ?_
  refine .head (calm_of_run (.consumer (.reader (.refresh rfl rfl refreshed))) rfl running clear
    (by simp) (by simp) (by simp) (by simp)) ?_
  refine .head (calm_of_run (.consumer (.reader (.startBatch rfl rfl (Or.inl room)))) rfl running clear
    (by simp) (by simp) (by simp) (by simp [World.withRun])) ?_
  refine .head ⟨⟨.consumer (.reader (.applyReturns rfl rfl returned)),
    plain_of_run rfl running (by simp) (by simp)⟩, smooth_of_apply rfl clear rfl returned, ?_, ?_⟩ ?_
  · intro other lastId batch applied same
    obtain rfl := Option.some.inj same
    simp
  · intro other next same now
    obtain rfl := Option.some.inj same
    obtain rfl := Option.some.inj now
    exact id
  refine .head (calm_of_run (.consumer (.reader (.batchApplied rfl rfl (by simp)))) rfl stopEvent clear
    (by simp) (by simp) (by simp) (by simp [World.withRun])) ?_
  exact .head (calm_of_run (.consumer (.reader (.keysSet rfl rfl))) rfl stopEvent clear
    (by simp) (by simp) (by simp) (by simp)) .refl

/-- The flush task seals the buffers and awaits the XACK of the pending messages. -/
theorem flushAcking_steps (live : world.run = some run) (phase : run.reader = .reading)
    (running : run.consumer.stopEvent = false) (waiting : run.flusher = .waiting)
    (unsettled : run.consumer.pendingAck ≠ []) {outcome : BucketKey → WriteOutcome}
    (succeeded : (run.consumer.flush deployment outcome).1 = true) :
    Relation.ReflTransGen (PlainStep deployment) world
      ((world.flushed deployment run outcome).withRun { run.flushed deployment outcome with
        flusher := .acking run.consumer.pendingAck }) := by
  have turn : run.reader.running = true := by
    rw [phase]
    rfl
  refine .head (FlusherStep.plain (.wake live turn waiting running) ?_) ?_
  · exact plain_of_run live running (by simp [phase]) (by simp [phase])
  refine .head (FlusherStep.plain (@FlusherStep.flushed deployment _
    { run with flusher := .renewing } rfl turn rfl unsettled outcome succeeded) ?_) .refl
  exact plain_of_run rfl running (by simp [phase]) (by simp [phase])

/-- The flush task seals the buffers and acknowledges the pending messages. -/
theorem flush_steps (live : world.run = some run) (phase : run.reader = .reading)
    (running : run.consumer.stopEvent = false) (waiting : run.flusher = .waiting)
    (unsettled : run.consumer.pendingAck ≠ []) {outcome : BucketKey → WriteOutcome}
    (succeeded : (run.consumer.flush deployment outcome).1 = true) :
    Relation.ReflTransGen (PlainStep deployment) world
      (((world.flushed deployment run outcome).ack run.consumer.pendingAck).withRun
        { run.flushed deployment outcome with
          consumer := (run.flushed deployment outcome).consumer.trim run.consumer.pendingAck
          flusher := .waiting }) := by
  refine (flushAcking_steps live phase running waiting unsettled succeeded).tail
    (FlusherStep.plain (@FlusherStep.acked deployment _ { run.flushed deployment outcome with
      flusher := .acking run.consumer.pendingAck } _ rfl ?_ rfl) ?_)
  · simp [Run.flushed, phase, ReaderPhase.running]
  · exact plain_of_run rfl running (by simp [Run.flushed, phase]) (by simp [Run.flushed, phase])

/-- A step of a process that parks with empty hands, and whose pause path flushes beside no XACK of an
idle flush task. -/
structure PauseStep (deployment : Deployment) (idle : Prop) (before after : World) : Prop where
  step : WorldStep deployment before after
  parked : ∀ run batch, before.run = some run → run.reader = .parked batch → batch = []
  alone : idle → ∀ run batch snapshot, before.run = some run →
    run.reader = .pauseAcking batch snapshot → ∀ other, run.flusher ≠ .acking other

theorem pauseStep_of_run {idle : Prop} {after : World} (step : WorldStep deployment world after)
    (live : world.run = some run) (parked : ∀ batch, run.reader = .parked batch → batch = [])
    (free : ∀ batch snapshot, run.reader ≠ .pauseAcking batch snapshot) :
    PauseStep deployment idle world after where
  step := step
  parked := by
    intro other batch same phase
    obtain rfl := Option.some.inj (live.symm.trans same)
    exact parked batch phase
  alone := by
    intro _ other batch snapshot same phase
    obtain rfl := Option.some.inj (live.symm.trans same)
    exact absurd phase (free batch snapshot)

/-- A pause that finds pending ids flushes, acknowledges and trims them. -/
theorem pauseTrim_steps {group : Group} {outcome : BucketKey → WriteOutcome}
    (live : world.run = some run) (phase : run.reader = .reading)
    (running : run.consumer.stopEvent = false) (present : world.group = some group)
    (counted : 0 < deployment.batchCount) (unsettled : run.consumer.pendingAck ≠ [])
    (succeeded : (run.consumer.flush deployment outcome).1 = true)
    (quiet : world.newBatch deployment group = [])
    {name : List UInt8} (served : name ∈ deployment.schemas.map Prod.fst)
    (clear : ∀ other, world.pauseKeys other = false) :
    Relation.ReflTransGen (PauseStep deployment (∀ other, run.flusher ≠ .acking other)) world
      { (world.flushed deployment run outcome).ack run.consumer.pendingAck with
        run := some { run with
          consumer := reopenSegments deployment.externals world.current world.shared
            deployment.schemas
            ((run.flushed deployment outcome).consumer.trim run.consumer.pendingAck)
          reader := .reading } } := by
  have lifted : Function.update (Function.update world.pauseKeys name true) name false =
      world.pauseKeys := by
    funext other
    by_cases same : other = name
    · rw [same, Function.update_self, clear]
    · rw [Function.update_of_ne same, Function.update_of_ne same]
  have read := @ReaderStep.read deployment { world with
    pauseKeys := Function.update world.pauseKeys name true } run group live phase running present
    counted
  have kept : group.deliver [] = group := by simp [Group.deliver]
  simp only [show World.newBatch deployment { world with
    pauseKeys := Function.update world.pauseKeys name true } group = [] from quiet, List.map_nil,
    List.append_nil, kept, ← present] at read
  obtain ⟨entry, member, rfl⟩ := List.mem_map.mp served
  refine .head (pauseStep_of_run (.environment (.pause entry.1 true)) live (by simp [phase])
    (by simp [phase])) ?_
  refine .head (pauseStep_of_run (.consumer (.reader read)) live (by simp [phase]) (by simp [phase])) ?_
  refine .head (pauseStep_of_run (.consumer (.reader (@ReaderStep.checkFlushed deployment _
    { run with reader := .checking [] } [] rfl rfl ?_ unsettled outcome succeeded))) rfl (by simp)
    (by simp)) ?_
  · exact List.any_eq_true.mpr ⟨entry, member, by simp⟩
  refine .head ⟨.consumer (.reader (.pauseAcked rfl rfl)), ?_, ?_⟩ ?_
  · intro other batch same parked
    obtain rfl := Option.some.inj same
    cases parked
  · intro idle other batch snapshot same _
    obtain rfl := Option.some.inj same
    exact idle
  refine .head (pauseStep_of_run (.environment (.pause entry.1 false)) rfl (by simp) (by simp)) ?_
  refine .head (pauseStep_of_run (.consumer (.reader (.resume rfl rfl ?_))) rfl (by simp) (by simp)) ?_
  · simp [World.withRun, World.paused, World.ack, World.flushed, lifted, clear]
  simp only [World.withRun, World.ack, World.flushed, lifted]
  exact .refl

end Steps

section Apply

variable {externals : Externals} {consumer : Consumer} {shared : SharedMemory} {msgId : MsgId}
  {fields : MessageFields} {prepared : PreparedInsert} {rowBuffers : List UInt8 → List UInt8}
  {segmentName : String} {segment : Segment}

/-- A prepared insert that the segment and the offline writer accept makes `_apply` return true. -/
theorem apply_of_prepared
    (ready : prepareInsert externals consumer fields = (.ok (some prepared), rowBuffers))
    (held : consumer.held shared prepared.message.name = some (segmentName, segment))
    {fresh : Bool} (result : (insert externals.hashId segment.layout prepared.request.entityId
      prepared.request.rowData).result segment.memory = .ok fresh)
    {eventTimeNs : Int} (time : fields.eventTime.bind parseInt = some eventTimeNs)
    {values : List WireValue} (items : prepared.message.values.items = some values)
    (appended : (consumer.offline.append externals prepared.message.schema
      prepared.message.entityId eventTimeNs values msgId.bytes).1 = .ok ()) :
    apply externals consumer shared msgId (some fields) =
      (.ok true,
        { consumer with
          rowBuffers := rowBuffers
          offline := (consumer.offline.append externals prepared.message.schema
            prepared.message.entityId eventTimeNs values msgId.bytes).2 },
        Function.update shared segmentName (some { segment with
          memory := ((insert externals.hashId segment.layout prepared.request.entityId
            prepared.request.rowData).run segment.memory).2 })) := by
  have outcome : ((insert externals.hashId segment.layout prepared.request.entityId
      prepared.request.rowData).run segment.memory).1 = .ok fresh := result
  have same : Consumer.held { consumer with rowBuffers := rowBuffers } shared
      prepared.message.name = some (segmentName, segment) := held
  simp only [apply, ready, finishApply, same, outcome, time, items, appended]

end Apply

/-- A segment passes the header check of its own class. -/
theorem verifyHeader_self {externals : Externals} {segment : Segment} {table : List OffsetRow}
    (computed : computeRowOffsetTable externals.hashName segment.schema = .ok table) :
    verifyHeader externals segment segment.schema = true := by
  cases compiled : compileSchema externals.hashName segment.schema with
  | error error =>
      rw [computeRowOffsetTable, compiled] at computed
      cases computed
  | ok rows => simp [verifyHeader, compiled]

/-- The current segment of a name is opened by its own class. -/
theorem openCurrent_self {externals : Externals} {current : List UInt8 → Option String}
    {shared : SharedMemory} {name : List UInt8} {segmentName : String} {segment : Segment}
    (named : current name = some segmentName) (present : shared segmentName = some segment)
    {schema : FeatureSchema} (same : segment.schema = schema) {table : List OffsetRow}
    (computed : computeRowOffsetTable externals.hashName schema = .ok table) :
    openCurrent externals current shared name schema = .reopened segmentName := by
  subst same
  simp [openCurrent, named, present, verifyHeader_self computed]

/-- The MessagePack bytes of a list with one float. -/
def samplePackb : WireValue → Option (List UInt8)
  | .list [.float bits] => some (0x91 :: 0xcb :: (ByteMemory.leBytes 8 bits.toNat).reverse)
  | _ => none

def sampleUnpackb (blob : List UInt8) : Option WireValue :=
  match blob with
  | 0x91 :: 0xcb :: digits =>
      if digits.length = 8 then some (.list [.float (UInt64.ofNat (ByteMemory.leNat digits.reverse))])
      else none
  | _ => none

/-- The first day of the epoch and the day of the nanosecond ten to the nineteenth. -/
def sampleDate (eventTimeNs : Int) : Option String :=
  if eventTimeNs / dayNs = 0 then some "1970-01-01"
  else if eventTimeNs / dayNs = 115740 then some "2286-11-20"
  else none

/-- The outside functions on the inputs of the sample runs. -/
def sampleExternals : Externals where
  hashName := sampleHash
  crc32 := fun _ => 0
  hashId := fun _ => 0
  castBits := sampleCast
  intToFloat := fun _ => none
  asarray := fun _ _ => none
  asarraySize := by simp
  packb := samplePackb
  unpackb := sampleUnpackb
  dateString := sampleDate
  arrowCoerces := fun _ _ => false
  stringArray := fun ids => some (.ofList ids)

theorem sampleUnpackb_packb (bits : UInt64) :
    (samplePackb (.list [.float bits])).bind sampleUnpackb = some (.list [.float bits]) := by
  have back : ByteMemory.leNat (ByteMemory.leBytes 8 bits.toNat) = bits.toNat :=
    ByteMemory.leNat_leBytes 8 bits.toNat bits.toNat_lt
  simp [samplePackb, sampleUnpackb, back]

/-- A deployment that serves the sample schema and reads one message at a time. -/
def sampleDeployment : Deployment where
  externals := sampleExternals
  schemas := [(encodeUtf8 "Sample", sampleSchema)]
  batchCount := 1
  maxPendingAck := 10
  includeMsgId := true

/-- A write of one score for the entity `a`. -/
def sampleEntry (milliseconds : Nat) (bits : UInt64) (eventTimeNs : Int) : StreamEntry where
  id := MsgId.of milliseconds 0
  fields :=
    { schema := some (encodeUtf8 "Sample")
      entityId := some (encodeUtf8 "a")
      eventTime := strInt eventTimeNs
      blob := samplePackb (.list [.float bits]) }

/-- The process serves the sample segment, whose executed inserts are the log. -/
structure SampleServing (consumer : Consumer) (shared : SharedMemory) (log : List InsertRequest) :
    Prop where
  schemas : consumer.schemas = sampleDeployment.schemas
  segments : consumer.segments (encodeUtf8 "Sample") = some "segment"
  rowBuffer : (consumer.rowBuffers (encodeUtf8 "Sample")).length = 64
  sound : consumer.offline.Sound sampleExternals
  memory : ∃ memory, shared "segment" = some ⟨sampleSchema, sampleLayout, memory⟩ ∧
    (SegmentHistory.mk memory log 0).Refined sampleExternals.hashId sampleLayout

theorem sample_plan : buildPlan sampleHash sampleSchema =
    .ok ⟨[⟨0, 4, .float32, 1, true, 0⟩], [], 4, 1, 64⟩ := by
  obtain ⟨table, rows, _⟩ := computeLayout_parts
    (computeLayout_sample_of_hash (show sampleHash "score" = 0 from rfl))
  rw [buildPlan, table, rows]
  simp [bind, Except.bind, pure, Except.pure, sampleLayout, layoutOf, sampleSchema, sampleHash]

theorem sample_table : computeRowOffsetTable sampleExternals.hashName sampleSchema =
    .ok sampleLayout.rowOffsetTable :=
  (computeLayout_parts (computeLayout_sample_of_hash (show sampleHash "score" = 0 from rfl))).1

theorem sampleLayout_sound : LayoutSound sampleLayout :=
  computeLayout_sound (computeLayout_sample_of_hash (show sampleHash "score" = 0 from rfl))

section Sample

variable {consumer : Consumer} {shared : SharedMemory} {log : List InsertRequest}
  (serving : SampleServing consumer shared log)

/-- The row of a sample write begins with its score and keeps the rest of the buffer. -/
def sampleRow (buffer bytes : List UInt8) : List UInt8 :=
  splice (splice buffer 0 (List.replicate 4 0)) 0 bytes

theorem sampleRow_take {buffer bytes : List UInt8} (four : bytes.length = 4) :
    (sampleRow buffer bytes).take 4 = bytes := by
  simp [sampleRow, splice, four]

include serving in
theorem sample_prepared (milliseconds : Nat) {bits : UInt64} (eventTimeNs : Int)
    {bytes : List UInt8} (packed : packFloat sampleExternals .float32 bits = some bytes) :
    prepareInsert sampleExternals consumer (sampleEntry milliseconds bits eventTimeNs).fields =
      (.ok (some ⟨⟨encodeUtf8 "Sample", sampleSchema, "a", .list [.float bits]⟩,
        ⟨"a", sampleRow (consumer.rowBuffers (encodeUtf8 "Sample")) bytes⟩⟩),
        Function.update consumer.rowBuffers (encodeUtf8 "Sample")
          (sampleRow (consumer.rowBuffers (encodeUtf8 "Sample")) bytes)) := by
  have unpacked : (sampleEntry milliseconds bits eventTimeNs).fields.blob.bind
      sampleExternals.unpackb = some (.list [.float bits]) := sampleUnpackb_packb bits
  have decoded : decodeMessage sampleExternals consumer.schemas
      (sampleEntry milliseconds bits eventTimeNs).fields =
      .ok (some ⟨encodeUtf8 "Sample", sampleSchema, "a", .list [.float bits]⟩) := by
    rw [serving.schemas]
    simp only [decodeMessage, sampleEntry, sampleDeployment, List.lookup_cons, beq_self_eq_true,
      decodeUtf8_encodeUtf8]
    rw [show (samplePackb (.list [.float bits])).bind sampleExternals.unpackb = _ from unpacked]
    rfl
  have scalar : structPack sampleExternals .float32 (.float bits) = some bytes := packed
  have pack : packMessage sampleExternals ⟨encodeUtf8 "Sample", sampleSchema, "a", .list [.float bits]⟩
      (consumer.rowBuffers (encodeUtf8 "Sample")) =
      (true, sampleRow (consumer.rowBuffers (encodeUtf8 "Sample")) bytes) := by
    simp [packMessage, show sampleExternals.hashName = sampleHash from rfl, sample_plan,
      packRowFromList, WireValue.items, serving.rowBuffer, packScalars, packShaped, scalar, sampleRow]
  rw [prepareInsert, decoded]
  simp only [pack, if_true]

theorem sample_arrowPlan : arrowPlanFor sampleHash sampleSchema = .ok ⟨[.leaf .float32]⟩ := by
  simp [arrowPlanFor, sampleSchema, reservedFieldNames, arrowTypeFor, wireOrder, bind, Except.bind,
    pure, Except.pure]

/-- The text of a date is found in the cache or computed. -/
theorem getDateStr_some {store : OfflineStore} {eventTimeNs : Int}
    (dated : sampleDate eventTimeNs ≠ none) : store.getDateStr sampleExternals eventTimeNs ≠ none := by
  unfold OfflineStore.getDateStr
  split
  · simp
  · simpa [sampleExternals] using dated

/-- The outcome of one sample write. -/
structure SampleApplied (consumer after : Consumer) (shared written : SharedMemory)
    (log : List InsertRequest) (entry : StreamEntry) (rowData : List UInt8) : Prop where
  returned : apply sampleExternals consumer shared entry.id (some entry.fields) =
    (.ok true, after, written)
  executed : executedInsert sampleDeployment consumer shared entry.id (some entry.fields) =
    some ⟨entry.id, "segment", ⟨"a", rowData⟩⟩
  pendingAck : after.pendingAck = consumer.pendingAck
  stopEvent : after.stopEvent = consumer.stopEvent
  serving : SampleServing after written (⟨"a", rowData⟩ :: log)

include serving in
theorem sample_apply (single : presentIds log ⊆ {"a"}) {milliseconds : Nat}
    (parsed : ∀ bucket, ∃ ids, parseMsgId bucket (MsgId.of milliseconds 0).bytes = .ok ids)
    {bits : UInt64} {bytes : List UInt8}
    (packed : packFloat sampleExternals .float32 bits = some bytes) (four : bytes.length = 4)
    {eventTimeNs : Int} {text : List UInt8} (printed : strInt eventTimeNs = some text)
    (dated : sampleDate eventTimeNs ≠ none) :
    ∃ after written rowData,
      SampleApplied consumer after shared written log (sampleEntry milliseconds bits eventTimeNs)
        rowData ∧
      rowData.take 4 = bytes ∧
      after.offline = (consumer.offline.append sampleExternals sampleSchema "a" eventTimeNs
        [.float bits] (MsgId.of milliseconds 0).bytes).2 := by
  obtain ⟨memory, present, refined⟩ := serving.memory
  have ready := sample_prepared serving milliseconds eventTimeNs packed
  have size : (sampleRow (consumer.rowBuffers (encodeUtf8 "Sample")) bytes).length = 64 := by
    simp [sampleRow, splice, serving.rowBuffer, four]
  have held : consumer.held shared (encodeUtf8 "Sample") =
      some ("segment", ⟨sampleSchema, sampleLayout, memory⟩) := by
    simp [Consumer.held, serving.segments, present]
  have result := (refined.behavesAsMap sampleLayout_sound).inserted "a"
    (sampleRow (consumer.rowBuffers (encodeUtf8 "Sample")) bytes) (by decide) size
  have room : (presentIds log).card ≤ 1 := by
    simpa using Finset.card_le_card single
  rw [if_neg (by decide), if_neg (by
    rintro ⟨_, full⟩
    change (presentIds log).card + 0 = 2 at full
    omega)] at result
  have time : (sampleEntry milliseconds bits eventTimeNs).fields.eventTime.bind parseInt =
      some eventTimeNs := by
    change (strInt eventTimeNs).bind parseInt = some eventTimeNs
    rw [printed, Option.bind_some, parseInt_strInt printed]
  have appended : (consumer.offline.append sampleExternals sampleSchema "a" eventTimeNs
      [.float bits] (MsgId.of milliseconds 0).bytes).1 = .ok () :=
    append_succeeds serving.sound sample_arrowPlan (getDateStr_some dated) rfl parsed "a"
  have returned := @apply_of_prepared _ consumer shared (MsgId.of milliseconds 0) _ _ _ _ _ ready held
    _ result _ time _ rfl appended
  have later := refined.completeInsert sampleLayout_sound
    ⟨"a", sampleRow (consumer.rowBuffers (encodeUtf8 "Sample")) bytes⟩
  have outcome : ((insert sampleExternals.hashId sampleLayout "a"
      (sampleRow (consumer.rowBuffers (encodeUtf8 "Sample")) bytes)).run memory).1 =
      .ok (lastRow log "a").isNone := result
  simp only [SegmentHistory.completeInsert, outcome] at later
  refine ⟨_, _, sampleRow (consumer.rowBuffers (encodeUtf8 "Sample")) bytes,
    ⟨returned, ?_, rfl, rfl, ?_⟩, sampleRow_take four, rfl⟩
  · simp only [executedInsert, show sampleDeployment.externals = sampleExternals from rfl, ready, held,
      result]
  · constructor
    · exact serving.schemas
    · exact serving.segments
    · simpa using size
    · exact (append_keeps serving.sound sampleSchema "a" eventTimeNs [.float bits]
        (MsgId.of milliseconds 0).bytes).1
    · exact ⟨_, by simp, later⟩

end Sample

/-- The start of the sample runs: one fresh segment and an empty stream. -/
def sampleWorld : World where
  produced := []
  entries := []
  group := none
  acked := []
  processed := []
  pauseKeys := fun _ => false
  liveness := false
  current := fun name => if name = encodeUtf8 "Sample" then some "segment" else none
  shared := fun name =>
    if name = "segment" then
      some ⟨sampleSchema, sampleLayout, freshSegment sampleLayout (List.replicate 16 0)⟩
    else none
  files := []
  inserted := []
  drained := false
  run := none

theorem sampleWorld_initial : sampleWorld.Initial sampleDeployment := by
  constructor
  · decide
  · rfl
  · rfl
  · rfl
  · rfl
  · rfl
  · rfl
  · rfl
  · intro entry member
    obtain rfl := List.mem_singleton.mp member
    exact ⟨"segment", _, 2, 8, List.replicate 16 0, [], rfl, rfl, rfl,
      computeLayout_sample_of_hash rfl, rfl, rfl⟩
  · intro first firstMember second secondMember _
    obtain rfl := List.mem_singleton.mp firstMember
    obtain rfl := List.mem_singleton.mp secondMember
    rfl

/-- The sample process in its read loop, with one message in the stream. -/
def sampleOffered (entry : StreamEntry) : World :=
  { sampleWorld with
    produced := [entry]
    entries := [entry]
    group := some ⟨MsgId.of 0 0, []⟩
    drained := true
    run := some ⟨freshConsumer sampleDeployment sampleWorld.current, .reading, .waiting, [], []⟩ }

theorem sampleOffered_serving (entry : StreamEntry) :
    SampleServing (freshConsumer sampleDeployment sampleWorld.current) (sampleOffered entry).shared [] := by
  have parts := computeLayout_parts
    (computeLayout_sample_of_hash (show sampleHash "score" = 0 from rfl))
  constructor
  · rfl
  · rfl
  · simp [freshConsumer, sampleDeployment, sampleExternals, parts.2.1, sampleLayout, layoutOf,
      Except.toOption]
  · exact OfflineStore.empty_sound _ _
  · exact ⟨_, rfl, SegmentHistory.Refined.fresh _ sampleLayout_sound rfl⟩

/-- The sample process starts and a message is added. -/
theorem sampleOffered_steps (entry : StreamEntry) (positive : MsgId.of 0 0 < entry.id) :
    Relation.ReflTransGen (CalmStep sampleDeployment) sampleWorld (sampleOffered entry) := by
  refine .trans (startup_steps rfl (by decide) ?_ (by simp [sampleWorld]) rfl false) ?_
  · intro entry member
    obtain rfl := List.mem_singleton.mp member
    exact ⟨"segment", openCurrent_self rfl rfl rfl sample_table⟩
  · exact .head (calm_of_run (.environment (.xadd entry positive (by simp [sampleWorld]))) rfl rfl rfl
      (by simp) (by simp) (by simp) (by simp)) .refl

theorem sample_parsed (bucket : Bucket) {milliseconds : Nat}
    (short : (decimal milliseconds).length ≤ intMaxStrDigits) :
    parseMsgId bucket (MsgId.of milliseconds 0).bytes = .ok
      (if bucket.msgIdCols.isSome then ((milliseconds : Int), 0) else (0, 0)) := by
  unfold parseMsgId
  cases bucket.msgIdCols with
  | none => rfl
  | some columns =>
      rw [partitionHyphen_bytes]
      have first : parseInt (decimal (MsgId.of milliseconds 0).ms) = some (milliseconds : Int) := by
        change parseInt (decimal milliseconds) = _
        rw [parseInt_decimal, if_neg (Nat.not_lt.mpr short)]
      have second : parseInt (decimal (MsgId.of milliseconds 0).seq) = some (0 : Int) := by
        change parseInt (decimal 0) = _
        decide
      simp [first, second]

/-- The sample process behind one applied message that is not acknowledged yet. -/
def sampleConsumed (entry : StreamEntry) (after : Consumer) (written : SharedMemory)
    (rowData : List UInt8) : World :=
  { sampleOffered entry with
    group := some ⟨entry.id, [entry.id]⟩
    shared := written
    inserted := [⟨entry.id, "segment", ⟨"a", rowData⟩⟩]
    processed := [entry.id]
    run := some ⟨{ after with pendingAck := [entry.id] }, .reading, .waiting, [entry.id], [entry.id]⟩ }

theorem sampleConsumed_steps {milliseconds : Nat} (positive : 0 < milliseconds)
    (short : (decimal milliseconds).length ≤ intMaxStrDigits) {bits : UInt64} {bytes : List UInt8}
    (packed : packFloat sampleExternals .float32 bits = some bytes) (four : bytes.length = 4)
    {eventTimeNs : Int} {text : List UInt8} (printed : strInt eventTimeNs = some text)
    (dated : sampleDate eventTimeNs ≠ none) :
    let entry := sampleEntry milliseconds bits eventTimeNs
    let fresh := freshConsumer sampleDeployment sampleWorld.current
    ∃ after written rowData,
      SampleApplied fresh after (sampleOffered entry).shared written [] entry rowData ∧
      rowData.take 4 = bytes ∧
      after.offline = (fresh.offline.append sampleExternals sampleSchema "a" eventTimeNs
        [.float bits] entry.id.bytes).2 ∧
      Relation.ReflTransGen (CalmStep sampleDeployment) sampleWorld
        (sampleConsumed entry after written rowData) := by
  intro entry fresh
  have behind : MsgId.of 0 0 < entry.id := Prod.Lex.toLex_lt_toLex.mpr (Or.inl positive)
  obtain ⟨after, written, rowData, applied, score, offline⟩ :=
    sample_apply (sampleOffered_serving entry) (by simp [presentIds])
      (fun bucket => ⟨_, sample_parsed bucket short⟩) packed four printed dated
  refine ⟨after, written, rowData, applied, score, offline, ?_⟩
  refine .trans (sampleOffered_steps entry behind) ?_
  have consumed := @consume_steps sampleDeployment (sampleOffered entry) _ ⟨MsgId.of 0 0, []⟩ entry after
    written rfl rfl rfl rfl (by decide) (by
      simp [World.newBatch, sampleOffered, sampleDeployment, behind]) rfl (by decide)
    applied.returned false
  rw [applied.executed, show after.pendingAck = [] from applied.pendingAck] at consumed
  exact consumed

/-- A write of the score one at the start of the epoch. -/
def sampleFirst : StreamEntry := sampleEntry 1 0x3ff0000000000000 0

/-- A write of the score two behind it. -/
def sampleSecond : StreamEntry := sampleEntry 2 0x4000000000000000 0

section Messages

variable {consumer : Consumer} {shared : SharedMemory} {log : List InsertRequest}
  (serving : SampleServing consumer shared log)

include serving in
/-- A serving process applies the first sample message. -/
theorem sampleFirst_apply (single : presentIds log ⊆ {"a"}) : ∃ after written rowData,
    SampleApplied consumer after shared written log sampleFirst rowData ∧
    rowData.take 4 = [0, 0, 0x80, 0x3f] ∧
    after.offline = (consumer.offline.append sampleExternals sampleSchema "a" 0
      [.float 0x3ff0000000000000] (MsgId.of 1 0).bytes).2 :=
  sample_apply serving single (fun bucket => ⟨_, sample_parsed bucket (by decide)⟩) (by decide) rfl
    (show strInt 0 = some [48] by decide) (by decide)

include serving in
theorem sampleSecond_apply (single : presentIds log ⊆ {"a"}) : ∃ after written rowData,
    SampleApplied consumer after shared written log sampleSecond rowData ∧
    rowData.take 4 = [0, 0, 0, 0x40] ∧
    after.offline = (consumer.offline.append sampleExternals sampleSchema "a" 0
      [.float 0x4000000000000000] (MsgId.of 2 0).bytes).2 :=
  sample_apply serving single (fun bucket => ⟨_, sample_parsed bucket (by decide)⟩) (by decide) rfl
    (show strInt 0 = some [48] by decide) (by decide)

include serving in
theorem SampleServing.withPending (pending : List MsgId) :
    SampleServing { consumer with pendingAck := pending } shared log :=
  ⟨serving.schemas, serving.segments, serving.rowBuffer, serving.sound, serving.memory⟩

include serving in
theorem SampleServing.flushed (outcome : BucketKey → WriteOutcome) :
    SampleServing { consumer with
      offline := (consumer.offline.flush sampleExternals outcome).2.1 } shared log :=
  ⟨serving.schemas, serving.segments, serving.rowBuffer, flush_sound outcome serving.sound,
    serving.memory⟩

end Messages

/-- The row of a sample message can be sealed. -/
theorem sample_convertible {store : OfflineStore} (sound : store.Sound sampleExternals)
    (before : store.Convertible sampleExternals) {milliseconds : Nat} {bits : UInt64}
    {eventTimeNs : Int}
    (time : (ArrowType.leaf .int64).converts sampleExternals (.int eventTimeNs) = true)
    (score : (ArrowType.leaf .float32).converts sampleExternals (.float bits) = true)
    (early : (ArrowType.leaf .int64).converts sampleExternals (.int milliseconds) = true) :
    (store.append sampleExternals sampleSchema "a" eventTimeNs [.float bits]
      (MsgId.of milliseconds 0).bytes).2.Convertible sampleExternals := by
  refine append_convertible sound before
    (show arrowPlanFor sampleExternals.hashName sampleSchema = _ from sample_arrowPlan) time ?_ ?_ "a"
  · intro entry member
    simp at member
    rw [member]
    exact score
  · intro bucket parsed present numbers
    have same := parseMsgId_bytes numbers
    rw [present] at same
    rw [same]
    exact ⟨early, rfl⟩

theorem sampleEmpty_convertible : (OfflineStore.empty true).Convertible sampleExternals := by
  rintro key row ⟨bucket, member, _⟩
  cases member

/-- The first sample message is applied. -/
theorem sampleFirst_consumed :
    let fresh := freshConsumer sampleDeployment sampleWorld.current
    ∃ after written rowData,
      SampleApplied fresh after (sampleOffered sampleFirst).shared written [] sampleFirst rowData ∧
      rowData.take 4 = [0, 0, 0x80, 0x3f] ∧ after.offline.Convertible sampleExternals ∧
      Relation.ReflTransGen (PlainStep sampleDeployment) sampleWorld
        (sampleConsumed sampleFirst after written rowData) := by
  intro fresh
  obtain ⟨after, written, rowData, applied, score, offline, steps⟩ :=
    @sampleConsumed_steps 1 (by decide) (by decide) 0x3ff0000000000000 [0, 0, 0x80, 0x3f] (by decide)
      rfl 0 [48] (by decide) (by decide)
  refine ⟨after, written, rowData, applied, score, ?_, plain_of_calm steps⟩
  rw [offline]
  exact sample_convertible (OfflineStore.empty_sound sampleExternals true) sampleEmpty_convertible rfl
    rfl rfl

section Paused

variable {consumer : Consumer} {written : SharedMemory} {oldRow : List UInt8} {files : List SealedFile}
  {flusher : FlusherPhase}

/-- The sample process with its first message pending. -/
def sampleHeld (consumer : Consumer) (written : SharedMemory) (rowData : List UInt8)
    (files : List SealedFile) (flusher : FlusherPhase) : World :=
  { sampleConsumed sampleFirst consumer written rowData with
    files := files
    run := some ⟨{ consumer with pendingAck := [MsgId.of 1 0] }, .reading, flusher, [MsgId.of 1 0],
      [MsgId.of 1 0]⟩ }

/-- The sample process behind a pause that acknowledged its first message. -/
def sampleTrimmed (consumer : Consumer) (written : SharedMemory) (rowData : List UInt8)
    (files : List SealedFile) (flusher : FlusherPhase) : World :=
  { sampleHeld consumer written rowData files flusher with
    group := some ⟨MsgId.of 1 0, []⟩
    acked := [MsgId.of 1 0]
    run := some ⟨{ consumer with pendingAck := [] }, .reading, flusher, [MsgId.of 1 0],
      [MsgId.of 1 0]⟩ }

theorem sampleTrimmed_steps (serving : SampleServing consumer written [⟨"a", oldRow⟩])
    (running : consumer.stopEvent = false)
    (convertible : consumer.offline.Convertible sampleExternals) :
    ∃ after sealedFiles, SampleServing after written [⟨"a", oldRow⟩] ∧ after.stopEvent = false ∧
      after.offline.Convertible sampleExternals ∧
      Relation.ReflTransGen (PauseStep sampleDeployment (∀ other, flusher ≠ .acking other))
        (sampleHeld consumer written oldRow files flusher)
        (sampleTrimmed after written oldRow sealedFiles flusher) := by
  let flushed : Consumer := { consumer with
    offline := (consumer.offline.flush sampleExternals fun _ => .renamed).2.1 }
  have trimmed := @pauseTrim_steps sampleDeployment (sampleHeld consumer written oldRow files flusher) _
    ⟨MsgId.of 1 0, [MsgId.of 1 0]⟩ (fun _ => .renamed) rfl rfl running rfl (by decide) (by simp)
    (flush_succeeds_iff.mpr convertible) rfl (encodeUtf8 "Sample") (by decide) (fun _ => rfl)
  obtain ⟨memory, stored, _⟩ := serving.memory
  have opened : openCurrent sampleExternals sampleWorld.current written (encodeUtf8 "Sample")
      sampleSchema = .reopened "segment" := openCurrent_self rfl stored rfl sample_table
  have kept : reopenSegments sampleExternals sampleWorld.current written
      [(encodeUtf8 "Sample", sampleSchema)] { flushed with pendingAck := [] } =
      { flushed with pendingAck := [] } := by
    simp only [reopenSegments, opened]
    rw [if_pos serving.segments]
  have reopened : Relation.ReflTransGen
      (PauseStep sampleDeployment (∀ other, flusher ≠ .acking other))
      (sampleHeld consumer written oldRow files flusher)
      { sampleTrimmed flushed written oldRow _ flusher with
        run := some ⟨reopenSegments sampleExternals sampleWorld.current written
          [(encodeUtf8 "Sample", sampleSchema)] { flushed with pendingAck := [] }, .reading, flusher,
          [MsgId.of 1 0], [MsgId.of 1 0]⟩ } := trimmed
  rw [kept] at reopened
  exact ⟨flushed, _, serving.flushed _, running, flush_convertible convertible _, reopened⟩

/-- The sample process behind its second message, with the first one acknowledged. -/
def sampleResumed (consumer : Consumer) (written : SharedMemory) (oldRow rowData : List UInt8)
    (files : List SealedFile) (flusher : FlusherPhase) : World :=
  { sampleTrimmed consumer written oldRow files flusher with
    produced := [sampleFirst, sampleSecond]
    entries := [sampleFirst, sampleSecond]
    group := some ⟨MsgId.of 2 0, [MsgId.of 2 0]⟩
    inserted := [⟨MsgId.of 2 0, "segment", ⟨"a", rowData⟩⟩, ⟨MsgId.of 1 0, "segment", ⟨"a", oldRow⟩⟩]
    processed := [MsgId.of 1 0, MsgId.of 2 0]
    run := some ⟨{ consumer with pendingAck := [MsgId.of 2 0] }, .reading, flusher,
      [MsgId.of 1 0, MsgId.of 2 0], [MsgId.of 1 0, MsgId.of 2 0]⟩ }

theorem sampleResumed_steps (serving : SampleServing consumer written [⟨"a", oldRow⟩])
    (running : consumer.stopEvent = false)
    (convertible : consumer.offline.Convertible sampleExternals) :
    ∃ after rewritten rowData, after.stopEvent = false ∧
      after.offline.Convertible sampleExternals ∧
      Relation.ReflTransGen (CalmStep sampleDeployment)
        (sampleTrimmed consumer written oldRow files flusher)
        (sampleResumed after rewritten oldRow rowData files flusher) := by
  obtain ⟨later, rewritten, rowData, applied, _, offline⟩ :=
    sampleSecond_apply (serving.withPending []) (by simp [presentIds])
  have added : CalmStep sampleDeployment (sampleTrimmed consumer written oldRow files flusher)
      { sampleTrimmed consumer written oldRow files flusher with
        produced := [sampleFirst, sampleSecond], entries := [sampleFirst, sampleSecond] } :=
    calm_of_run (.environment (.xadd sampleSecond (by decide) (by
      intro other member
      obtain rfl := List.mem_singleton.mp member
      decide))) rfl running rfl (by simp) (by simp) (by simp) (by simp [sampleTrimmed])
  have consumed := @consume_steps sampleDeployment
    { sampleTrimmed consumer written oldRow files flusher with
      produced := [sampleFirst, sampleSecond], entries := [sampleFirst, sampleSecond] } _
    ⟨MsgId.of 1 0, []⟩ sampleSecond later rewritten rfl rfl running rfl (by decide) rfl rfl
    (show 0 < 2 * sampleDeployment.maxPendingAck by decide) applied.returned false
  have executed : executedInsert sampleDeployment { consumer with pendingAck := [] } written
      sampleSecond.id (some sampleSecond.fields) = some ⟨MsgId.of 2 0, "segment", ⟨"a", rowData⟩⟩ :=
    applied.executed
  rw [show later.pendingAck = [] from applied.pendingAck] at consumed
  refine ⟨later, rewritten, rowData, applied.stopEvent.trans running, ?_, .head added ?_⟩
  · rw [offline]
    exact sample_convertible serving.sound convertible rfl rfl rfl
  · refine consumed.trans ?_
    simp only [show (sampleTrimmed consumer written oldRow files flusher).shared = written from rfl,
      executed]
    exact .refl

end Paused

end Quorin
