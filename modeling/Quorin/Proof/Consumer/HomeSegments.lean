import Quorin.Proof.Consumer.SegmentLog
import Quorin.Proof.Consumer.StreamOrder
import Quorin.Proof.Consumer.DurableRuns

namespace Quorin

open ByteMemory

/-- A consumer holds the segments of the start world, with row buffers of their row sizes. -/
structure AtHome (deployment : Deployment) (start : World) (consumer : Consumer) : Prop where
  schemas : consumer.schemas = deployment.schemas
  segments : ∀ name segmentName, HomeOf deployment start name segmentName →
    consumer.segments name = some segmentName
  buffers : ∀ name schema size, deployment.schemas.lookup name = some schema →
    rowSize deployment.externals.hashName schema = .ok size →
    (consumer.rowBuffers name).length = size

/-- The current segment of a served name is the one of the start world, or none that can be opened. -/
def HomeCurrent (deployment : Deployment) (start world : World) : Prop :=
  ∀ name schema, deployment.schemas.lookup name = some schema →
    world.current name = none ∨ world.current name = start.current name ∨
      ∃ segmentName segment, world.current name = some segmentName ∧
        world.shared segmentName = some segment ∧
        verifyHeader deployment.externals segment schema = false

/-- An executed insert comes from an entry of the stream that can be packed again. -/
structure RecordOf (deployment : Deployment) (start : World) (entry : StreamEntry)
    (record : InsertRecord) (message : DecodedMessage) : Prop where
  named : entry.id = record.msgId
  decoded : decodeMessage deployment.externals deployment.schemas entry.fields = .ok (some message)
  entity : message.entityId = record.request.entityId
  home : HomeOf deployment start message.name record.segment
  packs : ∀ size, rowSize deployment.externals.hashName message.schema = .ok size →
    ∀ buffer, buffer.length = size → (packMessage deployment.externals message buffer).1 = true

/-- Every consumer writes to the segments of the start world, and the log explains them. -/
structure Homely (deployment : Deployment) (start world : World) : Prop where
  logged : ∀ name segmentName, HomeOf deployment start name segmentName →
    LoggedSegment deployment start world segmentName
  current : HomeCurrent deployment start world
  run : ∀ run, world.run = some run → AtHome deployment start run.consumer
  records : ∀ record ∈ world.inserted, ∃ entry ∈ world.produced, ∃ message,
    RecordOf deployment start entry record message

/-- An entry of a table with distinct keys is found under its key. -/
theorem lookup_of_mem {κ ν : Type} [BEq κ] [LawfulBEq κ] {table : List (κ × ν)}
    (distinct : (table.map Prod.fst).Nodup) {key : κ} {value : ν} (member : (key, value) ∈ table) :
    table.lookup key = some value := by
  obtain ⟨before, after, rfl⟩ := List.append_of_mem member
  rw [List.lookup_eq_some_iff]
  refine ⟨before, after, rfl, ?_⟩
  intro entry early
  rw [List.map_append, List.map_cons, List.nodup_append] at distinct
  have different := distinct.2.2 entry.1 (List.mem_map_of_mem early) key List.mem_cons_self
  exact bne_iff_ne.mpr (Ne.symm different)

section Current

variable {deployment : Deployment} {start world after : World}

/-- A name that can be opened leads to the segment of the start world. -/
theorem HomeCurrent.opened (current : HomeCurrent deployment start world) {name : List UInt8}
    {schema : FeatureSchema} (served : deployment.schemas.lookup name = some schema)
    {segmentName : String}
    (opened : openCurrent deployment.externals world.current world.shared name schema =
      .reopened segmentName) :
    world.current name = some segmentName ∧ start.current name = some segmentName := by
  unfold openCurrent at opened
  cases points : world.current name with
  | none => simp [points] at opened
  | some target =>
      simp only [points] at opened
      cases present : world.shared target with
      | none => simp [present] at opened
      | some segment =>
          simp only [present] at opened
          split at opened
          · rename_i verified
            obtain rfl := ReopenResult.reopened.inj opened
            rcases current name schema served with absent | same | ⟨other, refused, pointed, stored, failed⟩
            · rw [points] at absent
              cases absent
            · exact ⟨rfl, same ▸ points⟩
            · rw [points] at pointed
              obtain rfl := Option.some.inj pointed
              rw [present] at stored
              obtain rfl := Option.some.inj stored
              rw [verified] at failed
              cases failed
          · cases opened

/-- The reopen loop swaps nothing: it keeps the consumer or asks it to stop. -/
theorem AtHome.reopen (current : HomeCurrent deployment start world) {consumer : Consumer}
    (home : AtHome deployment start consumer)
    (namesDistinct : (deployment.schemas.map Prod.fst).Nodup) :
    reopenSegments deployment.externals world.current world.shared deployment.schemas consumer =
        consumer ∨
      reopenSegments deployment.externals world.current world.shared deployment.schemas consumer =
        { consumer with stopEvent := true } := by
  have every : ∀ schemas, (∀ entry ∈ schemas, entry ∈ deployment.schemas) →
      reopenSegments deployment.externals world.current world.shared schemas consumer = consumer ∨
        reopenSegments deployment.externals world.current world.shared schemas consumer =
          { consumer with stopEvent := true } := by
    intro schemas within
    induction schemas with
    | nil => exact Or.inl rfl
    | cons entry rest ih =>
        obtain ⟨name, schema⟩ := entry
        have member := within (name, schema) List.mem_cons_self
        unfold reopenSegments
        cases opened : openCurrent deployment.externals world.current world.shared name schema with
        | reopened segmentName =>
            have served := lookup_of_mem namesDistinct member
            have points := current.opened served opened
            have held := home.segments name segmentName ⟨List.mem_map_of_mem member, points.2⟩
            dsimp only
            rw [if_pos held]
            exact ih fun other later => within other (List.mem_cons_of_mem _ later)
        | schemaCRCMismatch => exact Or.inr rfl
        | segmentNotFound => exact Or.inr rfl
  exact every deployment.schemas fun entry member => member

/-- A step of the process keeps the schema of every segment. -/
theorem SegmentEffect.schema_kept (effect : SegmentEffect deployment world after)
    {segmentName : String} {segment : Segment} (present : world.shared segmentName = some segment) :
    ∃ later, after.shared segmentName = some later ∧ later.schema = segment.schema := by
  have written : ∀ target (other : Segment) (memory : Memory), world.shared target = some other →
      ∃ later, Function.update world.shared target (some { other with memory := memory }) segmentName =
        some later ∧ later.schema = segment.schema := by
    intro target other memory stored
    by_cases same : segmentName = target
    · rw [same, Function.update_self]
      rw [same, stored] at present
      have schema : other.schema = segment.schema :=
        congrArg Segment.schema (Option.some.inj present)
      exact ⟨_, rfl, schema⟩
    · rw [Function.update_of_ne same]
      exact ⟨segment, present, rfl⟩
  cases effect with
  | none shared inserted =>
      rw [shared]
      exact ⟨segment, present, rfl⟩
  | @applied run caller msgId fields rest applied live phase shared inserted =>
      rcases apply_effect deployment run.consumer world.shared msgId fields with
        ⟨same, _⟩ | ⟨prepared, target, other, call, effect, _⟩
      · rw [shared, same]
        exact ⟨segment, present, rfl⟩
      · rw [shared, effect]
        exact written target other _ call.present.2
  | @cut run fields prepared target other count live call early shared inserted =>
      rw [shared]
      exact written target other _ call.present.2

theorem verifyHeader_schema {externals : Externals} {first second : Segment} (schema : FeatureSchema)
    (same : first.schema = second.schema) :
    verifyHeader externals first schema = verifyHeader externals second schema := by
  simp [verifyHeader, same]

/-- Segments that keep their schemas keep the refused names refused. -/
theorem HomeCurrent.kept (home : HomeCurrent deployment start world)
    (current : after.current = world.current)
    (schemas : ∀ segmentName segment, world.shared segmentName = some segment →
      ∃ later, after.shared segmentName = some later ∧ later.schema = segment.schema) :
    HomeCurrent deployment start after := by
  intro name schema served
  rw [current]
  rcases home name schema served with absent | same | ⟨target, segment, points, present, failed⟩
  · exact Or.inl absent
  · exact Or.inr (Or.inl same)
  · obtain ⟨later, stored, sameSchema⟩ := schemas target segment present
    refine Or.inr (Or.inr ⟨target, later, points, stored, ?_⟩)
    rw [verifyHeader_schema schema sameSchema, failed]

end Current

section Records

variable {deployment : Deployment} {start world after : World} {run : Run}

/-- An executed insert explains its record. -/
theorem executedInsert_recordOf (home : AtHome deployment start run.consumer)
    (served : ∀ name ∈ deployment.schemas.map Prod.fst, ∃ segmentName,
      start.current name = some segmentName)
    {msgId : MsgId} {fields : MessageFields} {record : InsertRecord}
    (executed : executedInsert deployment run.consumer world.shared msgId (some fields) =
      some record) :
    ∃ message, RecordOf deployment start ⟨msgId, fields⟩ record message := by
  have present : executedInsert deployment run.consumer world.shared msgId (some fields) ≠ none := by
    rw [executed]
    exact Option.some_ne_none _
  rcases apply_effect deployment run.consumer world.shared msgId (some fields) with
    ⟨_, nothing⟩ | ⟨prepared, segmentName, segment, call, _, shape⟩
  · exact absurd nothing present
  rw [executed] at shape
  obtain ⟨held, same, ready⟩ := call.ready
  obtain rfl := Option.some.inj same
  obtain ⟨decoded, packed, entity⟩ := prepareInsert_some ready
  rw [home.schemas] at decoded
  have known := (decodeMessage_some decoded).2.1
  split at shape
  · cases shape
  · obtain rfl := Option.some.inj shape
    have named : prepared.message.name ∈ deployment.schemas.map Prod.fst := by
      obtain ⟨before, after, split, _⟩ := List.lookup_eq_some_iff.mp known
      rw [split]
      simp
    obtain ⟨homeName, start⟩ := served _ named
    have handle := home.segments _ _ ⟨named, start⟩
    rw [call.present.1] at handle
    obtain rfl := Option.some.inj handle
    refine ⟨prepared.message, rfl, decoded, entity.symm, ⟨named, start⟩, ?_⟩
    intro size sized buffer length
    apply packMessage_again (congrArg Prod.fst packed)
    rw [home.buffers _ _ size known sized, length]

/-- A present id accepts every row of the right length. -/
theorem LoggedSegment.insert_again {segmentName : String}
    (logged : LoggedSegment deployment start world segmentName) {record : InsertRecord}
    (member : record ∈ world.inserted) (here : record.segment = segmentName) :
    ∃ first memory, start.shared segmentName = some first ∧
      world.shared segmentName = some { first with memory := memory } ∧
      ∀ rowData, rowData.length = first.layout.rowSize →
        (insert deployment.externals.hashId first.layout record.request.entityId rowData).result
          memory = .ok false := by
  obtain ⟨first, memory, base, lost, origin, sound, present, refined⟩ := logged
  refine ⟨first, memory, origin, present, ?_⟩
  intro rowData length
  have stored : record.request ∈ segmentLog world.inserted segmentName ++ base := by
    refine List.mem_append_left _ (List.mem_map_of_mem (List.mem_filter.mpr ⟨member, ?_⟩))
    simpa using here
  have row : lastRow (segmentLog world.inserted segmentName ++ base) record.request.entityId ≠ none := by
    intro missing
    rw [lastRow, Option.map_eq_none_iff, List.find?_eq_none] at missing
    exact missing record.request stored (by simp)
  have contained : contents first.layout memory record.request.entityId ≠ none := by
    rw [← refined.rows] at row
    exact row
  have nonempty := contents_nonempty refined.consistent contained
  have short := contents_short refined.consistent contained
  have inserted := (refined.behavesAsMap sound).inserted record.request.entityId rowData nonempty length
  dsimp only at inserted row ⊢
  rw [inserted, if_neg (Nat.not_lt.mpr short), if_neg fun full => row full.1,
    Option.isNone_eq_false_iff.mpr (Option.isSome_iff_ne_none.mpr row)]

/-- The segments of the start world have the row sizes of their schemas. -/
theorem World.Initial.rowSize (initial : start.Initial deployment) {name : List UInt8}
    {schema : FeatureSchema} (served : deployment.schemas.lookup name = some schema)
    {segmentName : String} (home : HomeOf deployment start name segmentName) {first : Segment}
    (origin : start.shared segmentName = some first) :
    Quorin.rowSize deployment.externals.hashName schema = .ok first.layout.rowSize := by
  obtain ⟨before, after, split, _⟩ := List.lookup_eq_some_iff.mp served
  have member : (name, schema) ∈ deployment.schemas := by
    rw [split]
    simp
  obtain ⟨target, segment, capacity, maxIdBytes, header, calls, points, present, _, computed, _⟩ :=
    initial.segments _ member
  rw [home.2] at points
  obtain rfl := Option.some.inj points
  rw [origin] at present
  obtain rfl := Option.some.inj present
  exact (computeLayout_parts computed).2.1

/-- A message whose insert was executed once is inserted again when it is replayed. -/
theorem executedInsert_again (initial : start.Initial deployment)
    (homely : Homely deployment start world) (live : world.run = some run) {entry : StreamEntry}
    {record : InsertRecord} {message : DecodedMessage} (member : record ∈ world.inserted)
    (recordOf : RecordOf deployment start entry record message) :
    executedInsert deployment run.consumer world.shared entry.id (some entry.fields) ≠ none := by
  have home := homely.run run live
  obtain ⟨first, memory, origin, present, accepts⟩ :=
    (homely.logged _ _ recordOf.home).insert_again member rfl
  have known := (decodeMessage_some recordOf.decoded).2.1
  have sized := initial.rowSize known recordOf.home origin
  have length := home.buffers _ _ _ known sized
  have packed := recordOf.packs _ sized _ length
  have fits := (@packMessage_length deployment.externals message
    (run.consumer.rowBuffers message.name)).trans length
  have ready : (prepareInsert deployment.externals run.consumer entry.fields).1 =
      .ok (some ⟨message, ⟨message.entityId, (packMessage deployment.externals message
        (run.consumer.rowBuffers message.name)).2⟩⟩) := by
    simp [prepareInsert, home.schemas, recordOf.decoded, packed]
  have held : run.consumer.held world.shared message.name =
      some (record.segment, { first with memory := memory }) := by
    simp [Consumer.held, home.segments _ _ recordOf.home, present]
  have inserted := accepts _ fits
  rw [← recordOf.entity] at inserted
  simp [executedInsert, ready, held, inserted]

end Records

section Steps

variable {deployment : Deployment} {start world after : World}

theorem AtHome.congr {before later : Consumer} (home : AtHome deployment start before)
    (schemas : later.schemas = before.schemas) (segments : later.segments = before.segments)
    (buffers : ∀ name, (later.rowBuffers name).length = (before.rowBuffers name).length) :
    AtHome deployment start later where
  schemas := schemas.trans home.schemas
  segments := fun name segmentName place => by
    rw [segments]
    exact home.segments name segmentName place
  buffers := fun name schema size served sized => by
    rw [buffers]
    exact home.buffers name schema size served sized

/-- A new process opens the segments of the start world. -/
theorem HomeCurrent.fresh (current : HomeCurrent deployment start world)
    (namesDistinct : (deployment.schemas.map Prod.fst).Nodup)
    (opened : ∀ entry ∈ deployment.schemas, ∃ segmentName,
      openCurrent deployment.externals world.current world.shared entry.1 entry.2 =
        .reopened segmentName) :
    AtHome deployment start (freshConsumer deployment world.current) where
  schemas := rfl
  segments := by
    intro name segmentName home
    obtain ⟨entry, member, rfl⟩ := List.mem_map.mp home.1
    obtain ⟨target, opens⟩ := opened entry member
    obtain ⟨points, same⟩ := current.opened (lookup_of_mem namesDistinct member) opens
    rw [home.2] at same
    obtain rfl := Option.some.inj same
    simp only [freshConsumer, home.1, if_true, points]
  buffers := by
    intro name schema size served sized
    simp [freshConsumer, served, sized, Except.toOption]

/-- Every step of the process keeps the handles at home. -/
theorem HandleEffect.atHome (effect : HandleEffect deployment world after)
    (namesDistinct : (deployment.schemas.map Prod.fst).Nodup)
    (current : HomeCurrent deployment start world)
    (home : ∀ run, world.run = some run → AtHome deployment start run.consumer) :
    ∀ run, after.run = some run → AtHome deployment start run.consumer := by
  intro run live
  cases effect with
  | absent none =>
      rw [none] at live
      cases live
  | kept before now schemas segments buffers =>
      obtain rfl := Option.some.inj (now.symm.trans live)
      exact (home _ before).congr schemas segments buffers
  | fresh now consumer opened =>
      obtain rfl := Option.some.inj (now.symm.trans live)
      rw [consumer]
      exact current.fresh namesDistinct opened
  | reopened before now consumer =>
      obtain rfl := Option.some.inj (now.symm.trans live)
      rw [consumer]
      rcases AtHome.reopen current (home _ before) namesDistinct with same | stopped
      · rw [same]
        exact home _ before
      · rw [stopped]
        exact (home _ before).congr rfl rfl fun _ => rfl

theorem ConsumerStep.produced (step : ConsumerStep deployment world after) :
    after.produced = world.produced := by
  rcases step with step | step | step | step <;> cases step <;> rfl

/-- A step of the process adds only records of entries of the stream. -/
theorem SegmentEffect.records (effect : SegmentEffect deployment world after)
    (served : ∀ name ∈ deployment.schemas.map Prod.fst, ∃ segmentName,
      start.current name = some segmentName)
    (durable : Durable deployment world) (homely : Homely deployment start world) :
    ∀ record ∈ after.inserted, ∃ entry ∈ world.produced, ∃ message,
      RecordOf deployment start entry record message := by
  cases effect with
  | none shared inserted =>
      rw [inserted]
      exact homely.records
  | cut live call early shared inserted =>
      rw [inserted]
      exact homely.records
  | @applied run caller msgId fields rest applied live phase shared inserted =>
      rw [inserted]
      intro record member
      rcases List.mem_append.mp member with new | old
      · have executed := Option.mem_toList.mp new
        cases fields with
        | none => cases executed
        | some fields =>
            have held : (msgId, some fields) ∈ run.reader.batch := by
              rw [phase]
              exact List.mem_cons_self
            exact ⟨⟨msgId, fields⟩, (durable.run run live).batch msgId fields held,
              executedInsert_recordOf (homely.run run live) served executed⟩
      · exact homely.records record old

theorem World.Initial.served (initial : start.Initial deployment) :
    ∀ name ∈ deployment.schemas.map Prod.fst, ∃ segmentName,
      start.current name = some segmentName := by
  intro name served
  obtain ⟨entry, member, rfl⟩ := List.mem_map.mp served
  obtain ⟨segmentName, _, _, _, _, _, points, _⟩ := initial.segments entry member
  exact ⟨segmentName, points⟩

theorem ConsumerStep.homely (step : ConsumerStep deployment world after)
    (initial : start.Initial deployment) (durable : Durable deployment world)
    (homely : Homely deployment start world) : Homely deployment start after where
  logged := fun name segmentName home => step.segmentEffect.logged (homely.logged name segmentName home)
  current := homely.current.kept step.current fun _ _ present => step.segmentEffect.schema_kept present
  run := step.handleEffect.atHome initial.namesDistinct homely.current homely.run
  records := by
    rw [step.produced]
    exact step.segmentEffect.records initial.served durable homely

/-- A step of the environment that touches neither segments nor names. -/
theorem Homely.congr (homely : Homely deployment start world)
    (shared : after.shared = world.shared) (current : after.current = world.current)
    (inserted : after.inserted = world.inserted) (run : after.run = world.run)
    (produced : world.produced ⊆ after.produced) : Homely deployment start after where
  logged := fun name segmentName home =>
    (homely.logged name segmentName home).congr (by rw [shared]) inserted
  current := homely.current.kept current fun segmentName segment present =>
    ⟨segment, by rw [shared, present], rfl⟩
  run := by
    rw [run]
    exact homely.run
  records := by
    rw [inserted]
    intro record member
    obtain ⟨entry, stored, explained⟩ := homely.records record member
    exact ⟨entry, produced stored, explained⟩

theorem EnvironmentStep.homely (step : EnvironmentStep deployment world after)
    (homely : Homely deployment start world) : Homely deployment start after := by
  cases step with
  | xadd entry positive newer =>
      exact homely.congr rfl rfl rfl rfl (List.subset_append_left _ _)
  | trim count => exact homely.congr rfl rfl rfl rfl (List.Subset.refl _)
  | livenessExpires => exact homely.congr rfl rfl rfl rfl (List.Subset.refl _)
  | pause name value => exact homely.congr rfl rfl rfl rfl (List.Subset.refl _)
  | flip name target segment unused refused =>
      have others : ∀ other present, world.shared other = some present →
          Function.update world.shared target (some segment) other = some present := by
        intro other present stored
        rw [Function.update_of_ne (fun same => by rw [same, unused] at stored; cases stored), stored]
      refine ⟨?_, ?_, homely.run, homely.records⟩
      · intro served segmentName home
        have logged := homely.logged served segmentName home
        obtain ⟨first, memory, _, _, _, _, present, _⟩ := id logged
        exact logged.congr ((others _ _ present).trans present.symm) rfl
      · intro other schema served
        by_cases same : other = name
        · subst same
          refine Or.inr (Or.inr ⟨target, segment, Function.update_self .., Function.update_self .., ?_⟩)
          exact refused schema served
        · dsimp only
          rw [Function.update_of_ne same]
          rcases homely.current other schema served with
            absent | home | ⟨segmentName, present, points, stored, failed⟩
          · exact Or.inl absent
          · exact Or.inr (Or.inl home)
          · exact Or.inr (Or.inr ⟨segmentName, present, points, others _ _ stored, failed⟩)
  | deleteCurrent name =>
      refine ⟨fun served segmentName home => (homely.logged served segmentName home).congr rfl rfl, ?_,
        homely.run, homely.records⟩
      intro other schema served
      by_cases same : other = name
      · subst same
        exact Or.inl (Function.update_self ..)
      · dsimp only
        rw [Function.update_of_ne same]
        exact homely.current other schema served

theorem WorldStep.homely (step : WorldStep deployment world after)
    (initial : start.Initial deployment) (durable : Durable deployment world)
    (homely : Homely deployment start world) : Homely deployment start after := by
  cases step with
  | environment step => exact step.homely homely
  | consumer step => exact step.homely initial durable homely

theorem World.Initial.homely (initial : start.Initial deployment) :
    Homely deployment start start := by
  refine ⟨?_, fun name schema served => Or.inr (Or.inl rfl), ?_, ?_⟩
  · intro name segmentName home
    obtain ⟨entry, member, rfl⟩ := List.mem_map.mp home.1
    obtain ⟨target, segment, capacity, maxIdBytes, header, calls, points, present, _, computed,
      headerLength, memory⟩ := initial.segments entry member
    rw [home.2] at points
    obtain rfl := Option.some.inj points
    have sound := computeLayout_sound computed
    have refined := runCalls_refined deployment.externals.hashId sound headerLength calls
    generalize runCalls deployment.externals.hashId segment.layout header calls = history
      at memory refined
    refine ⟨segment, segment.memory, history.log, history.lost, present, sound, present, ?_⟩
    rw [initial.inserted, memory]
    exact refined
  · rw [initial.run]
    exact fun run live => by cases live
  · rw [initial.inserted]
    exact fun record member => absurd member List.not_mem_nil

end Steps

end Quorin
