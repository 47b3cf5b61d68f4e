import Quorin.Proof.Consumer.ReadYourWrites
import Quorin.Proof.Offline.AppliedStream
import Quorin.Proof.Serving.WireRoundTrip

namespace Quorin

open ByteMemory

/-- The row of a record holds the values of a produced message. -/
def PackedRecord (deployment : Deployment) (produced : List StreamEntry) (record : InsertRecord) :
    Prop :=
  ∃ entry ∈ produced, entry.id = record.msgId ∧ ∃ message items,
    decodeMessage deployment.externals deployment.schemas entry.fields = .ok (some message) ∧
      message.values.items = some items ∧
      HoldsValues deployment.externals message.schema items record.request.rowData

section Records

variable {deployment : Deployment} {start world after : World}

/-- An executed insert packs the values of its message. -/
theorem executedInsert_packed {consumer : Consumer} {shared : SharedMemory} {msgId : MsgId}
    {fields : MessageFields} {record : InsertRecord}
    (executed : executedInsert deployment consumer shared msgId (some fields) = some record) :
    record.msgId = msgId ∧ ∃ message items,
      decodeMessage deployment.externals consumer.schemas fields = .ok (some message) ∧
        message.values.items = some items ∧
        HoldsValues deployment.externals message.schema items record.request.rowData := by
  unfold executedInsert at executed
  dsimp only at executed
  split at executed
  · cases executed
  · cases executed
  · rename_i prepared ready
    obtain ⟨decoded, packed, _⟩ := prepareInsert_some ready
    obtain ⟨items, values, holds⟩ := packMessage_holds packed
    split at executed
    · cases executed
    · split at executed
      · cases executed
      · obtain rfl := Option.some.inj executed
        exact ⟨rfl, prepared.message, items, decoded, values, holds⟩

/-- A step adds only records that hold the values of produced messages. -/
theorem BatchEffect.packed (effect : BatchEffect deployment world after)
    (grown : ∀ entry ∈ world.produced, entry ∈ after.produced)
    (durable : Durable deployment world)
    (packed : ∀ record ∈ world.inserted, PackedRecord deployment world.produced record) :
    ∀ record ∈ after.inserted, PackedRecord deployment after.produced record := by
  have before : ∀ record ∈ world.inserted, PackedRecord deployment after.produced record := by
    intro record member
    obtain ⟨entry, stored, explained⟩ := packed record member
    exact ⟨entry, grown entry stored, explained⟩
  cases effect with
  | idle inserted empty => exact inserted ▸ before
  | kept live now inserted batch arrivals => exact inserted ▸ before
  | received now inserted present moved batch arrivals => exact inserted ▸ before
  | replayed now inserted present batch arrivals => exact inserted ▸ before
  | @applied run next origin msgId fields rest others later live now phase turned inserted =>
      rw [inserted]
      intro record member
      rcases List.mem_append.mp member with new | old
      · have executed := Option.mem_toList.mp new
        cases fields with
        | none => cases executed
        | some fields =>
            have held := durable.run _ live
            have listed : (msgId, some fields) ∈ run.reader.batch := by
              rw [phase]
              exact List.mem_cons_self
            obtain ⟨named, message, items, decoded, values, holds⟩ := executedInsert_packed executed
            rw [held.schemas] at decoded
            exact ⟨_, grown _ (held.batch msgId fields listed), named.symm, message, items, decoded,
              values, holds⟩
      · exact before record old

/-- Every record of a run holds the values of a produced message. -/
theorem packed_of_steps (initial : start.Initial deployment)
    (steps : Relation.ReflTransGen (WorldStep deployment) start world) :
    ∀ record ∈ world.inserted, PackedRecord deployment world.produced record := by
  induction steps with
  | refl =>
      rw [initial.inserted]
      exact fun record member => absurd member List.not_mem_nil
  | tail before step ih =>
      exact step.batchEffect.packed step.streamEffect.grown (durable_of_steps initial.durable before) ih

end Records

/-- A producer wrote an entry for an entity of a served class. -/
structure WrittenEntry {Object : Type} (deployment : Deployment) (pydantic : Pydantic Object)
    (entry : StreamEntry) (schema : FeatureSchema) (entityId : String)
    (values : List (String × Object)) : Prop where
  served : deployment.schemas.lookup (encodeUtf8 schema.className) = some schema
  written : ∃ eventTimeNs,
    doWrite deployment.externals pydantic schema entityId values eventTimeNs = .ok entry.fields

/-- Every entry that decodes to a message of a served class was written by a producer. -/
def ProducedBy {Object : Type} (deployment : Deployment) (pydantic : Pydantic Object)
    (produced : List StreamEntry) : Prop :=
  ∀ entry ∈ produced, ∀ message,
    decodeMessage deployment.externals deployment.schemas entry.fields = .ok (some message) →
    ∃ schema entityId values, WrittenEntry deployment pydantic entry schema entityId values

/-- The segment of a class serves, for an entity, the casts of the values of a write that is not older
than the given one. -/
def ServesWrite {Object : Type} (deployment : Deployment) (pydantic : Pydantic Object)
    (start world : World) (entry : StreamEntry) (schema : FeatureSchema) (entityId : String) : Prop :=
  ∃ later ∈ world.produced, entry.id ≤ later.id ∧ ∃ values,
    WrittenEntry deployment pydantic later schema entityId values ∧
    ∃ segmentName segment, start.current (encodeUtf8 schema.className) = some segmentName ∧
      world.shared segmentName = some segment ∧
      ∀ (F : Type) (toFloat32 : DType → List UInt8 → F) (undefined : Nat → F)
        (out : Option (OutVector F)), (∀ given, out = some given → given.suits segment.layout = true) →
        servingAssemble toFloat32 segment.memory deployment.externals.hashId segment.layout undefined
            entityId out =
          .ok (ownVector deployment.externals.castBits toFloat32 schema (ownValue pydantic values))

section Values

variable {externals : Externals}

/-- A value that was encoded was encoded as its elements. -/
theorem encodeField_elements {field : FeatureField} {value : WireValue}
    (converts : field.shape ≠ [] → externals.ConvertsLists) (flat : field.shape.length ≤ 2)
    (suits : value.Matches field.dtype field.shape) {elements : List (List UInt8)}
    (encoded : encodeField externals field value = some elements) :
    elements = valueElements externals.castBits field.dtype field.shape value := by
  by_cases scalar : field.shape = []
  · have packed : encodeField externals field value =
        (structPack externals field.dtype value).map fun bytes => [bytes] := if_pos scalar
    rw [scalar] at suits ⊢
    rw [packed] at encoded
    rcases structPack_cases suits with ⟨_, refused⟩ | ⟨_, bytes⟩
    · rw [refused] at encoded
      cases encoded
    · rw [bytes] at encoded
      exact (Option.some.inj encoded).symm
  · rcases encodeField_cases (converts scalar) flat suits with ⟨_, refused⟩ | ⟨_, bytes⟩
    · rw [refused] at encoded
      cases encoded
    · exact Option.some.inj (encoded.symm.trans bytes)

/-- A row that holds the items of a write holds the elements of its own values. -/
theorem WrittenMessage.held_encodes {Object : Type} {pydantic : Pydantic Object}
    {schema : FeatureSchema} {entityId : String} {values : List (String × Object)} {eventTimeNs : Int}
    {fields : MessageFields} {items : List WireValue}
    (message : WrittenMessage externals pydantic schema entityId values eventTimeNs fields items)
    (converts : ∀ field ∈ schema.fields, field.shape ≠ [] → externals.ConvertsLists)
    {row : List UInt8} (held : HoldsValues externals schema items row) :
    ∀ field ∈ schema.fields, encodeField externals field (ownValue pydantic values field) =
      some (valueElements externals.castBits field.dtype field.shape
        (ownValue pydantic values field)) := by
  intro field member
  have wired := (@mem_wireOrder externals.hashName schema field).mpr member
  obtain ⟨index, inside, rfl⟩ := List.mem_iff_getElem.mp wired
  have there : index < items.length := message.validated.length_eq ▸ inside
  obtain ⟨object, looked, valid⟩ := message.validated.get inside there
  rw [List.get_eq_getElem] at looked valid
  have own : ownValue pydantic values (wireOrder externals.hashName schema)[index] =
      items[index] := by
    rw [ownValue, looked, Option.bind_some, valid]
    rfl
  have placed : index < (wirePlaced externals.hashName schema).length := by
    rw [held.length_eq]
    exact there
  have field : (wireOrder externals.hashName schema)[index] =
      (wirePlaced externals.hashName schema)[index].1 := by
    simp only [← wirePlaced_fields, List.getElem_map]
  have stored := held.get placed there
  rw [List.get_eq_getElem, List.get_eq_getElem, ← field] at stored
  obtain ⟨elements, encoded, _⟩ := Option.map_eq_some_iff.mp stored
  rw [own, encoded]
  exact congrArg some (encodeField_elements (converts _ member) (message.flat _ member)
    (validateField_matches valid) encoded)

end Values

section Served

variable {Object : Type} {pydantic : Pydantic Object} {deployment : Deployment} {start world : World}

/-- The decoded parts of an entry are what its producer wrote. -/
theorem WrittenEntry.decoded {entry : StreamEntry} {schema : FeatureSchema} {entityId : String}
    {values : List (String × Object)} (written : WrittenEntry deployment pydantic entry schema entityId
      values) (lossless : deployment.externals.RoundTrips) {message : DecodedMessage}
    (decoded : decodeMessage deployment.externals deployment.schemas entry.fields = .ok (some message)) :
    message.name = encodeUtf8 schema.className ∧ message.schema = schema ∧
      message.entityId = entityId ∧ ∃ eventTimeNs items, message.values = .list items ∧
        WrittenMessage deployment.externals pydantic schema entityId values eventTimeNs entry.fields
          items := by
  obtain ⟨eventTimeNs, accepted⟩ := written.written
  obtain ⟨items, parts⟩ := doWrite_message accepted
  obtain ⟨named, known, name, unpacked⟩ := decodeMessage_some decoded
  have sameName : message.name = encodeUtf8 schema.className :=
    Option.some.inj (named.symm.trans parts.named)
  rw [sameName, written.served] at known
  rw [parts.keyed, Option.bind_some, decodeUtf8_encodeUtf8] at name
  rw [parts.carried lossless] at unpacked
  exact ⟨sameName, (Option.some.inj known).symm, (Option.some.inj name).symm, eventTimeNs, items,
    (Option.some.inj unpacked).symm, parts⟩

/-- The segment of a served class in the start world was laid out for the class. -/
theorem World.Initial.laidOut (initial : start.Initial deployment) {name : List UInt8}
    {schema : FeatureSchema} (served : deployment.schemas.lookup name = some schema)
    {segmentName : String} (home : HomeOf deployment start name segmentName) {first : Segment}
    (origin : start.shared segmentName = some first) :
    ∃ capacity maxIdBytes, computeLayout deployment.externals.hashName schema capacity maxIdBytes =
      .ok first.layout := by
  obtain ⟨target, segment, capacity, maxIdBytes, _, _, points, present, _, computed, _⟩ :=
    initial.segments (name, schema) (lookup_mem served)
  rw [home.2] at points
  obtain rfl := Option.some.inj points
  rw [origin] at present
  obtain rfl := Option.some.inj present
  exact ⟨capacity, maxIdBytes, computed⟩

/-- The newest record of an entity is served as the casts of the values of its own message. -/
theorem served_newestRecord (facts : DrainFacts deployment start world)
    (packed : ∀ record ∈ world.inserted, PackedRecord deployment world.produced record)
    (lossless : deployment.externals.RoundTrips)
    (converts : ∀ served ∈ deployment.schemas, ∀ field ∈ served.2.fields, field.shape ≠ [] →
      deployment.externals.ConvertsLists)
    {target : String × String} {record : InsertRecord}
    (search : newestRecord world.inserted target = some record) {entry : StreamEntry}
    (stored : entry ∈ world.produced) (named : entry.id = record.msgId) {schema : FeatureSchema}
    {entityId : String} {values : List (String × Object)}
    (written : WrittenEntry deployment pydantic entry schema entityId values) :
    HomeOf deployment start (encodeUtf8 schema.className) record.segment ∧
      record.request.entityId = entityId ∧ ∃ segment, world.shared record.segment = some segment ∧
        ∀ (F : Type) (toFloat32 : DType → List UInt8 → F) (undefined : Nat → F)
          (out : Option (OutVector F)), (∀ given, out = some given → given.suits segment.layout = true) →
          servingAssemble toFloat32 segment.memory deployment.externals.hashId segment.layout undefined
              entityId out =
            .ok (ownVector deployment.externals.castBits toFloat32 schema (ownValue pydantic values)) := by
  obtain ⟨member, same, serves⟩ := facts.serves search
  obtain ⟨origin, known, message, recordOf⟩ := facts.homely.records record member
  obtain rfl := facts.ordered.unique known stored (recordOf.named.trans named.symm)
  obtain ⟨other, otherKnown, otherNamed, otherMessage, items, decoded, content, held⟩ :=
    packed record member
  obtain rfl := facts.ordered.unique otherKnown stored (otherNamed.trans named.symm)
  obtain rfl := Option.some.inj (Except.ok.inj (decoded.symm.trans recordOf.decoded))
  obtain ⟨sameName, sameSchema, sameEntity, _, wire, list, parts⟩ := written.decoded lossless decoded
  have home := recordOf.home
  rw [sameName] at home
  rw [list] at content
  obtain rfl := Option.some.inj content
  rw [sameSchema] at held
  have entity : record.request.entityId = entityId := recordOf.entity.symm.trans sameEntity
  obtain ⟨first, memory, base, lost, begun, sound, present, refined⟩ :=
    facts.homely.logged _ _ home
  obtain ⟨capacity, maxIdBytes, computed⟩ := facts.initial.laidOut written.served home begun
  refine ⟨home, entity, _, present, ?_⟩
  intro F toFloat32 undefined out suits
  obtain ⟨segment, address, shared, found, row⟩ := serves
  obtain rfl := Option.some.inj (present.symm.trans shared)
  rw [entity] at found
  have map : Segment.entityMap deployment.externals.hashId { first with memory := memory } entityId =
      some record.request.rowData := by
    unfold Segment.entityMap
    rw [found]
    exact congrArg some row
  have nonempty : entityId ≠ "" := by
    rintro rfl
    cases map
  obtain ⟨place, read, answer⟩ := @readAnswer_stored F toFloat32 deployment.externals.hashId
    { first with memory := memory } sound refined.consistent entityId nonempty _ map
  rw [servingAssemble_answer toFloat32 sound (computeLayout_assembly computed) refined.consistent
    undefined nonempty suits]
  dsimp only at answer
  rw [answer]
  have encodes := parts.held_encodes
    (fun field member => converts _ (lookup_mem written.served) field member) held
  rw [parts.items_own] at held
  exact congrArg Except.ok (featureVector_own toFloat32 computed read held encodes)

/-- The record of a written entry belongs to the segment of its class and to its entity. -/
theorem WrittenEntry.record (homely : Homely deployment start world) (ordered : StreamOrdered world)
    (lossless : deployment.externals.RoundTrips) {entry : StreamEntry}
    (stored : entry ∈ world.produced) {schema : FeatureSchema} {entityId : String}
    {values : List (String × Object)}
    (written : WrittenEntry deployment pydantic entry schema entityId values) {record : InsertRecord}
    (member : record ∈ world.inserted) (named : record.msgId = entry.id) :
    HomeOf deployment start (encodeUtf8 schema.className) record.segment ∧
      record.request.entityId = entityId := by
  obtain ⟨origin, known, message, recordOf⟩ := homely.records record member
  obtain rfl := ordered.unique known stored (recordOf.named.trans named)
  obtain ⟨sameName, _, sameEntity, _⟩ := written.decoded lossless recordOf.decoded
  exact ⟨sameName ▸ recordOf.home, recordOf.entity.symm.trans sameEntity⟩

/-- Two served classes with one segment are one class. -/
theorem World.Initial.sameClass (initial : start.Initial deployment) {first second : FeatureSchema}
    (firstServed : deployment.schemas.lookup (encodeUtf8 first.className) = some first)
    (secondServed : deployment.schemas.lookup (encodeUtf8 second.className) = some second)
    {segmentName : String}
    (firstHome : HomeOf deployment start (encodeUtf8 first.className) segmentName)
    (secondHome : HomeOf deployment start (encodeUtf8 second.className) segmentName) :
    first = second := by
  have names := initial.segmentsDistinct _ (lookup_mem firstServed) _ (lookup_mem secondServed)
    (firstHome.2.trans secondHome.2.symm)
  dsimp only at names
  rw [names, secondServed] at firstServed
  exact (Option.some.inj firstServed).symm

/-- A write whose processed key is set is served, or a later write of its entity is. -/
theorem Signalled.serves (signalled : Signalled world) (facts : DrainFacts deployment start world)
    (packed : ∀ record ∈ world.inserted, PackedRecord deployment world.produced record)
    (lossless : deployment.externals.RoundTrips)
    (converts : ∀ served ∈ deployment.schemas, ∀ field ∈ served.2.fields, field.shape ≠ [] →
      deployment.externals.ConvertsLists)
    (producers : ProducedBy deployment pydantic world.produced)
    {entry : StreamEntry} (stored : entry ∈ world.produced) (processed : entry.id ∈ world.processed)
    {schema : FeatureSchema} {entityId : String} {values : List (String × Object)}
    (written : WrittenEntry deployment pydantic entry schema entityId values) :
    ServesWrite deployment pydantic start world entry schema entityId := by
  obtain ⟨own, inside, named, newest⟩ := signalled.processed _ processed
  have found : (newestRecord world.inserted own.target).isSome := by
    rw [newestRecord, List.find?_isSome]
    exact ⟨own, inside, by simp⟩
  obtain ⟨latest, search⟩ := Option.isSome_iff_exists.mp found
  obtain ⟨latestInside, same, _⟩ := facts.serves search
  obtain ⟨later, laterStored, laterNamed, message, _, decoded, _⟩ := packed latest latestInside
  obtain ⟨laterSchema, laterEntity, laterValues, laterWritten⟩ :=
    producers later laterStored message decoded
  obtain ⟨ownHome, ownEntity⟩ :=
    written.record facts.homely facts.ordered lossless stored inside named
  obtain ⟨home, entity, segment, present, answers⟩ :=
    served_newestRecord facts packed lossless converts search laterStored laterNamed laterWritten
  have places : latest.segment = own.segment ∧ latest.request.entityId = own.request.entityId := by
    simpa [InsertRecord.target] using same
  rw [places.1] at home present
  obtain rfl := facts.initial.sameClass laterWritten.served written.served home ownHome
  obtain rfl : laterEntity = entityId := by
    rw [← entity, places.2, ownEntity]
  exact ⟨later, laterStored, laterNamed ▸ newest latest search, laterValues, laterWritten, own.segment,
    segment, home.2, present, answers⟩

/-- Behind its processed key `serving.assemble` returns the values of the write or of a later one of
its entity. -/
theorem served_processed (initial : start.Initial deployment)
    (steps : Relation.ReflTransGen (ForwardStep deployment) start world)
    (lossless : deployment.externals.RoundTrips)
    (converts : ∀ served ∈ deployment.schemas, ∀ field ∈ served.2.fields, field.shape ≠ [] →
      deployment.externals.ConvertsLists)
    (producers : ProducedBy deployment pydantic world.produced) :
    ∀ entry ∈ world.produced, entry.id ∈ world.processed → ∀ schema entityId values,
      WrittenEntry deployment pydantic entry schema entityId values →
        ServesWrite deployment pydantic start world entry schema entityId := by
  obtain ⟨facts, signalled⟩ := forward_run initial steps
  have packed := packed_of_steps initial
    (Relation.ReflTransGen.mono (fun _ _ step => And.left step) _ _ steps)
  intro entry stored processed schema entityId values written
  exact signalled.serves facts packed lossless converts producers stored processed written

end Served

/-- The sample producer writes the score one for the entity `a`. -/
theorem sampleFirst_written : WrittenEntry sampleDeployment samplePydantic sampleFirst sampleSchema "a"
    [("score", 0x3ff0000000000000)] where
  served := rfl
  written := ⟨0, sample_doWrite 1 0x3ff0000000000000 (show strInt 0 = some [48] by decide)⟩

theorem sampleFirst_producers : ∀ entry ∈ [sampleFirst], ∃ schema entityId values,
    WrittenEntry sampleDeployment samplePydantic entry schema entityId values := by
  intro entry member
  obtain rfl := List.mem_singleton.mp member
  exact ⟨_, _, _, sampleFirst_written⟩

/-- The sample schema has no list. -/
theorem sample_convertsLists : ∀ served ∈ sampleDeployment.schemas, ∀ field ∈ served.2.fields,
    field.shape ≠ [] → sampleDeployment.externals.ConvertsLists := by
  intro served member field declared shaped
  obtain rfl := List.mem_singleton.mp member
  obtain rfl := List.mem_singleton.mp declared
  exact absurd rfl shaped

/-- A stream of written entries is produced. -/
theorem producedBy_of_written {Object : Type} {deployment : Deployment} {pydantic : Pydantic Object}
    {produced : List StreamEntry} (written : ∀ entry ∈ produced, ∃ schema entityId values,
      WrittenEntry deployment pydantic entry schema entityId values) :
    ProducedBy deployment pydantic produced :=
  fun entry member _ _ => written entry member

/-- Behind a crash and the replay of the first sample message its score is served. -/
theorem served_processed_sample : ∃ (world : World) (run : Run), world.run = some run ∧
    run.reader = .draining (MsgId.of 1 0) ∧ world.processed = [MsgId.of 1 0, MsgId.of 1 0] ∧
    ServesWrite sampleDeployment samplePydantic sampleWorld world sampleFirst sampleSchema "a" := by
  obtain ⟨world, run, steps, produced, processed, live, phase⟩ := sampleReplayed_steps
  have stored : sampleFirst ∈ world.produced := by
    rw [produced]
    exact List.mem_cons_self
  have signalled : sampleFirst.id ∈ world.processed := by
    rw [processed]
    exact List.mem_cons_self
  exact ⟨world, run, live, phase, processed, served_processed sampleWorld_initial steps
    sampleExternals_roundTrips sample_convertsLists
    (produced ▸ producedBy_of_written sampleFirst_producers) sampleFirst stored signalled sampleSchema
    "a" _ sampleFirst_written⟩

end Quorin
