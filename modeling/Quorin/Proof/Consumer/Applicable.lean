import Quorin.Proof.Consumer.AllOrNothing
import Quorin.Proof.Consumer.EncodedValues

namespace Quorin

open ByteMemory

/-- No field has the name of a column that the writer keeps for itself. -/
def FeatureSchema.Unreserved (schema : FeatureSchema) : Prop :=
  ∀ field ∈ schema.fields, field.name ∉ reservedFieldNames

/-- No accepted value of a scalar field is finite but infinite in four bytes. -/
def ScalarsFit {Object : Type} (externals : Externals) (pydantic : Pydantic Object)
    (schema : FeatureSchema) (values : List (String × Object)) : Prop :=
  ∀ field ∈ schema.fields, field.shape = [] → ∀ object value,
    values.lookup field.name = some object → validateField pydantic field object = some value →
      ¬ value.Overflows externals.castBits field.dtype

/-- The numbers of a stream id are unsigned integers of eight bytes. -/
def MsgId.Stamped (msgId : MsgId) : Prop := msgId.ms < 2 ^ 64 ∧ msgId.seq < 2 ^ 64

/-- A consumer serves a class with a segment of the default id budget that has a free row. -/
structure ServesDefault (externals : Externals) (schema : FeatureSchema) (consumer : Consumer)
    (shared : SharedMemory) (segmentName : String) (segment : Segment) : Prop where
  known : consumer.schemas.lookup (encodeUtf8 schema.className) = some schema
  held : consumer.held shared (encodeUtf8 schema.className) = some (segmentName, segment)
  created : ∃ capacity, computeLayout externals.hashName schema capacity defaultMaxIdBytes =
    .ok segment.layout
  written : segment.WellFormed externals.hashId
  free : nextFreeRow segment.memory < segment.layout.capacity
  rowBuffer : rowSize externals.hashName schema =
    .ok (consumer.rowBuffers (encodeUtf8 schema.className)).length
  offline : consumer.offline.Sound externals

section Offline

variable {hashName : String → UInt64} {schema : FeatureSchema}

theorem arrowTypeFor_flat {field : FeatureField} (flat : field.shape.length ≤ 2) :
    ∃ type, arrowTypeFor field = .ok type := by
  unfold arrowTypeFor
  generalize field.shape = shape at flat ⊢
  rcases shape with _ | ⟨rows, _ | ⟨columns, _ | ⟨depth, more⟩⟩⟩
  · exact ⟨_, rfl⟩
  · exact ⟨_, rfl⟩
  · exact ⟨_, rfl⟩
  · simp at flat

theorem mapM_except_exists {ε α β : Type} {f : α → Except ε β} {xs : List α}
    (each : ∀ x ∈ xs, ∃ y, f x = .ok y) : ∃ ys, xs.mapM f = .ok ys := by
  induction xs with
  | nil => exact ⟨[], rfl⟩
  | cons x rest ih =>
      obtain ⟨first, here⟩ := each x List.mem_cons_self
      obtain ⟨others, later⟩ := ih fun y member => each y (List.mem_cons_of_mem _ member)
      refine ⟨first :: others, ?_⟩
      rw [List.mapM_cons, here, later]
      rfl

theorem reserved_filter : ((schema.fields.map FeatureField.name).filter fun name =>
    decide (name ∈ reservedFieldNames)).mergeSort (fun first second => decide (first ≤ second)) = [] ↔
    schema.Unreserved := by
  rw [← List.length_eq_zero_iff, List.length_mergeSort, List.length_eq_zero_iff,
    List.filter_eq_nil_iff]
  simp [FeatureSchema.Unreserved]

/-- A class of rank at most two has an Arrow plan unless a field has a reserved name. -/
theorem arrowPlanFor_flat (flat : ∀ field ∈ schema.fields, field.shape.length ≤ 2) :
    ((∃ plan, arrowPlanFor hashName schema = .ok plan) ↔ schema.Unreserved) ∧
      ∀ plan, arrowPlanFor hashName schema = .ok plan →
        plan.wireTypes.length = schema.fields.length := by
  have declared := mapM_except_exists fun field member => arrowTypeFor_flat (flat field member)
  have wired : ∃ types, (wireOrder hashName schema).mapM arrowTypeFor = .ok types :=
    mapM_except_exists fun field member =>
      arrowTypeFor_flat (flat field (mem_wireOrder.mp member))
  obtain ⟨first, declaredTypes⟩ := declared
  obtain ⟨types, wireTypes⟩ := wired
  have count : types.length = schema.fields.length := by
    rw [← (mapM_except_forall wireTypes).length_eq]
    exact wireOrder_perm.length_eq
  unfold arrowPlanFor
  by_cases unreserved : schema.Unreserved
  · rw [if_neg (not_not.mpr (reserved_filter.mpr unreserved))]
    simp only [declaredTypes, wireTypes, bind, Except.bind, pure, Except.pure]
    refine ⟨⟨fun _ => unreserved, fun _ => ⟨_, rfl⟩⟩, ?_⟩
    intro plan same
    rw [← Except.ok.inj same]
    exact count
  · rw [if_pos (fun empty => unreserved (reserved_filter.mp empty))]
    constructor
    · constructor
      · rintro ⟨plan, planned⟩
        cases planned
      · exact fun held => absurd held unreserved
    · intro plan planned
      cases planned

theorem decimal_short {number : Nat} (small : number < 2 ^ 64) :
    (decimal number).length ≤ intMaxStrDigits := by
  have digits : (Nat.digits 10 number).length ≤ 20 := by
    rw [Nat.digits_length_le_iff (by decide)]
    exact small.trans (by decide)
  unfold decimal
  split
  · decide
  · rw [List.length_map, List.length_reverse]
    exact digits.trans (by decide)

/-- The text of a stream id is parsed. -/
theorem parseMsgId_stamped (bucket : Bucket) {msgId : MsgId} (stamped : msgId.Stamped) :
    ∃ ids, parseMsgId bucket msgId.bytes = .ok ids := by
  unfold parseMsgId
  cases bucket.msgIdCols with
  | none => exact ⟨_, rfl⟩
  | some columns =>
      rw [partitionHyphen_bytes, parseInt_decimal, parseInt_decimal,
        if_neg (Nat.not_lt.mpr (decimal_short stamped.1)),
        if_neg (Nat.not_lt.mpr (decimal_short stamped.2))]
      exact ⟨_, rfl⟩

end Offline

section Pack

variable {Object : Type} {externals : Externals} {pydantic : Pydantic Object} {schema : FeatureSchema}
  {entityId : String} {values : List (String × Object)} {eventTimeNs : Int} {fields : MessageFields}
  {items : List WireValue}

/-- The values of a message can be encoded exactly when its scalars fit. -/
theorem WrittenMessage.encoded_iff (converts : externals.ConvertsLists)
    (message : WrittenMessage externals pydantic schema entityId values eventTimeNs fields items) :
    List.Forall₂ (fun field value => (encodeField externals field value).isSome = true)
        (wireOrder externals.hashName schema) items ↔
      ScalarsFit externals pydantic schema values := by
  have flat : ∀ field ∈ wireOrder externals.hashName schema, field.shape.length ≤ 2 :=
    fun field member => message.flat field (mem_wireOrder.mp member)
  constructor
  · intro encoded field member scalar object value looked valid overflow
    obtain ⟨index, inside, rfl⟩ := List.mem_iff_getElem.mp
      ((@mem_wireOrder externals.hashName).mpr member)
    have there : index < items.length := encoded.length_eq ▸ inside
    obtain ⟨other, found, checked⟩ := message.validated.get inside there
    rw [List.get_eq_getElem, looked] at found
    obtain rfl := Option.some.inj found
    obtain rfl : value = items.get ⟨index, there⟩ := Option.some.inj (valid.symm.trans checked)
    have present := encoded.get inside there
    rcases encodeField_cases converts (flat _ (List.getElem_mem inside))
        (validateField_matches valid) with ⟨_, refused⟩ | ⟨held, _⟩
    · rw [List.get_eq_getElem, refused] at present
      cases present
    · exact held ⟨scalar, overflow⟩
  · intro fit
    refine List.forall₂_iff_get.mpr ⟨message.validated.length_eq, ?_⟩
    intro index inside there
    obtain ⟨object, looked, valid⟩ := message.validated.get inside there
    have known := List.get_mem (wireOrder externals.hashName schema) ⟨index, inside⟩
    rcases encodeField_cases converts (flat _ known) (validateField_matches valid) with
      ⟨⟨scalar, overflow⟩, _⟩ | ⟨_, encoded⟩
    · exact absurd overflow
        (fit _ (mem_wireOrder.mp known) scalar object _ looked valid)
    · rw [encoded]
      rfl

theorem buildPlan_of_layout {hashName : String → UInt64} {capacity maxIdBytes : Int}
    {layout : SegmentLayout}
    (computed : computeLayout hashName schema capacity maxIdBytes = .ok layout) :
    ∃ plan, buildPlan hashName schema = .ok plan := by
  obtain ⟨table, rows, _⟩ := computeLayout_parts computed
  unfold buildPlan
  rw [table, rows]
  exact ⟨_, rfl⟩

/-- The values of a message are packed exactly when its scalars fit. -/
theorem WrittenMessage.packed_iff (converts : externals.ConvertsLists)
    (message : WrittenMessage externals pydantic schema entityId values eventTimeNs fields items)
    {plan : PackPlan} (built : buildPlan externals.hashName schema = .ok plan) {buffer : List UInt8}
    (size : rowSize externals.hashName schema = .ok buffer.length) (name : List UInt8) :
    (packMessage externals ⟨name, schema, entityId, .list items⟩ buffer).1 = true ↔
      ScalarsFit externals pydantic schema values := by
  have rows := (buildPlan_fits built).1
  rw [size] at rows
  have succeeds := packRowFromList_succeeds built (.list items) buffer
  rw [← message.encoded_iff converts]
  have packs : (packRowFromList externals plan (.list items) buffer).1 = .ok () ↔
      List.Forall₂ (fun field value => (encodeField externals field value).isSome = true)
        (wireOrder externals.hashName schema) items := by
    rw [succeeds]
    constructor
    · rintro ⟨_, others, same, encoded⟩
      obtain rfl := Option.some.inj same
      exact encoded
    · exact fun encoded => ⟨Except.ok.inj rows, items, rfl, encoded⟩
  rw [← packs]
  unfold packMessage
  rw [built]
  dsimp only
  rcases packRowFromList externals plan (.list items) buffer with ⟨error | done, row⟩
  · simp
  · simp

end Pack

section Apply

variable {Object : Type} {externals : Externals} {pydantic : Pydantic Object} {schema : FeatureSchema}
  {entityId : String} {values : List (String × Object)} {eventTimeNs : Int} {fields : MessageFields}
  {items : List WireValue} {consumer : Consumer} {shared : SharedMemory} {segmentName : String}
  {segment : Segment} {msgId : MsgId}

/-- The message that the consumer decodes from an accepted write. -/
def decodedWrite (schema : FeatureSchema) (entityId : String) (items : List WireValue) :
    DecodedMessage :=
  ⟨encodeUtf8 schema.className, schema, entityId, .list items⟩

theorem WrittenMessage.decoded (lossless : externals.RoundTrips)
    (message : WrittenMessage externals pydantic schema entityId values eventTimeNs fields items)
    {schemas : List (List UInt8 × FeatureSchema)}
    (known : schemas.lookup (encodeUtf8 schema.className) = some schema) :
    decodeMessage externals schemas fields = .ok (some (decodedWrite schema entityId items)) := by
  have carried := message.carried lossless
  unfold decodeMessage
  simp only [message.named, known, message.keyed, decodeUtf8_encodeUtf8, carried, Option.map_some]
  rfl

/-- The time of a message is parsed back. -/
theorem WrittenMessage.parsedTime
    (message : WrittenMessage externals pydantic schema entityId values eventTimeNs fields items) :
    fields.eventTime.bind parseInt = some eventTimeNs := by
  cases printed : strInt eventTimeNs with
  | none => exact absurd (message.eventTime.trans printed) message.timed
  | some text => rw [message.eventTime, printed, Option.bind_some, parseInt_strInt printed]

/-- The offline writer takes an accepted write with a date when no name is reserved. -/
theorem WrittenMessage.offlineAccepts_iff
    (message : WrittenMessage externals pydantic schema entityId values eventTimeNs fields items)
    (store : OfflineStore) (stamped : msgId.Stamped) :
    OfflineAccepts externals store (decodedWrite schema entityId items) fields msgId ↔
      store.getDateStr externals eventTimeNs ≠ none ∧ schema.Unreserved := by
  obtain ⟨planned, width⟩ := @arrowPlanFor_flat externals.hashName schema message.flat
  have count : items.length = schema.fields.length := by
    rw [← message.validated.length_eq, (@wireOrder_perm externals.hashName schema).length_eq]
  have time := message.parsedTime
  constructor
  · rintro ⟨plan, other, list, found, parsed, dated, _, _, _⟩
    rw [time] at parsed
    obtain rfl := Option.some.inj parsed
    exact ⟨dated, planned.mp ⟨plan, found⟩⟩
  · rintro ⟨dated, unreserved⟩
    obtain ⟨plan, found⟩ := planned.mpr unreserved
    exact ⟨plan, eventTimeNs, items, found, time, dated, rfl, count.trans (width plan found).symm,
      parseMsgId_stamped _ stamped⟩

/-- The insert of a row into a served segment depends on the id alone. -/
theorem ServesDefault.insert_returns
    (serves : ServesDefault externals schema consumer shared segmentName segment)
    {rowData : List UInt8} (size : rowSize externals.hashName schema = .ok rowData.length) :
    (∃ fresh, (insert externals.hashId segment.layout entityId rowData).result segment.memory =
        .ok fresh) ↔
      entityId ≠ "" ∧ (encodeUtf8 entityId).length ≤ defaultMaxIdBytes := by
  obtain ⟨capacity, computed⟩ := serves.created
  obtain ⟨_, rows, _, _, _, budget⟩ := computeLayout_parts computed
  have maxIdBytes : segment.layout.maxIdBytes = defaultMaxIdBytes := by exact_mod_cast budget
  have length : rowData.length = segment.layout.rowSize := Except.ok.inj (size.symm.trans rows)
  obtain ⟨sound, log, lost, refined⟩ := serves.written
  rw [← maxIdBytes]
  by_cases wellFormed : entityId ≠ "" ∧ (encodeUtf8 entityId).length ≤ segment.layout.maxIdBytes
  · have result := @insert_result_wellFormed externals.hashId segment.layout sound segment.memory
      refined.consistent entityId rowData wellFormed.1 length
    have free := serves.free
    rw [if_neg (Nat.not_lt.mpr wellFormed.2), if_neg (by omega)] at result
    exact ⟨fun _ => wellFormed, fun _ => ⟨_, result⟩⟩
  · obtain ⟨error, trace, _⟩ := @insert_malformed segment.layout externals.hashId segment.memory entityId rowData
      (fun held => wellFormed ⟨held.1, held.2.2⟩) (abstraction segment.layout segment.memory)
    constructor
    · rintro ⟨fresh, returned⟩
      rw [Program.result, trace] at returned
      cases returned
    · exact fun held => absurd held wellFormed

/-- An insert that raises leaves the message unapplied. -/
theorem apply_of_failed_insert {prepared : PreparedInsert} {rowBuffers : List UInt8 → List UInt8}
    (ready : prepareInsert externals consumer fields = (.ok (some prepared), rowBuffers))
    (held : consumer.held shared prepared.message.name = some (segmentName, segment))
    {error : SegmentError} (result : (insert externals.hashId segment.layout
      prepared.request.entityId prepared.request.rowData).result segment.memory = .error error) :
    (apply externals consumer shared msgId (some fields)).1 = .ok false := by
  have outcome : ((insert externals.hashId segment.layout prepared.request.entityId
    prepared.request.rowData).run segment.memory).1 = .error error := result
  rw [apply_prepared ready]
  unfold finishApply
  rw [show Consumer.held { consumer with rowBuffers := rowBuffers } shared prepared.message.name =
    some (segmentName, segment) from held]
  dsimp only
  rw [outcome]

/-- An accepted write is applied exactly when its id, its time, its names and its scalars fit. -/
theorem apply_written_iff (lossless : externals.RoundTrips) (converts : externals.ConvertsLists)
    (serves : ServesDefault externals schema consumer shared segmentName segment)
    (written : doWrite externals pydantic schema entityId values eventTimeNs = .ok fields)
    (stamped : msgId.Stamped) :
    (apply externals consumer shared msgId (some fields)).1 = .ok true ↔
      (entityId ≠ "" ∧ (encodeUtf8 entityId).length ≤ defaultMaxIdBytes) ∧
        (consumer.offline.getDateStr externals eventTimeNs ≠ none ∧ schema.Unreserved) ∧
        ScalarsFit externals pydantic schema values := by
  obtain ⟨items, message⟩ := doWrite_message written
  obtain ⟨capacity, computed⟩ := serves.created
  obtain ⟨plan, built⟩ := buildPlan_of_layout computed
  have decoded := message.decoded lossless serves.known
  have packs := message.packed_iff converts built serves.rowBuffer (encodeUtf8 schema.className)
  have length := @packMessage_length externals (decodedWrite schema entityId items)
    (consumer.rowBuffers (encodeUtf8 schema.className))
  by_cases fit : ScalarsFit externals pydantic schema values
  · have packed := packs.mpr fit
    have ready : prepareInsert externals consumer fields = (.ok (some
        ⟨decodedWrite schema entityId items, ⟨entityId, (packMessage externals
          (decodedWrite schema entityId items)
          (consumer.rowBuffers (encodeUtf8 schema.className))).2⟩⟩),
        Function.update consumer.rowBuffers (encodeUtf8 schema.className) (packMessage externals
          (decodedWrite schema entityId items)
          (consumer.rowBuffers (encodeUtf8 schema.className))).2) := by
      unfold prepareInsert
      rw [decoded]
      exact if_pos packed
    generalize (packMessage externals (decodedWrite schema entityId items)
      (consumer.rowBuffers (encodeUtf8 schema.className))).2 = rowData at length ready
    have size : rowSize externals.hashName schema = .ok rowData.length := by
      rw [length]
      exact serves.rowBuffer
    rw [← @ServesDefault.insert_returns externals schema entityId consumer shared segmentName segment
      serves rowData size]
    by_cases inserted : ∃ fresh,
        (insert externals.hashId segment.layout entityId rowData).result segment.memory = .ok fresh
    · have target : InsertTarget externals consumer shared fields
          ⟨decodedWrite schema entityId items, ⟨entityId, rowData⟩⟩ segmentName segment :=
        ⟨congrArg Prod.fst ready, serves.held, inserted⟩
      rw [(apply_with_insert target serves.offline).2.1, message.offlineAccepts_iff _ stamped]
      exact ⟨fun held => ⟨inserted, held, fit⟩, fun held => held.2.1⟩
    · refine ⟨?_, fun held => absurd held.1 inserted⟩
      intro returned
      cases result : (insert externals.hashId segment.layout entityId rowData).result
          segment.memory with
      | ok fresh => exact absurd ⟨fresh, result⟩ inserted
      | error error =>
          rw [apply_of_failed_insert ready serves.held result] at returned
          cases returned
  · refine ⟨?_, fun held => absurd held.2.2 fit⟩
    intro returned
    have unpacked : ¬ (packMessage externals (decodedWrite schema entityId items)
        (consumer.rowBuffers (encodeUtf8 schema.className))).1 = true :=
      fun packed => fit (packs.mp packed)
    have ready : (prepareInsert externals consumer fields).1 = .ok none := by
      unfold prepareInsert
      rw [decoded]
      exact congrArg Prod.fst (if_neg unpacked)
    cases step : prepareInsert externals consumer fields with
    | mk result rowBuffers =>
        rw [step] at ready
        obtain rfl : result = .ok none := ready
        simp [apply, step] at returned

/-- A time with a date has one in every cache. -/
theorem getDateStr_dated {store : OfflineStore} (dated : externals.dateString eventTimeNs ≠ none) :
    store.getDateStr externals eventTimeNs ≠ none := by
  unfold OfflineStore.getDateStr
  split
  · simp
  · simpa using dated

/-- An accepted write with a short id and a date is applied unless a name or a scalar is refused. -/
theorem accepted_applies_iff (lossless : externals.RoundTrips) (converts : externals.ConvertsLists)
    (serves : ServesDefault externals schema consumer shared segmentName segment)
    (written : doWrite externals pydantic schema entityId values eventTimeNs = .ok fields)
    (stamped : msgId.Stamped) (nonempty : entityId ≠ "")
    (short : (encodeUtf8 entityId).length ≤ defaultMaxIdBytes)
    (dated : externals.dateString eventTimeNs ≠ none) :
    (apply externals consumer shared msgId (some fields)).1 = .ok true ↔
      schema.Unreserved ∧ ScalarsFit externals pydantic schema values := by
  rw [apply_written_iff lossless converts serves written stamped]
  constructor
  · rintro ⟨_, ⟨_, unreserved⟩, fit⟩
    exact ⟨unreserved, fit⟩
  · rintro ⟨unreserved, fit⟩
    exact ⟨⟨nonempty, short⟩, ⟨getDateStr_dated dated, unreserved⟩, fit⟩

end Apply

section Sample

/-- The layout of the sample schema with the default id budget. -/
def sampleDefaultLayout : SegmentLayout :=
  layoutOf 2 64 64 [⟨0, 0, .float32, 1, 4⟩] [⟨0, 0, .float32, 1, 4⟩] 1

theorem computeLayout_sampleDefault :
    computeLayout sampleArrays.hashName sampleSchema 2 defaultMaxIdBytes =
      .ok sampleDefaultLayout := by
  obtain ⟨table, rows, assembly, _⟩ := computeLayout_parts
    (computeLayout_sample_of_hash (show sampleArrays.hashName "score" = 0 from rfl))
  rw [computeLayout, rows, table, ← assembly]
  rfl

/-- The sample segment with the default id budget, before any insert. -/
def sampleDefaultSegment : Segment :=
  ⟨sampleSchema, sampleDefaultLayout, freshSegment sampleDefaultLayout (List.replicate 16 0)⟩

def sampleDefaultShared : SharedMemory :=
  fun name => if name = "segment" then some sampleDefaultSegment else none

theorem sampleDefault_serves : ServesDefault sampleArrays sampleSchema
    (freshConsumer sampleDeployment sampleWorld.current) sampleDefaultShared "segment"
    sampleDefaultSegment where
  known := by decide
  held := rfl
  created := ⟨2, computeLayout_sampleDefault⟩
  written :=
    ⟨computeLayout_sound computeLayout_sampleDefault, [], 0,
      SegmentHistory.Refined.fresh _ (computeLayout_sound computeLayout_sampleDefault) rfl⟩
  free := by decide
  rowBuffer := by
    have buffer := (sampleOffered_serving sampleFirst).rowBuffer
    rw [(computeLayout_parts computeLayout_sampleDefault).2.1]
    exact congrArg Except.ok buffer.symm
  offline := OfflineStore.empty_sound _ _

theorem sampleStamped : (MsgId.of 1 0).Stamped := ⟨by decide, by decide⟩

end Sample

/-- A score of one for the entity `a` is applied. -/
theorem accepted_applies_iff_sample :
    (apply sampleArrays (freshConsumer sampleDeployment sampleWorld.current) sampleDefaultShared
        (MsgId.of 1 0) (some (sampleEntry 1 0x3ff0000000000000 0).fields)).1 = .ok true ↔
      sampleSchema.Unreserved ∧
        ScalarsFit sampleArrays samplePydantic sampleSchema [("score", 0x3ff0000000000000)] :=
  accepted_applies_iff sampleArrays_roundTrips sampleArrays_converts sampleDefault_serves
    sampleArrays_doWrite sampleStamped (by decide) (by decide) (by decide)

/-- The producer accepts a float of 10 to the 40th and an id of 65 bytes, which are never applied. -/
theorem accepted_not_applied :
    (∃ fields, doWrite sampleArrays samplePydantic sampleSchema "a" [("score", 0x483d6329f1c35ca5)] 0 =
        .ok fields ∧
      (apply sampleArrays (freshConsumer sampleDeployment sampleWorld.current) sampleDefaultShared
        (MsgId.of 1 0) (some fields)).1 ≠ .ok true) ∧
    ∃ fields, doWrite sampleArrays samplePydantic sampleSchema
        (String.ofList (List.replicate 65 'a')) [("score", 0x3ff0000000000000)] 0 = .ok fields ∧
      (apply sampleArrays (freshConsumer sampleDeployment sampleWorld.current) sampleDefaultShared
        (MsgId.of 1 0) (some fields)).1 ≠ .ok true := by
  constructor
  · obtain ⟨fields, accepted⟩ := @sampleArrays_accepts "a" (by decide) 0x483d6329f1c35ca5
    refine ⟨fields, accepted, ?_⟩
    intro returned
    have fit := ((apply_written_iff sampleArrays_roundTrips sampleArrays_converts sampleDefault_serves
      accepted sampleStamped).mp returned).2.2
    apply fit _ List.mem_cons_self rfl (0x483d6329f1c35ca5 : UInt64) (.float 0x483d6329f1c35ca5) rfl rfl
    exact ⟨_, rfl, rfl, by decide, by decide⟩
  · have bytes : (encodeUtf8 (String.ofList (List.replicate 65 'a'))).length = 65 := by decide
    obtain ⟨fields, accepted⟩ := @sampleArrays_accepts (String.ofList (List.replicate 65 'a'))
      (by rw [bytes]; decide) 0x3ff0000000000000
    refine ⟨fields, accepted, ?_⟩
    intro returned
    have short := ((apply_written_iff sampleArrays_roundTrips sampleArrays_converts
      sampleDefault_serves accepted sampleStamped).mp returned).1.2
    rw [bytes] at short
    exact absurd short (by decide)

end Quorin
