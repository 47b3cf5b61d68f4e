import Quorin.Proof.Serving.ReadParity
import Quorin.Proof.Evolution.DeclaredTable
import Quorin.Proof.Offline.BufferConservation

namespace Quorin

open ByteMemory LinearProbe

/-- The validated value of a field in a mapping of values. -/
def ownValue {Object : Type} (pydantic : Pydantic Object) (values : List (String × Object))
    (field : FeatureField) : WireValue :=
  ((values.lookup field.name).bind (validateField pydantic field)).getD .nil

/-- The float32 casts of the values of the fields, in declaration order. -/
def ownVector {F : Type} (castBits : DType → DType → Nat → Nat) (toFloat32 : DType → List UInt8 → F)
    (schema : FeatureSchema) (own : FeatureField → WireValue) : List F :=
  schema.fields.flatMap fun field =>
    (valueElements castBits field.dtype field.shape (own field)).map (toFloat32 field.dtype)

section Written

variable {Object : Type} {externals : Externals} {pydantic : Pydantic Object} {schema : FeatureSchema}
  {entityId : String} {values : List (String × Object)} {eventTimeNs : Int} {fields : MessageFields}
  {items : List WireValue}
  (message : WrittenMessage externals pydantic schema entityId values eventTimeNs fields items)

include message in
/-- A message carries the own values in the order of the wire. -/
theorem WrittenMessage.items_own :
    items = (wireOrder externals.hashName schema).map (ownValue pydantic values) := by
  have validated := message.validated
  clear message
  generalize wireOrder externals.hashName schema = order at validated
  induction validated with
  | nil => rfl
  | @cons field value rest others found _ ih =>
      obtain ⟨object, looked, valid⟩ := found
      have own : ownValue pydantic values field = value := by
        rw [ownValue, looked, Option.bind_some, valid, Option.getD_some]
      rw [List.map_cons, own, ← ih]

include message in
/-- A representable value is encoded as its elements. -/
theorem WrittenMessage.encodes (converts : externals.ConvertsLists)
    (representable : RepresentableValues externals pydantic schema values) {field : FeatureField}
    (member : field ∈ schema.fields) :
    encodeField externals field (ownValue pydantic values field) =
      some (valueElements externals.castBits field.dtype field.shape
        (ownValue pydantic values field)) := by
  obtain ⟨index, inside, rfl⟩ := List.mem_iff_getElem.mp
    ((@mem_wireOrder externals.hashName schema field).mpr member)
  have there : index < items.length := message.validated.length_eq ▸ inside
  obtain ⟨object, looked, valid⟩ := message.validated.get inside there
  rw [List.get_eq_getElem] at looked valid
  have own : ownValue pydantic values (wireOrder externals.hashName schema)[index] =
      items[index] := by
    rw [ownValue, looked, Option.bind_some, valid]
    rfl
  rw [own]
  rcases encodeField_cases converts (message.flat _ member) (validateField_matches valid) with
    ⟨⟨scalar, overflow⟩, _⟩ | ⟨_, encoded⟩
  · refine absurd overflow (representable _ member object _ looked valid _ ?_)
    rw [scalar]
    exact List.mem_singleton_self _
  · exact encoded

end Written

section Rows

variable {F : Type} (toFloat32 : DType → List UInt8 → F)

/-- Elements of one size are the slices of their concatenation. -/
theorem slice_elements {elements : List (List UInt8)} {size : Nat}
    (sized : ∀ element ∈ elements, element.length = size) :
    ((List.range elements.length).map fun index => slice elements.flatten (index * size) size) =
      elements := by
  apply List.ext_getElem
  · simp
  · intro index _ inside
    have part := slice_flatten_part elements inside
    rw [@sum_take_uniform _ size _ _ (by simpa using Nat.le_of_lt inside),
      sized _ (List.getElem_mem inside)] at part
    · simpa using part
    · intro length member
      obtain ⟨element, stored, rfl⟩ := List.mem_map.mp member
      exact sized element stored

/-- A slice of a slice is a slice of the whole. -/
theorem slice_slice (bytes : List UInt8) (start : Nat) {inner count length : Nat}
    (fits : inner + count ≤ length) :
    slice (slice bytes start length) inner count = slice bytes (start + inner) count := by
  unfold slice
  rw [List.drop_take, List.take_take, List.drop_drop, Nat.min_eq_left (by omega)]

/-- A field of a stored row is read as the casts of the elements that it holds. -/
theorem fieldValues_elements {memory : Memory} {address rowSize : Nat} {row : List UInt8}
    (stored : memory.read address rowSize = row) {hashName : String → UInt64}
    {entry : FeatureField × Nat} (inside : entry.2 + entry.1.byteCount ≤ rowSize)
    {elements : List (List UInt8)} (count : elements.length = entry.1.elementCount)
    (sized : ∀ element ∈ elements, element.length = entry.1.dtype.byteSize)
    (held : slice row entry.2 entry.1.byteCount = elements.flatten) :
    fieldValues toFloat32 memory address (placedRow hashName entry) =
      elements.map (toFloat32 entry.1.dtype) := by
  unfold fieldValues placedRow
  dsimp only
  conv_rhs => rw [← slice_elements sized, List.map_map, count]
  apply List.map_congr_left
  intro index member
  have small := List.mem_range.mp member
  have fits : index * entry.1.dtype.byteSize + entry.1.dtype.byteSize ≤ entry.1.byteCount := by
    rw [FeatureField.byteCount, ← Nat.succ_mul]
    exact Nat.mul_le_mul_right _ small
  have read := @slice_read memory address (entry.2 + index * entry.1.dtype.byteSize)
    entry.1.dtype.byteSize rowSize (by omega)
  rw [stored] at read
  rw [Function.comp_apply, ← held, slice_slice row entry.2 fits, read, Nat.add_assoc]

end Rows

section Served

variable {externals : Externals} {schema : FeatureSchema} {own : FeatureField → WireValue}

/-- A row that packs the own values holds the elements of each field at its own offset. -/
theorem HoldsValues.elements {row : List UInt8}
    (held : HoldsValues externals schema ((wireOrder externals.hashName schema).map own) row)
    (encodes : ∀ field ∈ schema.fields, encodeField externals field (own field) =
      some (valueElements externals.castBits field.dtype field.shape (own field)))
    {entry : FeatureField × Nat} (member : entry ∈ schema.placed) :
    slice row entry.2 entry.1.byteCount =
      (valueElements externals.castBits entry.1.dtype entry.1.shape (own entry.1)).flatten := by
  unfold HoldsValues at held
  rw [← wirePlaced_fields, List.map_map, List.forall₂_map_right_iff, List.forall₂_same] at held
  have stored := held entry (wirePlaced_perm.mem_iff.mpr member)
  have known : entry.1 ∈ schema.fields := by
    rw [← placed_fields]
    exact List.mem_map_of_mem member
  rw [Function.comp_apply, encodes entry.1 known] at stored
  exact (Option.some.inj stored).symm

/-- The vector of a stored row is the casts of the own values. -/
theorem featureVector_own {F : Type} (toFloat32 : DType → List UInt8 → F) {capacity maxIdBytes : Int}
    {layout : SegmentLayout}
    (computed : computeLayout externals.hashName schema capacity maxIdBytes = .ok layout)
    {memory : Memory} {address : Nat} {row : List UInt8}
    (stored : memory.read address layout.rowSize = row)
    (held : HoldsValues externals schema ((wireOrder externals.hashName schema).map own) row)
    (encodes : ∀ field ∈ schema.fields, encodeField externals field (own field) =
      some (valueElements externals.castBits field.dtype field.shape (own field))) :
    featureVector toFloat32 memory layout address =
      ownVector externals.castBits toFloat32 schema own := by
  obtain ⟨table, sized, assembly, _⟩ := computeLayout_parts computed
  have rows : layout.assemblyTable = schema.placed.map (placedRow externals.hashName) := assembly
  unfold ownVector
  rw [featureVector, rows, List.map_map, ← placed_fields, List.flatMap_map, List.flatMap_def]
  congr 1
  apply List.map_congr_left
  intro entry member
  have known : entry.1 ∈ schema.fields := by
    rw [← placed_fields]
    exact List.mem_map_of_mem member
  obtain ⟨count, sizes⟩ := encodeField_sized (encodes entry.1 known)
  exact fieldValues_elements toFloat32 stored (placed_inside table sized member) count sizes
    (held.elements encodes member)

/-- The entity map of a consistent segment is what the reader finds. -/
theorem readAnswer_stored {F : Type} (toFloat32 : DType → List UInt8 → F)
    {hashId : List UInt8 → UInt64} {segment : Segment} (sound : LayoutSound segment.layout)
    (consistent : Consistent hashId segment.layout segment.memory) {entityId : String}
    (nonempty : entityId ≠ "") {row : List UInt8}
    (stored : segment.entityMap hashId entityId = some row) :
    ∃ address, segment.memory.read address segment.layout.rowSize = row ∧
      readAnswer toFloat32 segment.layout segment.memory entityId =
        some (featureVector toFloat32 segment.memory segment.layout address) := by
  unfold Segment.entityMap at stored
  rw [lookup_answer sound consistent nonempty] at stored
  unfold readAnswer
  cases found : findSlot segment.layout segment.memory (encodeUtf8 entityId) with
  | none =>
      rw [found] at stored
      cases stored
  | some index =>
      rw [found] at stored
      exact ⟨_, Option.some.inj stored, rfl⟩

end Served

/-- The wire order, the slots of the pack and the columns of the writer name the same fields. -/
structure AgreeingOrders (schema : FeatureSchema) (order : List FeatureField) (pack : PackPlan)
    (columns : ColumnPlan) : Prop where
  complete : order.Perm schema.fields
  packed : ∀ slot, slot ∈ pack.scalars ++ pack.shapedSlots ↔ ∃ entry ∈ schema.placed, ∃ index,
    order[index]? = some entry.1 ∧ slot = fieldSlot entry index
  stored : columns.wireToDecl.map (fun index => columns.columnNames[index]?) =
    order.map fun field => some field.name

/-- The record of an appended row, with the value of each field under its own name. -/
def ownRecord (schema : FeatureSchema) (own : FeatureField → WireValue) (entityId : String)
    (eventTimeNs : Int) (ids : Option (Int × Int)) : Record :=
  ("entity_id", .text entityId) :: ("event_time_ns", .int eventTimeNs) ::
    ((schema.fields.map fun field => (field.name, own field)) ++
      match ids with
      | none => []
      | some numbers => [("msg_id_ms", .int numbers.1), ("msg_id_seq", .int numbers.2)])

/-- The memory of a segment behind an insert. -/
def Segment.inserted (hashId : List UInt8 → UInt64) (segment : Segment) (entityId : String)
    (row : List UInt8) : Memory :=
  ((insert hashId segment.layout entityId row).run segment.memory).2

/-- A message comes back as the own values of its fields, from the segment and from the columns. -/
structure WireRoundTrip (externals : Externals) (schema : FeatureSchema) (own : FeatureField → WireValue)
    (includeMsgId : Bool) (entityId : String) (eventTimeNs : Int) (fields : MessageFields)
    (order : List FeatureField) (pack : PackPlan) (columns : ColumnPlan) (items : List WireValue) :
    Prop where
  ordered : fieldOrderFor externals.hashName schema = .ok order
  built : buildPlan externals.hashName schema = .ok pack
  planned : columnPlanFor externals.hashName schema includeMsgId = .ok columns
  agreeing : AgreeingOrders schema order pack columns
  carried : fields.blob.bind externals.unpackb = some (.list items)
  served : ∀ buffer : List UInt8, buffer.length = pack.rowSize →
    ∃ row, packRowFromList externals pack (.list items) buffer = (.ok (), row) ∧
      ∀ (segment : Segment) (capacity maxIdBytes : Int) (fresh : Bool),
        computeLayout externals.hashName schema capacity maxIdBytes = .ok segment.layout →
        segment.WellFormed externals.hashId →
        (insert externals.hashId segment.layout entityId row).result segment.memory = .ok fresh →
        ∀ (F : Type) (toFloat32 : DType → List UInt8 → F) (undefined : Nat → F)
          (out : Option (OutVector F)),
          (∀ given, out = some given → given.suits segment.layout = true) →
          servingAssemble toFloat32 (segment.inserted externals.hashId entityId row) externals.hashId
              segment.layout undefined entityId out =
            .ok (ownVector externals.castBits toFloat32 schema own)
  stored : ∀ (calls : List DatasetCall) (msgId : MsgId) (date : String)
      (dateCache : List (Int × String)), msgId.Stamped →
    let store := (runDataset externals includeMsgId calls).store
    store.getDateStr externals eventTimeNs = some (date, dateCache) →
    (store.append externals schema entityId eventTimeNs items msgId.bytes).1 = .ok () ∧
      (store.append externals schema entityId eventTimeNs items msgId.bytes).2.rows.Perm
        (store.rows ++ [((schema, date), ownRecord schema own entityId eventTimeNs
          (messageNumbers includeMsgId msgId.bytes))])

section Orders

variable {externals : Externals} {schema : FeatureSchema}

/-- A class that compiles has a plan of its pack. -/
theorem buildPlan_of_compiled {table : List OffsetRow}
    (compiled : compileSchema externals.hashName schema = .ok table) :
    ∃ plan, buildPlan externals.hashName schema = .ok plan := by
  unfold buildPlan rowSize computeRowOffsetTable
  rw [compiled]
  exact ⟨_, rfl⟩

theorem agreeingOrders_planned {order : List FeatureField} {pack : PackPlan} {columns : ColumnPlan}
    {includeMsgId : Bool} (ordered : fieldOrderFor externals.hashName schema = .ok order)
    (built : buildPlan externals.hashName schema = .ok pack)
    (planned : columnPlanFor externals.hashName schema includeMsgId = .ok columns) :
    AgreeingOrders schema order pack columns := by
  obtain rfl := fieldOrderFor_eq ordered
  refine ⟨wireOrder_perm, ?_, ?_⟩
  · obtain ⟨slots, slotsOf⟩ := buildPlan_slotsOf built
    intro slot
    have split : slot ∈ pack.scalars ++ pack.shapedSlots ↔ slot ∈ slots := by
      rw [slotsOf.scalars, slotsOf.shaped, List.mem_append, List.mem_filter, List.mem_filter]
      cases slot.isTrueScalar <;> simp
    rw [split, slotsOf.listed]
    constructor
    · rintro ⟨entry, index, found, rfl⟩
      refine ⟨entry, wirePlaced_perm.mem_iff.mp (List.mem_of_getElem? found), index, ?_, rfl⟩
      rw [← wirePlaced_fields, List.getElem?_map, found, Option.map_some]
    · rintro ⟨entry, member, index, found, rfl⟩
      rw [← wirePlaced_fields, List.getElem?_map] at found
      obtain ⟨other, there, same⟩ := Option.map_eq_some_iff.mp found
      have names : (schema.placed.map Prod.fst).Nodup := by
        rw [placed_fields]
        exact List.Nodup.of_map _ schema.namesDistinct
      have equal := List.inj_on_of_nodup_map names
        (wirePlaced_perm.mem_iff.mp (List.mem_of_getElem? there)) member same
      exact ⟨entry, index, equal ▸ there, rfl⟩
  · obtain ⟨types, plannedColumns⟩ := columnPlanFor_planned planned
    rw [plannedColumns.wireToDecl, List.map_map]
    apply List.map_congr_left
    intro field member
    rw [Function.comp_apply, plannedColumns.names]
    exact bucketColumns_field (mem_wireOrder.mp member)

/-- The values in the order of the wire are recorded under the names of their own fields. -/
theorem record_own (own : FeatureField → WireValue) (entityId : String) (eventTimeNs : Int)
    (ids : Option (Int × Int)) :
    StoredRow.record externals.hashName schema
        ⟨entityId, eventTimeNs, (wireOrder externals.hashName schema).map own, ids⟩ =
      ownRecord schema own entityId eventTimeNs ids := by
  have cells : (schema.fields.map fun field => (field.name,
      wireCell externals.hashName schema ((wireOrder externals.hashName schema).map own) .nil field)) =
      schema.fields.map fun field => (field.name, own field) := by
    apply List.map_congr_left
    intro field member
    obtain ⟨index, inside, rfl⟩ := List.mem_iff_getElem.mp
      ((@mem_wireOrder externals.hashName schema field).mpr member)
    rw [wireCell_getElem inside (by simpa using inside), List.getElem_map]
  unfold StoredRow.record ownRecord
  cases ids <;> simp only [cells]

end Orders

section RoundTrip

variable {Object : Type} {externals : Externals} {pydantic : Pydantic Object} {schema : FeatureSchema}

/-- A served vector behind an insert of the packed row is the casts of the own values. -/
theorem servingAssemble_own {own : FeatureField → WireValue}
    (encodes : ∀ field ∈ schema.fields, encodeField externals field (own field) =
      some (valueElements externals.castBits field.dtype field.shape (own field)))
    {segment : Segment} {capacity maxIdBytes : Int}
    (computed : computeLayout externals.hashName schema capacity maxIdBytes = .ok segment.layout)
    (wellFormed : segment.WellFormed externals.hashId) {entityId : String} {row : List UInt8}
    (held : HoldsValues externals schema ((wireOrder externals.hashName schema).map own) row)
    {fresh : Bool}
    (returned : (insert externals.hashId segment.layout entityId row).result segment.memory =
      .ok fresh) {F : Type} (toFloat32 : DType → List UInt8 → F) (undefined : Nat → F)
    {out : Option (OutVector F)}
    (suits : ∀ given, out = some given → given.suits segment.layout = true) :
    servingAssemble toFloat32 (segment.inserted externals.hashId entityId row) externals.hashId
        segment.layout undefined entityId out =
      .ok (ownVector externals.castBits toFloat32 schema own) := by
  have updated := congrFun (entityMap_insert wellFormed returned) entityId
  rw [Function.update_self] at updated
  obtain ⟨sound, log, lost, refined⟩ := wellFormed
  have nonempty : entityId ≠ "" := by
    rintro rfl
    cases updated
  have consistent : Consistent externals.hashId segment.layout
      (segment.inserted externals.hashId entityId row) := by
    have completed := refined.completeInsert sound ⟨entityId, row⟩
    unfold SegmentHistory.completeInsert at completed
    have outcome : ((insert externals.hashId segment.layout entityId row).run segment.memory).1 =
        .ok fresh := returned
    simp only [outcome] at completed
    exact completed.consistent
  obtain ⟨address, stored, answer⟩ := @readAnswer_stored F toFloat32 externals.hashId
    { segment with memory := segment.inserted externals.hashId entityId row } sound consistent
    entityId nonempty row updated
  rw [servingAssemble_answer toFloat32 sound (computeLayout_assembly computed) consistent undefined
    nonempty suits]
  dsimp only at answer
  rw [answer]
  exact congrArg Except.ok (featureVector_own toFloat32 computed stored held encodes)

/-- An append that returns adds the record of its row. -/
theorem ConservedRows.returned {state : DatasetState} {held : OfflineStore} {files : List SealedFile}
    {appended : List (BucketKey × StoredRow)}
    (conserved : ConservedRows externals state held files appended) {plan : ArrowPlan}
    (planned : arrowPlanFor externals.hashName schema = .ok plan) {eventTimeNs : Int} {date : String}
    {dateCache : List (Int × String)}
    (dated : state.store.getDateStr externals eventTimeNs = some (date, dateCache))
    {items : List WireValue} (count : items.length = plan.wireTypes.length) {msgId : MsgId}
    (stamped : msgId.Stamped) (entityId : String) :
    (state.store.append externals schema entityId eventTimeNs items msgId.bytes).1 = .ok () ∧
      (state.store.append externals schema entityId eventTimeNs items msgId.bytes).2.rows.Perm
        (state.store.rows ++ [((schema, date), StoredRow.record externals.hashName schema
          ⟨entityId, eventTimeNs, items,
            messageNumbers state.store.includeMsgId msgId.bytes⟩)]) := by
  have dates := dated
  rw [conserved.simulates.getDateStr] at dates
  have abstractly := append_succeeds conserved.sound planned (by rw [dates]; exact nofun) count
    (fun bucket => parseMsgId_stamped bucket stamped) entityId
  obtain ⟨outcome, after⟩ := append_simulates conserved.simulates schema entityId eventTimeNs items
    msgId.bytes
  obtain ⟨found, cache, bucket, parsed, same, ids, text, rows⟩ :=
    append_returned_rows conserved.sound abstractly
  rw [dates] at same
  obtain ⟨rfl, rfl⟩ := Prod.mk.inj (Option.some.inj same)
  constructor
  · rcases outcome with ⟨returned, _⟩ | ⟨error, _, refused⟩
    · exact returned
    · rw [abstractly] at refused
      cases refused
  · rw [after.rows, conserved.simulates.rows, conserved.simulates.included,
      messageNumbers_parsed ids text]
    have records := rows.map (keyedRecord externals)
    rw [List.map_append] at records
    exact records

/-- Every accepted message comes back as the casts and the columns of its own values. -/
theorem wire_roundTrips (lossless : externals.RoundTrips) (converts : externals.ConvertsLists)
    (unreserved : schema.Unreserved) {entityId : String} {values : List (String × Object)}
    {eventTimeNs : Int} {fields : MessageFields}
    (written : doWrite externals pydantic schema entityId values eventTimeNs = .ok fields)
    (representable : RepresentableValues externals pydantic schema values) (includeMsgId : Bool) :
    ∃ order pack columns items, WireRoundTrip externals schema (ownValue pydantic values)
      includeMsgId entityId eventTimeNs fields order pack columns items := by
  obtain ⟨items, message⟩ := doWrite_message written
  obtain ⟨table, compiled⟩ := message.compiled
  have ordered : ∃ order, fieldOrderFor externals.hashName schema = .ok order := by
    unfold fieldOrderFor
    rw [compiled]
    exact ⟨_, rfl⟩
  obtain ⟨order, found⟩ := ordered
  obtain ⟨pack, built⟩ := buildPlan_of_compiled compiled
  obtain ⟨planned, width⟩ := @arrowPlanFor_flat externals.hashName schema message.flat
  obtain ⟨arrow, arrowPlanned⟩ := planned.mpr unreserved
  have columned : ∃ columns, columnPlanFor externals.hashName schema includeMsgId = .ok columns := by
    rcases columnPlanFor_cases externals.hashName schema includeMsgId with
      ⟨error, _, failed⟩ | ⟨columns, _, columnPlanned, _⟩
    · rw [arrowPlanned] at failed
      cases failed
    · exact ⟨columns, columnPlanned⟩
  obtain ⟨columns, columnPlanned⟩ := columned
  have own := message.items_own
  have encodes : ∀ field ∈ schema.fields, encodeField externals field (ownValue pydantic values field) =
      some (valueElements externals.castBits field.dtype field.shape (ownValue pydantic values field)) :=
    fun field member => message.encodes converts representable member
  refine ⟨order, pack, columns, items, found, built, columnPlanned,
    agreeingOrders_planned found built columnPlanned, message.carried lossless, ?_, ?_⟩
  · intro buffer size
    have succeeded := (packRowFromList_succeeds built (.list items) buffer).mpr
      ⟨size, items, rfl, by
        rw [own, List.forall₂_map_right_iff, List.forall₂_same]
        intro field member
        rw [encodes field (mem_wireOrder.mp member)]
        rfl⟩
    obtain ⟨_, _, others, same, held⟩ := packRowFromList_holds built
      (Prod.ext succeeded rfl : packRowFromList externals pack (.list items) buffer = (.ok (), _))
    obtain rfl := Option.some.inj same
    refine ⟨_, Prod.ext succeeded rfl, ?_⟩
    intro segment capacity maxIdBytes fresh computed wellFormed returned F toFloat32 undefined out suits
    exact servingAssemble_own encodes computed wellFormed (own ▸ held) returned toFloat32 undefined suits
  · intro calls msgId date dateCache stamped store dated
    obtain ⟨held, files, rows, _, conserved⟩ :=
      (ConservedRows.initial externals includeMsgId).run calls
    have included : store.includeMsgId = includeMsgId := runDataset_included externals includeMsgId calls
    have count : items.length = arrow.wireTypes.length := by
      rw [own, List.length_map, wireOrder_perm.length_eq, width arrow arrowPlanned]
    have appended := conserved.returned arrowPlanned dated count stamped entityId
    change _ ∧ List.Perm _ (store.rows ++ [((schema, date), StoredRow.record externals.hashName schema
      ⟨entityId, eventTimeNs, items, messageNumbers store.includeMsgId msgId.bytes⟩)]) at appended
    rw [included, own, record_own] at appended
    rw [own]
    exact appended

end RoundTrip

/-- A list and a scalar come back. -/
theorem wire_roundTrips_sample :
    ∃ order pack columns items, WireRoundTrip samplePairs samplePair
      (ownValue samplePairPydantic samplePairValues) true "a" 0 samplePairFields order pack columns items :=
  wire_roundTrips samplePairs_roundTrips samplePairs_converts
    (show samplePair.Unreserved by unfold FeatureSchema.Unreserved; decide) samplePairs_doWrite
    samplePairs_representable true

end Quorin
