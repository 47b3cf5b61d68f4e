import Quorin.Construction.AppliedStream
import Quorin.Proof.Consumer.AllOrNothing
import Quorin.Proof.Consumer.EncodedValues
import Quorin.Proof.Offline.BufferConservation

namespace Quorin

open ByteMemory

/-- The row of a write in the columns of the offline writer. -/
def FeatureWrite.row (write : FeatureWrite) : StoredRow :=
  ⟨write.entityId, write.eventTimeNs, write.values,
    some ((write.msgId.ms : Int), (write.msgId.seq : Int))⟩

/-- The elements of the value of a field, among values in the order of the wire. -/
def cellElements (externals : Externals) (schema : FeatureSchema) (values : List WireValue)
    (field : FeatureField) : List (List UInt8) :=
  valueElements externals.castBits field.dtype field.shape
    (wireCell externals.hashName schema values .nil field)

/-- The bytes of the values of a write in the types of the fields, in declaration order. -/
def FeatureWrite.fieldBytes (externals : Externals) (schema : FeatureSchema) (write : FeatureWrite) :
    List (List UInt8) :=
  schema.fields.map fun field => (cellElements externals schema write.values field).flatten

/-- The values of a write have the types and the shapes of their fields. -/
def FeatureWrite.Typed (externals : Externals) (schema : FeatureSchema) (write : FeatureWrite) : Prop :=
  List.Forall₂ (fun field value => value.Matches field.dtype field.shape)
    (wireOrder externals.hashName schema) write.values

/-- The map from the entity ids of a segment to the bytes of their fields. -/
def Segment.fieldMap (hashId : List UInt8 → UInt64) (schema : FeatureSchema) (segment : Segment)
    (entityId : String) : Option (List (List UInt8)) :=
  (segment.entityMap hashId entityId).map fun row =>
    schema.placed.map fun entry => slice row entry.2 entry.1.byteCount

/-- The write of an entity that was applied last. -/
def lastWrite (writes : List FeatureWrite) (entityId : String) : Option FeatureWrite :=
  writes.reverse.find? fun write => write.entityId = entityId

theorem lastWrite_snoc (writes : List FeatureWrite) (write : FeatureWrite) :
    lastWrite (writes ++ [write]) =
      Function.update (lastWrite writes) write.entityId (some write) := by
  funext entityId
  unfold lastWrite
  rw [List.reverse_append, List.reverse_singleton, List.singleton_append, List.find?_cons]
  by_cases same : write.entityId = entityId
  · rw [← same, Function.update_self]
    simp
  · rw [Function.update_of_ne (Ne.symm same)]
    simp [same]

section Values

variable {externals : Externals} {schema : FeatureSchema}

/-- A class with an Arrow plan has shapes of at most two dimensions. -/
theorem arrowPlanFor_rank {plan : ArrowPlan}
    (planned : arrowPlanFor externals.hashName schema = .ok plan) :
    ∀ field ∈ schema.fields, field.shape.length ≤ 2 := by
  intro field member
  have types := mapM_except_forall (arrowPlanFor_wireTypes planned)
  obtain ⟨index, inside, rfl⟩ := List.mem_iff_getElem.mp
    ((@mem_wireOrder externals.hashName schema field).mpr member)
  have typed := types.get inside (types.length_eq ▸ inside)
  rw [List.get_eq_getElem] at typed
  unfold arrowTypeFor at typed
  split at typed
  · simp [*]
  · simp [*]
  · simp [*]
  · cases typed

/-- The value of every field has the type and the shape of the field. -/
theorem FeatureWrite.Typed.cell {write : FeatureWrite} (typed : write.Typed externals schema)
    {field : FeatureField} (member : field ∈ schema.fields) :
    (wireCell externals.hashName schema write.values .nil field).Matches field.dtype field.shape := by
  obtain ⟨index, inside, rfl⟩ := List.mem_iff_getElem.mp
    ((@mem_wireOrder externals.hashName schema field).mpr member)
  have there : index < write.values.length := typed.length_eq ▸ inside
  rw [wireCell_getElem inside there]
  exact typed.get inside there

/-- The elements of a typed value are as many and as long as the field says. -/
theorem FeatureWrite.Typed.elements {write : FeatureWrite} (typed : write.Typed externals schema)
    {field : FeatureField} (member : field ∈ schema.fields) :
    (cellElements externals schema write.values field).length = field.elementCount ∧
      ∀ element ∈ cellElements externals schema write.values field,
        element.length = field.dtype.byteSize := by
  have suits := typed.cell member
  unfold cellElements valueElements
  constructor
  · rw [List.length_map, suits.count, FeatureField.elementCount, elementProduct, List.prod_eq_foldl]
  · intro element inside
    obtain ⟨leaf, listed, rfl⟩ := List.mem_map.mp inside
    exact elementBytes_length (suits.scalars leaf listed)

/-- A packed row of typed values holds the bytes of the write. -/
theorem HoldsValues.fieldBytes (converts : externals.ConvertsLists)
    (flat : ∀ field ∈ schema.fields, field.shape.length ≤ 2) {write : FeatureWrite}
    (typed : write.Typed externals schema) {row : List UInt8}
    (held : HoldsValues externals schema write.values row) :
    (schema.placed.map fun entry => slice row entry.2 entry.1.byteCount) =
      write.fieldBytes externals schema := by
  unfold FeatureWrite.fieldBytes
  rw [← placed_fields, List.map_map]
  apply List.map_congr_left
  intro entry member
  obtain ⟨index, inside, rfl⟩ := List.mem_iff_getElem.mp
    ((@wirePlaced_perm externals.hashName schema).mem_iff.mpr member)
  have there : index < write.values.length := held.length_eq ▸ inside
  have stored := held.get inside there
  rw [List.get_eq_getElem, List.get_eq_getElem] at stored
  have fits : index < (wireOrder externals.hashName schema).length := by
    rw [← wirePlaced_fields, List.length_map]
    exact inside
  have field : (wireOrder externals.hashName schema)[index] =
      (wirePlaced externals.hashName schema)[index].1 := by
    simp only [← wirePlaced_fields, List.getElem_map]
  have known : (wirePlaced externals.hashName schema)[index].1 ∈ schema.fields :=
    field ▸ mem_wireOrder.mp (List.getElem_mem fits)
  have cell := @wireCell_getElem externals.hashName schema _ write.values .nil index fits there
  rw [field] at cell
  have suits := typed.cell known
  rw [Function.comp_apply, cellElements, cell]
  rw [cell] at suits
  rcases encodeField_cases converts (flat _ known) suits with ⟨_, refused⟩ | ⟨_, encoded⟩
  · rw [refused] at stored
    cases stored
  · rw [encoded] at stored
    exact (Option.some.inj stored).symm

end Values

section Apply

variable {externals : Externals} {consumer after : Consumer} {shared written : SharedMemory}
  {entry : StreamEntry}

/-- The effects of a message that was applied: an insert of its row and an append of its values. -/
structure AppliedMessage (externals : Externals) (consumer after : Consumer)
    (shared written : SharedMemory) (entry : StreamEntry) (name : List UInt8) (schema : FeatureSchema)
    (write : FeatureWrite) (segmentName : String) (segment : Segment) (row : List UInt8) : Prop where
  named : entry.fields.schema = some name
  known : consumer.schemas.lookup name = some schema
  writes : entry.write externals = some write
  id : write.msgId = entry.id
  held : consumer.held shared name = some (segmentName, segment)
  packed : HoldsValues externals schema write.values row
  inserted : ∃ fresh, (insert externals.hashId segment.layout write.entityId row).result
    segment.memory = .ok fresh
  memory : written = Function.update shared segmentName (some { segment with
    memory := ((insert externals.hashId segment.layout write.entityId row).run segment.memory).2 })
  appended : (consumer.offline.append externals schema write.entityId write.eventTimeNs write.values
    write.msgId.bytes).1 = .ok ()
  offline : after.offline = (consumer.offline.append externals schema write.entityId
    write.eventTimeNs write.values write.msgId.bytes).2
  schemas : after.schemas = consumer.schemas
  segments : after.segments = consumer.segments

/-- A packed message holds its values. -/
theorem packMessage_holds {message : DecodedMessage} {buffer row : List UInt8}
    (packed : packMessage externals message buffer = (true, row)) :
    ∃ items, message.values.items = some items ∧ HoldsValues externals message.schema items row := by
  unfold packMessage at packed
  split at packed
  · cases packed
  · rename_i plan built
    split at packed
    · rename_i out result
      obtain rfl := (Prod.mk.inj packed).2
      obtain ⟨_, _, items, same, held⟩ := packRowFromList_holds built result
      exact ⟨items, same, held⟩
    · cases packed

/-- A message that was applied has both of its effects. -/
theorem apply_applied
    (returned : apply externals consumer shared entry.id (some entry.fields) =
      (.ok true, after, written)) :
    ∃ name schema write segmentName segment row,
      AppliedMessage externals consumer after shared written entry name schema write segmentName
        segment row := by
  cases ready : prepareInsert externals consumer entry.fields with
  | mk result rowBuffers =>
      rcases result with exception | none | prepared
      · simp [apply, ready] at returned
      · simp [apply, ready] at returned
      · rw [apply_prepared ready] at returned
        obtain ⟨success, state⟩ := Prod.mk.inj returned
        obtain ⟨decoded, packed, sameId⟩ := prepareInsert_some (congrArg Prod.fst ready)
        obtain ⟨named, known, entityId, unpacked⟩ := decodeMessage_some decoded
        obtain ⟨items, values, holds⟩ := packMessage_holds packed
        have success := Except.ok.inj success
        unfold finishApply at success state
        cases held : Consumer.held { consumer with rowBuffers := rowBuffers } shared
            prepared.message.name with
        | none => simp [held] at success
        | some pair =>
            obtain ⟨segmentName, segment⟩ := pair
            rw [held] at success state
            dsimp only at success state
            cases result : ((insert externals.hashId segment.layout prepared.request.entityId
                prepared.request.rowData).run segment.memory).1 with
            | error error => simp [result] at success
            | ok fresh =>
                rw [result] at success state
                dsimp only at success state
                cases time : entry.fields.eventTime.bind parseInt with
                | none => simp [time] at success
                | some eventTimeNs =>
                    rw [time, values] at success state
                    dsimp only at success state
                    cases appended : (consumer.offline.append externals prepared.message.schema
                        prepared.message.entityId eventTimeNs items entry.id.bytes).1 with
                    | error error => simp [appended] at success
                    | ok _ =>
                        rw [appended] at state
                        obtain ⟨rfl, rfl⟩ := Prod.mk.inj state
                        refine ⟨prepared.message.name, prepared.message.schema,
                          ⟨prepared.message.entityId, eventTimeNs, entry.id, items⟩, segmentName,
                          segment, prepared.request.rowData, named, known, ?_, rfl, held, holds, ?_, ?_,
                          appended, rfl, rfl, rfl⟩
                        · unfold StreamEntry.write
                          rw [entityId, time, unpacked, Option.bind_some, values]
                        · exact ⟨fresh, sameId ▸ result⟩
                        · rw [sameId]

end Apply

/-- A segment stays well formed behind an insert that returns. -/
theorem Segment.WellFormed.inserted {hashId : List UInt8 → UInt64} {segment : Segment}
    (wellFormed : segment.WellFormed hashId) {entityId : String} {row : List UInt8} {fresh : Bool}
    (returned : (insert hashId segment.layout entityId row).result segment.memory = .ok fresh) :
    Segment.WellFormed hashId { segment with
      memory := ((insert hashId segment.layout entityId row).run segment.memory).2 } := by
  obtain ⟨sound, log, lost, refined⟩ := wellFormed
  have completed := refined.completeInsert sound ⟨entityId, row⟩
  unfold SegmentHistory.completeInsert at completed
  have outcome : ((insert hashId segment.layout entityId row).run segment.memory).1 = .ok fresh :=
    returned
  simp only [outcome] at completed
  exact ⟨sound, _, lost, completed⟩

/-- An append that returns leaves the cache that the look-up of its date has left. -/
theorem append_returned_cache {externals : Externals} {store : OfflineStore}
    (sound : store.Sound externals) {schema : FeatureSchema} {entityId : String} {eventTimeNs : Int}
    {values : List WireValue} {msgId : List UInt8} {date : String} {dateCache : List (Int × String)}
    (dated : store.getDateStr externals eventTimeNs = some (date, dateCache))
    (returned : (store.append externals schema entityId eventTimeNs values msgId).1 = .ok ()) :
    (store.append externals schema entityId eventTimeNs values msgId).2.dateCache = dateCache := by
  rcases append_cases sound schema entityId eventTimeNs values msgId with
    ⟨error, same⟩ | ⟨_, _, bucket, found, _, ⟨error, same⟩ | ⟨parsed, _, _, same⟩⟩
  · rw [same] at returned
    cases returned
  · rw [same] at returned
    cases returned
  · rw [dated] at found
    obtain ⟨rfl, rfl⟩ := Prod.mk.inj (Option.some.inj found)
    rw [same]
    rfl

section Runs

/-- The message is one of the given class name, and its values have the types of their fields. -/
def StreamStep.Suits (externals : Externals) (name : List UInt8) (schema : FeatureSchema) :
    StreamStep → Prop
  | .message entry => entry.fields.schema = some name ∧
      ∀ write, entry.write externals = some write → write.Typed externals schema
  | .flush _ => True

/-- The rows of the stream in the buffers and in the sealed files, with their keys. -/
def AppliedStream.rows (state : AppliedStream) : List (BucketKey × StoredRow) :=
  state.consumer.offline.rows ++ sealedFileRows state.files

/-- The segment holds the last write of every entity, and the rows are those of the writes. -/
structure StreamHolds (externals : Externals) (name : List UInt8) (schema : FeatureSchema)
    (segmentName : String) (state : AppliedStream) (writes : List FeatureWrite) : Prop where
  known : state.consumer.schemas.lookup name = some schema
  served : ∃ segment, state.consumer.held state.shared name = some (segmentName, segment) ∧
    segment.WellFormed externals.hashId ∧ ∀ entityId,
      segment.fieldMap externals.hashId schema entityId =
        (lastWrite writes entityId).map (FeatureWrite.fieldBytes externals schema)
  sound : state.consumer.offline.Sound externals
  planned : writes ≠ [] → ∃ plan, arrowPlanFor externals.hashName schema = .ok plan
  included : state.consumer.offline.includeMsgId = true
  cached : ∀ entry ∈ state.consumer.offline.dateCache, ∃ write ∈ writes,
    write.eventTimeNs / dayNs = entry.1 ∧ externals.dateString write.eventTimeNs = some entry.2
  origin : ∀ entry ∈ state.rows, ∃ write ∈ writes, entry.1.1 = schema ∧ entry.2 = write.row ∧
    ∃ first ∈ writes, first.eventTimeNs / dayNs = write.eventTimeNs / dayNs ∧
      externals.dateString first.eventTimeNs = some entry.1.2
  kept : ∀ write ∈ writes, ∃ date, ((schema, date), write.row) ∈ state.rows

variable {externals : Externals} {name : List UInt8} {schema : FeatureSchema} {segmentName : String}
  {state : AppliedStream} {writes : List FeatureWrite}
  (holds : StreamHolds externals name schema segmentName state writes)

include holds in
/-- A flush moves rows to the files and may leave a copy behind. -/
theorem StreamHolds.flush (outcome : BucketKey → WriteOutcome) {after : AppliedStream}
    (stepped : state.perform externals (.flush outcome) = some after) :
    StreamHolds externals name schema segmentName after writes := by
  obtain rfl := Option.some.inj stepped
  obtain ⟨moved, known⟩ := @flush_rows externals state.consumer.offline outcome
  have rows : ∀ entry, entry ∈ AppliedStream.rows { state with
      consumer := { state.consumer with
        offline := (state.consumer.offline.flush externals outcome).2.1 }
      files := state.files ++ (state.consumer.offline.flush externals outcome).2.2 } ↔
        entry ∈ state.rows := by
    intro entry
    have back := known entry
    have forth : entry ∈ state.consumer.offline.rows → _ := fun member => moved.subset member
    simp only [AppliedStream.rows, sealedFileRows, List.flatMap_append, List.mem_append] at back forth ⊢
    tauto
  constructor
  · exact holds.known
  · exact holds.served
  · exact flush_sound outcome holds.sound
  · exact holds.planned
  · exact holds.included
  · exact holds.cached
  · exact fun entry member => holds.origin entry ((rows entry).mp member)
  · intro write member
    obtain ⟨date, stored⟩ := holds.kept write member
    exact ⟨date, (rows _).mpr stored⟩

/-- The date of a write is the date text of a write of its day, as are all cached dates. -/
theorem getDateStr_cached {store : OfflineStore}
    (cached : ∀ entry ∈ store.dateCache, ∃ write ∈ writes,
      write.eventTimeNs / dayNs = entry.1 ∧ externals.dateString write.eventTimeNs = some entry.2)
    {write : FeatureWrite} {date : String} {dateCache : List (Int × String)}
    (dated : store.getDateStr externals write.eventTimeNs = some (date, dateCache)) :
    (∃ first ∈ writes ++ [write], first.eventTimeNs / dayNs = write.eventTimeNs / dayNs ∧
      externals.dateString first.eventTimeNs = some date) ∧
    ∀ entry ∈ dateCache, ∃ first ∈ writes ++ [write],
      first.eventTimeNs / dayNs = entry.1 ∧ externals.dateString first.eventTimeNs = some entry.2 := by
  have before : ∀ entry ∈ store.dateCache, ∃ first ∈ writes ++ [write],
      first.eventTimeNs / dayNs = entry.1 ∧
        externals.dateString first.eventTimeNs = some entry.2 := by
    intro entry member
    obtain ⟨first, inside, same⟩ := cached entry member
    exact ⟨first, List.mem_append_left _ inside, same⟩
  unfold OfflineStore.getDateStr at dated
  split at dated
  · rename_i found
    obtain ⟨rfl, rfl⟩ := Prod.mk.inj (Option.some.inj dated)
    exact ⟨before _ (lookup_mem found), before⟩
  · obtain ⟨text, own, same⟩ := Option.map_eq_some_iff.mp dated
    obtain ⟨rfl, rfl⟩ := Prod.mk.inj same
    have last : write ∈ writes ++ [write] := List.mem_append_right _ (List.mem_singleton_self _)
    refine ⟨⟨write, last, rfl, own⟩, ?_⟩
    intro entry member
    rcases List.mem_cons.mp member with rfl | older
    · exact ⟨write, last, rfl, own⟩
    · exact before entry older

include holds in
/-- A message that is applied becomes the last write of its entity and one more row. -/
theorem StreamHolds.message (converts : externals.ConvertsLists) {entry : StreamEntry}
    (suits : StreamStep.Suits externals name schema (.message entry)) {after : AppliedStream}
    (stepped : state.perform externals (.message entry) = some after) :
    ∃ write, entry.write externals = some write ∧
      StreamHolds externals name schema segmentName after (writes ++ [write]) := by
  unfold AppliedStream.perform at stepped
  dsimp only at stepped
  split at stepped
  · rename_i consumer written returned
    obtain rfl := Option.some.inj stepped
    obtain ⟨own, ownSchema, write, ownSegment, segment, row, message⟩ := apply_applied returned
    obtain rfl := Option.some.inj (suits.1.symm.trans message.named)
    obtain rfl := Option.some.inj (holds.known.symm.trans message.known)
    obtain ⟨served, there, wellFormed, fieldMap⟩ := holds.served
    obtain ⟨rfl, rfl⟩ := Prod.mk.inj (Option.some.inj (there.symm.trans message.held))
    obtain ⟨date, dateCache, bucket, parsed, dated, ids, text, rows⟩ :=
      append_returned_rows holds.sound message.appended
    obtain ⟨plan, planned, _⟩ := (append_returns_iff holds.sound).mp message.appended
    obtain ⟨datedBy, cache⟩ := getDateStr_cached holds.cached dated
    have numbers := parseMsgId_bytes text
    rw [ids, holds.included] at numbers
    have stored : (AppliedStream.rows ⟨consumer, written, state.files⟩).Perm
        (state.rows ++ [((schema, date), write.row)]) := by
      unfold AppliedStream.rows
      dsimp only
      rw [message.offline]
      refine (rows.append_right _).trans ?_
      rw [holds.included, if_pos rfl, numbers, if_pos rfl, List.append_assoc, List.append_assoc]
      exact List.perm_append_comm.append_left _
    refine ⟨write, message.writes, ?_, ?_, ?_, fun _ => ⟨plan, planned⟩, ?_, ?_, ?_, ?_⟩
    · rw [← holds.known, message.schemas]
    · obtain ⟨fresh, inserted⟩ := message.inserted
      refine ⟨_, held_iff.mpr ⟨?_, ?_⟩, wellFormed.inserted inserted, ?_⟩
      · rw [message.segments]
        exact (held_iff.mp message.held).1
      · rw [message.memory]
        exact Function.update_self _ _ _
      · intro entityId
        have typed := suits.2 write message.writes
        have bytes := message.packed.fieldBytes converts (arrowPlanFor_rank planned) typed
        have map := congrFun (entityMap_insert wellFormed inserted) entityId
        rw [Segment.fieldMap, map, lastWrite_snoc]
        by_cases same : entityId = write.entityId
        · rw [same, Function.update_self, Function.update_self, Option.map_some, Option.map_some,
            bytes]
        · rw [Function.update_of_ne same, Function.update_of_ne same]
          exact fieldMap entityId
    · rw [message.offline]
      exact (append_keeps holds.sound _ _ _ _ _).1
    · rw [message.offline, (append_keeps holds.sound _ _ _ _ _).2.1]
      exact holds.included
    · rw [message.offline, append_returned_cache holds.sound dated message.appended]
      exact cache
    · intro row member
      rcases List.mem_append.mp (stored.mem_iff.mp member) with old | new
      · obtain ⟨other, inside, same, content, first, earlier, day⟩ := holds.origin row old
        exact ⟨other, List.mem_append_left _ inside, same, content, first,
          List.mem_append_left _ earlier, day⟩
      · rw [List.mem_singleton.mp new]
        exact ⟨write, List.mem_append_right _ (List.mem_singleton_self _), rfl, rfl, datedBy⟩
    · intro other member
      rcases List.mem_append.mp member with old | new
      · obtain ⟨text, inside⟩ := holds.kept other old
        exact ⟨text, stored.mem_iff.mpr (List.mem_append_left _ inside)⟩
      · rw [List.mem_singleton.mp new]
        exact ⟨date, stored.mem_iff.mpr (List.mem_append_right _ (List.mem_singleton_self _))⟩
  · cases stepped

include holds in
/-- Behind a run the segment and the rows are those of all writes. -/
theorem StreamHolds.run (converts : externals.ConvertsLists) {steps : List StreamStep}
    (suits : ∀ step ∈ steps, step.Suits externals name schema) {after : AppliedStream}
    (reached : state.run externals steps = some after) :
    StreamHolds externals name schema segmentName after (writes ++ streamWrites externals steps) := by
  induction steps generalizing state writes with
  | nil =>
      obtain rfl := Option.some.inj reached
      rw [streamWrites, List.filterMap_nil, List.append_nil]
      exact holds
  | cons step rest ih =>
      obtain ⟨next, stepped, continued⟩ := Option.bind_eq_some_iff.mp
        (show (state.perform externals step).bind (·.run externals rest) = some after from reached)
      have others := fun step member => suits step (List.mem_cons_of_mem _ member)
      cases step with
      | message entry =>
          obtain ⟨write, own, extended⟩ :=
            holds.message converts (suits _ List.mem_cons_self) stepped
          have all := ih extended others continued
          rw [List.append_assoc, List.singleton_append] at all
          rw [streamWrites, List.filterMap_cons_some (show StreamStep.write externals (.message entry) =
            some write from own)]
          exact all
      | flush outcome =>
          have all := ih (holds.flush outcome stepped) others continued
          rw [streamWrites, List.filterMap_cons_none rfl]
          exact all

end Runs

end Quorin
