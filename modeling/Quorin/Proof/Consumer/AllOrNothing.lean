import Quorin.Proof.Consumer.Progress

namespace Quorin

open ByteMemory

/-- The entity map of a segment, as `lookup` shows it. -/
def Segment.entityMap (hashId : List UInt8 → UInt64) (segment : Segment) (entityId : String) :
    Option (List UInt8) :=
  match (lookup hashId segment.layout entityId).result segment.memory with
  | .ok (some address) => some (segment.memory.read address segment.layout.rowSize)
  | _ => none

/-- A segment that only completed and cut-off inserts have written. -/
def Segment.WellFormed (hashId : List UInt8 → UInt64) (segment : Segment) : Prop :=
  LayoutSound segment.layout ∧
    ∃ log lost, (SegmentHistory.mk segment.memory log lost).Refined hashId segment.layout

section EntityMap

variable {hashId : List UInt8 → UInt64} {segment : Segment} {log : List InsertRequest} {lost : Nat}

/-- The entity map of a well-formed segment holds the newest rows of its log. -/
theorem entityMap_eq_lastRow (sound : LayoutSound segment.layout)
    (refined : (SegmentHistory.mk segment.memory log lost).Refined hashId segment.layout) :
    segment.entityMap hashId = lastRow log := by
  have behaves := refined.behavesAsMap sound
  funext entityId
  unfold Segment.entityMap
  cases stored : lastRow log entityId with
  | none =>
      by_cases empty : entityId = ""
      · rw [empty]
        rfl
      · have missing := congrArg Prod.fst (behaves.absent entityId empty stored)
        change (lookup hashId segment.layout entityId).result segment.memory = _ at missing
        rw [missing]
  | some rowData =>
      obtain ⟨address, found, row⟩ := behaves.present entityId rowData stored
      have result := congrArg Prod.fst found
      change (lookup hashId segment.layout entityId).result segment.memory = _ at result
      rw [result]
      exact congrArg some row

/-- An insert that returns puts its row into the entity map. -/
theorem entityMap_insert (wellFormed : segment.WellFormed hashId) {entityId : String}
    {rowData : List UInt8} {fresh : Bool}
    (returned : (insert hashId segment.layout entityId rowData).result segment.memory = .ok fresh) :
    Segment.entityMap hashId { segment with
        memory := ((insert hashId segment.layout entityId rowData).run segment.memory).2 } =
      Function.update (segment.entityMap hashId) entityId (some rowData) := by
  obtain ⟨sound, log, lost, refined⟩ := wellFormed
  have completed := refined.completeInsert sound ⟨entityId, rowData⟩
  unfold SegmentHistory.completeInsert at completed
  have outcome : ((insert hashId segment.layout entityId rowData).run segment.memory).1 = .ok fresh :=
    returned
  simp only [outcome] at completed
  rw [entityMap_eq_lastRow sound refined]
  exact (@entityMap_eq_lastRow hashId { segment with
    memory := ((insert hashId segment.layout entityId rowData).run segment.memory).2 } _ _ sound
      completed).trans (lastRow_cons ⟨entityId, rowData⟩ log)

/-- An insert that raises leaves the segment as it is. -/
theorem insert_raised_memory (wellFormed : segment.WellFormed hashId) {entityId : String}
    {rowData : List UInt8} {error : SegmentError}
    (raised : (insert hashId segment.layout entityId rowData).result segment.memory = .error error) :
    ((insert hashId segment.layout entityId rowData).run segment.memory).2 = segment.memory := by
  obtain ⟨sound, log, lost, refined⟩ := wellFormed
  exact (refined.behavesAsMap sound).raised entityId rowData error raised

end EntityMap

/-- The message of a call of `_apply` and the segment that it is inserted into. -/
structure InsertTarget (externals : Externals) (consumer : Consumer) (shared : SharedMemory)
    (fields : MessageFields) (prepared : PreparedInsert) (segmentName : String) (segment : Segment) :
    Prop where
  ready : (prepareInsert externals consumer fields).1 = .ok (some prepared)
  held : consumer.held shared prepared.message.name = some (segmentName, segment)
  accepted : ∃ fresh, (insert externals.hashId segment.layout prepared.request.entityId
    prepared.request.rowData).result segment.memory = .ok fresh

/-- The offline writer takes the row of a message: its class, its time and its id can be stored. -/
def OfflineAccepts (externals : Externals) (store : OfflineStore) (message : DecodedMessage)
    (fields : MessageFields) (msgId : MsgId) : Prop :=
  ∃ plan eventTimeNs values, arrowPlanFor externals.hashName message.schema = .ok plan ∧
    fields.eventTime.bind parseInt = some eventTimeNs ∧
    store.getDateStr externals eventTimeNs ≠ none ∧ message.values.items = some values ∧
    values.length = plan.wireTypes.length ∧
    ∃ ids, parseMsgId (makeBucket plan store.includeMsgId) msgId.bytes = .ok ids

/-- A call of `_apply` changes the segment and the offline buffers, or neither of them. -/
structure AllOrNothing (externals : Externals) (consumer : Consumer) (shared : SharedMemory)
    (msgId : MsgId) (fields : MessageFields) : Prop where
  nothing : (apply externals consumer shared msgId (some fields)).1 ≠ .ok true →
    (∀ segmentName, ((apply externals consumer shared msgId (some fields)).2.2 segmentName).map
        (Segment.entityMap externals.hashId) =
      (shared segmentName).map (Segment.entityMap externals.hashId)) ∧
    (apply externals consumer shared msgId (some fields)).2.1.offline.rows = consumer.offline.rows
  all : (apply externals consumer shared msgId (some fields)).1 = .ok true →
    (∃ message rowData segmentName segment,
      decodeMessage externals consumer.schemas fields = .ok (some message) ∧
      packMessage externals message (consumer.rowBuffers message.name) = (true, rowData) ∧
      consumer.segments message.name = some segmentName ∧
      (apply externals consumer shared msgId (some fields)).2.2 segmentName = some segment ∧
      segment.entityMap externals.hashId message.entityId = some rowData) ∧
    ∃ key row, RowOf externals consumer.schemas consumer.offline.includeMsgId msgId fields key row ∧
      (apply externals consumer shared msgId (some fields)).2.1.offline.Buffered key row

section Apply

variable {externals : Externals} {consumer : Consumer} {shared : SharedMemory} {msgId : MsgId}
  {fields : MessageFields}

/-- A prepared insert leads to the second part of `_apply`. -/
theorem apply_prepared {prepared : PreparedInsert} {rowBuffers : List UInt8 → List UInt8}
    (ready : prepareInsert externals consumer fields = (.ok (some prepared), rowBuffers)) :
    apply externals consumer shared msgId (some fields) =
      (.ok (finishApply externals { consumer with rowBuffers := rowBuffers } shared msgId fields
          prepared).1,
        (finishApply externals { consumer with rowBuffers := rowBuffers } shared msgId fields
          prepared).2) := by
  simp [apply, ready]

/-- A call of `_apply` that reaches no accepted insert changes nothing. -/
theorem apply_without_insert
    (wellFormed : ∀ name segment, shared name = some segment → segment.WellFormed externals.hashId)
    (never : ∀ prepared segmentName segment,
      ¬ InsertTarget externals consumer shared fields prepared segmentName segment) :
    (apply externals consumer shared msgId (some fields)).1 ≠ .ok true ∧
      (apply externals consumer shared msgId (some fields)).2.2 = shared ∧
      (apply externals consumer shared msgId (some fields)).2.1.offline = consumer.offline := by
  cases ready : prepareInsert externals consumer fields with
  | mk result rowBuffers =>
      rcases result with exception | none | prepared
      · simp [apply, ready]
      · simp [apply, ready]
      · rw [apply_prepared ready]
        dsimp only
        unfold finishApply
        cases held : Consumer.held { consumer with rowBuffers := rowBuffers } shared
            prepared.message.name with
        | none => simp
        | some pair =>
            obtain ⟨segmentName, segment⟩ := pair
            have present : shared segmentName = some segment := by
              obtain ⟨name, _, found⟩ := Option.bind_eq_some_iff.mp held
              obtain ⟨stored, here, same⟩ := Option.map_eq_some_iff.mp found
              obtain ⟨rfl, rfl⟩ := Prod.mk.inj same
              exact here
            cases result : (insert externals.hashId segment.layout prepared.request.entityId
                prepared.request.rowData).result segment.memory with
            | ok fresh =>
                exact absurd ⟨by rw [ready], held, fresh, result⟩ (never prepared segmentName segment)
            | error error =>
                have memory := insert_raised_memory (wellFormed _ _ present) result
                have outcome : ((insert externals.hashId segment.layout prepared.request.entityId
                    prepared.request.rowData).run segment.memory).1 = .error error := result
                dsimp only
                rw [outcome, memory]
                refine ⟨by simp, ?_, rfl⟩
                rw [← present, Function.update_eq_self]

/-- A call of `_apply` behind an accepted insert returns what the offline writer decides. -/
theorem apply_with_insert {prepared : PreparedInsert} {segmentName : String} {segment : Segment}
    (target : InsertTarget externals consumer shared fields prepared segmentName segment)
    (sound : consumer.offline.Sound externals) :
    (apply externals consumer shared msgId (some fields)).2.2 =
        Function.update shared segmentName (some { segment with
          memory := ((insert externals.hashId segment.layout prepared.request.entityId
            prepared.request.rowData).run segment.memory).2 }) ∧
      ((apply externals consumer shared msgId (some fields)).1 = .ok true ↔
        OfflineAccepts externals consumer.offline prepared.message fields msgId) ∧
      (¬ OfflineAccepts externals consumer.offline prepared.message fields msgId →
        (apply externals consumer shared msgId (some fields)).2.1.offline.rows =
          consumer.offline.rows) := by
  obtain ⟨ready, held, fresh, result⟩ := target
  have outcome : ((insert externals.hashId segment.layout prepared.request.entityId
      prepared.request.rowData).run segment.memory).1 = .ok fresh := result
  cases step : prepareInsert externals consumer fields with
  | mk prepareResult rowBuffers =>
      rw [step] at ready
      obtain rfl : prepareResult = .ok (some prepared) := ready
      rw [apply_prepared step]
      dsimp only
      unfold finishApply
      rw [show Consumer.held { consumer with rowBuffers := rowBuffers } shared prepared.message.name =
        some (segmentName, segment) from held]
      dsimp only
      rw [outcome]
      dsimp only
      cases time : fields.eventTime.bind parseInt with
      | none =>
          refine ⟨rfl, ?_, fun _ => rfl⟩
          simp [OfflineAccepts, time]
      | some eventTimeNs =>
          cases items : prepared.message.values.items with
          | none =>
              refine ⟨rfl, ?_, fun _ => rfl⟩
              simp [OfflineAccepts, items]
          | some values =>
              have accepts : OfflineAccepts externals consumer.offline prepared.message fields msgId ↔
                  (consumer.offline.append externals prepared.message.schema prepared.message.entityId
                    eventTimeNs values msgId.bytes).1 = .ok () := by
                rw [append_returns_iff sound]
                simp only [OfflineAccepts, time, items, Option.some.injEq]
                constructor
                · rintro ⟨plan, _, _, planned, rfl, dated, rfl, count, ids⟩
                  exact ⟨plan, planned, dated, count, ids⟩
                · rintro ⟨plan, planned, dated, count, ids⟩
                  exact ⟨plan, _, _, planned, rfl, dated, rfl, count, ids⟩
              rw [accepts]
              have raised := @append_raised_rows externals consumer.offline sound
                prepared.message.schema prepared.message.entityId eventTimeNs values msgId.bytes
              dsimp only
              cases appended : (consumer.offline.append externals prepared.message.schema
                  prepared.message.entityId eventTimeNs values msgId.bytes).1 with
              | ok _ => exact ⟨rfl, by simp, fun refused => absurd rfl refused⟩
              | error error =>
                  rw [appended] at raised
                  exact ⟨rfl, by simp, raised⟩

theorem InsertTarget.present {prepared : PreparedInsert} {segmentName : String} {segment : Segment}
    (target : InsertTarget externals consumer shared fields prepared segmentName segment) :
    consumer.segments prepared.message.name = some segmentName ∧
      shared segmentName = some segment := by
  obtain ⟨name, handle, found⟩ := Option.bind_eq_some_iff.mp target.held
  obtain ⟨stored, here, same⟩ := Option.map_eq_some_iff.mp found
  obtain ⟨rfl, rfl⟩ := Prod.mk.inj same
  exact ⟨handle, here⟩

/-- The entity map of the target behind the accepted insert. -/
theorem InsertTarget.entityMap {prepared : PreparedInsert} {segmentName : String} {segment : Segment}
    (target : InsertTarget externals consumer shared fields prepared segmentName segment)
    (wellFormed : segment.WellFormed externals.hashId) :
    Segment.entityMap externals.hashId { segment with
        memory := ((insert externals.hashId segment.layout prepared.request.entityId
          prepared.request.rowData).run segment.memory).2 } =
      Function.update (segment.entityMap externals.hashId) prepared.request.entityId
        (some prepared.request.rowData) := by
  obtain ⟨fresh, returned⟩ := target.accepted
  exact entityMap_insert wellFormed returned

/-- A row that the offline writer refuses was in the segment already when `_apply` is atomic. -/
theorem AllOrNothing.stored (sound : consumer.offline.Sound externals)
    (wellFormed : ∀ name segment, shared name = some segment → segment.WellFormed externals.hashId)
    (whole : AllOrNothing externals consumer shared msgId fields) {prepared : PreparedInsert}
    {segmentName : String} {segment : Segment}
    (target : InsertTarget externals consumer shared fields prepared segmentName segment)
    (rejected : ¬ OfflineAccepts externals consumer.offline prepared.message fields msgId) :
    segment.entityMap externals.hashId prepared.request.entityId =
      some prepared.request.rowData := by
  obtain ⟨written, returned, _⟩ := apply_with_insert target sound
  have present := target.present.2
  have same := (whole.nothing fun applied => rejected (returned.mp applied)).1 segmentName
  rw [written, Function.update_self, present, Option.map_some, Option.map_some,
    target.entityMap (wellFormed _ _ present)] at same
  rw [← Option.some.inj same, Function.update_self]

/-- `_apply` is all or nothing unless the offline writer refuses the row of a changing insert. -/
theorem allOrNothing_iff (sound : consumer.offline.Sound externals)
    (wellFormed : ∀ name segment, shared name = some segment →
      segment.WellFormed externals.hashId) :
    AllOrNothing externals consumer shared msgId fields ↔
      ∀ prepared segmentName segment,
        InsertTarget externals consumer shared fields prepared segmentName segment →
        OfflineAccepts externals consumer.offline prepared.message fields msgId ∨
        segment.entityMap externals.hashId prepared.request.entityId =
          some prepared.request.rowData := by
  constructor
  · intro whole prepared segmentName segment target
    by_cases accepts : OfflineAccepts externals consumer.offline prepared.message fields msgId
    · exact Or.inl accepts
    · exact Or.inr (whole.stored sound wellFormed target accepts)
  · intro condition
    by_cases reached : ∃ prepared segmentName segment,
        InsertTarget externals consumer shared fields prepared segmentName segment
    · obtain ⟨prepared, segmentName, segment, target⟩ := reached
      obtain ⟨written, returned, rows⟩ := apply_with_insert target sound
      obtain ⟨handle, present⟩ := target.present
      have map := target.entityMap (wellFormed _ _ present)
      refine ⟨?_, ?_⟩
      · intro refused
        have rejected : ¬ OfflineAccepts externals consumer.offline prepared.message fields msgId :=
          fun accepts => refused (returned.mpr accepts)
        have stored := (condition prepared segmentName segment target).resolve_left rejected
        refine ⟨?_, rows rejected⟩
        intro other
        rw [written]
        by_cases here : other = segmentName
        · rw [here, Function.update_self, present, Option.map_some, Option.map_some, map, ← stored,
            Function.update_eq_self]
        · rw [Function.update_of_ne here]
      · intro applied
        obtain ⟨decoded, packed, entity⟩ := prepareInsert_some target.ready
        refine ⟨⟨prepared.message, prepared.request.rowData, segmentName, _, decoded, packed, handle,
          by rw [written, Function.update_self], ?_⟩, ?_⟩
        · rw [map, ← entity, Function.update_self]
        · obtain ⟨held, same, key, row, rowOf, buffered⟩ :=
            @apply_true externals consumer shared msgId (some fields) _ _ sound
              (Prod.ext applied rfl)
          obtain rfl := Option.some.inj same
          exact ⟨key, row, rowOf, buffered⟩
    · obtain ⟨refused, same, offline⟩ := @apply_without_insert externals consumer shared msgId fields
        wellFormed fun prepared segmentName segment target =>
          reached ⟨prepared, segmentName, segment, target⟩
      refine ⟨fun _ => ⟨fun segmentName => by rw [same], by rw [offline]⟩, fun applied => ?_⟩
      exact absurd applied refused

end Apply

section Sample

theorem sampleShared_wellFormed : ∀ name segment, sampleWorld.shared name = some segment →
    segment.WellFormed sampleExternals.hashId := by
  intro name segment present
  simp only [sampleWorld] at present
  split at present
  · obtain rfl := Option.some.inj present
    exact ⟨sampleLayout_sound, [], 0, SegmentHistory.Refined.fresh _ sampleLayout_sound rfl⟩
  · cases present

/-- A sample write reaches its insert whatever its event time is. -/
theorem sample_insertTarget (eventTimeNs : Int) : ∃ prepared segment,
    InsertTarget sampleExternals (freshConsumer sampleDeployment sampleWorld.current)
      sampleWorld.shared (sampleEntry 1 0x3ff0000000000000 eventTimeNs).fields prepared "segment"
      segment ∧
    prepared.message.schema = sampleSchema ∧
    prepared.message.values.items = some [.float 0x3ff0000000000000] ∧
    segment.entityMap sampleExternals.hashId prepared.request.entityId = none := by
  have serving := sampleOffered_serving sampleFirst
  have packed : packFloat sampleExternals .float32 0x3ff0000000000000 = some [0, 0, 0x80, 0x3f] := by
    decide
  have ready := sample_prepared serving 1 eventTimeNs packed
  obtain ⟨memory, present, refined⟩ := serving.memory
  have held : (freshConsumer sampleDeployment sampleWorld.current).held sampleWorld.shared
      (encodeUtf8 "Sample") = some ("segment", ⟨sampleSchema, sampleLayout, memory⟩) := by
    rw [Consumer.held, serving.segments, Option.bind_some,
      show sampleWorld.shared "segment" = _ from present]
    rfl
  have size : (sampleRow ((freshConsumer sampleDeployment sampleWorld.current).rowBuffers
      (encodeUtf8 "Sample")) [0, 0, 0x80, 0x3f]).length = 64 := by
    simp [sampleRow, splice, serving.rowBuffer]
  have result := (refined.behavesAsMap sampleLayout_sound).inserted "a" _ (by decide) size
  rw [if_neg (by decide), if_neg (by
    rintro ⟨_, full⟩
    change 0 = 2 at full
    cases full)] at result
  refine ⟨_, ⟨sampleSchema, sampleLayout, memory⟩, ⟨congrArg Prod.fst ready, held, _, result⟩, rfl, rfl,
    ?_⟩
  have empty := @entityMap_eq_lastRow sampleExternals.hashId ⟨sampleSchema, sampleLayout, memory⟩ [] 0
    sampleLayout_sound refined
  rw [empty]
  rfl

end Sample

/-- A sample write at the start of the epoch is applied as a whole. -/
theorem allOrNothing_iff_sample : AllOrNothing sampleExternals
    (freshConsumer sampleDeployment sampleWorld.current) sampleWorld.shared sampleFirst.id
    sampleFirst.fields := by
  refine (allOrNothing_iff (OfflineStore.empty_sound _ _) sampleShared_wellFormed).mpr ?_
  intro prepared segmentName segment target
  obtain ⟨other, _, expected, schema, items, _⟩ := sample_insertTarget 0
  obtain rfl : prepared = other :=
    Option.some.inj (Except.ok.inj (target.ready.symm.trans expected.ready))
  refine Or.inl ⟨⟨[.leaf .float32]⟩, 0, [.float 0x3ff0000000000000], ?_, ?_, ?_, items, rfl, ?_⟩
  · rw [schema]
    exact sample_arrowPlan
  · exact parseInt_strInt (show strInt 0 = some [48] by decide)
  · exact getDateStr_some (by decide)
  · exact ⟨_, sample_parsed _ (by decide)⟩

/-- A write far beyond the calendar changes the segment and is refused by the offline writer. -/
theorem applied_in_half : ¬ AllOrNothing sampleExternals
    (freshConsumer sampleDeployment sampleWorld.current) sampleWorld.shared (MsgId.of 1 0)
    (sampleEntry 1 0x3ff0000000000000 (10 ^ 30)).fields := by
  intro whole
  obtain ⟨prepared, segment, target, schema, items, missing⟩ := sample_insertTarget (10 ^ 30)
  have stored := whole.stored (OfflineStore.empty_sound _ _) sampleShared_wellFormed target ?_
  · rw [missing] at stored
    cases stored
  · rintro ⟨plan, eventTimeNs, values, _, parsed, dated, _⟩
    obtain ⟨text, printed⟩ :=
      Option.isSome_iff_exists.mp (show (strInt (10 ^ 30)).isSome = true by decide)
    have time : (sampleEntry 1 0x3ff0000000000000 (10 ^ 30)).fields.eventTime.bind parseInt =
        some (10 ^ 30) := by
      change (strInt (10 ^ 30)).bind parseInt = _
      rw [printed, Option.bind_some, parseInt_strInt printed]
    rw [time] at parsed
    obtain rfl := Option.some.inj parsed
    exact absurd dated (by decide)

end Quorin
