import Quorin.Proof.Consumer.Applicable
import Quorin.Proof.Offline.LatestFeatures
import Quorin.Proof.Offline.PartitionPruning
import Quorin.Proof.Upgrade.HydratedSegment
import Mathlib.Data.List.MinMax

namespace Quorin

open ByteMemory FaultyCalls

/-- A stored row as a row of the dataset. -/
def StoredRow.feature (row : StoredRow) : FeatureRow (List WireValue) where
  entityId := row.entityId
  eventTimeNs := row.eventTimeNs
  msgIdMs := (row.msgId.getD (0, 0)).1
  msgIdSeq := (row.msgId.getD (0, 0)).2
  values := row.values

/-- The files of one class with the values of their partition column. -/
def datasetFiles (schema : FeatureSchema) (files : List SealedFile) :
    List (PartitionFile (List WireValue)) :=
  (files.filter fun file => file.key.1 = schema).map fun file =>
    ⟨file.key.2, file.bucket.rows.map StoredRow.feature⟩

/-- The columns of a read that the bulk insert uses. -/
def latestTable (externals : Externals) (schema : FeatureSchema)
    (latest : List (FeatureRow (List WireValue))) : ArrowTable where
  length := latest.length
  columns := (schema.fields.map fun field => (field.name,
      .values field.shape.length field.dtype
        (latest.map fun row => cellElements externals schema row.values field))) ++
    [("entity_id", .texts (StringArray.ofList (latest.map FeatureRow.entityId)))]

/-- The answer of `latest_features` on sealed files, absent when it raises. -/
def readLatest (externals : Externals) (order : List String → List String) (schema : FeatureSchema)
    (files : List SealedFile) (snapshotNs lookbackDays : Int) : Option ArrowTable :=
  (latestFeatures externals.dateString order true (datasetFiles schema files) snapshotNs
    lookbackDays).toOption.map (latestTable externals schema)

/-- Every int64 time has a date text, and a later time has no smaller one. -/
def Externals.OrdersDates (externals : Externals) : Prop :=
  ∀ first second : Int, -2 ^ 63 ≤ first → first ≤ second → second < 2 ^ 63 →
    ∃ firstText secondText, externals.dateString first = some firstText ∧
      externals.dateString second = some secondText ∧ firstText ≤ secondText

/-- The event time and the message id of a write, as the dataset sorts them. -/
def FeatureWrite.recency (write : FeatureWrite) : Int ×ₗ Int ×ₗ Int := write.row.feature.recency

/-- A write is the greatest of its entity by event time and message id. -/
def IsNewest (writes : List FeatureWrite) (write : FeatureWrite) : Prop :=
  write ∈ writes ∧ ∀ other ∈ writes, other.entityId = write.entityId → other.recency ≤ write.recency

/-- A write is known by its event time and its message id when no two messages share an id. -/
theorem recency_write {writes : List FeatureWrite}
    (messages : ∀ first ∈ writes, ∀ second ∈ writes, first.msgId = second.msgId → first = second)
    {first second : FeatureWrite} (firstIn : first ∈ writes) (secondIn : second ∈ writes)
    (equal : first.recency = second.recency) : first = second := by
  simp only [FeatureWrite.recency, FeatureWrite.row, StoredRow.feature, FeatureRow.recency,
    Option.getD_some, EmbeddingLike.apply_eq_iff_eq, Prod.mk.injEq, Nat.cast_inj] at equal
  exact messages first firstIn second secondIn
    (ofLex_inj.mp (Prod.ext equal.2.1 equal.2.2))

theorem exists_newest {writes : List FeatureWrite} {write : FeatureWrite} (member : write ∈ writes) :
    ∃ newest, IsNewest writes newest ∧ newest.entityId = write.entityId := by
  have listed : write ∈ writes.filter fun other => other.entityId = write.entityId :=
    List.mem_filter.mpr ⟨member, decide_eq_true rfl⟩
  cases found : (writes.filter fun other => other.entityId = write.entityId).argmax
      FeatureWrite.recency with
  | none =>
      rw [List.argmax_eq_none.mp found] at listed
      cases listed
  | some newest =>
      obtain ⟨inside, same⟩ := List.mem_filter.mp (List.argmax_mem found)
      have named : newest.entityId = write.entityId := of_decide_eq_true same
      refine ⟨newest, ⟨inside, ?_⟩, named⟩
      intro other there equal
      exact List.le_of_mem_argmax
        (List.mem_filter.mpr ⟨there, decide_eq_true (equal.trans named)⟩) found

theorem lastWrite_some {writes : List FeatureWrite} {entityId : String} {write : FeatureWrite}
    (last : lastWrite writes entityId = some write) : write ∈ writes ∧ write.entityId = entityId := by
  unfold lastWrite at last
  have named := List.find?_some last
  exact ⟨List.mem_reverse.mp (List.mem_of_find?_eq_some last), of_decide_eq_true named⟩

theorem lastWrite_none {writes : List FeatureWrite} {entityId : String} :
    lastWrite writes entityId = none ↔ ∀ write ∈ writes, write.entityId ≠ entityId := by
  unfold lastWrite
  rw [List.find?_eq_none]
  simp

section Dataset

variable {externals : Externals} {name : List UInt8} {schema : FeatureSchema} {segmentName : String}
  {state : AppliedStream} {writes : List FeatureWrite}

/-- The window of a flushed stream holds exactly its writes. -/
theorem StreamHolds.windowRows (holds : StreamHolds externals name schema segmentName state writes)
    (flushed : state.consumer.offline.rows = []) (dates : externals.OrdersDates)
    {start stop : Int} (startFits : -2 ^ 63 ≤ start) (stopFits : stop < 2 ^ 63) (before : start ≤ stop)
    (inside : ∀ write ∈ writes, start ≤ write.eventTimeNs ∧ write.eventTimeNs ≤ stop) :
    ∃ features, Quorin.windowRows externals.dateString (datasetFiles schema state.files) start stop =
        .ok features ∧
      ∀ row, row ∈ features ↔ ∃ write ∈ writes, row = write.row.feature := by
  obtain ⟨startDate, stopDate, startDated, stopDated, _⟩ := dates start stop startFits before stopFits
  obtain ⟨features, loaded, window⟩ := windowRows_dated (datasetFiles schema state.files) startDated
    stopDated ⟨startFits, before.trans_lt stopFits⟩ ⟨startFits.trans before, stopFits⟩
  have rows : state.rows = sealedFileRows state.files := by
    rw [AppliedStream.rows, flushed, List.nil_append]
  refine ⟨features, loaded, ?_⟩
  intro row
  rw [window]
  constructor
  · rintro ⟨kept, _⟩
    obtain ⟨fileRows, listed, member⟩ := List.mem_flatten.mp kept
    obtain ⟨partition, filed, rfl⟩ := List.mem_map.mp listed
    obtain ⟨file, there, rfl⟩ := List.mem_map.mp (List.mem_of_mem_filter filed)
    obtain ⟨stored, held, rfl⟩ := List.mem_map.mp member
    have known : (file.key, stored) ∈ state.rows := by
      rw [rows]
      exact List.mem_flatMap.mpr ⟨file, List.mem_of_mem_filter there, List.mem_map_of_mem held⟩
    obtain ⟨write, written, _, same, _⟩ := holds.origin _ known
    exact ⟨write, written, congrArg StoredRow.feature same⟩
  · rintro ⟨write, written, rfl⟩
    obtain ⟨low, high⟩ := inside write written
    refine ⟨?_, low, high⟩
    obtain ⟨date, stored⟩ := holds.kept write written
    obtain ⟨_, _, _, _, first, firstWritten, _, text⟩ := holds.origin _ stored
    obtain ⟨firstLow, firstHigh⟩ := inside first firstWritten
    obtain ⟨_, _, lowText, ownLow, lower⟩ := dates start first.eventTimeNs startFits firstLow
      (firstHigh.trans_lt stopFits)
    obtain ⟨_, _, ownHigh, highText, upper⟩ := dates first.eventTimeNs stop (startFits.trans firstLow)
      firstHigh stopFits
    obtain rfl := Option.some.inj (startDated.symm.trans lowText)
    obtain rfl := Option.some.inj (stopDated.symm.trans highText)
    obtain rfl := Option.some.inj (text.symm.trans ownLow)
    obtain rfl := Option.some.inj (text.symm.trans ownHigh)
    rw [rows] at stored
    obtain ⟨file, filed, listed⟩ := List.mem_flatMap.mp stored
    obtain ⟨_, held, same⟩ := List.mem_map.mp listed
    obtain ⟨key, rfl⟩ := Prod.mk.inj same
    refine List.mem_flatten.mpr ⟨file.bucket.rows.map StoredRow.feature, List.mem_map.mpr
      ⟨⟨date, file.bucket.rows.map StoredRow.feature⟩, List.mem_filter.mpr ⟨List.mem_map.mpr
        ⟨file, List.mem_filter.mpr ⟨filed, ?_⟩, ?_⟩, ?_⟩, rfl⟩, List.mem_map_of_mem held⟩
    · rw [key]
      exact decide_eq_true rfl
    · rw [key]
    · exact decide_eq_true ⟨lower, upper⟩

/-- The table of a read has the declared columns. -/
theorem latestTable_declared {latest : List (FeatureRow (List WireValue))}
    (flat : ∀ field ∈ schema.fields, field.shape.length ≤ 2)
    (noIdField : ∀ field ∈ schema.fields, field.name ≠ "entity_id")
    (origin : ∀ row ∈ latest, ∃ write : FeatureWrite, write.Typed externals schema ∧
      row = write.row.feature) :
    DeclaredTable schema (latestTable externals schema latest) (latest.map FeatureRow.entityId)
      fun field row => (latest[row]?).elim [] fun found =>
        cellElements externals schema found.values field := by
  have sized : ∀ field ∈ schema.fields, ∀ row, row < (latest.map FeatureRow.entityId).length →
      ((latest[row]?).elim [] fun found =>
        cellElements externals schema found.values field).length = field.elementCount ∧
      ∀ element ∈ (latest[row]?).elim [] fun found =>
        cellElements externals schema found.values field, element.length = field.dtype.byteSize := by
    intro field member row inside
    rw [List.length_map] at inside
    obtain ⟨write, typed, same⟩ := origin _ (List.getElem_mem inside)
    rw [List.getElem?_eq_getElem inside, same]
    exact typed.elements member
  refine ⟨⟨fun field member row inside => (sized field member row inside).1,
    fun field member row inside => (sized field member row inside).2⟩, ?_, flat,
    ⟨_, lookup_behind _ _ noIdField, StringArray.ofList_holds _⟩, ?_⟩
  · exact (List.length_map _).symm
  · intro field member
    refine (lookup_columns _ _ schema.namesDistinct member).trans ?_
    refine congrArg (fun rows => some (ArrowColumn.values field.shape.length field.dtype rows)) ?_
    apply List.ext_getElem
    · simp
    · intro row inside _
      have bound : row < latest.length := by simpa using inside
      simp [List.getElem?_eq_getElem bound]

end Dataset

/-- A stream that a consumer of one class applied to an empty segment and flushed, with event times
in a window. -/
structure SealedStream (externals : Externals) (name : List UInt8) (schema : FeatureSchema)
    (segmentName : String) (start stop : Int) (before after : AppliedStream)
    (steps : List StreamStep) : Prop where
  known : before.consumer.schemas.lookup name = some schema
  served : ∃ segment, before.consumer.held before.shared name = some (segmentName, segment) ∧
    segment.WellFormed externals.hashId ∧ ∀ entityId, segment.entityMap externals.hashId entityId = none
  offline : before.consumer.offline = .empty true
  files : before.files = []
  suits : ∀ step ∈ steps, step.Suits externals name schema
  reached : before.run externals steps = some after
  flushed : after.consumer.offline.rows = []
  written : streamWrites externals steps ≠ []
  /-- The stream gives an id to one message only. -/
  messages : ∀ first ∈ streamWrites externals steps, ∀ second ∈ streamWrites externals steps,
    first.msgId = second.msgId → first = second
  inside : ∀ write ∈ streamWrites externals steps,
    start ≤ write.eventTimeNs ∧ write.eventTimeNs ≤ stop
  short : ∀ write ∈ streamWrites externals steps,
    (encodeUtf8 write.entityId).length ≤ defaultMaxIdBytes

/-- No current segment, no live consumer and no error are in the way of a `hydrate`. -/
structure QuietHydrate (externals : Externals) (call : HydrateCall) (host : Host) : Prop where
  factor : call.factorValid = true
  vacant : host.keys.current call.schema.safeName = none
  alone : host.liveness = false
  space : call.space = true
  unlinked : call.name ∉ host.linked
  grows : ∀ rows : Nat, (rows : Int) ≤ call.scaled rows
  creates : ∀ table, call.latest = some table → ∃ layout,
    computeLayout externals.hashName call.schema (hydrateCreate call table).capacity
      (hydrateCreate call table).maxIdBytes = .ok layout ∧
    packHeader externals call.schema layout.capacity ≠ none

section Streams

variable {externals : Externals} {name : List UInt8} {schema : FeatureSchema} {segmentName : String}
  {start stop : Int} {before after : AppliedStream} {steps : List StreamStep}
  (stream : SealedStream externals name schema segmentName start stop before after steps)

include stream in
theorem SealedStream.holds (converts : externals.ConvertsLists) :
    StreamHolds externals name schema segmentName after (streamWrites externals steps) := by
  obtain ⟨segment, held, wellFormed, empty⟩ := stream.served
  have initial : StreamHolds externals name schema segmentName before [] := by
    have none : before.rows = [] := by
      rw [AppliedStream.rows, stream.offline, stream.files]
      rfl
    constructor
    · exact stream.known
    · refine ⟨segment, held, wellFormed, ?_⟩
      intro entityId
      rw [Segment.fieldMap, empty]
      rfl
    · rw [stream.offline]
      exact OfflineStore.empty_sound _ _
    · exact fun written => absurd rfl written
    · rw [stream.offline]
      rfl
    · rw [stream.offline]
      exact fun entry member => absurd member List.not_mem_nil
    · rw [none]
      exact fun entry member => absurd member List.not_mem_nil
    · exact fun write member => absurd member List.not_mem_nil
  exact initial.run converts stream.suits stream.reached

include stream in
theorem SealedStream.typed : ∀ write ∈ streamWrites externals steps, write.Typed externals schema := by
  intro write member
  obtain ⟨step, listed, own⟩ := List.mem_filterMap.mp member
  have suits := stream.suits step listed
  cases step with
  | message entry => exact suits.2 write own
  | flush outcome => cases own

/-- The segment of the consumer maps every id to its last write. -/
theorem StreamHolds.consumed {state : AppliedStream} {writes : List FeatureWrite}
    (holds : StreamHolds externals name schema segmentName state writes) :
    ∃ segment, state.shared segmentName = some segment ∧
      (∀ entityId, segment.fieldMap externals.hashId schema entityId =
        (lastWrite writes entityId).map (FeatureWrite.fieldBytes externals schema)) ∧
      ∀ write ∈ writes, write.entityId ≠ "" := by
  obtain ⟨segment, held, _, fieldMap⟩ := holds.served
  refine ⟨segment, (held_iff.mp held).2, fieldMap, ?_⟩
  intro write member empty
  have nothing : segment.fieldMap externals.hashId schema "" = none := rfl
  rw [fieldMap, Option.map_eq_none_iff, lastWrite_none] at nothing
  exact nothing write member empty

include stream in
/-- A read of a sealed stream returns the newest write of every entity. -/
theorem SealedStream.reads (converts : externals.ConvertsLists)
    (dates : externals.OrdersDates) {lookbackDays : Int}
    (window : start = stop - lookbackDays * dayNs) (positive : 0 < lookbackDays)
    (startFits : -2 ^ 63 ≤ start) (stopFits : stop < 2 ^ 63) {order : List String → List String}
    (reorders : ∀ ids, (order ids).Perm ids) :
    ∃ latest, readLatest externals order schema after.files stop lookbackDays =
        some (latestTable externals schema latest) ∧
      (latest.map FeatureRow.entityId).Nodup ∧
      (∀ row ∈ latest, ∃ write, IsNewest (streamWrites externals steps) write ∧
        row = write.row.feature) ∧
      ∀ write ∈ streamWrites externals steps, ∃ row ∈ latest, row.entityId = write.entityId := by
  have forward : 0 < lookbackDays * dayNs := Int.mul_pos positive (by decide)
  obtain ⟨features, loaded, known⟩ := (stream.holds converts).windowRows stream.flushed dates
    startFits stopFits (by omega) stream.inside
  refine ⟨latestRows order features, ?_, latestRows_distinct reorders features, ?_, ?_⟩
  · rw [window] at loaded
    rw [readLatest, latestFeatures_rows order positive loaded]
    rfl
  · intro row member
    obtain ⟨inside, recent⟩ := latestRows_latest reorders member
    obtain ⟨write, written, rfl⟩ := (known row).mp inside
    refine ⟨write, ⟨written, ?_⟩, rfl⟩
    intro other there same
    exact recent other.row.feature ((known _).mpr ⟨other, there, rfl⟩) same
  · intro write member
    exact List.mem_map.mp ((mem_latestRows_ids reorders).mpr
      ⟨write.row.feature, (known _).mpr ⟨write, member, rfl⟩, rfl⟩)

end Streams

section Hydrates

variable {externals : Externals} {name : List UInt8} {segmentName : String}
  {before after : AppliedStream} {steps : List StreamStep} {call : HydrateCall} {host : Host}
  {snapshotNs lookbackDays : Int}

/-- A quiet `hydrate` of a sealed stream maps every id to its newest write. -/
theorem hydrate_newest (converts : externals.ConvertsLists) (dates : externals.OrdersDates)
    (stream : SealedStream externals name call.schema segmentName
      (snapshotNs - lookbackDays * dayNs) snapshotNs before after steps)
    (positive : 0 < lookbackDays) (startFits : -2 ^ 63 ≤ snapshotNs - lookbackDays * dayNs)
    (stopFits : snapshotNs < 2 ^ 63) {order : List String → List String}
    (reorders : ∀ ids, (order ids).Perm ids) (quiet : QuietHydrate externals call host)
    (reads : call.latest =
      readLatest externals order call.schema after.files snapshotNs lookbackDays) :
    ∃ finished rows segment, (∀ count, finished ≤ count →
        let final := (Hydration.initial externals host []).performAll externals call (quietSteps count)
        final.phase = .finished rows ∧ final.host.objects call.name = some segment) ∧
      (∀ write, IsNewest (streamWrites externals steps) write →
        segment.fieldMap externals.hashId call.schema write.entityId =
          some (write.fieldBytes externals call.schema)) ∧
      ∀ entityId, (∀ write ∈ streamWrites externals steps, write.entityId ≠ entityId) →
        segment.fieldMap externals.hashId call.schema entityId = none := by
  have holds := stream.holds converts
  obtain ⟨latest, returned, distinct, origin, occurs⟩ :=
    stream.reads converts dates rfl positive startFits stopFits reorders
  obtain ⟨plan, planned⟩ := holds.planned stream.written
  have flat := arrowPlanFor_rank planned
  have unreserved := ((@arrowPlanFor_flat externals.hashName call.schema flat).1).mp ⟨plan, planned⟩
  have noIdField : ∀ field ∈ call.schema.fields, field.name ≠ "entity_id" := by
    intro field member same
    exact unreserved field member (by rw [same]; decide)
  have declared := @latestTable_declared externals call.schema latest flat noIdField
    (fun row member => by
      obtain ⟨write, newest, same⟩ := origin row member
      exact ⟨write, stream.typed write newest.1, same⟩)
  have known : ∀ entityId ∈ latest.map FeatureRow.entityId,
      ∃ write ∈ streamWrites externals steps, write.entityId = entityId := by
    intro entityId member
    obtain ⟨row, inside, rfl⟩ := List.mem_map.mp member
    obtain ⟨write, newest, same⟩ := origin row inside
    exact ⟨write, newest.1, congrArg FeatureRow.entityId same.symm⟩
  have some : latest.length ≠ 0 := by
    obtain ⟨write, member⟩ := List.exists_mem_of_ne_nil _ stream.written
    obtain ⟨row, inside, _⟩ := occurs write member
    exact Nat.ne_of_gt (List.length_pos_of_mem inside)
  have listed := reads.trans returned
  obtain ⟨layout, computed, header⟩ := quiet.creates _ listed
  have ready : HydrateReady externals call host (latestTable externals call.schema latest) layout :=
    ⟨quiet.factor, quiet.vacant, quiet.alone, listed, some, computed, quiet.space, quiet.unlinked,
      header⟩
  obtain ⟨_, _, _, named⟩ := holds.consumed
  obtain ⟨finished, segment, runs, rows, others⟩ := ready.finishes declared distinct
    (fun entityId member => by
      obtain ⟨write, written, rfl⟩ := known entityId member
      exact named write written)
    (fun entityId member => by
      obtain ⟨write, written, rfl⟩ := known entityId member
      exact stream.short write written)
    (quiet.grows _)
  refine ⟨finished, _, segment, runs, ?_, ?_⟩
  · rintro write ⟨member, greatest⟩
    obtain ⟨row, inside, same⟩ := occurs write member
    obtain ⟨other, ⟨written, above⟩, rfl⟩ := origin row inside
    have equal := recency_write stream.messages written member
      (le_antisymm (greatest other written same) (above write member same.symm))
    subst equal
    obtain ⟨index, bound, found⟩ := List.mem_iff_getElem.mp inside
    have cells := rows index (by rw [List.length_map]; exact bound)
    rw [List.getElem_map, found, List.getElem?_eq_getElem bound, found] at cells
    exact cells
  · intro entityId absent
    refine others entityId fun member => ?_
    obtain ⟨write, written, same⟩ := known entityId member
    exact absent write written same

/-- A quiet `hydrate` restores the newest write of every entity, the consumer serves the last one. -/
theorem hydrate_reproduces_iff (converts : externals.ConvertsLists) (dates : externals.OrdersDates)
    (stream : SealedStream externals name call.schema segmentName
      (snapshotNs - lookbackDays * dayNs) snapshotNs before after steps)
    (positive : 0 < lookbackDays) (startFits : -2 ^ 63 ≤ snapshotNs - lookbackDays * dayNs)
    (stopFits : snapshotNs < 2 ^ 63) {order : List String → List String}
    (reorders : ∀ ids, (order ids).Perm ids) (quiet : QuietHydrate externals call host)
    (reads : call.latest =
      readLatest externals order call.schema after.files snapshotNs lookbackDays) :
    ∃ finished rows hydrated consumed, (∀ count, finished ≤ count →
        let final := (Hydration.initial externals host []).performAll externals call (quietSteps count)
        final.phase = .finished rows ∧ final.host.objects call.name = some hydrated) ∧
      after.shared segmentName = some consumed ∧
      (∀ write, IsNewest (streamWrites externals steps) write →
        hydrated.fieldMap externals.hashId call.schema write.entityId =
          some (write.fieldBytes externals call.schema)) ∧
      (hydrated.fieldMap externals.hashId call.schema =
          consumed.fieldMap externals.hashId call.schema ↔
        ∀ newest last, IsNewest (streamWrites externals steps) newest →
          lastWrite (streamWrites externals steps) newest.entityId = some last →
          newest.fieldBytes externals call.schema = last.fieldBytes externals call.schema) := by
  obtain ⟨finished, rows, hydrated, runs, newestMap, others⟩ := hydrate_newest converts dates stream
    positive startFits stopFits reorders quiet reads
  obtain ⟨consumed, shared, lastMap, _⟩ := (stream.holds converts).consumed
  refine ⟨finished, rows, hydrated, consumed, runs, shared, newestMap, ?_⟩
  constructor
  · intro same newest last greatest applied
    have maps := congrFun same newest.entityId
    rw [newestMap newest greatest, lastMap, applied] at maps
    exact Option.some.inj maps
  · intro agree
    funext entityId
    rw [lastMap]
    cases applied : lastWrite (streamWrites externals steps) entityId with
    | none => exact others entityId (lastWrite_none.mp applied)
    | some last =>
        obtain ⟨member, rfl⟩ := lastWrite_some applied
        obtain ⟨newest, greatest, named⟩ := exists_newest member
        rw [← named] at applied ⊢
        rw [newestMap newest greatest, agree newest last greatest applied]
        rfl

end Hydrates

section Producer

variable {Object : Type} {externals : Externals} {pydantic : Pydantic Object} {schema : FeatureSchema}
  {entityId : String} {values : List (String × Object)} {eventTimeNs : Int} {fields : MessageFields}
  {items : List WireValue}
  (message : WrittenMessage externals pydantic schema entityId values eventTimeNs fields items)

include message in
/-- A message of the producer writes its own values. -/
theorem WrittenMessage.write (lossless : externals.RoundTrips) (msgId : MsgId) :
    StreamEntry.write externals ⟨msgId, fields⟩ = some ⟨entityId, eventTimeNs, msgId, items⟩ := by
  unfold StreamEntry.write
  dsimp only
  rw [message.keyed, message.parsedTime, message.carried lossless, Option.bind_some,
    decodeUtf8_encodeUtf8]
  rfl

include message in
/-- A message of the producer has values of the types of their fields. -/
theorem WrittenMessage.suits (lossless : externals.RoundTrips) (msgId : MsgId) :
    StreamStep.Suits externals (encodeUtf8 schema.className) schema (.message ⟨msgId, fields⟩) := by
  refine ⟨message.named, ?_⟩
  intro write own
  rw [message.write lossless] at own
  obtain rfl := Option.some.inj own
  refine message.validated.imp ?_
  rintro field value ⟨object, _, valid⟩
  exact validateField_matches valid

end Producer

/-- A score of one with a later event time, then a score of zero with an earlier one. -/
def sampleSteps : List StreamStep :=
  [.message (sampleEntry 1 0x3ff0000000000000 1), .message (sampleEntry 2 0 0),
    .flush fun _ => .renamed]

/-- The exact dates of int64 times are ordered. -/
theorem sampleDated_ordersDates : sampleDated.OrdersDates := by
  intro first second low forward high
  obtain ⟨firstText, firstDate⟩ := nsToDateStr_int64 low (forward.trans_lt high)
  obtain ⟨secondText, secondDate⟩ := nsToDateStr_int64 (low.trans forward) high
  exact ⟨firstText, secondText, firstDate, secondDate, nsToDateStr_le firstDate secondDate forward⟩

/-- The sample consumer with an empty segment and no files. -/
def sampleStream : AppliedStream :=
  ⟨freshConsumer sampleDeployment sampleWorld.current, sampleDefaultShared, []⟩

/-- The sample consumer behind its stream. -/
def sampleApplied : AppliedStream := (sampleStream.run sampleDated sampleSteps).getD sampleStream

theorem sampleApplied_reached : sampleStream.run sampleDated sampleSteps = some sampleApplied := by
  have applied : (sampleStream.run sampleDated sampleSteps).isSome = true := by decide +kernel
  unfold sampleApplied
  cases reached : sampleStream.run sampleDated sampleSteps with
  | none =>
      rw [reached] at applied
      cases applied
  | some after => rfl

theorem sampleSteps_writes : streamWrites sampleDated sampleSteps =
    [⟨"a", 1, MsgId.of 1 0, [.float 0x3ff0000000000000]⟩, ⟨"a", 0, MsgId.of 2 0, [.float 0]⟩] := by
  rfl

theorem sampleStream_sealed : SealedStream sampleDated (encodeUtf8 "Sample") sampleSchema "segment"
    (1 - 1 * dayNs) 1 sampleStream sampleApplied sampleSteps := by
  constructor
  · decide
  · refine ⟨sampleDefaultSegment, rfl, sampleDefault_serves.written, ?_⟩
    intro entityId
    have sound := computeLayout_sound computeLayout_sampleDefault
    exact congrFun (@entityMap_eq_lastRow sampleDated.hashId sampleDefaultSegment [] 0 sound
      (SegmentHistory.Refined.fresh _ sound rfl)) entityId
  · rfl
  · rfl
  · intro step member
    simp only [sampleSteps, List.mem_cons, List.not_mem_nil, or_false] at member
    rcases member with rfl | rfl | rfl
    · obtain ⟨items, message⟩ := doWrite_message
        (sample_doWrite 1 0x3ff0000000000000 (show strInt 1 = some [49] by decide))
      exact message.suits sampleExternals_roundTrips _
    · obtain ⟨items, message⟩ := doWrite_message
        (sample_doWrite 2 0 (show strInt 0 = some [48] by decide))
      exact message.suits sampleExternals_roundTrips _
    · trivial
  · exact sampleApplied_reached
  · have rows : ((sampleStream.run sampleDated sampleSteps).map fun after =>
        after.consumer.offline.rows.length) = some 0 := by
      decide +kernel
    rw [sampleApplied_reached, Option.map_some, Option.some.injEq] at rows
    exact List.length_eq_zero_iff.mp rows
  · rw [sampleSteps_writes]
    exact List.cons_ne_nil _ _
  · rw [sampleSteps_writes]
    intro first firstIn second secondIn same
    simp only [List.mem_cons, List.not_mem_nil, or_false] at firstIn secondIn
    rcases firstIn with rfl | rfl <;> rcases secondIn with rfl | rfl
    · rfl
    · exact absurd same (by decide)
    · exact absurd same (by decide)
    · rfl
  · rw [sampleSteps_writes]
    intro write member
    simp only [List.mem_cons, List.not_mem_nil, or_false] at member
    rcases member with rfl | rfl <;> decide
  · rw [sampleSteps_writes]
    intro write member
    simp only [List.mem_cons, List.not_mem_nil, or_false] at member
    rcases member with rfl | rfl <;> decide

/-- A hydration of the sample class from the files of its stream. -/
def sampleStreamCall : HydrateCall :=
  { sampleHydrateCall with
    latest := readLatest sampleDated id sampleSchema sampleApplied.files 1 1 }

theorem sampleStreamCall_quiet : QuietHydrate sampleDated sampleStreamCall sampleVacantHost := by
  constructor
  · rfl
  · rfl
  · rfl
  · rfl
  · decide
  · intro rows
    change (rows : Int) ≤ 4 * rows
    omega
  · intro table listed
    obtain ⟨layout, capacity, computed⟩ := sampleHydrate_layout
    obtain ⟨rows, _⟩ := computeLayout_parts computed
    obtain ⟨header, packed⟩ := @packHeader_exists sampleDated sampleSchema layout rows
      (by decide) (by rw [capacity]; decide)
    obtain ⟨latest, returned, distinct, origin, _⟩ := sampleStream_sealed.reads sampleArrays_converts
      sampleDated_ordersDates rfl (by decide) (by decide) (by decide) (fun _ => List.Perm.refl _)
    obtain rfl := Option.some.inj (listed.symm.trans returned)
    have same : ∀ row ∈ latest, row.entityId = "a" := by
      intro row member
      obtain ⟨write, ⟨written, _⟩, rfl⟩ := origin row member
      rw [sampleSteps_writes] at written
      simp only [List.mem_cons, List.not_mem_nil, or_false] at written
      rcases written with rfl | rfl <;> rfl
    have one : latest.length ≤ 1 := by
      rw [List.map_congr_left same, List.map_const', List.nodup_replicate] at distinct
      exact distinct
    have capacity : (hydrateCreate sampleStreamCall (latestTable sampleDated sampleSchema
        latest)).capacity = 16 := by
      change max (4 * (latest.length : Int)) 16 = 16
      omega
    refine ⟨layout, ?_, ?_⟩
    · rw [show sampleStreamCall.schema = sampleSchema from rfl, capacity]
      exact computed
    · exact Option.ne_none_iff_exists'.mpr ⟨header, packed⟩

theorem hydrate_reproduces_iff_sample :
    ∃ finished rows hydrated consumed, (∀ count, finished ≤ count →
        let final := (Hydration.initial sampleDated sampleVacantHost []).performAll sampleDated
          sampleStreamCall (quietSteps count)
        final.phase = .finished rows ∧ final.host.objects "hydrated" = some hydrated) ∧
      sampleApplied.shared "segment" = some consumed ∧
      (∀ write, IsNewest (streamWrites sampleDated sampleSteps) write →
        hydrated.fieldMap sampleDated.hashId sampleSchema write.entityId =
          some (write.fieldBytes sampleDated sampleSchema)) ∧
      (hydrated.fieldMap sampleDated.hashId sampleSchema =
          consumed.fieldMap sampleDated.hashId sampleSchema ↔
        ∀ newest last, IsNewest (streamWrites sampleDated sampleSteps) newest →
          lastWrite (streamWrites sampleDated sampleSteps) newest.entityId = some last →
          newest.fieldBytes sampleDated sampleSchema = last.fieldBytes sampleDated sampleSchema) :=
  @hydrate_reproduces_iff sampleDated (encodeUtf8 "Sample") "segment" sampleStream sampleApplied
    sampleSteps sampleStreamCall sampleVacantHost 1 1 sampleArrays_converts sampleDated_ordersDates
    sampleStream_sealed (by decide) (by decide) (by decide) id (fun _ => List.Perm.refl _) sampleStreamCall_quiet rfl

/-- The score of the later event time is hydrated, while the consumer serves the one applied last. -/
theorem hydrate_differs :
    SealedStream sampleDated (encodeUtf8 "Sample") sampleSchema "segment" (1 - 1 * dayNs) 1 sampleStream
        sampleApplied sampleSteps ∧
      QuietHydrate sampleDated sampleStreamCall sampleVacantHost ∧
      ∃ finished rows hydrated consumed, (∀ count, finished ≤ count →
          let final := (Hydration.initial sampleDated sampleVacantHost []).performAll sampleDated
            sampleStreamCall (quietSteps count)
          final.phase = .finished rows ∧ final.host.objects "hydrated" = some hydrated) ∧
        sampleApplied.shared "segment" = some consumed ∧
        hydrated.fieldMap sampleDated.hashId sampleSchema ≠
          consumed.fieldMap sampleDated.hashId sampleSchema := by
  refine ⟨sampleStream_sealed, sampleStreamCall_quiet, ?_⟩
  obtain ⟨finished, rows, hydrated, runs, newestMap, _⟩ := @hydrate_newest sampleDated
    (encodeUtf8 "Sample") "segment" sampleStream sampleApplied sampleSteps sampleStreamCall
    sampleVacantHost 1 1 sampleArrays_converts sampleDated_ordersDates sampleStream_sealed (by decide)
    (by decide) (by decide) id (fun _ => List.Perm.refl _) sampleStreamCall_quiet rfl
  obtain ⟨consumed, shared, lastMap, _⟩ :=
    (sampleStream_sealed.holds sampleArrays_converts).consumed
  refine ⟨finished, rows, hydrated, consumed, runs, shared, ?_⟩
  intro same
  have newest : IsNewest (streamWrites sampleDated sampleSteps)
      ⟨"a", 1, MsgId.of 1 0, [.float 0x3ff0000000000000]⟩ := by
    rw [sampleSteps_writes]
    refine ⟨List.mem_cons_self, ?_⟩
    intro other member _
    simp only [List.mem_cons, List.not_mem_nil, or_false] at member
    rcases member with rfl | rfl <;> decide
  have maps := (newestMap _ newest).symm.trans ((congrFun same "a").trans (lastMap "a"))
  rw [sampleSteps_writes] at maps
  exact absurd maps (by decide +kernel)

end Quorin
