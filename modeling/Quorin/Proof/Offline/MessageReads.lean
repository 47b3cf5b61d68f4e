import Quorin.Proof.Consumer.TracedRows
import Quorin.Proof.Upgrade.StreamHydration

namespace Quorin

/-- The write of a produced message of a class. -/
def MessageWrite (deployment : Deployment) (produced : List StreamEntry) (schema : FeatureSchema)
    (write : FeatureWrite) : Prop :=
  ∃ entry ∈ produced,
    (∃ name, entry.fields.schema = some name ∧ deployment.schemas.lookup name = some schema) ∧
      entry.write deployment.externals = some write

/-- The event times of the messages that carry one. -/
def producedTimes (produced : List StreamEntry) : List Int :=
  produced.filterMap fun entry => entry.fields.eventTime.bind parseInt

/-- No two times of one day lie on both sides of the last half microsecond of the day. -/
def DaysAgree (times : List Int) : Prop :=
  ∀ first ∈ times, ∀ second ∈ times, first / dayNs = second / dayNs →
    (LateInDay first ↔ LateInDay second)

/-- The rows of a class in the dataset. -/
def datasetRows (schema : FeatureSchema) (files : List SealedFile) :
    List (FeatureRow (List WireValue)) :=
  (datasetFiles schema files).flatMap PartitionFile.rows

theorem mem_datasetRows {schema : FeatureSchema} {files : List SealedFile}
    {row : FeatureRow (List WireValue)} :
    row ∈ datasetRows schema files ↔
      ∃ date stored, SealedIn files (schema, date) stored ∧ row = stored.feature := by
  constructor
  · intro member
    obtain ⟨partition, listed, inside⟩ := List.mem_flatMap.mp member
    obtain ⟨file, there, rfl⟩ := List.mem_map.mp listed
    obtain ⟨stored, held, rfl⟩ := List.mem_map.mp inside
    obtain ⟨filed, named⟩ := List.mem_filter.mp there
    exact ⟨file.key.2, stored, ⟨file, filed, Prod.ext (of_decide_eq_true named) rfl, held⟩, rfl⟩
  · intro sealedRow
    obtain ⟨date, stored, ⟨file, filed, named, held⟩, rfl⟩ := sealedRow
    refine List.mem_flatMap.mpr ⟨_, List.mem_map.mpr ⟨file, List.mem_filter.mpr ⟨filed, ?_⟩, rfl⟩,
      List.mem_map_of_mem held⟩
    rw [named]
    exact decide_eq_true rfl

section Messages

variable {deployment : Deployment} {produced : List StreamEntry} {schema : FeatureSchema}

/-- A traced row is the row of a message of its class. -/
theorem TracedRow.write (included : deployment.includeMsgId = true) {date : String} {row : StoredRow}
    (traced : TracedRow deployment produced (schema, date) row) :
    ∃ write, MessageWrite deployment produced schema write ∧ row = write.row := by
  obtain ⟨entry, member, rowOf⟩ := traced.message
  refine ⟨⟨row.entityId, row.eventTimeNs, entry.id, row.values⟩, ⟨entry, member, rowOf.schema, ?_⟩, ?_⟩
  · unfold StreamEntry.write
    rw [rowOf.entityId, rowOf.eventTime, rowOf.values]
  · have ids := rowOf.msgId
    rw [included, if_pos rfl] at ids
    rw [FeatureWrite.row, ← ids]

/-- The write of an entry keeps its id and its event time. -/
theorem StreamEntry.write_parts {externals : Externals} {entry : StreamEntry} {write : FeatureWrite}
    (own : entry.write externals = some write) :
    write.msgId = entry.id ∧ entry.fields.entityId.bind decodeUtf8 = some write.entityId ∧
      entry.fields.eventTime.bind parseInt = some write.eventTimeNs ∧
      (entry.fields.blob.bind externals.unpackb).bind WireValue.items = some write.values := by
  unfold StreamEntry.write at own
  split at own
  · rename_i entityId eventTimeNs values name time items
    obtain rfl := Option.some.inj own
    exact ⟨rfl, name, time, items⟩
  · cases own

/-- An id names one message. -/
theorem MessageWrite.unique {world : World} (ordered : StreamOrdered world) {first second : FeatureWrite}
    (firstWrite : MessageWrite deployment world.produced schema first)
    (secondWrite : MessageWrite deployment world.produced schema second)
    (same : first.msgId = second.msgId) : first = second := by
  obtain ⟨one, oneIn, _, oneWrite⟩ := firstWrite
  obtain ⟨other, otherIn, _, otherWrite⟩ := secondWrite
  have ids : one.id = other.id := by
    rw [← (StreamEntry.write_parts oneWrite).1, same, (StreamEntry.write_parts otherWrite).1]
  rw [ordered.unique oneIn otherIn ids] at oneWrite
  exact Option.some.inj (oneWrite.symm.trans otherWrite)

/-- A sealed message has its write among the rows of the dataset. -/
theorem SealedMessage.datasetRow {world : World} (ordered : StreamOrdered world)
    (included : deployment.includeMsgId = true) {write : FeatureWrite}
    (message : MessageWrite deployment world.produced schema write)
    (held : SealedMessage deployment world.produced world.files write.msgId) :
    write.row.feature ∈ datasetRows schema world.files := by
  obtain ⟨entry, member, ⟨name, named, known⟩, own⟩ := message
  obtain ⟨same, entityId, time, items⟩ := StreamEntry.write_parts own
  obtain ⟨other, otherIn, ids, key, row, rowOf, stored⟩ := held
  obtain rfl := ordered.unique otherIn member (ids.trans same)
  obtain ⟨otherName, otherNamed, otherKnown⟩ := rowOf.schema
  obtain rfl := Option.some.inj (named.symm.trans otherNamed)
  obtain rfl := Option.some.inj (known.symm.trans otherKnown)
  have content : row = write.row := by
    have entityIds := Option.some.inj (entityId.symm.trans rowOf.entityId)
    have times := Option.some.inj (time.symm.trans rowOf.eventTime)
    have values := Option.some.inj (items.symm.trans rowOf.values)
    have numbers := rowOf.msgId
    rw [included, if_pos rfl] at numbers
    rw [FeatureWrite.row, entityIds, times, values, ← numbers]
  exact mem_datasetRows.mpr ⟨key.2, row, stored, by rw [content]⟩

end Messages

section Dataset

variable {deployment : Deployment} {world : World} {schema : FeatureSchema}

/-- Every row of the dataset is the row of a message. -/
theorem World.Traced.datasetRow (traced : world.Traced deployment)
    (included : deployment.includeMsgId = true) {row : FeatureRow (List WireValue)}
    (member : row ∈ datasetRows schema world.files) :
    ∃ write, MessageWrite deployment world.produced schema write ∧ row = write.row.feature := by
  obtain ⟨date, stored, filed, rfl⟩ := mem_datasetRows.mp member
  obtain ⟨write, message, rfl⟩ := (traced.files _ _ filed).write included
  exact ⟨write, message, rfl⟩

/-- Two rows of one message are equal, however often the message was applied. -/
theorem World.Traced.sameMessage (traced : world.Traced deployment)
    (included : deployment.includeMsgId = true) (ordered : StreamOrdered world) :
    SameMessageSameRow (datasetRows schema world.files) := by
  intro first firstIn second secondIn ms seq
  obtain ⟨one, oneWrite, rfl⟩ := traced.datasetRow included firstIn
  obtain ⟨other, otherWrite, rfl⟩ := traced.datasetRow included secondIn
  have same : one.msgId = other.msgId :=
    ofLex_inj.mp (Prod.ext (Int.ofNat_inj.mp ms) (Int.ofNat_inj.mp seq))
  rw [oneWrite.unique ordered otherWrite same]

/-- The rows of partitions are rows of messages, under the texts of their days. -/
def TracedParts (deployment : Deployment) (produced : List StreamEntry) (schema : FeatureSchema)
    (parts : List (PartitionFile (List WireValue))) : Prop :=
  ∀ part ∈ parts, ∀ row ∈ part.rows, ∃ stored : StoredRow,
    TracedRow deployment produced (schema, part.eventDate) stored ∧ row = stored.feature

/-- Two times of one day on the same side of its last half microsecond have one date text. -/
theorem nsToDateStr_sameDay {first second : Int} (day : first / dayNs = second / dayNs)
    (late : LateInDay first ↔ LateInDay second) : nsToDateStr first = nsToDateStr second := by
  have same : dayOrdinal first = dayOrdinal second := by
    rw [dayOrdinal_eq, dayOrdinal_eq, day]
    simp only [late]
  unfold nsToDateStr
  rw [same]

/-- A window of partitions that are named after their days holds every row of it. -/
theorem TracedParts.windowRows {produced : List StreamEntry}
    {parts : List (PartitionFile (List WireValue))}
    (traced : TracedParts deployment produced schema parts)
    (dates : ∀ time ∈ producedTimes produced, deployment.externals.dateString time = nsToDateStr time)
    (days : DaysAgree (producedTimes produced)) {start stop : Int}
    (startFits : -2 ^ 63 ≤ start ∧ start < 2 ^ 63) (stopFits : -2 ^ 63 ≤ stop ∧ stop < 2 ^ 63) :
    ∃ features, Quorin.windowRows nsToDateStr parts start stop = .ok features ∧
      ∀ row, row ∈ features ↔ row ∈ parts.flatMap PartitionFile.rows ∧
        start ≤ row.eventTimeNs ∧ row.eventTimeNs ≤ stop := by
  obtain ⟨startDate, stopDate, features, startDated, stopDated, loaded, window⟩ :=
    windowRows_ok parts startFits stopFits
  refine ⟨features, loaded, ?_⟩
  intro row
  rw [window]
  constructor
  · intro listed
    obtain ⟨kept, inside⟩ := listed
    obtain ⟨rows, there, member⟩ := List.mem_flatten.mp kept
    obtain ⟨partition, filed, rfl⟩ := List.mem_map.mp there
    exact ⟨List.mem_flatMap.mpr ⟨partition, List.mem_of_mem_filter filed, member⟩, inside⟩
  · intro listed
    obtain ⟨member, low, high⟩ := listed
    refine ⟨?_, low, high⟩
    obtain ⟨part, there, held⟩ := List.mem_flatMap.mp member
    obtain ⟨stored, origin, rfl⟩ := traced part there row held
    obtain ⟨entry, produced, rowOf⟩ := origin.message
    obtain ⟨first, firstIn, time, timed, day, text⟩ := origin.dated
    have ownTime : stored.eventTimeNs ∈ producedTimes _ :=
      List.mem_filterMap.mpr ⟨entry, produced, rowOf.eventTime⟩
    have firstTime : time ∈ producedTimes _ := List.mem_filterMap.mpr ⟨first, firstIn, timed⟩
    rw [dates time firstTime, nsToDateStr_sameDay day (days _ firstTime _ ownTime day)] at text
    refine List.mem_flatten.mpr ⟨part.rows, List.mem_map.mpr
      ⟨part, List.mem_filter.mpr ⟨there, ?_⟩, rfl⟩, held⟩
    exact decide_eq_true ⟨nsToDateStr_le startDated text low, nsToDateStr_le text stopDated high⟩

/-- The sealed files of a traced world are traced partitions. -/
theorem World.Traced.parts (traced : world.Traced deployment) :
    TracedParts deployment world.produced schema (datasetFiles schema world.files) := by
  intro part listed row held
  obtain ⟨file, there, rfl⟩ := List.mem_map.mp listed
  obtain ⟨stored, inside, rfl⟩ := List.mem_map.mp held
  obtain ⟨filed, named⟩ := List.mem_filter.mp there
  exact ⟨stored, traced.files _ _
    ⟨file, filed, Prod.ext (of_decide_eq_true named) rfl, inside⟩, rfl⟩

end Dataset

section Reads

variable {V Q : Type}

/-- The window of a read covers the window of each of its queries. -/
theorem readPartitions_loads {dateString : Int → Option String}
    (order : List GroupKey → List GroupKey) {files : List (PartitionFile V)}
    {rows : List (FeatureRow V)} {queries : List (QueryRow Q)} (asked : queries ≠ [])
    {lookbackDays : Int} (positive : 0 < lookbackDays)
    (fits : ∀ query ∈ queries, -2 ^ 63 ≤ query.asOfTime.toInt - lookbackDays * dayNs)
    (window : ∀ start stop, -2 ^ 63 ≤ start ∧ start < 2 ^ 63 → -2 ^ 63 ≤ stop ∧ stop < 2 ^ 63 →
      ∃ features, windowRows dateString files start stop = .ok features ∧
        ∀ row, row ∈ features ↔ row ∈ rows ∧ start ≤ row.eventTimeNs ∧ row.eventTimeNs ≤ stop) :
    ∃ features, (∀ row ∈ features, row ∈ rows) ∧
      (∀ query ∈ queries, ∀ row, InWindow (lookbackDays * dayNs) query row → row ∈ rows →
        row ∈ features) ∧
      readPartitions dateString order true files queries lookbackDays =
        .ok (asofJoin true (lookbackDays * dayNs) queries (dedupFeatures order true features)) := by
  generalize aotsDef : queries.map (fun query => query.asOfTime.toInt) = aots
  have nonempty : aots ≠ [] := by simpa [← aotsDef] using asked
  obtain ⟨minAot, least⟩ := Option.isSome_iff_exists.mp (List.isSome_min?_of_ne_nil nonempty)
  obtain ⟨maxAot, greatest⟩ := Option.isSome_iff_exists.mp (List.isSome_max?_of_ne_nil nonempty)
  obtain ⟨minIn, below⟩ := List.min?_eq_some_iff.mp least
  obtain ⟨maxIn, above⟩ := List.max?_eq_some_iff.mp greatest
  have forward : 0 < lookbackDays * dayNs := Int.mul_pos positive (by decide)
  have startFits : -2 ^ 63 ≤ minAot - lookbackDays * dayNs ∧
      minAot - lookbackDays * dayNs < 2 ^ 63 := by
    rw [← aotsDef] at minIn
    obtain ⟨query, member, rfl⟩ := List.mem_map.mp minIn
    have bound := query.asOfTime.toInt_lt
    exact ⟨fits query member, by omega⟩
  have stopFits : -2 ^ 63 ≤ maxAot ∧ maxAot < 2 ^ 63 := by
    rw [← aotsDef] at maxIn
    obtain ⟨query, _, rfl⟩ := List.mem_map.mp maxIn
    exact ⟨query.asOfTime.le_toInt, query.asOfTime.toInt_lt⟩
  obtain ⟨features, loaded, members⟩ := window _ _ startFits stopFits
  refine ⟨features, fun row member => ((members row).mp member).1, ?_, ?_⟩
  · intro query member row inWindow stored
    have asOf : query.asOfTime.toInt ∈ aots := aotsDef ▸ List.mem_map_of_mem member
    have early := below _ asOf
    have late := above _ asOf
    obtain ⟨_, recent, past⟩ := inWindow
    exact (members row).mpr ⟨stored, by omega, by omega⟩
  · unfold readPartitions
    rw [if_neg (by omega)]
    simp only [aotsDef, least, greatest, loaded]
    rfl

/-- A read of partitions that hold one row for each message answers every query. -/
theorem readPartitions_answers {dateString : Int → Option String}
    {order : List GroupKey → List GroupKey}
    (reorders : ∀ keys, (order keys).Perm keys) {files : List (PartitionFile V)}
    {rows : List (FeatureRow V)} (same : SameMessageSameRow rows) {queries : List (QueryRow Q)}
    (asked : queries ≠ []) {lookbackDays : Int} (positive : 0 < lookbackDays)
    (fits : ∀ query ∈ queries, -2 ^ 63 ≤ query.asOfTime.toInt - lookbackDays * dayNs)
    (window : ∀ start stop, -2 ^ 63 ≤ start ∧ start < 2 ^ 63 → -2 ^ 63 ≤ stop ∧ stop < 2 ^ 63 →
      ∃ features, windowRows dateString files start stop = .ok features ∧
        ∀ row, row ∈ features ↔ row ∈ rows ∧ start ≤ row.eventTimeNs ∧ row.eventTimeNs ≤ stop) :
    ∃ answer : QueryRow Q → Option (FeatureRow V),
      (∀ query ∈ queries, Answers rows (lookbackDays * dayNs) query (answer query)) ∧
      readPartitions dateString order true files queries lookbackDays =
        .ok (queries.map fun query => (query, (answer query).map (FeatureRow.part true))) := by
  obtain ⟨features, within, visible, loaded⟩ :=
    readPartitions_loads order asked positive fits window
  have distinct : SameMessageSameRow features := same.mono within
  refine ⟨fun query => (asofIndex (sortFeatures true (dedupFeatures order true features))
    (lookbackDays * dayNs) query).bind
      ((sortFeatures true (dedupFeatures order true features))[·]?), ?_, ?_⟩
  · intro query member
    refine answers_congr ?_ (asofJoin_answers (dedupFeatures order true features) _ query)
    intro row inWindow
    rw [mem_dedupFeatures reorders distinct]
    exact ⟨within row, visible query member row inWindow⟩
  · rw [loaded, asofJoin]

end Reads

section Messages

variable {deployment : Deployment} {start world : World} {Q : Type}

/-- A point-in-time read answers with the newest message of each window and misses no acknowledged
one. -/
theorem readPartitions_newestMessage (initial : start.Initial deployment) (fresh : start.files = [])
    (steps : Relation.ReflTransGen (WorldStep deployment) start world)
    (included : deployment.includeMsgId = true)
    (dates : ∀ time ∈ producedTimes world.produced,
      deployment.externals.dateString time = nsToDateStr time)
    (days : DaysAgree (producedTimes world.produced)) (schema : FeatureSchema)
    {order : List GroupKey → List GroupKey} (reorders : ∀ keys, (order keys).Perm keys)
    {queries : List (QueryRow Q)} (asked : queries ≠ []) {lookbackDays : Int}
    (positive : 0 < lookbackDays)
    (fits : ∀ query ∈ queries, -2 ^ 63 ≤ query.asOfTime.toInt - lookbackDays * dayNs) :
    ∃ answer : QueryRow Q → Option FeatureWrite,
      readPartitions nsToDateStr order true (datasetFiles schema world.files) queries lookbackDays =
        .ok (queries.map fun query =>
          (query, (answer query).map fun write => write.row.feature.part true)) ∧
      ∀ query ∈ queries,
        (∀ write, answer query = some write →
          MessageWrite deployment world.produced schema write ∧
            InWindow (lookbackDays * dayNs) query write.row.feature) ∧
        ∀ write, MessageWrite deployment world.produced schema write → write.msgId ∈ world.acked →
          InWindow (lookbackDays * dayNs) query write.row.feature →
            ∃ newest, answer query = some newest ∧ write.recency ≤ newest.recency := by
  have traced := traced_of_steps initial fresh steps
  have durable := durable_of_steps initial.durable steps
  have ordered := ordered_of_steps initial steps
  obtain ⟨rowAnswer, answers, loaded⟩ := readPartitions_answers reorders
    (traced.sameMessage included ordered) asked positive fits
    (fun _ _ startFits stopFits => traced.parts.windowRows dates days startFits stopFits)
  have chosen : ∀ query ∈ queries, ∃ answer : Option FeatureWrite,
      rowAnswer query = answer.map (fun write => write.row.feature) ∧
        ∀ write, answer = some write → MessageWrite deployment world.produced schema write := by
    intro query member
    cases found : rowAnswer query with
    | none => exact ⟨none, rfl, fun write impossible => by cases impossible⟩
    | some row =>
        have given := answers query member
        rw [found] at given
        obtain ⟨write, message, rfl⟩ := traced.datasetRow included given.1
        exact ⟨some write, rfl, fun other same => Option.some.inj same ▸ message⟩
  choose! answer matching message using chosen
  refine ⟨answer, ?_, ?_⟩
  · rw [loaded]
    refine congrArg Except.ok (List.map_congr_left ?_)
    intro query member
    rw [matching query member, Option.map_map]
    rfl
  · intro query member
    have given := answers query member
    rw [matching query member] at given
    constructor
    · intro write same
      rw [same] at given
      exact ⟨message query member write same, given.2.1⟩
    · intro write own acked inWindow
      have row := (durable.acked _ acked).datasetRow ordered included own
      cases same : answer query with
      | none =>
          rw [same] at given
          exact absurd inWindow (given _ row)
      | some newest =>
          rw [same] at given
          exact ⟨newest, rfl, given.2.2 _ row inWindow⟩

end Messages

theorem sampleFirst_times : producedTimes [sampleFirst] = [0] := by decide

theorem sampleFirst_dates : ∀ time ∈ producedTimes [sampleFirst],
    sampleDeployment.externals.dateString time = nsToDateStr time := by
  intro time member
  obtain rfl := List.mem_singleton.mp (sampleFirst_times ▸ member)
  decide

theorem sampleFirst_days : DaysAgree (producedTimes [sampleFirst]) := by
  intro first firstIn second secondIn _
  have early : first = 0 := List.mem_singleton.mp (sampleFirst_times ▸ firstIn)
  have late : second = 0 := List.mem_singleton.mp (sampleFirst_times ▸ secondIn)
  rw [early, late]

/-- A query for the sample entity behind the first sample message. -/
def sampleMessageQuery : QueryRow Unit := ⟨"a", 1, ()⟩

theorem readPartitions_newestMessage_sample : ∃ world : World, world.acked = [MsgId.of 1 0] ∧
    ∃ answer : QueryRow Unit → Option FeatureWrite,
      readPartitions nsToDateStr id true (datasetFiles sampleSchema world.files) [sampleMessageQuery] 1 =
        .ok ([sampleMessageQuery].map fun query =>
          (query, (answer query).map fun write => write.row.feature.part true)) ∧
      ∀ query ∈ [sampleMessageQuery],
        (∀ write, answer query = some write →
          MessageWrite sampleDeployment world.produced sampleSchema write ∧
            InWindow (1 * dayNs) query write.row.feature) ∧
        ∀ write, MessageWrite sampleDeployment world.produced sampleSchema write →
          write.msgId ∈ world.acked → InWindow (1 * dayNs) query write.row.feature →
            ∃ newest, answer query = some newest ∧ write.recency ≤ newest.recency := by
  obtain ⟨after, written, rowData, applied, _, convertible, steps⟩ := sampleFirst_consumed
  have flushed := @flush_steps sampleDeployment (sampleConsumed sampleFirst after written rowData) _
    rfl rfl applied.stopEvent rfl (by simp) (fun _ => .renamed) (flush_succeeds_iff.mpr convertible)
  have run := Relation.ReflTransGen.mono (fun _ _ step => And.left step) _ _ (steps.trans flushed)
  exact ⟨_, rfl, readPartitions_newestMessage sampleWorld_initial rfl run rfl sampleFirst_dates
    sampleFirst_days sampleSchema (fun keys => .refl keys) (by simp) (by decide) (by decide)⟩

end Quorin
