import Quorin.Proof.Offline.CrashSafeDataset
import Quorin.Proof.Offline.MessageReads
import Quorin.Proof.Serving.ServedWrites

namespace Quorin

open FaultyCalls

/-- The partition that a reader of a class gets from a path. -/
def DatasetPath.part (decode : BucketKey → List UInt8 → Option (List StoredRow))
    (schema : FeatureSchema) (disk : DatasetDisk) :
    DatasetPath → Option (PartitionFile (List WireValue))
  | .partition key uuid =>
      if key.1 = schema then
        (disk.entry (.partition key uuid)).bind fun file =>
          (decode key (disk.bytes file)).map fun rows => ⟨key.2, rows.map StoredRow.feature⟩
      else none
  | _ => none

/-- The partitions that a reader of a class finds on a disk; every visible file is decoded. -/
structure DatasetListing (decode : BucketKey → List UInt8 → Option (List StoredRow))
    (schema : FeatureSchema) (disk : DatasetDisk) (parts : List (PartitionFile (List WireValue))) :
    Prop where
  listed : ∀ part, part ∈ parts ↔ ∃ path : DatasetPath, path.part decode schema disk = some part
  decoded : ∀ date uuid file, disk.entry (.partition (schema, date) uuid) = some file →
    decode (schema, date) (disk.bytes file) ≠ none

/-- The reader gets the rows of every table of produced messages back from its bytes. -/
def LosslessTables (deployment : Deployment) (encode : SealedFile → List UInt8)
    (decode : BucketKey → List UInt8 → Option (List StoredRow)) (produced : List StreamEntry) : Prop :=
  ∀ key bucket, (∀ row ∈ bucket.rows, TracedRow deployment produced key row) →
    decode key (encode ⟨key, bucket⟩) = some bucket.rows

/-- The write belongs to the window of a read. -/
def FeatureWrite.Within (start stop : Int) (write : FeatureWrite) : Prop :=
  start ≤ write.eventTimeNs ∧ write.eventTimeNs ≤ stop

/-- Tables that are written one after the other keep the disk bounded. -/
theorem Wrote.bounded {attempts : List (SealedFile × TableWrite)} {before after : DatasetDisk}
    (wrote : Wrote attempts before after) (held : before.Bounded) : after.Bounded := by
  induction attempts generalizing before with
  | nil => exact (show after = before from wrote) ▸ held
  | cons attempt rest ih =>
      obtain ⟨file, write⟩ := attempt
      refine ih wrote.2 ?_
      unfold writeTable
      dsimp only
      split
      · exact (held.calls _).call _
      · exact held.calls _

section Listings

variable {deployment : Deployment} {encode : SealedFile → List UInt8}
  {decode : BucketKey → List UInt8 → Option (List StoredRow)} {state : DatasetWorld}
  {schema : FeatureSchema} {parts : List (PartitionFile (List WireValue))}

theorem DatasetPath.part_some {disk : DatasetDisk} {path : DatasetPath}
    {part : PartitionFile (List WireValue)} (found : path.part decode schema disk = some part) :
    ∃ date uuid file rows, path = .partition (schema, date) uuid ∧
      disk.entry (.partition (schema, date) uuid) = some file ∧
      decode (schema, date) (disk.bytes file) = some rows ∧
      part = ⟨date, rows.map StoredRow.feature⟩ := by
  cases path with
  | classDirectory schema => cases found
  | dateDirectory key => cases found
  | temporary uuid => cases found
  | partition key uuid =>
      obtain ⟨own, date⟩ := key
      simp only [DatasetPath.part] at found
      split at found
      · rename_i same
        obtain rfl : own = schema := same
        obtain ⟨file, named, rest⟩ := Option.bind_eq_some_iff.mp found
        obtain ⟨rows, known, rfl⟩ := Option.map_eq_some_iff.mp rest
        exact ⟨date, uuid, file, rows, rfl, named, known, rfl⟩
      · cases found

/-- A visible file is in the listing with its rows. -/
theorem DatasetListing.mem (listing : DatasetListing decode schema state.disk parts) {date : String}
    {uuid file : Nat} {rows : List StoredRow}
    (named : state.disk.entry (.partition (schema, date) uuid) = some file)
    (known : decode (schema, date) (state.disk.bytes file) = some rows) :
    (⟨date, rows.map StoredRow.feature⟩ : PartitionFile (List WireValue)) ∈ parts := by
  refine (listing.listed _).mpr ⟨.partition (schema, date) uuid, ?_⟩
  simp [DatasetPath.part, named, known]

/-- A visible file of a class holds rows of produced messages, and a reader gets them. -/
theorem DatasetWorld.Sealed.visible (held : state.Sealed deployment encode)
    (lossless : LosslessTables deployment encode decode state.world.produced) {date : String}
    {uuid file : Nat} (named : state.disk.entry (.partition (schema, date) uuid) = some file) :
    ∃ rows, decode (schema, date) (state.disk.bytes file) = some rows ∧
      ∀ row ∈ rows, TracedRow deployment state.world.produced (schema, date) row := by
  obtain ⟨bucket, content, traced⟩ :=
    (held.whole.whole (.partition (schema, date) uuid) trivial file (.inl named)).2
  exact ⟨bucket.rows, content ▸ lossless _ bucket traced, traced⟩

/-- A listing holds rows of produced messages only. -/
theorem DatasetListing.traced (listing : DatasetListing decode schema state.disk parts)
    (held : state.Sealed deployment encode)
    (lossless : LosslessTables deployment encode decode state.world.produced) :
    TracedParts deployment state.world.produced schema parts := by
  intro part member row inside
  obtain ⟨path, found⟩ := (listing.listed part).mp member
  obtain ⟨date, uuid, file, rows, rfl, named, known, rfl⟩ := path.part_some found
  obtain ⟨other, same, traced⟩ := held.visible lossless named
  obtain rfl := Option.some.inj (known.symm.trans same)
  obtain ⟨stored, there, rfl⟩ := List.mem_map.mp inside
  exact ⟨stored, traced stored there, rfl⟩

/-- No power loss took a directory of the class with files in it. -/
def DatasetWorld.KeepsClass (state : DatasetWorld) (schema : FeatureSchema) : Prop :=
  ∀ date uuid, .partition (schema, date) uuid ∉ state.lost

/-- A listing holds the row of every acknowledged message of its class. -/
theorem DatasetListing.acked (listing : DatasetListing decode schema state.disk parts)
    (held : state.Sealed deployment encode) (ordered : StreamOrdered state.world)
    (lossless : LosslessTables deployment encode decode state.world.produced)
    (kept : state.KeepsClass schema) (included : deployment.includeMsgId = true) {write : FeatureWrite}
    (message : MessageWrite deployment state.world.produced schema write)
    (acked : write.msgId ∈ state.world.acked) :
    write.row.feature ∈ parts.flatMap PartitionFile.rows := by
  have row := (held.durable.acked _ acked).datasetRow ordered included message
  obtain ⟨date, stored, ⟨sealed, inFiles, keyed, inside⟩, same⟩ := mem_datasetRows.mp row
  obtain ⟨uuid, keeps⟩ := held.kept sealed inFiles
  have outside : .partition sealed.key uuid ∉ state.lost := keyed ▸ kept date uuid
  obtain ⟨file, named, _, _, content⟩ := keeps.resolve_right outside
  have traced : ∀ other ∈ sealed.bucket.rows,
      TracedRow deployment state.world.produced (schema, date) other := by
    intro other there
    exact held.traced.files _ _ ⟨sealed, inFiles, keyed, there⟩
  rw [keyed] at named
  have known : decode (schema, date) (state.disk.bytes file) = some sealed.bucket.rows := by
    rw [content, ← lossless (schema, date) sealed.bucket traced, ← keyed]
  exact List.mem_flatMap.mpr ⟨_, listing.mem named known,
    List.mem_map.mpr ⟨stored, inside, same.symm⟩⟩

/-- The rows of traced partitions are writes of produced messages with an id. -/
theorem TracedParts.write {produced : List StreamEntry}
    (traced : TracedParts deployment produced schema parts)
    (included : deployment.includeMsgId = true) {row : FeatureRow (List WireValue)}
    (member : row ∈ parts.flatMap PartitionFile.rows) :
    ∃ write, MessageWrite deployment produced schema write ∧ row = write.row.feature ∧
      write.entityId ≠ "" ∧ ∃ plan, arrowPlanFor deployment.externals.hashName schema = .ok plan := by
  obtain ⟨part, there, inside⟩ := List.mem_flatMap.mp member
  obtain ⟨stored, origin, rfl⟩ := traced part there row inside
  obtain ⟨write, message, rfl⟩ := origin.write included
  exact ⟨write, message, rfl, origin.named, origin.planned⟩

/-- The ids of the stream grow on a disk as they do in the memory. -/
theorem dataset_ordered {start : DatasetWorld} (initial : start.world.Initial deployment)
    (steps : Relation.ReflTransGen (DatasetStep deployment encode) start state) :
    StreamOrdered state.world := by
  induction steps with
  | refl => exact initial.streamOrdered
  | @tail before after _ step ih =>
      cases step with
      | world step attempts owned encoded files wrote => exact step.streamEffect.ordered ih
      | cleanup uuid => exact ih
      | @powerLoss disk lost shared =>
          have kept : StreamEffect deployment before.world
              { before.world with run := none, shared } := .kept rfl rfl rfl rfl
          exact kept.ordered ih

/-- Finitely many paths of the dataset may name a file. -/
theorem dataset_bounded {start : DatasetWorld} (formatted : start.disk = Disk.empty)
    (steps : Relation.ReflTransGen (DatasetStep deployment encode) start state) :
    state.disk.Bounded := by
  induction steps with
  | refl => exact formatted ▸ Disk.empty_bounded
  | tail _ step ih =>
      cases step with
      | world step attempts owned encoded files wrote => exact wrote.bounded ih
      | cleanup uuid => exact ih.call (.unlink (.temporary uuid))
      | powerLoss lost shared => exact ih.powerLoss lost

/-- A reader can list the dataset behind every run. -/
theorem dataset_listing {start : DatasetWorld} (initial : start.world.Initial deployment)
    (fresh : start.world.files = []) (formatted : start.disk = Disk.empty)
    (steps : Relation.ReflTransGen (DatasetStep deployment encode) start state)
    (lossless : LosslessTables deployment encode decode state.world.produced)
    (schema : FeatureSchema) : ∃ parts, DatasetListing decode schema state.disk parts := by
  have held := sealed_of_steps initial fresh formatted steps
  have finite := dataset_bounded formatted steps
  refine ⟨finite.toFinset.toList.filterMap fun path => path.part decode schema state.disk, ?_, ?_⟩
  · intro part
    rw [List.mem_filterMap]
    constructor
    · rintro ⟨path, _, found⟩
      exact ⟨path, found⟩
    · rintro ⟨path, found⟩
      obtain ⟨date, uuid, file, rows, rfl, named, _⟩ := path.part_some found
      exact ⟨_, Finset.mem_toList.mpr (finite.mem_toFinset.mpr ⟨file, .inl named⟩), found⟩
  · intro date uuid file named missing
    obtain ⟨rows, known, _⟩ := held.visible lossless named
    rw [missing] at known
    cases known

end Listings

section Hydrates

variable {externals : Externals} {call : HydrateCall} {host : Host}
  {latest : List (FeatureRow (List WireValue))}

/-- A quiet `hydrate` of the latest rows maps their ids to their fields, and no other id to anything. -/
theorem hydrate_latest (quiet : QuietHydrate externals call host)
    (reads : call.latest = some (latestTable externals call.schema latest))
    (planned : ∃ plan, arrowPlanFor externals.hashName call.schema = .ok plan) (rows : latest ≠ [])
    (distinct : (latest.map FeatureRow.entityId).Nodup)
    (origin : ∀ row ∈ latest, ∃ write : FeatureWrite, row = write.row.feature ∧
      write.Typed externals call.schema ∧ write.entityId ≠ "" ∧
        (encodeUtf8 write.entityId).length ≤ defaultMaxIdBytes) :
    ∃ finished segment, (∀ count, finished ≤ count →
        let final := (Hydration.initial externals host []).performAll externals call (quietSteps count)
        final.phase = .finished latest.length ∧ final.host.objects call.name = some segment) ∧
      (∀ write : FeatureWrite, write.row.feature ∈ latest →
        segment.fieldMap externals.hashId call.schema write.entityId =
          some (write.fieldBytes externals call.schema)) ∧
      ∀ entityId, entityId ∉ latest.map FeatureRow.entityId →
        segment.fieldMap externals.hashId call.schema entityId = none := by
  obtain ⟨plan, planned⟩ := planned
  have flat := arrowPlanFor_rank planned
  have unreserved := ((@arrowPlanFor_flat externals.hashName call.schema flat).1).mp ⟨plan, planned⟩
  have noIdField : ∀ field ∈ call.schema.fields, field.name ≠ "entity_id" := by
    intro field member same
    exact unreserved field member (by rw [same]; decide)
  have declared := @latestTable_declared externals call.schema latest flat noIdField
    (fun row member => by
      obtain ⟨write, same, typed, _⟩ := origin row member
      exact ⟨write, typed, same⟩)
  obtain ⟨layout, computed, header⟩ := quiet.creates _ reads
  have some : (latestTable externals call.schema latest).length ≠ 0 :=
    Nat.ne_of_gt (List.length_pos_iff.mpr rows)
  have ready : HydrateReady externals call host (latestTable externals call.schema latest) layout :=
    ⟨quiet.factor, quiet.vacant, quiet.alone, reads, some, computed, quiet.space, quiet.unlinked,
      header⟩
  have sized : ∀ entityId ∈ latest.map FeatureRow.entityId,
      entityId ≠ "" ∧ (encodeUtf8 entityId).length ≤ defaultMaxIdBytes := by
    intro entityId member
    obtain ⟨row, inside, rfl⟩ := List.mem_map.mp member
    obtain ⟨write, rfl, _, named, short⟩ := origin row inside
    exact ⟨named, short⟩
  obtain ⟨finished, segment, runs, cells, others⟩ := ready.finishes declared distinct
    (fun entityId member => (sized entityId member).1)
    (fun entityId member => (sized entityId member).2) (quiet.grows _)
  refine ⟨finished, segment, runs, ?_, others⟩
  intro write inside
  obtain ⟨index, bound, found⟩ := List.mem_iff_getElem.mp inside
  have own := cells index (by rw [List.length_map]; exact bound)
  rw [List.getElem_map, found, List.getElem?_eq_getElem bound, found] at own
  exact own

end Hydrates

section Recovers

variable {Object : Type} {pydantic : Pydantic Object} {deployment : Deployment}

/-- A write of a produced message has the types of its class. -/
theorem MessageWrite.typed {produced : List StreamEntry} {schema : FeatureSchema} {write : FeatureWrite}
    (message : MessageWrite deployment produced schema write)
    (transport : deployment.externals.RoundTrips)
    (producers : ∀ entry ∈ produced, ∃ schema entityId values,
      WrittenEntry deployment pydantic entry schema entityId values) :
    write.Typed deployment.externals schema := by
  obtain ⟨entry, member, ⟨name, named, known⟩, own⟩ := message
  obtain ⟨other, entityId, values, served, eventTimeNs, accepted⟩ := producers entry member
  obtain ⟨items, parts⟩ := doWrite_message accepted
  obtain rfl := Option.some.inj (named.symm.trans parts.named)
  obtain rfl := Option.some.inj (known.symm.trans served)
  exact (parts.suits transport entry.id).2 write own

variable {encode : SealedFile → List UInt8} {decode : BucketKey → List UInt8 → Option (List StoredRow)}
  {start state : DatasetWorld} {parts : List (PartitionFile (List WireValue))} {call : HydrateCall}
  {host : Host} {snapshotNs lookbackDays : Int}

/-- Behind crashes a quiet `hydrate` finds for each acknowledged entity a write that is not older. -/
theorem hydrate_recovers (initial : start.world.Initial deployment) (fresh : start.world.files = [])
    (formatted : start.disk = Disk.empty)
    (steps : Relation.ReflTransGen (DatasetStep deployment encode) start state)
    (included : deployment.includeMsgId = true)
    (dates : ∀ time ∈ producedTimes state.world.produced,
      deployment.externals.dateString time = nsToDateStr time)
    (days : DaysAgree (producedTimes state.world.produced))
    (transport : deployment.externals.RoundTrips)
    (producers : ∀ entry ∈ state.world.produced, ∃ schema entityId values,
      WrittenEntry deployment pydantic entry schema entityId values)
    (short : ∀ write, MessageWrite deployment state.world.produced call.schema write →
      (encodeUtf8 write.entityId).length ≤ defaultMaxIdBytes)
    (lossless : LosslessTables deployment encode decode state.world.produced)
    (kept : state.KeepsClass call.schema)
    (listing : DatasetListing decode call.schema state.disk parts)
    (positive : 0 < lookbackDays) (startFits : -2 ^ 63 ≤ snapshotNs - lookbackDays * dayNs)
    (stopFits : snapshotNs < 2 ^ 63) {order : List String → List String}
    (reorders : ∀ ids, (order ids).Perm ids)
    (reads : call.latest = (latestFeatures nsToDateStr order true parts snapshotNs lookbackDays).toOption.map
      (latestTable deployment.externals call.schema))
    (quiet : QuietHydrate deployment.externals call host)
    (survives : ∃ write, MessageWrite deployment state.world.produced call.schema write ∧
      write.msgId ∈ state.world.acked ∧ write.Within (snapshotNs - lookbackDays * dayNs) snapshotNs) :
    ∃ finished rows segment, (∀ count, finished ≤ count →
        let final := (Hydration.initial deployment.externals host []).performAll deployment.externals
          call (quietSteps count)
        final.phase = .finished rows ∧ final.host.objects call.name = some segment) ∧
      (∀ write, MessageWrite deployment state.world.produced call.schema write →
        write.msgId ∈ state.world.acked →
        write.Within (snapshotNs - lookbackDays * dayNs) snapshotNs →
        ∃ newest, MessageWrite deployment state.world.produced call.schema newest ∧
          newest.Within (snapshotNs - lookbackDays * dayNs) snapshotNs ∧
          newest.entityId = write.entityId ∧ write.recency ≤ newest.recency ∧
          segment.fieldMap deployment.externals.hashId call.schema write.entityId =
            some (newest.fieldBytes deployment.externals call.schema)) ∧
      ∀ entityId, (∀ write, MessageWrite deployment state.world.produced call.schema write →
          write.Within (snapshotNs - lookbackDays * dayNs) snapshotNs → write.entityId ≠ entityId) →
        segment.fieldMap deployment.externals.hashId call.schema entityId = none := by
  have held := sealed_of_steps initial fresh formatted steps
  have ordered := dataset_ordered initial steps
  have traced := listing.traced held lossless
  have forward : 0 < lookbackDays * dayNs := Int.mul_pos positive (by decide)
  obtain ⟨features, loaded, window⟩ := traced.windowRows dates days
    ⟨startFits, by omega⟩ ⟨by omega, stopFits⟩
  have returned := reads
  rw [latestFeatures_rows order positive loaded] at returned
  have present : ∀ write, MessageWrite deployment state.world.produced call.schema write →
      write.msgId ∈ state.world.acked →
      write.Within (snapshotNs - lookbackDays * dayNs) snapshotNs → write.row.feature ∈ features :=
    fun write message acked within =>
      (window _).mpr ⟨listing.acked held ordered lossless kept included message acked, within⟩
  have origin : ∀ row ∈ features, ∃ write,
      MessageWrite deployment state.world.produced call.schema write ∧ row = write.row.feature ∧
      write.Within (snapshotNs - lookbackDays * dayNs) snapshotNs ∧ write.entityId ≠ "" := by
    intro row member
    obtain ⟨stored, within⟩ := (window row).mp member
    obtain ⟨write, message, rfl, named, _⟩ := traced.write included stored
    exact ⟨write, message, rfl, within, named⟩
  obtain ⟨first, firstMessage, firstAcked, firstWithin⟩ := survives
  have firstRow := present first firstMessage firstAcked firstWithin
  obtain ⟨_, _, _, _, planned⟩ := traced.write included ((window _).mp firstRow).1
  obtain ⟨latest, firstLatest, _⟩ := List.mem_map.mp
    ((mem_latestRows_ids reorders).mpr ⟨first.row.feature, firstRow, rfl⟩)
  obtain ⟨finished, segment, runs, cells, others⟩ := hydrate_latest quiet returned planned
    (List.ne_nil_of_mem firstLatest) (latestRows_distinct reorders features) (by
      intro row member
      obtain ⟨write, message, same, _, named⟩ := origin row (latestRows_latest reorders member).1
      exact ⟨write, same, message.typed transport producers, named, short write message⟩)
  refine ⟨finished, _, segment, runs, ?_, ?_⟩
  · intro write message acked within
    have row := present write message acked within
    obtain ⟨top, inLatest, same⟩ := List.mem_map.mp
      ((mem_latestRows_ids reorders).mpr ⟨write.row.feature, row, rfl⟩)
    obtain ⟨inside, greatest⟩ := latestRows_latest reorders inLatest
    obtain ⟨newest, newestMessage, rfl, newestWithin, _⟩ := origin top inside
    have named : newest.entityId = write.entityId := same
    refine ⟨newest, newestMessage, newestWithin, named, greatest _ row same.symm, ?_⟩
    rw [← named]
    exact cells newest inLatest
  · intro entityId absent
    refine others entityId fun member => ?_
    obtain ⟨row, inside, same⟩ := (mem_latestRows_ids reorders).mp member
    obtain ⟨write, message, rfl, within, _⟩ := origin row inside
    exact absent write message within same

end Recovers

/-- The write of the first sample message. -/
def sampleFirstWrite : FeatureWrite := ⟨"a", 0, MsgId.of 1 0, [.float 0x3ff0000000000000]⟩

/-- A sample format for tables of the first sample row. -/
def sampleTableEncode (file : SealedFile) : List UInt8 := file.bucket.rows.map fun _ => 0

def sampleTableDecode (_ : BucketKey) (bytes : List UInt8) : Option (List StoredRow) :=
  some (bytes.map fun _ => sampleFirstWrite.row)

theorem sampleFirst_write {schema : FeatureSchema} {write : FeatureWrite}
    (message : MessageWrite sampleDeployment [sampleFirst] schema write) :
    schema = sampleSchema ∧ write = sampleFirstWrite := by
  obtain ⟨entry, member, ⟨name, named, known⟩, own⟩ := message
  obtain rfl := List.mem_singleton.mp member
  have value : sampleFirst.write sampleDeployment.externals = some sampleFirstWrite := rfl
  obtain rfl := Option.some.inj (named.symm.trans (show sampleFirst.fields.schema = _ from rfl))
  exact ⟨(Option.some.inj known).symm, (Option.some.inj (own.symm.trans value))⟩

theorem sampleTable_lossless :
    LosslessTables sampleDeployment sampleTableEncode sampleTableDecode [sampleFirst] := by
  intro key bucket traced
  have same : ∀ row ∈ bucket.rows, sampleFirstWrite.row = row := by
    intro row member
    obtain ⟨write, message, rfl⟩ := (traced row member).write rfl
    rw [(sampleFirst_write message).2]
  simp only [sampleTableDecode, sampleTableEncode, List.map_map, Function.comp_def, Option.some.injEq]
  exact (List.map_congr_left same).trans (List.map_id _)

/-- A hydration of the sample class from latest rows. -/
def sampleRecoverCall (latest : List (FeatureRow (List WireValue))) : HydrateCall :=
  { sampleHydrateCall with latest := some (latestTable sampleExternals sampleSchema latest) }

theorem sampleRecoverCall_quiet {latest : List (FeatureRow (List WireValue))}
    (single : latest.length ≤ 1) :
    QuietHydrate sampleExternals (sampleRecoverCall latest) sampleVacantHost := by
  constructor
  · rfl
  · rfl
  · rfl
  · rfl
  · exact (show "hydrated" ∉ sampleVacantHost.linked by decide)
  · intro rows
    change (rows : Int) ≤ 4 * rows
    omega
  · intro table listed
    obtain rfl := Option.some.inj listed
    obtain ⟨layout, capacity, computed⟩ := sampleHydrate_layout
    obtain ⟨rows, _⟩ := computeLayout_parts computed
    obtain ⟨header, packed⟩ := @packHeader_exists sampleExternals sampleSchema layout rows
      (by decide) (by rw [capacity]; decide)
    have room : (hydrateCreate (sampleRecoverCall latest) (latestTable sampleExternals sampleSchema
        latest)).capacity = 16 := by
      change max (4 * (latest.length : Int)) 16 = 16
      omega
    refine ⟨layout, ?_, ?_⟩
    · rw [show (sampleRecoverCall latest).schema = sampleSchema from rfl, room]
      exact computed
    · exact Option.ne_none_iff_exists'.mpr ⟨header, packed⟩

theorem settled_keepsClass {deployment : Deployment} {encode : SealedFile → List UInt8}
    {state : DatasetWorld} {schema : FeatureSchema} (held : state.Sealed deployment encode)
    (kept : state.KeepsClass schema) {world : World} : DatasetWorld.KeepsClass
      ⟨world, state.disk.settled, state.lost ∪ takenAlong state.disk state.disk.settled⟩ schema := by
  rw [settled_lost held, Set.union_empty]
  exact kept

/-- The acknowledged sample score comes back from the disk behind a power loss. -/
theorem hydrate_recovers_sample : ∃ state : DatasetWorld,
    Relation.ReflTransGen (DatasetStep sampleDeployment sampleTableEncode)
      ⟨sampleWorld, Disk.empty, ∅⟩ state ∧ state.world.run = none ∧
    state.world.acked = [MsgId.of 1 0] ∧
    ∃ call finished rows segment, (∀ count, finished ≤ count →
        let final := (Hydration.initial sampleExternals sampleVacantHost []).performAll sampleExternals
          call (quietSteps count)
        final.phase = .finished rows ∧ final.host.objects call.name = some segment) ∧
      segment.fieldMap sampleExternals.hashId sampleSchema "a" =
        some (sampleFirstWrite.fieldBytes sampleExternals sampleSchema) := by
  obtain ⟨after, written, rowData, applied, _, convertible, steps⟩ := sampleFirst_consumed
  have flushed := @flush_steps sampleDeployment (sampleConsumed sampleFirst after written rowData) _
    rfl rfl applied.stopEvent rfl (by simp) (fun _ => .renamed) (flush_succeeds_iff.mpr convertible)
  have run := Relation.ReflTransGen.mono (fun _ _ step => And.left step) _ _ (steps.trans flushed)
  obtain ⟨disk, _, _, onDisk⟩ :=
    @dataset_steps sampleDeployment sampleTableEncode _ _ _ _ ∅ empty_freshFrom run
  have held := sealed_of_steps sampleWorld_initial rfl rfl onDisk
  have lost := onDisk.tail (.powerLoss (Disk.settled_powerLoss held.rooted) fun _ => none)
  obtain ⟨parts, listing⟩ :=
    dataset_listing sampleWorld_initial rfl rfl lost sampleTable_lossless sampleSchema
  have written : MessageWrite sampleDeployment [sampleFirst] sampleSchema sampleFirstWrite :=
    ⟨sampleFirst, List.mem_cons_self, ⟨_, rfl, rfl⟩, rfl⟩
  have traced := listing.traced (sealed_of_steps sampleWorld_initial rfl rfl lost) sampleTable_lossless
  obtain ⟨features, loaded, window⟩ := traced.windowRows sampleFirst_dates sampleFirst_days
    (show -2 ^ 63 ≤ (0 : Int) - 1 * dayNs ∧ (0 : Int) - 1 * dayNs < 2 ^ 63 by decide)
    (show -2 ^ 63 ≤ (0 : Int) ∧ (0 : Int) < 2 ^ 63 by decide)
  have reorders : ∀ ids : List String, (id ids).Perm ids := fun ids => .refl ids
  have same : ∀ row ∈ latestRows id features, row.entityId = "a" := by
    intro row member
    have stored := (window row).mp (latestRows_latest reorders member).1
    obtain ⟨write, message, rfl, _⟩ := traced.write rfl stored.1
    rw [(sampleFirst_write message).2]
    rfl
  have distinct := latestRows_distinct reorders features
  have single : (latestRows id features).length ≤ 1 := by
    rw [List.map_congr_left same, List.map_const', List.nodup_replicate] at distinct
    exact distinct
  have reads : (sampleRecoverCall (latestRows id features)).latest =
      (latestFeatures nsToDateStr id true parts 0 1).toOption.map (latestTable sampleExternals sampleSchema) := by
    rw [latestFeatures_rows id (by decide) loaded]
    rfl
  have within : sampleFirstWrite.Within (0 - 1 * dayNs) 0 :=
    ⟨show 0 - 1 * dayNs ≤ 0 by decide, le_refl (0 : Int)⟩
  obtain ⟨finished, rows, segment, runs, recovers, _⟩ := hydrate_recovers sampleWorld_initial rfl rfl
    lost rfl sampleFirst_dates sampleFirst_days sampleExternals_roundTrips sampleFirst_producers
    (fun write message => by rw [(sampleFirst_write message).2]; decide) sampleTable_lossless
    (settled_keepsClass held fun _ _ => id) listing (by decide) (by decide) (by decide) reorders reads
    (sampleRecoverCall_quiet single)
    ⟨sampleFirstWrite, written, List.mem_cons_self, within⟩
  obtain ⟨newest, message, _, _, _, found⟩ :=
    recovers sampleFirstWrite written List.mem_cons_self within
  obtain ⟨_, rfl⟩ := sampleFirst_write message
  exact ⟨_, lost, rfl, rfl, sampleRecoverCall (latestRows id features), finished, rows, segment, runs, found⟩

end Quorin
