import Quorin.Construction.OfflineStore
import Quorin.Construction.History

namespace Quorin

open ByteMemory

/-- A segment in shared memory with the schema class of its header. -/
structure Segment where
  schema : FeatureSchema
  layout : SegmentLayout
  memory : Memory

/-- The shared memory maps the names of segments to segments. -/
abbrev SharedMemory := String → Option Segment

/-- The header check compares the version and the checksum of the compiled table. -/
def verifyHeader (externals : Externals) (segment : Segment) (schema : FeatureSchema) : Bool :=
  decide (segment.schema.version = schema.version) &&
    match compileSchema externals.hashName segment.schema, compileSchema externals.hashName schema with
    | .ok stored, .ok expected => decide (externals.crc32 stored = externals.crc32 expected)
    | _, _ => false

/-- The state of one consumer object; the schema classes never change. -/
structure Consumer where
  schemas : List (List UInt8 × FeatureSchema)
  segments : List UInt8 → Option String
  rowBuffers : List UInt8 → List UInt8
  offline : OfflineStore
  pendingAck : List MsgId
  stopEvent : Bool

/-- The exception that `_apply` lets through: a served schema without an entity id. -/
inductive ApplyException where
  | keyError
  deriving DecidableEq

/-- The parts of a message that the consumer could decode. -/
structure DecodedMessage where
  name : List UInt8
  schema : FeatureSchema
  entityId : String
  values : WireValue

/-- The first part of `_apply`; the absent value stands for a message that stays in the PEL. -/
def decodeMessage (externals : Externals) (schemas : List (List UInt8 × FeatureSchema))
    (fields : MessageFields) : Except ApplyException (Option DecodedMessage) :=
  match fields.schema with
  | none => .ok none
  | some name =>
      match schemas.lookup name with
      | none => .ok none
      | some schema =>
          match fields.entityId with
          | none => .error .keyError
          | some entityIdBytes =>
              match decodeUtf8 entityIdBytes with
              | none => .ok none
              | some entityId =>
                  .ok ((fields.blob.bind externals.unpackb).map (⟨name, schema, entityId, ·⟩))

/-- The row buffer after the pack, and whether the pack succeeded. -/
def packMessage (externals : Externals) (message : DecodedMessage) (buffer : List UInt8) :
    Bool × List UInt8 :=
  match buildPlan externals.hashName message.schema with
  | .error _ => (false, buffer)
  | .ok plan =>
      match packRowFromList externals plan message.values buffer with
      | (.ok _, packed) => (true, packed)
      | (.error _, packed) => (false, packed)

/-- The call of `insert` that the message leads to, with the values for the offline writer. -/
structure PreparedInsert where
  message : DecodedMessage
  request : InsertRequest

/-- The part of `_apply` before `layout.insert`, with the row buffers it leaves. -/
def prepareInsert (externals : Externals) (consumer : Consumer) (fields : MessageFields) :
    Except ApplyException (Option PreparedInsert) × (List UInt8 → List UInt8) :=
  match decodeMessage externals consumer.schemas fields with
  | .error exception => (.error exception, consumer.rowBuffers)
  | .ok none => (.ok none, consumer.rowBuffers)
  | .ok (some message) =>
      let packed := packMessage externals message (consumer.rowBuffers message.name)
      let rowBuffers := Function.update consumer.rowBuffers message.name packed.2
      if packed.1 then (.ok (some ⟨message, ⟨message.entityId, packed.2⟩⟩), rowBuffers)
      else (.ok none, rowBuffers)

/-- The segment that the consumer holds for a schema name. -/
def Consumer.held (consumer : Consumer) (shared : SharedMemory) (name : List UInt8) :
    Option (String × Segment) :=
  (consumer.segments name).bind fun segmentName =>
    (shared segmentName).map fun segment => (segmentName, segment)

/-- The part of `_apply` from `layout.insert` on. -/
def finishApply (externals : Externals) (consumer : Consumer) (shared : SharedMemory)
    (msgId : MsgId) (fields : MessageFields) (prepared : PreparedInsert) :
    Bool × Consumer × SharedMemory :=
  match consumer.held shared prepared.message.name with
  | none => (false, consumer, shared)
  | some (segmentName, segment) =>
      let outcome := (insert externals.hashId segment.layout prepared.request.entityId
        prepared.request.rowData).run segment.memory
      let written := Function.update shared segmentName (some { segment with memory := outcome.2 })
      match outcome.1 with
      | .error _ => (false, consumer, written)
      | .ok _ =>
          match fields.eventTime.bind parseInt, prepared.message.values.items with
          | some eventTimeNs, some values =>
              let appended := consumer.offline.append externals prepared.message.schema
                prepared.message.entityId eventTimeNs values msgId.bytes
              match appended.1 with
              | .ok _ => (true, { consumer with offline := appended.2 }, written)
              | .error _ => (false, { consumer with offline := appended.2 }, written)
          | _, _ => (false, consumer, written)

/-- One message is applied; an entry that was trimmed arrives as an empty mapping, without a schema. -/
def apply (externals : Externals) (consumer : Consumer) (shared : SharedMemory) (msgId : MsgId)
    (fields : Option MessageFields) : Except ApplyException Bool × Consumer × SharedMemory :=
  match fields with
  | none => (.ok false, consumer, shared)
  | some fields =>
      match prepareInsert externals consumer fields with
      | (.error exception, rowBuffers) =>
          (.error exception, { consumer with rowBuffers }, shared)
      | (.ok none, rowBuffers) => (.ok false, { consumer with rowBuffers }, shared)
      | (.ok (some prepared), rowBuffers) =>
          let outcome := finishApply externals { consumer with rowBuffers } shared msgId fields prepared
          (.ok outcome.1, outcome.2)

/-- The loop of `_process_batch` collects the ids whose `_apply` returned true. -/
def applyBatch (externals : Externals) (consumer : Consumer) (shared : SharedMemory) :
    List (MsgId × Option MessageFields) → List MsgId →
      Except ApplyException (List MsgId) × Consumer × SharedMemory
  | [], applied => (.ok applied, consumer, shared)
  | (msgId, fields) :: rest, applied =>
      match apply externals consumer shared msgId fields with
      | (.error exception, after, written) => (.error exception, after, written)
      | (.ok outcome, after, written) =>
          applyBatch externals after written rest (if outcome then applied ++ [msgId] else applied)

/-- The result of the reopen loop for one name: the handle to use, or the end of the run. -/
inductive ReopenResult where
  | reopened (segmentName : String)
  | schemaCRCMismatch
  | segmentNotFound
  deriving DecidableEq

/-- The outcome of `registry.open_current` for a schema class. -/
def openCurrent (externals : Externals) (current : List UInt8 → Option String)
    (shared : SharedMemory) (name : List UInt8) (schema : FeatureSchema) : ReopenResult :=
  match current name with
  | none => .segmentNotFound
  | some segmentName =>
      match shared segmentName with
      | none => .segmentNotFound
      | some segment =>
          if verifyHeader externals segment schema then .reopened segmentName
          else .schemaCRCMismatch

/-- The reopen loop swaps in the current segments until one of them cannot be opened. -/
def reopenSegments (externals : Externals) (current : List UInt8 → Option String)
    (shared : SharedMemory) : List (List UInt8 × FeatureSchema) → Consumer → Consumer
  | [], consumer => consumer
  | (name, schema) :: rest, consumer =>
      match openCurrent externals current shared name schema with
      | .reopened segmentName =>
          if consumer.segments name = some segmentName then
            reopenSegments externals current shared rest consumer
          else
            let rows := ((rowSize externals.hashName schema).toOption).getD 0
            reopenSegments externals current shared rest
              { consumer with
                segments := Function.update consumer.segments name (some segmentName)
                rowBuffers := Function.update consumer.rowBuffers name (List.replicate rows 0) }
      | .schemaCRCMismatch => { consumer with stopEvent := true }
      | .segmentNotFound => { consumer with stopEvent := true }

end Quorin
