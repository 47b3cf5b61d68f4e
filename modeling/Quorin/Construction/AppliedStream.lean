import Quorin.Construction.Consumer

namespace Quorin

/-- A consumer with the memory that it maps and the files that its writer has sealed. -/
structure AppliedStream where
  consumer : Consumer
  shared : SharedMemory
  files : List SealedFile

/-- A message of the stream that is applied, or a flush of the offline writer. -/
inductive StreamStep where
  | message (entry : StreamEntry)
  | flush (outcome : BucketKey → WriteOutcome)

/-- One step, absent for a message whose `_apply` does not return true. -/
def AppliedStream.perform (externals : Externals) (state : AppliedStream) :
    StreamStep → Option AppliedStream
  | .message entry =>
      match apply externals state.consumer state.shared entry.id (some entry.fields) with
      | (.ok true, after, written) => some { state with consumer := after, shared := written }
      | _ => none
  | .flush outcome =>
      let (_, offline, files) := state.consumer.offline.flush externals outcome
      some { state with
        consumer := { state.consumer with offline := offline }
        files := state.files ++ files }

/-- The state behind a list of steps. -/
def AppliedStream.run (externals : Externals) (state : AppliedStream) (steps : List StreamStep) :
    Option AppliedStream :=
  steps.foldlM (AppliedStream.perform externals) state

/-- What one message writes for its entity. -/
structure FeatureWrite where
  entityId : String
  eventTimeNs : Int
  msgId : MsgId
  /-- The values in the order of the wire. -/
  values : List WireValue

/-- The write of an entry whose parts can be decoded. -/
def StreamEntry.write (externals : Externals) (entry : StreamEntry) : Option FeatureWrite :=
  match entry.fields.entityId.bind decodeUtf8, entry.fields.eventTime.bind parseInt,
      (entry.fields.blob.bind externals.unpackb).bind WireValue.items with
  | some entityId, some eventTimeNs, some values => some ⟨entityId, eventTimeNs, entry.id, values⟩
  | _, _, _ => none

/-- The write of a step; a flush writes nothing. -/
def StreamStep.write (externals : Externals) : StreamStep → Option FeatureWrite
  | .message entry => entry.write externals
  | .flush _ => none

/-- The writes of the messages of a stream, in the order of their application. -/
def streamWrites (externals : Externals) (steps : List StreamStep) : List FeatureWrite :=
  steps.filterMap (StreamStep.write externals)

end Quorin
