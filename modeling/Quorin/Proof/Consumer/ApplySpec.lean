import Quorin.Construction.Consumer
import Quorin.Proof.Consumer.WireText
import Quorin.Proof.Offline.Conservation

namespace Quorin

/-- The offline row of a message: its own values under the class of its schema name. -/
structure RowOf (externals : Externals) (schemas : List (List UInt8 × FeatureSchema))
    (includeMsgId : Bool) (msgId : MsgId) (fields : MessageFields) (key : BucketKey)
    (row : StoredRow) : Prop where
  schema : ∃ name, fields.schema = some name ∧ schemas.lookup name = some key.1
  entityId : fields.entityId.bind decodeUtf8 = some row.entityId
  eventTime : fields.eventTime.bind parseInt = some row.eventTimeNs
  values : (fields.blob.bind externals.unpackb).bind WireValue.items = some row.values
  msgId : row.msgId =
    if includeMsgId then some ((MsgId.ms msgId : Int), (MsgId.seq msgId : Int)) else none

section Apply

variable {externals : Externals} {consumer : Consumer} {shared : SharedMemory} {msgId : MsgId}

/-- The held segment is the one that the handle of the name maps. -/
theorem held_iff {name : List UInt8} {segmentName : String} {segment : Segment} :
    consumer.held shared name = some (segmentName, segment) ↔
      consumer.segments name = some segmentName ∧ shared segmentName = some segment := by
  unfold Consumer.held
  constructor
  · intro held
    obtain ⟨handle, opened, found⟩ := Option.bind_eq_some_iff.mp held
    obtain ⟨stored, here, same⟩ := Option.map_eq_some_iff.mp found
    obtain ⟨rfl, rfl⟩ := Prod.mk.inj same
    exact ⟨opened, here⟩
  · rintro ⟨opened, here⟩
    rw [opened, Option.bind_some, here, Option.map_some]

theorem decodeMessage_some {schemas : List (List UInt8 × FeatureSchema)} {fields : MessageFields}
    {message : DecodedMessage} (decoded : decodeMessage externals schemas fields = .ok (some message)) :
    fields.schema = some message.name ∧ schemas.lookup message.name = some message.schema ∧
      fields.entityId.bind decodeUtf8 = some message.entityId ∧
      fields.blob.bind externals.unpackb = some message.values := by
  unfold decodeMessage at decoded
  split at decoded
  · cases decoded
  · rename_i name named
    split at decoded
    · cases decoded
    · rename_i schema known
      split at decoded
      · cases decoded
      · rename_i bytes present
        split at decoded
        · cases decoded
        · rename_i entityId text
          obtain ⟨values, unpacked, rfl⟩ := Option.map_eq_some_iff.mp (Except.ok.inj decoded)
          exact ⟨named, known, by rw [present]; exact text, unpacked⟩

/-- A prepared insert carries the decoded message. -/
theorem prepareInsert_some {fields : MessageFields} {prepared : PreparedInsert}
    (ready : (prepareInsert externals consumer fields).1 = .ok (some prepared)) :
    decodeMessage externals consumer.schemas fields = .ok (some prepared.message) ∧
      packMessage externals prepared.message (consumer.rowBuffers prepared.message.name) =
        (true, prepared.request.rowData) ∧
      prepared.request.entityId = prepared.message.entityId := by
  unfold prepareInsert at ready
  split at ready
  · cases ready
  · cases ready
  · rename_i message decoded
    dsimp only at ready
    split at ready
    · rename_i packed
      obtain rfl := Option.some.inj (Except.ok.inj ready)
      exact ⟨decoded, Prod.ext packed rfl, rfl⟩
    · cases ready

/-- The rest of `_apply` keeps everything of the consumer but its offline buffers. -/
theorem finishApply_consumer (fields : MessageFields) (prepared : PreparedInsert) :
    ∃ offline, (finishApply externals consumer shared msgId fields prepared).2.1 =
        { consumer with offline := offline } ∧
      (offline = consumer.offline ∨ ∃ schema entityId eventTimeNs values,
        offline = (consumer.offline.append externals schema entityId eventTimeNs values
          msgId.bytes).2) := by
  unfold finishApply
  split
  · exact ⟨consumer.offline, rfl, Or.inl rfl⟩
  · dsimp only
    split
    · exact ⟨consumer.offline, rfl, Or.inl rfl⟩
    · split
      · split
        · exact ⟨_, rfl, Or.inr ⟨_, _, _, _, rfl⟩⟩
        · exact ⟨_, rfl, Or.inr ⟨_, _, _, _, rfl⟩⟩
      · exact ⟨consumer.offline, rfl, Or.inl rfl⟩

/-- A message that was applied has its row in the offline buffers. -/
theorem finishApply_true {fields : MessageFields} {prepared : PreparedInsert}
    (sound : consumer.offline.Sound externals)
    (decoded : decodeMessage externals consumer.schemas fields = .ok (some prepared.message))
    (returned : (finishApply externals consumer shared msgId fields prepared).1 = true) :
    ∃ key row, RowOf externals consumer.schemas consumer.offline.includeMsgId msgId fields key row ∧
      (finishApply externals consumer shared msgId fields prepared).2.1.offline.Buffered key row := by
  obtain ⟨named, known, entityId, unpacked⟩ := decodeMessage_some decoded
  revert returned
  unfold finishApply
  split
  · intro returned
    cases returned
  · dsimp only
    split
    · intro returned
      cases returned
    · split
      · rename_i eventTimeNs values time items
        split
        · rename_i appended
          intro _
          obtain ⟨date, bucket, parsed, text, ids, buffered⟩ := append_buffers sound appended
          have numbers := parseMsgId_bytes text
          rw [ids] at numbers
          refine ⟨(prepared.message.schema, date), _, ?_, buffered⟩
          constructor
          · exact ⟨prepared.message.name, named, known⟩
          · exact entityId
          · exact time
          · rw [unpacked]
            exact items
          · rw [numbers]
            cases consumer.offline.includeMsgId <;> rfl
        · intro returned
          cases returned
      · intro returned
        cases returned

/-- What one call of `_apply` keeps of the consumer. -/
structure ApplyFrame (externals : Externals) (before after : Consumer) : Prop where
  schemas : after.schemas = before.schemas
  segments : after.segments = before.segments
  pendingAck : after.pendingAck = before.pendingAck
  stopEvent : after.stopEvent = before.stopEvent
  offline : after.offline = before.offline ∨ ∃ schema entityId eventTimeNs values msgId,
    after.offline = (before.offline.append externals schema entityId eventTimeNs values msgId).2

theorem apply_frame (fields : Option MessageFields) :
    ApplyFrame externals consumer (apply externals consumer shared msgId fields).2.1 := by
  unfold apply
  split
  · exact ⟨rfl, rfl, rfl, rfl, Or.inl rfl⟩
  · split
    · exact ⟨rfl, rfl, rfl, rfl, Or.inl rfl⟩
    · exact ⟨rfl, rfl, rfl, rfl, Or.inl rfl⟩
    · rename_i fields _ prepared rowBuffers _
      obtain ⟨offline, same, origin⟩ := @finishApply_consumer externals
        { consumer with rowBuffers := rowBuffers } shared msgId fields prepared
      dsimp only
      rw [same]
      refine ⟨rfl, rfl, rfl, rfl, ?_⟩
      rcases origin with unchanged | ⟨schema, entityId, eventTimeNs, values, appended⟩
      · exact Or.inl unchanged
      · exact Or.inr ⟨schema, entityId, eventTimeNs, values, msgId.bytes, appended⟩

/-- No call of `_apply` removes a buffered row or breaks the soundness of the store. -/
theorem ApplyFrame.keeps {before after : Consumer} (frame : ApplyFrame externals before after)
    (sound : before.offline.Sound externals) :
    after.offline.Sound externals ∧ after.offline.includeMsgId = before.offline.includeMsgId ∧
      ∀ key row, before.offline.Buffered key row → after.offline.Buffered key row := by
  rcases frame.offline with same | ⟨schema, entityId, eventTimeNs, values, msgId, same⟩
  · rw [same]
    exact ⟨sound, rfl, fun _ _ buffered => buffered⟩
  · rw [same]
    exact append_keeps sound schema entityId eventTimeNs values msgId

/-- A call of `_apply` that returns true has buffered the row of its message. -/
theorem apply_true {fields : Option MessageFields} {after : Consumer} {written : SharedMemory}
    (sound : consumer.offline.Sound externals)
    (returned : apply externals consumer shared msgId fields = (.ok true, after, written)) :
    ∃ held, fields = some held ∧ ∃ key row,
      RowOf externals consumer.schemas consumer.offline.includeMsgId msgId held key row ∧
      after.offline.Buffered key row := by
  unfold apply at returned
  split at returned
  · cases returned
  · rename_i held
    refine ⟨held, rfl, ?_⟩
    split at returned
    · cases returned
    · cases returned
    · rename_i prepared rowBuffers ready
      have message := (prepareInsert_some (congrArg Prod.fst ready)).1
      have outcome := Prod.mk.inj returned
      have result := Except.ok.inj outcome.1
      obtain ⟨key, row, rowOf, buffered⟩ := @finishApply_true externals
        { consumer with rowBuffers := rowBuffers } shared msgId held prepared sound message result
      rw [outcome.2] at buffered
      exact ⟨key, row, rowOf, buffered⟩

end Apply

end Quorin
