import Quorin.Proof.Consumer.DurableRuns
import Quorin.Proof.Offline.AcceptedRows

namespace Quorin

/-- The times of an event and of its id fit the columns that the writer adds. -/
def TimesFit (includeMsgId : Bool) (eventTimeNs : Int) (msgId : MsgId) : Prop :=
  (-2 ^ 63 ≤ eventTimeNs ∧ eventTimeNs ≤ 2 ^ 63 - 1) ∧
    (includeMsgId = true → (MsgId.ms msgId : Int) ≤ 2 ^ 63 - 1 ∧ (MsgId.seq msgId : Int) ≤ 2 ^ 31 - 1)

theorem converts_int64 (externals : Externals) (number : Int) :
    (ArrowType.leaf .int64).converts externals (.int number) = true ↔
      -2 ^ 63 ≤ number ∧ number ≤ 2 ^ 63 - 1 := by
  simp [ArrowType.converts, DType.intRange]

theorem converts_int32 (externals : Externals) (number : Int) :
    (ArrowType.leaf .int32).converts externals (.int number) = true ↔
      -2 ^ 31 ≤ number ∧ number ≤ 2 ^ 31 - 1 := by
  simp [ArrowType.converts, DType.intRange]

section Row

variable {externals : Externals} {schemas : List (List UInt8 × FeatureSchema)} {includeMsgId : Bool}
  {msgId : MsgId} {fields : MessageFields} {key : BucketKey} {row : StoredRow}

/-- The row of a message converts when its times and its feature values do. -/
theorem RowOf.converts_iff (rowOf : RowOf externals schemas includeMsgId msgId fields key row)
    (plan : ArrowPlan) :
    row.Converts externals plan ↔ TimesFit includeMsgId row.eventTimeNs msgId ∧
      ∀ entry ∈ plan.wireTypes.zip row.values, entry.1.converts externals entry.2 = true := by
  have ids : (∀ ids, row.msgId = some ids →
      (ArrowType.leaf .int64).converts externals (.int ids.1) = true ∧
        (ArrowType.leaf .int32).converts externals (.int ids.2) = true) ↔
      (includeMsgId = true → (MsgId.ms msgId : Int) ≤ 2 ^ 63 - 1 ∧
        (MsgId.seq msgId : Int) ≤ 2 ^ 31 - 1) := by
    rw [rowOf.msgId]
    cases includeMsgId with
    | false => simp
    | true =>
        simp only [if_true, Option.some.injEq, forall_eq', converts_int64, converts_int32, true_imp_iff]
        omega
  constructor
  · intro converts
    exact ⟨⟨(converts_int64 externals _).mp converts.eventTime, ids.mp converts.msgId⟩, converts.values⟩
  · rintro ⟨⟨time, stamped⟩, values⟩
    exact ⟨(converts_int64 externals _).mpr time, values, ids.mpr stamped⟩

/-- The row of an accepted message holds the event time and the values of the write. -/
theorem RowOf.accepted {Object : Type} {pydantic : Pydantic Object} {schema : FeatureSchema}
    {eventTimeNs : Int} {valuesList : List WireValue}
    (rowOf : RowOf externals schemas includeMsgId msgId fields key row)
    (written : AcceptedWrite externals pydantic schema eventTimeNs fields valuesList)
    (roundTrips : externals.RoundTrips) :
    row.eventTimeNs = eventTimeNs ∧ row.values = valuesList := by
  constructor
  · cases text : fields.eventTime with
    | none => exact absurd text written.timed
    | some bytes =>
        have parsed := rowOf.eventTime
        rw [text, Option.bind_some, parseInt_strInt (written.eventTime.symm.trans text)] at parsed
        exact (Option.some.inj parsed).symm
  · cases packed : fields.blob with
    | none => exact absurd packed written.present
    | some blob =>
        have unpacked := rowOf.values
        rw [packed, Option.bind_some, roundTrips _ blob (.list valuesList written.numeric)
          (written.packed.symm.trans packed)] at unpacked
        exact (Option.some.inj unpacked).symm

end Row

section Accepted

variable {deployment : Deployment} {world : World} {run : Run} {msgId : MsgId} {fields : MessageFields}
  {Object : Type} {pydantic : Pydantic Object} {schema : FeatureSchema} {entityId : String}
  {values : List (String × Object)} {eventTimeNs : Int} {after : Consumer} {written : SharedMemory}

/-- The row that an accepted and applied message adds to its bucket. -/
theorem applied_row (reachable : Reachable deployment world) (live : world.run = some run)
    (roundTrips : deployment.externals.RoundTrips)
    (accepted : doWrite deployment.externals pydantic schema entityId values eventTimeNs = .ok fields)
    (returned : apply deployment.externals run.consumer world.shared msgId (some fields) =
      (.ok true, after, written)) :
    ∃ key row plan,
      RowOf deployment.externals deployment.schemas deployment.includeMsgId msgId fields key row ∧
      after.offline.Buffered key row ∧
      arrowPlanFor deployment.externals.hashName key.1 = .ok plan ∧ row.eventTimeNs = eventTimeNs ∧
      (key.1 = schema → ∀ entry ∈ plan.wireTypes.zip row.values,
        entry.1.converts deployment.externals entry.2 = true) := by
  obtain ⟨start, initial, steps⟩ := reachable
  have durable := (durable_of_steps initial.durable steps).run run live
  obtain ⟨held, same, key, row, rowOf, buffered⟩ := apply_true durable.sound returned
  obtain rfl := Option.some.inj same
  rw [durable.schemas, durable.included] at rowOf
  have afterSound : after.offline.Sound deployment.externals := by
    have frame := @apply_frame deployment.externals run.consumer world.shared msgId (some fields)
    rw [returned] at frame
    exact (frame.keeps durable.sound).1
  have stored := buffered
  obtain ⟨bucket, member, inside⟩ := stored
  obtain ⟨_, plan, planned, _⟩ := afterSound _ member
  obtain ⟨valuesList, accepted⟩ := doWrite_accepted accepted
  obtain ⟨time, unpacked⟩ := rowOf.accepted accepted roundTrips
  refine ⟨key, row, plan, rowOf, buffered, planned, time, ?_⟩
  rintro rfl entry paired
  rw [unpacked] at paired
  exact ((List.forall₂_iff_zip.mp (accepted.fits planned)).2 paired).2

/-- An accepted and applied message blocks every flush unless its times and its values fit. -/
theorem applied_converts_iff (reachable : Reachable deployment world) (live : world.run = some run)
    (roundTrips : deployment.externals.RoundTrips)
    (accepted : doWrite deployment.externals pydantic schema entityId values eventTimeNs = .ok fields)
    (returned : apply deployment.externals run.consumer world.shared msgId (some fields) =
      (.ok true, after, written)) :
    ∃ key row plan,
      RowOf deployment.externals deployment.schemas deployment.includeMsgId msgId fields key row ∧
      after.offline.Buffered key row ∧
      arrowPlanFor deployment.externals.hashName key.1 = .ok plan ∧
      (row.Converts deployment.externals plan ↔
        TimesFit deployment.includeMsgId eventTimeNs msgId ∧
        (key.1 ≠ schema → ∀ entry ∈ plan.wireTypes.zip row.values,
          entry.1.converts deployment.externals entry.2 = true)) ∧
      (¬ row.Converts deployment.externals plan → ∀ outcome,
        (after.offline.flush deployment.externals outcome).1 = false ∧
        (after.offline.flush deployment.externals outcome).2.1.Buffered key row) ∧
      ((after.offline.flush deployment.externals fun _ => .renamed).1 = true ↔
        after.offline.Convertible deployment.externals) := by
  obtain ⟨key, row, plan, rowOf, buffered, planned, time, features⟩ :=
    applied_row reachable live roundTrips accepted returned
  refine ⟨key, row, plan, rowOf, buffered, planned, ?_, flush_blocked buffered planned,
    flush_succeeds_iff⟩
  rw [rowOf.converts_iff, time]
  constructor
  · rintro ⟨fit, converted⟩
    exact ⟨fit, fun _ => converted⟩
  · rintro ⟨fit, others⟩
    refine ⟨fit, ?_⟩
    by_cases same : key.1 = schema
    · exact features same
    · exact others same

end Accepted

/-- The coercions on float objects. -/
def samplePydantic : Pydantic UInt64 where
  toFloat := some
  toInt := fun _ => none
  toList := fun _ => none

theorem sampleExternals_roundTrips : sampleExternals.RoundTrips := by
  intro value blob _ packed
  change samplePackb value = some blob at packed
  unfold samplePackb at packed
  split at packed
  · rename_i bits _
    rw [← sampleUnpackb_packb bits, samplePackb, packed]
    rfl
  · cases packed

/-- The producer accepts a sample write for every id that is not too long. -/
theorem sample_doWrite_for {entityId : String} (size : (encodeUtf8 entityId).length ≤ maxEntityIdBytes)
    (milliseconds : Nat) (bits : UInt64) {eventTimeNs : Int} {text : List UInt8}
    (printed : strInt eventTimeNs = some text) :
    doWrite sampleExternals samplePydantic sampleSchema entityId [("score", bits)] eventTimeNs =
      .ok { (sampleEntry milliseconds bits eventTimeNs).fields with
        entityId := some (encodeUtf8 entityId) } := by
  have order : fieldOrderFor sampleHash sampleSchema = .ok sampleSchema.fields := by
    simp [fieldOrderFor, compileSchema, sampleSchema, offsetRows, fieldByteOffsets]
  simp only [doWrite, show sampleExternals.hashName = sampleHash from rfl, order, bind, Except.bind]
  simp [sampleSchema, validateFields, validateField, validateScalar, DType.intRange, samplePydantic,
    bind, Except.bind, pure, Except.pure, sampleExternals, samplePackb, Nat.not_lt.mpr size, printed,
    sampleEntry]

/-- The producer accepts the sample write at every time that it can print. -/
theorem sample_doWrite (milliseconds : Nat) (bits : UInt64) {eventTimeNs : Int} {text : List UInt8}
    (printed : strInt eventTimeNs = some text) :
    doWrite sampleExternals samplePydantic sampleSchema "a" [("score", bits)] eventTimeNs =
      .ok (sampleEntry milliseconds bits eventTimeNs).fields :=
  sample_doWrite_for (by decide) milliseconds bits printed

/-- A sample write at the start of the epoch meets the condition. -/
theorem applied_converts_iff_sample :
    ∃ (after : Consumer) (key : BucketKey) (row : StoredRow) (plan : ArrowPlan),
      after.offline.Buffered key row ∧
      (row.Converts sampleExternals plan ↔ TimesFit true 0 (MsgId.of 1 0) ∧
        (key.1 ≠ sampleSchema → ∀ entry ∈ plan.wireTypes.zip row.values,
          entry.1.converts sampleExternals entry.2 = true)) := by
  obtain ⟨after, written, rowData, applied, _, _, _⟩ := sampleFirst_consumed
  have reached := reachable_of_plain sampleWorld_initial
    (plain_of_calm (sampleOffered_steps sampleFirst (by decide)))
  obtain ⟨key, row, plan, _, buffered, _, converts, _⟩ :=
    applied_converts_iff reached rfl sampleExternals_roundTrips
      (sample_doWrite 1 0x3ff0000000000000 (show strInt 0 = some [48] by decide)) applied.returned
  exact ⟨after, key, row, plan, buffered, converts⟩

/-- A write of the year 2286 is accepted and applied, and then every flush fails. -/
theorem accepted_blocks :
    ∃ (world : World) (run : Run) (fields : MessageFields) (after : Consumer) (written : SharedMemory),
      Reachable sampleDeployment world ∧ world.run = some run ∧
      doWrite sampleExternals samplePydantic sampleSchema "a" [("score", 0x3ff0000000000000)]
        (10 ^ 19) = .ok fields ∧
      apply sampleExternals run.consumer world.shared (MsgId.of 1 0) (some fields) =
        (.ok true, after, written) ∧
      ∃ key row plan, after.offline.Buffered key row ∧
        arrowPlanFor sampleHash key.1 = .ok plan ∧ ¬ row.Converts sampleExternals plan ∧
        ∀ outcome, (after.offline.flush sampleExternals outcome).1 = false := by
  obtain ⟨text, printed⟩ := Option.isSome_iff_exists.mp (show (strInt (10 ^ 19)).isSome = true by decide)
  obtain ⟨after, written, rowData, applied, _, _, _⟩ :=
    @sampleConsumed_steps 1 (by decide) (by decide) 0x3ff0000000000000 [0, 0, 0x80, 0x3f] (by decide)
      rfl (10 ^ 19) text printed (by decide)
  have reached := reachable_of_plain sampleWorld_initial
    (plain_of_calm
      (sampleOffered_steps (sampleEntry 1 0x3ff0000000000000 (10 ^ 19)) (by decide)))
  have accepted := sample_doWrite 1 0x3ff0000000000000 printed
  obtain ⟨key, row, plan, rowOf, buffered, planned, time, _⟩ :=
    applied_row reached rfl sampleExternals_roundTrips accepted applied.returned
  have refused : ¬ row.Converts sampleExternals plan := by
    intro converts
    have late := ((converts_int64 _ _).mp converts.eventTime).2
    rw [time] at late
    exact absurd late (by decide)
  exact ⟨_, _, _, after, written, reached, rfl, accepted, applied.returned, key, row, plan, buffered,
    planned, refused, fun outcome => (flush_blocked buffered planned refused outcome).1⟩

end Quorin
