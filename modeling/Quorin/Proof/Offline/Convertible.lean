import Quorin.Proof.Offline.Conservation

namespace Quorin

/-- Every value of a row fits the Arrow type of its column. -/
structure StoredRow.Converts (externals : Externals) (plan : ArrowPlan) (row : StoredRow) : Prop where
  eventTime : (ArrowType.leaf .int64).converts externals (.int row.eventTimeNs) = true
  values : ∀ entry ∈ plan.wireTypes.zip row.values, entry.1.converts externals entry.2 = true
  msgId : ∀ ids, row.msgId = some ids →
    (ArrowType.leaf .int64).converts externals (.int ids.1) = true ∧
      (ArrowType.leaf .int32).converts externals (.int ids.2) = true

/-- A list satisfies a test when it does at every position. -/
theorem all_iff_getD {α : Type} (xs : List α) (default : α) (test : α → Bool) :
    xs.all test = true ↔ ∀ index < xs.length, test (xs.getD index default) = true := by
  rw [List.all_eq_true, List.forall_mem_iff_forall_getElem]
  constructor
  · intro held index inside
    simpa [List.getD_eq_getElem?_getD, inside] using held index inside
  · intro held index inside
    simpa [List.getD_eq_getElem?_getD, inside] using held index inside

section Bucket

variable {externals : Externals} {plan : ArrowPlan} (bucket : Bucket)

/-- The columns convert when the values of every position do. -/
theorem wireLists_convert :
    (plan.wireTypes.zip bucket.wireLists).all
        (fun entry => entry.2.all (entry.1.converts externals)) = true ↔
      ∀ index < bucket.entityIdCol.length,
        ∀ entry ∈ plan.wireTypes.zip (bucket.wireLists.map fun column => column.getD index .nil),
          entry.1.converts externals entry.2 = true := by
  rw [List.all_eq_true]
  constructor
  · intro held index inside entry member
    rw [List.zip_map_right, List.mem_map] at member
    obtain ⟨column, stored, rfl⟩ := member
    have size := bucket.listsAligned column.2 (List.of_mem_zip stored).2
    exact (all_iff_getD column.2 .nil _).mp (held column stored) index (by rw [size]; exact inside)
  · intro held column stored
    have size := bucket.listsAligned column.2 (List.of_mem_zip stored).2
    rw [all_iff_getD column.2 .nil]
    intro index inside
    refine held index (by rw [← size]; exact inside) (column.1, column.2.getD index .nil) ?_
    rw [List.zip_map_right, List.mem_map]
    exact ⟨column, stored, rfl⟩

/-- The table conversion of a bucket succeeds when every row converts. -/
theorem fromPydict_iff_rows :
    bucket.fromPydict externals plan = true ↔
      ∀ row ∈ bucket.rows, row.Converts externals plan := by
  have rows : (∀ row ∈ bucket.rows, row.Converts externals plan) ↔
      ∀ index < bucket.entityIdCol.length, (bucket.row index).Converts externals plan := by
    simp [Bucket.rows]
  rw [rows, Bucket.fromPydict, Bool.and_eq_true, Bool.and_eq_true, wireLists_convert,
    all_iff_getD _ 0, bucket.timesAligned]
  constructor
  · rintro ⟨⟨times, columns⟩, ids⟩ index inside
    refine ⟨times index inside, columns index inside, ?_⟩
    intro pair stored
    obtain ⟨held, present, rfl⟩ := Option.map_eq_some_iff.mp stored
    obtain ⟨firstSize, secondSize⟩ := bucket.idsAligned held present
    simp only [present, Bool.and_eq_true] at ids
    exact ⟨(all_iff_getD held.1 0 _).mp ids.1 index (by rw [firstSize]; exact inside),
      (all_iff_getD held.2 0 _).mp ids.2 index (by rw [secondSize]; exact inside)⟩
  · intro held
    refine ⟨⟨fun index inside => (held index inside).eventTime,
      fun index inside => (held index inside).values⟩, ?_⟩
    cases present : bucket.msgIdCols with
    | none => rfl
    | some columns =>
        obtain ⟨firstSize, secondSize⟩ := bucket.idsAligned columns present
        have pair : ∀ index < bucket.entityIdCol.length,
            (ArrowType.leaf .int64).converts externals (.int (columns.1.getD index 0)) = true ∧
            (ArrowType.leaf .int32).converts externals (.int (columns.2.getD index 0)) = true := by
          intro index inside
          exact (held index inside).msgId (columns.1.getD index 0, columns.2.getD index 0)
            (by rw [Bucket.row, present]; rfl)
        dsimp only
        rw [Bool.and_eq_true, all_iff_getD columns.1 0, all_iff_getD columns.2 0, firstSize, secondSize]
        exact ⟨fun index inside => (pair index inside).1, fun index inside => (pair index inside).2⟩

end Bucket

section Flush

variable {externals : Externals}

/-- Every sealed bucket was converted. -/
theorem flushLoop_converted (outcome : BucketKey → WriteOutcome)
    (snapshot : List (BucketKey × Bucket)) :
    ∀ file ∈ (flushLoop externals outcome snapshot).1, ∃ plan,
      arrowPlanFor externals.hashName file.key.1 = .ok plan ∧
      file.bucket.fromPydict externals plan = true := by
  induction snapshot with
  | nil =>
      intro file member
      cases member
  | cons first rest ih =>
      obtain ⟨key, bucket⟩ := first
      intro file member
      unfold flushLoop at member
      split at member
      · cases member
      · rename_i plan planned
        split at member
        · rename_i converted
          split at member
          · cases member
          · obtain rfl := List.mem_singleton.mp member
            exact ⟨plan, planned, converted⟩
          · rcases List.mem_cons.mp member with rfl | later
            · exact ⟨plan, planned, converted⟩
            · exact ih file later
        · cases member

/-- Without a failure of the file system the loop ends when every bucket converts. -/
theorem flushLoop_finished (snapshot : List (BucketKey × Bucket)) :
    (flushLoop externals (fun _ => .renamed) snapshot).2.2 = true ↔
      ∀ entry ∈ snapshot, ∃ plan, arrowPlanFor externals.hashName entry.1.1 = .ok plan ∧
        entry.2.fromPydict externals plan = true := by
  induction snapshot with
  | nil => simp [flushLoop]
  | cons first rest ih =>
      obtain ⟨key, bucket⟩ := first
      rw [List.forall_mem_cons, ← ih]
      conv_lhs => unfold flushLoop
      cases planned : arrowPlanFor externals.hashName key.1 with
      | error error => simp
      | ok plan =>
          by_cases converted : bucket.fromPydict externals plan = true
          · simp [converted]
          · simp [converted]

variable {store : OfflineStore}

/-- Every buffered row has an Arrow plan and fits its columns. -/
def OfflineStore.Convertible (externals : Externals) (store : OfflineStore) : Prop :=
  ∀ key row, store.Buffered key row → ∃ plan,
    arrowPlanFor externals.hashName key.1 = .ok plan ∧ row.Converts externals plan

/-- An append of a row that converts keeps the store convertible. -/
theorem append_convertible (sound : store.Sound externals) (before : store.Convertible externals)
    {schema : FeatureSchema} {plan : ArrowPlan}
    (planned : arrowPlanFor externals.hashName schema = .ok plan) {eventTimeNs : Int}
    (time : (ArrowType.leaf .int64).converts externals (.int eventTimeNs) = true)
    {values : List WireValue}
    (fits : ∀ entry ∈ plan.wireTypes.zip values, entry.1.converts externals entry.2 = true)
    {msgId : List UInt8} (ids : ∀ (bucket : Bucket) parsed, bucket.msgIdCols.isSome = true →
      parseMsgId bucket msgId = .ok parsed →
        (ArrowType.leaf .int64).converts externals (.int parsed.1) = true ∧
        (ArrowType.leaf .int32).converts externals (.int parsed.2) = true) (entityId : String) :
    (store.append externals schema entityId eventTimeNs values msgId).2.Convertible externals := by
  intro key row buffered
  rcases append_origin sound buffered with earlier | ⟨rfl, rfl, rfl, stamped⟩
  · exact before key row earlier
  · refine ⟨plan, planned, time, fits, ?_⟩
    intro pair stored
    obtain ⟨bucket, present, parsed⟩ := stamped pair stored
    exact ids bucket pair present parsed

/-- A flush without a failure of the file system succeeds when every buffered row converts. -/
theorem flush_succeeds_iff :
    (store.flush externals (fun _ => .renamed)).1 = true ↔ store.Convertible externals := by
  have finished := @flushLoop_finished externals
    (store.buffers.filter fun entry => entry.2.entityIdCol ≠ [])
  constructor
  · rintro succeeded key row ⟨bucket, member, inside⟩
    have nonempty : bucket.entityIdCol ≠ [] := by
      intro empty
      rw [rows_of_empty empty] at inside
      cases inside
    obtain ⟨plan, planned, converted⟩ := finished.mp succeeded (key, bucket)
      (List.mem_filter.mpr ⟨member, by simpa using nonempty⟩)
    exact ⟨plan, planned, (fromPydict_iff_rows bucket).mp converted row inside⟩
  · intro convertible
    apply finished.mpr
    intro entry member
    obtain ⟨stored, nonempty⟩ := List.mem_filter.mp member
    have size : 0 < entry.2.entityIdCol.length := by
      rw [List.length_pos_iff]
      simpa using nonempty
    have first : entry.2.row 0 ∈ entry.2.rows :=
      List.mem_map.mpr ⟨0, List.mem_range.mpr size, rfl⟩
    obtain ⟨plan, planned, _⟩ := convertible entry.1 (entry.2.row 0) ⟨entry.2, stored, first⟩
    refine ⟨plan, planned, (fromPydict_iff_rows entry.2).mpr ?_⟩
    intro row inside
    obtain ⟨other, same, converts⟩ := convertible entry.1 row ⟨entry.2, stored, inside⟩
    rw [planned] at same
    obtain rfl := Except.ok.inj same
    exact converts

/-- A flush of a buffered row fails when every write of a table raises. -/
theorem flush_fails {key : BucketKey} {row : StoredRow} (buffered : store.Buffered key row) :
    (store.flush externals fun _ => .raisedBefore).1 = false := by
  obtain ⟨bucket, member, inside⟩ := buffered
  have nonempty : bucket.entityIdCol ≠ [] := by
    intro empty
    rw [rows_of_empty empty] at inside
    cases inside
  have listed : (key, bucket) ∈ store.buffers.filter fun entry => entry.2.entityIdCol ≠ [] :=
    List.mem_filter.mpr ⟨member, by simpa using nonempty⟩
  have stops : ∀ entries : List (BucketKey × Bucket), entries ≠ [] →
      (flushLoop externals (fun _ => .raisedBefore) entries).2.2 = false := by
    intro entries some
    cases entries with
    | nil => exact absurd rfl some
    | cons entry rest =>
        unfold flushLoop
        split
        · rfl
        · split
          · rfl
          · rfl
  exact stops _ (List.ne_nil_of_mem listed)

/-- A flush leaves no row behind that was not buffered before. -/
theorem flush_convertible (convertible : store.Convertible externals)
    (outcome : BucketKey → WriteOutcome) :
    (store.flush externals outcome).2.1.Convertible externals := by
  rintro key row ⟨bucket, member, inside⟩
  refine convertible key row ⟨bucket, ?_, inside⟩
  unfold OfflineStore.flush at member
  dsimp only at member
  split at member
  · cases member
  · exact List.mem_of_mem_filter (List.mem_of_mem_filter member)

/-- A row that does not convert makes every flush fail and stays buffered. -/
theorem flush_blocked {key : BucketKey} {row : StoredRow} (buffered : store.Buffered key row)
    {plan : ArrowPlan} (planned : arrowPlanFor externals.hashName key.1 = .ok plan)
    (refused : ¬ row.Converts externals plan) (outcome : BucketKey → WriteOutcome) :
    (store.flush externals outcome).1 = false ∧
      (store.flush externals outcome).2.1.Buffered key row := by
  rcases flush_conserves outcome buffered with ⟨file, member, same, inside⟩ | kept
  · obtain ⟨other, otherPlan, converted⟩ := flushLoop_converted outcome _ file member
    rw [same, planned] at otherPlan
    obtain rfl := Except.ok.inj otherPlan
    exact absurd ((fromPydict_iff_rows file.bucket).mp converted row inside) refused
  · exact kept

end Flush

end Quorin
