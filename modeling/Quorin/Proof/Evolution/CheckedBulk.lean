import Quorin.Proof.Evolution.DeclaredTable
import Quorin.Proof.Segment.CheckedSlots

namespace Quorin

open ByteMemory CheckedArrays

/-- The shape of an Arrow string array: its offsets rise and end inside its values. -/
structure StringArray.WellFormed (array : StringArray) (length : Nat) : Prop where
  offsets : length + 1 ≤ array.offsets.length
  rising : ∀ row, row < length → array.offsets.getD row 0 ≤ array.offsets.getD (row + 1) 0
  values : array.offsets.getD length 0 ≤ array.values.length

/-- The prepared buffers have the lengths that the kernel relies on. -/
structure ColumnsInside (layout : SegmentLayout) (columns : InsertColumns) (count : Nat) : Prop where
  room : count ≤ layout.capacity
  hashes : columns.idHashes.length = count
  offsets : columns.idByteOffsets.length = count + 1
  rising : ∀ row, row < count →
    columns.idByteOffsets.getD row 0 ≤ columns.idByteOffsets.getD (row + 1) 0
  values : ∀ row, row < count →
    columns.idByteOffsets.getD (row + 1) 0 ≤ columns.encodedIdsConcat.length
  short : ∀ row, row < count →
    columns.idByteOffsets.getD (row + 1) 0 - columns.idByteOffsets.getD row 0 ≤ layout.maxIdBytes
  counts : columns.fieldByteCounts.length = columns.fieldByteOffsetsInRow.length
  starts : columns.fieldByteOffsetsInRow.length < columns.fieldDataStarts.length
  inRow : ∀ field, field < columns.fieldByteOffsetsInRow.length →
    columns.fieldByteOffsetsInRow.getD field 0 + columns.fieldByteCounts.getD field 0 ≤
      layout.rowSize
  data : ∀ row, row < count → ∀ field, field < columns.fieldByteOffsetsInRow.length →
    columns.fieldDataStarts.getD field 0 + row * columns.fieldByteCounts.getD field 0 +
      columns.fieldByteCounts.getD field 0 ≤ columns.fieldData.length

/-- The bytes of the id of one row. -/
def InsertColumns.idBytes (columns : InsertColumns) (row : Nat) : List UInt8 :=
  slice columns.encodedIdsConcat (columns.idByteOffsets.getD row 0)
    (columns.idByteOffsets.getD (row + 1) 0 - columns.idByteOffsets.getD row 0)

theorem slice_length {bytes : List UInt8} {start count : Nat}
    (inside : start + count ≤ bytes.length) : (slice bytes start count).length = count := by
  rw [slice, List.length_take, List.length_drop]
  omega

/-- Every offset of an Arrow string array is a position in its values. -/
theorem StringArray.WellFormed.ends {array : StringArray} {length : Nat}
    (shape : array.WellFormed length) (row : Nat) (inside : row ≤ length) :
    array.offsets.getD row 0 ≤ array.values.length := by
  have later : ∀ step, row + step ≤ length →
      array.offsets.getD row 0 ≤ array.offsets.getD (row + step) 0 := by
    intro step
    induction step with
    | zero => exact fun _ => Nat.le_refl _
    | succ step ih => exact fun below => (ih (by omega)).trans (shape.rising (row + step) below)
  have last := later (length - row) (by omega)
  rw [Nat.add_sub_cancel' inside] at last
  exact last.trans shape.values

/-- The cell of a row lies inside the part of its field. -/
theorem prefixSums_part {counts : List Nat} {rows row field : Nat} (present : field < counts.length)
    (inside : row < rows) :
    (prefixSums (counts.map (· * rows))).getD field 0 + row * counts.getD field 0 +
      counts.getD field 0 ≤ (counts.map (rows * ·)).sum := by
  have same : counts.map (rows * ·) = counts.map (· * rows) :=
    List.map_congr_left fun count _ => Nat.mul_comm rows count
  have bound : field < (counts.map (· * rows)).length := by rwa [List.length_map]
  have rest := List.sum_take_add_sum_drop (counts.map (· * rows)) (field + 1)
  have part : (row + 1) * counts[field] ≤ counts[field] * rows := by
    rw [Nat.mul_comm]
    exact Nat.mul_le_mul_left _ inside
  rw [List.sum_take_succ _ _ bound, List.getElem_map] at rest
  rw [same, prefixSums_getD _ bound.le, List.getD_eq_getElem?_getD,
    List.getElem?_eq_getElem present, Option.getD_some]
  rw [Nat.add_mul, Nat.one_mul] at part
  omega

section Kernel

variable {layout : SegmentLayout} (kernel : KernelLayout layout) {columns : InsertColumns}
  {count : Nat} (buffers : ColumnsInside layout columns count)

include buffers in
theorem ColumnsInside.idBytes_length {row : Nat} (inside : row < count) :
    (columns.idBytes row).length =
      columns.idByteOffsets.getD (row + 1) 0 - columns.idByteOffsets.getD row 0 := by
  have rising := buffers.rising row inside
  have values := buffers.values row inside
  exact slice_length (by omega)

include kernel in
/-- The checked probe of the kernel is the probe without checks, and it reports a vacant slot. -/
theorem checkedEmptySlot_ok (ε : Type) (memory : Memory) (fuel : Nat) {slot : Nat}
    (inside : slot < layout.slotCapacity) :
    ∃ found, checkedEmptySlot layout (layout.buffer memory) fuel slot = .ok found ∧
      (findEmptySlot layout fuel slot : Program ε (Option Nat)).trace memory = (.ok found, []) ∧
      (∀ index, found = some index →
        index < layout.slotCapacity ∧ slotFlags layout memory index = flagEmpty) ∧
      (found = none → ∀ step, step < fuel →
        slotFlags layout memory ((slot + step) % layout.slotCapacity) ≠ flagEmpty) := by
  induction fuel generalizing slot with
  | zero => exact ⟨none, rfl, rfl, by simp, by simp⟩
  | succ fuel ih =>
      rw [checkedEmptySlot, findEmptySlot,
        kernel.word_ok memory inside (by decide) (by decide) (by decide), ok_bind,
        Program.trace_readNat, show memory.readNat (layout.slotField slot slotFlagsOffset) 4 =
          slotFlags layout memory slot from rfl]
      by_cases vacant : slotFlags layout memory slot = flagEmpty
      · rw [if_pos vacant, if_pos vacant]
        refine ⟨some slot, rfl, rfl, ?_, by simp⟩
        intro index same
        rw [← Option.some.inj same]
        exact ⟨inside, vacant⟩
      · rw [if_neg vacant, if_neg vacant]
        obtain ⟨found, checked, traced, reported, crowded⟩ :=
          ih (nextIndex_inside kernel.sound slot)
        refine ⟨found, checked, traced, reported, ?_⟩
        intro none step below
        cases step with
        | zero => rwa [Nat.add_zero, Nat.mod_eq_of_lt inside]
        | succ step =>
            have later := crowded none step (by omega)
            rw [nextIndex, kernel.sound.mask_eq, Nat.mod_add_mod] at later
            rwa [Nat.add_assoc, Nat.add_comm 1 step] at later

include kernel buffers in
/-- The scatter of one field passes its checks. -/
theorem checkedCell_ok {row field : Nat} (inside : row < count)
    (present : field < columns.fieldByteOffsetsInRow.length) (memory : Memory) :
    checkedCell layout columns row (layout.buffer memory) field =
      .ok (layout.buffer (memory.write (cellWrite layout columns row field).address
        (cellWrite layout columns row field).bytes)) := by
  have starts := buffers.starts
  have inRow := buffers.inRow field present
  have data := buffers.data row inside field present
  have region := (kernel.sound.rowAddress_range (inside.trans_le buffers.room)).2
  unfold checkedCell
  rw [index_getD 0 present, ok_bind, index_getD 0 (by rw [buffers.counts]; exact present), ok_bind,
    index_getD 0 (starts.trans' present), ok_bind]
  dsimp only
  rw [range_ok data, ok_bind]
  apply Buffer.store_ok (slice_length data)
  simp only [SegmentLayout.buffer]
  omega

include kernel buffers in
theorem checkedCells_ok {row : Nat} (inside : row < count) (fields : List Nat)
    (present : ∀ field ∈ fields, field < columns.fieldByteOffsetsInRow.length) (memory : Memory) :
    fields.foldlM (checkedCell layout columns row) (layout.buffer memory) =
      .ok (layout.buffer (memory.applyAll (fields.map (cellWrite layout columns row)))) := by
  induction fields generalizing memory with
  | nil => rfl
  | cons field rest ih =>
      rw [List.foldlM_cons, checkedCell_ok kernel buffers inside (present field List.mem_cons_self),
        ok_bind, ih fun other later => present other (List.mem_cons_of_mem _ later)]
      rfl

include buffers in
/-- The cells of a row are written inside the row. -/
theorem ColumnsInside.rowWrites_inRow {row : Nat} :
    ∀ entry ∈ rowWrites layout columns row, InRow layout row entry := by
  intro entry member
  obtain ⟨field, listed, rfl⟩ := List.mem_map.mp member
  have inRow := buffers.inRow field (List.mem_range.mp listed)
  have bytes : (cellWrite layout columns row field).bytes.length ≤
      columns.fieldByteCounts.getD field 0 := by
    simp only [cellWrite, slice]
    exact List.length_take_le _ _
  constructor
  · exact Nat.le_add_right _ _
  · simp only [Write.last, cellWrite] at bytes ⊢
    omega

/-- The writes of the kernel for one row. -/
def kernelRowWrites (layout : SegmentLayout) (columns : InsertColumns) (hashValue : UInt64)
    (row slot poolCursor : Nat) : List Write :=
  recordPlan layout slot hashValue (columns.idBytes row) (rowWrites layout columns row) row
      poolCursor ++
    [⟨layout.slotField slot slotFlagsOffset, leBytes 4 flagOccupied⟩]

include buffers in
/-- The unchecked kernel performs the writes of a row. -/
theorem insertManyRow_kernel {ε : Type} {row : Nat} (inside : row < count) (slot poolCursor : Nat)
    (memory : Memory) :
    (insertManyRow layout columns row slot poolCursor : Program ε Nat).trace memory =
      (.ok (poolCursor + (lenPrefixBytes + (columns.idBytes row).length)),
        kernelRowWrites layout columns (columns.idHashes.getD row 0) row slot poolCursor) := by
  have length := buffers.idBytes_length inside
  have bytes : slice columns.encodedIdsConcat (columns.idByteOffsets.getD row 0)
      (columns.idBytes row).length = columns.idBytes row := by
    rw [length]
    rfl
  unfold insertManyRow
  simp only [← length, bytes, Program.trace_writeBytes,
    Program.trace_bind_ok (writeFields_trace layout columns row _ _)]
  simp [kernelRowWrites, recordPlan, rowWrites]

include kernel buffers in
/-- The writes of one row pass their checks. -/
theorem checkedInsertRow_ok {row slot poolCursor : Nat} (inside : row < count)
    (slotInside : slot < layout.slotCapacity)
    (fits : poolCursor + (lenPrefixBytes + (columns.idBytes row).length) ≤
      layout.stringPoolDataBytes) (hashValue : UInt64) (memory : Memory) :
    checkedInsertRow layout columns (layout.buffer memory) hashValue row slot poolCursor =
      .ok (poolCursor + (lenPrefixBytes + (columns.idBytes row).length),
        layout.buffer (memory.applyAll
          (kernelRowWrites layout columns hashValue row slot poolCursor))) := by
  have length := buffers.idBytes_length inside
  have offsets := buffers.offsets
  have rising := buffers.rising row inside
  have values := buffers.values row inside
  have pool := kernel.pool_inside
  have ids : range columns.encodedIdsConcat (columns.idByteOffsets.getD row 0)
      (columns.idByteOffsets.getD row 0 + (columns.idBytes row).length) =
        .ok (columns.idBytes row) := by
    rw [range_ok (by omega), length]
    rfl
  have entry : ∀ memory : Memory, (layout.buffer memory).storeUnaligned
      (layout.entryAddress poolCursor) lenPrefixBytes (columns.idBytes row).length =
        .ok (layout.buffer (memory.write (layout.entryAddress poolCursor)
          (leBytes 4 (columns.idBytes row).length))) := by
    intro memory
    apply Buffer.storeUnaligned_ok (by decide)
    simp only [SegmentLayout.buffer, SegmentLayout.entryAddress]
    omega
  have text : ∀ memory : Memory, (layout.buffer memory).store
      (layout.entryAddress poolCursor + lenPrefixBytes)
      (layout.entryAddress poolCursor + lenPrefixBytes + (columns.idBytes row).length)
      (columns.idBytes row) = .ok (layout.buffer (memory.write
        (layout.entryAddress poolCursor + lenPrefixBytes) (columns.idBytes row))) := by
    intro memory
    apply Buffer.store_ok rfl
    simp only [SegmentLayout.buffer, SegmentLayout.entryAddress]
    omega
  have cells := checkedCells_ok kernel buffers inside
    (List.range columns.fieldByteOffsetsInRow.length) fun field member => List.mem_range.mp member
  have words : ∀ (memory : Memory) (offset width value : Nat), width ∣ 8 → width ∣ offset →
      offset + width ≤ slotBytes →
      (layout.buffer memory).storeWord (layout.slotField slot offset) width value =
        .ok (layout.buffer (memory.write (layout.slotField slot offset) (leBytes width value))) :=
    fun memory offset width value power aligned bound =>
      kernel.storeWord_ok memory slotInside power aligned bound value
  unfold checkedInsertRow
  rw [index_getD 0 (by omega), ok_bind, index_getD 0 (by omega), ok_bind]
  dsimp only
  rw [← length, entry, ok_bind, ids, ok_bind, text, ok_bind, cells, ok_bind,
    words _ _ _ _ (by decide) (by decide) (by decide), ok_bind,
    words _ _ _ _ (by decide) (by decide) (by decide), ok_bind,
    words _ _ _ _ (by decide) (by decide) (by decide), ok_bind,
    words _ _ _ _ (by decide) (by decide) (by decide), ok_bind]
  simp only [kernelRowWrites, recordPlan, rowWrites, Memory.applyAll_append, Memory.applyAll_cons,
    List.cons_append, Memory.applyAll_nil]
  rfl

include kernel buffers in
/-- The kernel finds a vacant slot for every row, passes its checks and keeps the bounds. -/
theorem checkedInsertManyCore_ok (ε : Type) (remaining : Nat) {row poolCursor : Nat}
    {memory : Memory} (within : SlotsInside layout memory row poolCursor)
    (total : row + remaining = count) :
    ∃ (writes : List Write) (last : Nat),
      checkedInsertManyCore layout columns remaining row poolCursor (layout.buffer memory) =
        .ok ((last : Int), layout.buffer (memory.applyAll writes)) ∧
      (insertManyCore layout columns remaining row poolCursor : Program ε Int).trace memory =
        (.ok (last : Int), writes) ∧
      SlotsInside layout (memory.applyAll writes) count last := by
  induction remaining generalizing row poolCursor memory with
  | zero =>
      obtain rfl : row = count := total
      exact ⟨[], poolCursor, rfl, rfl, within⟩
  | succ remaining ih =>
      have inside : row < count := by omega
      have free := inside.trans_le buffers.room
      have short : (columns.idBytes row).length ≤ layout.maxIdBytes := by
        rw [buffers.idBytes_length inside]
        exact buffers.short row inside
      have fits := (kernel.sound.pool_room free within.cursorBound short).2
      have start := homeIndex_inside kernel.sound (columns.idHashes.getD row 0)
      obtain ⟨found, checked, traced, reported, crowded⟩ := checkedEmptySlot_ok kernel ε memory
        layout.slotCapacity start
      cases found with
      | none =>
          -- The walk would have passed the vacant slot that the bounds leave.
          obtain ⟨vacant, vacantInside, flags⟩ := within.vacant kernel.sound
          obtain ⟨step, below, place⟩ := LinearProbe.turn_surjective
            (homeIndex layout (columns.idHashes.getD row 0)) vacantInside
          exact absurd (place ▸ flags) (crowded rfl step below)
      | some slot =>
          obtain ⟨slotInside, vacant⟩ := reported slot rfl
          have kept := within.record kernel.sound slotInside vacant free short
            (columns.idHashes.getD row 0) buffers.rowWrites_inRow
          obtain ⟨writes, last, checkedRest, tracedRest, complete⟩ := ih kept (by omega)
          refine ⟨kernelRowWrites layout columns (columns.idHashes.getD row 0) row slot poolCursor ++
            writes, last, ?_, ?_, ?_⟩
          · rw [checkedInsertManyCore, index_getD 0 (by rw [buffers.hashes]; exact inside), ok_bind,
              checked, ok_bind]
            dsimp only
            rw [checkedInsertRow_ok kernel buffers inside slotInside fits, ok_bind,
              Memory.applyAll_append]
            exact checkedRest
          · rw [insertManyCore, Program.trace_bind_reads traced]
            dsimp only
            rw [Program.trace_bind_ok (insertManyRow_kernel buffers inside slot poolCursor memory)]
            rw [show memory.applyAll (kernelRowWrites layout columns (columns.idHashes.getD row 0) row
              slot poolCursor) = memory.applyAll (recordPlan layout slot (columns.idHashes.getD row 0)
              (columns.idBytes row) (rowWrites layout columns row) row poolCursor ++
              [⟨layout.slotField slot slotFlagsOffset, leBytes 4 flagOccupied⟩]) from rfl, tracedRest]
          · rw [Memory.applyAll_append]
            exact complete

end Kernel

section Prepared

variable {hashName : String → UInt64} {hashId : List UInt8 → UInt64}
  {castBits : DType → DType → Nat → Nat} {schema : FeatureSchema} {layout : SegmentLayout}
  {table : ArrowTable}

/-- An extracted column has the bytes of its field for every row. -/
theorem extractFieldToNumpy_length {length byteCount : Nat} {column : ArrowColumn}
    {field : FeatureField} {flat : List UInt8}
    (extracted : extractFieldToNumpy castBits length column field byteCount = .ok flat) :
    flat.length = length * byteCount := by
  unfold extractFieldToNumpy at extracted
  dsimp only at extracted
  split at extracted
  · cases extracted
  · cases column with
    | texts array =>
        dsimp only at extracted
        split at extracted
        · cases extracted
        · cases extracted
    | values depth dtype rows =>
        dsimp only at extracted
        split at extracted
        · cases extracted
        · split at extracted
          · cases extracted
          · split at extracted
            · rename_i sized
              rw [← Except.ok.inj extracted, sized]
            · cases extracted

theorem extractFields_lengths {fields : List FeatureField} {counts : List Nat}
    {flats : List (List UInt8)} (same : counts.length = fields.length)
    (extracted : extractFields castBits table fields counts = .ok flats) :
    flats.map List.length = counts.map (table.length * ·) := by
  induction fields generalizing counts flats with
  | nil =>
      rw [List.length_eq_zero_iff.mp same]
      rw [← Except.ok.inj extracted]
      rfl
  | cons field rest ih =>
      cases counts with
      | nil => cases same
      | cons count counts =>
          unfold extractFields at extracted
          simp only [List.headD_cons, List.tail_cons] at extracted
          cases first : extractFieldToNumpy castBits table.length
              ((table.columns.lookup field.name).getD (.values 0 field.dtype [])) field count with
          | error error =>
              rw [first] at extracted
              cases extracted
          | ok flat =>
              cases others : extractFields castBits table rest counts with
              | error error =>
                  rw [first, others] at extracted
                  cases extracted
              | ok later =>
                  rw [first, others] at extracted
                  rw [← Except.ok.inj extracted, List.map_cons, List.map_cons,
                    extractFieldToNumpy_length first, ih (Nat.succ.inj same) others]

/-- A column that is prepared comes from an Arrow string array and the columns of the fields. -/
theorem prepareInsertColumns_ok {columns : InsertColumns}
    (prepared : prepareInsertColumns hashId castBits table schema layout = .ok columns) :
    ∃ array flats, table.columns.lookup "entity_id" = some (.texts array) ∧
      extractFields castBits table schema.fields (layout.assemblyTable.map OffsetRow.byteCount) =
        .ok flats ∧
      columns.idHashes.length = table.length ∧
      columns.idByteOffsets = array.offsets.take (table.length + 1) ∧
      columns.encodedIdsConcat = array.values ∧
      columns.fieldByteOffsetsInRow = layout.assemblyTable.map OffsetRow.byteOffset ∧
      columns.fieldByteCounts = layout.assemblyTable.map OffsetRow.byteCount ∧
      columns.fieldDataStarts = prefixSums (columns.fieldByteCounts.map (· * table.length)) ∧
      columns.fieldData = flats.flatten := by
  unfold prepareInsertColumns at prepared
  cases entityIds : table.columns.lookup "entity_id" with
  | none =>
      rw [entityIds] at prepared
      cases prepared
  | some column =>
      rw [entityIds] at prepared
      dsimp only at prepared
      split at prepared
      · cases prepared
      · cases column with
        | values depth dtype rows => cases prepared
        | texts array =>
            cases extracted : extractFields castBits table schema.fields
                (layout.assemblyTable.map OffsetRow.byteCount) with
            | error error =>
                simp only [extracted] at prepared
                cases prepared
            | ok flats =>
                simp only [extracted] at prepared
                rw [← Except.ok.inj prepared]
                exact ⟨array, flats, rfl, rfl, by simp, rfl, rfl, rfl, rfl, rfl, rfl⟩

/-- The prepared buffers of an accepted table suit the kernel. -/
theorem prepareInsertColumns_inside {capacity maxIdBytes : Int}
    (computed : computeLayout hashName schema capacity maxIdBytes = .ok layout)
    {columns : InsertColumns}
    (prepared : prepareInsertColumns hashId castBits table schema layout = .ok columns)
    (arrow : ∀ array, table.columns.lookup "entity_id" = some (.texts array) →
      array.WellFormed table.length)
    (room : table.length ≤ layout.capacity)
    (short : ((List.range table.length).map fun row => columns.idByteOffsets.getD (row + 1) 0 -
      columns.idByteOffsets.getD row 0).max?.getD 0 ≤ layout.maxIdBytes) :
    ColumnsInside layout columns table.length := by
  obtain ⟨array, flats, column, extracted, hashes, offsets, values, places, counts, starts, data⟩ :=
    prepareInsertColumns_ok prepared
  have shape := arrow array column
  have kernel := computeLayout_kernel computed
  have assembly := (computeLayout_parts computed).2.2.1
  have taken : ∀ row, row ≤ table.length →
      columns.idByteOffsets.getD row 0 = array.offsets.getD row 0 := by
    intro row below
    rw [offsets, List.getD_eq_getElem?_getD, List.getElem?_take, if_pos (Nat.lt_succ_of_le below),
      ← List.getD_eq_getElem?_getD]
  have fields : (layout.assemblyTable.map OffsetRow.byteCount).length = schema.fields.length := by
    rw [assembly, List.length_map, computeAssemblyTable, offsetRows_length]
  have ends := shape.ends
  constructor
  · exact room
  · exact hashes
  · rw [offsets, List.length_take, Nat.min_eq_left shape.offsets]
  · intro row inside
    rw [taken row (by omega), taken (row + 1) inside]
    exact shape.rising row inside
  · intro row inside
    rw [taken (row + 1) inside, values]
    exact ends (row + 1) inside
  · intro row inside
    refine le_trans ?_ short
    exact List.le_max?_getD_of_mem (List.mem_map.mpr ⟨row, List.mem_range.mpr inside, rfl⟩)
  · rw [counts, places, List.length_map, List.length_map]
  · rw [starts, places]
    simp [prefixSums, counts]
  · intro field present
    rw [places, List.length_map] at present
    have column : ∀ value : OffsetRow → Nat, (layout.assemblyTable.map value).getD field 0 =
        value layout.assemblyTable[field] := by
      intro value
      rw [List.getD_eq_getElem?_getD, List.getElem?_map, List.getElem?_eq_getElem present]
      rfl
    rw [places, counts, column, column]
    exact kernel.fieldInside _ (List.getElem_mem present)
  · intro row inside field present
    rw [places, List.length_map, ← List.length_map OffsetRow.byteCount, ← counts] at present
    have total := congrArg List.sum (extractFields_lengths fields extracted)
    rw [← counts, ← List.length_flatten, ← data] at total
    rw [starts, total]
    exact prefixSums_part present inside

/-- The write of both cursors makes them the bounds of the slots. -/
theorem SlotsInside.writeMetadata (sound : LayoutSound layout) {memory : Memory} {rows cursor : Nat}
    (within : SlotsInside layout memory rows cursor) :
    WithinCursors layout
      (memory.write metadataOffset (leBytes 8 rows ++ leBytes 8 cursor)) := by
  have capacity := sound.capacityBound
  have bound := within.rowsBound
  have used := within.pool sound
  have poolEnd := sound.poolEnd
  have rowsEnd := sound.rowsEnd
  have total := sound.totalBound
  have fits : 2 ^ 36 < 256 ^ 8 := by norm_num
  obtain ⟨rowsRead, cursorRead⟩ := @writeCursors memory rows cursor (by omega) (by omega)
  unfold WithinCursors
  rw [rowsRead, cursorRead]
  exact within.same (Agree.write_outside sound memory (Or.inl (by
    simp [metadataOffset, dataRegionOffset])))

/-- Every access of `insert_many` passes its check, and the call keeps the bounds of the slots. -/
theorem checkedInsertMany_ok {capacity maxIdBytes : Int}
    (computed : computeLayout hashName schema capacity maxIdBytes = .ok layout) {memory : Memory}
    (within : WithinCursors layout memory)
    (arrow : ∀ array, table.columns.lookup "entity_id" = some (.texts array) →
      array.WellFormed table.length) :
    checkedInsertMany layout hashId castBits schema (layout.buffer memory) table =
        .ok ((insertMany hashId castBits schema layout table).run memory) ∧
      WithinCursors layout ((insertMany hashId castBits schema layout table).run memory).2 := by
  have kernel := computeLayout_kernel computed
  unfold checkedInsertMany insertMany
  by_cases empty : table.length = 0
  · rw [if_pos empty, if_pos empty]
    exact ⟨rfl, within⟩
  rw [if_neg empty, if_neg empty, Program.run, Program.result, Program.writes,
    Program.trace_bind_reads (readMetadata_trace memory)]
  dsimp only [SegmentLayout.buffer]
  rw [show memory.readNat metadataOffset 8 = nextFreeRow memory from rfl,
    show memory.readNat (metadataOffset + 8) 8 = stringPoolCursor memory from rfl]
  by_cases used : nextFreeRow memory ≠ 0 ∨ stringPoolCursor memory ≠ 0
  · rw [if_pos used, if_pos used]
    exact ⟨rfl, within⟩
  rw [if_neg used, if_neg used]
  by_cases full : table.length > layout.capacity
  · rw [if_pos full, if_pos full]
    exact ⟨rfl, within⟩
  rw [if_neg full, if_neg full]
  cases prepared : prepareInsertColumns hashId castBits table schema layout with
  | error error => exact ⟨rfl, within⟩
  | ok columns =>
      dsimp only
      by_cases long : ((List.range table.length).map fun row =>
          columns.idByteOffsets.getD (row + 1) 0 - columns.idByteOffsets.getD row 0).max?.getD 0 >
            layout.maxIdBytes
      · rw [if_pos long, if_pos long]
        exact ⟨rfl, within⟩
      rw [if_neg long, if_neg long]
      by_cases large : columns.idByteOffsets.getLastD 0 + table.length * lenPrefixBytes >
          layout.stringPoolDataBytes
      · rw [if_pos large, if_pos large]
        exact ⟨rfl, within⟩
      rw [if_neg large, if_neg large]
      have buffers := prepareInsertColumns_inside computed prepared arrow (Nat.le_of_not_lt full)
        (Nat.le_of_not_lt long)
      have fresh : SlotsInside layout memory 0 0 := by
        rw [WithinCursors] at within
        rwa [show nextFreeRow memory = 0 by omega, show stringPoolCursor memory = 0 by omega] at within
      obtain ⟨writes, last, checked, traced, complete⟩ := checkedInsertManyCore_ok kernel buffers
        InsertManyError table.length fresh (Nat.zero_add _)
      rw [buffers.offsets, Nat.add_sub_cancel, show (⟨memory, layout.totalSize⟩ : Buffer) =
        layout.buffer memory from rfl, checked, Program.trace_bind_ok traced]
      have written := complete.writeMetadata kernel.sound
      rw [ok_bind]
      dsimp only
      rw [if_neg (by omega), if_neg (by omega), Int.toNat_natCast]
      rw [Memory.applyAll_append]
      exact ⟨rfl, written⟩

end Prepared

end Quorin
