import Quorin.Construction.InsertMany
import Quorin.Proof.Segment.Histories
import Mathlib.Algebra.Order.BigOperators.Group.List

namespace Quorin

open ByteMemory LinearProbe

/-- The write of one field of one row. -/
def cellWrite (layout : SegmentLayout) (columns : InsertColumns) (row field : Nat) : Write :=
  ⟨layout.rowAddress row + columns.fieldByteOffsetsInRow.getD field 0,
    slice columns.fieldData
      (columns.fieldDataStarts.getD field 0 + row * columns.fieldByteCounts.getD field 0)
      (columns.fieldByteCounts.getD field 0)⟩

/-- The writes of all fields of one row. -/
def rowWrites (layout : SegmentLayout) (columns : InsertColumns) (row : Nat) : List Write :=
  (List.range columns.fieldByteOffsetsInRow.length).map (cellWrite layout columns row)

/-- The buffers describe the given ids, and their fields are disjoint parts of a row. -/
structure ColumnsSound (hashId : List UInt8 → UInt64) (layout : SegmentLayout)
    (columns : InsertColumns) (ids : List String) : Prop where
  hash : ∀ row, row < ids.length →
    columns.idHashes.getD row 0 = hashId (encodeUtf8 (ids.getD row ""))
  length : ∀ row, row < ids.length →
    columns.idByteOffsets.getD (row + 1) 0 - columns.idByteOffsets.getD row 0 =
      (encodeUtf8 (ids.getD row "")).length
  bytes : ∀ row, row < ids.length →
    slice columns.encodedIdsConcat (columns.idByteOffsets.getD row 0)
      (encodeUtf8 (ids.getD row "")).length = encodeUtf8 (ids.getD row "")
  inRow : ∀ row field, field < columns.fieldByteOffsetsInRow.length →
    InRow layout row (cellWrite layout columns row field)
  apart : ∀ row first second, first < second → second < columns.fieldByteOffsetsInRow.length →
    (cellWrite layout columns row first).last ≤ (cellWrite layout columns row second).address
  total : columns.idByteOffsets.getLastD 0 =
    (ids.map fun entityId => (encodeUtf8 entityId).length).sum
  distinct : ids.Nodup
  named : ∀ entityId ∈ ids, entityId ≠ ""
  short : ∀ entityId ∈ ids, (encodeUtf8 entityId).length ≤ layout.maxIdBytes

theorem writeFields_trace {ε : Type} (layout : SegmentLayout) (columns : InsertColumns) (row : Nat)
    (fields : List Nat) (memory : Memory) :
    (writeFields layout columns row fields : Program ε Unit).trace memory =
      (.ok (), fields.map (cellWrite layout columns row)) := by
  induction fields generalizing memory with
  | nil => rfl
  | cons field rest ih =>
      simp only [writeFields, Program.trace_writeBytes, ih]
      rfl

/-- The memory after the first rows of a bulk insert. -/
structure Loaded (hashId : List UInt8 → UInt64) (layout : SegmentLayout) (columns : InsertColumns)
    (ids : List String) (memory : Memory) (rows cursor : Nat) : Prop where
  invariant : SegmentInvariant hashId layout memory rows cursor
  stored : ∀ row, row < rows → ∃ index, index < layout.slotCapacity ∧
    slotKey layout memory index = some (encodeUtf8 (ids.getD row "")) ∧
    slotRow layout memory index = row
  only : ∀ index, index < layout.slotCapacity → ∀ key, slotKey layout memory index = some key →
    ∃ row, row < rows ∧ key = encodeUtf8 (ids.getD row "")
  cells : ∀ row, row < rows → ∀ field, field < columns.fieldByteOffsetsInRow.length →
    memory.read (cellWrite layout columns row field).address
      (cellWrite layout columns row field).bytes.length = (cellWrite layout columns row field).bytes

section Kernel

variable {ε : Type} {hashId : List UInt8 → UInt64} {layout : SegmentLayout}
  (sound : LayoutSound layout) {columns : InsertColumns} {ids : List String}
  (prepared : ColumnsSound hashId layout columns ids)

/-- The probe of the kernel stops where the probe of an absent id stops. -/
theorem findEmptySlot_trace (sound : LayoutSound layout) {memory : Memory} {rows cursor : Nat}
    (invariant : SegmentInvariant hashId layout memory rows cursor) {key : List UInt8}
    (absent : ∀ index, index < layout.slotCapacity → slotKey layout memory index ≠ some key)
    (fuel : Nat) {index : Nat} (inside : index < layout.slotCapacity) :
    (findEmptySlot layout fuel index : Program ε (Option Nat)).trace memory =
      (.ok (match probe layout.slotCapacity (slotKey layout memory) key fuel index with
        | .vacant found => some found
        | .hit _ => none
        | .exhausted => none), []) := by
  induction fuel generalizing index with
  | zero => rfl
  | succ fuel ih =>
      rw [findEmptySlot, Program.trace_readNat, probe,
        show memory.readNat (layout.slotField index slotFlagsOffset) 4 =
          slotFlags layout memory index from rfl]
      cases stored : slotKey layout memory index with
      | none =>
          rw [if_pos ((invariant.slotKey_eq_none inside).mp stored)]
          rfl
      | some other =>
          have nonempty : ¬ slotFlags layout memory index = flagEmpty := by
            rw [(slotKey_eq_some.mp stored).1]
            decide
          have different : other ≠ key := by
            intro same
            rw [same] at stored
            exact absent index inside stored
          rw [if_neg nonempty, nextIndex, sound.mask_eq]
          simp only [if_neg different]
          exact ih (Nat.mod_lt _ sound.slotCapacity_pos)

include prepared in
/-- The writes of one row are the record of its entity and the flags. -/
theorem insertManyRow_trace {row : Nat} (inside : row < ids.length) (index cursor : Nat)
    (memory : Memory) :
    (insertManyRow layout columns row index cursor : Program ε Nat).trace memory =
      (.ok (cursor + (lenPrefixBytes + (encodeUtf8 (ids.getD row "")).length)),
        recordPlan layout index (hashId (encodeUtf8 (ids.getD row "")))
          (encodeUtf8 (ids.getD row "")) (rowWrites layout columns row) row cursor ++
        [⟨layout.slotField index slotFlagsOffset, leBytes 4 flagOccupied⟩]) := by
  unfold insertManyRow
  simp only [prepared.hash row inside, prepared.length row inside, prepared.bytes row inside,
    Program.trace_writeBytes, Program.trace_bind_ok (writeFields_trace layout columns row _ _)]
  simp [recordPlan, rowWrites]

include prepared in
theorem rowWrites_inRow (row : Nat) :
    ∀ entry ∈ rowWrites layout columns row, InRow layout row entry := by
  intro entry member
  obtain ⟨field, bound, rfl⟩ := List.mem_map.mp member
  exact prepared.inRow row field (List.mem_range.mp bound)

include prepared in
/-- Each field of a row splits the row writes into writes before it and disjoint writes behind it. -/
theorem rowWrites_split (row : Nat) {field : Nat}
    (bound : field < columns.fieldByteOffsetsInRow.length) :
    ∃ before after, rowWrites layout columns row =
        before ++ cellWrite layout columns row field :: after ∧
      ∀ other ∈ after, (cellWrite layout columns row field).last ≤ other.address := by
  have ordered : (rowWrites layout columns row).Pairwise fun first second =>
      first.last ≤ second.address := by
    unfold rowWrites
    rw [List.pairwise_map]
    apply List.Pairwise.imp_of_mem _ List.pairwise_lt_range
    intro first second _ inside less
    exact prepared.apart row first second less (List.mem_range.mp inside)
  have member : cellWrite layout columns row field ∈ rowWrites layout columns row :=
    List.mem_map.mpr ⟨field, List.mem_range.mpr bound, rfl⟩
  obtain ⟨before, after, split⟩ := List.append_of_mem member
  refine ⟨before, after, split, ?_⟩
  rw [split, List.pairwise_append] at ordered
  exact (List.pairwise_cons.mp ordered.2.1).1

include sound prepared in
/-- The record of a row holds every field of the row. -/
theorem recordPlan_cell {rows index : Nat} (free : rows < layout.capacity)
    (inside : index < layout.slotCapacity) (hashValue : UInt64) (key : List UInt8) (cursor : Nat)
    (memory : Memory) (field : Nat) (bound : field < columns.fieldByteOffsetsInRow.length) :
    (memory.applyAll (recordPlan layout index hashValue key (rowWrites layout columns rows) rows
        cursor)).read (cellWrite layout columns rows field).address
        (cellWrite layout columns rows field).bytes.length =
      (cellWrite layout columns rows field).bytes := by
  obtain ⟨before, after, split, apart⟩ := rowWrites_split prepared rows bound
  rw [split]
  exact recordPlan_row sound inside free hashValue memory before (prepared.inRow rows field bound)
    fun other later => Or.inl (apart other later)

theorem getD_eq_getElem {row : Nat} (inside : row < ids.length) : ids.getD row "" = ids[row] := by
  rw [List.getD_eq_getElem?_getD, List.getElem?_eq_getElem inside]
  rfl

theorem getD_mem {row : Nat} (inside : row < ids.length) : ids.getD row "" ∈ ids := by
  rw [getD_eq_getElem inside]
  exact List.getElem_mem inside

include sound prepared in
/-- The flags write of a prepared record extends a loaded memory by one row. -/
theorem Loaded.occupy {memory written : Memory} {rows cursor index : Nat}
    (loaded : Loaded hashId layout columns ids memory rows cursor) (more : rows < ids.length)
    (room : ids.length ≤ layout.capacity)
    (first : FirstVacant hashId layout memory index (encodeUtf8 (ids.getD rows "")))
    (agree : Agree layout cursor memory written) (same : SameRows layout rows memory written)
    (record : Prepared hashId layout written rows cursor index (encodeUtf8 (ids.getD rows "")))
    (cells : ∀ field, field < columns.fieldByteOffsetsInRow.length →
      written.read (cellWrite layout columns rows field).address
          (cellWrite layout columns rows field).bytes.length =
        (cellWrite layout columns rows field).bytes) :
    Loaded hashId layout columns ids (occupySlot layout written index) (rows + 1)
      (cursor + (lenPrefixBytes + (encodeUtf8 (ids.getD rows "")).length)) := by
  have free : rows < layout.capacity := by omega
  have member := getD_mem more
  have inside := first.inside
  have invariant := loaded.invariant.agree agree (Nat.le_refl _) (Nat.le_of_lt free) (Nat.le_refl _)
    loaded.invariant.cursorBound
  have still := first.agree loaded.invariant agree
  have keys := occupySlot_key sound written inside
  rw [record.idOffset, record.bytes] at keys
  have row : ∀ other, slotRow layout (occupySlot layout written index) other =
      slotRow layout written other :=
    fun other => occupySlot_field written other _ _ (by decide) (by decide)
  have elsewhere : ∀ place, place < layout.slotCapacity → place ≠ index →
      slotKey layout (occupySlot layout written index) place = slotKey layout memory place := by
    intro place placeInside different
    rw [keys, Function.update_of_ne different,
      loaded.invariant.slotKey_agree agree place placeInside]
  have behind : ∀ place field, place < layout.capacity →
      field < columns.fieldByteOffsetsInRow.length →
      (occupySlot layout written index).read (cellWrite layout columns place field).address
          (cellWrite layout columns place field).bytes.length =
        written.read (cellWrite layout columns place field).address
          (cellWrite layout columns place field).bytes.length := by
    intro place field bound fieldBound
    have start := (prepared.inRow place field fieldBound).1
    have region := (sound.rowAddress_range bound).1
    have pool := sound.poolStart
    exact occupySlot_read sound written inside (by omega)
  constructor
  · exact invariant.occupy sound free (prepared.short _ member)
      ⟨_, prepared.named _ member, rfl⟩ still record
  · intro place bound
    by_cases last : place = rows
    · subst last
      exact ⟨index, inside, by rw [keys, Function.update_self], by rw [row, record.row]⟩
    · obtain ⟨slot, slotInside, stored, slotPlace⟩ := loaded.stored place (by omega)
      have different : slot ≠ index := by
        rintro rfl
        rw [first.vacant] at stored
        cases stored
      refine ⟨slot, slotInside, by rw [elsewhere slot slotInside different, stored], ?_⟩
      rw [row, agree.row slot slotInside (slotKey_eq_some.mp stored).1, slotPlace]
  · intro place placeInside key stored
    by_cases here : place = index
    · rw [here, keys, Function.update_self] at stored
      exact ⟨rows, Nat.lt_succ_self _, (Option.some.inj stored).symm⟩
    · rw [elsewhere place placeInside here] at stored
      obtain ⟨earlier, bound, equal⟩ := loaded.only place placeInside key stored
      exact ⟨earlier, Nat.lt_succ_of_lt bound, equal⟩
  · intro place bound field fieldBound
    rw [behind place field (by omega) fieldBound]
    by_cases last : place = rows
    · rw [last]
      exact cells field fieldBound
    · have within := prepared.inRow place field fieldBound
      have kept := Memory.read_sub (same place (by omega)) within.1 within.2
      rw [kept]
      exact loaded.cells place (by omega) field fieldBound

/-- The writes of the kernel for one row. -/
def bulkPlan (hashId : List UInt8 → UInt64) (layout : SegmentLayout) (columns : InsertColumns)
    (ids : List String) (index rows cursor : Nat) : List Write :=
  recordPlan layout index (hashId (encodeUtf8 (ids.getD rows "")))
    (encodeUtf8 (ids.getD rows "")) (rowWrites layout columns rows) rows cursor ++
  [⟨layout.slotField index slotFlagsOffset, leBytes 4 flagOccupied⟩]

include sound prepared in
/-- The kernel writes the next row at the vacant slot where the probe of its id stops. -/
theorem insertManyCore_step (ε : Type) (room : ids.length ≤ layout.capacity) (remaining : Nat)
    {memory : Memory} {rows cursor : Nat}
    (loaded : Loaded hashId layout columns ids memory rows cursor) (more : rows < ids.length) :
    ∃ index, index < layout.slotCapacity ∧
      probe layout.slotCapacity (slotKey layout memory) (encodeUtf8 (ids.getD rows ""))
        layout.slotCapacity (homeIndex layout (hashId (encodeUtf8 (ids.getD rows "")))) =
          .vacant index ∧
      Loaded hashId layout columns ids
        (memory.applyAll (bulkPlan hashId layout columns ids index rows cursor)) (rows + 1)
        (cursor + (lenPrefixBytes + (encodeUtf8 (ids.getD rows "")).length)) ∧
      ∀ result writes, (insertManyCore layout columns remaining (rows + 1)
          (cursor + (lenPrefixBytes + (encodeUtf8 (ids.getD rows "")).length)) :
            Program ε Int).trace
              (memory.applyAll (bulkPlan hashId layout columns ids index rows cursor)) =
          (result, writes) →
        (insertManyCore layout columns (remaining + 1) rows cursor : Program ε Int).trace memory =
          (result, bulkPlan hashId layout columns ids index rows cursor ++ writes) := by
  have free : rows < layout.capacity := by omega
  have member := getD_mem more
  have short := prepared.short _ member
  -- The ids are distinct, so no slot holds the id of the next row.
  have absent : ∀ index, index < layout.slotCapacity →
      slotKey layout memory index ≠ some (encodeUtf8 (ids.getD rows "")) := by
    intro index inside stored
    obtain ⟨earlier, bound, equal⟩ := loaded.only index inside _ stored
    have same := encodeUtf8_injective equal
    rw [getD_eq_getElem more, getD_eq_getElem (bound.trans more),
      prepared.distinct.getElem_inj_iff] at same
    omega
  rcases probe_cases sound loaded.invariant (encodeUtf8 (ids.getD rows "")) with
    ⟨index, found, _⟩ | ⟨index, _, first, stopped⟩
  · obtain ⟨inside, stored⟩ := findSlot_some found
    exact absurd stored (absent index inside)
  · have inside := first.inside
    have probed : (findEmptySlot layout layout.slotCapacity
        (homeIndex layout (hashId (encodeUtf8 (ids.getD rows "")))) :
          Program ε (Option Nat)).trace memory = (.ok (some index), []) := by
      rw [findEmptySlot_trace sound loaded.invariant absent _ (homeIndex_inside sound _), stopped]
    have vacant := (loaded.invariant.slotKey_eq_none inside).mp first.vacant
    have inRow := rowWrites_inRow prepared rows
    have used := loaded.invariant.cursorBound
    obtain ⟨agree, same⟩ := harmless_applyAll sound inside _ memory vacant
      (recordPlan_harmless sound short inside free used
        (hashId (encodeUtf8 (ids.getD rows ""))) inRow)
    have extended := loaded.occupy sound prepared more room first agree same
      (recordPlan_prepared sound short inside free used inRow hashId memory)
      (recordPlan_cell sound prepared free inside _ _ cursor memory)
    have applied : memory.applyAll (bulkPlan hashId layout columns ids index rows cursor) =
        occupySlot layout (memory.applyAll (recordPlan layout index
          (hashId (encodeUtf8 (ids.getD rows ""))) (encodeUtf8 (ids.getD rows ""))
          (rowWrites layout columns rows) rows cursor)) index := by
      rw [bulkPlan, Memory.applyAll_append]
      rfl
    refine ⟨index, inside, stopped, by rw [applied]; exact extended, ?_⟩
    intro result writes trace
    rw [insertManyCore, prepared.hash rows more, Program.trace_bind_reads probed]
    dsimp only
    rw [Program.trace_bind_ok (insertManyRow_trace prepared more index cursor memory)]
    rw [bulkPlan] at trace ⊢
    rw [trace]

include sound prepared in
/-- The kernel loads every row and returns the pool cursor. -/
theorem insertManyCore_trace (ε : Type) (room : ids.length ≤ layout.capacity) (remaining : Nat)
    {memory : Memory} {rows cursor : Nat}
    (loaded : Loaded hashId layout columns ids memory rows cursor)
    (total : rows + remaining = ids.length) :
    ∃ (writes : List Write) (last : Nat),
      (insertManyCore layout columns remaining rows cursor : Program ε Int).trace memory =
        (.ok (last : Int), writes) ∧
      Loaded hashId layout columns ids (memory.applyAll writes) ids.length last := by
  induction remaining generalizing memory rows cursor with
  | zero =>
      obtain rfl : rows = ids.length := total
      exact ⟨[], cursor, rfl, loaded⟩
  | succ remaining ih =>
      obtain ⟨index, _, _, extended, continues⟩ :=
        insertManyCore_step sound prepared ε room remaining loaded (by omega)
      obtain ⟨writes, last, trace, complete⟩ := ih extended (by omega)
      refine ⟨_, last, continues _ _ trace, ?_⟩
      rw [Memory.applyAll_append]
      exact complete

include prepared in
/-- A loaded memory stays loaded when its occupied records and its rows stay the same. -/
theorem Loaded.agree {memory after : Memory} {rows cursor : Nat}
    (loaded : Loaded hashId layout columns ids memory rows cursor)
    (agree : Agree layout cursor memory after) (same : SameRows layout rows memory after) :
    Loaded hashId layout columns ids after rows cursor := by
  have keys := loaded.invariant.slotKey_agree agree
  constructor
  · exact loaded.invariant.agree agree (Nat.le_refl _) loaded.invariant.rowsBound (Nat.le_refl _)
      loaded.invariant.cursorBound
  · intro row bound
    obtain ⟨index, inside, stored, place⟩ := loaded.stored row bound
    exact ⟨index, inside, by rw [keys index inside, stored],
      by rw [agree.row index inside (slotKey_eq_some.mp stored).1, place]⟩
  · intro index inside key stored
    rw [keys index inside] at stored
    exact loaded.only index inside key stored
  · intro row bound field fieldBound
    have within := prepared.inRow row field fieldBound
    rw [Memory.read_sub (same row bound) within.1 within.2]
    exact loaded.cells row bound field fieldBound

include sound in
/-- The write of both cursors makes a loaded memory consistent. -/
theorem writeMetadata_loaded (prepared : ColumnsSound hashId layout columns ids) {memory : Memory}
    {rows cursor : Nat} (loaded : Loaded hashId layout columns ids memory rows cursor) :
    let after := memory.write metadataOffset (leBytes 8 rows ++ leBytes 8 cursor)
    nextFreeRow after = rows ∧ stringPoolCursor after = cursor ∧
      Loaded hashId layout columns ids after rows cursor := by
  intro after
  have start := sound.slotStart
  have tableEnd := sound.slotEnd
  have pool := sound.poolStart
  have bound := loaded.invariant.rowsBound
  have rowsFit : rows < 256 ^ 8 := by
    have capacity := sound.capacityBound
    norm_num
    omega
  have cursorFit : cursor < 256 ^ 8 := by
    have used := loaded.invariant.cursorBound.trans (Nat.mul_le_mul_right _ bound)
    have poolBytes := sound.poolBytes
    have poolEnd := sound.poolEnd
    have rowsEnd := sound.rowsEnd
    have total := sound.totalBound
    norm_num
    omega
  obtain ⟨rowsRead, cursorRead⟩ := writeCursors memory rowsFit cursorFit
  refine ⟨rowsRead, cursorRead, loaded.agree prepared ?_ ?_⟩
  · exact Agree.write_outside sound memory (Or.inl (by
      simp [metadataOffset, dataRegionOffset]))
  · intro row rowBound
    have behind := (sound.rowAddress_range (rowBound.trans_le bound)).1
    simp only [dataRegionOffset] at start
    apply Memory.read_write_disjoint
    simp only [metadataOffset, List.length_append, leBytes_length]
    omega

/-- A fresh segment is loaded with no rows. -/
theorem freshSegment_loaded (sound : LayoutSound layout) {header : List UInt8}
    (headerLength : header.length = headerSize) :
    Loaded hashId layout columns ids (freshSegment layout header) 0 0 := by
  obtain ⟨consistent, empty⟩ := freshSegment_consistent sound headerLength hashId
  obtain ⟨noRows, noBytes⟩ := freshSegment_cursors sound header
  unfold Consistent at consistent
  rw [noRows, noBytes] at consistent
  refine ⟨consistent, fun row impossible => absurd impossible (Nat.not_lt_zero row), ?_,
    fun row impossible => absurd impossible (Nat.not_lt_zero row)⟩
  intro index inside key stored
  have row := (consistent.slot index inside (slotKey_eq_some.mp stored).1).row
  exact absurd row (Nat.not_lt_zero _)

include sound prepared in
/-- The ids of a table that fits the capacity fit the string pool. -/
theorem columns_fit (room : ids.length ≤ layout.capacity) :
    ((List.range ids.length).map fun index => columns.idByteOffsets.getD (index + 1) 0 -
        columns.idByteOffsets.getD index 0).max?.getD 0 ≤ layout.maxIdBytes ∧
      columns.idByteOffsets.getLastD 0 + ids.length * lenPrefixBytes ≤
        layout.stringPoolDataBytes := by
  constructor
  · cases largest : ((List.range ids.length).map fun index =>
        columns.idByteOffsets.getD (index + 1) 0 - columns.idByteOffsets.getD index 0).max? with
    | none => exact Nat.zero_le _
    | some value =>
        obtain ⟨index, inside, rfl⟩ := List.mem_map.mp (List.max?_mem largest)
        rw [Option.getD_some, prepared.length index (List.mem_range.mp inside)]
        exact prepared.short _ (getD_mem (List.mem_range.mp inside))
  · rw [prepared.total, sound.poolBytes]
    have each : (ids.map fun entityId => (encodeUtf8 entityId).length).sum ≤
        ids.length * layout.maxIdBytes := by
      have bound := List.sum_le_card_nsmul (ids.map fun entityId => (encodeUtf8 entityId).length)
        layout.maxIdBytes (by
          intro length member
          obtain ⟨entityId, inside, rfl⟩ := List.mem_map.mp member
          exact prepared.short entityId inside)
      simpa using bound
    have product : ids.length * (lenPrefixBytes + layout.maxIdBytes) ≤
        layout.capacity * (lenPrefixBytes + layout.maxIdBytes) := Nat.mul_le_mul_right _ room
    rw [Nat.mul_add] at product
    omega

include sound prepared in
/-- A bulk insert into a fresh segment performs the writes of the kernel and writes the cursors. -/
theorem insertMany_trace {castBits : DType → DType → Nat → Nat} {schema : FeatureSchema}
    {table : ArrowTable} (size : table.length = ids.length) (some : ids.length ≠ 0)
    (buffers : prepareInsertColumns hashId castBits table schema layout = .ok columns)
    (room : ids.length ≤ layout.capacity) {header : List UInt8} {writes : List Write} {last : Nat}
    (trace : (insertManyCore layout columns ids.length 0 0 : Program InsertManyError Int).trace
      (freshSegment layout header) = (.ok (last : Int), writes)) :
    (insertMany hashId castBits schema layout table).trace (freshSegment layout header) =
      (.ok ids.length, writes ++ [⟨metadataOffset, leBytes 8 ids.length ++ leBytes 8 last⟩]) := by
  obtain ⟨noRows, noBytes⟩ := freshSegment_cursors sound header
  obtain ⟨longest, needed⟩ := columns_fit sound prepared room
  rw [insertMany, if_neg (by omega), Program.trace_bind_reads (readMetadata_trace _)]
  dsimp only
  rw [noRows, noBytes, if_neg (by omega), if_neg (by omega), buffers]
  dsimp only
  rw [size, if_neg (Nat.not_lt.mpr longest), if_neg (Nat.not_lt.mpr needed),
    Program.trace_bind_ok trace]
  rw [if_neg (by omega)]
  simp [writeMetadata, Program.writeBytes]

/-- A bulk insert of an empty table does nothing. -/
theorem insertMany_empty (hashId : List UInt8 → UInt64) (castBits : DType → DType → Nat → Nat)
    (schema : FeatureSchema) (layout : SegmentLayout) {table : ArrowTable}
    (empty : table.length = 0) (memory : Memory) :
    (insertMany hashId castBits schema layout table).run memory = (.ok 0, memory) := by
  unfold insertMany
  rw [if_pos empty]
  rfl

include sound prepared in
/-- A bulk insert into a fresh segment loads every row of the table. -/
theorem insertMany_run {castBits : DType → DType → Nat → Nat} {schema : FeatureSchema}
    {table : ArrowTable} (size : table.length = ids.length)
    (buffers : prepareInsertColumns hashId castBits table schema layout = .ok columns)
    (room : ids.length ≤ layout.capacity) {header : List UInt8}
    (headerLength : header.length = headerSize) :
    ∃ after, (insertMany hashId castBits schema layout table).run (freshSegment layout header) =
        (.ok ids.length, after) ∧
      nextFreeRow after = ids.length ∧
      Loaded hashId layout columns ids after ids.length (stringPoolCursor after) := by
  have loaded : Loaded hashId layout columns ids (freshSegment layout header) 0 0 :=
    freshSegment_loaded sound headerLength
  obtain ⟨noRows, noBytes⟩ := freshSegment_cursors sound header
  by_cases none : ids.length = 0
  · refine ⟨freshSegment layout header, ?_, by rw [noRows, none], ?_⟩
    · rw [insertMany_empty hashId castBits schema layout (size.trans none), none]
    · rw [none, noBytes]
      exact loaded
  · obtain ⟨writes, last, trace, complete⟩ := insertManyCore_trace sound prepared InsertManyError
      room ids.length loaded (Nat.zero_add _)
    obtain ⟨rowsRead, cursorRead, final⟩ := writeMetadata_loaded sound prepared complete
    have run := insertMany_trace sound prepared size none buffers room trace
    refine ⟨_, ?_, rowsRead, ?_⟩
    · rw [Program.run, Program.result, Program.writes, run, Memory.applyAll_append]
      rfl
    · rw [cursorRead]
      exact final

end Kernel

end Quorin
