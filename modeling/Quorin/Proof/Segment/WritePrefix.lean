import Quorin.Proof.Segment.Operations

namespace Quorin

open ByteMemory LinearProbe

/-- A harmless write touches no occupied record, no used pool byte and no consumed row. -/
structure Harmless (layout : SegmentLayout) (rows cursor index : Nat) (entry : Write) : Prop where
  place : (entry.last ≤ dataRegionOffset ∨ layout.stringPoolDataOffset + cursor ≤ entry.address) ∨
    ∃ offset, entry.address = layout.slotField index offset ∧
      offset + entry.bytes.length ≤ slotBytes ∧
      (offset + entry.bytes.length ≤ slotFlagsOffset ∨ slotFlagsOffset + 4 ≤ offset)
  rows : ∀ row, row < rows →
    entry.last ≤ layout.rowAddress row ∨ layout.rowAddress row + layout.rowSize ≤ entry.address

/-- Two memories hold the same bytes in every consumed row. -/
def SameRows (layout : SegmentLayout) (rows : Nat) (before after : Memory) : Prop :=
  ∀ row, row < rows → after.read (layout.rowAddress row) layout.rowSize =
    before.read (layout.rowAddress row) layout.rowSize

/-- Harmless writes keep the occupied records and the consumed rows. -/
theorem harmless_applyAll {layout : SegmentLayout} (sound : LayoutSound layout)
    {rows cursor index : Nat} (inside : index < layout.slotCapacity) (writes : List Write)
    (memory : Memory) (vacant : slotFlags layout memory index = flagEmpty)
    (harmless : ∀ entry ∈ writes, Harmless layout rows cursor index entry) :
    Agree layout cursor memory (memory.applyAll writes) ∧
      SameRows layout rows memory (memory.applyAll writes) := by
  induction writes generalizing memory with
  | nil => exact ⟨Agree.refl layout cursor memory, fun _ _ => rfl⟩
  | cons entry rest ih =>
      have head := harmless entry List.mem_cons_self
      have agree : Agree layout cursor memory (memory.write entry.address entry.bytes) := by
        rcases head.place with outside | ⟨offset, place, fits, apart⟩
        · exact Agree.write_outside sound memory outside
        · rw [place]
          exact Agree.write_slot sound memory inside vacant fits apart
      have same : SameRows layout rows memory (memory.write entry.address entry.bytes) := by
        intro row bound
        apply Memory.read_write_disjoint
        have apart := head.rows row bound
        simp only [Write.last] at apart
        omega
      have tail := ih (memory.write entry.address entry.bytes)
        ((agree.flags index inside).trans vacant)
        fun other member => harmless other (List.mem_cons_of_mem _ member)
      exact ⟨agree.trans tail.1, fun row bound => (tail.2 row bound).trans (same row bound)⟩

/-- The insert plan consists of seven harmless writes and the write of the flags. -/
theorem insertPlan_split (layout : SegmentLayout) (index : Nat) (hashValue : UInt64)
    (key rowData : List UInt8) (rows cursor : Nat) (memory : Memory) :
    memory.applyAll (insertPlan layout index hashValue key rowData rows cursor) =
      occupySlot layout (memory.applyAll
        ((insertPlan layout index hashValue key rowData rows cursor).take 7)) index := rfl

/-- The writes of one entity before its flags: the pool entry, its row and its slot fields. -/
def recordPlan (layout : SegmentLayout) (index : Nat) (hashValue : UInt64) (key : List UInt8)
    (rowWrites : List Write) (rows cursor : Nat) : List Write :=
  ⟨layout.entryAddress cursor, leBytes 4 key.length⟩ ::
    ⟨layout.entryAddress cursor + lenPrefixBytes, key⟩ ::
    (rowWrites ++
      [⟨layout.slotField index slotNameHashOffset, leBytes 8 hashValue.toNat⟩,
        ⟨layout.slotField index slotIdOffsetOffset, leBytes 8 cursor⟩,
        ⟨layout.slotField index slotFeatureRowIndexOffset, leBytes 4 rows⟩])

/-- The first seven writes of an insert are the cursors and the record of the entity. -/
theorem insertPlan_take (layout : SegmentLayout) (index : Nat) (hashValue : UInt64)
    (key rowData : List UInt8) (rows cursor : Nat) :
    (insertPlan layout index hashValue key rowData rows cursor).take 7 =
      ⟨metadataOffset, leBytes 8 (rows + 1) ++
          leBytes 8 (cursor + (lenPrefixBytes + key.length))⟩ ::
        recordPlan layout index hashValue key [⟨layout.rowAddress rows, rowData⟩] rows cursor := rfl

/-- A write that stays inside one row. -/
def InRow (layout : SegmentLayout) (row : Nat) (entry : Write) : Prop :=
  layout.rowAddress row ≤ entry.address ∧ entry.last ≤ layout.rowAddress row + layout.rowSize

section Plan

variable {layout : SegmentLayout} (sound : LayoutSound layout) {rows cursor index : Nat}
  {key : List UInt8} (short : key.length ≤ layout.maxIdBytes)
  (inside : index < layout.slotCapacity) (free : rows < layout.capacity)
  (used : cursor ≤ rows * (lenPrefixBytes + layout.maxIdBytes))

include sound free in
/-- A write that ends before the feature rows touches no row. -/
theorem harmless_rows {entry : Write}
    (before : entry.last ≤ layout.stringPoolDataOffset + layout.stringPoolDataBytes) (row : Nat)
    (bound : row < rows) :
    entry.last ≤ layout.rowAddress row ∨ layout.rowAddress row + layout.rowSize ≤ entry.address := by
  have behind := (sound.rowAddress_range (bound.trans free)).1
  omega

include sound inside free in
/-- A write to a field of the vacant slot, other than its flags, is harmless. -/
theorem harmless_slot {offset : Nat} {bytes : List UInt8} (fits : offset + bytes.length ≤ slotBytes)
    (apart : offset + bytes.length ≤ slotFlagsOffset ∨ slotFlagsOffset + 4 ≤ offset) :
    Harmless layout rows cursor index ⟨layout.slotField index offset, bytes⟩ := by
  have field := sound.slotField_range offset bytes.length inside fits
  have pool := sound.poolStart
  refine ⟨Or.inr ⟨offset, rfl, fits, apart⟩, harmless_rows sound free ?_⟩
  simp only [Write.last]
  omega

include sound free in
/-- A write inside the free part of the string pool is harmless. -/
theorem harmless_pool {address : Nat} {bytes : List UInt8}
    (behind : layout.stringPoolDataOffset + cursor ≤ address)
    (before : address + bytes.length ≤ layout.stringPoolDataOffset + layout.stringPoolDataBytes) :
    Harmless layout rows cursor index ⟨address, bytes⟩ :=
  ⟨Or.inl (Or.inr behind), harmless_rows sound free before⟩

include sound free used in
/-- A write inside the next row is harmless. -/
theorem harmless_nextRow {entry : Write} (inRow : InRow layout rows entry) :
    Harmless layout rows cursor index entry := by
  have newRow := (sound.rowAddress_range free).1
  have usedPool : cursor ≤ layout.stringPoolDataBytes := by
    rw [sound.poolBytes]
    exact used.trans (Nat.mul_le_mul_right _ (Nat.le_of_lt free))
  refine ⟨Or.inl (Or.inr ?_), fun row bound => ?_⟩
  · have start := inRow.1
    omega
  · have apart := layout.rowAddress_disjoint (Nat.ne_of_lt bound)
    have start := inRow.1
    have stop := inRow.2
    simp only [Write.last] at *
    omega

include sound short inside free used in
/-- The record of a new entity consists of harmless writes. -/
theorem recordPlan_harmless (hashValue : UInt64) {rowWrites : List Write}
    (inRow : ∀ entry ∈ rowWrites, InRow layout rows entry) :
    ∀ entry ∈ recordPlan layout index hashValue key rowWrites rows cursor,
      Harmless layout rows cursor index entry := by
  have room := (sound.pool_room free used short).2
  intro entry member
  simp only [recordPlan, List.mem_cons, List.mem_append, List.not_mem_nil, or_false] at member
  rcases member with rfl | rfl | row | rfl | rfl | rfl
  · apply harmless_pool sound free
    · simp only [SegmentLayout.entryAddress]; omega
    · simp only [SegmentLayout.entryAddress, leBytes_length, lenPrefixBytes] at *; omega
  · apply harmless_pool sound free
    · simp only [SegmentLayout.entryAddress]; omega
    · simp only [SegmentLayout.entryAddress]; omega
  · exact harmless_nextRow sound free used (inRow entry row)
  · apply harmless_slot sound inside free
    · rw [leBytes_length]; decide
    · rw [leBytes_length]; decide
  · apply harmless_slot sound inside free
    · rw [leBytes_length]; decide
    · rw [leBytes_length]; decide
  · apply harmless_slot sound inside free
    · rw [leBytes_length]; decide
    · rw [leBytes_length]; decide

/-- The row write of a well-sized row stays inside the row. -/
theorem rowWrite_inRow (layout : SegmentLayout) (row : Nat) {rowData : List UInt8}
    (size : rowData.length = layout.rowSize) :
    ∀ entry ∈ [(⟨layout.rowAddress row, rowData⟩ : Write)], InRow layout row entry := by
  simp [InRow, Write.last, size]

include sound short inside free used in
theorem insertPlan_harmless (hashValue : UInt64) {rowData : List UInt8}
    (size : rowData.length = layout.rowSize) :
    ∀ entry ∈ (insertPlan layout index hashValue key rowData rows cursor).take 7,
      Harmless layout rows cursor index entry := by
  have start := sound.slotStart
  have tableEnd := sound.slotEnd
  have pool := sound.poolStart
  rw [insertPlan_take]
  intro entry member
  rcases List.mem_cons.mp member with rfl | record
  · refine ⟨Or.inl (Or.inl ?_), harmless_rows sound free ?_⟩
    · simp [Write.last, metadataOffset, dataRegionOffset]
    · simp only [Write.last, metadataOffset, List.length_append, leBytes_length]
      simp only [dataRegionOffset] at start
      omega
  · exact recordPlan_harmless sound short inside free used hashValue
      (rowWrite_inRow layout rows size) entry record

include sound short free used in
/-- The new cursors fit their fields. -/
theorem cursors_fit : rows + 1 < 256 ^ 8 ∧
    cursor + (lenPrefixBytes + key.length) < 256 ^ 8 ∧ rows < 256 ^ 4 ∧ cursor < 256 ^ 8 ∧
    key.length < 256 ^ 4 := by
  have room := (sound.pool_room free used short).2
  have capacity := sound.capacityBound
  have poolEnd := sound.poolEnd
  have rowsEnd := sound.rowsEnd
  have total := sound.totalBound
  have budget := sound.maxIdBound
  simp only [maxIdBytesCeiling] at budget
  norm_num
  omega

include sound short inside free used in
/-- Every nonempty prefix of the plan holds the advanced cursors. -/
theorem insertPlan_cursors (memory : Memory) (hashValue : UInt64) (rowData : List UInt8)
    (count : Nat) (some : 0 < count) :
    nextFreeRow (memory.applyAll
        ((insertPlan layout index hashValue key rowData rows cursor).take count)) = rows + 1 ∧
      stringPoolCursor (memory.applyAll
        ((insertPlan layout index hashValue key rowData rows cursor).take count)) =
          cursor + (lenPrefixBytes + key.length) := by
  obtain ⟨rowsFit, cursorFit, _⟩ := cursors_fit sound short free used
  have start := sound.slotStart
  have pool := sound.poolStart
  have tableEnd := sound.slotEnd
  have newRow := (sound.rowAddress_range free).1
  have behind : ∀ entry ∈ (insertPlan layout index hashValue key rowData rows cursor).tail,
      dataRegionOffset ≤ entry.address := by
    have slot := fun offset width fits => (sound.slotField_range offset width inside fits).1
    intro entry member
    simp only [insertPlan, List.tail_cons, List.mem_cons, List.not_mem_nil, or_false] at member
    rcases member with rfl | rfl | rfl | rfl | rfl | rfl | rfl
    · simp only [SegmentLayout.entryAddress]; omega
    · simp only [SegmentLayout.entryAddress]; omega
    · dsimp only; omega
    · exact slot _ 0 (by decide)
    · exact slot _ 0 (by decide)
    · exact slot _ 0 (by decide)
    · exact slot _ 0 (by decide)
  obtain ⟨count, rfl⟩ := Nat.exists_eq_add_of_lt some
  have shape : (insertPlan layout index hashValue key rowData rows cursor).take (0 + count + 1) =
      ⟨metadataOffset, leBytes 8 (rows + 1) ++
        leBytes 8 (cursor + (lenPrefixBytes + key.length))⟩ ::
      (insertPlan layout index hashValue key rowData rows cursor).tail.take count := by
    rw [Nat.zero_add]
    rfl
  have metadata : (memory.applyAll ((insertPlan layout index hashValue key rowData rows
      cursor).take (0 + count + 1))).read metadataOffset 16 = leBytes 8 (rows + 1) ++
        leBytes 8 (cursor + (lenPrefixBytes + key.length)) := by
    have last := memory.read_applyAll_last []
      ((insertPlan layout index hashValue key rowData rows cursor).tail.take count)
      ⟨metadataOffset, leBytes 8 (rows + 1) ++
        leBytes 8 (cursor + (lenPrefixBytes + key.length))⟩ (by
        intro other member
        have above := behind other (List.mem_of_mem_take member)
        simp only [Write.last, metadataOffset, dataRegionOffset, List.length_append,
          leBytes_length] at *
        omega)
    rw [shape]
    simpa using last
  constructor
  · have first := Memory.read_take (memory.applyAll ((insertPlan layout index hashValue key rowData
      rows cursor).take (0 + count + 1))) metadataOffset 8 8
    rw [nextFreeRow, Memory.readNat, ← first, metadata,
      List.take_left' (leBytes_length 8 _), leNat_leBytes _ _ rowsFit]
  · have second := Memory.read_drop (memory.applyAll ((insertPlan layout index hashValue key rowData
      rows cursor).take (0 + count + 1))) metadataOffset 8 8
    rw [stringPoolCursor, Memory.readNat, ← second, metadata,
      List.drop_left' (leBytes_length 8 _), leNat_leBytes _ _ cursorFit]

section Record

variable {rowWrites : List Write} (inRow : ∀ entry ∈ rowWrites, InRow layout rows entry)

include sound inside free inRow in
/-- No write of the row or of the slot touches the string pool. -/
theorem recordPlan_behind (hashValue : UInt64) {entry : Write}
    (member : entry ∈ rowWrites ++
      [⟨layout.slotField index slotNameHashOffset, leBytes 8 hashValue.toNat⟩,
        ⟨layout.slotField index slotIdOffsetOffset, leBytes 8 cursor⟩,
        ⟨layout.slotField index slotFeatureRowIndexOffset, leBytes 4 rows⟩]) :
    entry.last ≤ layout.stringPoolDataOffset ∨
      layout.stringPoolDataOffset + layout.stringPoolDataBytes ≤ entry.address := by
  have pool := sound.poolStart
  have newRow := (sound.rowAddress_range free).1
  have slot := fun offset width fits => (sound.slotField_range offset width inside fits).2
  have hashSlot := slot slotNameHashOffset 8 (by decide)
  have offsetSlot := slot slotIdOffsetOffset 8 (by decide)
  have rowSlot := slot slotFeatureRowIndexOffset 4 (by decide)
  simp only [List.mem_append, List.mem_cons, List.not_mem_nil, or_false] at member
  rcases member with row | rfl | rfl | rfl
  · have start := (inRow entry row).1
    omega
  · simp only [Write.last, leBytes_length]; omega
  · simp only [Write.last, leBytes_length]; omega
  · simp only [Write.last, leBytes_length]; omega

include sound short inside free used inRow in
/-- The record of a new entity prepares its slot and its pool entry. -/
theorem recordPlan_prepared (hashId : List UInt8 → UInt64) (memory : Memory) :
    Prepared hashId layout
      (memory.applyAll (recordPlan layout index (hashId key) key rowWrites rows cursor)) rows cursor
      index key := by
  obtain ⟨_, _, rowsFit, cursorFit, lengthFit⟩ := cursors_fit sound short free used
  have room := (sound.pool_room free used short).2
  have behind : ∀ entry ∈ rowWrites ++
      [⟨layout.slotField index slotNameHashOffset, leBytes 8 (hashId key).toNat⟩,
        ⟨layout.slotField index slotIdOffsetOffset, leBytes 8 cursor⟩,
        ⟨layout.slotField index slotFeatureRowIndexOffset, leBytes 4 rows⟩],
      entry.last ≤ layout.stringPoolDataOffset ∨
        layout.stringPoolDataOffset + layout.stringPoolDataBytes ≤ entry.address :=
    fun entry member => recordPlan_behind sound inside free inRow (hashId key) member
  -- Each part is the last write to its own range, so the later writes leave it unchanged.
  have hash := memory.read_applyAll_last
    (⟨layout.entryAddress cursor, leBytes 4 key.length⟩ ::
      ⟨layout.entryAddress cursor + lenPrefixBytes, key⟩ :: rowWrites)
    [⟨layout.slotField index slotIdOffsetOffset, leBytes 8 cursor⟩,
      ⟨layout.slotField index slotFeatureRowIndexOffset, leBytes 4 rows⟩]
    ⟨layout.slotField index slotNameHashOffset, leBytes 8 (hashId key).toNat⟩ (by
      simp [Write.last, SegmentLayout.slotField, slotNameHashOffset, slotIdOffsetOffset,
        slotFeatureRowIndexOffset])
  have idOffset := memory.read_applyAll_last
    (⟨layout.entryAddress cursor, leBytes 4 key.length⟩ ::
      ⟨layout.entryAddress cursor + lenPrefixBytes, key⟩ :: rowWrites ++
      [⟨layout.slotField index slotNameHashOffset, leBytes 8 (hashId key).toNat⟩])
    [⟨layout.slotField index slotFeatureRowIndexOffset, leBytes 4 rows⟩]
    ⟨layout.slotField index slotIdOffsetOffset, leBytes 8 cursor⟩ (by
      simp [Write.last, SegmentLayout.slotField, slotIdOffsetOffset, slotFeatureRowIndexOffset])
  have row := memory.read_applyAll_last
    (⟨layout.entryAddress cursor, leBytes 4 key.length⟩ ::
      ⟨layout.entryAddress cursor + lenPrefixBytes, key⟩ :: rowWrites ++
      [⟨layout.slotField index slotNameHashOffset, leBytes 8 (hashId key).toNat⟩,
        ⟨layout.slotField index slotIdOffsetOffset, leBytes 8 cursor⟩]) []
    ⟨layout.slotField index slotFeatureRowIndexOffset, leBytes 4 rows⟩ (by simp)
  have length := memory.read_applyAll_last [] (⟨layout.entryAddress cursor + lenPrefixBytes, key⟩ ::
      (rowWrites ++
        [⟨layout.slotField index slotNameHashOffset, leBytes 8 (hashId key).toNat⟩,
          ⟨layout.slotField index slotIdOffsetOffset, leBytes 8 cursor⟩,
          ⟨layout.slotField index slotFeatureRowIndexOffset, leBytes 4 rows⟩]))
    ⟨layout.entryAddress cursor, leBytes 4 key.length⟩ (by
      intro entry member
      rcases List.mem_cons.mp member with rfl | later
      · simp only [Write.last, leBytes_length, lenPrefixBytes]
        omega
      · have apart := behind entry later
        simp only [Write.last, leBytes_length, SegmentLayout.entryAddress, lenPrefixBytes] at *
        omega)
  have bytes := memory.read_applyAll_last [⟨layout.entryAddress cursor, leBytes 4 key.length⟩]
      (rowWrites ++
        [⟨layout.slotField index slotNameHashOffset, leBytes 8 (hashId key).toNat⟩,
          ⟨layout.slotField index slotIdOffsetOffset, leBytes 8 cursor⟩,
          ⟨layout.slotField index slotFeatureRowIndexOffset, leBytes 4 rows⟩])
    ⟨layout.entryAddress cursor + lenPrefixBytes, key⟩ (by
      intro entry later
      have apart := behind entry later
      simp only [Write.last, SegmentLayout.entryAddress] at *
      omega)
  rw [leBytes_length] at hash idOffset row length
  simp only [List.cons_append, List.append_assoc, List.nil_append] at hash idOffset row bytes
  have entrySize : entryLength layout (memory.applyAll
      (recordPlan layout index (hashId key) key rowWrites rows cursor)) cursor = key.length :=
    (congrArg leNat length).trans (leNat_leBytes _ _ lengthFit)
  refine ⟨?_, ?_, ?_, entrySize, ?_⟩
  · exact (congrArg leNat hash).trans (leNat_leBytes _ _ (hashId key).toNat_lt)
  · exact (congrArg leNat idOffset).trans (leNat_leBytes _ _ cursorFit)
  · exact (congrArg leNat row).trans (leNat_leBytes _ _ rowsFit)
  · rw [entryBytes, entrySize]
    exact bytes

end Record

include sound inside free in
/-- A row write that no later row write touches is read back. -/
theorem recordPlan_row (hashValue : UInt64) (memory : Memory) (before : List Write)
    {after : List Write} {entry : Write} (inRow : InRow layout rows entry)
    (apart : ∀ other ∈ after, entry.last ≤ other.address ∨ other.last ≤ entry.address) :
    (memory.applyAll (recordPlan layout index hashValue key (before ++ entry :: after) rows
      cursor)).read entry.address entry.bytes.length = entry.bytes := by
  have newRow := (sound.rowAddress_range free).1
  have pool := sound.poolStart
  have slot := fun offset width fits => (sound.slotField_range offset width inside fits).2
  have last := memory.read_applyAll_last
    (⟨layout.entryAddress cursor, leBytes 4 key.length⟩ ::
      ⟨layout.entryAddress cursor + lenPrefixBytes, key⟩ :: before)
    (after ++
      [⟨layout.slotField index slotNameHashOffset, leBytes 8 hashValue.toNat⟩,
        ⟨layout.slotField index slotIdOffsetOffset, leBytes 8 cursor⟩,
        ⟨layout.slotField index slotFeatureRowIndexOffset, leBytes 4 rows⟩]) entry (by
      have hashSlot := slot slotNameHashOffset 8 (by decide)
      have offsetSlot := slot slotIdOffsetOffset 8 (by decide)
      have rowSlot := slot slotFeatureRowIndexOffset 4 (by decide)
      have start := inRow.1
      intro other member
      simp only [List.mem_append, List.mem_cons, List.not_mem_nil, or_false] at member
      rcases member with later | rfl | rfl | rfl
      · exact apart other later
      · simp only [Write.last, leBytes_length]; omega
      · simp only [Write.last, leBytes_length]; omega
      · simp only [Write.last, leBytes_length]; omega)
  simp only [List.cons_append] at last
  simp only [recordPlan, List.append_assoc, List.cons_append]
  exact last

include sound short inside free used in
/-- The first seven writes prepare the record, the pool entry and the row of the new entity. -/
theorem insertPlan_prepared {rowData : List UInt8} (size : rowData.length = layout.rowSize)
    (hashId : List UInt8 → UInt64) (memory : Memory) :
    Prepared hashId layout (memory.applyAll ((insertPlan layout index (hashId key) key rowData rows
        cursor).take 7)) rows cursor index key ∧
      (memory.applyAll ((insertPlan layout index (hashId key) key rowData rows
        cursor).take 7)).read (layout.rowAddress rows) layout.rowSize = rowData := by
  have inRow := rowWrite_inRow layout rows size
  rw [insertPlan_take, Memory.applyAll_cons]
  refine ⟨recordPlan_prepared sound short inside free used inRow hashId _, ?_⟩
  rw [← size]
  exact recordPlan_row sound inside free _ _ [] (inRow _ List.mem_cons_self) (by simp)

end Plan

end Quorin
