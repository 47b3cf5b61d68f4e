import Quorin.Construction.SegmentHeader
import Quorin.Construction.Upgrade
import Quorin.Library.MemoryWrites
import Quorin.Proof.Consumer.Progress
import Quorin.Proof.Evolution.FieldOffsets
import Quorin.Proof.Segment.Histories
import Quorin.Proof.Segment.LockFree
import Quorin.Proof.Serving.ReadParity

namespace Quorin

open ByteMemory

/-- A rounded number is a multiple of its alignment. -/
theorem dvd_alignUp (value exponent : Nat) : 2 ^ exponent ∣ alignUp value (2 ^ exponent) := by
  rw [alignUp_eq]
  exact Nat.dvd_sub_mod _

/-- A write that leaves the header of the segment and the header of the string pool as they are. -/
def LeavesHeaders (layout : SegmentLayout) (address length : Nat) : Prop :=
  (metadataOffset ≤ address ∧ address + length ≤ layout.stringPoolOffset) ∨
    layout.stringPoolDataOffset ≤ address

section Writes

variable {hashId : List UInt8 → UInt64} {layout : SegmentLayout} (sound : LayoutSound layout)

theorem writesOnly_of_readsAtMost {ε α : Type} {program : Program ε α} {bound : Nat}
    {allowed : Nat → Nat → Prop} (reads : program.ReadsAtMost bound) :
    program.WritesOnly allowed := by
  induction program generalizing bound with
  | done value => trivial
  | fail error => trivial
  | read address count next ih =>
      obtain ⟨rest, _, each⟩ := reads
      exact fun bytes => ih bytes (each bytes)
  | write address bytes next ih => exact reads.elim

include sound in
theorem LeavesHeaders.slotField {index : Nat} (offset width : Nat)
    (inside : index < layout.slotCapacity) (fits : offset + width ≤ slotBytes) :
    LeavesHeaders layout (layout.slotField index offset) width := by
  have range := sound.slotField_range offset width inside fits
  have start : metadataOffset ≤ dataRegionOffset := by decide
  exact Or.inl ⟨start.trans range.1, range.2⟩

include sound in
theorem LeavesHeaders.metadata : LeavesHeaders layout metadataOffset 16 := by
  have start := sound.slotStart
  have last := sound.slotEnd
  simp only [dataRegionOffset] at start
  left
  simp only [metadataOffset]
  omega

theorem LeavesHeaders.entry (layout : SegmentLayout) (idOffset offset length : Nat) :
    LeavesHeaders layout (layout.entryAddress idOffset + offset) length := by
  right
  rw [SegmentLayout.entryAddress]
  omega

include sound in
theorem LeavesHeaders.row (row offset length : Nat) :
    LeavesHeaders layout (layout.rowAddress row + offset) length := by
  have before := sound.poolEnd
  right
  rw [SegmentLayout.rowAddress]
  omega

include sound in
/-- The writes of one slot record. -/
theorem recordWrites {ε α : Type} {index : Nat} (inside : index < layout.slotCapacity)
    (hashValue : UInt64) (idOffset row : Nat) {rest : Program ε α}
    (after : rest.WritesOnly (LeavesHeaders layout)) :
    (do
      Program.writeBytes (layout.slotField index slotNameHashOffset) (leBytes 8 hashValue.toNat)
      Program.writeBytes (layout.slotField index slotIdOffsetOffset) (leBytes 8 idOffset)
      Program.writeBytes (layout.slotField index slotFeatureRowIndexOffset) (leBytes 4 row)
      Program.writeBytes (layout.slotField index slotFlagsOffset) (leBytes 4 flagOccupied)
      rest).WritesOnly (LeavesHeaders layout) := by
  have field : ∀ (offset width value : Nat), offset + width ≤ slotBytes →
      LeavesHeaders layout (layout.slotField index offset) (leBytes width value).length := by
    intro offset width value fits
    rw [leBytes_length]
    exact LeavesHeaders.slotField sound offset width inside fits
  apply Program.WritesOnly.writeBytes (field slotNameHashOffset 8 _ (by decide))
  apply Program.WritesOnly.writeBytes (field slotIdOffsetOffset 8 _ (by decide))
  apply Program.WritesOnly.writeBytes (field slotFeatureRowIndexOffset 4 _ (by decide))
  exact Program.WritesOnly.writeBytes (field slotFlagsOffset 4 _ (by decide)) after

include sound in
theorem insertIntoEmptySlot_writes {index : Nat} (inside : index < layout.slotCapacity)
    (hashValue : UInt64) (encodedId rowData : List UInt8) :
    (insertIntoEmptySlot layout index hashValue encodedId rowData).WritesOnly
      (LeavesHeaders layout) := by
  rw [insertIntoEmptySlot]
  intro bytes
  change (if _ then _ else _ : SegmentProgram Bool).WritesOnly _
  split
  · trivial
  · split
    · trivial
    · apply Program.WritesOnly.writeBytes
      · exact LeavesHeaders.metadata sound
      apply Program.WritesOnly.writeBytes (LeavesHeaders.entry layout _ 0 _)
      apply Program.WritesOnly.writeBytes (LeavesHeaders.entry layout _ lenPrefixBytes _)
      apply Program.WritesOnly.writeBytes (LeavesHeaders.row sound _ 0 _)
      exact recordWrites sound inside hashValue _ _ trivial

include sound in
theorem insertLoop_writes (hashValue : UInt64) (encodedId rowData : List UInt8) (fuel : Nat)
    {index : Nat} (inside : index < layout.slotCapacity) :
    (insertLoop layout hashValue encodedId rowData fuel index).WritesOnly
      (LeavesHeaders layout) := by
  induction fuel generalizing index with
  | zero => trivial
  | succ fuel ih =>
      rw [insertLoop]
      apply Program.WritesOnly.bind (writesOnly_of_readsAtMost (probeSlot_reads layout hashValue encodedId index))
      intro probe
      cases probe with
      | empty => exact insertIntoEmptySlot_writes sound inside hashValue encodedId rowData
      | hit =>
          apply Program.WritesOnly.readNat
          intro row
          exact Program.WritesOnly.writeBytes (LeavesHeaders.row sound row 0 _) trivial
      | miss => exact ih (nextIndex_inside sound index)

include sound in
/-- No insert writes to a header. -/
theorem insert_writes (hashId : List UInt8 → UInt64) (entityId : String) (rowData : List UInt8) :
    (insert hashId layout entityId rowData).WritesOnly (LeavesHeaders layout) := by
  rw [insert]
  split
  · trivial
  · split
    · trivial
    · dsimp only
      split
      · trivial
      · exact insertLoop_writes sound _ _ _ _ (homeIndex_inside sound _)

include sound in
theorem findEmptySlot_inside {ε : Type} (fuel : Nat) {index : Nat}
    (inside : index < layout.slotCapacity) {α : Type} {continuation : Option Nat → Program ε α}
    (absent : (continuation none).WritesOnly (LeavesHeaders layout))
    (found : ∀ slot, slot < layout.slotCapacity →
      (continuation (some slot)).WritesOnly (LeavesHeaders layout)) :
    (findEmptySlot layout fuel index >>= continuation).WritesOnly (LeavesHeaders layout) := by
  induction fuel generalizing index with
  | zero => exact absent
  | succ fuel ih =>
      intro bytes
      change ((if _ then _ else _ : Program ε (Option Nat)) >>= continuation).WritesOnly _
      split
      · exact found index inside
      · exact ih (nextIndex_inside sound index)

include sound in
theorem writeFields_writes {ε : Type} (columns : InsertColumns) (row : Nat) (fields : List Nat) :
    (writeFields layout columns row fields : Program ε Unit).WritesOnly (LeavesHeaders layout) := by
  induction fields with
  | nil => trivial
  | cons field rest ih => exact Program.WritesOnly.writeBytes (LeavesHeaders.row sound row _ _) ih

include sound in
theorem insertManyRow_writes {ε : Type} (columns : InsertColumns) (row : Nat) {index : Nat}
    (inside : index < layout.slotCapacity) (poolCursor : Nat) :
    (insertManyRow layout columns row index poolCursor : Program ε Nat).WritesOnly
      (LeavesHeaders layout) := by
  apply Program.WritesOnly.writeBytes (LeavesHeaders.entry layout _ 0 _)
  apply Program.WritesOnly.writeBytes (LeavesHeaders.entry layout _ lenPrefixBytes _)
  apply Program.WritesOnly.bind (writeFields_writes sound columns row _)
  intro _
  exact recordWrites sound inside _ _ _ trivial

include sound in
theorem insertManyCore_writes {ε : Type} (columns : InsertColumns) (remaining row poolCursor : Nat) :
    (insertManyCore layout columns remaining row poolCursor : Program ε Int).WritesOnly
      (LeavesHeaders layout) := by
  induction remaining generalizing row poolCursor with
  | zero => trivial
  | succ remaining ih =>
      rw [insertManyCore]
      apply findEmptySlot_inside sound _ (homeIndex_inside sound _)
      · trivial
      intro slot inside
      apply Program.WritesOnly.bind (insertManyRow_writes sound columns row inside poolCursor)
      intro cursor
      exact ih (row + 1) cursor

include sound in
/-- No bulk insert writes to a header. -/
theorem insertMany_writes (hashId : List UInt8 → UInt64) (castBits : DType → DType → Nat → Nat)
    (schema : FeatureSchema) (table : ArrowTable) :
    (insertMany hashId castBits schema layout table).WritesOnly (LeavesHeaders layout) := by
  rw [insertMany]
  split
  · trivial
  · intro bytes
    change (if _ then _ else _ : Program InsertManyError Nat).WritesOnly _
    split
    · trivial
    · split
      · trivial
      · cases prepareInsertColumns hashId castBits table schema layout with
        | error error => trivial
        | ok columns =>
            dsimp only
            split
            · trivial
            · split
              · trivial
              · apply Program.WritesOnly.bind (insertManyCore_writes sound columns _ _ _)
                intro result
                split
                · trivial
                · exact Program.WritesOnly.writeBytes (LeavesHeaders.metadata sound) trivial

end Writes

/-- The regions of a segment follow one another inside its size, and each starts at its alignment. -/
structure RegionsOrdered (layout : SegmentLayout) : Prop where
  slotPower : ∃ exponent, layout.slotCapacity = 2 ^ exponent
  slotRoom : 2 * layout.capacity ≤ layout.slotCapacity
  header : headerLength = metadataOffset ∧ metadataOffset + 16 ≤ layout.slotTableOffset
  slotTable : layout.slotTableBytes = layout.slotCapacity * slotBytes ∧
    layout.slotTableOffset + layout.slotTableBytes ≤ layout.stringPoolOffset
  poolHeader : layout.stringPoolOffset + stringPoolHeaderBytes = layout.stringPoolDataOffset
  poolData : layout.stringPoolDataBytes =
      layout.capacity * (lenPrefixBytes + layout.maxIdBytes) ∧
    layout.stringPoolDataOffset + layout.stringPoolDataBytes ≤ layout.featureRowsOffset
  rows : layout.featureRowsBytes = layout.capacity * layout.rowSize ∧
    layout.featureRowsOffset + layout.featureRowsBytes ≤ layout.totalSize
  slotTableAligned : cacheLineSize ∣ layout.slotTableOffset
  poolAligned : cacheLineSize ∣ layout.stringPoolOffset
  rowsAligned : cacheLineSize ∣ layout.featureRowsOffset
  rowSizeAligned : cacheLineSize ∣ layout.rowSize
  pages : pageSize ∣ layout.totalSize

/-- The columns of `OFFSET_TABLE_DTYPE` hold the numbers of a row. -/
def OffsetRow.Fits (row : OffsetRow) : Prop :=
  row.byteOffset < 2 ^ 64 ∧ row.dtype.code < 2 ^ 8 ∧ row.elementCount < 2 ^ 32 ∧
    row.byteCount < 2 ^ 32

/-- Every number that is stored in a word of fixed width is read back as it was. -/
structure WidthsFit (compiled : List OffsetRow) (layout : SegmentLayout) : Prop where
  capacity : leNat (leBytes 4 layout.capacity) = layout.capacity
  maxIdBytes : leNat (leBytes 4 layout.maxIdBytes) = layout.maxIdBytes
  idLength : ∀ length, length ≤ layout.maxIdBytes → leNat (leBytes 4 length) = length
  rowIndex : ∀ row, row < layout.capacity → leNat (leBytes 4 row) = row
  nextRow : ∀ row, row ≤ layout.capacity → leNat (leBytes 8 row) = row
  poolCursor : ∀ cursor, cursor ≤ layout.stringPoolDataBytes → leNat (leBytes 8 cursor) = cursor
  tables : ∀ row ∈ compiled ++ layout.rowOffsetTable ++ layout.assemblyTable, row.Fits

section Computed

variable {hashName : String → UInt64} {schema : FeatureSchema} {capacity maxIdBytes : Int}
  {layout : SegmentLayout}
  (computed : computeLayout hashName schema capacity maxIdBytes = .ok layout)

include computed in
/-- A computed layout is the layout of its own numbers. -/
theorem computeLayout_eq : layout = layoutOf layout.capacity layout.maxIdBytes layout.rowSize
    layout.rowOffsetTable layout.assemblyTable layout.totalElementCount := by
  unfold computeLayout at computed
  split at computed
  · cases computed
  split at computed
  · cases computed
  split at computed
  · cases computed
  split at computed
  · cases computed
  split at computed
  · dsimp only at computed
    split at computed
    · cases computed
    · rw [← Except.ok.inj computed]
      rfl
  · cases computed
  · cases computed

theorem rowSize_aligned {rows : Nat} (sized : rowSize hashName schema = .ok rows) :
    cacheLineSize ∣ rows := by
  unfold rowSize at sized
  cases table : computeRowOffsetTable hashName schema with
  | error error => simp [table, bind, Except.bind] at sized
  | ok table' =>
      simp only [table, bind, Except.bind, pure, Except.pure, Except.ok.injEq] at sized
      rw [← sized]
      exact dvd_alignUp _ 6

include computed in
theorem computeLayout_ordered : RegionsOrdered layout := by
  have sound := computeLayout_sound computed
  have shape := computeLayout_eq computed
  have sized := (computeLayout_parts computed).2.1
  have start := sound.slotStart
  have tableBytes : layout.slotTableBytes = layout.slotCapacity * slotBytes := by
    rw [shape]
    rfl
  have rowsBytes : layout.featureRowsBytes = layout.capacity * layout.rowSize := by
    rw [shape]
    rfl
  constructor
  · exact sound.slotPower
  · exact sound.slotRoom
  · rw [start]
    decide
  · rw [tableBytes]
    exact ⟨rfl, sound.slotEnd⟩
  · exact sound.poolStart.symm
  · exact ⟨sound.poolBytes, sound.poolEnd⟩
  · rw [rowsBytes]
    exact ⟨rfl, sound.rowsEnd⟩
  · rw [start]
    decide
  · rw [shape]
    exact dvd_alignUp _ 6
  · rw [shape]
    exact dvd_alignUp _ 6
  · exact rowSize_aligned sized
  · rw [shape]
    exact dvd_alignUp _ 12

/-- The counts of a field fit the columns of its row. -/
theorem offsetRows_fit {fields : List FeatureField} {base bound : Nat} (small : bound < 2 ^ 64)
    (inside : ∀ offset ∈ fieldByteOffsets fields base, offset ≤ bound) :
    ∀ row ∈ offsetRows hashName fields base, row.Fits := by
  intro row member
  obtain ⟨⟨field, offset⟩, placed, rfl⟩ := List.mem_map.mp member
  have early := inside offset (List.of_mem_zip placed).2
  have elements := field.elementBound
  have bytes := field.byteBound
  have code : field.dtype.code < 2 ^ 8 := by cases field.dtype <;> decide
  have elementLimit : maxElementCount < 2 ^ 32 := by decide
  have byteLimit : maxFieldBytes < 2 ^ 32 := by decide
  exact ⟨Nat.lt_of_le_of_lt early small, code, Nat.lt_of_le_of_lt elements elementLimit,
    Nat.lt_of_le_of_lt bytes byteLimit⟩

include computed in
/-- Every offset of the assembly table is below the size of the segment. -/
theorem fieldByteOffsets_bounded :
    ∀ offset ∈ fieldByteOffsets schema.fields 0, offset ≤ layout.totalSize := by
  have sound := computeLayout_sound computed
  obtain ⟨table, sized, _⟩ := computeLayout_parts computed
  intro offset member
  have second : schema.placed.map Prod.snd = fieldByteOffsets schema.fields 0 :=
    List.map_snd_zip (by rw [fieldByteOffsets_length])
  rw [← second] at member
  obtain ⟨entry, placed, rfl⟩ := List.mem_map.mp member
  have inRow := placed_inside table sized placed
  have inSegment := (sound.rowAddress_range sound.capacityPositive).2
  rw [SegmentLayout.rowAddress] at inSegment
  omega

include computed in
theorem computeLayout_fits {compiled : List OffsetRow}
    (compiles : compileSchema hashName schema = .ok compiled) : WidthsFit compiled layout := by
  have sound := computeLayout_sound computed
  obtain ⟨table, _, assembly, _⟩ := computeLayout_parts computed
  have capacityBound := sound.capacityBound
  have idBound : layout.maxIdBytes ≤ 65536 := sound.maxIdBound
  have total := sound.totalBound
  have poolEnd := sound.poolEnd
  have rowsEnd := sound.rowsEnd
  have offsets := fieldByteOffsets_bounded computed
  have relative : ∀ row ∈ offsetRows hashName schema.fields 0, row.Fits :=
    offsetRows_fit (by omega) offsets
  constructor
  · exact leNat_leBytes 4 _ capacityBound
  · exact leNat_leBytes 4 _ (by omega)
  · intro length short
    exact leNat_leBytes 4 _ (by omega)
  · intro row inside
    exact leNat_leBytes 4 _ (by omega)
  · intro row inside
    exact leNat_leBytes 8 _ (by omega)
  · intro cursor inside
    exact leNat_leBytes 8 _ (by omega)
  · intro row member
    rcases List.mem_append.mp member with early | inAssembly
    · rcases List.mem_append.mp early with inCompiled | inTable
      · rw [(compileSchema_perm compiles).mem_iff] at inCompiled
        have behind : ∀ offset ∈ fieldByteOffsets schema.fields headerSize,
            offset ≤ layout.totalSize + cacheLineSize := by
          rw [fieldByteOffsets_header schema.fieldsNonempty]
          intro offset later
          obtain ⟨start, first, rfl⟩ := List.mem_map.mp later
          have bound := offsets start first
          omega
        have line : cacheLineSize = 64 := rfl
        exact offsetRows_fit (by omega) behind row inCompiled
      · exact relative row ((computeRowOffsetTable_spec table).1.mem_iff.mp inTable)
    · rw [assembly] at inAssembly
      exact relative row inAssembly

end Computed

section RoundTrip

variable {hashId : List UInt8 → UInt64} {castBits : DType → DType → Nat → Nat}
  {schema : FeatureSchema} {layout : SegmentLayout} {header : List UInt8} {memory : Memory}
  (sound : LayoutSound layout)

include sound in
theorem freshSegment_header (size : header.length = headerSize) :
    (freshSegment layout header).read 0 headerSize = header := by
  have start := sound.slotStart
  have last := sound.slotEnd
  simp only [dataRegionOffset] at start
  rw [freshSegment_eq, Memory.read_write_disjoint _ _ _ _ _ (by simp only [headerSize]; omega),
    Memory.read_write_disjoint _ _ _ _ _ (by simp [headerSize, metadataOffset]), ← size]
  exact Memory.read_write_same _ _ _

theorem freshSegment_poolHeader :
    (freshSegment layout header).read layout.stringPoolOffset 4 = leBytes 4 layout.maxIdBytes := by
  have whole : (freshSegment layout header).read layout.stringPoolOffset (4 + 4) =
      leBytes 4 layout.maxIdBytes ++ leBytes 4 0 := by
    rw [freshSegment_eq]
    have same := Memory.read_write_same ((Memory.zero.write 0 header).write metadataOffset
      (leBytes 8 0 ++ leBytes 8 0)) layout.stringPoolOffset
      (leBytes 4 layout.maxIdBytes ++ leBytes 4 0)
    rwa [List.length_append, leBytes_length, leBytes_length] at same
  rw [← Memory.read_take _ _ 4 4, whole, List.take_left' (leBytes_length 4 _)]

include sound in
/-- The two headers of a segment are the same after any inserts. -/
theorem Inserted.headers (size : header.length = headerSize)
    (inserted : Inserted hashId castBits schema layout header memory) :
    memory.read 0 headerSize = header ∧
      memory.read layout.stringPoolOffset 4 = leBytes 4 layout.maxIdBytes := by
  have pool := sound.poolStart
  have start := sound.slotStart
  have last := sound.slotEnd
  simp only [dataRegionOffset] at start
  simp only [stringPoolHeaderBytes] at pool
  have apartHeader : ∀ address length, LeavesHeaders layout address length →
      0 + headerSize ≤ address ∨ address + length ≤ 0 := by
    intro address length leaves
    simp only [LeavesHeaders, metadataOffset] at leaves
    simp only [headerSize]
    omega
  have apartPool : ∀ address length, LeavesHeaders layout address length →
      layout.stringPoolOffset + 4 ≤ address ∨ address + length ≤ layout.stringPoolOffset := by
    intro address length leaves
    simp only [LeavesHeaders] at leaves
    omega
  induction inserted with
  | fresh => exact ⟨freshSegment_header sound size, freshSegment_poolHeader⟩
  | insert before entityId rowData count ih =>
      have writes := insert_writes sound hashId entityId rowData
      exact ⟨(writes.read_cut apartHeader _ count).trans ih.1,
        (writes.read_cut apartPool _ count).trans ih.2⟩
  | insertMany before table count ih =>
      have writes := insertMany_writes sound hashId castBits schema table
      exact ⟨(writes.read_cut apartHeader _ count).trans ih.1,
        (writes.read_cut apartPool _ count).trans ih.2⟩

theorem packHeader_capacity {externals : Externals} {capacity : Nat}
    (packed : packHeader externals schema capacity = some header) :
    header.length = headerSize ∧ header.drop 12 = leBytes 4 capacity := by
  unfold packHeader at packed
  split at packed
  · cases packed
  · split at packed
    · rw [← Option.some.inj packed]
      constructor
      · rfl
      · rfl
    · cases packed

/-- A word of a mapping is unpacked as the bytes of the memory say. -/
theorem unpackUInt32_read (memory : Memory) {size offset : Nat} (inside : offset + 4 ≤ size) :
    unpackUInt32 (memory.read 0 size) offset = .ok (leNat (memory.read offset 4)) := by
  rw [unpackUInt32, Memory.read_length, if_pos inside, slice_read memory 0 inside, Nat.zero_add]

/-- Two stored words give the layout that is computed from them. -/
theorem computeLayoutFromSegment_of_words {hashName : String → UInt64} {buf : List UInt8}
    {capacity maxIdBytes : Nat} (capacityWord : unpackUInt32 buf 12 = .ok capacity)
    (budgetWord : unpackUInt32 buf (stringPoolOffsetOf capacity) = .ok maxIdBytes)
    (positive : 0 < capacity ∧ 0 < maxIdBytes)
    (computed : computeLayout hashName schema capacity maxIdBytes = .ok layout) :
    computeLayoutFromSegment hashName buf schema = .ok layout := by
  rw [computeLayoutFromSegment, capacityWord]
  simp only [bind, Except.bind]
  rw [if_neg (Nat.pos_iff_ne_zero.mp positive.1), budgetWord]
  dsimp only
  rw [if_neg (Nat.pos_iff_ne_zero.mp positive.2), computed]

/-- An opened layout is computed from two stored words. -/
theorem computeLayoutFromSegment_words {hashName : String → UInt64} {buf : List UInt8}
    (opened : computeLayoutFromSegment hashName buf schema = .ok layout) :
    ∃ capacity maxIdBytes : Nat, unpackUInt32 buf 12 = .ok capacity ∧
      unpackUInt32 buf (stringPoolOffsetOf capacity) = .ok maxIdBytes ∧
      (0 < capacity ∧ 0 < maxIdBytes) ∧
      computeLayout hashName schema capacity maxIdBytes = .ok layout := by
  unfold computeLayoutFromSegment at opened
  cases first : unpackUInt32 buf 12 with
  | error error => simp [first, bind, Except.bind] at opened
  | ok capacity =>
      simp only [first, bind, Except.bind] at opened
      split at opened
      · cases opened
      · rename_i capacityPositive
        cases second : unpackUInt32 buf (stringPoolOffsetOf capacity) with
        | error error => simp [second] at opened
        | ok maxIdBytes =>
            simp only [second] at opened
            split at opened
            · cases opened
            · rename_i budgetPositive
              have computed : computeLayout hashName schema capacity maxIdBytes = .ok layout := by
                cases found : computeLayout hashName schema capacity maxIdBytes with
                | error error =>
                    rw [found] at opened
                    cases opened
                | ok same =>
                    rw [found] at opened
                    exact congrArg Except.ok (Except.ok.inj opened)
              exact ⟨capacity, maxIdBytes, rfl, second,
                ⟨Nat.pos_of_ne_zero capacityPositive, Nat.pos_of_ne_zero budgetPositive⟩, computed⟩

/-- The layout of a segment is recovered from its bytes after any inserts. -/
theorem computeLayoutFromSegment_inserted {externals : Externals} {capacity maxIdBytes : Int}
    (computed : computeLayout externals.hashName schema capacity maxIdBytes = .ok layout)
    (packed : packHeader externals schema layout.capacity = some header)
    (inserted : Inserted hashId castBits schema layout header memory) :
    computeLayoutFromSegment externals.hashName (memory.read 0 layout.totalSize) schema =
      .ok layout := by
  have sound := computeLayout_sound computed
  obtain ⟨_, _, _, _, capacityCast, idCast⟩ := computeLayout_parts computed
  obtain ⟨size, capacityBytes⟩ := packHeader_capacity packed
  obtain ⟨headerBytes, poolBytes⟩ := inserted.headers sound size
  have capacityWord : memory.read 12 4 = leBytes 4 layout.capacity := by
    rw [← capacityBytes, ← headerBytes]
    exact (Memory.read_drop memory 0 12 4).symm
  have pool : stringPoolOffsetOf layout.capacity = layout.stringPoolOffset := by
    rw [computeLayout_eq computed]
    rfl
  have capacityPositive := sound.capacityPositive
  have idPositive := sound.maxIdPositive
  have idBound : layout.maxIdBytes ≤ 65536 := sound.maxIdBound
  have poolStart := sound.poolStart
  have poolEnd := sound.poolEnd
  have rowsEnd := sound.rowsEnd
  have slotStart := sound.slotStart
  have slotEnd := sound.slotEnd
  simp only [stringPoolHeaderBytes] at poolStart
  simp only [dataRegionOffset] at slotStart
  apply computeLayoutFromSegment_of_words
  · rw [unpackUInt32_read memory (by omega), capacityWord, leNat_leBytes 4 _ sound.capacityBound]
  · rw [pool, unpackUInt32_read memory (by omega), poolBytes, leNat_leBytes 4 _ (by omega)]
  · exact ⟨capacityPositive, idPositive⟩
  · rw [capacityCast, idCast, computed]

end RoundTrip

/-- Every accepted layout orders its regions and fits its words, and the layout is recovered from
a segment after any inserts. -/
theorem computeLayout_roundTrip {externals : Externals} {schema : FeatureSchema}
    {capacity maxIdBytes : Int} {layout : SegmentLayout}
    (computed : computeLayout externals.hashName schema capacity maxIdBytes = .ok layout) :
    RegionsOrdered layout ∧
      (∃ compiled, compileSchema externals.hashName schema = .ok compiled ∧
        WidthsFit compiled layout) ∧
      ∀ header, packHeader externals schema layout.capacity = some header →
        ∀ memory, Inserted externals.hashId externals.castBits schema layout header memory →
          computeLayoutFromSegment externals.hashName (memory.read 0 layout.totalSize) schema =
            .ok layout := by
  constructor
  · exact computeLayout_ordered computed
  constructor
  · have table := (computeLayout_parts computed).1
    unfold computeRowOffsetTable at table
    cases compiles : compileSchema externals.hashName schema with
    | error error => simp [compiles, bind, Except.bind] at table
    | ok compiled => exact ⟨compiled, rfl, computeLayout_fits computed compiles⟩
  · intro header packed memory inserted
    exact computeLayoutFromSegment_inserted computed packed inserted

theorem compileSchema_sample : compileSchema sampleHash sampleSchema =
    .ok [⟨0, 64, .float32, 1, 4⟩] := by
  simp [compileSchema, sampleSchema, offsetRows, fieldByteOffsets, alignUp, headerSize,
    cacheLineSize, FeatureField.byteCount, FeatureField.elementCount, elementProduct,
    DType.byteSize, sampleHash]

theorem packHeader_sample : ∃ header,
    packHeader sampleExternals sampleSchema sampleLayout.capacity = some header := by
  unfold packHeader
  rw [show compileSchema sampleExternals.hashName sampleSchema = _ from compileSchema_sample]
  exact ⟨_, if_pos (by decide)⟩

/-- The layout of the sample segment is recovered after an insert that is cut off. -/
theorem computeLayout_roundTrip_sample :
    RegionsOrdered sampleLayout ∧
      ∃ header, packHeader sampleExternals sampleSchema sampleLayout.capacity = some header ∧
        computeLayoutFromSegment sampleHash
            ((cutInsert (fun _ => 0) sampleLayout (freshSegment sampleLayout header) "a"
              (List.replicate 64 7) 3).read 0 sampleLayout.totalSize) sampleSchema =
          .ok sampleLayout := by
  have computed : computeLayout sampleExternals.hashName sampleSchema 2 8 = .ok sampleLayout :=
    computeLayout_sample_of_hash rfl
  obtain ⟨ordered, _, recovered⟩ := computeLayout_roundTrip computed
  obtain ⟨header, packed⟩ := packHeader_sample
  exact ⟨ordered, header, packed, recovered header packed _ (.insert .fresh "a" _ 3)⟩

end Quorin
