import Quorin.Construction.PackRow
import Quorin.Proof.Evolution.TranslationTable

namespace Quorin

open ByteMemory LinearProbe

section Packing

variable {hashName : String → UInt64} {schema : FeatureSchema} {table : ArrowTable}
  {ids : List String} {elements : FeatureField → Nat → List (List UInt8)}

/-- The array of a field in the arrays of a row. -/
theorem DeclaredTable.rowValues_lookup (declared : DeclaredTable schema table ids elements)
    {row : Nat} (inside : row < ids.length) {field : FeatureField} (member : field ∈ schema.fields) :
    (table.rowValues schema row).lookup field.name = some ⟨field.dtype, elements field row⟩ := by
  have found := lookup_columns (table.fieldArray row) [] schema.namesDistinct member
  rw [List.append_nil] at found
  rw [ArrowTable.rowValues, found, ArrowTable.fieldArray, declared.column field member]
  simp [List.getD_eq_getElem?_getD, inside]

/-- The row that `pack_row` fills in, field by field. -/
def packCells (elements : FeatureField → Nat → List (List UInt8)) (row : Nat) :
    List (FeatureField × Nat) → List UInt8 → List UInt8
  | [], out => out
  | (field, offset) :: rest, out =>
      packCells elements row rest (out.take offset ++ (elements field row).flatten ++
        out.drop (offset + (elements field row).flatten.length))

theorem packCells_length (row : Nat) (placed : List (FeatureField × Nat)) {out : List UInt8}
    (inside : ∀ entry ∈ placed,
      entry.2 + (elements entry.1 row).flatten.length ≤ out.length) :
    (packCells elements row placed out).length = out.length := by
  induction placed generalizing out with
  | nil => rfl
  | cons entry rest ih =>
      have fits := inside entry List.mem_cons_self
      have length : (out.take entry.2 ++ (elements entry.1 row).flatten ++
          out.drop (entry.2 + (elements entry.1 row).flatten.length)).length = out.length := by
        simp only [List.length_append, List.length_take, List.length_drop]
        omega
      rw [packCells, ih, length]
      intro other later
      rw [length]
      exact inside other (List.mem_cons_of_mem _ later)

/-- The write of a packed row is the write of the row and of each of its cells. -/
theorem write_packCells (row : Nat) (placed : List (FeatureField × Nat)) (memory : Memory)
    (address : Nat) {out : List UInt8}
    (inside : ∀ entry ∈ placed,
      entry.2 + (elements entry.1 row).flatten.length ≤ out.length) :
    memory.write address (packCells elements row placed out) =
      (memory.write address out).applyAll (placed.map fun entry =>
        ⟨address + entry.2, (elements entry.1 row).flatten⟩) := by
  induction placed generalizing out with
  | nil => rfl
  | cons entry rest ih =>
      have fits := inside entry List.mem_cons_self
      have length : (out.take entry.2 ++ (elements entry.1 row).flatten ++
          out.drop (entry.2 + (elements entry.1 row).flatten.length)).length = out.length := by
        simp only [List.length_append, List.length_take, List.length_drop]
        omega
      rw [packCells, ih, List.map_cons, Memory.applyAll_cons, Memory.write_within _ _ fits]
      intro other later
      rw [length]
      exact inside other (List.mem_cons_of_mem _ later)

theorem DeclaredTable.packRowFields_eq (declared : DeclaredTable schema table ids elements)
    {row : Nat} (inside : row < ids.length) (placed : List (FeatureField × Nat))
    (members : ∀ entry ∈ placed, entry.1 ∈ schema.fields) (out : List UInt8) :
    packRowFields (table.rowValues schema row)
        (placed.map fun entry => (entry.1, placedRow hashName entry)) out =
      .ok (packCells elements row placed out) := by
  induction placed generalizing out with
  | nil => rfl
  | cons entry rest ih =>
      have member := members entry List.mem_cons_self
      rw [List.map_cons, packRowFields, declared.rowValues_lookup inside member]
      simp only [Option.getD_some, placedRow, ne_eq, not_true_eq_false, if_false,
        declared.count _ member row inside]
      rw [packCells, declared.toDeclaredCells.cell_length member inside]
      exact ih (fun other later => members other (List.mem_cons_of_mem _ later)) _

/-- A row of a declared table is packed into a zeroed row. -/
theorem DeclaredTable.packRow_eq (declared : DeclaredTable schema table ids elements) {size : Nat}
    (sized : rowSize hashName schema = .ok size) {row : Nat} (inside : row < ids.length) :
    packRow hashName schema (table.rowValues schema row) =
      .ok (packCells elements row schema.placed (List.replicate size 0)) := by
  have keys : (table.rowValues schema row).map Prod.fst = schema.fields.map FeatureField.name := by
    rw [ArrowTable.rowValues, List.map_map]
    rfl
  have complete : ((schema.fields.map FeatureField.name).all
      ((schema.fields.map FeatureField.name).contains ·) &&
        (schema.fields.map FeatureField.name).all
          ((schema.fields.map FeatureField.name).contains ·)) = true := by
    simp only [Bool.and_self, List.all_eq_true, List.contains_iff_mem]
    exact fun name member => member
  unfold packRow
  rw [sized]
  simp only [keys]
  rw [if_pos complete, zip_assembly]
  exact declared.packRowFields_eq inside _ (fun entry member => (List.of_mem_zip member).1) _

end Packing

/-- The bytes of both cursors. -/
def cursorBytes (rows cursor : Nat) : List UInt8 := leBytes 8 rows ++ leBytes 8 cursor

theorem cursorBytes_length (rows cursor : Nat) : (cursorBytes rows cursor).length = 16 := by
  simp [cursorBytes]

section Metadata

variable {layout : SegmentLayout} (sound : LayoutSound layout)

include sound in
/-- A range behind the metadata keeps its bytes when the cursors are written. -/
theorem read_cursors (memory : Memory) (rows cursor : Nat) {start count : Nat}
    (behind : layout.slotTableOffset ≤ start) :
    (memory.write metadataOffset (cursorBytes rows cursor)).read start count =
      memory.read start count := by
  have region := sound.slotStart
  apply Memory.read_write_disjoint
  rw [cursorBytes_length]
  simp only [metadataOffset, dataRegionOffset] at *
  omega

include sound in
/-- The keys of the slots do not depend on the cursors. -/
theorem slotKey_cursors (memory : Memory) (rows cursor : Nat) :
    slotKey layout (memory.write metadataOffset (cursorBytes rows cursor)) =
      slotKey layout memory := by
  have region := sound.slotEnd
  have pool := sound.poolStart
  funext index
  have field : ∀ offset width, (memory.write metadataOffset (cursorBytes rows cursor)).readNat
      (layout.slotField index offset) width =
        memory.readNat (layout.slotField index offset) width := by
    intro offset width
    rw [Memory.readNat, read_cursors sound, Memory.readNat]
    simp only [SegmentLayout.slotField]
    omega
  have entry : ∀ idOffset, entryBytes layout (memory.write metadataOffset (cursorBytes rows cursor))
      idOffset = entryBytes layout memory idOffset := by
    intro idOffset
    have behind : layout.slotTableOffset ≤ layout.entryAddress idOffset := by
      simp only [SegmentLayout.entryAddress]
      omega
    rw [entryBytes, entryBytes, entryLength, entryLength, Memory.readNat, Memory.readNat,
      read_cursors sound _ _ _ behind, read_cursors sound _ _ _ (by omega)]
  unfold slotKey slotFlags slotIdOffset
  rw [field, field, entry]

end Metadata

section Sequence

variable {hashId : List UInt8 → UInt64} {layout : SegmentLayout} (sound : LayoutSound layout)

include sound in
/-- An insert whose probe stops at a vacant slot of a segment with room adds its entity there. -/
theorem insert_vacant {memory : Memory} (consistent : Consistent hashId layout memory)
    {entityId : String} {rowData : List UInt8} (nonempty : entityId ≠ "")
    (size : rowData.length = layout.rowSize)
    (short : (encodeUtf8 entityId).length ≤ layout.maxIdBytes)
    (free : nextFreeRow memory < layout.capacity) {index : Nat}
    (stopped : probe layout.slotCapacity (slotKey layout memory) (encodeUtf8 entityId)
      layout.slotCapacity (homeIndex layout (hashId (encodeUtf8 entityId))) = .vacant index) :
    (insert hashId layout entityId rowData).trace memory =
      (.ok true, insertPlan layout index (hashId (encodeUtf8 entityId)) (encodeUtf8 entityId)
        rowData (nextFreeRow memory) (stringPoolCursor memory)) := by
  unfold insert
  simp only [if_neg nonempty, size, ne_eq, not_true_eq_false, if_false,
    if_neg (Nat.not_lt.mpr short)]
  rw [insertLoop_trace sound consistent _ _ _ (homeIndex_inside sound _), stopped]
  dsimp only
  rw [insertIntoEmptySlot_trace sound consistent _ _ _ _ short, if_pos free]

/-- The sequential segment is the segment of the kernel with written cursors, and the rows behind
are clear. -/
structure Mirrored (layout : SegmentLayout) (kernel sequential : Memory) (rows cursor : Nat) :
    Prop where
  cursors : sequential = kernel.write metadataOffset (cursorBytes rows cursor)
  clear : ∀ row, rows ≤ row → row < layout.capacity →
    kernel.read (layout.rowAddress row) layout.rowSize = List.replicate layout.rowSize 0

include sound in
theorem freshSegment_mirrored {header : List UInt8} (headerLength : header.length = headerSize) :
    Mirrored layout (freshSegment layout header) (freshSegment layout header) 0 0 := by
  have start := sound.slotStart
  have tableEnd := sound.slotEnd
  have pool := sound.poolStart
  simp only [dataRegionOffset] at start
  constructor
  · have metadata : (freshSegment layout header).read metadataOffset 16 = cursorBytes 0 0 := by
      rw [freshSegment_eq, Memory.read_write_disjoint]
      · exact Memory.read_write_same _ _ (cursorBytes 0 0)
      · simp only [metadataOffset]
        omega
    rw [← metadata, Memory.write_read]
  · intro row _ bound
    have region := (sound.rowAddress_range bound).1
    rw [freshSegment_eq, Memory.read_write_disjoint, Memory.read_write_disjoint,
      Memory.read_write_disjoint]
    · simp [Memory.read, Memory.zero]
    · simp only [headerSize] at headerLength
      omega
    · simp only [metadataOffset, List.length_append, leBytes_length]
      omega
    · simp only [List.length_append, leBytes_length]
      simp only [stringPoolHeaderBytes] at pool
      omega

section Row

variable {rows cursor index : Nat} {key : List UInt8} (short : key.length ≤ layout.maxIdBytes)
  (inside : index < layout.slotCapacity) (free : rows < layout.capacity)
  (used : cursor ≤ rows * (lenPrefixBytes + layout.maxIdBytes)) (hashValue : UInt64)
  {rowWrites : List Write} (inRow : ∀ entry ∈ rowWrites, InRow layout rows entry)

include sound short inside free used inRow in
/-- The writes of one row lie behind the metadata and touch no other row. -/
theorem record_places : ∀ entry ∈ recordPlan layout index hashValue key rowWrites rows cursor ++
      [⟨layout.slotField index slotFlagsOffset, leBytes 4 flagOccupied⟩],
    layout.slotTableOffset ≤ entry.address ∧
      ∀ row, row < layout.capacity → row ≠ rows →
        layout.rowAddress row + layout.rowSize ≤ entry.address ∨
          entry.last ≤ layout.rowAddress row := by
  have tableEnd := sound.slotEnd
  have pool := sound.poolStart
  have room := (sound.pool_room free used short).2
  have slotPlace : ∀ offset, ∀ bytes : List UInt8, offset + bytes.length ≤ slotBytes →
      layout.slotTableOffset ≤ layout.slotField index offset ∧
        ∀ row, row < layout.capacity → row ≠ rows →
          layout.rowAddress row + layout.rowSize ≤ layout.slotField index offset ∨
            (⟨layout.slotField index offset, bytes⟩ : Write).last ≤ layout.rowAddress row := by
    intro offset bytes fits
    have field := sound.slotField_range offset bytes.length inside fits
    refine ⟨by simp only [SegmentLayout.slotField]; omega, fun row bound _ => Or.inr ?_⟩
    have region := (sound.rowAddress_range bound).1
    simp only [Write.last]
    omega
  have poolPlace : ∀ address, ∀ bytes : List UInt8, layout.stringPoolDataOffset ≤ address →
      address + bytes.length ≤ layout.stringPoolDataOffset + layout.stringPoolDataBytes →
      layout.slotTableOffset ≤ address ∧
        ∀ row, row < layout.capacity → row ≠ rows →
          layout.rowAddress row + layout.rowSize ≤ address ∨
            (⟨address, bytes⟩ : Write).last ≤ layout.rowAddress row := by
    intro address bytes lower upper
    refine ⟨by omega, fun row bound _ => Or.inr ?_⟩
    have region := (sound.rowAddress_range bound).1
    simp only [Write.last]
    omega
  intro entry member
  simp only [recordPlan, List.cons_append, List.mem_cons, List.mem_append, List.not_mem_nil,
    or_false] at member
  rcases member with rfl | rfl | (row | rfl | rfl | rfl) | rfl
  · apply poolPlace
    · simp only [SegmentLayout.entryAddress]; omega
    · simp only [SegmentLayout.entryAddress, leBytes_length, lenPrefixBytes] at *; omega
  · apply poolPlace
    · simp only [SegmentLayout.entryAddress]; omega
    · simp only [SegmentLayout.entryAddress]; omega
  · have place := inRow entry row
    have region := (sound.rowAddress_range free).1
    refine ⟨by have lower := place.1; omega, fun other bound different => ?_⟩
    have apart := layout.rowAddress_disjoint different
    have lower := place.1
    have upper := place.2
    omega
  · exact slotPlace _ _ (by rw [leBytes_length]; decide)
  · exact slotPlace _ _ (by rw [leBytes_length]; decide)
  · exact slotPlace _ _ (by rw [leBytes_length]; decide)
  · exact slotPlace _ _ (by rw [leBytes_length]; decide)

include sound free in
/-- On a clear row, the write of the packed row and the writes of its cells agree. -/
theorem recordPlan_packed {memory : Memory} {packed : List UInt8}
    (room : cursor + (lenPrefixBytes + key.length) ≤ layout.stringPoolDataBytes)
    (cells : ∀ before : Memory, before.read (layout.rowAddress rows) layout.rowSize =
        List.replicate layout.rowSize 0 →
      before.applyAll rowWrites = before.write (layout.rowAddress rows) packed)
    (clear : memory.read (layout.rowAddress rows) layout.rowSize =
      List.replicate layout.rowSize 0) :
    memory.applyAll (recordPlan layout index hashValue key rowWrites rows cursor) =
      memory.applyAll (recordPlan layout index hashValue key
        [⟨layout.rowAddress rows, packed⟩] rows cursor) := by
  have region := (sound.rowAddress_range free).1
  have kept : ((memory.write (layout.entryAddress cursor) (leBytes 4 key.length)).write
      (layout.entryAddress cursor + lenPrefixBytes) key).read (layout.rowAddress rows)
        layout.rowSize = List.replicate layout.rowSize 0 := by
    rw [Memory.read_write_disjoint, Memory.read_write_disjoint]
    · exact clear
    · simp only [SegmentLayout.entryAddress, leBytes_length, lenPrefixBytes] at *
      omega
    · simp only [SegmentLayout.entryAddress] at *
      omega
  simp only [recordPlan, Memory.applyAll_cons, Memory.applyAll_append]
  rw [cells _ kept]
  rfl

include sound short inside free used inRow in
/-- One row of the kernel mirrors one sequential insert of the packed row. -/
theorem Mirrored.row {kernel sequential : Memory} {packed : List UInt8}
    (mirrored : Mirrored layout kernel sequential rows cursor)
    (size : packed.length = layout.rowSize)
    (cells : ∀ before : Memory, before.read (layout.rowAddress rows) layout.rowSize =
        List.replicate layout.rowSize 0 →
      before.applyAll rowWrites = before.write (layout.rowAddress rows) packed) :
    Mirrored layout
      (kernel.applyAll (recordPlan layout index hashValue key rowWrites rows cursor ++
        [⟨layout.slotField index slotFlagsOffset, leBytes 4 flagOccupied⟩]))
      (sequential.applyAll (insertPlan layout index hashValue key packed rows cursor))
      (rows + 1) (cursor + (lenPrefixBytes + key.length)) := by
  have start := sound.slotStart
  simp only [dataRegionOffset] at start
  have places := record_places sound short inside free used hashValue inRow
  have single : ∀ entry ∈ [(⟨layout.rowAddress rows, packed⟩ : Write)], InRow layout rows entry :=
    rowWrite_inRow layout rows size
  have singlePlaces := record_places sound short inside free used hashValue single
  have room := (sound.pool_room free used short).2
  constructor
  · rw [show insertPlan layout index hashValue key packed rows cursor =
        ⟨metadataOffset, cursorBytes (rows + 1) (cursor + (lenPrefixBytes + key.length))⟩ ::
          (recordPlan layout index hashValue key [⟨layout.rowAddress rows, packed⟩] rows cursor ++
            [⟨layout.slotField index slotFlagsOffset, leBytes 4 flagOccupied⟩]) from rfl,
      Memory.applyAll_cons, mirrored.cursors, Memory.write_write_same _ _ (by
        rw [cursorBytes_length, cursorBytes_length]), Memory.applyAll_write]
    · rw [Memory.applyAll_append, Memory.applyAll_append,
        recordPlan_packed sound free hashValue room cells
          (mirrored.clear rows (Nat.le_refl _) free)]
    · intro entry member
      have behind := (singlePlaces entry member).1
      rw [cursorBytes_length]
      simp only [metadataOffset]
      omega
  · intro row behind bound
    rw [Memory.read_applyAll_disjoint _ _ _ _ fun entry member =>
      (places entry member).2 row bound (by omega)]
    exact mirrored.clear row (by omega) bound

end Row

end Sequence

section Parity

variable {hashName : String → UInt64} {hashId : List UInt8 → UInt64} {schema : FeatureSchema}
  {layout : SegmentLayout} (sound : LayoutSound layout) {ids : List String}
  {elements : FeatureField → Nat → List (List UInt8)} {values : List UInt8}
  (declared : DeclaredCells schema ids.length elements)
  (rowTable : computeRowOffsetTable hashName schema = .ok layout.rowOffsetTable)
  (rowBytes : rowSize hashName schema = .ok layout.rowSize)

/-- The packed row of one row of the table. -/
def packedRow (schema : FeatureSchema) (layout : SegmentLayout)
    (elements : FeatureField → Nat → List (List UInt8)) (row : Nat) : List UInt8 :=
  packCells elements row schema.placed (List.replicate layout.rowSize 0)

include declared rowTable rowBytes in
theorem packedRow_fits {row : Nat} (inside : row < ids.length) :
    ∀ entry ∈ schema.placed, entry.2 + (elements entry.1 row).flatten.length ≤
      (List.replicate layout.rowSize (0 : UInt8)).length := by
  intro entry member
  rw [declared.cell_length (List.of_mem_zip member).1 inside, List.length_replicate]
  exact placed_inside rowTable rowBytes member

include declared rowTable rowBytes in
theorem packedRow_length {row : Nat} (inside : row < ids.length) :
    (packedRow schema layout elements row).length = layout.rowSize := by
  rw [packedRow, packCells_length _ _ (packedRow_fits declared rowTable rowBytes inside),
    List.length_replicate]

include declared in
theorem rowWrites_declared {row : Nat} (inside : row < ids.length) :
    rowWrites layout (declaredColumns hashId schema elements values ids) row =
      schema.placed.map fun entry =>
        ⟨layout.rowAddress row + entry.2, (elements entry.1 row).flatten⟩ := by
  apply List.ext_getElem
  · simp [rowWrites, declaredColumns]
  · intro field _ bound
    rw [List.length_map] at bound
    simp only [rowWrites, List.getElem_map, List.getElem_range]
    exact declared.cellWrite_eq hashId values layout inside bound

include declared rowTable rowBytes in
/-- On a clear row the cells of the kernel write the packed row. -/
theorem rowWrites_packed {row : Nat} (inside : row < ids.length) (before : Memory)
    (clear : before.read (layout.rowAddress row) layout.rowSize =
      List.replicate layout.rowSize 0) :
    before.applyAll (rowWrites layout (declaredColumns hashId schema elements values ids) row) =
      before.write (layout.rowAddress row) (packedRow schema layout elements row) := by
  rw [packedRow, write_packCells _ _ _ _ (packedRow_fits declared rowTable rowBytes inside),
    ← clear, Memory.write_read, rowWrites_declared declared inside]

include sound declared rowTable rowBytes in
/-- The kernel and the sequential inserts of the packed rows mirror each other to the last row. -/
theorem insertManyCore_mirrored (ε : Type)
    (prepared : ColumnsSound hashId layout (declaredColumns hashId schema elements values ids) ids)
    (room : ids.length ≤ layout.capacity) (remaining : Nat) {memory : Memory} {rows cursor : Nat}
    {history : SegmentHistory}
    (loaded : Loaded hashId layout (declaredColumns hashId schema elements values ids) ids memory
      rows cursor)
    (mirrored : Mirrored layout memory history.memory rows cursor)
    (total : rows + remaining = ids.length) :
    let requests := (List.range' rows remaining).map fun row =>
      (⟨ids.getD row "", packedRow schema layout elements row⟩ : InsertRequest)
    let after := requests.foldl (SegmentHistory.completeInsert hashId layout) history
    ∃ (writes : List Write) (last : Nat),
      (insertManyCore layout (declaredColumns hashId schema elements values ids) remaining rows
        cursor : Program ε Int).trace memory = (.ok (last : Int), writes) ∧
      Mirrored layout (memory.applyAll writes) after.memory ids.length last ∧
      after.log = requests.reverse ++ history.log := by
  induction remaining generalizing memory rows cursor history with
  | zero =>
      obtain rfl : rows = ids.length := total
      exact ⟨[], cursor, rfl, mirrored, rfl⟩
  | succ remaining ih =>
      have more : rows < ids.length := by omega
      have free : rows < layout.capacity := by omega
      obtain ⟨index, inside, stopped, extended, continues⟩ :=
        insertManyCore_step sound prepared ε room remaining loaded more
      have member := getD_mem more
      have size := packedRow_length declared rowTable rowBytes more
      have next := mirrored.row sound (prepared.short _ member) inside free
        loaded.invariant.cursorBound (hashId (encodeUtf8 (ids.getD rows "")))
        (rowWrites_inRow prepared rows) size (rowWrites_packed declared rowTable rowBytes more)
      -- The sequential segment is consistent, so its insert takes the slot of the kernel.
      obtain ⟨rowsRead, cursorRead, final⟩ := writeMetadata_loaded sound prepared loaded
      have written : history.memory = memory.write metadataOffset
        (leBytes 8 rows ++ leBytes 8 cursor) := mirrored.cursors
      rw [← written] at rowsRead cursorRead final
      have consistent : Consistent hashId layout history.memory := by
        unfold Consistent
        rw [rowsRead, cursorRead]
        exact final.invariant
      have keys : slotKey layout history.memory = slotKey layout memory := by
        rw [mirrored.cursors]
        exact slotKey_cursors sound memory rows cursor
      have inserted := insert_vacant sound consistent (prepared.named _ member) size
        (prepared.short _ member) (by rw [rowsRead]; exact free) (by rw [keys]; exact stopped)
      rw [rowsRead, cursorRead] at inserted
      have completed : history.completeInsert hashId layout
          ⟨ids.getD rows "", packedRow schema layout elements rows⟩ =
            { history with
              memory := history.memory.applyAll (insertPlan layout index
                (hashId (encodeUtf8 (ids.getD rows ""))) (encodeUtf8 (ids.getD rows ""))
                (packedRow schema layout elements rows) rows cursor)
              log := ⟨ids.getD rows "", packedRow schema layout elements rows⟩ :: history.log } := by
        unfold SegmentHistory.completeInsert Program.run Program.result Program.writes
        dsimp only
        rw [inserted]
      obtain ⟨writes, last, trace, reached, logged⟩ :=
        @ih _ (rows + 1) _ (history.completeInsert hashId layout
          ⟨ids.getD rows "", packedRow schema layout elements rows⟩) extended
          (by rw [completed]; exact next) (by omega)
      refine ⟨_, last, continues _ _ trace, ?_, ?_⟩
      · rw [Memory.applyAll_append]
        exact reached
      · rw [List.range'_succ, List.map_cons, List.foldl_cons, logged, completed]
        simp

end Parity

/-- A computation that succeeds on every entry succeeds on the list. -/
theorem mapM_ok {α β ε : Type} {f : α → Except ε β} {g : α → β} {entries : List α}
    (ok : ∀ entry ∈ entries, f entry = .ok (g entry)) : entries.mapM f = .ok (entries.map g) := by
  induction entries with
  | nil => rfl
  | cons entry rest ih =>
      rw [List.mapM_cons, ok entry List.mem_cons_self,
        ih fun other later => ok other (List.mem_cons_of_mem _ later)]
      rfl

section Unchanged

variable {ε : Type} (layout : SegmentLayout)

theorem findEmptySlot_returns (fuel index : Nat) (memory : Memory) :
    ∃ found, (findEmptySlot layout fuel index : Program ε (Option Nat)).trace memory =
      (.ok found, []) := by
  induction fuel generalizing index with
  | zero => exact ⟨none, rfl⟩
  | succ fuel ih =>
      rw [findEmptySlot, Program.trace_readNat]
      split
      · exact ⟨some index, rfl⟩
      · exact ih _

theorem insertManyRow_returns (columns : InsertColumns) (row index cursor : Nat) (memory : Memory) :
    ∃ value writes, (insertManyRow layout columns row index cursor : Program ε Nat).trace memory =
      (.ok value, writes) := by
  unfold insertManyRow
  simp only [Program.trace_writeBytes, Program.trace_bind_ok (writeFields_trace layout columns row _ _)]
  exact ⟨_, _, rfl⟩

/-- The kernel raises no error. -/
theorem insertManyCore_returns (columns : InsertColumns) (remaining row cursor : Nat)
    (memory : Memory) :
    ∃ value writes, (insertManyCore layout columns remaining row cursor : Program ε Int).trace memory =
      (.ok value, writes) := by
  induction remaining generalizing row cursor memory with
  | zero => exact ⟨_, _, rfl⟩
  | succ remaining ih =>
      obtain ⟨found, probed⟩ := @findEmptySlot_returns ε layout layout.slotCapacity
        (homeIndex layout (columns.idHashes.getD row 0)) memory
      rw [insertManyCore, Program.trace_bind_reads probed]
      cases found with
      | none => exact ⟨_, _, rfl⟩
      | some index =>
          obtain ⟨value, writes, inserted⟩ := @insertManyRow_returns ε layout columns row index cursor
            memory
          obtain ⟨result, later, rest⟩ := ih (row + 1) value (memory.applyAll writes)
          dsimp only
          rw [Program.trace_bind_ok inserted, rest]
          exact ⟨_, _, rfl⟩

/-- A bulk insert that raises has written nothing, or its kernel found no empty slot. -/
theorem insertMany_raises {hashId : List UInt8 → UInt64} {castBits : DType → DType → Nat → Nat}
    {schema : FeatureSchema} {table : ArrowTable} {memory after : Memory} {error : InsertManyError}
    (raised : (insertMany hashId castBits schema layout table).run memory = (.error error, after)) :
    after = memory ∨ ∃ row, error = .slotTableScanned row layout.capacity layout.slotCapacity := by
  obtain ⟨failed, written⟩ := Prod.mk.inj raised
  unfold Program.result at failed
  unfold Program.writes at written
  rw [← written]
  have unwritten : ∀ other : InsertManyError,
      (insertMany hashId castBits schema layout table).trace memory = (.error other, []) →
        memory.applyAll ((insertMany hashId castBits schema layout table).trace memory).2 = memory ∨
          ∃ row, error = .slotTableScanned row layout.capacity layout.slotCapacity := by
    intro other trace
    rw [trace]
    exact Or.inl rfl
  unfold insertMany at failed unwritten ⊢
  split at failed
  · cases failed
  · rename_i some
    simp only [if_neg some, Program.trace_bind_reads (readMetadata_trace memory)] at failed unwritten ⊢
    split at failed
    · rename_i stale
      exact unwritten _ (by rw [if_pos stale]; rfl)
    · rename_i fresh
      simp only [if_neg fresh] at failed unwritten ⊢
      split at failed
      · rename_i large
        exact unwritten _ (by rw [if_pos large]; rfl)
      · rename_i fits
        simp only [if_neg fits] at failed unwritten ⊢
        cases buffers : prepareInsertColumns hashId castBits table schema layout with
        | error problem =>
            rw [buffers] at unwritten
            exact unwritten problem rfl
        | ok columns =>
            simp only [buffers] at failed unwritten ⊢
            split at failed
            · rename_i long
              exact unwritten _ (by rw [if_pos long]; rfl)
            · rename_i short
              simp only [if_neg short] at failed unwritten ⊢
              split at failed
              · rename_i full
                exact unwritten _ (by rw [if_pos full]; rfl)
              · obtain ⟨result, writes, trace⟩ := @insertManyCore_returns InsertManyError layout
                  columns table.length 0 0 memory
                rw [Program.trace_bind_ok trace] at failed
                split at failed
                · exact Or.inr ⟨_, (Except.error.inj failed).symm⟩
                · cases failed

end Unchanged

/-- A bulk insert into a fresh segment leaves the bytes of the sequential inserts, or the segment as
it was. -/
theorem insertMany_refines_insert {hashName : String → UInt64} {schema : FeatureSchema}
    {capacity maxIdBytes : Int} {layout : SegmentLayout}
    (computed : computeLayout hashName schema capacity maxIdBytes = .ok layout)
    (hashId : List UInt8 → UInt64) (castBits : DType → DType → Nat → Nat) {header : List UInt8}
    (headerLength : header.length = headerSize) :
    (∀ table ids elements, DeclaredTable schema table ids elements → ids.Nodup →
      (∀ entityId ∈ ids, entityId ≠ "" ∧ (encodeUtf8 entityId).length ≤ layout.maxIdBytes) →
      table.length ≤ layout.capacity →
      ∃ rows columns,
        (List.range table.length).mapM (fun row =>
          packRow hashName schema (table.rowValues schema row)) = .ok rows ∧
        prepareInsertColumns hashId castBits table schema layout = .ok columns ∧
        (∃ cursor : Nat, (insertManyCore layout columns table.length 0 0 :
          Program InsertManyError Int).result (freshSegment layout header) = .ok (cursor : Int)) ∧
        (runInserts hashId layout header (List.zipWith InsertRequest.mk ids rows)).log =
          (List.zipWith InsertRequest.mk ids rows).reverse ∧
        (insertMany hashId castBits schema layout table).run (freshSegment layout header) =
          (.ok table.length,
            (runInserts hashId layout header (List.zipWith InsertRequest.mk ids rows)).memory)) ∧
    ∀ table memory after error,
      (insertMany hashId castBits schema layout table).run memory = (.error error, after) →
      (∀ row, error ≠ .slotTableScanned row layout.capacity layout.slotCapacity) →
      after = memory := by
  have sound := computeLayout_sound computed
  obtain ⟨rowTable, rowBytes, assembly, _⟩ := computeLayout_parts computed
  constructor
  · intro table ids elements declared distinct usable room
    obtain ⟨array, entityId, holds⟩ := declared.entityId
    have buffers := declared.prepareInsertColumns_eq hashName hashId castBits assembly entityId holds
    have prepared := @declaredColumns_sound _ _ elements _ hashId _ rowTable rowBytes _ holds distinct
      (fun id member => (usable id member).1) fun id member => (usable id member).2
    rw [declared.size] at room ⊢
    have packed : (List.range ids.length).mapM (fun row =>
        packRow hashName schema (table.rowValues schema row)) =
          .ok ((List.range ids.length).map (packedRow schema layout elements)) :=
      mapM_ok fun row member => declared.packRow_eq rowBytes (List.mem_range.mp member)
    have requests : List.zipWith InsertRequest.mk ids
        ((List.range ids.length).map (packedRow schema layout elements)) =
          (List.range' 0 ids.length).map fun row =>
            ⟨ids.getD row "", packedRow schema layout elements row⟩ := by
      apply List.ext_getElem
      · simp
      · intro row first _
        rw [List.length_zipWith] at first
        simp only [List.getElem_zipWith, List.getElem_map, List.getElem_range, List.getElem_range']
        rw [Nat.zero_add, Nat.one_mul, getD_eq_getElem (by omega)]
    obtain ⟨writes, last, trace, mirrored, logged⟩ := @insertManyCore_mirrored hashName hashId schema
      layout sound ids elements array.values declared.toDeclaredCells rowTable rowBytes
      InsertManyError prepared room ids.length _ 0 0 (.fresh layout header)
      (freshSegment_loaded sound headerLength) (freshSegment_mirrored sound headerLength)
      (Nat.zero_add _)
    refine ⟨_, _, packed, buffers, ⟨last, by rw [Program.result, trace]⟩, ?_, ?_⟩
    · rw [requests]
      exact logged.trans (List.append_nil _)
    · rw [requests]
      by_cases none : ids.length = 0
      · rw [insertMany_empty hashId castBits schema layout (declared.size.trans none), none]
        rfl
      · rw [Program.run, Program.result, Program.writes,
          insertMany_trace sound prepared declared.size none buffers room trace,
          Memory.applyAll_append]
        exact congrArg (Prod.mk _) mirrored.cursors.symm
  · intro table memory after error raised early
    rcases insertMany_raises layout raised with same | ⟨row, late⟩
    · exact same
    · exact absurd late (early row)

/-- The scores of two rows of the sample schema. -/
def sampleScores (_ : FeatureField) (row : Nat) : List (List UInt8) :=
  if row = 0 then [[0, 0, 128, 63]] else [[0, 0, 0, 64]]

/-- Two rows of the sample schema as an Arrow table. -/
def sampleBulk : ArrowTable where
  length := 2
  columns := [("entity_id", .texts (.ofList ["a", "b"])),
    ("score", .values 0 .float32 [[[0, 0, 128, 63]], [[0, 0, 0, 64]]])]

theorem sampleBulk_declared : DeclaredTable sampleSchema sampleBulk ["a", "b"] sampleScores := by
  have only : ∀ field ∈ sampleSchema.fields,
      field.name = "score" ∧ field.dtype = .float32 ∧ field.shape = [] := by
    intro field member
    obtain rfl := List.mem_singleton.mp member
    exact ⟨rfl, rfl, rfl⟩
  refine ⟨⟨?_, ?_⟩, rfl, ?_, ⟨_, rfl, StringArray.ofList_holds _⟩, ?_⟩
  · intro field member row _
    rw [elementCount_scalar (only field member).2.2]
    unfold sampleScores
    split <;> rfl
  · intro field member row _ element inside
    rw [(only field member).2.1]
    unfold sampleScores at inside
    split at inside <;> (obtain rfl := List.mem_singleton.mp inside; rfl)
  · intro field member
    rw [(only field member).2.2]
    decide
  · intro field member
    obtain ⟨name, dtype, shape⟩ := only field member
    rw [name, dtype, shape]
    rfl

/-- The bulk insert of two sample rows leaves the bytes of their two inserts. -/
theorem insertMany_refines_insert_sample :
    ∃ rows, (List.range 2).mapM (fun row =>
        packRow (fun _ => 0) sampleSchema (sampleBulk.rowValues sampleSchema row)) = .ok rows ∧
      (insertMany (fun _ => 0) (fun _ _ bits => bits) sampleSchema sampleLayout sampleBulk).run
          (freshSegment sampleLayout (List.replicate 16 0)) =
        (.ok 2, (runInserts (fun _ => 0) sampleLayout (List.replicate 16 0)
          (List.zipWith InsertRequest.mk ["a", "b"] rows)).memory) := by
  obtain ⟨bulk, _⟩ := insertMany_refines_insert computeLayout_sample (fun _ => 0)
    (fun _ _ bits => bits) (show (List.replicate 16 (0 : UInt8)).length = headerSize from rfl)
  obtain ⟨rows, _, packed, _, _, _, run⟩ := bulk sampleBulk ["a", "b"] sampleScores
    sampleBulk_declared (by decide) (by decide) (by decide)
  exact ⟨rows, packed, run⟩

end Quorin
