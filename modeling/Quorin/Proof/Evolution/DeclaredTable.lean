import Quorin.Proof.Evolution.FieldOffsets
import Quorin.Proof.Evolution.BulkInsert
import Mathlib.Algebra.BigOperators.Group.List.Lemmas

namespace Quorin

open ByteMemory

theorem prefixSums_getD (counts : List Nat) {index : Nat} (inside : index ≤ counts.length) :
    (prefixSums counts).getD index 0 = (counts.take index).sum := by
  rw [prefixSums, List.getD_eq_getElem?_getD, List.getElem?_map,
    List.getElem?_range (Nat.lt_succ_of_le inside)]
  rfl

theorem prefixSums_last (counts : List Nat) : (prefixSums counts).getLastD 0 = counts.sum := by
  simp [prefixSums, List.range_succ]

/-- A slice inside one part of a concatenation is a slice of that part. -/
theorem slice_flatten (parts : List (List UInt8)) (start : Nat) {index count : Nat}
    (inside : index < parts.length) (fits : start + count ≤ parts[index].length) :
    slice parts.flatten (((parts.map List.length).take index).sum + start) count =
      slice parts[index] start count := by
  unfold slice
  rw [← List.drop_drop, List.drop_sum_flatten, List.drop_eq_getElem_cons inside, List.flatten_cons,
    List.drop_append_of_le_length (by omega), List.take_append_of_le_length]
  rw [List.length_drop]
  omega

/-- A whole part of a concatenation is the slice at the sum of the earlier lengths. -/
theorem slice_flatten_part (parts : List (List UInt8)) {index : Nat}
    (inside : index < parts.length) :
    slice parts.flatten ((parts.map List.length).take index).sum parts[index].length =
      parts[index] := by
  have inner := slice_flatten parts 0 inside (Nat.le_of_eq (Nat.zero_add _))
  rw [Nat.add_zero] at inner
  rw [inner, slice, List.drop_zero, List.take_length]

/-- Parts of one length start at multiples of that length. -/
theorem sum_take_uniform {counts : List Nat} {count index : Nat}
    (uniform : ∀ other ∈ counts, other = count) (inside : index ≤ counts.length) :
    (counts.take index).sum = index * count := by
  have same : counts.take index = List.replicate index count := by
    apply List.eq_replicate_iff.mpr
    exact ⟨List.length_take_of_le inside, fun other member => uniform other (List.mem_of_mem_take member)⟩
  rw [same, List.sum_replicate]
  simp

/-- A cast to the own type keeps the element. -/
theorem astype_self (castBits : DType → DType → Nat → Nat) (dtype : DType) (element : List UInt8) :
    astype castBits dtype dtype element = element := by
  cases dtype <;> rfl

/-- Each id is the slice between its two offsets. -/
theorem slice_ids (ids : List String) {row : Nat} (inside : row < ids.length) :
    (prefixSums (ids.map fun entityId => (encodeUtf8 entityId).length)).getD (row + 1) 0 -
        (prefixSums (ids.map fun entityId => (encodeUtf8 entityId).length)).getD row 0 =
      (encodeUtf8 ids[row]).length ∧
    slice (ids.map encodeUtf8).flatten
        ((prefixSums (ids.map fun entityId => (encodeUtf8 entityId).length)).getD row 0)
        (encodeUtf8 ids[row]).length = encodeUtf8 ids[row] := by
  have bound : row < (ids.map encodeUtf8).length := by simpa using inside
  have part := slice_flatten_part _ bound
  rw [List.map_map] at part
  simp only [List.getElem_map] at part
  rw [prefixSums_getD _ (by rw [List.length_map]; omega),
    prefixSums_getD _ (by rw [List.length_map]; omega)]
  refine ⟨?_, part⟩
  rw [List.take_add_one, List.sum_append]
  simp [List.getElem?_eq_getElem inside]

/-- A zero-offset string array holds the given texts, possibly with padding behind them. -/
structure StringArray.Holds (array : StringArray) (texts : List String) : Prop where
  offsets : array.offsets.take (texts.length + 1) =
    prefixSums (texts.map fun text => (encodeUtf8 text).length)
  values : (texts.map encodeUtf8).flatten <+: array.values

/-- The cells of a number of rows have the element count and the width of their fields. -/
structure DeclaredCells (schema : FeatureSchema) (rows : Nat)
    (elements : FeatureField → Nat → List (List UInt8)) : Prop where
  count : ∀ field ∈ schema.fields, ∀ row, row < rows →
    (elements field row).length = field.elementCount
  width : ∀ field ∈ schema.fields, ∀ row, row < rows →
    ∀ element ∈ elements field row, element.length = field.dtype.byteSize

/-- A table whose columns have their declared types; `elements` are the cells of its rows. -/
structure DeclaredTable (schema : FeatureSchema) (table : ArrowTable) (ids : List String)
    (elements : FeatureField → Nat → List (List UInt8)) : Prop
    extends DeclaredCells schema ids.length elements where
  size : table.length = ids.length
  rank : ∀ field ∈ schema.fields, field.shape.length ≤ 2
  entityId : ∃ array, table.columns.lookup "entity_id" = some (.texts array) ∧ array.Holds ids
  column : ∀ field ∈ schema.fields, table.columns.lookup field.name =
    some (.values field.shape.length field.dtype ((List.range ids.length).map (elements field)))

/-- The flat buffer of one field holds its cells row by row. -/
def declaredBuffer (elements : FeatureField → Nat → List (List UInt8)) (rows : Nat)
    (field : FeatureField) : List UInt8 :=
  ((List.range rows).map fun row => (elements field row).flatten).flatten

/-- The buffers of a declared table. -/
def declaredColumns (hashId : List UInt8 → UInt64) (schema : FeatureSchema)
    (elements : FeatureField → Nat → List (List UInt8)) (values : List UInt8) (ids : List String) :
    InsertColumns where
  idHashes := ids.map fun entityId => hashId (encodeUtf8 entityId)
  idByteOffsets := prefixSums (ids.map fun entityId => (encodeUtf8 entityId).length)
  encodedIdsConcat := values
  fieldByteOffsetsInRow := schema.placed.map Prod.snd
  fieldByteCounts := schema.placed.map fun entry => entry.1.byteCount
  fieldDataStarts := prefixSums (schema.placed.map fun entry => entry.1.byteCount * ids.length)
  fieldData := (schema.fields.map (declaredBuffer elements ids.length)).flatten

/-- A slice inside a prefix is a slice of the whole. -/
theorem slice_of_initial {part whole : List UInt8} (inside : part <+: whole) {start count : Nat}
    (fits : start + count ≤ part.length) : slice whole start count = slice part start count := by
  obtain ⟨rest, rfl⟩ := inside
  unfold slice
  rw [List.drop_append_of_le_length (by omega), List.take_append_of_le_length]
  rw [List.length_drop]
  omega

/-- Each id is the slice of the held bytes between its two offsets. -/
theorem StringArray.Holds.slice {array : StringArray} {ids : List String} (holds : array.Holds ids)
    {row : Nat} (inside : row < ids.length) :
    Quorin.slice array.values
        ((prefixSums (ids.map fun entityId => (encodeUtf8 entityId).length)).getD row 0)
        (encodeUtf8 ids[row]).length = encodeUtf8 ids[row] := by
  obtain ⟨_, bytes⟩ := slice_ids ids inside
  rw [slice_of_initial holds.values, bytes]
  have whole := congrArg List.length bytes
  rw [Quorin.slice, List.length_take, List.length_drop] at whole
  by_cases empty : (encodeUtf8 ids[row]).length = 0
  · rw [empty, prefixSums_getD _ (by rw [List.length_map]; omega), List.length_flatten,
      List.map_map]
    exact List.Sublist.sum_le_sum (List.take_sublist _ _) fun _ _ => Nat.zero_le _
  · omega

section Cells

variable {schema : FeatureSchema} {ids : List String}
  {elements : FeatureField → Nat → List (List UInt8)}
  (declared : DeclaredCells schema ids.length elements)

include declared in
theorem DeclaredCells.cell_length {field : FeatureField} (member : field ∈ schema.fields)
    {row : Nat} (inside : row < ids.length) :
    (elements field row).flatten.length = field.byteCount := by
  have uniform : (elements field row).map List.length =
      List.replicate field.elementCount field.dtype.byteSize := by
    apply List.eq_replicate_iff.mpr
    refine ⟨by rw [List.length_map, declared.count field member row inside], ?_⟩
    intro length found
    obtain ⟨element, elementInside, rfl⟩ := List.mem_map.mp found
    exact declared.width field member row inside element elementInside
  rw [List.length_flatten, uniform, List.sum_replicate, FeatureField.byteCount]
  simp

include declared in
theorem DeclaredCells.buffer_uniform {field : FeatureField} (member : field ∈ schema.fields) :
    ((List.range ids.length).map fun row => (elements field row).flatten).map List.length =
      List.replicate ids.length field.byteCount := by
  apply List.eq_replicate_iff.mpr
  refine ⟨by simp, ?_⟩
  intro length found
  obtain ⟨cell, cellInside, rfl⟩ := List.mem_map.mp found
  obtain ⟨row, rowInside, rfl⟩ := List.mem_map.mp cellInside
  exact declared.cell_length member (List.mem_range.mp rowInside)

include declared in
theorem DeclaredCells.buffer_length {field : FeatureField} (member : field ∈ schema.fields) :
    (declaredBuffer elements ids.length field).length = field.byteCount * ids.length := by
  rw [declaredBuffer, List.length_flatten, declared.buffer_uniform member, List.sum_replicate,
    Nat.mul_comm]
  simp

include declared in
/-- Each cell is the slice of its buffer at its row. -/
theorem DeclaredCells.slice_buffer {field : FeatureField} (member : field ∈ schema.fields)
    {row : Nat} (inside : row < ids.length) :
    slice (declaredBuffer elements ids.length field) (row * field.byteCount) field.byteCount =
      (elements field row).flatten := by
  have bound : row < ((List.range ids.length).map fun row => (elements field row).flatten).length := by
    simpa using inside
  have part := slice_flatten_part _ bound
  have start : ((((List.range ids.length).map fun row =>
      (elements field row).flatten).map List.length).take row).sum = row * field.byteCount := by
    apply sum_take_uniform
    · intro length found
      rw [declared.buffer_uniform member] at found
      exact List.eq_of_mem_replicate found
    · simpa using Nat.le_of_lt inside
  rw [start] at part
  simp only [List.getElem_map, List.getElem_range, declared.cell_length member inside] at part
  exact part

include declared in
/-- The write of a field of a row holds the cell at the place of the field. -/
theorem DeclaredCells.cellWrite_eq (hashId : List UInt8 → UInt64) (values : List UInt8)
    (layout : SegmentLayout) {row : Nat} (inside : row < ids.length) {field : Nat}
    (bound : field < schema.placed.length) :
    cellWrite layout (declaredColumns hashId schema elements values ids) row field =
      ⟨layout.rowAddress row + schema.placed[field].2,
        (elements schema.placed[field].1 row).flatten⟩ := by
  have fieldBound : field < schema.fields.length := by
    rw [← placed_fields schema, List.length_map]
    exact bound
  have sameField : schema.placed[field].1 = schema.fields[field] := by
    simp [FeatureSchema.placed]
  have member : schema.placed[field].1 ∈ schema.fields := by
    rw [sameField]
    exact List.getElem_mem fieldBound
  have offset : (schema.placed.map Prod.snd).getD field 0 = schema.placed[field].2 := by
    simp [List.getD_eq_getElem?_getD, List.getElem?_eq_getElem bound]
  have count : (schema.placed.map fun entry => entry.1.byteCount).getD field 0 =
      schema.placed[field].1.byteCount := by
    simp [List.getD_eq_getElem?_getD, List.getElem?_eq_getElem bound]
  have lengths : (schema.fields.map (declaredBuffer elements ids.length)).map List.length =
      schema.placed.map fun entry => entry.1.byteCount * ids.length := by
    rw [← placed_fields schema, List.map_map, List.map_map]
    apply List.map_congr_left
    intro entry inPlace
    exact declared.buffer_length (List.of_mem_zip inPlace).1
  have start : (prefixSums (schema.placed.map fun entry =>
      entry.1.byteCount * ids.length)).getD field 0 =
        (((schema.fields.map (declaredBuffer elements ids.length)).map
          List.length).take field).sum := by
    rw [prefixSums_getD _ (by rw [List.length_map]; omega), lengths]
  have partBound : field < (schema.fields.map (declaredBuffer elements ids.length)).length := by
    rwa [List.length_map]
  unfold cellWrite declaredColumns
  dsimp only
  rw [offset, count, start, slice_flatten _ _ partBound]
  · rw [List.getElem_map, ← sameField, declared.slice_buffer member inside]
  · rw [List.getElem_map, ← sameField, declared.buffer_length member, Nat.mul_comm _ ids.length,
      ← Nat.succ_mul]
    exact Nat.mul_le_mul_right _ inside

end Cells

section Declared

variable {schema : FeatureSchema} {table : ArrowTable} {ids : List String}
  {elements : FeatureField → Nat → List (List UInt8)}
  (declared : DeclaredTable schema table ids elements)

include declared in
/-- The extraction of a declared column is its flat buffer. -/
theorem DeclaredTable.extractFieldToNumpy_eq (castBits : DType → DType → Nat → Nat)
    {field : FeatureField} (member : field ∈ schema.fields) :
    extractFieldToNumpy castBits ids.length (.values field.shape.length field.dtype
        ((List.range ids.length).map (elements field))) field field.byteCount =
      .ok (declaredBuffer elements ids.length field) := by
  have buffer : ((((List.range ids.length).map (elements field)).flatten.map
      (astype castBits field.dtype field.dtype)).flatten) =
        declaredBuffer elements ids.length field := by
    rw [show astype castBits field.dtype field.dtype = id from funext (astype_self castBits _),
      List.map_id, List.flatten_flatten, List.map_map]
    rfl
  have rank := declared.rank field member
  unfold extractFieldToNumpy
  simp only [buffer, declared.toDeclaredCells.buffer_length member]
  rw [if_neg (by omega), if_neg (Nat.lt_irrefl _), if_neg (Nat.lt_irrefl _),
    if_pos (Nat.mul_comm _ _)]

include declared in
theorem DeclaredTable.extractFields_eq (castBits : DType → DType → Nat → Nat)
    (fields : List FeatureField) (members : ∀ field ∈ fields, field ∈ schema.fields) :
    extractFields castBits table fields (fields.map FeatureField.byteCount) =
      .ok (fields.map (declaredBuffer elements ids.length)) := by
  induction fields with
  | nil => rfl
  | cons field rest ih =>
      have member := members field List.mem_cons_self
      rw [extractFields, declared.column field member]
      simp only [Option.getD_some, List.map_cons, List.headD_cons, List.tail_cons]
      rw [declared.size, declared.extractFieldToNumpy_eq castBits member,
        ih fun other later => members other (List.mem_cons_of_mem _ later)]
      rfl

include declared in
/-- The buffers of a declared table hold its ids and its cells. -/
theorem DeclaredTable.prepareInsertColumns_eq (hashName : String → UInt64)
    (hashId : List UInt8 → UInt64) (castBits : DType → DType → Nat → Nat) {layout : SegmentLayout}
    (assembly : layout.assemblyTable = computeAssemblyTable hashName schema) {array : StringArray}
    (entityId : table.columns.lookup "entity_id" = some (.texts array)) (holds : array.Holds ids) :
    prepareInsertColumns hashId castBits table schema layout =
      .ok (declaredColumns hashId schema elements array.values ids) := by
  have nothingMissing : ((schema.fields.map FeatureField.name).filter fun name =>
      (table.columns.lookup name).isNone) = [] := by
    rw [List.filter_eq_nil_iff]
    intro name member
    obtain ⟨field, inside, rfl⟩ := List.mem_map.mp member
    rw [declared.column field inside]
    simp
  have placed : layout.assemblyTable = schema.placed.map fun entry =>
      ⟨hashName entry.1.name, entry.2, entry.1.dtype, entry.1.elementCount, entry.1.byteCount⟩ :=
    assembly
  have counts : layout.assemblyTable.map OffsetRow.byteCount =
      schema.placed.map fun entry => entry.1.byteCount := by
    rw [placed, List.map_map]
    rfl
  have offsets : layout.assemblyTable.map OffsetRow.byteOffset = schema.placed.map Prod.snd := by
    rw [placed, List.map_map]
    rfl
  have buffers : extractFields castBits table schema.fields
      (schema.placed.map fun entry => entry.1.byteCount) =
        .ok (schema.fields.map (declaredBuffer elements ids.length)) := by
    have shape := congrArg (List.map FeatureField.byteCount) (placed_fields schema)
    rw [List.map_map] at shape
    rw [show (schema.placed.map fun entry => entry.1.byteCount) = _ from shape]
    exact declared.extractFields_eq castBits schema.fields fun _ member => member
  have hashes : ((List.range ids.length).map fun index =>
      hashId (slice array.values
        ((prefixSums (ids.map fun entityId => (encodeUtf8 entityId).length)).getD index 0)
        ((prefixSums (ids.map fun entityId => (encodeUtf8 entityId).length)).getD (index + 1) 0 -
          (prefixSums (ids.map fun entityId => (encodeUtf8 entityId).length)).getD index 0))) =
      ids.map fun entityId => hashId (encodeUtf8 entityId) := by
    apply List.ext_getElem
    · simp
    · intro row _ inside
      rw [List.length_map] at inside
      simp only [List.getElem_map, List.getElem_range]
      rw [(slice_ids ids inside).1]
      exact congrArg hashId (holds.slice inside)
  unfold prepareInsertColumns
  rw [entityId]
  simp only [nothingMissing, ne_eq, not_true_eq_false, if_false, counts, offsets, buffers]
  rw [declared.size, holds.offsets, hashes]
  simp only [List.map_map]
  rfl

/-- The buffers of a declared table are sound for the layout of its schema. -/
theorem declaredColumns_sound {hashName : String → UInt64} (hashId : List UInt8 → UInt64)
    {layout : SegmentLayout}
    (rowTable : computeRowOffsetTable hashName schema = .ok layout.rowOffsetTable)
    (rowBytes : rowSize hashName schema = .ok layout.rowSize) {array : StringArray}
    (holds : array.Holds ids) (distinct : ids.Nodup) (named : ∀ entityId ∈ ids, entityId ≠ "")
    (short : ∀ entityId ∈ ids, (encodeUtf8 entityId).length ≤ layout.maxIdBytes) :
    ColumnsSound hashId layout (declaredColumns hashId schema elements array.values ids) ids := by
  have ends : ∀ row field (bound : field < schema.placed.length),
      (cellWrite layout (declaredColumns hashId schema elements array.values ids) row field).address =
        layout.rowAddress row + schema.placed[field].2 ∧
      (cellWrite layout (declaredColumns hashId schema elements array.values ids) row field).last ≤
        layout.rowAddress row + schema.placed[field].2 + schema.placed[field].1.byteCount := by
    intro row field bound
    simp [cellWrite, declaredColumns, Write.last, slice, List.getD_eq_getElem?_getD,
      List.getElem?_eq_getElem bound]
  have fields : (declaredColumns hashId schema elements array.values
      ids).fieldByteOffsetsInRow.length = schema.placed.length := by
    simp [declaredColumns]
  constructor
  · intro row inside
    rw [getD_eq_getElem inside]
    simp [declaredColumns, List.getD_eq_getElem?_getD, List.getElem?_eq_getElem inside]
  · intro row inside
    rw [getD_eq_getElem inside]
    exact (slice_ids ids inside).1
  · intro row inside
    rw [getD_eq_getElem inside]
    exact holds.slice inside
  · intro row field bound
    rw [fields] at bound
    obtain ⟨start, stop⟩ := ends row field bound
    have inside := placed_inside rowTable rowBytes (List.getElem_mem bound)
    exact ⟨by omega, by omega⟩
  · intro row first second less bound
    rw [fields] at bound
    obtain ⟨_, stop⟩ := ends row first (less.trans bound)
    obtain ⟨start, _⟩ := ends row second bound
    have ordered := List.pairwise_iff_getElem.mp (placed_apart schema.fields 0) first second
      (less.trans bound) bound less
    change schema.placed[first].2 + schema.placed[first].1.byteCount ≤ schema.placed[second].2
      at ordered
    omega
  · exact prefixSums_last _
  · exact distinct
  · exact named
  · exact short

end Declared

end Quorin
