import Quorin.Construction.Evolution
import Quorin.Proof.Segment.LayoutSound

namespace Quorin

/-- The alignment moves with a shift by a whole cache line. -/
theorem alignUp_shift (value : Nat) :
    alignUp (value + cacheLineSize) cacheLineSize = alignUp value cacheLineSize + cacheLineSize := by
  have shifted := alignUp_eq (value + cacheLineSize) 6
  have plain := alignUp_eq value 6
  simp only [cacheLineSize] at *
  norm_num at shifted plain
  rw [shifted, plain]
  omega

theorem fieldByteOffsets_shift (fields : List FeatureField) (cursor : Nat) :
    fieldByteOffsets fields (cursor + cacheLineSize) =
      (fieldByteOffsets fields cursor).map (· + cacheLineSize) := by
  induction fields generalizing cursor with
  | nil => rfl
  | cons field rest ih =>
      simp only [fieldByteOffsets, alignUp_shift, List.map_cons]
      rw [Nat.add_right_comm, ih]

/-- The offsets behind the header are the row-relative offsets, one cache line later. -/
theorem fieldByteOffsets_header {fields : List FeatureField} (nonempty : fields ≠ []) :
    fieldByteOffsets fields headerSize = (fieldByteOffsets fields 0).map (· + cacheLineSize) := by
  rw [← fieldByteOffsets_shift]
  cases fields with
  | nil => exact absurd rfl nonempty
  | cons field rest => rfl

/-- Every field starts behind the cursor. -/
theorem le_fieldByteOffsets (fields : List FeatureField) (cursor : Nat) :
    ∀ offset ∈ fieldByteOffsets fields cursor, cursor ≤ offset := by
  induction fields generalizing cursor with
  | nil => simp [fieldByteOffsets]
  | cons field rest ih =>
      have aligned := le_alignUp cursor 6
      intro offset member
      rcases List.mem_cons.mp member with rfl | later
      · exact aligned
      · have behind := ih _ offset later
        simp only [cacheLineSize] at *
        norm_num at aligned
        omega

/-- The fields of a schema with their offsets in a row. -/
def FeatureSchema.placed (schema : FeatureSchema) : List (FeatureField × Nat) :=
  schema.fields.zip (fieldByteOffsets schema.fields 0)

/-- The row of the assembly table of a placed field. -/
def placedRow (hashName : String → UInt64) (entry : FeatureField × Nat) : OffsetRow :=
  ⟨hashName entry.1.name, entry.2, entry.1.dtype, entry.1.elementCount, entry.1.byteCount⟩

theorem placed_fields (schema : FeatureSchema) : schema.placed.map Prod.fst = schema.fields :=
  List.map_fst_zip (by rw [fieldByteOffsets_length])

theorem zip_assembly (hashName : String → UInt64) (schema : FeatureSchema) :
    schema.fields.zip (computeAssemblyTable hashName schema) =
      schema.placed.map fun entry => (entry.1, placedRow hashName entry) := by
  rw [show computeAssemblyTable hashName schema = schema.placed.map (placedRow hashName) from rfl]
  conv =>
    lhs
    lhs
    rw [← placed_fields schema]
  rw [List.zip_map', List.map_congr_left]
  exact fun _ _ => rfl

/-- Each field ends before the next field starts. -/
theorem placed_apart (fields : List FeatureField) (cursor : Nat) :
    (fields.zip (fieldByteOffsets fields cursor)).Pairwise fun first second =>
      first.2 + first.1.byteCount ≤ second.2 := by
  induction fields generalizing cursor with
  | nil => exact List.Pairwise.nil
  | cons field rest ih =>
      simp only [fieldByteOffsets, List.zip_cons_cons, List.pairwise_cons]
      refine ⟨?_, ih _⟩
      intro entry member
      exact le_fieldByteOffsets rest _ _ (List.of_mem_zip member).2

/-- The declaration-order rows behind the header, moved back to the row base. -/
theorem offsetRows_header (hashName : String → UInt64) {fields : List FeatureField}
    (nonempty : fields ≠ []) :
    (offsetRows hashName fields headerSize).map
        (fun row => { row with byteOffset := row.byteOffset - cacheLineSize }) =
      offsetRows hashName fields 0 := by
  unfold offsetRows
  rw [fieldByteOffsets_header nonempty, List.zip_map_right, List.map_map, List.map_map]
  apply List.map_congr_left
  intro entry _
  simp

/-- The smallest offset of a compiled table is the cache line behind the header. -/
theorem compileSchema_first {hashName : String → UInt64} {schema : FeatureSchema}
    {table : List OffsetRow} (compiled : compileSchema hashName schema = .ok table) :
    (table.map OffsetRow.byteOffset).min?.getD 0 = cacheLineSize := by
  have offsets : (table.map OffsetRow.byteOffset).Perm
      ((fieldByteOffsets schema.fields 0).map (· + cacheLineSize)) := by
    have rows := (compileSchema_perm compiled).map OffsetRow.byteOffset
    rw [← fieldByteOffsets_header schema.fieldsNonempty]
    unfold offsetRows at rows
    rw [List.map_map] at rows
    have second : (schema.fields.zip (fieldByteOffsets schema.fields headerSize)).map Prod.snd =
        fieldByteOffsets schema.fields headerSize :=
      List.map_snd_zip (by rw [fieldByteOffsets_length])
    rw [← second]
    exact rows
  have smallest : (table.map OffsetRow.byteOffset).min? = some cacheLineSize := by
    rw [List.min?_eq_some_iff]
    constructor
    · rw [offsets.mem_iff]
      cases shape : schema.fields with
      | nil => exact absurd shape schema.fieldsNonempty
      | cons field rest => exact List.mem_cons_self
    · intro offset member
      obtain ⟨start, _, rfl⟩ := List.mem_map.mp (offsets.mem_iff.mp member)
      exact Nat.le_add_left _ _
  rw [smallest, Option.getD_some]

/-- The row-relative table holds the declaration-order rows, and its hashes are distinct. -/
theorem computeRowOffsetTable_spec {hashName : String → UInt64} {schema : FeatureSchema}
    {table : List OffsetRow} (computed : computeRowOffsetTable hashName schema = .ok table) :
    table.Perm (offsetRows hashName schema.fields 0) ∧ (table.map OffsetRow.nameHash).Nodup := by
  unfold computeRowOffsetTable at computed
  cases compiled : compileSchema hashName schema with
  | error error => simp [compiled, bind, Except.bind] at computed
  | ok sorted =>
      simp only [compiled, bind, Except.bind, pure, Except.pure, Except.ok.injEq] at computed
      rw [compileSchema_first compiled] at computed
      rw [← computed]
      constructor
      · rw [← offsetRows_header hashName schema.fieldsNonempty]
        exact (compileSchema_perm compiled).map _
      · unfold compileSchema at compiled
        dsimp only at compiled
        split at compiled
        · rename_i distinct
          rw [Except.ok.inj compiled] at distinct
          rw [List.map_map]
          exact distinct
        · cases compiled

section Located

variable {hashName : String → UInt64} {schema : FeatureSchema} {table : List OffsetRow}
  (computed : computeRowOffsetTable hashName schema = .ok table)

include computed in
/-- The row of a placed field stands in the row-relative table. -/
theorem placed_mem_table {entry : FeatureField × Nat} (member : entry ∈ schema.placed) :
    (⟨hashName entry.1.name, entry.2, entry.1.dtype, entry.1.elementCount, entry.1.byteCount⟩ :
      OffsetRow) ∈ table := by
  rw [(computeRowOffsetTable_spec computed).1.mem_iff]
  exact List.mem_map.mpr ⟨entry, member, rfl⟩

include computed in
/-- The hash of a field name leads to the offset of the field. -/
theorem rowByteOffset_placed {entry : FeatureField × Nat} (member : entry ∈ schema.placed) :
    rowByteOffset hashName table entry.1.name = some entry.2 := by
  have inTable := placed_mem_table computed member
  have distinct := (computeRowOffsetTable_spec computed).2
  unfold rowByteOffset
  cases found : table.reverse.find? fun row => row.nameHash = hashName entry.1.name with
  | none =>
      have missing := List.find?_eq_none.mp found _ (List.mem_reverse.mpr inTable)
      simp at missing
  | some row =>
      have rowMember := List.mem_reverse.mp (List.mem_of_find?_eq_some found)
      have sameHash : row.nameHash = hashName entry.1.name := by simpa using List.find?_some found
      have same := List.inj_on_of_nodup_map distinct rowMember inTable sameHash
      rw [same]
      rfl

include computed in
/-- Every placed field ends inside the row. -/
theorem placed_inside {rows : Nat} (sized : rowSize hashName schema = .ok rows)
    {entry : FeatureField × Nat} (member : entry ∈ schema.placed) :
    entry.2 + entry.1.byteCount ≤ rows := by
  have inTable := placed_mem_table computed member
  unfold rowSize at sized
  simp only [computed, bind, Except.bind, pure, Except.pure, Except.ok.injEq] at sized
  rw [← sized]
  have image := List.mem_map_of_mem (f := fun row : OffsetRow => row.byteOffset + row.byteCount)
    inTable
  have largest := List.le_max?_getD_of_mem (k := 0) image
  exact largest.trans (le_alignUp _ 6)

end Located

/-- The parts of a computed layout that come from the schema. -/
theorem computeLayout_parts {hashName : String → UInt64} {schema : FeatureSchema}
    {capacity maxIdBytes : Int} {layout : SegmentLayout}
    (computed : computeLayout hashName schema capacity maxIdBytes = .ok layout) :
    computeRowOffsetTable hashName schema = .ok layout.rowOffsetTable ∧
      rowSize hashName schema = .ok layout.rowSize ∧
      layout.assemblyTable = computeAssemblyTable hashName schema ∧
      layout.totalElementCount = totalElementCount schema ∧
      (layout.capacity : Int) = capacity ∧ (layout.maxIdBytes : Int) = maxIdBytes := by
  unfold computeLayout at computed
  split at computed
  · cases computed
  rename_i capacityPositive
  split at computed
  · cases computed
  rename_i maxIdPositive
  split at computed
  · cases computed
  split at computed
  · cases computed
  split at computed
  · rename_i rows table rowsComputed tableComputed
    dsimp only at computed
    split at computed
    · cases computed
    · obtain rfl := Except.ok.inj computed
      refine ⟨tableComputed, rowsComputed, rfl, rfl, ?_, ?_⟩
      · exact Int.toNat_of_nonneg (by omega)
      · exact Int.toNat_of_nonneg (by omega)
  · cases computed
  · cases computed

end Quorin
