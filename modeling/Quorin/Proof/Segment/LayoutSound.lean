import Quorin.Construction.Layout

namespace Quorin

/-- The alignment to a power of two removes the remainder of the raised value. -/
theorem alignUp_eq (value exponent : Nat) :
    alignUp value (2 ^ exponent) =
      value + 2 ^ exponent - 1 - (value + 2 ^ exponent - 1) % 2 ^ exponent := by
  rw [alignUp, Nat.and_two_pow_sub_one_eq_mod]

theorem le_alignUp (value exponent : Nat) : value ≤ alignUp value (2 ^ exponent) := by
  have positive : 0 < 2 ^ exponent := Nat.two_pow_pos exponent
  have rest : (value + 2 ^ exponent - 1) % 2 ^ exponent < 2 ^ exponent := Nat.mod_lt _ positive
  rw [alignUp_eq]
  omega

/-- The rounded slot count is a power of two that is at least its argument. -/
theorem nextPow2_spec (n : Nat) : ∃ exponent, nextPow2 n = 2 ^ exponent ∧ n ≤ 2 ^ exponent := by
  unfold nextPow2
  split
  · exact ⟨0, rfl, by omega⟩
  · refine ⟨Nat.log2 (n - 1) + 1, by rw [Nat.one_shiftLeft], ?_⟩
    have below : n - 1 < 2 ^ (Nat.log2 (n - 1) + 1) := Nat.lt_log2_self
    omega

/-- Positive dimensions have a positive product. -/
theorem elementProduct_pos (shape : List Nat) (positive : ∀ dimension ∈ shape, 0 < dimension) :
    0 < elementProduct shape := by
  have general : ∀ start, 0 < start → 0 < shape.foldl (· * ·) start := by
    induction shape with
    | nil => exact fun start bound => bound
    | cons dimension rest ih =>
        intro start bound
        exact ih (fun other member => positive other (List.mem_cons_of_mem _ member)) _
          (Nat.mul_pos bound (positive dimension List.mem_cons_self))
  exact general 1 Nat.one_pos

theorem FeatureField.byteCount_pos (field : FeatureField) : 0 < field.byteCount :=
  Nat.mul_pos (elementProduct_pos _ field.dimensionsPositive) field.dtype.byteSize_pos

@[simp] theorem fieldByteOffsets_length (fields : List FeatureField) (base : Nat) :
    (fieldByteOffsets fields base).length = fields.length := by
  induction fields generalizing base with
  | nil => rfl
  | cons field rest ih => simp [fieldByteOffsets, ih]

@[simp] theorem offsetRows_length (hashName : String → UInt64) (fields : List FeatureField)
    (base : Nat) : (offsetRows hashName fields base).length = fields.length := by
  simp [offsetRows]

/-- Every row of a declaration-order table has a positive byte count. -/
theorem offsetRows_byteCount_pos (hashName : String → UInt64) (fields : List FeatureField)
    (base : Nat) (row : OffsetRow) (member : row ∈ offsetRows hashName fields base) :
    0 < row.byteCount := by
  obtain ⟨entry, _, same⟩ := List.mem_map.mp member
  rw [← same]
  exact entry.1.byteCount_pos

/-- A compiled table contains the same rows as the declaration-order table. -/
theorem compileSchema_perm {hashName : String → UInt64} {schema : FeatureSchema}
    {table : List OffsetRow} (compiled : compileSchema hashName schema = .ok table) :
    table.Perm (offsetRows hashName schema.fields headerSize) := by
  unfold compileSchema at compiled
  dsimp only at compiled
  split at compiled
  · rw [← Except.ok.inj compiled]
    exact List.mergeSort_perm _ _
  · cases compiled

/-- A row is never empty, so different row indices name different addresses. -/
theorem rowSize_pos {hashName : String → UInt64} {schema : FeatureSchema} {rows : Nat}
    (computed : rowSize hashName schema = .ok rows) : 0 < rows := by
  unfold rowSize computeRowOffsetTable at computed
  cases compiled : compileSchema hashName schema with
  | error error => simp [compiled, bind, Except.bind] at computed
  | ok table =>
      simp only [compiled, bind, Except.bind, pure, Except.pure, List.map_map,
        Except.ok.injEq] at computed
      have shape := compileSchema_perm compiled
      have nonempty : table ≠ [] := by
        intro empty
        have lengths := shape.length_eq
        rw [empty, offsetRows_length] at lengths
        exact schema.fieldsNonempty (List.length_eq_zero_iff.mp lengths.symm)
      obtain ⟨row, member⟩ := List.exists_mem_of_ne_nil table nonempty
      have positive := offsetRows_byteCount_pos _ _ _ row (shape.mem_iff.mp member)
      have aligned := le_alignUp ((table.map ((fun row => row.byteOffset + row.byteCount) ∘
        fun row => { row with byteOffset := row.byteOffset -
          (table.map OffsetRow.byteOffset).min?.getD 0 })).max?.getD 0) 6
      rw [show (2 ^ 6 : Nat) = cacheLineSize from rfl, computed] at aligned
      refine lt_of_lt_of_le ?_ aligned
      have image := List.mem_map_of_mem (f := (fun row => row.byteOffset + row.byteCount) ∘
        fun row => { row with byteOffset := row.byteOffset -
          (table.map OffsetRow.byteOffset).min?.getD 0 }) member
      have largest := List.le_max?_getD_of_mem (k := 0) image
      refine lt_of_lt_of_le ?_ largest
      simp only [Function.comp_apply]
      omega

/-- The facts about a computed layout that the segment operations rely on. -/
structure LayoutSound (layout : SegmentLayout) : Prop where
  capacityPositive : 0 < layout.capacity
  capacityBound : layout.capacity < 2 ^ 32
  slotPower : ∃ exponent, layout.slotCapacity = 2 ^ exponent
  slotRoom : 2 * layout.capacity ≤ layout.slotCapacity
  rowPositive : 0 < layout.rowSize
  maxIdPositive : 0 < layout.maxIdBytes
  maxIdBound : layout.maxIdBytes ≤ maxIdBytesCeiling
  slotStart : layout.slotTableOffset = dataRegionOffset
  slotEnd : layout.slotTableOffset + layout.slotCapacity * slotBytes ≤ layout.stringPoolOffset
  poolStart : layout.stringPoolDataOffset = layout.stringPoolOffset + stringPoolHeaderBytes
  poolBytes : layout.stringPoolDataBytes = layout.capacity * (lenPrefixBytes + layout.maxIdBytes)
  poolEnd : layout.stringPoolDataOffset + layout.stringPoolDataBytes ≤ layout.featureRowsOffset
  rowsEnd : layout.featureRowsOffset + layout.capacity * layout.rowSize ≤ layout.totalSize
  totalBound : layout.totalSize ≤ 2 ^ 36

/-- Every layout that `compute_layout` returns is sound. -/
theorem computeLayout_sound {hashName : String → UInt64} {schema : FeatureSchema}
    {capacity maxIdBytes : Int} {layout : SegmentLayout}
    (computed : computeLayout hashName schema capacity maxIdBytes = .ok layout) :
    LayoutSound layout := by
  unfold computeLayout at computed
  split at computed
  · cases computed
  rename_i capacityPositive
  split at computed
  · cases computed
  rename_i maxIdPositive
  split at computed
  · cases computed
  rename_i maxIdBound
  split at computed
  · cases computed
  rename_i capacityBound
  split at computed
  · rename_i rows table rowsComputed _
    dsimp only at computed
    split at computed
    · cases computed
    · rename_i totalBound
      obtain rfl := Except.ok.inj computed
      obtain ⟨exponent, power, room⟩ := nextPow2_spec (capacity.toNat * 2)
      have slotAlign := le_alignUp (dataRegionOffset + nextPow2 (capacity.toNat * 2) * slotBytes) 6
      have poolAlign := le_alignUp (alignUp (dataRegionOffset +
        nextPow2 (capacity.toNat * 2) * slotBytes) (2 ^ 6) + stringPoolHeaderBytes +
          capacity.toNat * (lenPrefixBytes + maxIdBytes.toNat)) 6
      have pageAlign := le_alignUp (alignUp (alignUp (dataRegionOffset +
        nextPow2 (capacity.toNat * 2) * slotBytes) (2 ^ 6) + stringPoolHeaderBytes +
          capacity.toNat * (lenPrefixBytes + maxIdBytes.toNat)) (2 ^ 6) +
            capacity.toNat * rows) 12
      constructor
      · change 0 < capacity.toNat
        omega
      · change capacity.toNat < 2 ^ 32
        omega
      · exact ⟨exponent, power⟩
      · change 2 * capacity.toNat ≤ nextPow2 (capacity.toNat * 2)
        omega
      · exact rowSize_pos rowsComputed
      · change 0 < maxIdBytes.toNat
        omega
      · change maxIdBytes.toNat ≤ maxIdBytesCeiling
        omega
      · rfl
      · exact slotAlign
      · rfl
      · rfl
      · exact poolAlign
      · exact pageAlign
      · change ¬ _ > 2 ^ 36 at totalBound
        exact Nat.le_of_not_gt totalBound
  · cases computed
  · cases computed

section Scalars

theorem score_named : "score" ≠ "" := by decide

theorem scalar_dimensions : ∀ dimension ∈ ([] : List Nat), 0 < dimension := by decide

theorem scalar_elements : elementProduct [] ≤ maxElementCount := by decide

theorem scalar_bytes (dtype : DType) : elementProduct [] * dtype.byteSize ≤ maxFieldBytes := by
  cases dtype <;> decide

theorem tags_named : "tags" ≠ "" := by decide

theorem pair_dimensions : ∀ dimension ∈ [2], 0 < dimension := by decide

theorem pair_elements : elementProduct [2] ≤ maxElementCount := by decide

theorem pair_bytes (dtype : DType) : elementProduct [2] * dtype.byteSize ≤ maxFieldBytes := by
  cases dtype <;> decide

end Scalars

/-- A schema with one scalar field. -/
def sampleSchema : FeatureSchema where
  className := "Sample"
  version := 1
  fields := [⟨"score", .float32, [], score_named, scalar_dimensions, scalar_elements, scalar_bytes .float32⟩]
  fieldsNonempty := by decide
  namesDistinct := by decide

/-- Hashes that tell the field of the sample schema from every other name. -/
def sampleHash (name : String) : UInt64 := if name = "score" then 0 else 1

/-- The float conversions of one and of two, and the value zero elsewhere. -/
def sampleCast (source target : DType) (bits : Nat) : Nat :=
  match source, target with
  | .float64, .float32 =>
      if bits = 0x3ff0000000000000 then 0x3f800000
      else if bits = 0x4000000000000000 then 0x40000000 else 0
  | .float32, .float64 =>
      if bits = 0x3f800000 then 0x3ff0000000000000
      else if bits = 0x40000000 then 0x4000000000000000 else 0
  | _, _ => bits

/-- The layout of the sample schema for two entities with ids of at most eight bytes. -/
def sampleLayout : SegmentLayout :=
  layoutOf 2 8 64 [⟨0, 0, .float32, 1, 4⟩] [⟨0, 0, .float32, 1, 4⟩] 1

theorem computeLayout_sample_of_hash {hashName : String → UInt64} (hash : hashName "score" = 0) :
    computeLayout hashName sampleSchema 2 8 = .ok sampleLayout := by
  have table : compileSchema hashName sampleSchema = .ok [⟨0, 64, .float32, 1, 4⟩] := by
    simp [compileSchema, sampleSchema, offsetRows, fieldByteOffsets, alignUp, headerSize,
      cacheLineSize, FeatureField.byteCount, FeatureField.elementCount, elementProduct,
      DType.byteSize, hash]
  have relative : computeRowOffsetTable hashName sampleSchema = .ok [⟨0, 0, .float32, 1, 4⟩] := by
    rw [computeRowOffsetTable, table]
    rfl
  have assembly : computeAssemblyTable hashName sampleSchema = [⟨0, 0, .float32, 1, 4⟩] := by
    rw [← hash]
    rfl
  have rows : rowSize hashName sampleSchema = .ok 64 := by
    rw [rowSize, relative]
    rfl
  rw [computeLayout, rows, relative, assembly]
  rfl

theorem computeLayout_sample :
    computeLayout (fun _ => 0) sampleSchema 2 8 = .ok sampleLayout :=
  computeLayout_sample_of_hash rfl

/-- A schema with a scalar and a list. -/
def samplePair : FeatureSchema where
  className := "Pair"
  version := 1
  fields := [⟨"score", .float32, [], score_named, scalar_dimensions, scalar_elements,
      scalar_bytes .float32⟩,
    ⟨"tags", .int32, [2], tags_named, pair_dimensions, pair_elements, pair_bytes .int32⟩]
  fieldsNonempty := by decide
  namesDistinct := by decide

/-- Hashes that put the list of the pair before its scalar. -/
def samplePairHash (name : String) : UInt64 :=
  if name = "tags" then 0 else if name = "score" then 1 else 2

/-- A sort of two things that are out of order swaps them. -/
theorem mergeSort_swapped {α : Type} {le : α → α → Bool} {first second : α}
    (above : le first second = false) : [first, second].mergeSort le = [second, first] := by
  simp [List.mergeSort, List.MergeSort.Internal.splitInTwo, above]

theorem compileSchema_pair : compileSchema samplePairHash samplePair =
    .ok [⟨0, 128, .int32, 2, 8⟩, ⟨1, 64, .float32, 1, 4⟩] := by
  have rows : offsetRows samplePairHash samplePair.fields headerSize =
      [⟨1, 64, .float32, 1, 4⟩, ⟨0, 128, .int32, 2, 8⟩] := by decide
  have sorted : (offsetRows samplePairHash samplePair.fields headerSize).mergeSort
      (fun first second => decide (first.nameHash ≤ second.nameHash)) =
      [⟨0, 128, .int32, 2, 8⟩, ⟨1, 64, .float32, 1, 4⟩] := by
    rw [rows]
    exact mergeSort_swapped (by decide)
  rw [compileSchema, sorted]
  rfl

theorem computeRowOffsetTable_pair : computeRowOffsetTable samplePairHash samplePair =
    .ok [⟨0, 64, .int32, 2, 8⟩, ⟨1, 0, .float32, 1, 4⟩] := by
  rw [computeRowOffsetTable, compileSchema_pair]
  rfl

theorem rowSize_pair : rowSize samplePairHash samplePair = .ok 128 := by
  rw [rowSize, computeRowOffsetTable_pair]
  rfl

/-- A slot field lies between the metadata and the string pool. -/
theorem LayoutSound.slotField_range {layout : SegmentLayout} (sound : LayoutSound layout)
    {index : Nat} (offset width : Nat) (inside : index < layout.slotCapacity)
    (fits : offset + width ≤ slotBytes) :
    dataRegionOffset ≤ layout.slotField index offset ∧
      layout.slotField index offset + width ≤ layout.stringPoolOffset := by
  have start := sound.slotStart
  have last := sound.slotEnd
  simp only [SegmentLayout.slotField, slotBytes] at *
  omega

/-- A feature row lies behind the string pool and inside the segment. -/
theorem LayoutSound.rowAddress_range {layout : SegmentLayout} (sound : LayoutSound layout)
    {row : Nat} (inside : row < layout.capacity) :
    layout.stringPoolDataOffset + layout.stringPoolDataBytes ≤ layout.rowAddress row ∧
      layout.rowAddress row + layout.rowSize ≤ layout.totalSize := by
  have before := sound.poolEnd
  have after := sound.rowsEnd
  have product : (row + 1) * layout.rowSize ≤ layout.capacity * layout.rowSize :=
    Nat.mul_le_mul_right _ inside
  simp only [SegmentLayout.rowAddress]
  rw [Nat.add_mul, Nat.one_mul] at product
  omega

/-- Different row indices name disjoint rows. -/
theorem SegmentLayout.rowAddress_disjoint (layout : SegmentLayout) {first second : Nat}
    (different : first ≠ second) :
    layout.rowAddress first + layout.rowSize ≤ layout.rowAddress second ∨
      layout.rowAddress second + layout.rowSize ≤ layout.rowAddress first := by
  rcases Nat.lt_or_gt_of_ne different with before | after
  · left
    have product : (first + 1) * layout.rowSize ≤ second * layout.rowSize :=
      Nat.mul_le_mul_right _ before
    rw [Nat.add_mul, Nat.one_mul] at product
    simp only [rowAddress]
    omega
  · right
    have product : (second + 1) * layout.rowSize ≤ first * layout.rowSize :=
      Nat.mul_le_mul_right _ after
    rw [Nat.add_mul, Nat.one_mul] at product
    simp only [rowAddress]
    omega

/-- The pool has room for one more entry while a row index is free. -/
theorem LayoutSound.pool_room {layout : SegmentLayout} (sound : LayoutSound layout)
    {rows cursor length : Nat} (free : rows < layout.capacity)
    (used : cursor ≤ rows * (lenPrefixBytes + layout.maxIdBytes))
    (short : length ≤ layout.maxIdBytes) :
    cursor + (lenPrefixBytes + length) ≤ (rows + 1) * (lenPrefixBytes + layout.maxIdBytes) ∧
      cursor + (lenPrefixBytes + length) ≤ layout.stringPoolDataBytes := by
  have product : (rows + 1) * (lenPrefixBytes + layout.maxIdBytes) ≤
      layout.capacity * (lenPrefixBytes + layout.maxIdBytes) := Nat.mul_le_mul_right _ free
  rw [sound.poolBytes]
  rw [Nat.add_mul, Nat.one_mul] at *
  omega

/-- The mask of the probe sequence is the remainder by the slot count. -/
theorem LayoutSound.mask_eq {layout : SegmentLayout} (sound : LayoutSound layout) (value : Nat) :
    value &&& (layout.slotCapacity - 1) = value % layout.slotCapacity := by
  obtain ⟨exponent, power⟩ := sound.slotPower
  rw [power, Nat.and_two_pow_sub_one_eq_mod]

theorem LayoutSound.slotCapacity_pos {layout : SegmentLayout} (sound : LayoutSound layout) :
    0 < layout.slotCapacity := by
  have positive := sound.capacityPositive
  have room := sound.slotRoom
  omega

end Quorin
