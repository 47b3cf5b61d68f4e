import Quorin.Proof.Segment.HeaderWords

namespace Quorin

open ByteMemory

/-- A row of the compiled table, moved back to the row base. -/
def OffsetRow.rebased (row : OffsetRow) : OffsetRow :=
  { row with byteOffset := row.byteOffset - cacheLineSize }

/-- The bytes of two rows of a table do not overlap. -/
def OffsetRow.Apart (first second : OffsetRow) : Prop :=
  first.byteOffset + first.byteCount ≤ second.byteOffset ∨
    second.byteOffset + second.byteCount ≤ first.byteOffset

theorem OffsetRow.Apart.symm {first second : OffsetRow} (apart : first.Apart second) :
    second.Apart first :=
  Or.symm apart

/-- Every field starts at a multiple of a cache line. -/
theorem fieldByteOffsets_aligned (fields : List FeatureField) (cursor : Nat) :
    ∀ offset ∈ fieldByteOffsets fields cursor, cacheLineSize ∣ offset := by
  induction fields generalizing cursor with
  | nil => exact fun offset member => absurd member List.not_mem_nil
  | cons field rest ih =>
      intro offset member
      rcases List.mem_cons.mp member with rfl | later
      · exact dvd_alignUp cursor 6
      · exact ih _ offset later

section Tables

variable {hashName : String → UInt64}

/-- The rows of the assembly table follow one another. -/
theorem assemblyTable_apart (schema : FeatureSchema) :
    (computeAssemblyTable hashName schema).Pairwise fun first second =>
      first.byteOffset + first.byteCount ≤ second.byteOffset := by
  rw [computeAssemblyTable, offsetRows, List.pairwise_map]
  exact placed_apart schema.fields 0

theorem assemblyTable_sorted (schema : FeatureSchema) :
    (computeAssemblyTable hashName schema).Pairwise fun first second =>
      first.byteOffset < second.byteOffset := by
  have positive := offsetRows_byteCount_pos hashName schema.fields 0
  apply List.Pairwise.imp_of_mem _ (assemblyTable_apart schema)
  intro first second member _ apart
  have bytes := positive first member
  omega

variable {schema : FeatureSchema} {compiled : List OffsetRow}
  (compiles : compileSchema hashName schema = .ok compiled)

include compiles in
theorem computeRowOffsetTable_rebased :
    computeRowOffsetTable hashName schema = .ok (compiled.map OffsetRow.rebased) := by
  rw [computeRowOffsetTable, compiles]
  simp only [bind, Except.bind, pure, Except.pure, compileSchema_first compiles]
  rfl

include compiles in
theorem rebased_perm :
    (compiled.map OffsetRow.rebased).Perm (computeAssemblyTable hashName schema) :=
  (computeRowOffsetTable_spec (computeRowOffsetTable_rebased compiles)).1

include compiles in
/-- Every offset of the compiled table lies behind the header's cache line. -/
theorem compiled_behind : ∀ row ∈ compiled, cacheLineSize ≤ row.byteOffset := by
  intro row member
  rw [(compileSchema_perm compiles).mem_iff] at member
  obtain ⟨⟨field, offset⟩, placed, rfl⟩ := List.mem_map.mp member
  have inOffsets := (List.of_mem_zip placed).2
  rw [fieldByteOffsets_header schema.fieldsNonempty] at inOffsets
  obtain ⟨start, _, rfl⟩ := List.mem_map.mp inOffsets
  exact Nat.le_add_left _ _

include compiles in
/-- The row-relative extents lie apart, start at cache lines and end inside the row. -/
theorem rebased_extents {rows : Nat} (sized : rowSize hashName schema = .ok rows) :
    (compiled.map OffsetRow.rebased).Pairwise OffsetRow.Apart ∧
      ∀ row ∈ compiled.map OffsetRow.rebased,
        cacheLineSize ∣ row.byteOffset ∧ row.byteOffset + row.byteCount ≤ rows := by
  constructor
  · rw [(rebased_perm compiles).pairwise_iff OffsetRow.Apart.symm]
    exact (assemblyTable_apart schema).imp Or.inl
  · intro row member
    rw [(rebased_perm compiles).mem_iff] at member
    obtain ⟨entry, placed, rfl⟩ := List.mem_map.mp member
    constructor
    · exact fieldByteOffsets_aligned schema.fields 0 _ (List.of_mem_zip placed).2
    · exact placed_inside (computeRowOffsetTable_rebased compiles) sized placed

include compiles in
/-- The declaration order is the order of the offsets. -/
theorem assemblyTable_unique {other : FeatureSchema}
    (same : compileSchema hashName other = .ok compiled) :
    computeAssemblyTable hashName other = computeAssemblyTable hashName schema := by
  have rows : (computeAssemblyTable hashName other).Perm (computeAssemblyTable hashName schema) :=
    (rebased_perm same).symm.trans (rebased_perm compiles)
  apply rows.eq_of_pairwise _ (assemblyTable_sorted other) (assemblyTable_sorted schema)
  intro first second _ _ before after
  omega

include compiles in
theorem rowSize_unique {other : FeatureSchema}
    (same : compileSchema hashName other = .ok compiled) :
    rowSize hashName other = rowSize hashName schema := by
  rw [rowSize, rowSize, computeRowOffsetTable_rebased same, computeRowOffsetTable_rebased compiles]

theorem totalElementCount_eq (schema : FeatureSchema) : totalElementCount schema =
    ((computeAssemblyTable hashName schema).map OffsetRow.elementCount).sum := by
  have counts := congrArg (List.map FeatureField.elementCount) (placed_fields schema)
  rw [List.map_map] at counts
  rw [totalElementCount, ← counts, computeAssemblyTable, offsetRows, List.map_map]
  rfl

include compiles in
/-- A layout of one schema is the layout of every schema with the same compiled table. -/
theorem computeLayout_unique {other : FeatureSchema}
    (same : compileSchema hashName other = .ok compiled) {capacity maxIdBytes : Int}
    {layout : SegmentLayout}
    (computed : computeLayout hashName schema capacity maxIdBytes = .ok layout) :
    computeLayout hashName other capacity maxIdBytes = .ok layout := by
  have assembly := assemblyTable_unique compiles same
  have elements : totalElementCount other = totalElementCount schema := by
    rw [@totalElementCount_eq hashName, @totalElementCount_eq hashName, assembly]
  have sized := (computeLayout_parts computed).2.1
  unfold computeLayout at computed ⊢
  rw [rowSize_unique compiles same, computeRowOffsetTable_rebased same, assembly, elements, sized]
  rw [computeRowOffsetTable_rebased compiles, sized] at computed
  dsimp only at computed ⊢
  split at computed
  · cases computed
  · rename_i capacityPositive
    split at computed
    · cases computed
    · rename_i budgetPositive
      split at computed
      · cases computed
      · rename_i budgetBound
        split at computed
        · cases computed
        · rename_i capacityBound
          split at computed
          · cases computed
          · rename_i totalBound
            rw [if_neg capacityPositive, if_neg budgetPositive, if_neg budgetBound,
              if_neg capacityBound, if_neg totalBound]
            exact computed

include compiles in
/-- A segment has one layout under all schemas with the same compiled table. -/
theorem openedLayout_unique {other : FeatureSchema}
    (same : compileSchema hashName other = .ok compiled) {buf : List UInt8}
    {layout : SegmentLayout}
    (opened : computeLayoutFromSegment hashName buf schema = .ok layout) :
    computeLayoutFromSegment hashName buf other = .ok layout := by
  obtain ⟨capacity, maxIdBytes, first, second, positive, computed⟩ :=
    computeLayoutFromSegment_words opened
  exact computeLayoutFromSegment_of_words first second positive
    (computeLayout_unique compiles same computed)

/-- An accepted header holds the checksum of the compiled table. -/
theorem verifyHeaderBytes_crc {crc32 : List OffsetRow → UInt32} {buf : List UInt8}
    {schema : FeatureSchema} {compiled : List OffsetRow}
    (compiles : compileSchema hashName schema = .ok compiled)
    (accepted : verifyHeaderBytes hashName crc32 buf schema = .ok ()) :
    leNat (slice buf 8 4) = (crc32 compiled).toNat := by
  unfold verifyHeaderBytes at accepted
  rw [compiles] at accepted
  dsimp only at accepted
  split at accepted
  · cases accepted
  split at accepted
  · cases accepted
  split at accepted
  · cases accepted
  split at accepted
  · cases accepted
  · rename_i equal
    exact not_not.mp equal

end Tables

/-- The three tables of an accepted schema describe the same fields and fix one layout. -/
theorem offsetTables_agree {hashName : String → UInt64} {schema : FeatureSchema}
    {compiled : List OffsetRow} (compiles : compileSchema hashName schema = .ok compiled) :
    (∃ relative rows, computeRowOffsetTable hashName schema = .ok relative ∧
      rowSize hashName schema = .ok rows ∧
      relative = compiled.map OffsetRow.rebased ∧
      (∀ row ∈ compiled, cacheLineSize ≤ row.byteOffset) ∧
      relative.Perm (computeAssemblyTable hashName schema) ∧
      relative.Pairwise OffsetRow.Apart ∧
      ∀ row ∈ relative, cacheLineSize ∣ row.byteOffset ∧ row.byteOffset + row.byteCount ≤ rows) ∧
    (∀ other, compileSchema hashName other = .ok compiled →
      computeAssemblyTable hashName other = computeAssemblyTable hashName schema ∧
        rowSize hashName other = rowSize hashName schema) ∧
    ∀ (crc32 : List OffsetRow → UInt32) (other : FeatureSchema) (otherTable : List OffsetRow)
      (buf : List UInt8), compileSchema hashName other = .ok otherTable →
      (crc32 otherTable = crc32 compiled → otherTable = compiled) →
      verifyHeaderBytes hashName crc32 buf schema = .ok () →
      verifyHeaderBytes hashName crc32 buf other = .ok () →
      ∀ layout, computeLayoutFromSegment hashName buf schema = .ok layout ↔
        computeLayoutFromSegment hashName buf other = .ok layout := by
  have relative := computeRowOffsetTable_rebased compiles
  obtain ⟨rows, sized⟩ : ∃ rows, rowSize hashName schema = .ok rows := by
    rw [rowSize, relative]
    exact ⟨_, rfl⟩
  obtain ⟨apart, inside⟩ := rebased_extents compiles sized
  constructor
  · exact ⟨_, rows, relative, sized, rfl, compiled_behind compiles, rebased_perm compiles, apart,
      inside⟩
  constructor
  · intro other same
    exact ⟨assemblyTable_unique compiles same, rowSize_unique compiles same⟩
  · intro crc32 other otherTable buf otherCompiles injective accepted otherAccepted layout
    have checksums : crc32 otherTable = crc32 compiled := by
      apply UInt32.toNat_inj.mp
      rw [← verifyHeaderBytes_crc otherCompiles otherAccepted,
        verifyHeaderBytes_crc compiles accepted]
    obtain rfl := injective checksums
    constructor
    · exact openedLayout_unique compiles otherCompiles
    · exact openedLayout_unique otherCompiles compiles

/-- The rows of the pair lie apart in an order that is not the declared one. -/
theorem offsetTables_agree_sample :
    rowSize samplePairHash samplePair = .ok 128 ∧
      (∃ relative, computeRowOffsetTable samplePairHash samplePair = .ok relative ∧
        relative.Perm (computeAssemblyTable samplePairHash samplePair) ∧
        relative.Pairwise OffsetRow.Apart) ∧
      ∀ other, compileSchema samplePairHash other =
          .ok [⟨0, 128, .int32, 2, 8⟩, ⟨1, 64, .float32, 1, 4⟩] →
        computeAssemblyTable samplePairHash other = computeAssemblyTable samplePairHash samplePair ∧
          rowSize samplePairHash other = rowSize samplePairHash samplePair := by
  obtain ⟨⟨relative, _, tabled, _, _, _, perm, apart, _⟩, pins, _⟩ :=
    offsetTables_agree compileSchema_pair
  exact ⟨rowSize_pair, ⟨relative, tabled, perm, apart⟩, pins⟩

end Quorin
