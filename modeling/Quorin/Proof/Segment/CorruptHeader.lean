import Quorin.Proof.Segment.HeaderWords

namespace Quorin

open ByteMemory

/-- A rounded number is the least multiple of its alignment that is not smaller. -/
theorem alignUp_le_iff (value exponent bound : Nat) :
    alignUp value (2 ^ exponent) ≤ bound ↔ value ≤ bound / 2 ^ exponent * 2 ^ exponent := by
  have positive : 0 < 2 ^ exponent := Nat.two_pow_pos exponent
  obtain ⟨count, multiple⟩ := dvd_alignUp value exponent
  have above := le_alignUp value exponent
  have below : alignUp value (2 ^ exponent) < value + 2 ^ exponent := by
    rw [alignUp_eq]
    omega
  rw [multiple] at above below ⊢
  rw [Nat.mul_comm (bound / 2 ^ exponent)]
  constructor
  · intro inside
    have quotient : count ≤ bound / 2 ^ exponent := by
      rw [Nat.le_div_iff_mul_le positive, Nat.mul_comm]
      exact inside
    exact above.trans (Nat.mul_le_mul_left _ quotient)
  · intro inside
    have product : 2 ^ exponent * (bound / 2 ^ exponent) ≤ bound := Nat.mul_div_le _ _
    have quotient : count < bound / 2 ^ exponent + 1 := by
      apply Nat.lt_of_mul_lt_mul_left (a := 2 ^ exponent)
      rw [Nat.mul_add, Nat.mul_one]
      omega
    exact (Nat.mul_le_mul_left _ (Nat.le_of_lt_succ quotient)).trans product

/-- The capacity word of a header. -/
def storedCapacity (buf : List UInt8) : Nat := leNat (slice buf 12 4)

/-- The id budget, at the address that the capacity word gives. -/
def storedMaxIdBytes (buf : List UInt8) : Nat :=
  leNat (slice buf (stringPoolOffsetOf (storedCapacity buf)) 4)

/-- The end of the last row of a segment with the given numbers. -/
def lastRowEnd (capacity maxIdBytes rows : Nat) : Nat :=
  alignUp (stringPoolOffsetOf capacity + stringPoolHeaderBytes +
    capacity * (lenPrefixBytes + maxIdBytes)) cacheLineSize + capacity * rows

section Opened

variable {hashName : String → UInt64} {buf : List UInt8} {schema : FeatureSchema}
  {layout : SegmentLayout}

theorem unpackUInt32_ok {offset value : Nat} (unpacked : unpackUInt32 buf offset = .ok value) :
    value = leNat (slice buf offset 4) := by
  unfold unpackUInt32 at unpacked
  split at unpacked
  · exact (Except.ok.inj unpacked).symm
  · cases unpacked

/-- An opened layout is the computed layout of the two stored words. -/
theorem computeLayoutFromSegment_ok
    (opened : computeLayoutFromSegment hashName buf schema = .ok layout) :
    computeLayout hashName schema (storedCapacity buf) (storedMaxIdBytes buf) = .ok layout := by
  obtain ⟨capacity, maxIdBytes, first, second, _, computed⟩ :=
    computeLayoutFromSegment_words opened
  have capacityWord : capacity = storedCapacity buf := unpackUInt32_ok first
  subst capacityWord
  have budgetWord : maxIdBytes = storedMaxIdBytes buf := unpackUInt32_ok second
  subst budgetWord
  exact computed

/-- The size of an opened layout is the end of its last row, rounded up to a page. -/
theorem openedSize (opened : computeLayoutFromSegment hashName buf schema = .ok layout) :
    layout.totalSize =
      alignUp (lastRowEnd (storedCapacity buf) (storedMaxIdBytes buf) layout.rowSize) pageSize := by
  have computed := computeLayoutFromSegment_ok opened
  obtain ⟨_, _, _, _, capacity, maxIdBytes⟩ := computeLayout_parts computed
  have sameCapacity : layout.capacity = storedCapacity buf := by exact_mod_cast capacity
  have sameBudget : layout.maxIdBytes = storedMaxIdBytes buf := by exact_mod_cast maxIdBytes
  rw [← sameCapacity, ← sameBudget]
  conv_lhs => rw [computeLayout_eq computed]
  rfl

end Opened

/-- An accepted buffer is large enough for its layout exactly when the last row that its header
words describe ends within its whole pages. -/
theorem openedLayout_inside_iff {hashName : String → UInt64} {crc32 : List OffsetRow → UInt32}
    {schema : FeatureSchema} {buf : List UInt8} {layout : SegmentLayout} {rows : Nat}
    (_accepted : verifyHeaderBytes hashName crc32 buf schema = .ok ())
    (opened : computeLayoutFromSegment hashName buf schema = .ok layout)
    (sized : rowSize hashName schema = .ok rows) :
    layout.totalSize ≤ buf.length ↔
      lastRowEnd (storedCapacity buf) (storedMaxIdBytes buf) rows ≤
        buf.length / pageSize * pageSize := by
  have parts := (computeLayout_parts (computeLayoutFromSegment_ok opened)).2.1
  obtain rfl := Except.ok.inj (sized.symm.trans parts)
  rw [openedSize opened]
  exact alignUp_le_iff _ 12 _

/-- The bytes of a sample segment whose id budget is damaged. -/
def damagedBuffer (maxIdBytes : Nat) : List UInt8 :=
  magic ++ leBytes 4 1 ++ leBytes 4 0 ++ leBytes 4 2 ++ List.replicate 176 0 ++
    leBytes 4 maxIdBytes ++ List.replicate 3900 0

theorem damagedBuffer_verified :
    verifyHeaderBytes sampleHash (fun _ => 0) (damagedBuffer 4096) sampleSchema = .ok () := by
  rw [verifyHeaderBytes, compileSchema_sample]
  decide +kernel

/-- The layout that the damaged bytes describe. -/
def damagedLayout : SegmentLayout :=
  layoutOf 2 4096 64 [⟨0, 0, .float32, 1, 4⟩] [⟨0, 0, .float32, 1, 4⟩] 1

theorem computeLayout_damaged :
    computeLayout sampleHash sampleSchema 2 4096 = .ok damagedLayout := by
  obtain ⟨table, rows, assembly, _⟩ := computeLayout_parts
    (computeLayout_sample_of_hash (show sampleHash "score" = 0 from rfl))
  rw [computeLayout, rows, table, ← assembly]
  rfl

theorem damagedBuffer_words : unpackUInt32 (damagedBuffer 4096) 12 = .ok 2 ∧
    unpackUInt32 (damagedBuffer 4096) (stringPoolOffsetOf 2) = .ok 4096 := by
  constructor
  · decide +kernel
  · decide +kernel

theorem damagedBuffer_opened :
    computeLayoutFromSegment sampleHash (damagedBuffer 4096) sampleSchema = .ok damagedLayout :=
  computeLayoutFromSegment_of_words damagedBuffer_words.1 damagedBuffer_words.2 (by decide)
    computeLayout_damaged

/-- A header whose id budget is damaged is accepted, and its layout is larger than the mapping. -/
theorem damagedHeader_accepted :
    ¬ ∀ (hashName : String → UInt64) (crc32 : List OffsetRow → UInt32) (schema : FeatureSchema)
      (buf : List UInt8) (layout : SegmentLayout),
      verifyHeaderBytes hashName crc32 buf schema = .ok () →
      computeLayoutFromSegment hashName buf schema = .ok layout →
      layout.totalSize ≤ buf.length := by
  intro harmless
  have inside := harmless _ _ _ _ _ damagedBuffer_verified damagedBuffer_opened
  have length : (damagedBuffer 4096).length = 4096 := by decide +kernel
  have size : damagedLayout.totalSize = 12288 := by decide
  omega

theorem openedLayout_inside_iff_sample :
    damagedLayout.totalSize ≤ (damagedBuffer 4096).length ↔
      lastRowEnd (storedCapacity (damagedBuffer 4096)) (storedMaxIdBytes (damagedBuffer 4096)) 64 ≤
        (damagedBuffer 4096).length / pageSize * pageSize :=
  openedLayout_inside_iff damagedBuffer_verified damagedBuffer_opened
    (computeLayout_parts (computeLayout_sample_of_hash (show sampleHash "score" = 0 from rfl))).2.1

end Quorin
