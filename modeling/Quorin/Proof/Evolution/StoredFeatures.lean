import Quorin.Library.VersionedLog
import Quorin.Proof.Evolution.Composition
import Quorin.Proof.Serving.ReadParity

namespace Quorin

open ByteMemory

/-- The features in the bytes of a row that was packed for a schema. -/
def rowDataFeatures (hashName : String → UInt64) (schema : FeatureSchema) (rowData : List UInt8) :
    Features := fun name =>
  (schema.byName name).bind fun field =>
    match computeRowOffsetTable hashName schema with
    | .error _ => none
    | .ok table =>
        (rowByteOffset hashName table name).map fun offset =>
          (List.range field.elementCount).map fun element =>
            slice rowData (offset + element * field.dtype.byteSize) field.dtype.byteSize

/-- The features hold the declared elements of the fields of a schema and nothing else. -/
structure Features.Of (features : Features) (schema : FeatureSchema) : Prop where
  declared : features.Declared schema
  others : ∀ name, schema.byName name = none → features name = none

section Rows

variable {hashName : String → UInt64} {hashId : List UInt8 → UInt64} {schema : FeatureSchema}
  {layout : SegmentLayout}

/-- The element of a field ends inside its row. -/
theorem element_inside {field : FeatureField} {offset size element : Nat}
    (inside : offset + field.byteCount ≤ size) (bound : element < field.elementCount) :
    offset + element * field.dtype.byteSize + field.dtype.byteSize ≤ size := by
  have last : (element + 1) * field.dtype.byteSize ≤ field.byteCount :=
    Nat.mul_le_mul_right _ bound
  rw [Nat.add_mul, Nat.one_mul] at last
  omega

variable (table : computeRowOffsetTable hashName schema = .ok layout.rowOffsetTable)
  (sized : rowSize hashName schema = .ok layout.rowSize)

include table sized in
/-- The features of a stored row are those of its bytes. -/
theorem rowFeatures_read {memory : Memory} {address : Nat} {rowData : List UInt8}
    (read : memory.read address layout.rowSize = rowData) :
    rowFeatures hashName schema layout memory address = rowDataFeatures hashName schema rowData := by
  funext name
  unfold rowFeatures rowDataFeatures
  rw [table]
  cases found : schema.byName name with
  | none => rfl
  | some field =>
      obtain ⟨member, rfl⟩ := byName_some found
      obtain ⟨offset, place⟩ := placed_of_mem member
      have inside := placed_inside table sized place
      simp only [Option.bind_some, rowByteOffset_placed table place, Option.map_some,
        Option.some.injEq]
      apply List.map_congr_left
      intro element bound
      rw [← read, slice_read memory _ (element_inside inside (List.mem_range.mp bound)), Nat.add_assoc]

include table sized in
/-- The bytes of a row of full size hold the declared features. -/
theorem rowDataFeatures_of {rowData : List UInt8} (length : rowData.length = layout.rowSize) :
    (rowDataFeatures hashName schema rowData).Of schema where
  declared := by
    intro field member
    obtain ⟨offset, place⟩ := placed_of_mem member
    have inside := placed_inside table sized place
    refine ⟨_, by simp only [rowDataFeatures, table, byName_of_mem member,
      rowByteOffset_placed table place, Option.bind_some, Option.map_some]; rfl, by simp, ?_⟩
    intro bytes stored
    obtain ⟨element, bound, rfl⟩ := List.mem_map.mp stored
    have fits : offset + element * field.dtype.byteSize + field.dtype.byteSize ≤ layout.rowSize :=
      element_inside inside (List.mem_range.mp bound)
    rw [slice, List.length_take, List.length_drop]
    omega
  others := by
    intro name absent
    rw [rowDataFeatures, absent, Option.bind_none]

include table sized in
/-- The features in a refined segment are those of the newest rows. -/
theorem segmentFeatures_refined (sound : LayoutSound layout) {history : SegmentHistory}
    (refined : history.Refined hashId layout) (entityId : String) :
    segmentFeatures hashName hashId schema layout history.memory entityId =
      (lastRow history.log entityId).map (rowDataFeatures hashName schema) := by
  unfold segmentFeatures
  cases newest : lastRow history.log entityId with
  | none =>
      split
      · rename_i address found
        obtain ⟨index, inside, stored, _⟩ := (lookup_located sound refined.consistent).mp found
        have held := contents_ne_none.mpr ⟨index, inside, stored⟩
        rw [show contents layout history.memory = _ from refined.rows] at held
        exact absurd newest held
      · rfl
  | some rowData =>
      obtain ⟨address, found, read⟩ := (refined.behavesAsMap sound).present entityId rowData newest
      have result : (lookup hashId layout entityId).result history.memory = .ok (some address) :=
        congrArg Prod.fst found
      rw [result]
      exact congrArg some (rowFeatures_read table sized read)

end Rows

/-- The upgrades migrate features lawfully when the float cast keeps zero. -/
theorem migrateFeatures_lawful {castBits : DType → DType → Nat → Nat}
    (zero : castBits .float32 .float64 0 = 0) :
    VersionedLog.Lawful (migrateFeatures castBits) Accepted
      fun schema features => Features.Of features schema where
  self := by
    intro schema features fits
    funext name
    unfold migrateFeatures
    cases found : schema.byName name with
    | none => exact (fits.others name found).symm
    | some field =>
        obtain ⟨member, rfl⟩ := byName_some found
        obtain ⟨elements, stored, _⟩ := fits.declared field member
        have same : astype castBits field.dtype field.dtype = id := by
          funext element
          exact astype_self castBits field.dtype element
        simp [stored, same]
  trans := fun _ _ _ _ first second fits => migrateFeatures_trans zero first second fits.declared
  accepts := fun _ _ _ => Accepted.trans

end Quorin
