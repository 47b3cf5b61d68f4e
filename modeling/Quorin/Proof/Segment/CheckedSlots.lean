import Quorin.Construction.CheckedKernels
import Quorin.Proof.Segment.OffsetTables
import Quorin.Proof.Segment.SlotsInside

namespace Quorin

open ByteMemory CheckedArrays

/-- The facts about a layout that keep the kernels inside the segment. -/
structure KernelLayout (layout : SegmentLayout) : Prop where
  sound : LayoutSound layout
  assembly : AssemblySound layout
  rowsAligned : cacheLineSize ∣ layout.featureRowsOffset
  rowSizeAligned : cacheLineSize ∣ layout.rowSize
  fieldAligned : ∀ row ∈ layout.assemblyTable, cacheLineSize ∣ row.byteOffset
  fieldInside : ∀ row ∈ layout.assemblyTable, row.byteOffset + row.byteCount ≤ layout.rowSize

theorem computeLayout_kernel {hashName : String → UInt64} {schema : FeatureSchema}
    {capacity maxIdBytes : Int} {layout : SegmentLayout}
    (computed : computeLayout hashName schema capacity maxIdBytes = .ok layout) :
    KernelLayout layout := by
  have ordered := computeLayout_ordered computed
  obtain ⟨table, sized, assembly, _⟩ := computeLayout_parts computed
  constructor
  · exact computeLayout_sound computed
  · exact computeLayout_assembly computed
  · exact ordered.rowsAligned
  · exact ordered.rowSizeAligned
  · intro row member
    rw [assembly] at member
    obtain ⟨entry, placed, rfl⟩ := List.mem_map.mp member
    exact fieldByteOffsets_aligned schema.fields 0 _ (List.of_mem_zip placed).2
  · intro row member
    rw [assembly] at member
    obtain ⟨entry, placed, rfl⟩ := List.mem_map.mp member
    exact placed_inside table sized placed

/-- The segment array of a memory has the total size of its layout. -/
def SegmentLayout.buffer (layout : SegmentLayout) (memory : Memory) : Buffer :=
  ⟨memory, layout.totalSize⟩

section Regions

variable {layout : SegmentLayout} (kernel : KernelLayout layout) (memory : Memory)

include kernel in
/-- The fields of a slot record are aligned to their widths. -/
theorem KernelLayout.slotField_aligned {width offset : Nat} (power : width ∣ 8)
    (aligned : width ∣ offset) (slot : Nat) : width ∣ layout.slotField slot offset := by
  have table : width ∣ layout.slotTableOffset := by
    rw [kernel.sound.slotStart]
    exact power.trans (by decide)
  have record : width ∣ slot * slotBytes := (power.trans (by decide)).mul_left slot
  exact ((table.add record).add aligned)

include kernel in
theorem KernelLayout.slotField_inside {slot offset width : Nat}
    (inside : slot < layout.slotCapacity) (fits : offset + width ≤ slotBytes) :
    layout.slotField slot offset + width ≤ layout.totalSize := by
  have range := (kernel.sound.slotField_range offset width inside fits).2
  have pool := kernel.sound.poolStart
  have poolEnd := kernel.sound.poolEnd
  have rowsEnd := kernel.sound.rowsEnd
  omega

include kernel in
/-- The read of one slot field passes its checks. -/
theorem KernelLayout.word_ok {slot offset width : Nat} (inside : slot < layout.slotCapacity)
    (power : width ∣ 8) (aligned : width ∣ offset) (fits : offset + width ≤ slotBytes) :
    (layout.buffer memory).word (layout.slotField slot offset) width =
      .ok (memory.readNat (layout.slotField slot offset) width) :=
  Buffer.word_ok (Nat.pos_of_dvd_of_pos power (by decide))
    (kernel.slotField_aligned power aligned slot) (kernel.slotField_inside inside fits)

include kernel in
/-- The write of one slot field passes its checks. -/
theorem KernelLayout.storeWord_ok {slot offset width : Nat} (inside : slot < layout.slotCapacity)
    (power : width ∣ 8) (aligned : width ∣ offset) (fits : offset + width ≤ slotBytes)
    (value : Nat) :
    (layout.buffer memory).storeWord (layout.slotField slot offset) width value =
      .ok (layout.buffer (memory.write (layout.slotField slot offset) (leBytes width value))) :=
  Buffer.storeWord_ok (Nat.pos_of_dvd_of_pos power (by decide))
    (kernel.slotField_aligned power aligned slot) (kernel.slotField_inside inside fits) value

include kernel in
theorem KernelLayout.pool_inside : layout.stringPoolDataOffset + layout.stringPoolDataBytes ≤
    layout.totalSize := by
  have poolEnd := kernel.sound.poolEnd
  have rowsEnd := kernel.sound.rowsEnd
  omega

include kernel in
/-- The rows of the segment are aligned to cache lines. -/
theorem KernelLayout.row_aligned (row : Nat) : cacheLineSize ∣ layout.rowAddress row :=
  kernel.rowsAligned.add (kernel.rowSizeAligned.mul_left row)

end Regions

end Quorin
