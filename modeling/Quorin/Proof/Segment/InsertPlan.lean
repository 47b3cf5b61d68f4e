import Quorin.Proof.Segment.SegmentState

namespace Quorin

open ByteMemory LinearProbe

/-- A write before the slot table or behind the used pool changes no occupied record. -/
theorem Agree.write_outside {layout : SegmentLayout} (sound : LayoutSound layout) {cursor : Nat}
    (memory : Memory) {address : Nat} {bytes : List UInt8}
    (outside : address + bytes.length ≤ dataRegionOffset ∨
      layout.stringPoolDataOffset + cursor ≤ address) :
    Agree layout cursor memory (memory.write address bytes) := by
  have pool := sound.poolStart
  have field : ∀ index offset width, index < layout.slotCapacity → offset + width ≤ slotBytes →
      (memory.write address bytes).readNat (layout.slotField index offset) width =
        memory.readNat (layout.slotField index offset) width := by
    intro index offset width inside fits
    have range := sound.slotField_range offset width inside fits
    apply Memory.readNat_write_disjoint
    omega
  constructor
  · exact fun index inside => field index _ _ inside (by decide)
  · exact fun index inside _ => field index _ _ inside (by decide)
  · exact fun index inside _ => field index _ _ inside (by decide)
  · exact fun index inside _ => field index _ _ inside (by decide)
  · have start := sound.slotStart
    have tableEnd := sound.slotEnd
    apply Memory.read_write_disjoint
    omega

/-- A write to a field of a vacant slot, other than its flags, changes no occupied record. -/
theorem Agree.write_slot {layout : SegmentLayout} (sound : LayoutSound layout) {cursor : Nat}
    (memory : Memory) {index offset : Nat} {bytes : List UInt8}
    (inside : index < layout.slotCapacity)
    (vacant : slotFlags layout memory index = flagEmpty)
    (fits : offset + bytes.length ≤ slotBytes)
    (apart : offset + bytes.length ≤ slotFlagsOffset ∨ slotFlagsOffset + 4 ≤ offset) :
    Agree layout cursor memory (memory.write (layout.slotField index offset) bytes) := by
  have pool := sound.poolStart
  have range := sound.slotField_range offset bytes.length inside fits
  have field : ∀ other place width, place + width ≤ slotBytes → other ≠ index →
      (memory.write (layout.slotField index offset) bytes).readNat
          (layout.slotField other place) width =
        memory.readNat (layout.slotField other place) width := by
    intro other place width otherFits different
    apply Memory.readNat_write_disjoint
    simp only [SegmentLayout.slotField, slotBytes] at *
    omega
  have occupiedElsewhere : ∀ other, slotFlags layout memory other = flagOccupied →
      other ≠ index := by
    rintro other occupied rfl
    rw [vacant] at occupied
    exact absurd occupied (by decide)
  constructor
  · intro other otherInside
    by_cases same : other = index
    · rw [same]
      apply Memory.readNat_write_disjoint
      simp only [SegmentLayout.slotField] at *
      omega
    · exact field other _ _ (by decide) same
  · exact fun other _ occupied => field other _ _ (by decide) (occupiedElsewhere other occupied)
  · exact fun other _ occupied => field other _ _ (by decide) (occupiedElsewhere other occupied)
  · exact fun other _ occupied => field other _ _ (by decide) (occupiedElsewhere other occupied)
  · apply Memory.read_write_disjoint
    omega

/-- The memory after the flags of one slot became occupied. -/
def occupySlot (layout : SegmentLayout) (memory : Memory) (index : Nat) : Memory :=
  memory.write (layout.slotField index slotFlagsOffset) (leBytes 4 flagOccupied)

section Occupy

variable {layout : SegmentLayout} (sound : LayoutSound layout) (memory : Memory) {index : Nat}

theorem occupySlot_flags (other : Nat) :
    slotFlags layout (occupySlot layout memory index) other =
      if other = index then flagOccupied else slotFlags layout memory other := by
  unfold slotFlags occupySlot
  split
  · rename_i same
    rw [same]
    exact Memory.readNat_write_same _ _ _ _ (by decide)
  · rename_i different
    apply Memory.readNat_write_disjoint
    simp only [SegmentLayout.slotField, slotBytes, leBytes_length] at *
    omega

/-- The flags write leaves every other field of every slot as it was. -/
theorem occupySlot_field (other offset width : Nat) (fits : offset + width ≤ slotBytes)
    (apart : offset + width ≤ slotFlagsOffset ∨ slotFlagsOffset + 4 ≤ offset) :
    (occupySlot layout memory index).readNat (layout.slotField other offset) width =
      memory.readNat (layout.slotField other offset) width := by
  apply Memory.readNat_write_disjoint
  simp only [SegmentLayout.slotField, slotBytes, slotFlagsOffset, leBytes_length] at *
  omega

include sound in
/-- The flags write leaves the whole region behind the slot table as it was. -/
theorem occupySlot_read (inside : index < layout.slotCapacity) {start count : Nat}
    (behind : layout.stringPoolOffset ≤ start) :
    (occupySlot layout memory index).read start count = memory.read start count := by
  have range := sound.slotField_range slotFlagsOffset 4 inside (by decide)
  apply Memory.read_write_disjoint
  rw [leBytes_length]
  omega

include sound in
theorem occupySlot_entry (inside : index < layout.slotCapacity) (idOffset : Nat) :
    entryLength layout (occupySlot layout memory index) idOffset =
        entryLength layout memory idOffset ∧
      entryBytes layout (occupySlot layout memory index) idOffset =
        entryBytes layout memory idOffset := by
  have start := sound.poolStart
  have behind : layout.stringPoolOffset ≤ layout.entryAddress idOffset := by
    simp only [SegmentLayout.entryAddress]; omega
  have sameLength : entryLength layout (occupySlot layout memory index) idOffset =
      entryLength layout memory idOffset :=
    Memory.readNat_congr (occupySlot_read sound memory inside behind)
  refine ⟨sameLength, ?_⟩
  unfold entryBytes
  rw [sameLength]
  exact occupySlot_read sound memory inside (behind.trans (Nat.le_add_right _ _))

include sound in
/-- The flags write makes the key of the slot visible and keeps every other key. -/
theorem occupySlot_key (inside : index < layout.slotCapacity) (other : Nat) :
    slotKey layout (occupySlot layout memory index) other =
      Function.update (slotKey layout memory) index
        (some (entryBytes layout memory (slotIdOffset layout memory index))) other := by
  have offset : slotIdOffset layout (occupySlot layout memory index) other =
      slotIdOffset layout memory other := occupySlot_field memory other _ _ (by decide) (by decide)
  unfold slotKey
  rw [occupySlot_flags, offset, (occupySlot_entry sound memory inside _).2]
  by_cases same : other = index
  · rw [same, Function.update_self]
    simp
  · rw [Function.update_of_ne same, if_neg same]

end Occupy

/-- The record of a vacant slot describes the next row and the next pool entry of a new id. -/
structure Prepared (hashId : List UInt8 → UInt64) (layout : SegmentLayout) (memory : Memory)
    (rows cursor index : Nat) (key : List UInt8) : Prop where
  hash : slotHash layout memory index = idHome hashId key
  idOffset : slotIdOffset layout memory index = cursor
  row : slotRow layout memory index = rows
  length : entryLength layout memory cursor = key.length
  bytes : entryBytes layout memory cursor = key

/-- The slot is the first vacant slot of the probe sequence of an absent key. -/
structure FirstVacant (hashId : List UInt8 → UInt64) (layout : SegmentLayout) (memory : Memory)
    (index : Nat) (key : List UInt8) : Prop where
  absent : ∀ other, other < layout.slotCapacity → slotKey layout memory other ≠ some key
  vacant : slotKey layout memory index = none
  walk : ∃ distance, distance < layout.slotCapacity ∧
    index = (idHome hashId key + distance) % layout.slotCapacity ∧
    ∀ step, step < distance →
      slotKey layout memory ((idHome hashId key + step) % layout.slotCapacity) ≠ none

theorem FirstVacant.inside {hashId : List UInt8 → UInt64} {layout : SegmentLayout}
    {memory : Memory} {index : Nat} {key : List UInt8}
    (first : FirstVacant hashId layout memory index key) : index < layout.slotCapacity := by
  obtain ⟨distance, bound, place, _⟩ := first.walk
  rw [place]
  exact Nat.mod_lt _ (by omega)

/-- Occupying a prepared slot consumes one row index and one pool entry. -/
theorem SegmentInvariant.occupy {hashId : List UInt8 → UInt64} {layout : SegmentLayout}
    (sound : LayoutSound layout) {memory : Memory} {rows cursor index : Nat} {key : List UInt8}
    (invariant : SegmentInvariant hashId layout memory rows cursor)
    (free : rows < layout.capacity) (short : key.length ≤ layout.maxIdBytes)
    (text : ∃ text, text ≠ "" ∧ key = encodeUtf8 text)
    (first : FirstVacant hashId layout memory index key)
    (prepared : Prepared hashId layout memory rows cursor index key) :
    SegmentInvariant hashId layout (occupySlot layout memory index) (rows + 1)
      (cursor + (lenPrefixBytes + key.length)) := by
  have inside := first.inside
  have hash : ∀ other, slotHash layout (occupySlot layout memory index) other =
      slotHash layout memory other :=
    fun other => occupySlot_field memory other _ _ (by decide) (by decide)
  have offset : ∀ other, slotIdOffset layout (occupySlot layout memory index) other =
      slotIdOffset layout memory other :=
    fun other => occupySlot_field memory other _ _ (by decide) (by decide)
  have row : ∀ other, slotRow layout (occupySlot layout memory index) other =
      slotRow layout memory other :=
    fun other => occupySlot_field memory other _ _ (by decide) (by decide)
  have entry := fun idOffset => occupySlot_entry sound memory inside idOffset
  have earlier : ∀ other, other ≠ index →
      slotFlags layout (occupySlot layout memory index) other = flagOccupied →
      slotFlags layout memory other = flagOccupied := by
    intro other different occupied
    rwa [occupySlot_flags, if_neg different] at occupied
  constructor
  · exact free
  · exact (sound.pool_room free invariant.cursorBound short).1
  · intro other otherInside
    rw [occupySlot_flags]
    split
    · exact Or.inr rfl
    · exact invariant.flags other otherInside
  · intro other otherInside occupied
    by_cases same : other = index
    · subst same
      constructor
      · rw [row, prepared.row]
        exact Nat.lt_succ_self _
      · rw [offset, prepared.idOffset, (entry cursor).1, prepared.length]
        omega
      · rw [offset, prepared.idOffset, (entry cursor).1, prepared.length]
        exact short
      · rw [hash, offset, prepared.idOffset, (entry cursor).2, prepared.bytes, prepared.hash]
      · rw [offset, prepared.idOffset, (entry cursor).2, prepared.bytes]
        exact text
    · have old := invariant.slot other otherInside (earlier other same occupied)
      constructor
      · rw [row]
        exact Nat.lt_succ_of_lt old.row
      · rw [offset, (entry _).1]
        exact old.entry.trans (Nat.le_add_right _ _)
      · rw [offset, (entry _).1]
        exact old.length
      · rw [hash, offset, (entry _).2]
        exact old.hash
      · rw [offset, (entry _).2]
        exact old.text
  · intro left right leftInside rightInside leftOccupied rightOccupied same
    rw [row, row] at same
    by_cases atLeft : left = index
    · by_cases atRight : right = index
      · rw [atLeft, atRight]
      · have old := (invariant.slot right rightInside (earlier right atRight rightOccupied)).row
        rw [atLeft, prepared.row] at same
        omega
    · have oldLeft := (invariant.slot left leftInside (earlier left atLeft leftOccupied)).row
      by_cases atRight : right = index
      · rw [atRight, prepared.row] at same
        omega
      · exact invariant.rowsDistinct left right leftInside rightInside
          (earlier left atLeft leftOccupied) (earlier right atRight rightOccupied) same
  · intro left right leftInside rightInside leftOccupied rightOccupied different
    rw [offset, offset, (entry _).1, (entry _).1]
    by_cases atLeft : left = index
    · have old := (invariant.slot right rightInside
        (earlier right (fun same => different (atLeft.trans same.symm)) rightOccupied)).entry
      right
      rw [atLeft, prepared.idOffset]
      exact old
    · have old := (invariant.slot left leftInside (earlier left atLeft leftOccupied)).entry
      by_cases atRight : right = index
      · left
        rw [atRight, prepared.idOffset]
        exact old
      · exact invariant.poolDisjoint left right leftInside rightInside
          (earlier left atLeft leftOccupied) (earlier right atRight rightOccupied) different
  · obtain ⟨distance, bound, place, run⟩ := first.walk
    have vacant := first.vacant
    rw [place] at vacant
    have grown := invariant.chained.store bound first.absent vacant run
    apply grown.congr
    intro other _
    rw [occupySlot_key sound memory inside, prepared.idOffset, prepared.bytes, place]

end Quorin
