import Quorin.Proof.Segment.Histories

namespace Quorin

open ByteMemory

/-- A slot refers to a consumed row and to a pool entry that ends in the used part of the pool. -/
structure SlotInside (layout : SegmentLayout) (memory : Memory) (rows cursor slot : Nat) : Prop where
  row : slotRow layout memory slot < rows
  entry : slotIdOffset layout memory slot + lenPrefixBytes +
    entryLength layout memory (slotIdOffset layout memory slot) ≤ cursor

/-- The slots of the table that are not vacant. -/
def usedSlots (layout : SegmentLayout) (memory : Memory) : Finset Nat :=
  (Finset.range layout.slotCapacity).filter fun slot => slotFlags layout memory slot ≠ flagEmpty

/-- Every occupied slot stays inside the consumed rows and the used pool bytes, whatever its id. -/
structure SlotsInside (layout : SegmentLayout) (memory : Memory) (rows cursor : Nat) : Prop where
  rowsBound : rows ≤ layout.capacity
  cursorBound : cursor ≤ rows * (lenPrefixBytes + layout.maxIdBytes)
  used : (usedSlots layout memory).card ≤ rows
  slot : ∀ slot, slot < layout.slotCapacity → slotFlags layout memory slot = flagOccupied →
    SlotInside layout memory rows cursor slot

/-- The stored cursors bound the rows and the pool entries of a segment. -/
def WithinCursors (layout : SegmentLayout) (memory : Memory) : Prop :=
  SlotsInside layout memory (nextFreeRow memory) (stringPoolCursor memory)

section Records

variable {layout : SegmentLayout} {before after : Memory} {rows cursor : Nat}

theorem Agree.usedSlots (agree : Agree layout cursor before after) :
    usedSlots layout after = usedSlots layout before := by
  apply Finset.filter_congr
  intro slot inside
  rw [agree.flags slot (Finset.mem_range.mp inside)]

/-- The flags write uses at most one more slot. -/
theorem occupySlot_usedSlots (layout : SegmentLayout) (memory : Memory) (slot : Nat) :
    (usedSlots layout (occupySlot layout memory slot)).card ≤
      (usedSlots layout memory).card + 1 := by
  have larger : usedSlots layout (occupySlot layout memory slot) ⊆
      Insert.insert slot (usedSlots layout memory) := by
    intro other member
    obtain ⟨inside, present⟩ := Finset.mem_filter.mp member
    by_cases same : other = slot
    · exact Finset.mem_insert.mpr (Or.inl same)
    · rw [occupySlot_flags, if_neg same] at present
      exact Finset.mem_insert_of_mem (Finset.mem_filter.mpr ⟨inside, present⟩)
  exact (Finset.card_le_card larger).trans (Finset.card_insert_le _ _)

/-- Fewer consumed rows than slots leave a vacant slot. -/
theorem SlotsInside.vacant (within : SlotsInside layout before rows cursor)
    (sound : LayoutSound layout) :
    ∃ slot, slot < layout.slotCapacity ∧ slotFlags layout before slot = flagEmpty := by
  by_contra full
  push Not at full
  have all : usedSlots layout before = Finset.range layout.slotCapacity :=
    Finset.filter_true_of_mem fun slot inside => full slot (Finset.mem_range.mp inside)
  have used := within.used
  have bound := within.rowsBound
  have room := sound.slotRoom
  have positive := sound.capacityPositive
  rw [all, Finset.card_range] at used
  omega

/-- The bounds move to an agreeing memory with more consumed rows and pool bytes. -/
theorem SlotsInside.agree (within : SlotsInside layout before rows cursor)
    (agree : Agree layout cursor before after) {moreRows moreCursor : Nat} (grown : rows ≤ moreRows)
    (bounded : moreRows ≤ layout.capacity) (longer : cursor ≤ moreCursor)
    (poolBound : moreCursor ≤ moreRows * (lenPrefixBytes + layout.maxIdBytes)) :
    SlotsInside layout after moreRows moreCursor := by
  constructor
  · exact bounded
  · exact poolBound
  · rw [agree.usedSlots]
    exact within.used.trans grown
  · intro slot inside occupied
    have earlier := (agree.flags slot inside).symm.trans occupied
    have old := within.slot slot inside earlier
    constructor
    · rw [agree.row slot inside earlier]
      exact old.row.trans_le grown
    · rw [agree.idOffset slot inside earlier, (agree.entry old.entry).1]
      exact old.entry.trans longer

theorem SlotsInside.same (within : SlotsInside layout before rows cursor)
    (agree : Agree layout cursor before after) : SlotsInside layout after rows cursor :=
  within.agree agree (Nat.le_refl _) within.rowsBound (Nat.le_refl _) within.cursorBound

/-- The used part of the pool is a part of the pool. -/
theorem SlotsInside.pool (within : SlotsInside layout before rows cursor)
    (sound : LayoutSound layout) : cursor ≤ layout.stringPoolDataBytes := by
  rw [sound.poolBytes]
  exact within.cursorBound.trans (Nat.mul_le_mul_right _ within.rowsBound)

/-- The flags write of a prepared record adds one bounded slot. -/
theorem SlotsInside.occupy (sound : LayoutSound layout)
    (within : SlotsInside layout before rows cursor) {hashId : List UInt8 → UInt64} {slot : Nat}
    {key : List UInt8} (inside : slot < layout.slotCapacity) (free : rows < layout.capacity)
    (short : key.length ≤ layout.maxIdBytes)
    (record : Prepared hashId layout before rows cursor slot key) :
    SlotsInside layout (occupySlot layout before slot) (rows + 1)
      (cursor + (lenPrefixBytes + key.length)) := by
  have offset : ∀ other, slotIdOffset layout (occupySlot layout before slot) other =
      slotIdOffset layout before other :=
    fun other => occupySlot_field before other _ _ (by decide) (by decide)
  have row : ∀ other, slotRow layout (occupySlot layout before slot) other =
      slotRow layout before other :=
    fun other => occupySlot_field before other _ _ (by decide) (by decide)
  have entry := fun idOffset => (occupySlot_entry sound before inside idOffset).1
  constructor
  · exact free
  · exact (sound.pool_room free within.cursorBound short).1
  · exact (occupySlot_usedSlots layout before slot).trans (Nat.succ_le_succ within.used)
  · intro other otherInside occupied
    by_cases same : other = slot
    · rw [same]
      constructor
      · rw [row, record.row]
        exact Nat.lt_succ_self _
      · rw [offset, record.idOffset, entry, record.length, Nat.add_assoc]
    · rw [occupySlot_flags, if_neg same] at occupied
      have old := within.slot other otherInside occupied
      constructor
      · rw [row]
        exact Nat.lt_succ_of_lt old.row
      · rw [offset, entry]
        exact old.entry.trans (Nat.le_add_right _ _)

/-- The writes of one entity keep the bounds, and the flags write adds its slot to them. -/
theorem SlotsInside.record (sound : LayoutSound layout)
    (within : SlotsInside layout before rows cursor) {slot : Nat} {key : List UInt8}
    (inside : slot < layout.slotCapacity) (vacant : slotFlags layout before slot = flagEmpty)
    (free : rows < layout.capacity) (short : key.length ≤ layout.maxIdBytes)
    (hashValue : UInt64) {rowWrites : List Write}
    (inRow : ∀ entry ∈ rowWrites, InRow layout rows entry) :
    SlotsInside layout (before.applyAll (recordPlan layout slot hashValue key rowWrites rows cursor ++
        [⟨layout.slotField slot slotFlagsOffset, leBytes 4 flagOccupied⟩]))
      (rows + 1) (cursor + (lenPrefixBytes + key.length)) := by
  have used := within.cursorBound
  have agree := (harmless_applyAll sound inside _ before vacant
    (recordPlan_harmless sound short inside free used hashValue inRow)).1
  rw [Memory.applyAll_append]
  exact (within.same agree).occupy sound inside free short
    (recordPlan_prepared sound short inside free used inRow (fun _ => hashValue) before)

end Records

section Inserts

variable {layout : SegmentLayout} (sound : LayoutSound layout) {memory : Memory}

theorem readStringBytes_cases (layout : SegmentLayout) (memory : Memory) (idOffset : Nat) :
    (∃ error, (readStringBytes layout idOffset).trace memory = (.error error, [])) ∨
      ∃ bytes, (readStringBytes layout idOffset).trace memory = (.ok bytes, []) := by
  unfold readStringBytes
  rw [Program.trace_readNat]
  split
  · exact Or.inl ⟨_, rfl⟩
  · exact Or.inr ⟨_, rfl⟩

/-- A visit of an insert reads only, and its outcome tells the flags of the slot. -/
theorem probeSlot_flags (layout : SegmentLayout) (memory : Memory) (hashValue : UInt64)
    (key : List UInt8) (slot : Nat) :
    (∃ error, (probeSlot layout hashValue key slot).trace memory = (.error error, [])) ∨
      ∃ probe, (probeSlot layout hashValue key slot).trace memory = (.ok probe, []) ∧
        (probe = .empty → slotFlags layout memory slot = flagEmpty) ∧
        (probe = .hit → slotFlags layout memory slot = flagOccupied) := by
  unfold probeSlot
  rw [Program.trace_readNat, show memory.readNat (layout.slotField slot slotFlagsOffset) 4 =
    slotFlags layout memory slot from rfl]
  by_cases vacant : slotFlags layout memory slot = flagEmpty
  · rw [if_pos vacant]
    exact Or.inr ⟨.empty, rfl, by simp [vacant], by simp⟩
  rw [if_neg vacant]
  by_cases occupied : slotFlags layout memory slot = flagOccupied
  · rw [if_pos occupied, Program.trace_readNat]
    split
    · rw [Program.trace_readNat]
      rcases readStringBytes_cases layout memory
          (memory.readNat (layout.slotField slot slotIdOffsetOffset) 8) with
        ⟨error, raised⟩ | ⟨bytes, read⟩
      · exact Or.inl ⟨error, Program.trace_bind_error raised _⟩
      · rw [Program.trace_bind_reads read]
        split
        · exact Or.inr ⟨.hit, rfl, by simp, by simp [occupied]⟩
        · exact Or.inr ⟨.miss, rfl, by simp, by simp⟩
    · exact Or.inr ⟨.miss, rfl, by simp, by simp⟩
  · rw [if_neg occupied]
    exact Or.inr ⟨.miss, rfl, by simp, by simp⟩

/-- The writes that an insert can perform. -/
inductive InsertWrites (layout : SegmentLayout) (memory : Memory) (hashValue : UInt64)
    (key rowData : List UInt8) : List Write → Prop
  | none : InsertWrites layout memory hashValue key rowData []
  | update {slot : Nat} (inside : slot < layout.slotCapacity)
      (occupied : slotFlags layout memory slot = flagOccupied) :
      InsertWrites layout memory hashValue key rowData
        [⟨layout.rowAddress (slotRow layout memory slot), rowData⟩]
  | add {slot : Nat} (inside : slot < layout.slotCapacity)
      (vacant : slotFlags layout memory slot = flagEmpty)
      (free : nextFreeRow memory < layout.capacity) :
      InsertWrites layout memory hashValue key rowData
        (insertPlan layout slot hashValue key rowData (nextFreeRow memory)
          (stringPoolCursor memory))

/-- The branch of a new entity refuses a full segment or performs the insert plan. -/
theorem insertIntoEmptySlot_writes_cases (layout : SegmentLayout) (memory : Memory)
    (hashValue : UInt64) (key rowData : List UInt8) {slot : Nat}
    (inside : slot < layout.slotCapacity) (vacant : slotFlags layout memory slot = flagEmpty) :
    InsertWrites layout memory hashValue key rowData
      ((insertIntoEmptySlot layout slot hashValue key rowData).trace memory).2 := by
  unfold insertIntoEmptySlot
  rw [Program.trace_bind_reads (readMetadata_trace memory)]
  dsimp only
  by_cases full : nextFreeRow memory ≥ layout.capacity
  · rw [if_pos full]
    exact .none
  rw [if_neg full]
  split
  · exact .none
  · exact .add inside vacant (Nat.lt_of_not_le full)

include sound in
theorem insertLoop_writes_cases (hashValue : UInt64) (key rowData : List UInt8) (fuel : Nat)
    {slot : Nat} (inside : slot < layout.slotCapacity) :
    InsertWrites layout memory hashValue key rowData
      ((insertLoop layout hashValue key rowData fuel slot).trace memory).2 := by
  induction fuel generalizing slot with
  | zero => exact .none
  | succ fuel ih =>
      rw [insertLoop]
      rcases probeSlot_flags layout memory hashValue key slot with
        ⟨error, raised⟩ | ⟨probe, visited, vacant, occupied⟩
      · rw [Program.trace_bind_error raised]
        exact .none
      · rw [Program.trace_bind_reads visited]
        cases probe with
        | empty => exact insertIntoEmptySlot_writes_cases layout memory _ _ _ inside (vacant rfl)
        | hit => exact .update inside (occupied rfl)
        | miss => exact ih (nextIndex_inside sound slot)

include sound in
/-- An insert performs no write, the write of one row, or the writes of one new entity. -/
theorem insert_writes_cases (hashId : List UInt8 → UInt64) (entityId : String)
    (rowData : List UInt8) :
    (insert hashId layout entityId rowData).writes memory = [] ∨
      rowData.length = layout.rowSize ∧ (encodeUtf8 entityId).length ≤ layout.maxIdBytes ∧
        InsertWrites layout memory (hashId (encodeUtf8 entityId)) (encodeUtf8 entityId) rowData
          ((insert hashId layout entityId rowData).writes memory) := by
  unfold insert
  split
  · exact Or.inl rfl
  · split
    · exact Or.inl rfl
    · rename_i sized
      dsimp only
      split
      · exact Or.inl rfl
      · rename_i short
        exact Or.inr ⟨Decidable.not_not.mp sized, Nat.le_of_not_lt short,
          insertLoop_writes_cases sound _ _ _ _ (homeIndex_inside sound _)⟩

include sound in
/-- A write behind the used pool changes neither the cursors nor a bounded slot. -/
theorem WithinCursors.behind (within : WithinCursors layout memory) {address : Nat}
    {bytes : List UInt8}
    (outside : layout.stringPoolDataOffset + stringPoolCursor memory ≤ address) :
    WithinCursors layout (memory.write address bytes) := by
  have start := sound.slotStart
  have tableEnd := sound.slotEnd
  have pool := sound.poolStart
  simp only [dataRegionOffset] at start
  have rows : nextFreeRow (memory.write address bytes) = nextFreeRow memory := by
    apply Memory.readNat_write_disjoint
    simp only [metadataOffset]
    omega
  have cursor : stringPoolCursor (memory.write address bytes) = stringPoolCursor memory := by
    apply Memory.readNat_write_disjoint
    simp only [metadataOffset]
    omega
  unfold WithinCursors
  rw [rows, cursor]
  exact SlotsInside.same within (Agree.write_outside sound memory (Or.inr outside))

include sound in
/-- The update of a row keeps the bounds. -/
theorem WithinCursors.updated (within : WithinCursors layout memory) {slot : Nat}
    (inside : slot < layout.slotCapacity) (occupied : slotFlags layout memory slot = flagOccupied)
    {rowData : List UInt8} (count : Nat) :
    WithinCursors layout (memory.applyAll
      ([⟨layout.rowAddress (slotRow layout memory slot), rowData⟩].take count)) := by
  cases count with
  | zero => exact within
  | succ count =>
      have row := (within.slot slot inside occupied).row.trans_le within.rowsBound
      have region := (sound.rowAddress_range row).1
      have used := SlotsInside.pool within sound
      rw [List.take_succ_cons, List.take_nil]
      apply within.behind sound
      dsimp only
      omega

include sound in
/-- The writes of a new entity keep the bounds, wherever they end. -/
theorem WithinCursors.added (within : WithinCursors layout memory) {slot : Nat}
    (inside : slot < layout.slotCapacity) (vacant : slotFlags layout memory slot = flagEmpty)
    (free : nextFreeRow memory < layout.capacity) {key rowData : List UInt8}
    (short : key.length ≤ layout.maxIdBytes) (hashValue : UInt64)
    (sized : rowData.length = layout.rowSize) (count : Nat) :
    WithinCursors layout (memory.applyAll ((insertPlan layout slot hashValue key rowData
      (nextFreeRow memory) (stringPoolCursor memory)).take count)) := by
  by_cases none : count = 0
  · rw [none]
    exact within
  have used := SlotsInside.cursorBound within
  have room := (sound.pool_room free used short).1
  have cursors := insertPlan_cursors sound short inside free used memory hashValue rowData count
    (Nat.pos_of_ne_zero none)
  unfold WithinCursors
  rw [cursors.1, cursors.2]
  have harmless := insertPlan_harmless sound short inside free used hashValue sized
  by_cases early : count < 8
  · -- Without the flags write, only the cursors are larger than the slots need.
    have writes : (insertPlan layout slot hashValue key rowData (nextFreeRow memory)
        (stringPoolCursor memory)).take count = ((insertPlan layout slot hashValue key rowData
        (nextFreeRow memory) (stringPoolCursor memory)).take 7).take count := by
      rw [List.take_take, Nat.min_eq_left (by omega)]
    rw [writes]
    have part : ∀ entry ∈ ((insertPlan layout slot hashValue key rowData (nextFreeRow memory)
        (stringPoolCursor memory)).take 7).take count,
        Harmless layout (nextFreeRow memory) (stringPoolCursor memory) slot entry :=
      fun entry member => harmless entry (List.mem_of_mem_take member)
    have agree := (harmless_applyAll sound inside _ memory vacant part).1
    exact SlotsInside.agree within agree (Nat.le_succ _) free (Nat.le_add_right _ _) room
  · have complete : (insertPlan layout slot hashValue key rowData (nextFreeRow memory)
        (stringPoolCursor memory)).take count = insertPlan layout slot hashValue key rowData
        (nextFreeRow memory) (stringPoolCursor memory) :=
      List.take_of_length_le (by simp only [insertPlan, List.length_cons, List.length_nil]; omega)
    rw [complete, insertPlan_split]
    have agree := (harmless_applyAll sound inside _ memory vacant harmless).1
    exact (SlotsInside.same within agree).occupy sound inside free short
      (insertPlan_prepared sound short inside free used sized (fun _ => hashValue) memory).1

include sound in
/-- An insert that ends after any number of its writes keeps the bounds. -/
theorem WithinCursors.cutInsert (within : WithinCursors layout memory)
    (hashId : List UInt8 → UInt64) (entityId : String) (rowData : List UInt8) (count : Nat) :
    WithinCursors layout (cutInsert hashId layout memory entityId rowData count) := by
  have nothing : WithinCursors layout (memory.applyAll (([] : List Write).take count)) := by
    rw [List.take_nil]
    exact within
  unfold Quorin.cutInsert
  rcases insert_writes_cases sound hashId entityId rowData with none | ⟨sized, short, writes⟩
  · rw [none]
    exact nothing
  · generalize (insert hashId layout entityId rowData).writes memory = performed at writes
    cases writes with
    | none => exact nothing
    | update inside occupied => exact within.updated sound inside occupied count
    | add inside vacant free => exact within.added sound inside vacant free short _ sized count

include sound in
/-- Both cursors of a fresh segment are zero, and it has no occupied slot. -/
theorem freshSegment_within {header : List UInt8} (size : header.length = headerSize) :
    WithinCursors layout (freshSegment layout header) := by
  obtain ⟨noRows, noBytes⟩ := freshSegment_cursors sound header
  unfold WithinCursors
  rw [noRows, noBytes]
  constructor
  · exact Nat.zero_le _
  · exact Nat.zero_le _
  · have none : usedSlots layout (freshSegment layout header) = ∅ := by
      apply Finset.filter_false_of_mem
      intro slot inside
      rw [freshSegment_flags sound size (Finset.mem_range.mp inside)]
      exact not_not_intro rfl
    rw [none]
    exact Nat.zero_le _
  · intro slot inside occupied
    rw [freshSegment_flags sound size inside] at occupied
    exact absurd occupied (by decide)

end Inserts

end Quorin
