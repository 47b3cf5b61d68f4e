import Quorin.Proof.Segment.InsertPlan
import Mathlib.Data.Fintype.Card

namespace Quorin

open ByteMemory LinearProbe

/-- The strict encoder is injective, because it is the inverse of the strict decoder. -/
theorem encodeUtf8_injective {first second : String} (equal : encodeUtf8 first = encodeUtf8 second) :
    first = second := by
  apply String.toByteArray_inj.mp
  have arrays := congrArg List.toArray equal
  simp only [encodeUtf8, Array.toArray_toList] at arrays
  exact ByteArray.ext arrays

theorem decodeUtf8_encodeUtf8 (text : String) : decodeUtf8 (encodeUtf8 text) = some text := by
  have bytes : (⟨(encodeUtf8 text).toArray⟩ : ByteArray) = text.toByteArray := by
    simp [encodeUtf8]
  unfold decodeUtf8
  rw [bytes, String.fromUTF8?, dif_pos text.isValidUTF8]
  rfl

/-- The writes of one insert into a vacant slot, in program order. -/
def insertPlan (layout : SegmentLayout) (index : Nat) (hashValue : UInt64)
    (encodedId rowData : List UInt8) (rows cursor : Nat) : List Write :=
  [⟨metadataOffset, leBytes 8 (rows + 1) ++
      leBytes 8 (cursor + (lenPrefixBytes + encodedId.length))⟩,
    ⟨layout.entryAddress cursor, leBytes 4 encodedId.length⟩,
    ⟨layout.entryAddress cursor + lenPrefixBytes, encodedId⟩,
    ⟨layout.rowAddress rows, rowData⟩,
    ⟨layout.slotField index slotNameHashOffset, leBytes 8 hashValue.toNat⟩,
    ⟨layout.slotField index slotIdOffsetOffset, leBytes 8 cursor⟩,
    ⟨layout.slotField index slotFeatureRowIndexOffset, leBytes 4 rows⟩,
    ⟨layout.slotField index slotFlagsOffset, leBytes 4 flagOccupied⟩]

/-- The metadata read returns both cursors. -/
theorem readMetadata_trace {ε : Type} (memory : Memory) :
    (readMetadata : Program ε (Nat × Nat)).trace memory = (.ok (nextFreeRow memory, stringPoolCursor memory), []) := by
  simp only [readMetadata, Program.trace_read, Program.trace_done, nextFreeRow, stringPoolCursor,
    Memory.readNat]
  rw [show (16 : Nat) = 8 + 8 from rfl, Memory.read_take, Memory.read_drop]

theorem readStringBytes_trace {layout : SegmentLayout} {memory : Memory} {idOffset : Nat}
    (short : entryLength layout memory idOffset ≤ layout.maxIdBytes) :
    (readStringBytes layout idOffset).trace memory =
      (.ok (entryBytes layout memory idOffset), []) := by
  have bounded : ¬ memory.readNat (layout.entryAddress idOffset) lenPrefixBytes >
      layout.maxIdBytes := Nat.not_lt.mpr short
  simp only [readStringBytes, Program.trace_readNat, if_neg bounded]
  rfl

theorem nextIndex_inside {layout : SegmentLayout} (sound : LayoutSound layout) (index : Nat) :
    nextIndex layout index < layout.slotCapacity := by
  rw [nextIndex, sound.mask_eq]
  exact Nat.mod_lt _ sound.slotCapacity_pos

theorem homeIndex_inside {layout : SegmentLayout} (sound : LayoutSound layout)
    (hashValue : UInt64) : homeIndex layout hashValue < layout.slotCapacity := by
  rw [homeIndex, sound.mask_eq]
  exact Nat.mod_lt _ sound.slotCapacity_pos

section Traces

variable {hashId : List UInt8 → UInt64} {layout : SegmentLayout} {memory : Memory}
  {rows cursor : Nat}

/-- The visit of a slot classifies its key. -/
def classify (stored : Option (List UInt8)) (key : List UInt8) : SlotProbe :=
  match stored with
  | none => .empty
  | some other => if other = key then .hit else .miss

/-- A visit only reads, and it classifies the slot by its key. -/
theorem probeSlot_trace (invariant : SegmentInvariant hashId layout memory rows cursor)
    (key : List UInt8) {index : Nat} (inside : index < layout.slotCapacity) :
    (probeSlot layout (hashId key) key index).trace memory =
      (.ok (classify (slotKey layout memory index) key), []) := by
  unfold probeSlot
  rw [Program.trace_readNat, show memory.readNat (layout.slotField index slotFlagsOffset) 4 =
    slotFlags layout memory index from rfl]
  rcases invariant.flags index inside with vacant | occupied
  · rw [if_pos vacant, (invariant.slotKey_eq_none inside).mpr vacant]
    rfl
  · have slot := invariant.slot index inside occupied
    have nonempty : ¬ slotFlags layout memory index = flagEmpty := by
      rw [occupied]; decide
    rw [if_neg nonempty, if_pos occupied, Program.trace_readNat, slotKey_of_occupied occupied,
      show memory.readNat (layout.slotField index slotNameHashOffset) 8 =
        slotHash layout memory index from rfl,
      show (hashId key).toNat = idHome hashId key from rfl]
    by_cases sameHash : slotHash layout memory index = idHome hashId key
    · rw [if_pos sameHash, Program.trace_readNat,
        show memory.readNat (layout.slotField index slotIdOffsetOffset) 8 =
          slotIdOffset layout memory index from rfl,
        Program.trace_bind_reads (readStringBytes_trace slot.length)]
      simp only [classify]
      split <;> rfl
    · have different :
          entryBytes layout memory (slotIdOffset layout memory index) ≠ key := by
        intro same
        rw [slot.hash, same] at sameHash
        exact sameHash rfl
      rw [if_neg sameHash]
      simp [classify, different]

/-- A lookup loop whose visits classify the slots returns the row of the slot where the probe stops. -/
theorem lookupLoop_trace (sound : LayoutSound layout) {visit : Nat → SegmentProgram SlotProbe}
    {key : List UInt8}
    (classifies : ∀ index, index < layout.slotCapacity →
      (visit index).trace memory = (.ok (classify (slotKey layout memory index) key), []))
    (fuel : Nat) {index : Nat} (inside : index < layout.slotCapacity) :
    (lookupLoop layout visit fuel index).trace memory =
      (.ok (match probe layout.slotCapacity (slotKey layout memory) key fuel index with
        | .hit found => some (layout.rowAddress (slotRow layout memory found))
        | .vacant _ => none
        | .exhausted => none), []) := by
  induction fuel generalizing index with
  | zero => rfl
  | succ fuel ih =>
      rw [lookupLoop, Program.trace_bind_reads (classifies index inside), probe]
      cases stored : slotKey layout memory index with
      | none => rfl
      | some other =>
          by_cases same : other = key
          · simp only [classify, if_pos same]
            rfl
          · simp only [classify, if_neg same, nextIndex, sound.mask_eq]
            exact ih (Nat.mod_lt _ sound.slotCapacity_pos)

/-- The insert loop takes the branch of the slot where the probe stops. -/
theorem insertLoop_trace (sound : LayoutSound layout)
    (invariant : SegmentInvariant hashId layout memory rows cursor) (key rowData : List UInt8)
    (fuel : Nat) {index : Nat} (inside : index < layout.slotCapacity) :
    (insertLoop layout (hashId key) key rowData fuel index).trace memory =
      match probe layout.slotCapacity (slotKey layout memory) key fuel index with
        | .hit found => (.ok false, [⟨layout.rowAddress (slotRow layout memory found), rowData⟩])
        | .vacant found =>
            (insertIntoEmptySlot layout found (hashId key) key rowData).trace memory
        | .exhausted => (.error .slotTableScanned, []) := by
  induction fuel generalizing index with
  | zero => rfl
  | succ fuel ih =>
      rw [insertLoop, Program.trace_bind_reads (probeSlot_trace invariant key inside), probe]
      cases stored : slotKey layout memory index with
      | none => rfl
      | some other =>
          by_cases same : other = key
          · simp only [classify, if_pos same]
            rfl
          · simp only [classify, if_neg same, nextIndex, sound.mask_eq]
            exact ih (Nat.mod_lt _ sound.slotCapacity_pos)

/-- The vacant branch either refuses a full segment or performs the insert plan. -/
theorem insertIntoEmptySlot_trace (sound : LayoutSound layout)
    (consistent : Consistent hashId layout memory) (index : Nat) (hashValue : UInt64)
    (key rowData : List UInt8) (short : key.length ≤ layout.maxIdBytes) :
    (insertIntoEmptySlot layout index hashValue key rowData).trace memory =
      if nextFreeRow memory < layout.capacity then
        (.ok true, insertPlan layout index hashValue key rowData (nextFreeRow memory)
          (stringPoolCursor memory))
      else (.error (.capacityReached layout.capacity (nextFreeRow memory)), []) := by
  unfold insertIntoEmptySlot
  rw [Program.trace_bind_reads (readMetadata_trace memory)]
  dsimp only
  by_cases free : nextFreeRow memory < layout.capacity
  · have room := sound.pool_room free consistent.cursorBound short
    rw [if_neg (Nat.not_le.mpr free), if_neg (Nat.not_lt.mpr room.2), if_pos free]
    rfl
  · rw [if_pos (Nat.le_of_not_lt free), if_neg free]
    rfl

end Traces

/-- The slot that holds a key, found by a scan of the whole table. -/
def findSlot (layout : SegmentLayout) (memory : Memory) (key : List UInt8) : Option Nat :=
  (List.range layout.slotCapacity).find? fun index => slotKey layout memory index = some key

theorem findSlot_some {layout : SegmentLayout} {memory : Memory} {key : List UInt8} {index : Nat}
    (found : findSlot layout memory key = some index) :
    index < layout.slotCapacity ∧ slotKey layout memory index = some key := by
  constructor
  · exact List.mem_range.mp (List.mem_of_find?_eq_some found)
  · simpa using List.find?_some found

theorem findSlot_none {layout : SegmentLayout} {memory : Memory} {key : List UInt8} :
    findSlot layout memory key = none ↔
      ∀ index, index < layout.slotCapacity → slotKey layout memory index ≠ some key := by
  simp [findSlot, List.find?_eq_none]

/-- A stored key is found at its only slot. -/
theorem SegmentInvariant.findSlot_eq {hashId : List UInt8 → UInt64} {layout : SegmentLayout}
    {memory : Memory} {rows cursor index : Nat} {key : List UInt8}
    (invariant : SegmentInvariant hashId layout memory rows cursor)
    (inside : index < layout.slotCapacity) (stored : slotKey layout memory index = some key) :
    findSlot layout memory key = some index := by
  cases found : findSlot layout memory key with
  | none => exact absurd stored (findSlot_none.mp found index inside)
  | some other =>
      obtain ⟨otherInside, otherStored⟩ := findSlot_some found
      rw [invariant.chained.unique other index key otherInside inside otherStored stored]

/-- Fewer consumed rows than slots leave at least one slot vacant. -/
theorem SegmentInvariant.exists_vacant {hashId : List UInt8 → UInt64} {layout : SegmentLayout}
    (sound : LayoutSound layout) {memory : Memory} {rows cursor : Nat}
    (invariant : SegmentInvariant hashId layout memory rows cursor) :
    ∃ index, index < layout.slotCapacity ∧ slotKey layout memory index = none := by
  by_contra full
  push Not at full
  have occupied : ∀ index : Fin layout.slotCapacity,
      slotFlags layout memory index = flagOccupied := by
    intro index
    obtain ⟨key, stored⟩ := Option.ne_none_iff_exists'.mp (full index index.isLt)
    exact (slotKey_eq_some.mp stored).1
  let place : Fin layout.slotCapacity → Fin rows := fun index =>
    ⟨slotRow layout memory index, (invariant.slot index index.isLt (occupied index)).row⟩
  have injective : Function.Injective place := by
    intro first second same
    exact Fin.ext (invariant.rowsDistinct first second first.isLt second.isLt (occupied first)
      (occupied second) (congrArg Fin.val same))
  have count := Fintype.card_le_of_injective place injective
  rw [Fintype.card_fin, Fintype.card_fin] at count
  have rowsBound := invariant.rowsBound
  have room := sound.slotRoom
  have positive := sound.capacityPositive
  omega

section Specifications

variable {hashId : List UInt8 → UInt64} {layout : SegmentLayout} (sound : LayoutSound layout)
  {memory : Memory} {rows cursor : Nat}
  (invariant : SegmentInvariant hashId layout memory rows cursor)

include sound in
theorem homeIndex_eq (key : List UInt8) :
    homeIndex layout (hashId key) = idHome hashId key % layout.slotCapacity :=
  sound.mask_eq _

include sound invariant in
/-- The probe of a key stops at its slot or at the first vacant slot. -/
theorem probe_cases (key : List UInt8) :
    (∃ index, findSlot layout memory key = some index ∧
      probe layout.slotCapacity (slotKey layout memory) key layout.slotCapacity
        (homeIndex layout (hashId key)) = .hit index) ∨
    (∃ index, findSlot layout memory key = none ∧
      FirstVacant hashId layout memory index key ∧
      probe layout.slotCapacity (slotKey layout memory) key layout.slotCapacity
        (homeIndex layout (hashId key)) = .vacant index) := by
  rw [homeIndex_eq sound]
  cases found : findSlot layout memory key with
  | some index =>
      obtain ⟨inside, stored⟩ := findSlot_some found
      exact Or.inl ⟨index, rfl, invariant.chained.probe_stored inside stored⟩
  | none =>
      have absent := findSlot_none.mp found
      obtain ⟨distance, bound, stopped, vacant, run⟩ :=
        probe_absent (idHome hashId) absent (invariant.exists_vacant sound)
      exact Or.inr ⟨_, rfl, ⟨absent, vacant, distance, bound, rfl, run⟩, stopped⟩

include sound invariant in
/-- A walk whose visits classify the slots returns the row address of the slot that holds the key. -/
theorem lookupWalk_trace {visit : Nat → SegmentProgram SlotProbe} {key : List UInt8}
    (classifies : ∀ index, index < layout.slotCapacity →
      (visit index).trace memory = (.ok (classify (slotKey layout memory index) key), [])) :
    (lookupLoop layout visit layout.slotCapacity (homeIndex layout (hashId key))).trace memory =
      (.ok ((findSlot layout memory key).map fun index =>
        layout.rowAddress (slotRow layout memory index)), []) := by
  rw [lookupLoop_trace sound classifies _ (homeIndex_inside sound _)]
  rcases probe_cases sound invariant key with
    ⟨index, found, stopped⟩ | ⟨index, found, _, stopped⟩
  · rw [stopped, found]
    rfl
  · rw [stopped, found]
    rfl

include sound invariant in
/-- A lookup returns the row address of the slot that holds the id. -/
theorem lookup_trace {entityId : String} (nonempty : entityId ≠ "") :
    (lookup hashId layout entityId).trace memory =
      (.ok ((findSlot layout memory (encodeUtf8 entityId)).map fun index =>
        layout.rowAddress (slotRow layout memory index)), []) := by
  unfold lookup
  rw [if_neg nonempty]
  exact lookupWalk_trace sound invariant fun index inside =>
    probeSlot_trace invariant (encodeUtf8 entityId) inside

end Specifications

section InsertTrace

variable {hashId : List UInt8 → UInt64} {layout : SegmentLayout} (sound : LayoutSound layout)
  {memory : Memory} (consistent : Consistent hashId layout memory)

include sound consistent in
/-- An insert of a well-formed request updates a row, refuses a full segment, or adds an entity. -/
theorem insert_trace {entityId : String} {rowData : List UInt8} (nonempty : entityId ≠ "")
    (size : rowData.length = layout.rowSize)
    (short : (encodeUtf8 entityId).length ≤ layout.maxIdBytes) :
    (∃ index, findSlot layout memory (encodeUtf8 entityId) = some index ∧
      (insert hashId layout entityId rowData).trace memory =
        (.ok false, [⟨layout.rowAddress (slotRow layout memory index), rowData⟩])) ∨
    (findSlot layout memory (encodeUtf8 entityId) = none ∧
      layout.capacity ≤ nextFreeRow memory ∧
      (insert hashId layout entityId rowData).trace memory =
        (.error (.capacityReached layout.capacity (nextFreeRow memory)), [])) ∨
    (∃ index, findSlot layout memory (encodeUtf8 entityId) = none ∧
      nextFreeRow memory < layout.capacity ∧
      FirstVacant hashId layout memory index (encodeUtf8 entityId) ∧
      (insert hashId layout entityId rowData).trace memory =
        (.ok true, insertPlan layout index (hashId (encodeUtf8 entityId)) (encodeUtf8 entityId)
          rowData (nextFreeRow memory) (stringPoolCursor memory))) := by
  unfold insert
  simp only [if_neg nonempty, size, ne_eq, not_true_eq_false, if_false,
    if_neg (Nat.not_lt.mpr short)]
  rw [insertLoop_trace sound consistent _ _ _ (homeIndex_inside sound _)]
  rcases probe_cases sound consistent (encodeUtf8 entityId) with
    ⟨index, found, stopped⟩ | ⟨index, found, first, stopped⟩
  · exact Or.inl ⟨index, found, by rw [stopped]⟩
  · right
    rw [stopped]
    dsimp only
    rw [insertIntoEmptySlot_trace sound consistent _ _ _ _ short]
    by_cases free : nextFreeRow memory < layout.capacity
    · exact Or.inr ⟨index, found, free, first, by rw [if_pos free]⟩
    · exact Or.inl ⟨found, Nat.le_of_not_lt free, by rw [if_neg free]⟩

end InsertTrace

end Quorin
