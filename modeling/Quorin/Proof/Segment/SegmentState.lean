import Quorin.Construction.Segment
import Quorin.Library.LinearProbe
import Quorin.Proof.Segment.LayoutSound

namespace Quorin

open ByteMemory LinearProbe

/-- The decoded fields of the slot with the given index. -/
def slotFlags (layout : SegmentLayout) (memory : Memory) (index : Nat) : Nat :=
  memory.readNat (layout.slotField index slotFlagsOffset) 4

def slotHash (layout : SegmentLayout) (memory : Memory) (index : Nat) : Nat :=
  memory.readNat (layout.slotField index slotNameHashOffset) 8

def slotIdOffset (layout : SegmentLayout) (memory : Memory) (index : Nat) : Nat :=
  memory.readNat (layout.slotField index slotIdOffsetOffset) 8

def slotRow (layout : SegmentLayout) (memory : Memory) (index : Nat) : Nat :=
  memory.readNat (layout.slotField index slotFeatureRowIndexOffset) 4

/-- The length and the bytes of the pool entry at an offset. -/
def entryLength (layout : SegmentLayout) (memory : Memory) (idOffset : Nat) : Nat :=
  memory.readNat (layout.entryAddress idOffset) lenPrefixBytes

def entryBytes (layout : SegmentLayout) (memory : Memory) (idOffset : Nat) : List UInt8 :=
  memory.read (layout.entryAddress idOffset + lenPrefixBytes) (entryLength layout memory idOffset)

/-- An occupied slot holds the id bytes of its pool entry. -/
def slotKey (layout : SegmentLayout) (memory : Memory) (index : Nat) : Option (List UInt8) :=
  if slotFlags layout memory index = flagOccupied then
    some (entryBytes layout memory (slotIdOffset layout memory index))
  else none

/-- The writer cursors of a segment. -/
def nextFreeRow (memory : Memory) : Nat := memory.readNat metadataOffset 8

def stringPoolCursor (memory : Memory) : Nat := memory.readNat (metadataOffset + 8) 8

/-- The write of both cursors is read back. -/
theorem writeCursors (memory : Memory) {rows cursor : Nat} (rowsFit : rows < 256 ^ 8)
    (cursorFit : cursor < 256 ^ 8) :
    nextFreeRow (memory.write metadataOffset (leBytes 8 rows ++ leBytes 8 cursor)) = rows ∧
      stringPoolCursor (memory.write metadataOffset (leBytes 8 rows ++ leBytes 8 cursor)) =
        cursor := by
  have metadata : (memory.write metadataOffset (leBytes 8 rows ++ leBytes 8 cursor)).read
      metadataOffset (8 + 8) = leBytes 8 rows ++ leBytes 8 cursor :=
    memory.read_write_same metadataOffset (leBytes 8 rows ++ leBytes 8 cursor)
  constructor
  · rw [nextFreeRow, Memory.readNat, ← Memory.read_take _ _ 8 8, metadata,
      List.take_left' (leBytes_length 8 _), leNat_leBytes _ _ rowsFit]
  · rw [stringPoolCursor, Memory.readNat, ← Memory.read_drop _ _ 8 8, metadata,
      List.drop_left' (leBytes_length 8 _), leNat_leBytes _ _ cursorFit]

/-- The home slot of an id is its hash; the table size reduces it. -/
def idHome (hashId : List UInt8 → UInt64) (key : List UInt8) : Nat := (hashId key).toNat

/-- One occupied slot refers to a consumed row and to a complete pool entry of its own id. -/
structure SlotSound (hashId : List UInt8 → UInt64) (layout : SegmentLayout) (memory : Memory)
    (rows cursor index : Nat) : Prop where
  row : slotRow layout memory index < rows
  entry : slotIdOffset layout memory index + lenPrefixBytes +
    entryLength layout memory (slotIdOffset layout memory index) ≤ cursor
  length : entryLength layout memory (slotIdOffset layout memory index) ≤ layout.maxIdBytes
  hash : slotHash layout memory index =
    idHome hashId (entryBytes layout memory (slotIdOffset layout memory index))
  text : ∃ text, text ≠ "" ∧
    entryBytes layout memory (slotIdOffset layout memory index) = encodeUtf8 text

/-- The invariant of a segment with `rows` consumed row indices and `cursor` used pool bytes. -/
structure SegmentInvariant (hashId : List UInt8 → UInt64) (layout : SegmentLayout)
    (memory : Memory) (rows cursor : Nat) : Prop where
  rowsBound : rows ≤ layout.capacity
  cursorBound : cursor ≤ rows * (lenPrefixBytes + layout.maxIdBytes)
  flags : ∀ index, index < layout.slotCapacity →
    slotFlags layout memory index = flagEmpty ∨ slotFlags layout memory index = flagOccupied
  slot : ∀ index, index < layout.slotCapacity → slotFlags layout memory index = flagOccupied →
    SlotSound hashId layout memory rows cursor index
  rowsDistinct : ∀ first second, first < layout.slotCapacity → second < layout.slotCapacity →
    slotFlags layout memory first = flagOccupied → slotFlags layout memory second = flagOccupied →
    slotRow layout memory first = slotRow layout memory second → first = second
  poolDisjoint : ∀ first second, first < layout.slotCapacity → second < layout.slotCapacity →
    slotFlags layout memory first = flagOccupied → slotFlags layout memory second = flagOccupied →
    first ≠ second →
    slotIdOffset layout memory first + lenPrefixBytes +
        entryLength layout memory (slotIdOffset layout memory first) ≤
      slotIdOffset layout memory second ∨
    slotIdOffset layout memory second + lenPrefixBytes +
        entryLength layout memory (slotIdOffset layout memory second) ≤
      slotIdOffset layout memory first
  chained : Chained layout.slotCapacity (idHome hashId) (slotKey layout memory)

/-- The stored cursors of a consistent segment describe its consumed rows and pool bytes. -/
def Consistent (hashId : List UInt8 → UInt64) (layout : SegmentLayout) (memory : Memory) : Prop :=
  SegmentInvariant hashId layout memory (nextFreeRow memory) (stringPoolCursor memory)

theorem slotKey_of_occupied {layout : SegmentLayout} {memory : Memory} {index : Nat}
    (occupied : slotFlags layout memory index = flagOccupied) :
    slotKey layout memory index =
      some (entryBytes layout memory (slotIdOffset layout memory index)) :=
  if_pos occupied

theorem slotKey_eq_some {layout : SegmentLayout} {memory : Memory} {index : Nat}
    {key : List UInt8} :
    slotKey layout memory index = some key ↔
      slotFlags layout memory index = flagOccupied ∧
        entryBytes layout memory (slotIdOffset layout memory index) = key := by
  unfold slotKey
  split <;> simp_all

theorem SegmentInvariant.slotKey_eq_none {hashId : List UInt8 → UInt64} {layout : SegmentLayout}
    {memory : Memory} {rows cursor index : Nat}
    (invariant : SegmentInvariant hashId layout memory rows cursor)
    (inside : index < layout.slotCapacity) :
    slotKey layout memory index = none ↔ slotFlags layout memory index = flagEmpty := by
  rcases invariant.flags index inside with vacant | occupied
  · simp [slotKey, vacant, flagEmpty, flagOccupied]
  · simp [slotKey, occupied, flagEmpty, flagOccupied]

/-- Two memories agree when every slot flag, every occupied record and the used pool are equal. -/
structure Agree (layout : SegmentLayout) (cursor : Nat) (before after : Memory) : Prop where
  flags : ∀ index, index < layout.slotCapacity →
    slotFlags layout after index = slotFlags layout before index
  hash : ∀ index, index < layout.slotCapacity → slotFlags layout before index = flagOccupied →
    slotHash layout after index = slotHash layout before index
  idOffset : ∀ index, index < layout.slotCapacity → slotFlags layout before index = flagOccupied →
    slotIdOffset layout after index = slotIdOffset layout before index
  row : ∀ index, index < layout.slotCapacity → slotFlags layout before index = flagOccupied →
    slotRow layout after index = slotRow layout before index
  pool : after.read layout.stringPoolDataOffset cursor =
    before.read layout.stringPoolDataOffset cursor

theorem Agree.refl (layout : SegmentLayout) (cursor : Nat) (memory : Memory) :
    Agree layout cursor memory memory :=
  ⟨fun _ _ => rfl, fun _ _ _ => rfl, fun _ _ _ => rfl, fun _ _ _ => rfl, rfl⟩

theorem Agree.trans {layout : SegmentLayout} {cursor : Nat} {first second third : Memory}
    (left : Agree layout cursor first second) (right : Agree layout cursor second third) :
    Agree layout cursor first third := by
  have stillOccupied : ∀ index, index < layout.slotCapacity →
      slotFlags layout first index = flagOccupied →
      slotFlags layout second index = flagOccupied :=
    fun index inside occupied => (left.flags index inside).trans occupied
  constructor
  · exact fun index inside => (right.flags index inside).trans (left.flags index inside)
  · exact fun index inside occupied =>
      (right.hash index inside (stillOccupied index inside occupied)).trans
        (left.hash index inside occupied)
  · exact fun index inside occupied =>
      (right.idOffset index inside (stillOccupied index inside occupied)).trans
        (left.idOffset index inside occupied)
  · exact fun index inside occupied =>
      (right.row index inside (stillOccupied index inside occupied)).trans
        (left.row index inside occupied)
  · exact right.pool.trans left.pool

/-- A pool entry inside the used part has the same length and bytes in both memories. -/
theorem Agree.entry {layout : SegmentLayout} {cursor idOffset : Nat} {before after : Memory}
    (agree : Agree layout cursor before after)
    (used : idOffset + lenPrefixBytes + entryLength layout before idOffset ≤ cursor) :
    entryLength layout after idOffset = entryLength layout before idOffset ∧
      entryBytes layout after idOffset = entryBytes layout before idOffset := by
  have sameLength : entryLength layout after idOffset = entryLength layout before idOffset := by
    apply Memory.readNat_congr
    apply Memory.read_sub agree.pool
    · simp only [SegmentLayout.entryAddress]; omega
    · simp only [SegmentLayout.entryAddress]; omega
  refine ⟨sameLength, ?_⟩
  unfold entryBytes
  rw [sameLength]
  apply Memory.read_sub agree.pool
  · simp only [SegmentLayout.entryAddress]; omega
  · simp only [SegmentLayout.entryAddress]; omega

/-- The occupied slots of an invariant segment are the same in an agreeing memory. -/
theorem SegmentInvariant.slotKey_agree {hashId : List UInt8 → UInt64} {layout : SegmentLayout}
    {before after : Memory} {rows cursor : Nat}
    (invariant : SegmentInvariant hashId layout before rows cursor)
    (agree : Agree layout cursor before after) (index : Nat)
    (inside : index < layout.slotCapacity) :
    slotKey layout after index = slotKey layout before index := by
  unfold slotKey
  rw [agree.flags index inside]
  split
  · rename_i occupied
    rw [agree.idOffset index inside occupied,
      (agree.entry (invariant.slot index inside occupied).entry).2]
  · rfl

/-- The invariant moves to an agreeing memory with more consumed rows and pool bytes. -/
theorem SegmentInvariant.agree {hashId : List UInt8 → UInt64} {layout : SegmentLayout}
    {before after : Memory} {rows cursor moreRows moreCursor : Nat}
    (invariant : SegmentInvariant hashId layout before rows cursor)
    (agree : Agree layout cursor before after) (grown : rows ≤ moreRows)
    (bounded : moreRows ≤ layout.capacity) (longer : cursor ≤ moreCursor)
    (poolBound : moreCursor ≤ moreRows * (lenPrefixBytes + layout.maxIdBytes)) :
    SegmentInvariant hashId layout after moreRows moreCursor := by
  have occupiedBefore : ∀ index, index < layout.slotCapacity →
      slotFlags layout after index = flagOccupied → slotFlags layout before index = flagOccupied :=
    fun index inside occupied => (agree.flags index inside).symm.trans occupied
  constructor
  · exact bounded
  · exact poolBound
  · intro index inside
    rw [agree.flags index inside]
    exact invariant.flags index inside
  · intro index inside occupied
    have earlier := occupiedBefore index inside occupied
    have old := invariant.slot index inside earlier
    have entry := agree.entry old.entry
    constructor
    · rw [agree.row index inside earlier]
      exact lt_of_lt_of_le old.row grown
    · rw [agree.idOffset index inside earlier, entry.1]
      exact old.entry.trans longer
    · rw [agree.idOffset index inside earlier, entry.1]
      exact old.length
    · rw [agree.hash index inside earlier, agree.idOffset index inside earlier, entry.2]
      exact old.hash
    · rw [agree.idOffset index inside earlier, entry.2]
      exact old.text
  · intro first second firstInside secondInside firstOccupied secondOccupied same
    have firstEarlier := occupiedBefore first firstInside firstOccupied
    have secondEarlier := occupiedBefore second secondInside secondOccupied
    rw [agree.row first firstInside firstEarlier,
      agree.row second secondInside secondEarlier] at same
    exact invariant.rowsDistinct first second firstInside secondInside firstEarlier secondEarlier
      same
  · intro first second firstInside secondInside firstOccupied secondOccupied different
    have firstEarlier := occupiedBefore first firstInside firstOccupied
    have secondEarlier := occupiedBefore second secondInside secondOccupied
    have disjoint := invariant.poolDisjoint first second firstInside secondInside firstEarlier
      secondEarlier different
    rw [agree.idOffset first firstInside firstEarlier,
      agree.idOffset second secondInside secondEarlier,
      (agree.entry (invariant.slot first firstInside firstEarlier).entry).1,
      (agree.entry (invariant.slot second secondInside secondEarlier).entry).1]
    exact disjoint
  · exact invariant.chained.congr fun index inside => invariant.slotKey_agree agree index inside

end Quorin
