import Quorin.Construction.Layout

namespace Quorin

open ByteMemory

/-- The failures of the segment operations, with the values of their messages. -/
inductive SegmentError where
  | emptyEntityId
  | rowDataLength (length rowSize : Nat)
  | idTooLong (length maxIdBytes : Nat)
  | capacityReached (capacity nextRow : Nat)
  | poolDataAreaFull (cursor entrySize capacity : Nat)
  | slotTableScanned
  | corruptPoolEntry (idOffset length maxIdBytes : Nat)
  | invalidUtf8
  deriving DecidableEq

/-- The Python exception classes of the segment operations. -/
inductive SegmentException where
  | valueError
  | stringPoolExhaustedError
  | capacityExceededError
  | unicodeDecodeError
  deriving DecidableEq

def SegmentError.exception : SegmentError → SegmentException
  | .emptyEntityId => .valueError
  | .rowDataLength _ _ => .valueError
  | .idTooLong _ _ => .stringPoolExhaustedError
  | .capacityReached _ _ => .capacityExceededError
  | .poolDataAreaFull _ _ _ => .stringPoolExhaustedError
  | .slotTableScanned => .capacityExceededError
  | .corruptPoolEntry _ _ _ => .valueError
  | .invalidUtf8 => .unicodeDecodeError

def SegmentError.message : SegmentError → String
  | .emptyEntityId => "entity_id must be non-empty"
  | .rowDataLength length rowSize => s!"row_data length {length} != row_size {rowSize}"
  | .idTooLong length maxIdBytes =>
      s!"entity_id is {length} UTF-8 bytes; max is max_id_bytes={maxIdBytes}"
  | .capacityReached capacity nextRow =>
      s!"segment capacity {capacity} reached (next_free_row_index={nextRow})"
  | .poolDataAreaFull cursor entrySize capacity =>
      s!"string pool data area full: cursor={cursor}, " ++
        s!"entry_size={entrySize}, capacity={capacity}"
  | .slotTableScanned => "slot table fully scanned without finding empty slot"
  | .corruptPoolEntry idOffset length maxIdBytes =>
      s!"string-pool entry at offset {idOffset} has length {length} " ++
        s!"> max_id_bytes {maxIdBytes}; segment may be corrupt"
  | .invalidUtf8 => "invalid UTF-8"

/-- The UTF-8 bytes of an entity id. -/
def encodeUtf8 (text : String) : List UInt8 := text.toByteArray.data.toList

/-- The strict decoder accepts exactly the valid UTF-8 byte lists. -/
def decodeUtf8 (bytes : List UInt8) : Option String := String.fromUTF8? ⟨bytes.toArray⟩

abbrev SegmentProgram (α : Type) := Program SegmentError α

/-- The writer cursors are the next free row index and the pool cursor. -/
def readMetadata {ε : Type} : Program ε (Nat × Nat) :=
  .read metadataOffset 16 fun bytes => .done (leNat (bytes.take 8), leNat (bytes.drop 8))

/-- Both cursors change in one write. -/
def writeMetadata {ε : Type} (nextRow poolCursor : Nat) : Program ε Unit :=
  .writeBytes metadataOffset (leBytes 8 nextRow ++ leBytes 8 poolCursor)

/-- A pool entry is read as its length and then its bytes. -/
def readStringBytes (layout : SegmentLayout) (idOffset : Nat) : SegmentProgram (List UInt8) := do
  let length ← .readNat (layout.entryAddress idOffset) lenPrefixBytes
  if length > layout.maxIdBytes then
    .fail (.corruptPoolEntry idOffset length layout.maxIdBytes)
  else
    .readBytes (layout.entryAddress idOffset + lenPrefixBytes) length

def writePoolHeader (layout : SegmentLayout) : SegmentProgram Unit :=
  .writeBytes layout.stringPoolOffset (leBytes 4 layout.maxIdBytes ++ leBytes 4 0)

/-- The loops of `lookup` and `insert` classify a slot by the same reads. -/
inductive SlotProbe where
  | empty
  | hit
  | miss
  deriving DecidableEq

/-- One visit reads the flags, the hash and, on equal hashes, the stored id. -/
def probeSlot (layout : SegmentLayout) (hashValue : UInt64) (encodedId : List UInt8)
    (index : Nat) : SegmentProgram SlotProbe := do
  let flags ← .readNat (layout.slotField index slotFlagsOffset) 4
  if flags = flagEmpty then return .empty
  else if flags = flagOccupied then
    let nameHash ← .readNat (layout.slotField index slotNameHashOffset) 8
    if nameHash = hashValue.toNat then
      let idOffset ← .readNat (layout.slotField index slotIdOffsetOffset) 8
      let stored ← readStringBytes layout idOffset
      if stored = encodedId then return .hit else return .miss
    else return .miss
  else return .miss

/-- The probe sequence is circular because the slot count is a power of two. -/
def homeIndex (layout : SegmentLayout) (hashValue : UInt64) : Nat :=
  hashValue.toNat &&& (layout.slotCapacity - 1)

def nextIndex (layout : SegmentLayout) (index : Nat) : Nat :=
  (index + 1) &&& (layout.slotCapacity - 1)

/-- The walk visits the probe sequence until a visit ends it. -/
def lookupLoop (layout : SegmentLayout) (visit : Nat → SegmentProgram SlotProbe) :
    Nat → Nat → SegmentProgram (Option Nat)
  | 0, _ => .done none
  | fuel + 1, index => do
      match ← visit index with
      | .empty => return none
      | .hit =>
          let row ← .readNat (layout.slotField index slotFeatureRowIndexOffset) 4
          return some (layout.rowAddress row)
      | .miss => lookupLoop layout visit fuel (nextIndex layout index)

/-- The lookup returns the byte offset of the row of an entity. -/
def lookup (hashId : List UInt8 → UInt64) (layout : SegmentLayout) (entityId : String) :
    SegmentProgram (Option Nat) :=
  if entityId = "" then .fail .emptyEntityId
  else
    let encodedId := encodeUtf8 entityId
    let hashValue := hashId encodedId
    lookupLoop layout (probeSlot layout hashValue encodedId) layout.slotCapacity
      (homeIndex layout hashValue)

/-- The byte comparison of the kernel stops at the first difference. -/
def compareBytes : Nat → List UInt8 → SegmentProgram Bool
  | _, [] => .done true
  | address, byte :: rest => do
      let stored ← .readNat address 1
      if stored = byte.toNat then compareBytes (address + 1) rest else return false

/-- A visit of `_lookup_core` reads the hash of every slot that is not empty. -/
def probeSlotCore (layout : SegmentLayout) (hashValue : UInt64) (encodedId : List UInt8)
    (index : Nat) : SegmentProgram SlotProbe := do
  let flags ← .readNat (layout.slotField index slotFlagsOffset) 4
  if flags = flagEmpty then return .empty
  else
    let nameHash ← .readNat (layout.slotField index slotNameHashOffset) 8
    if flags = flagOccupied ∧ nameHash = hashValue.toNat then
      let idOffset ← .readNat (layout.slotField index slotIdOffsetOffset) 8
      let length ← .readNat (layout.entryAddress idOffset) lenPrefixBytes
      -- A corrupt length ends the walk as an empty slot does: the kernel returns -1.
      if length > layout.maxIdBytes then return .empty
      else if length = encodedId.length then
        if ← compareBytes (layout.entryAddress idOffset + lenPrefixBytes) encodedId then
          return .hit
        else return .miss
      else return .miss
    else return .miss

/-- The compiled lookup differs from `lookup` in its visits only. -/
def lookupCore (hashId : List UInt8 → UInt64) (layout : SegmentLayout) (encodedId : List UInt8) :
    SegmentProgram (Option Nat) :=
  let hashValue := hashId encodedId
  lookupLoop layout (probeSlotCore layout hashValue encodedId) layout.slotCapacity
    (homeIndex layout hashValue)

/-- The branch of a new entity advances both cursors first and sets the flags last. -/
def insertIntoEmptySlot (layout : SegmentLayout) (index : Nat) (hashValue : UInt64)
    (encodedId rowData : List UInt8) : SegmentProgram Bool := do
  let (nextRow, poolCursor) ← readMetadata
  if nextRow ≥ layout.capacity then
    .fail (.capacityReached layout.capacity nextRow)
  else
    let entrySize := lenPrefixBytes + encodedId.length
    if poolCursor + entrySize > layout.stringPoolDataBytes then
      .fail (.poolDataAreaFull poolCursor entrySize layout.stringPoolDataBytes)
    else
      writeMetadata (nextRow + 1) (poolCursor + entrySize)
      .writeBytes (layout.entryAddress poolCursor) (leBytes 4 encodedId.length)
      .writeBytes (layout.entryAddress poolCursor + lenPrefixBytes) encodedId
      .writeBytes (layout.rowAddress nextRow) rowData
      .writeBytes (layout.slotField index slotNameHashOffset) (leBytes 8 hashValue.toNat)
      .writeBytes (layout.slotField index slotIdOffsetOffset) (leBytes 8 poolCursor)
      .writeBytes (layout.slotField index slotFeatureRowIndexOffset) (leBytes 4 nextRow)
      .writeBytes (layout.slotField index slotFlagsOffset) (leBytes 4 flagOccupied)
      return true

def insertLoop (layout : SegmentLayout) (hashValue : UInt64) (encodedId rowData : List UInt8) :
    Nat → Nat → SegmentProgram Bool
  | 0, _ => .fail .slotTableScanned
  | fuel + 1, index => do
      match ← probeSlot layout hashValue encodedId index with
      | .empty => insertIntoEmptySlot layout index hashValue encodedId rowData
      | .hit =>
          let row ← .readNat (layout.slotField index slotFeatureRowIndexOffset) 4
          .writeBytes (layout.rowAddress row) rowData
          return false
      | .miss => insertLoop layout hashValue encodedId rowData fuel (nextIndex layout index)

/-- The upsert returns `true` for a new entity and `false` for an update. -/
def insert (hashId : List UInt8 → UInt64) (layout : SegmentLayout) (entityId : String)
    (rowData : List UInt8) : SegmentProgram Bool :=
  if entityId = "" then .fail .emptyEntityId
  else if rowData.length ≠ layout.rowSize then
    .fail (.rowDataLength rowData.length layout.rowSize)
  else
    let encodedId := encodeUtf8 entityId
    if encodedId.length > layout.maxIdBytes then
      .fail (.idTooLong encodedId.length layout.maxIdBytes)
    else
      let hashValue := hashId encodedId
      insertLoop layout hashValue encodedId rowData layout.slotCapacity
        (homeIndex layout hashValue)

/-- An insert that is cut off leaves the memory after its first `count` writes. -/
def cutInsert (hashId : List UInt8 → UInt64) (layout : SegmentLayout) (memory : Memory)
    (entityId : String) (rowData : List UInt8) (count : Nat) : Memory :=
  memory.applyAll (((insert hashId layout entityId rowData).writes memory).take count)

/-- The iteration visits the slots from `index` in table order. -/
def iterateFrom (layout : SegmentLayout) : Nat → Nat → SegmentProgram (List (String × Nat))
  | 0, _ => .done []
  | remaining + 1, index => do
      let flags ← .readNat (layout.slotField index slotFlagsOffset) 4
      if flags = flagOccupied then
        let idOffset ← .readNat (layout.slotField index slotIdOffsetOffset) 8
        let idBytes ← readStringBytes layout idOffset
        let row ← .readNat (layout.slotField index slotFeatureRowIndexOffset) 4
        match decodeUtf8 idBytes with
        | none => .fail .invalidUtf8
        | some entityId =>
            let rest ← iterateFrom layout remaining (index + 1)
            return (entityId, layout.rowAddress row) :: rest
      else iterateFrom layout remaining (index + 1)

/-- The iteration yields one pair for each occupied slot. -/
def iterateOccupied (layout : SegmentLayout) : SegmentProgram (List (String × Nat)) :=
  iterateFrom layout layout.slotCapacity 0

/-- This initializes both cursors and the header of the string pool. -/
def initializeSegmentRegions (layout : SegmentLayout) : SegmentProgram Unit := do
  writeMetadata 0 0
  writePoolHeader layout

/-- A fresh segment is zeroed shared memory with the header and the initialized regions. -/
def freshSegment (layout : SegmentLayout) (header : List UInt8) : Memory :=
  ((initializeSegmentRegions layout).run (Memory.zero.write 0 header)).2

end Quorin
