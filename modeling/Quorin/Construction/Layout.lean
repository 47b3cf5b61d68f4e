import Quorin.Construction.Schema
import Quorin.Library.MemoryProgram

namespace Quorin

open ByteMemory

/-- This is `SLOT_DTYPE.itemsize`. -/
def slotBytes : Nat := 24

def slotNameHashOffset : Nat := 0

def slotIdOffsetOffset : Nat := 8

def slotFlagsOffset : Nat := 16

def slotFeatureRowIndexOffset : Nat := 20

/-- The flag values of a slot; the third value is reserved and never written. -/
def flagEmpty : Nat := 0

def flagOccupied : Nat := 1

def flagTombstone : Nat := 2

def defaultMaxIdBytes : Nat := 64

def maxIdBytesCeiling : Nat := 64 * 1024

def maxTotalSegmentBytes : Nat := 1 <<< 36

def metadataOffset : Nat := 16

def dataRegionOffset : Nat := 64

def stringPoolHeaderBytes : Nat := 8

/-- Each pool entry starts with a length of four bytes. -/
def lenPrefixBytes : Nat := 4

/-- The smallest power of two that is at least `n`. -/
def nextPow2 (n : Nat) : Nat := if n ≤ 1 then 1 else 1 <<< (Nat.log2 (n - 1) + 1)

/-- All derived offsets and sizes of a multi-entity segment. -/
structure SegmentLayout where
  capacity : Nat
  slotCapacity : Nat
  maxIdBytes : Nat
  rowSize : Nat
  slotTableOffset : Nat
  slotTableBytes : Nat
  stringPoolOffset : Nat
  stringPoolDataOffset : Nat
  stringPoolDataBytes : Nat
  featureRowsOffset : Nat
  featureRowsBytes : Nat
  totalSize : Nat
  rowOffsetTable : List OffsetRow
  assemblyTable : List OffsetRow
  totalElementCount : Nat
  deriving DecidableEq

/-- The failures of `compute_layout`, in the order of its checks. -/
inductive LayoutError where
  | capacityNotPositive (capacity : Int)
  | maxIdBytesNotPositive (maxIdBytes : Int)
  | maxIdBytesCeiling (maxIdBytes : Int)
  | capacityRange (capacity : Int)
  | schema (error : SchemaError)
  | totalSizeCeiling (totalSize : Nat) (className : String) (capacity maxIdBytes rowSize : Nat)
  deriving DecidableEq

/-- The offsets follow from the capacity, the id budget and the row size. -/
def layoutOf (capacity maxIdBytes rows : Nat) (rowOffsetTable assemblyTable : List OffsetRow)
    (elements : Nat) : SegmentLayout :=
  let slotCapacity := nextPow2 (capacity * 2)
  let slotTableBytes := slotCapacity * slotBytes
  let slotTableOffset := dataRegionOffset
  let slotTableEnd := slotTableOffset + slotTableBytes
  let stringPoolOffset := alignUp slotTableEnd cacheLineSize
  let stringPoolDataOffset := stringPoolOffset + stringPoolHeaderBytes
  let stringPoolDataBytes := capacity * (lenPrefixBytes + maxIdBytes)
  let stringPoolEnd := stringPoolDataOffset + stringPoolDataBytes
  let featureRowsOffset := alignUp stringPoolEnd cacheLineSize
  let featureRowsBytes := capacity * rows
  let featureRowsEnd := featureRowsOffset + featureRowsBytes
  { capacity, slotCapacity, maxIdBytes, rowSize := rows
    slotTableOffset, slotTableBytes
    stringPoolOffset, stringPoolDataOffset, stringPoolDataBytes
    featureRowsOffset, featureRowsBytes
    totalSize := alignUp featureRowsEnd pageSize
    rowOffsetTable, assemblyTable, totalElementCount := elements }

/-- The layout is a pure function of the schema, the capacity and the id budget. -/
def computeLayout (hashName : String → UInt64) (schema : FeatureSchema)
    (capacity maxIdBytes : Int) : Except LayoutError SegmentLayout :=
  if capacity ≤ 0 then .error (.capacityNotPositive capacity)
  else if maxIdBytes ≤ 0 then .error (.maxIdBytesNotPositive maxIdBytes)
  else if maxIdBytes > maxIdBytesCeiling then .error (.maxIdBytesCeiling maxIdBytes)
  else if capacity > 0xFFFFFFFF then .error (.capacityRange capacity)
  else
    match rowSize hashName schema, computeRowOffsetTable hashName schema with
    | .ok rows, .ok rowOffsetTable =>
        let layout := layoutOf capacity.toNat maxIdBytes.toNat rows rowOffsetTable
          (computeAssemblyTable hashName schema) (totalElementCount schema)
        if layout.totalSize > maxTotalSegmentBytes then
          .error (.totalSizeCeiling layout.totalSize schema.className layout.capacity
            layout.maxIdBytes rows)
        else .ok layout
    | .error error, _ => .error (.schema error)
    | _, .error error => .error (.schema error)

/-- The absolute address of one field of one slot record. -/
def SegmentLayout.slotField (layout : SegmentLayout) (index offset : Nat) : Nat :=
  layout.slotTableOffset + index * slotBytes + offset

/-- The absolute address of the feature row with the given index. -/
def SegmentLayout.rowAddress (layout : SegmentLayout) (row : Nat) : Nat :=
  layout.featureRowsOffset + row * layout.rowSize

/-- The absolute address of a pool entry. -/
def SegmentLayout.entryAddress (layout : SegmentLayout) (idOffset : Nat) : Nat :=
  layout.stringPoolDataOffset + idOffset

end Quorin
