import Mathlib.Data.List.Sort
import Mathlib.Algebra.BigOperators.Group.List.Basic
import Mathlib.Tactic.Ring

namespace Quorin

/-- This is `HEADER_SIZE`, the primary header of a segment. -/
def headerSize : Nat := 16

/-- This is `CACHE_LINE_SIZE`; every field starts at a multiple of it. -/
def cacheLineSize : Nat := 64

def pageSize : Nat := 4096

/-- The closed set of field types. -/
inductive DType where
  | float32
  | float64
  | int32
  | int64
  | uint8
  deriving DecidableEq, Repr

/-- The wire-stable `dtype_code` of a type. -/
def DType.code : DType → Nat
  | .float32 => 1
  | .float64 => 2
  | .int32 => 3
  | .int64 => 4
  | .uint8 => 5

/-- This is the table `_DTYPE_BYTE_SIZE`. -/
def DType.byteSize : DType → Nat
  | .float32 => 4
  | .float64 => 8
  | .int32 => 4
  | .int64 => 8
  | .uint8 => 1

theorem DType.byteSize_pos (dtype : DType) : 0 < dtype.byteSize := by
  cases dtype <;> decide

def maxElementCount : Nat := 1 <<< 24

def maxFieldBytes : Nat := 1 <<< 28

/-- The loop of `element_count` multiplies the dimensions. -/
def elementProduct (shape : List Nat) : Nat := shape.foldl (· * ·) 1

/-- A field carries the checks of `FeatureField.__post_init__`. -/
structure FeatureField where
  name : String
  dtype : DType
  shape : List Nat
  nameNonempty : name ≠ ""
  dimensionsPositive : ∀ dimension ∈ shape, 0 < dimension
  elementBound : elementProduct shape ≤ maxElementCount
  byteBound : elementProduct shape * dtype.byteSize ≤ maxFieldBytes
  deriving DecidableEq

def FeatureField.elementCount (field : FeatureField) : Nat := elementProduct field.shape

def FeatureField.byteCount (field : FeatureField) : Nat :=
  field.elementCount * field.dtype.byteSize

/-- A schema carries the checks of `FeatureSchema.__init_subclass__` on its fields. -/
structure FeatureSchema where
  className : String
  version : Int
  fields : List FeatureField
  fieldsNonempty : fields ≠ []
  namesDistinct : (fields.map FeatureField.name).Nodup
  deriving DecidableEq

/-- This clears the low bits below the alignment, which is a power of two. -/
def alignUp (value alignment : Nat) : Nat :=
  let raised := value + alignment - 1
  raised - (raised &&& (alignment - 1))

/-- The walk of `_field_byte_offsets` rounds each start up to a cache line. -/
def fieldByteOffsets : List FeatureField → Nat → List Nat
  | [], _ => []
  | field :: rest, cursor =>
      let start := alignUp cursor cacheLineSize
      start :: fieldByteOffsets rest (start + field.byteCount)

/-- One row of a table with `OFFSET_TABLE_DTYPE`. -/
structure OffsetRow where
  nameHash : UInt64
  byteOffset : Nat
  dtype : DType
  elementCount : Nat
  byteCount : Nat
  deriving DecidableEq

/-- The declaration-order table places each field at its offset from the base. -/
def offsetRows (hashName : String → UInt64) (fields : List FeatureField) (base : Nat) :
    List OffsetRow :=
  (fields.zip (fieldByteOffsets fields base)).map fun entry =>
    ⟨hashName entry.1.name, entry.2, entry.1.dtype, entry.1.elementCount, entry.1.byteCount⟩

/-- The only failure of `compile_schema` is a collision of two name hashes. -/
inductive SchemaError where
  | hashCollision (className : String)
  deriving DecidableEq

/-- The compiled table is sorted by the name hash and has no collision. -/
def compileSchema (hashName : String → UInt64) (schema : FeatureSchema) :
    Except SchemaError (List OffsetRow) :=
  let table := (offsetRows hashName schema.fields headerSize).mergeSort
    fun first second => decide (first.nameHash ≤ second.nameHash)
  if (table.map OffsetRow.nameHash).Nodup then .ok table
  else .error (.hashCollision schema.className)

/-- The row-relative table subtracts the smallest offset from every row. -/
def computeRowOffsetTable (hashName : String → UInt64) (schema : FeatureSchema) :
    Except SchemaError (List OffsetRow) := do
  let table ← compileSchema hashName schema
  let first := (table.map OffsetRow.byteOffset).min?.getD 0
  return table.map fun row => { row with byteOffset := row.byteOffset - first }

/-- The row size is the largest field end, rounded up to a cache line. -/
def rowSize (hashName : String → UInt64) (schema : FeatureSchema) : Except SchemaError Nat := do
  let table ← computeRowOffsetTable hashName schema
  return alignUp ((table.map fun row => row.byteOffset + row.byteCount).max?.getD 0) cacheLineSize

/-- The assembly table keeps the declaration order and starts at the row base. -/
def computeAssemblyTable (hashName : String → UInt64) (schema : FeatureSchema) : List OffsetRow :=
  offsetRows hashName schema.fields 0

def totalElementCount (schema : FeatureSchema) : Nat :=
  (schema.fields.map FeatureField.elementCount).sum

end Quorin
