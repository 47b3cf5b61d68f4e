import Quorin.Construction.Wire

namespace Quorin

open ByteMemory

/-- The failures of `pack_row_from_list`, in the order of its steps. -/
inductive PackError where
  | noLength
  | valueCount (expected got : Nat)
  | outLength (length rowSize : Nat)
  | scalar (index : Nat)
  | array (index : Nat)
  | elementCount (index size expected : Nat)
  deriving DecidableEq

/-- One row of the pack plan: the place of a field and the position of its value. -/
structure PackSlot where
  byteOffset : Nat
  byteCount : Nat
  dtype : DType
  elementCount : Nat
  isTrueScalar : Bool
  valueIndex : Nat
  deriving DecidableEq

/-- The memoized pack plan of a schema. -/
structure PackPlan where
  scalars : List PackSlot
  shapedSlots : List PackSlot
  structSize : Nat
  expectedLen : Nat
  rowSize : Nat

/-- A float pattern of 32 bits is infinite. -/
def isInfinite32 (bits : Nat) : Bool := bits % 2 ^ 31 = 0x7f800000

/-- A float pattern of 64 bits is infinite. -/
def isInfinite64 (bits : Nat) : Bool := bits % 2 ^ 63 = 0x7ff0000000000000

/-- The float code of `struct`: a finite value that becomes infinite raises. -/
def packFloat (externals : Externals) (dtype : DType) (bits : UInt64) : Option (List UInt8) :=
  match dtype with
  | .float32 =>
      let narrow := externals.castBits .float64 .float32 bits.toNat
      if isInfinite32 narrow && !isInfinite64 bits.toNat then none else some (leBytes 4 narrow)
  | _ => some (leBytes 8 bits.toNat)

/-- The integer codes of `struct` accept the range of the type. -/
def packInteger (dtype : DType) (value : Int) : Option (List UInt8) :=
  match dtype.intRange with
  | none => none
  | some (low, high) =>
      if low ≤ value ∧ value ≤ high then
        some (leBytes dtype.byteSize (value % 2 ^ (8 * dtype.byteSize)).toNat)
      else none

/-- The bytes of one scalar; a `bool` is an integer and an integer may be packed as a float. -/
def structPack (externals : Externals) (dtype : DType) (value : WireValue) :
    Option (List UInt8) :=
  let number : Option Int :=
    match value with
    | .int value => some value
    | .bool value => some (if value then 1 else 0)
    | _ => none
  match dtype.intRange, value with
  | some _, _ => number.bind (packInteger dtype)
  | none, .float bits => packFloat externals dtype bits
  | none, _ => number.bind fun integer =>
      (externals.intToFloat integer).bind (packFloat externals dtype)

/-- The plan walks the fields by their offsets and splits them into scalars and shaped fields. -/
def buildPlan (hashName : String → UInt64) (schema : FeatureSchema) :
    Except SchemaError PackPlan := do
  let table ← computeRowOffsetTable hashName schema
  let rows ← rowSize hashName schema
  let shapeByHash := fun hash : UInt64 =>
    (schema.fields.reverse.find? fun field => hashName field.name = hash).map FeatureField.shape
  let slots := (table.zipIdx.map fun entry =>
    { byteOffset := entry.1.byteOffset
      byteCount := entry.1.byteCount
      dtype := entry.1.dtype
      elementCount := entry.1.elementCount
      isTrueScalar := shapeByHash entry.1.nameHash = some []
      valueIndex := entry.2 : PackSlot }).mergeSort
        fun first second => decide (first.byteOffset ≤ second.byteOffset)
  return {
    scalars := slots.filter PackSlot.isTrueScalar
    shapedSlots := slots.filter fun slot => !slot.isTrueScalar
    structSize := (slots.map fun slot => slot.byteOffset + slot.byteCount).max?.getD 0
    expectedLen := table.length
    rowSize := rows }

/-- This replaces the bytes of a buffer from `offset` on. -/
def splice (buffer : List UInt8) (offset : Nat) (bytes : List UInt8) : List UInt8 :=
  buffer.take offset ++ bytes ++ buffer.drop (offset + bytes.length)

/-- One `pack_into` writes the scalars in the order of their offsets. -/
def packScalars (externals : Externals) (values : List WireValue) :
    List PackSlot → List UInt8 → Except PackError Unit × List UInt8
  | [], buffer => (.ok (), buffer)
  | slot :: rest, buffer =>
      match (values[slot.valueIndex]?).bind (structPack externals slot.dtype) with
      | none => (.error (.scalar slot.valueIndex), buffer)
      | some bytes => packScalars externals values rest (splice buffer slot.byteOffset bytes)

/-- The shaped fields are written one after another through numpy views. -/
def packShaped (externals : Externals) (values : List WireValue) :
    List PackSlot → List UInt8 → Except PackError Unit × List UInt8
  | [], buffer => (.ok (), buffer)
  | slot :: rest, buffer =>
      match (values[slot.valueIndex]?).bind (externals.asarray slot.dtype) with
      | none => (.error (.array slot.valueIndex), buffer)
      | some elements =>
          if elements.length ≠ slot.elementCount then
            (.error (.elementCount slot.valueIndex elements.length slot.elementCount), buffer)
          else
            packShaped externals values rest (splice buffer slot.byteOffset elements.flatten)

/-- The row buffer is filled from the values in name-hash order. -/
def packRowFromList (externals : Externals) (plan : PackPlan) (values : WireValue)
    (out : List UInt8) : Except PackError Unit × List UInt8 :=
  match values.items with
  | none => (.error .noLength, out)
  | some items =>
      if items.length ≠ plan.expectedLen then
        (.error (.valueCount plan.expectedLen items.length), out)
      else if out.length ≠ plan.rowSize then
        (.error (.outLength out.length plan.rowSize), out)
      else
        -- The pad bytes of the format clear the gaps and the shaped regions first.
        let cleared :=
          if plan.scalars = [] then out
          else splice out 0 (List.replicate plan.structSize 0)
        match packScalars externals items plan.scalars cleared with
        | (.error error, buffer) => (.error error, buffer)
        | (.ok _, buffer) => packShaped externals items plan.shapedSlots buffer

end Quorin
