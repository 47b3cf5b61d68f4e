import Quorin.Construction.RowPack

namespace Quorin

/-- One code of a `struct` format: `Nx` or the code of a type. -/
inductive FormatCode where
  | pad (count : Nat)
  | scalar (dtype : DType)
  deriving DecidableEq

def FormatCode.size : FormatCode → Nat
  | .pad count => count
  | .scalar dtype => dtype.byteSize

/-- The plan of `_build_plan`, with its format codes. -/
structure FormatPlan where
  /-- The format is absent when the schema has no scalar field. -/
  scalarStruct : Option (List FormatCode)
  scalarIndices : List Nat
  shapedSlots : List PackSlot
  expectedLen : Nat
  rowSize : Nat

/-- The format codes, the value positions and the shaped fields of one walk. -/
structure FormatWalk where
  codes : List FormatCode
  scalarIndices : List Nat
  shapedSlots : List PackSlot

/-- The walk over the fields by their offsets fills each gap with a pad code. -/
def emitFormat : List PackSlot → Nat → FormatWalk
  | [], _ => ⟨[], [], []⟩
  | slot :: rest, cursor =>
      let gap := if slot.byteOffset > cursor then [FormatCode.pad (slot.byteOffset - cursor)] else []
      let cursor := if slot.byteOffset > cursor then slot.byteOffset else cursor
      if slot.isTrueScalar then
        let later := emitFormat rest (cursor + slot.dtype.byteSize)
        ⟨gap ++ .scalar slot.dtype :: later.codes, slot.valueIndex :: later.scalarIndices,
          later.shapedSlots⟩
      else
        let later := emitFormat rest (cursor + slot.byteCount)
        ⟨gap ++ .pad slot.byteCount :: later.codes, later.scalarIndices, slot :: later.shapedSlots⟩

/-- The rows of the plan: the fields by their offsets, each with the position of its value. -/
def planSlots (hashName : String → UInt64) (schema : FeatureSchema) (table : List OffsetRow) :
    List PackSlot :=
  let shapeByHash := fun hash : UInt64 =>
    (schema.fields.reverse.find? fun field => hashName field.name = hash).map FeatureField.shape
  (table.zipIdx.map fun entry =>
    { byteOffset := entry.1.byteOffset
      byteCount := entry.1.byteCount
      dtype := entry.1.dtype
      elementCount := entry.1.elementCount
      isTrueScalar := shapeByHash entry.1.nameHash = some []
      valueIndex := entry.2 : PackSlot }).mergeSort
        fun first second => decide (first.byteOffset ≤ second.byteOffset)

/-- The function `_build_plan`. -/
def buildFormatPlan (hashName : String → UInt64) (schema : FeatureSchema) :
    Except SchemaError FormatPlan := do
  let table ← computeRowOffsetTable hashName schema
  let rows ← rowSize hashName schema
  let walk := emitFormat (planSlots hashName schema table) 0
  return {
    scalarStruct := if walk.scalarIndices = [] then none else some walk.codes
    scalarIndices := walk.scalarIndices
    shapedSlots := walk.shapedSlots
    expectedLen := table.length
    rowSize := rows }

/-- The codes of a format are packed from a position on; a pad code leaves the zeros of the start. -/
def packCodes (externals : Externals) :
    List FormatCode → Nat → List (Nat × WireValue) → List UInt8 → Except PackError Unit × List UInt8
  | [], _, _, buffer => (.ok (), buffer)
  | .pad count :: rest, position, args, buffer =>
      packCodes externals rest (position + count) args buffer
  | .scalar _ :: _, _, [], buffer => (.error (.valueCount 1 0), buffer)
  | .scalar dtype :: rest, position, arg :: args, buffer =>
      match structPack externals dtype arg.2 with
      | none => (.error (.scalar arg.1), buffer)
      | some bytes =>
          packCodes externals rest (position + dtype.byteSize) args (splice buffer position bytes)

/-- The number of arguments of a format. -/
def argumentCount (codes : List FormatCode) : Nat :=
  (codes.filter fun code => match code with
    | .pad _ => false
    | .scalar _ => true).length

/-- The call `Struct.pack_into(out, 0, ...)` checks its arguments and the room in the buffer, and
it clears the bytes of the format before it packs them. -/
def packInto (externals : Externals) (codes : List FormatCode) (args : List (Nat × WireValue))
    (out : List UInt8) : Except PackError Unit × List UInt8 :=
  let size := (codes.map FormatCode.size).sum
  if args.length ≠ argumentCount codes then
    (.error (.valueCount (argumentCount codes) args.length), out)
  else if out.length < size then (.error (.outLength out.length size), out)
  else packCodes externals codes 0 args (splice out 0 (List.replicate size 0))

/-- The function `pack_row_from_list`. -/
def packRowFromFormat (externals : Externals) (plan : FormatPlan) (values : WireValue)
    (out : List UInt8) : Except PackError Unit × List UInt8 :=
  match values.items with
  | none => (.error .noLength, out)
  | some items =>
      if items.length ≠ plan.expectedLen then
        (.error (.valueCount plan.expectedLen items.length), out)
      else if out.length ≠ plan.rowSize then
        (.error (.outLength out.length plan.rowSize), out)
      else
        let packed : Except PackError Unit × List UInt8 :=
          match plan.scalarStruct with
          | none => (.ok (), out)
          | some codes =>
              packInto externals codes
                (plan.scalarIndices.map fun index => (index, items.getD index .nil)) out
        match packed with
        | (.error error, buffer) => (.error error, buffer)
        | (.ok _, buffer) => packShaped externals items plan.shapedSlots buffer

/-- The failures of `pack_row` on Python values, in the order of its checks. -/
inductive PackValuesError where
  | schema (error : SchemaError)
  | missing (names : List String)
  | unknown (names : List String)
  | array (name : String)
  | elementCount (name : String) (size expected : Nat)
  deriving DecidableEq

/-- The loop of `pack_row` over the declared fields and their rows. -/
def packRowLoop (externals : Externals) (fields : List (String × WireValue)) :
    List (FeatureField × OffsetRow) → List UInt8 → Except PackValuesError (List UInt8)
  | [], out => .ok out
  | (field, row) :: rest, out =>
      match (fields.lookup field.name).bind (externals.asarray row.dtype) with
      | none => .error (.array field.name)
      | some src =>
          if src.length ≠ row.elementCount then
            .error (.elementCount field.name src.length row.elementCount)
          else packRowLoop externals fields rest (splice out row.byteOffset src.flatten)

/-- The function `pack_row` on the keyword arguments of its caller. -/
def packRowValues (externals : Externals) (schema : FeatureSchema)
    (fields : List (String × WireValue)) : Except PackValuesError (List UInt8) :=
  let declared := schema.fields.map FeatureField.name
  let provided := fields.map Prod.fst
  let missing := declared.filter fun name => !provided.contains name
  let extra := provided.filter fun name => !declared.contains name
  if missing ≠ [] then .error (.missing (missing.mergeSort fun first second => first ≤ second))
  else if extra ≠ [] then .error (.unknown (extra.mergeSort fun first second => first ≤ second))
  else
    match rowSize externals.hashName schema with
    | .error error => .error (.schema error)
    | .ok size =>
        packRowLoop externals fields
          (schema.fields.zip (computeAssemblyTable externals.hashName schema))
          (List.replicate size 0)

end Quorin
