import Quorin.Construction.Segment

namespace Quorin

open ByteMemory

/-- The running sums of `np.cumsum`, with a leading zero. -/
def prefixSums (counts : List Nat) : List Nat :=
  (List.range (counts.length + 1)).map fun index => (counts.take index).sum

/-- The slice `xs[start : start + count]`. -/
def slice (xs : List UInt8) (start count : Nat) : List UInt8 := (xs.drop start).take count

/-- The offsets and the value bytes of an Arrow string array. -/
structure StringArray where
  offsets : List Nat
  values : List UInt8
  deriving DecidableEq

/-- The string array that holds the given texts one behind another. -/
def StringArray.ofList (texts : List String) : StringArray :=
  ⟨prefixSums (texts.map fun text => (encodeUtf8 text).length), (texts.map encodeUtf8).flatten⟩

/-- A column of texts, or a column of values nested in `depth` levels of fixed-size lists. -/
inductive ArrowColumn where
  | texts (array : StringArray)
  | values (depth : Nat) (dtype : DType) (rows : List (List (List UInt8)))
  deriving DecidableEq

/-- An Arrow table of `length` rows with named columns. -/
structure ArrowTable where
  length : Nat
  columns : List (String × ArrowColumn)

/-- The failures of `insert_many`, in the order of its checks. -/
inductive InsertManyError where
  | notFresh (nextRow poolCursor : Nat)
  | tooManyRows (rows capacity : Nat)
  | missingEntityId
  | missingColumns (names : List String)
  | entityIdNotString
  | noFlatten (name : String)
  | rankNotSupported (name : String) (rank : Nat)
  | objectDtype (name : String)
  | reshape (name : String) (length expected : Nat)
  | longestIdTooLong (length maxIdBytes : Nat)
  | poolTooSmall (needed available : Nat)
  | slotTableScanned (row capacity slotCapacity : Nat)
  deriving DecidableEq

/-- The conversion of one element; the integer widenings are exact and the others are given. -/
def astype (castBits : DType → DType → Nat → Nat) (source target : DType) (element : List UInt8) :
    List UInt8 :=
  let bits := leNat element
  match source, target with
  | .uint8, .int32 => leBytes 4 bits
  | .uint8, .int64 => leBytes 8 bits
  | .int32, .int64 => leBytes 8 (if bits < 2 ^ 31 then bits else bits + (2 ^ 64 - 2 ^ 32))
  | _, _ => if source = target then element else leBytes target.byteSize (castBits source target bits)

/-- The bytes of one field for all rows, after one `flatten` for each list level. -/
def extractFieldToNumpy (castBits : DType → DType → Nat → Nat) (length : Nat) (column : ArrowColumn)
    (field : FeatureField) (byteCount : Nat) : Except InsertManyError (List UInt8) :=
  let rank := field.shape.length
  if rank > 2 then .error (.rankNotSupported field.name rank)
  else
    match column with
    | .texts _ => if rank = 0 then .error (.objectDtype field.name) else .error (.noFlatten field.name)
    | .values depth dtype rows =>
        if depth < rank then .error (.noFlatten field.name)
        else if rank < depth then .error (.objectDtype field.name)
        else
          let flat := (rows.flatten.map (astype castBits dtype field.dtype)).flatten
          if flat.length = length * byteCount then .ok flat
          else .error (.reshape field.name flat.length (length * byteCount))

/-- The seven buffers of `_prepare_insert_columns`. -/
structure InsertColumns where
  idHashes : List UInt64
  idByteOffsets : List Nat
  encodedIdsConcat : List UInt8
  fieldByteOffsetsInRow : List Nat
  fieldByteCounts : List Nat
  fieldDataStarts : List Nat
  fieldData : List UInt8

/-- The flat buffers of all fields, in declaration order. -/
def extractFields (castBits : DType → DType → Nat → Nat) (table : ArrowTable) :
    List FeatureField → List Nat → Except InsertManyError (List (List UInt8))
  | [], _ => .ok []
  | field :: rest, counts => do
      let column := (table.columns.lookup field.name).getD (.values 0 field.dtype [])
      let flat ← extractFieldToNumpy castBits table.length column field (counts.headD 0)
      let others ← extractFields castBits table rest counts.tail
      return flat :: others

/-- The columns of the table become buffers in column order. -/
def prepareInsertColumns (hashId : List UInt8 → UInt64) (castBits : DType → DType → Nat → Nat)
    (table : ArrowTable) (schema : FeatureSchema) (layout : SegmentLayout) :
    Except InsertManyError InsertColumns :=
  match table.columns.lookup "entity_id" with
  | none => .error .missingEntityId
  | some entityIds =>
      let missing := (schema.fields.map FeatureField.name).filter fun name =>
        (table.columns.lookup name).isNone
      if missing ≠ [] then .error (.missingColumns missing)
      else
        match entityIds with
        | .values _ _ _ => .error .entityIdNotString
        | .texts array => do
            let idByteOffsets := array.offsets.take (table.length + 1)
            let idHashes := (List.range table.length).map fun index =>
              hashId (slice array.values (idByteOffsets.getD index 0)
                (idByteOffsets.getD (index + 1) 0 - idByteOffsets.getD index 0))
            let fieldByteCounts := layout.assemblyTable.map OffsetRow.byteCount
            let flats ← extractFields castBits table schema.fields fieldByteCounts
            return {
              idHashes, idByteOffsets
              encodedIdsConcat := array.values
              fieldByteOffsetsInRow := layout.assemblyTable.map OffsetRow.byteOffset
              fieldByteCounts
              fieldDataStarts := prefixSums (fieldByteCounts.map (· * table.length))
              fieldData := flats.flatten }

section Kernel

variable {ε : Type} (layout : SegmentLayout)

/-- The probe of the kernel compares no ids; it stops at the first empty slot. -/
def findEmptySlot : Nat → Nat → Program ε (Option Nat)
  | 0, _ => .done none
  | fuel + 1, index => do
      let flags ← .readNat (layout.slotField index slotFlagsOffset) 4
      if flags = flagEmpty then return some index
      else findEmptySlot fuel (nextIndex layout index)

/-- One row is scattered from the column buffers, one field after another. -/
def writeFields (columns : InsertColumns) (row : Nat) : List Nat → Program ε Unit
  | [] => .done ()
  | field :: rest => do
      let count := columns.fieldByteCounts.getD field 0
      let source := columns.fieldDataStarts.getD field 0 + row * count
      .writeBytes (layout.rowAddress row + columns.fieldByteOffsetsInRow.getD field 0)
        (slice columns.fieldData source count)
      writeFields columns row rest

/-- The writes of one row leave its flags for the last write. -/
def insertManyRow (columns : InsertColumns) (row index poolCursor : Nat) : Program ε Nat := do
  let hashValue := columns.idHashes.getD row 0
  let start := columns.idByteOffsets.getD row 0
  let length := columns.idByteOffsets.getD (row + 1) 0 - start
  .writeBytes (layout.entryAddress poolCursor) (leBytes 4 length)
  .writeBytes (layout.entryAddress poolCursor + lenPrefixBytes)
    (slice columns.encodedIdsConcat start length)
  writeFields layout columns row (List.range columns.fieldByteOffsetsInRow.length)
  .writeBytes (layout.slotField index slotNameHashOffset) (leBytes 8 hashValue.toNat)
  .writeBytes (layout.slotField index slotIdOffsetOffset) (leBytes 8 poolCursor)
  .writeBytes (layout.slotField index slotFeatureRowIndexOffset) (leBytes 4 row)
  .writeBytes (layout.slotField index slotFlagsOffset) (leBytes 4 flagOccupied)
  return poolCursor + (lenPrefixBytes + length)

/-- The kernel returns the pool cursor, or the negated number of the first row without a slot. -/
def insertManyCore (columns : InsertColumns) : Nat → Nat → Nat → Program ε Int
  | 0, _, poolCursor => .done poolCursor
  | remaining + 1, row, poolCursor => do
      match ← findEmptySlot layout layout.slotCapacity
          (homeIndex layout (columns.idHashes.getD row 0)) with
      | none => return -((row : Int) + 1)
      | some index =>
          let poolCursor ← insertManyRow layout columns row index poolCursor
          insertManyCore columns remaining (row + 1) poolCursor

end Kernel

/-- The bulk insert of a table into a fresh segment returns the number of rows. -/
def insertMany (hashId : List UInt8 → UInt64) (castBits : DType → DType → Nat → Nat)
    (schema : FeatureSchema) (layout : SegmentLayout) (table : ArrowTable) :
    Program InsertManyError Nat := do
  if table.length = 0 then return 0
  else
    let (nextRow, poolCursor) ← readMetadata
    if nextRow ≠ 0 ∨ poolCursor ≠ 0 then .fail (.notFresh nextRow poolCursor)
    else if table.length > layout.capacity then .fail (.tooManyRows table.length layout.capacity)
    else
      match prepareInsertColumns hashId castBits table schema layout with
      | .error error => .fail error
      | .ok columns =>
          let lengths := (List.range table.length).map fun index =>
            columns.idByteOffsets.getD (index + 1) 0 - columns.idByteOffsets.getD index 0
          let longest := lengths.max?.getD 0
          let needed := columns.idByteOffsets.getLastD 0 + table.length * lenPrefixBytes
          if longest > layout.maxIdBytes then .fail (.longestIdTooLong longest layout.maxIdBytes)
          else if needed > layout.stringPoolDataBytes then
            .fail (.poolTooSmall needed layout.stringPoolDataBytes)
          else
            let result ← insertManyCore layout columns table.length 0 0
            if result < 0 then
              .fail (.slotTableScanned (-result - 1).toNat layout.capacity layout.slotCapacity)
            else
              writeMetadata table.length result.toNat
              return table.length

end Quorin
