import Quorin.Construction.Assembly
import Quorin.Library.CheckedArrays

namespace Quorin

open ByteMemory CheckedArrays

section Lookup

variable (layout : SegmentLayout) (segment : Buffer)

/-- A visit of the compiled lookups; the test `corrupt` is the bound on the length of an entry. -/
def checkedVisit (corrupt : Nat → Bool) (hashValue : UInt64) (query : Nat → Checked UInt8)
    (queryLength slot : Nat) : Checked SlotProbe := do
  let flags ← segment.word (layout.slotField slot slotFlagsOffset) 4
  if flags = flagEmpty then return .empty
  else
    let nameHash ← segment.word (layout.slotField slot slotNameHashOffset) 8
    if flags = flagOccupied ∧ nameHash = hashValue.toNat then
      let idOffset ← segment.word (layout.slotField slot slotIdOffsetOffset) 8
      -- Only the length words of the pool are not aligned.
      let length ← segment.unalignedWord (layout.entryAddress idOffset) lenPrefixBytes
      if corrupt length then return .empty
      else if length = queryLength then
        let same ← allFrom (fun offset => do
          let stored ← segment.byte (layout.entryAddress idOffset + lenPrefixBytes + offset)
          let byte ← query offset
          return stored == byte) queryLength 0
        if same then return .hit else return .miss
      else return .miss
    else return .miss

/-- The walk of the compiled lookups, with the read of the row index. -/
def checkedLookupLoop (visit : Nat → Checked SlotProbe) : Nat → Nat → Checked (Option Nat)
  | 0, _ => .ok none
  | fuel + 1, slot => do
      match ← visit slot with
      | .empty => return none
      | .hit =>
          let row ← segment.word (layout.slotField slot slotFeatureRowIndexOffset) 4
          return some (layout.rowAddress row)
      | .miss => checkedLookupLoop visit fuel (nextIndex layout slot)

/-- The kernel `_lookup_core` with every access checked. -/
def checkedLookupCore (hashId : List UInt8 → UInt64) (encodedId : List UInt8) :
    Checked (Option Nat) :=
  let hashValue := hashId encodedId
  checkedLookupLoop layout segment
    (checkedVisit layout segment (fun length => length > layout.maxIdBytes) hashValue
      (index encodedId) encodedId.length)
    layout.slotCapacity (homeIndex layout hashValue)

/-- The wrapper `lookup_jit` over the checked kernel. -/
def checkedLookupJit (hashId : List UInt8 → UInt64) (entityId : String) :
    Checked (Except SegmentError (Option Nat)) :=
  if entityId = "" then return .error .emptyEntityId
  else return .ok (← checkedLookupCore layout segment hashId (encodeUtf8 entityId))

end Lookup

/-- The assembly table as the four arrays that the kernels receive. -/
structure AssemblyArrays where
  byteOffsets : List Nat
  byteCounts : List Nat
  dtypeCodes : List Nat
  elementCounts : List Nat

def SegmentLayout.assemblyArrays (layout : SegmentLayout) : AssemblyArrays where
  byteOffsets := layout.assemblyTable.map OffsetRow.byteOffset
  byteCounts := layout.assemblyTable.map OffsetRow.byteCount
  dtypeCodes := layout.assemblyTable.map fun row => row.dtype.code
  elementCounts := layout.assemblyTable.map OffsetRow.elementCount

section Assembly

variable {F S : Type} (toFloat32 : DType → List UInt8 → F) (segment : Buffer)
  (put : S → Nat → F → Checked S)

/-- One branch of the dtype ladder reads a view element by element. -/
def checkedElements (dtype : DType) (view : View) (count cursor : Nat) (out : S) : Checked S :=
  (List.range count).foldlM (fun out position => do
    let element ← view.element position
    put out (cursor + position) (toFloat32 dtype element)) out

/-- The dtype ladder of the kernels on the bytes of one field. -/
def checkedLadder (code : Nat) (sub : BufferSlice) (count cursor : Nat) (out : S) : Checked S :=
  if code = 1 then do checkedElements toFloat32 put .float32 (← sub.view 4) count cursor out
  else if code = 2 then do checkedElements toFloat32 put .float64 (← sub.view 8) count cursor out
  else if code = 3 then do checkedElements toFloat32 put .int32 (← sub.view 4) count cursor out
  else if code = 4 then do checkedElements toFloat32 put .int64 (← sub.view 8) count cursor out
  else checkedElements toFloat32 put .uint8 ⟨1, sub.bytes⟩ count cursor out

/-- One iteration of the field loop of the kernels. -/
def checkedField (arrays : AssemblyArrays) (rowOffset : Nat) (state : Nat × S) (field : Nat) :
    Checked (Nat × S) := do
  let byteOffset ← index arrays.byteOffsets field
  let byteCount ← index arrays.byteCounts field
  let elementCount ← index arrays.elementCounts field
  let code ← index arrays.dtypeCodes field
  let sub ← segment.slice (rowOffset + byteOffset) (rowOffset + byteOffset + byteCount)
  let out ← checkedLadder toFloat32 put code sub elementCount state.1 state.2
  return (state.1 + elementCount, out)

/-- The field loop of the kernels; `put` is the assignment to the output array. -/
def checkedFields (arrays : AssemblyArrays) (rowOffset : Nat) (out : S) : Checked S := do
  let state ← (List.range arrays.byteOffsets.length).foldlM
    (checkedField toFloat32 segment put arrays rowOffset) (0, out)
  return state.2

/-- The kernel `_assemble_core` with every access checked. -/
def checkedAssembleCore (arrays : AssemblyArrays) (rowOffset : Nat) (out : List F) :
    Checked (List F) :=
  checkedFields toFloat32 segment assign arrays rowOffset out

/-- The function `quorin.assembly.assemble` over the checked kernels. -/
def checkedAssemble (hashId : List UInt8 → UInt64) (layout : SegmentLayout) (undefined : Nat → F)
    (entityId : String) (out : Option (OutVector F)) :
    Checked (Except AssemblyError (List F)) := do
  match ← checkedLookupJit layout segment hashId entityId with
  | .error error => return .error (.segment error)
  | .ok none => return .error (.entityNotFound entityId)
  | .ok (some rowOffset) =>
      match chooseOut layout undefined out with
      | .error error => return .error error
      | .ok data =>
          return .ok (← checkedAssembleCore toFloat32 segment layout.assemblyArrays rowOffset data)

end Assembly

/-- The assignment `xs[row, position] = value` to a two-dimensional array. -/
def assignCell {F : Type} (rows : List (List F)) (row position : Nat) (value : F) :
    Checked (List (List F)) := do
  let cells ← index rows row
  let changed ← assign cells position value
  assign rows row changed

/-- The query arrays of the batch kernels. -/
structure BatchArrays where
  idHashes : List UInt64
  queryIdsPadded : List (List UInt8)
  queryIdLens : List Nat

def batchArrays (queries : List BatchQuery) : BatchArrays where
  idHashes := queries.map BatchQuery.hashValue
  queryIdsPadded := queries.map fun entry => entry.query.bytes
  queryIdLens := queries.map fun entry => entry.query.length

section Batch

variable {F : Type} (toFloat32 : DType → List UInt8 → F) (zero : F) (segment : Buffer)
  (layout : SegmentLayout)

/-- One iteration of the batch kernels; `columns` is `out.shape[1]`. -/
def checkedBatchRow (batch : BatchArrays) (columns : Nat) (state : List (List F) × List Bool)
    (entry : Nat) : Checked (List (List F) × List Bool) := do
  let hashValue ← index batch.idHashes entry
  let queryLength ← index batch.queryIdLens entry
  let found ← checkedLookupLoop layout segment
    (checkedVisit layout segment (fun _ => false) hashValue (fun offset => do
      let query ← index batch.queryIdsPadded entry
      index query offset) queryLength)
    layout.slotCapacity (homeIndex layout hashValue)
  match found with
  | none =>
      let out ← (List.range columns).foldlM
        (fun out position => assignCell out entry position zero) state.1
      let mask ← assign state.2 entry false
      return (out, mask)
  | some rowOffset =>
      let out ← checkedFields toFloat32 segment (fun out => assignCell out entry)
        layout.assemblyArrays rowOffset state.1
      let mask ← assign state.2 entry true
      return (out, mask)

/-- The batch kernels with every access checked, for the order in which the iterations run. -/
def checkedBatchCore (order : List Nat) (batch : BatchArrays) (columns : Nat)
    (state : List (List F) × List Bool) : Checked (List (List F) × List Bool) :=
  order.foldlM (checkedBatchRow toFloat32 zero segment layout batch columns) state

/-- The function `assemble_batch` over the checked kernels. -/
def checkedAssembleBatch (hashId : List UInt8 → UInt64) (undefined : Nat → Nat → F)
    (unknown : Nat → Bool) (parallelThreshold : Nat) (order : List Nat) (entityIds : List String)
    (out : Option (OutMatrix F)) (foundMask : Option OutMask) :
    Checked (Except AssemblyError (List (List F) × List Bool)) :=
  match chooseRows layout undefined entityIds.length out with
  | .error error => return .error error
  | .ok rows =>
      match chooseMask unknown entityIds.length foundMask with
      | .error error => return .error error
      | .ok mask =>
          if entityIds.length = 0 then return .ok (rows, mask)
          else
            match encodeBatch entityIds with
            | .error error => return .error error
            | .ok encoded =>
                let batch := batchArrays (batchQueries hashId encoded)
                let iterations :=
                  if entityIds.length ≥ parallelThreshold then order
                  else List.range batch.idHashes.length
                return .ok (← checkedBatchCore toFloat32 zero segment layout iterations batch
                  layout.totalElementCount (rows, mask))

end Batch

section BulkInsert

variable (layout : SegmentLayout)

/-- The probe of `_insert_many_core`. -/
def checkedEmptySlot (segment : Buffer) : Nat → Nat → Checked (Option Nat)
  | 0, _ => .ok none
  | fuel + 1, slot => do
      let flags ← segment.word (layout.slotField slot slotFlagsOffset) 4
      if flags = flagEmpty then return some slot
      else checkedEmptySlot segment fuel (nextIndex layout slot)

/-- The scatter of one field of one row. -/
def checkedCell (columns : InsertColumns) (row : Nat) (segment : Buffer) (field : Nat) :
    Checked Buffer := do
  let rowAddress := layout.rowAddress row
  let fieldOffset ← index columns.fieldByteOffsetsInRow field
  let count ← index columns.fieldByteCounts field
  let start ← index columns.fieldDataStarts field
  let source := start + row * count
  let bytes ← range columns.fieldData source (source + count)
  segment.store (rowAddress + fieldOffset) (rowAddress + fieldOffset + count) bytes

/-- The writes of one row. -/
def checkedInsertRow (columns : InsertColumns) (segment : Buffer) (hashValue : UInt64)
    (row slot poolCursor : Nat) : Checked (Nat × Buffer) := do
  let start ← index columns.idByteOffsets row
  let stop ← index columns.idByteOffsets (row + 1)
  let length := stop - start
  let entry := layout.entryAddress poolCursor
  let segment ← segment.storeUnaligned entry lenPrefixBytes length
  let idBytes ← range columns.encodedIdsConcat start (start + length)
  let segment ← segment.store (entry + lenPrefixBytes) (entry + lenPrefixBytes + length) idBytes
  let segment ← (List.range columns.fieldByteOffsetsInRow.length).foldlM
    (checkedCell layout columns row) segment
  let segment ← segment.storeWord (layout.slotField slot slotNameHashOffset) 8 hashValue.toNat
  let segment ← segment.storeWord (layout.slotField slot slotIdOffsetOffset) 8 poolCursor
  let segment ← segment.storeWord (layout.slotField slot slotFeatureRowIndexOffset) 4 row
  let segment ← segment.storeWord (layout.slotField slot slotFlagsOffset) 4 flagOccupied
  return (poolCursor + (lenPrefixBytes + length), segment)

/-- The kernel `_insert_many_core` with every access checked. -/
def checkedInsertManyCore (columns : InsertColumns) :
    Nat → Nat → Nat → Buffer → Checked (Int × Buffer)
  | 0, _, poolCursor, segment => .ok (poolCursor, segment)
  | remaining + 1, row, poolCursor, segment => do
      let hashValue ← index columns.idHashes row
      match ← checkedEmptySlot layout segment layout.slotCapacity (homeIndex layout hashValue) with
      | none => return (-((row : Int) + 1), segment)
      | some slot =>
          let (poolCursor, segment) ←
            checkedInsertRow layout columns segment hashValue row slot poolCursor
          checkedInsertManyCore columns remaining (row + 1) poolCursor segment

/-- The function `insert_many` over the checked kernel, with the memory that it leaves. -/
def checkedInsertMany (hashId : List UInt8 → UInt64) (castBits : DType → DType → Nat → Nat)
    (schema : FeatureSchema) (segment : Buffer) (table : ArrowTable) :
    Checked (Except InsertManyError Nat × Memory) :=
  let memory := segment.memory
  if table.length = 0 then return (.ok 0, memory)
  else
    let nextRow := memory.readNat metadataOffset 8
    let poolCursor := memory.readNat (metadataOffset + 8) 8
    if nextRow ≠ 0 ∨ poolCursor ≠ 0 then return (.error (.notFresh nextRow poolCursor), memory)
    else if table.length > layout.capacity then
      return (.error (.tooManyRows table.length layout.capacity), memory)
    else
      match prepareInsertColumns hashId castBits table schema layout with
      | .error error => return (.error error, memory)
      | .ok columns =>
          let lengths := (List.range table.length).map fun row =>
            columns.idByteOffsets.getD (row + 1) 0 - columns.idByteOffsets.getD row 0
          let longest := lengths.max?.getD 0
          let needed := columns.idByteOffsets.getLastD 0 + table.length * lenPrefixBytes
          if longest > layout.maxIdBytes then
            return (.error (.longestIdTooLong longest layout.maxIdBytes), memory)
          else if needed > layout.stringPoolDataBytes then
            return (.error (.poolTooSmall needed layout.stringPoolDataBytes), memory)
          else do
            let (result, segment) ← checkedInsertManyCore layout columns
              (columns.idByteOffsets.length - 1) 0 0 segment
            if result < 0 then
              return (.error (.slotTableScanned (-result - 1).toNat layout.capacity
                layout.slotCapacity), segment.memory)
            else
              return (.ok table.length, segment.memory.write metadataOffset
                (leBytes 8 table.length ++ leBytes 8 result.toNat))

end BulkInsert

end Quorin
