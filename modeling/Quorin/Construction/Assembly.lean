import Quorin.Construction.InsertMany

namespace Quorin

open ByteMemory

/-- The failures of the read path. -/
inductive AssemblyError where
  | segment (error : SegmentError)
  | entityNotFound (entityId : String)
  | outMismatch
  | maskMismatch
  | emptyBatchId (index : Nat)
  deriving DecidableEq

/-- A one-dimensional caller array with its flags. -/
structure OutVector (F : Type) where
  data : List F
  isFloat32 : Bool
  contiguous : Bool
  writeable : Bool

/-- A two-dimensional caller array with its flags; all its rows have `columns` elements. -/
structure OutMatrix (F : Type) where
  rows : List (List F)
  columns : Nat
  rectangular : ∀ row ∈ rows, row.length = columns
  isFloat32 : Bool
  contiguous : Bool
  writeable : Bool

/-- A caller mask with its flags. -/
structure OutMask where
  data : List Bool
  isBool : Bool
  writeable : Bool

/-- The shape check of `out` for one entity. -/
def OutVector.suits {F : Type} (layout : SegmentLayout) (out : OutVector F) : Bool :=
  out.data.length = layout.totalElementCount && out.isFloat32 && out.contiguous && out.writeable

/-- The shape check of `out` for a batch. -/
def OutMatrix.suits {F : Type} (layout : SegmentLayout) (batch : Nat) (out : OutMatrix F) : Bool :=
  out.rows.length = batch && out.columns = layout.totalElementCount && out.isFloat32 &&
    out.contiguous && out.writeable

/-- The shape check of `found_mask`. -/
def OutMask.suits (batch : Nat) (mask : OutMask) : Bool :=
  mask.data.length = batch && mask.isBool && mask.writeable

section Serving

variable {F : Type} (toFloat32 : DType → List UInt8 → F) (memory : Memory)

/-- The elements of one field of the row at an address, as float32 values. -/
def fieldValues (rowOffset : Nat) (row : OffsetRow) : List F :=
  (List.range row.elementCount).map fun index =>
    toFloat32 row.dtype
      (memory.read (rowOffset + row.byteOffset + index * row.dtype.byteSize) row.dtype.byteSize)

/-- The loop of `quorin.serving.assemble` assigns the elements of each field to a slice. -/
def servingFields (rowOffset : Nat) : List OffsetRow → Nat → List F → List F
  | [], _, out => out
  | row :: rest, cursor, out =>
      servingFields rowOffset rest (cursor + row.elementCount)
        (out.take cursor ++ fieldValues toFloat32 memory rowOffset row ++
          out.drop (cursor + row.elementCount))

/-- The buffer of the caller, or a new one with undefined contents. -/
def chooseOut (layout : SegmentLayout) (undefined : Nat → F) (out : Option (OutVector F)) :
    Except AssemblyError (List F) :=
  match out with
  | none => .ok ((List.range layout.totalElementCount).map undefined)
  | some given => if given.suits layout then .ok given.data else .error .outMismatch

/-- The function `quorin.serving.assemble`. -/
def servingAssemble (hashId : List UInt8 → UInt64) (layout : SegmentLayout) (undefined : Nat → F)
    (entityId : String) (out : Option (OutVector F)) : Except AssemblyError (List F) :=
  match (lookup hashId layout entityId).result memory with
  | .error error => .error (.segment error)
  | .ok none => .error (.entityNotFound entityId)
  | .ok (some rowOffset) =>
      match chooseOut layout undefined out with
      | .error error => .error error
      | .ok data => .ok (servingFields toFloat32 memory rowOffset layout.assemblyTable 0 data)

end Serving

section Kernels

variable {F : Type} (toFloat32 : DType → List UInt8 → F) (memory : Memory)

/-- The dtype ladder of the kernels on one element of the bytes of a field. -/
def castElement (code : Nat) (sub : List UInt8) (index : Nat) : F :=
  if code = 1 then toFloat32 .float32 (slice sub (index * 4) 4)
  else if code = 2 then toFloat32 .float64 (slice sub (index * 8) 8)
  else if code = 3 then toFloat32 .int32 (slice sub (index * 4) 4)
  else if code = 4 then toFloat32 .int64 (slice sub (index * 8) 8)
  else toFloat32 .uint8 (slice sub index 1)

/-- The field loop of the kernels writes one element after another. -/
def assembleFields (rowOffset : Nat) : List OffsetRow → Nat → List F → List F
  | [], _, out => out
  | row :: rest, cursor, out =>
      let sub := memory.read (rowOffset + row.byteOffset) row.byteCount
      assembleFields rowOffset rest (cursor + row.elementCount)
        ((List.range row.elementCount).foldl (fun filled index =>
          filled.set (cursor + index) (castElement toFloat32 row.dtype.code sub index)) out)

/-- The kernel `_assemble_core`. -/
def assembleCore (layout : SegmentLayout) (rowOffset : Nat) (out : List F) : List F :=
  assembleFields toFloat32 memory rowOffset layout.assemblyTable 0 out

/-- The wrapper `lookup_jit` of the compiled lookup. -/
def lookupJit (hashId : List UInt8 → UInt64) (layout : SegmentLayout) (entityId : String) :
    SegmentProgram (Option Nat) :=
  if entityId = "" then .fail .emptyEntityId
  else lookupCore hashId layout (encodeUtf8 entityId)

/-- The function `quorin.assembly.assemble`. -/
def assemble (hashId : List UInt8 → UInt64) (layout : SegmentLayout) (undefined : Nat → F)
    (entityId : String) (out : Option (OutVector F)) : Except AssemblyError (List F) :=
  match (lookupJit hashId layout entityId).result memory with
  | .error error => .error (.segment error)
  | .ok none => .error (.entityNotFound entityId)
  | .ok (some rowOffset) =>
      match chooseOut layout undefined out with
      | .error error => .error error
      | .ok data => .ok (assembleCore toFloat32 memory layout rowOffset data)

end Kernels

section Batch

variable {F : Type} (toFloat32 : DType → List UInt8 → F) (zero : F) (memory : Memory)
  (layout : SegmentLayout)

/-- The strict ASCII encoder. -/
def encodeAscii (text : String) : Option (List UInt8) :=
  if text.toList.all (fun character => character.toNat < 128) then
    some (text.toList.map fun character => UInt8.ofNat character.toNat)
  else none

/-- An id is encoded as ASCII where that is possible. -/
def encodeBatchId (entityId : String) : List UInt8 :=
  (encodeAscii entityId).getD (encodeUtf8 entityId)

/-- The row of the padded id array, with the length of the id. -/
structure PaddedId where
  bytes : List UInt8
  length : Nat

def padId (width : Nat) (encoded : List UInt8) : PaddedId :=
  ⟨encoded ++ List.replicate (width - encoded.length) 0, encoded.length⟩

/-- A visit of the batch kernels; it does not bound the length of a pool entry. -/
def probeSlotBatch (hashValue : UInt64) (query : PaddedId) (index : Nat) :
    SegmentProgram SlotProbe := do
  let flags ← .readNat (layout.slotField index slotFlagsOffset) 4
  if flags = flagEmpty then return .empty
  else
    let nameHash ← .readNat (layout.slotField index slotNameHashOffset) 8
    if flags = flagOccupied ∧ nameHash = hashValue.toNat then
      let idOffset ← .readNat (layout.slotField index slotIdOffsetOffset) 8
      let length ← .readNat (layout.entryAddress idOffset) lenPrefixBytes
      if length = query.length then
        if ← compareBytes (layout.entryAddress idOffset + lenPrefixBytes)
            (query.bytes.take query.length) then
          return .hit
        else return .miss
      else return .miss
    else return .miss

/-- The hash and the padded bytes of one id of a batch. -/
structure BatchQuery where
  hashValue : UInt64
  query : PaddedId

/-- One iteration of the batch kernels fills one row and one entry of the mask. -/
def assembleBatchRow (queries : List BatchQuery) (state : List (List F) × List Bool) (index : Nat) :
    List (List F) × List Bool :=
  match queries[index]? with
  | none => state
  | some entry =>
      match (lookupLoop layout (probeSlotBatch layout entry.hashValue entry.query)
          layout.slotCapacity (homeIndex layout entry.hashValue)).result memory with
      | .ok (some rowOffset) =>
          (state.1.modify index (assembleFields toFloat32 memory rowOffset layout.assemblyTable 0),
            state.2.set index true)
      | _ =>
          (state.1.modify index fun row => (List.range row.length).foldl (fun filled position =>
              filled.set position zero) row,
            state.2.set index false)

/-- The kernel `_assemble_batch_core`. -/
def assembleBatchCore (queries : List BatchQuery) (state : List (List F) × List Bool) :
    List (List F) × List Bool :=
  (List.range queries.length).foldl (assembleBatchRow toFloat32 zero memory layout queries) state

/-- The kernel `_assemble_batch_core_parallel`, with the order in which its iterations ran. -/
def assembleBatchCoreParallel (order : List Nat) (queries : List BatchQuery)
    (state : List (List F) × List Bool) : List (List F) × List Bool :=
  order.foldl (assembleBatchRow toFloat32 zero memory layout queries) state

/-- The encoded ids of a batch, or the position of the first empty id. -/
def encodeBatch (entityIds : List String) : Except AssemblyError (List (List UInt8)) :=
  match entityIds.findIdx? (· = "") with
  | some index => .error (.emptyBatchId index)
  | none => .ok (entityIds.map encodeBatchId)

/-- The padded ids and their hashes. -/
def batchQueries (hashId : List UInt8 → UInt64) (encoded : List (List UInt8)) : List BatchQuery :=
  let width := (encoded.map List.length).foldl max 0
  encoded.map fun bytes =>
    let query := padId width bytes
    ⟨hashId (query.bytes.take query.length), query⟩

/-- The matrix of the caller, or a new one with undefined contents. -/
def chooseRows (undefined : Nat → Nat → F) (batch : Nat) (out : Option (OutMatrix F)) :
    Except AssemblyError (List (List F)) :=
  match out with
  | none => .ok ((List.range batch).map fun row =>
      (List.range layout.totalElementCount).map (undefined row))
  | some given => if given.suits layout batch then .ok given.rows else .error .outMismatch

/-- The mask of the caller, or a new one with undefined contents. -/
def chooseMask (unknown : Nat → Bool) (batch : Nat) (foundMask : Option OutMask) :
    Except AssemblyError (List Bool) :=
  match foundMask with
  | none => .ok ((List.range batch).map unknown)
  | some given => if given.suits batch then .ok given.data else .error .maskMismatch

/-- The function `assemble_batch`; `undefined` and `unknown` are the contents of new buffers. -/
def assembleBatch (hashId : List UInt8 → UInt64) (undefined : Nat → Nat → F)
    (unknown : Nat → Bool) (parallelThreshold : Nat) (order : List Nat) (entityIds : List String)
    (out : Option (OutMatrix F)) (foundMask : Option OutMask) :
    Except AssemblyError (List (List F) × List Bool) := do
  let rows ← chooseRows layout undefined entityIds.length out
  let mask ← chooseMask unknown entityIds.length foundMask
  if entityIds.length = 0 then return (rows, mask)
  else
    let encoded ← encodeBatch entityIds
    let queries := batchQueries hashId encoded
    if entityIds.length ≥ parallelThreshold then
      return assembleBatchCoreParallel toFloat32 zero memory layout order queries (rows, mask)
    else return assembleBatchCore toFloat32 zero memory layout queries (rows, mask)

end Batch

end Quorin
