import Quorin.Construction.InsertMany

namespace Quorin

open ByteMemory

/-- The table `_DTYPE_WIDENING`; every other change of a type is refused. -/
def DType.widensTo : DType → DType → Bool
  | .float32, .float32 => true
  | .float64, .float64 => true
  | .int32, .int32 => true
  | .int64, .int64 => true
  | .uint8, .uint8 => true
  | .float32, .float64 => true
  | .int32, .int64 => true
  | .uint8, .int32 => true
  | .uint8, .int64 => true
  | _, _ => false

/-- The reasons of a refused upgrade, with the values of their texts. -/
inductive UpgradeReason where
  | versionNotGreater (new old : Int)
  | fieldsRemoved (names : List String)
  | shapeChanged (name : String) (old new : List Nat)
  | notWidening (name : String) (old new : DType)
  | keptFieldNotFlat (name : String)
  | newFieldNotFlat (name : String)
  deriving DecidableEq

/-- The field of a schema with the given name. -/
def FeatureSchema.byName (schema : FeatureSchema) (name : String) : Option FeatureField :=
  schema.fields.find? fun field => field.name = name

/-- The reasons that one field of the old schema gives, in the order of the checks. -/
def keptFieldReasons (new : FeatureSchema) (oldField : FeatureField) : List UpgradeReason :=
  match new.byName oldField.name with
  | none => []
  | some newField =>
      (if oldField.shape ≠ newField.shape then
        [.shapeChanged oldField.name oldField.shape newField.shape] else []) ++
      if oldField.dtype.widensTo newField.dtype then []
      else [.notWidening oldField.name oldField.dtype newField.dtype]

/-- The predicate returns whether the upgrade is accepted, with the reasons against it. -/
def canUpgrade (old new : FeatureSchema) : Bool × List UpgradeReason :=
  let removed := (old.fields.map FeatureField.name).filter fun name => (new.byName name).isNone
  let reasons :=
    (if new.version ≤ old.version then [.versionNotGreater new.version old.version] else []) ++
    (if removed ≠ [] then
      [.fieldsRemoved (removed.mergeSort fun first second => decide (first ≤ second))] else []) ++
    old.fields.flatMap (keptFieldReasons new) ++
    (old.fields.filter fun field =>
      match new.byName field.name with
      | none => false
      | some newField => decide (field.shape.length ≥ 2 ∨ newField.shape.length ≥ 2)).map
        (fun field => .keptFieldNotFlat field.name) ++
    (new.fields.filter fun field =>
      (old.byName field.name).isNone && decide (field.shape.length ≥ 2)).map
        fun field => .newFieldNotFlat field.name
  (reasons.isEmpty, reasons)

/-- The failures of the copy. -/
inductive TranslationError where
  | missingOffset (name : String)
  | inconsistent (rows occupied : Nat)
  | corruptPoolEntry (idOffset length maxIdBytes : Nat)
  | invalidUtf8
  | stringArray
  deriving DecidableEq

/-- The row-relative offset of a field is found by the hash of its name. -/
def rowByteOffset (hashName : String → UInt64) (rowOffsetTable : List OffsetRow) (name : String) :
    Option Nat :=
  (rowOffsetTable.reverse.find? fun row => row.nameHash = hashName name).map OffsetRow.byteOffset

/-- The elements of one field in one row of a segment. -/
def fieldElements (layout : SegmentLayout) (memory : Memory) (row offset : Nat)
    (field : FeatureField) : List (List UInt8) :=
  (List.range field.elementCount).map fun element =>
    memory.read (layout.rowAddress row + offset + element * field.dtype.byteSize)
      field.dtype.byteSize

/-- A new field is filled with zeros. -/
def zeroElements (field : FeatureField) : List (List UInt8) :=
  List.replicate (if field.shape = [] then 1 else field.elementCount)
    (List.replicate field.dtype.byteSize 0)

/-- The column of a field of the new schema: a cast of the old field, or zeros. -/
def translateField (hashName : String → UInt64) (castBits : DType → DType → Nat → Nat)
    (old : FeatureSchema) (layout : SegmentLayout) (memory : Memory) (rows : Nat)
    (field : FeatureField) : Except TranslationError ArrowColumn :=
  let depth := if field.shape = [] then 0 else 1
  match old.byName field.name with
  | none => .ok (.values depth field.dtype ((List.range rows).map fun _ => zeroElements field))
  | some oldField =>
      match rowByteOffset hashName layout.rowOffsetTable oldField.name with
      | none => .error (.missingOffset oldField.name)
      | some offset =>
          .ok (.values depth field.dtype ((List.range rows).map fun row =>
            let elements := (fieldElements layout memory row offset oldField).map
              (astype castBits oldField.dtype field.dtype)
            if field.shape = [] then elements.take 1 else elements))

/-- The columns of all fields of the new schema, in declaration order. -/
def translateFields (hashName : String → UInt64) (castBits : DType → DType → Nat → Nat)
    (old : FeatureSchema) (layout : SegmentLayout) (memory : Memory) (rows : Nat) :
    List FeatureField → Except TranslationError (List (String × ArrowColumn))
  | [] => .ok []
  | field :: rest => do
      let column ← translateField hashName castBits old layout memory rows field
      let others ← translateFields hashName castBits old layout memory rows rest
      return (field.name, column) :: others

/-- The id of a pool entry, with the bound check of `_read_string_bytes`. -/
def decodeEntry (layout : SegmentLayout) (memory : Memory) (idOffset : Nat) :
    Except TranslationError String :=
  let length := memory.readNat (layout.entryAddress idOffset) lenPrefixBytes
  if length > layout.maxIdBytes then .error (.corruptPoolEntry idOffset length layout.maxIdBytes)
  else
    match decodeUtf8 (memory.read (layout.entryAddress idOffset + lenPrefixBytes) length) with
    | none => .error .invalidUtf8
    | some entityId => .ok entityId

def decodeEntries (layout : SegmentLayout) (memory : Memory) :
    List Nat → Except TranslationError (List String)
  | [] => .ok []
  | idOffset :: rest => do
      let entityId ← decodeEntry layout memory idOffset
      let others ← decodeEntries layout memory rest
      return entityId :: others

/-- The ids of the occupied slots, ordered by their row indices. -/
def translateIds (layout : SegmentLayout) (memory : Memory) (rows : Nat) :
    Except TranslationError (List String) :=
  if rows = 0 then .ok []
  else
    let occupied := (List.range layout.slotCapacity).filter fun index =>
      memory.readNat (layout.slotField index slotFlagsOffset) 4 = flagOccupied
    if occupied.length ≠ rows then .error (.inconsistent rows occupied.length)
    else
      let order := occupied.mergeSort fun first second =>
        decide (memory.readNat (layout.slotField first slotFeatureRowIndexOffset) 4 ≤
          memory.readNat (layout.slotField second slotFeatureRowIndexOffset) 4)
      decodeEntries layout memory
        (order.map fun index => memory.readNat (layout.slotField index slotIdOffsetOffset) 8)

/-- The table that carries the rows of the old segment into the new one. -/
def buildTranslationTable (hashName : String → UInt64) (castBits : DType → DType → Nat → Nat)
    (stringArray : List String → Option StringArray) (old new : FeatureSchema)
    (layout : SegmentLayout) (memory : Memory) : Except TranslationError ArrowTable := do
  let rows := memory.readNat metadataOffset 8
  let columns ← translateFields hashName castBits old layout memory rows new.fields
  let entityIds ← translateIds layout memory rows
  match stringArray entityIds with
  | none => .error .stringArray
  | some array =>
      -- A field with the name of the id column replaces it, as in the source's dictionary.
      return ⟨rows, columns ++ [("entity_id", .texts array)]⟩

end Quorin
