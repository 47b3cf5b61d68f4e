import Quorin.Construction.InsertMany

namespace Quorin

open ByteMemory

/-- This is `HEADER_LEN`. -/
def headerLength : Nat := 16

def magic : List UInt8 := [0x50, 0x59, 0x46, 0x47]

/-- The failures of the checks of a stored header, in their order. -/
inductive HeaderError where
  | tooShort (needed length : Nat)
  | badMagic (stored : List UInt8)
  | versionMismatch (stored : Nat) (version : Int)
  | schema (error : SchemaError)
  | crcMismatch (stored expected : Nat)
  | zeroCapacity
  | zeroMaxIdBytes
  | layout (error : LayoutError)
  deriving DecidableEq

/-- The call `struct.unpack_from("<I", buf, offset)` raises behind the end of the buffer. -/
def unpackUInt32 (buf : List UInt8) (offset : Nat) : Except HeaderError Nat :=
  if offset + 4 ≤ buf.length then .ok (leNat (slice buf offset 4))
  else .error (.tooShort (offset + 4) buf.length)

section Header

variable (hashName : String → UInt64) (crc32 : List OffsetRow → UInt32)

/-- The function `SegmentRegistry._verify_header` on the bytes of a mapping. -/
def verifyHeaderBytes (buf : List UInt8) (schema : FeatureSchema) : Except HeaderError Unit :=
  if buf.length < headerLength then .error (.tooShort headerLength buf.length)
  else if slice buf 0 4 ≠ magic then .error (.badMagic (slice buf 0 4))
  else if (leNat (slice buf 4 4) : Int) ≠ schema.version then
    .error (.versionMismatch (leNat (slice buf 4 4)) schema.version)
  else
    match compileSchema hashName schema with
    | .error error => .error (.schema error)
    | .ok table =>
        if leNat (slice buf 8 4) ≠ (crc32 table).toNat then
          .error (.crcMismatch (leNat (slice buf 8 4)) (crc32 table).toNat)
        else .ok ()

/-- The address of the header of the string pool, from the capacity alone. -/
def stringPoolOffsetOf (capacity : Nat) : Nat :=
  alignUp (dataRegionOffset + nextPow2 (capacity * 2) * slotBytes) cacheLineSize

/-- The layout of an existing segment, from two words of its bytes. -/
def computeLayoutFromSegment (buf : List UInt8) (schema : FeatureSchema) :
    Except HeaderError SegmentLayout := do
  let capacity ← unpackUInt32 buf 12
  if capacity = 0 then .error .zeroCapacity
  else
    let maxIdBytes ← unpackUInt32 buf (stringPoolOffsetOf capacity)
    if maxIdBytes = 0 then .error .zeroMaxIdBytes
    else
      match computeLayout hashName schema capacity maxIdBytes with
      | .error error => .error (.layout error)
      | .ok layout => .ok layout

end Header

/-- The memories of a new segment after any calls of `insert` and `insert_many`, each of which may
end after any number of its writes. -/
inductive Inserted (hashId : List UInt8 → UInt64) (castBits : DType → DType → Nat → Nat)
    (schema : FeatureSchema) (layout : SegmentLayout) (header : List UInt8) : Memory → Prop
  | fresh : Inserted hashId castBits schema layout header (freshSegment layout header)
  | insert {memory : Memory} (before : Inserted hashId castBits schema layout header memory)
      (entityId : String) (rowData : List UInt8) (count : Nat) :
      Inserted hashId castBits schema layout header
        (cutInsert hashId layout memory entityId rowData count)
  | insertMany {memory : Memory} (before : Inserted hashId castBits schema layout header memory)
      (table : ArrowTable) (count : Nat) :
      Inserted hashId castBits schema layout header
        (memory.applyAll
          (((Quorin.insertMany hashId castBits schema layout table).writes memory).take count))

end Quorin
