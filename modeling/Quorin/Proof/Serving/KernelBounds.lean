import Quorin.Proof.Evolution.CheckedBulk
import Quorin.Proof.Serving.CheckedReads

namespace Quorin

open ByteMemory

/-- The entity ids of the table are a well-formed Arrow string array. -/
def ArrowTable.WellFormed (table : ArrowTable) : Prop :=
  ∀ array, table.columns.lookup "entity_id" = some (.texts array) → array.WellFormed table.length

/-- The memories of a new segment after inserts that may be cut off and after bulk inserts. -/
inductive Filled (hashId : List UInt8 → UInt64) (castBits : DType → DType → Nat → Nat)
    (schema : FeatureSchema) (layout : SegmentLayout) (header : List UInt8) : Memory → Prop
  | fresh : Filled hashId castBits schema layout header (freshSegment layout header)
  | insert {memory : Memory} (before : Filled hashId castBits schema layout header memory)
      (entityId : String) (rowData : List UInt8) (count : Nat) :
      Filled hashId castBits schema layout header
        (cutInsert hashId layout memory entityId rowData count)
  | insertMany {memory : Memory} (before : Filled hashId castBits schema layout header memory)
      {table : ArrowTable} (arrow : table.WellFormed) :
      Filled hashId castBits schema layout header
        ((Quorin.insertMany hashId castBits schema layout table).run memory).2

/-- The stored cursors bound every slot of a filled segment. -/
theorem Filled.within {hashName : String → UInt64} {hashId : List UInt8 → UInt64}
    {castBits : DType → DType → Nat → Nat} {schema : FeatureSchema} {capacity maxIdBytes : Int}
    {layout : SegmentLayout}
    (computed : computeLayout hashName schema capacity maxIdBytes = .ok layout)
    {header : List UInt8} (size : header.length = headerSize) {memory : Memory}
    (filled : Filled hashId castBits schema layout header memory) :
    WithinCursors layout memory := by
  have sound := computeLayout_sound computed
  induction filled with
  | fresh => exact freshSegment_within sound size
  | insert before entityId rowData count ih => exact ih.cutInsert sound hashId entityId rowData count
  | insertMany before arrow ih => exact (checkedInsertMany_ok computed ih arrow).2

/-- No check of an index, of a slice or of an alignment fails in the kernels. -/
theorem kernels_inBounds {externals : Externals} {schema : FeatureSchema}
    {capacity maxIdBytes : Int} {layout : SegmentLayout}
    (computed : computeLayout externals.hashName schema capacity maxIdBytes = .ok layout)
    {header : List UInt8} (packed : packHeader externals schema layout.capacity = some header)
    {memory : Memory}
    (filled : Filled externals.hashId externals.castBits schema layout header memory) :
    (∀ entityId, checkedLookupJit layout (layout.buffer memory) externals.hashId entityId =
      .ok ((lookupJit externals.hashId layout entityId).result memory)) ∧
    (∀ (F : Type) (toFloat32 : DType → List UInt8 → F) (undefined : Nat → F) (entityId : String)
        (out : Option (OutVector F)),
      checkedAssemble toFloat32 (layout.buffer memory) externals.hashId layout undefined entityId
          out =
        .ok (assemble toFloat32 memory externals.hashId layout undefined entityId out)) ∧
    (∀ (F : Type) (toFloat32 : DType → List UInt8 → F) (zero : F) (undefined : Nat → Nat → F)
        (unknown : Nat → Bool) (parallelThreshold : Nat) (order : List Nat)
        (entityIds : List String) (out : Option (OutMatrix F)) (foundMask : Option OutMask),
      (∀ entry ∈ order, entry < entityIds.length) →
      checkedAssembleBatch toFloat32 zero (layout.buffer memory) layout externals.hashId undefined
          unknown parallelThreshold order entityIds out foundMask =
        .ok (assembleBatch toFloat32 zero memory layout externals.hashId undefined unknown
          parallelThreshold order entityIds out foundMask)) ∧
    ∀ table : ArrowTable, table.WellFormed →
      checkedInsertMany layout externals.hashId externals.castBits schema (layout.buffer memory)
          table =
        .ok ((insertMany externals.hashId externals.castBits schema layout table).run memory) := by
  have kernel := computeLayout_kernel computed
  have within := filled.within computed (packHeader_capacity packed).1
  refine ⟨?_, ?_, ?_, ?_⟩
  · exact checkedLookupJit_ok kernel within externals.hashId
  · intro F toFloat32 undefined entityId out
    exact checkedAssemble_ok toFloat32 kernel within externals.hashId undefined entityId out
  · intro F toFloat32 zero undefined unknown parallelThreshold order entityIds out foundMask inside
    exact checkedAssembleBatch_ok toFloat32 zero kernel within externals.hashId undefined unknown
      parallelThreshold inside out foundMask
  · intro table arrow
    exact (checkedInsertMany_ok computed within arrow).1

/-- A table of one row for the sample schema. -/
def sampleTable : ArrowTable where
  length := 1
  columns := [("entity_id", .texts ⟨[0, 1], [98]⟩), ("score", .values 0 .float32 [[[0, 0, 128, 63]]])]

theorem sampleTable_wellFormed : sampleTable.WellFormed := by
  intro array found
  obtain rfl : (⟨[0, 1], [98]⟩ : StringArray) = array := by simpa [sampleTable] using found
  constructor
  · decide
  · decide
  · decide

/-- The bulk insert into the sample segment stays in bounds, and so do the reads behind it. -/
theorem kernels_inBounds_sample :
    ∃ header, packHeader sampleExternals sampleSchema sampleLayout.capacity = some header ∧
      checkedInsertMany sampleLayout sampleExternals.hashId sampleExternals.castBits sampleSchema
          (sampleLayout.buffer (freshSegment sampleLayout header)) sampleTable =
        .ok ((insertMany sampleExternals.hashId sampleExternals.castBits sampleSchema sampleLayout
          sampleTable).run (freshSegment sampleLayout header)) ∧
      ∀ memory, memory = ((insertMany sampleExternals.hashId sampleExternals.castBits sampleSchema
          sampleLayout sampleTable).run (freshSegment sampleLayout header)).2 →
        checkedLookupJit sampleLayout (sampleLayout.buffer memory) sampleExternals.hashId "b" =
            .ok ((lookupJit sampleExternals.hashId sampleLayout "b").result memory) ∧
          checkedAssembleBatch (fun _ bytes => bytes) [] (sampleLayout.buffer memory) sampleLayout
              sampleExternals.hashId (fun _ _ => []) (fun _ => false) 2 [1, 0] ["a", "b"] none none =
            .ok (assembleBatch (fun _ bytes => bytes) [] memory sampleLayout sampleExternals.hashId
              (fun _ _ => []) (fun _ => false) 2 [1, 0] ["a", "b"] none none) := by
  have computed : computeLayout sampleExternals.hashName sampleSchema 2 8 = .ok sampleLayout :=
    computeLayout_sample_of_hash rfl
  obtain ⟨header, packed⟩ := packHeader_sample
  obtain ⟨_, _, _, inserts⟩ := kernels_inBounds computed packed .fresh
  refine ⟨header, packed, inserts _ sampleTable_wellFormed, ?_⟩
  intro memory reached
  rw [reached]
  obtain ⟨lookups, _, batches, _⟩ :=
    kernels_inBounds computed packed (.insertMany .fresh sampleTable_wellFormed)
  exact ⟨lookups "b", batches _ _ _ _ _ 2 [1, 0] ["a", "b"] none none (by decide)⟩

end Quorin
