import Mathlib.Algebra.BigOperators.Group.Finset.Basic
import Quorin.Proof.Evolution.CopiedRows

namespace Quorin

open ByteMemory

/-- The bytes of the given ids behind one another. -/
def idBytes (ids : List String) : Nat := (ids.map fun entityId => (encodeUtf8 entityId).length).sum

/-- An Arrow string array has offsets of 31 bits. -/
def ArrowStrings (stringArray : List String → Option StringArray) : Prop :=
  ∀ ids, stringArray ids = if idBytes ids < 2 ^ 31 then some (.ofList ids) else none

section Soundness

variable {hashName : String → UInt64} {stringArray : List String → Option StringArray}
  {castBits : DType → DType → Nat → Nat} {hashId : List UInt8 → UInt64}
  {old new : FeatureSchema} {oldLayout newLayout : SegmentLayout} {header : List UInt8}

theorem ArrowStrings.whole (strings : ArrowStrings stringArray) (ids : List String)
    (array : StringArray) (held : stringArray ids = some array) : array = .ofList ids := by
  rw [strings ids] at held
  split at held
  · exact (Option.some.inj held).symm
  · cases held

theorem ArrowStrings.fits (strings : ArrowStrings stringArray) {ids : List String} :
    stringArray ids ≠ none ↔ idBytes ids < 2 ^ 31 := by
  rw [strings ids]
  split
  · rename_i small
    exact ⟨fun _ => small, fun _ => Option.some_ne_none _⟩
  · rename_i large
    exact ⟨fun held => absurd rfl held, fun small => absurd small large⟩

/-- The ids of the rows are the present ids. -/
theorem rowIds_present {history : SegmentHistory} (refined : history.Refined hashId oldLayout) :
    (rowIds oldLayout history.memory).Nodup ∧
      (rowIds oldLayout history.memory).toFinset = presentIds history.log := by
  obtain ⟨distinct, members⟩ := rowIds_spec refined.consistent
  refine ⟨distinct, ?_⟩
  ext entityId
  rw [List.mem_toFinset, members, refined.accounted.1]
  rfl

theorem rowIds_card {history : SegmentHistory} (refined : history.Refined hashId oldLayout) :
    (rowIds oldLayout history.memory).length = (presentIds history.log).card := by
  obtain ⟨distinct, same⟩ := rowIds_present refined
  rw [← same, List.toFinset_card_of_nodup distinct]

theorem rowIds_bytes {history : SegmentHistory} (refined : history.Refined hashId oldLayout) :
    idBytes (rowIds oldLayout history.memory) =
      ∑ entityId ∈ presentIds history.log, (encodeUtf8 entityId).length := by
  obtain ⟨distinct, same⟩ := rowIds_present refined
  rw [← same, List.sum_toFinset _ distinct]
  rfl

/-- A copy that returned found no field in the place of the id column, unless it had no row. -/
theorem noIdField_of_copied {history : SegmentHistory} (refined : history.Refined hashId oldLayout)
    (oldTable : computeRowOffsetTable hashName old = .ok oldLayout.rowOffsetTable)
    (strings : ArrowStrings stringArray) {table : ArrowTable} {memory : Memory} {count : Nat}
    (built : buildTranslationTable hashName castBits stringArray old new oldLayout history.memory =
      .ok table)
    (loaded : (insertMany hashId castBits new newLayout table).result memory = .ok count)
    (some : presentIds history.log ≠ ∅) : ∀ field ∈ new.fields, field.name ≠ "entity_id" := by
  obtain ⟨_, rfl, _⟩ := buildTranslationTable_ok refined oldTable strings.whole built
  have rows : (rowIds oldLayout history.memory).length ≠ 0 := by
    rw [rowIds_card refined]
    exact Finset.card_ne_zero.mpr (Finset.nonempty_iff_ne_empty.mpr some)
  obtain ⟨_, columns, prepared⟩ := insertMany_ok loaded rows
  exact noIdField_of_prepared prepared

end Soundness

/-- The copy of an accepted upgrade returns exactly when no field takes the place of the id column. -/
theorem copy_returns_iff {hashName : String → UInt64} {old new : FeatureSchema}
    {capacity newCapacity maxIdBytes : Int} {oldLayout newLayout : SegmentLayout}
    {oldHeader newHeader : List UInt8} {stringArray : List String → Option StringArray}
    (castBits : DType → DType → Nat → Nat) (hashId : List UInt8 → UInt64)
    (requests : List InsertRequest)
    (accepted : (canUpgrade old new).1 = true)
    (computedOld : computeLayout hashName old capacity maxIdBytes = .ok oldLayout)
    (computedNew : computeLayout hashName new newCapacity maxIdBytes = .ok newLayout)
    (oldHeaderLength : oldHeader.length = headerSize)
    (newHeaderLength : newHeader.length = headerSize)
    (room : ((presentIds (runInserts hashId oldLayout oldHeader requests).log).card : Int) + 1 ≤
      newCapacity)
    (strings : ArrowStrings stringArray) :
    let history := runInserts hashId oldLayout oldHeader requests
    (∃ table after,
      buildTranslationTable hashName castBits stringArray old new oldLayout history.memory =
        .ok table ∧
      (insertMany hashId castBits new newLayout table).run (freshSegment newLayout newHeader) =
        (.ok (presentIds history.log).card, after)) ↔
      presentIds history.log = ∅ ∨
        (∀ field ∈ new.fields, field.name ≠ "entity_id") ∧
          ∑ entityId ∈ presentIds history.log, (encodeUtf8 entityId).length < 2 ^ 31 := by
  intro history
  have oldSound := computeLayout_sound computedOld
  obtain ⟨oldTable, _, _, _, _, oldMaxIdBytes⟩ := computeLayout_parts computedOld
  obtain ⟨_, _, _, _, newRoom, newMaxIdBytes⟩ := computeLayout_parts computedNew
  have refined : history.Refined hashId oldLayout := by
    rw [show history = _ from runInserts_eq hashId oldHeader requests]
    exact runCalls_refined hashId oldSound oldHeaderLength _
  have noLost : history.lost = 0 := runInserts_lost hashId oldHeader requests
  have full : (occupiedSlots oldLayout history.memory).length = nextFreeRow history.memory := by
    have occupied := refined.occupied_lost
    omega
  have idCount := rowIds_card refined
  have idSize := rowIds_bytes refined
  constructor
  · rintro ⟨table, after, built, loaded⟩
    rcases eq_or_ne (presentIds history.log) ∅ with none | some
    · exact Or.inl none
    · refine Or.inr ⟨noIdField_of_copied refined oldTable strings built (Prod.mk.inj loaded).1 some, ?_⟩
      rw [← idSize]
      exact strings.fits.mp (buildTranslationTable_ok refined oldTable strings.whole built).2.2
  · intro condition
    have small : idBytes (rowIds oldLayout history.memory) < 2 ^ 31 := by
      rw [idSize]
      rcases condition with none | ⟨_, small⟩
      · simp [none]
      · exact small
    have array : stringArray (rowIds oldLayout history.memory) =
        some (.ofList (rowIds oldLayout history.memory)) := by
      rw [strings, if_pos small]
    have built := @buildTranslationTable_eq hashName castBits stringArray hashId old new oldLayout
      history.memory refined.consistent oldTable full array
    rw [← idCount]
    rcases condition with none | ⟨noIdField, _⟩
    · have empty : (rowIds oldLayout history.memory).length = 0 := by
        rw [idCount, none, Finset.card_empty]
      refine ⟨_, freshSegment newLayout newHeader, built, ?_⟩
      rw [insertMany_empty hashId castBits new newLayout empty, empty]
    · have enough : ((presentIds history.log).card : Int) + 1 ≤ newCapacity := room
      obtain ⟨after, run, _⟩ := @translatedTable_copied hashName castBits hashId old new oldLayout
        newLayout history.memory newHeader newCapacity maxIdBytes oldSound refined.consistent
        (canUpgrade_accepted accepted) noIdField oldTable computedNew (by omega) full (by omega)
        newHeaderLength
      exact ⟨_, after, built, run⟩

/-- The string arrays of the samples. -/
def sampleStrings (ids : List String) : Option StringArray :=
  if idBytes ids < 2 ^ 31 then some (.ofList ids) else none

/-- Two inserted rows of the sample schema are copied into its upgrade. -/
theorem copy_returns_iff_sample :
    let history := runInserts (fun _ => 0) sampleLayout (List.replicate 16 0) sampleRows
    ∃ table after,
      buildTranslationTable sampleHash sampleCast sampleStrings sampleSchema sampleUpgrade
        sampleLayout history.memory = .ok table ∧
      (insertMany (fun _ => 0) sampleCast sampleUpgrade sampleRoomyLayout table).run
        (freshSegment sampleRoomyLayout (List.replicate 16 0)) =
          (.ok (presentIds history.log).card, after) := by
  intro history
  have present : presentIds history.log = {"b", "a"} := sampleRows_present
  refine (copy_returns_iff sampleCast (fun _ => 0) sampleRows
    (show (canUpgrade sampleSchema sampleUpgrade).1 = true by decide)
    (computeLayout_sample_of_hash rfl) computeLayout_sampleRoomy
    (show (List.replicate 16 (0 : UInt8)).length = headerSize from rfl)
    (show (List.replicate 16 (0 : UInt8)).length = headerSize from rfl) ?_
    (fun _ => show sampleStrings _ = _ from rfl)).mpr (Or.inr ⟨by decide, ?_⟩)
  · change ((presentIds history.log).card : Int) + 1 ≤ 3
    rw [present]
    decide
  · change ∑ entityId ∈ presentIds history.log, (encodeUtf8 entityId).length < 2 ^ 31
    rw [present]
    decide

theorem entityId_named : "entity_id" ≠ "" := by decide

/-- The sample schema with a new field under the name of the id column. -/
def sampleShadowing : FeatureSchema where
  className := "Sample"
  version := 2
  fields := [⟨"score", .float32, [], score_named, scalar_dimensions, scalar_elements, scalar_bytes .float32⟩,
    ⟨"entity_id", .float32, [], entityId_named, scalar_dimensions, scalar_elements, scalar_bytes .float32⟩]
  fieldsNonempty := by decide
  namesDistinct := by decide

/-- The layout of the shadowing sample schema. -/
def sampleShadowingLayout : SegmentLayout :=
  layoutOf 2 8 128 [⟨0, 0, .float32, 1, 4⟩, ⟨1, 64, .float32, 1, 4⟩]
    [⟨0, 0, .float32, 1, 4⟩, ⟨1, 64, .float32, 1, 4⟩] 2

theorem computeLayout_sampleShadowing :
    computeLayout sampleHash sampleShadowing 2 8 = .ok sampleShadowingLayout := by
  have table : compileSchema sampleHash sampleShadowing =
      .ok [⟨0, 64, .float32, 1, 4⟩, ⟨1, 128, .float32, 1, 4⟩] := by
    simp [compileSchema, sampleShadowing, offsetRows, fieldByteOffsets, alignUp, headerSize,
      sampleHash, cacheLineSize, FeatureField.byteCount, FeatureField.elementCount, elementProduct,
      List.mergeSort, List.MergeSort.Internal.splitInTwo, DType.byteSize]
  have relative : computeRowOffsetTable sampleHash sampleShadowing =
      .ok [⟨0, 0, .float32, 1, 4⟩, ⟨1, 64, .float32, 1, 4⟩] := by
    rw [computeRowOffsetTable, table]
    rfl
  have rows : rowSize sampleHash sampleShadowing = .ok 128 := by
    rw [rowSize, relative]
    rfl
  rw [computeLayout, rows, relative]
  rfl

/-- An accepted upgrade whose new field takes the place of the id column fails in its copy. -/
theorem copy_blocked :
    let history := runInserts (fun _ => 0) sampleLayout (List.replicate 16 0)
      [⟨"a", List.replicate 64 1⟩]
    (canUpgrade sampleSchema sampleShadowing).1 = true ∧
      computeLayout sampleHash sampleSchema 2 8 = .ok sampleLayout ∧
      computeLayout sampleHash sampleShadowing 2 8 = .ok sampleShadowingLayout ∧
      ((presentIds history.log).card : Int) + 1 ≤ 2 ∧
      ¬ ∃ table after,
        buildTranslationTable sampleHash (fun _ _ bits => bits) sampleStrings sampleSchema
          sampleShadowing sampleLayout history.memory = .ok table ∧
        (insertMany (fun _ => 0) (fun _ _ bits => bits) sampleShadowing sampleShadowingLayout table).run
          (freshSegment sampleShadowingLayout (List.replicate 16 0)) =
            (.ok (presentIds history.log).card, after) := by
  intro history
  have computed : computeLayout sampleHash sampleSchema 2 8 = .ok sampleLayout :=
    computeLayout_sample_of_hash rfl
  have sound := computeLayout_sound computed
  obtain ⟨oldTable, _⟩ := computeLayout_parts computed
  have refined : history.Refined (fun _ => 0) sampleLayout := by
    rw [show history = _ from runInserts_eq (fun _ => 0) (List.replicate 16 0) _]
    exact runCalls_refined (fun _ => 0) sound rfl _
  have logged : history.log = [⟨"a", List.replicate 64 1⟩] :=
    runInserts_logged (fun _ => 0) sound rfl
      (List.forall_mem_singleton.mpr ⟨by decide, rfl, by decide⟩) (by decide)
  have present : presentIds history.log = {"a"} := by
    rw [logged]
    rfl
  refine ⟨by decide, computed, computeLayout_sampleShadowing, by rw [present]; decide, ?_⟩
  rintro ⟨table, after, built, loaded⟩
  have named := noIdField_of_copied refined oldTable
    (fun _ => show sampleStrings _ = _ from rfl) built (Prod.mk.inj loaded).1
    (by rw [present]; exact Finset.singleton_ne_empty "a")
  revert named
  decide

end Quorin
