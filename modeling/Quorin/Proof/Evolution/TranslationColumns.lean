import Quorin.Proof.Evolution.DeclaredTable

namespace Quorin

open ByteMemory

/-- A field is found by its name, because the names of a schema are distinct. -/
theorem byName_of_mem {schema : FeatureSchema} {field : FeatureField}
    (member : field ∈ schema.fields) : schema.byName field.name = some field := by
  cases found : schema.byName field.name with
  | none =>
      have missing := List.find?_eq_none.mp found field member
      simp at missing
  | some other =>
      have sameName : other.name = field.name := by simpa using List.find?_some found
      rw [List.inj_on_of_nodup_map schema.namesDistinct (List.mem_of_find?_eq_some found) member
        sameName]

theorem byName_some {schema : FeatureSchema} {name : String} {field : FeatureField}
    (found : schema.byName name = some field) : field ∈ schema.fields ∧ field.name = name :=
  ⟨List.mem_of_find?_eq_some found, by simpa using List.find?_some found⟩

/-- What an accepted upgrade guarantees about the fields of both schemas. -/
structure Accepted (old new : FeatureSchema) : Prop where
  kept : ∀ oldField ∈ old.fields, ∃ field, new.byName oldField.name = some field ∧
    field.shape = oldField.shape ∧ oldField.dtype.widensTo field.dtype = true ∧
    field.shape.length ≤ 1
  added : ∀ field ∈ new.fields, old.byName field.name = none → field.shape.length ≤ 1

theorem canUpgrade_accepted {old new : FeatureSchema} (accepted : (canUpgrade old new).1 = true) :
    Accepted old new := by
  simp only [canUpgrade, List.isEmpty_iff, List.append_eq_nil_iff] at accepted
  obtain ⟨⟨⟨⟨_, noneRemoved⟩, keptReasons⟩, keptFlat⟩, newFlat⟩ := accepted
  constructor
  · intro oldField member
    cases found : new.byName oldField.name with
    | none =>
        have removed : oldField.name ∈ (old.fields.map FeatureField.name).filter fun name =>
            (new.byName name).isNone :=
          List.mem_filter.mpr ⟨List.mem_map_of_mem member, by rw [found]; rfl⟩
        split at noneRemoved
        · cases noneRemoved
        · rename_i empty
          rw [not_not.mp empty] at removed
          cases removed
    | some field =>
        have reasons := List.flatMap_eq_nil_iff.mp keptReasons oldField member
        rw [keptFieldReasons, found] at reasons
        obtain ⟨sameShape, widening⟩ := List.append_eq_nil_iff.mp reasons
        have flat := List.filter_eq_nil_iff.mp (List.map_eq_nil_iff.mp keptFlat) oldField member
        rw [found] at flat
        simp only [decide_eq_true_eq, not_or, Nat.not_le] at flat
        refine ⟨field, rfl, ?_, ?_, by omega⟩
        · by_contra different
          rw [if_pos (Ne.symm different)] at sameShape
          cases sameShape
        · by_contra refused
          rw [if_neg refused] at widening
          cases widening
  · intro field member missing
    have flat := List.filter_eq_nil_iff.mp (List.map_eq_nil_iff.mp newFlat) field member
    rw [missing] at flat
    simp only [Option.isNone_none, Bool.true_and, decide_eq_true_eq, Nat.not_le] at flat
    omega

/-- A widening cast returns an element of the target type. -/
theorem astype_length (castBits : DType → DType → Nat → Nat) {source target : DType}
    (widens : source.widensTo target = true) {element : List UInt8}
    (size : element.length = source.byteSize) :
    (astype castBits source target element).length = target.byteSize := by
  cases source <;> cases target <;>
    first
      | exact absurd widens (by decide)
      | (simp only [astype, leBytes_length, if_true]; exact size)
      | (simp [astype, DType.byteSize])

section Columns

variable (hashName : String → UInt64) (castBits : DType → DType → Nat → Nat)
  {old new : FeatureSchema} (layout : SegmentLayout) (memory : Memory)

/-- The elements that the copy computes for one field of one row. -/
def translatedElements (hashName : String → UInt64) (castBits : DType → DType → Nat → Nat)
    (old : FeatureSchema) (layout : SegmentLayout) (memory : Memory) (field : FeatureField)
    (row : Nat) : List (List UInt8) :=
  match old.byName field.name with
  | none => zeroElements field
  | some oldField =>
      let offset := (rowByteOffset hashName layout.rowOffsetTable oldField.name).getD 0
      let elements := (fieldElements layout memory row offset oldField).map
        (astype castBits oldField.dtype field.dtype)
      if field.shape = [] then elements.take 1 else elements

/-- The column that the copy computes for one field. -/
def translatedColumn (hashName : String → UInt64) (castBits : DType → DType → Nat → Nat)
    (old : FeatureSchema) (layout : SegmentLayout) (memory : Memory) (rows : Nat)
    (field : FeatureField) : ArrowColumn :=
  .values (if field.shape = [] then 0 else 1) field.dtype
    ((List.range rows).map (translatedElements hashName castBits old layout memory field))

/-- Every field of the old schema has its place in the old row. -/
theorem placed_of_mem {schema : FeatureSchema} {field : FeatureField}
    (member : field ∈ schema.fields) : ∃ offset, (field, offset) ∈ schema.placed := by
  obtain ⟨index, inside, rfl⟩ := List.getElem_of_mem member
  have offsetInside : index < (fieldByteOffsets schema.fields 0).length := by
    rwa [fieldByteOffsets_length]
  refine ⟨(fieldByteOffsets schema.fields 0)[index], ?_⟩
  rw [FeatureSchema.placed, ← List.getElem_zip (h := by simpa using inside)]
  exact List.getElem_mem _

theorem translateField_eq
    (computed : computeRowOffsetTable hashName old = .ok layout.rowOffsetTable) (rows : Nat)
    (field : FeatureField) :
    translateField hashName castBits old layout memory rows field =
      .ok (translatedColumn hashName castBits old layout memory rows field) := by
  unfold translateField translatedColumn translatedElements
  cases found : old.byName field.name with
  | none => rfl
  | some oldField =>
      obtain ⟨offset, place⟩ := placed_of_mem (byName_some found).1
      have located : rowByteOffset hashName layout.rowOffsetTable oldField.name = some offset :=
        rowByteOffset_placed computed place
      simp only [located, Option.getD_some]

theorem translateFields_eq
    (computed : computeRowOffsetTable hashName old = .ok layout.rowOffsetTable) (rows : Nat)
    (fields : List FeatureField) :
    translateFields hashName castBits old layout memory rows fields =
      .ok (fields.map fun field =>
        (field.name, translatedColumn hashName castBits old layout memory rows field)) := by
  induction fields with
  | nil => rfl
  | cons field rest ih =>
      rw [translateFields, translateField_eq hashName castBits layout memory computed, ih]
      rfl

/-- A scalar has one element. -/
theorem elementCount_scalar {field : FeatureField} (scalar : field.shape = []) :
    field.elementCount = 1 := by
  rw [FeatureField.elementCount, scalar]
  rfl

/-- The copy computes as many elements as the field has, each of the size of its type. -/
theorem translatedElements_size (accepted : Accepted old new) {field : FeatureField}
    (member : field ∈ new.fields) (row : Nat) :
    (translatedElements hashName castBits old layout memory field row).length =
        field.elementCount ∧
      ∀ element ∈ translatedElements hashName castBits old layout memory field row,
        element.length = field.dtype.byteSize := by
  unfold translatedElements
  cases found : old.byName field.name with
  | none =>
      dsimp only
      unfold zeroElements
      refine ⟨?_, ?_⟩
      · rw [List.length_replicate]
        split
        · rename_i scalar
          rw [elementCount_scalar scalar]
        · rfl
      · intro element inside
        rw [List.eq_of_mem_replicate inside, List.length_replicate]
  | some oldField =>
      obtain ⟨oldMember, sameName⟩ := byName_some found
      obtain ⟨newField, newFound, sameShape, widens, _⟩ := accepted.kept oldField oldMember
      rw [sameName, byName_of_mem member] at newFound
      obtain rfl := Option.some.inj newFound
      have sameCount : oldField.elementCount = field.elementCount := by
        rw [FeatureField.elementCount, FeatureField.elementCount, sameShape]
      have sizes : ∀ element ∈ (fieldElements layout memory row ((rowByteOffset hashName
          layout.rowOffsetTable oldField.name).getD 0) oldField).map
            (astype castBits oldField.dtype field.dtype), element.length = field.dtype.byteSize := by
        intro element inside
        obtain ⟨before, beforeInside, rfl⟩ := List.mem_map.mp inside
        obtain ⟨index, _, rfl⟩ := List.mem_map.mp beforeInside
        exact astype_length castBits widens (Memory.read_length _ _ _)
      dsimp only
      split
      · rename_i scalar
        refine ⟨?_, fun element inside => sizes element (List.mem_of_mem_take inside)⟩
        rw [List.length_take, List.length_map, fieldElements, List.length_map, List.length_range,
          sameCount, elementCount_scalar scalar]
        rfl
      · refine ⟨?_, sizes⟩
        rw [List.length_map, fieldElements, List.length_map, List.length_range, sameCount]

/-- The bytes that the copy computes for one field of one row. -/
def translatedCell (hashName : String → UInt64) (castBits : DType → DType → Nat → Nat)
    (old : FeatureSchema) (layout : SegmentLayout) (memory : Memory) (field : FeatureField)
    (row : Nat) : List UInt8 :=
  (translatedElements hashName castBits old layout memory field row).flatten

theorem translated_declared (accepted : Accepted old new) (rows : Nat) :
    DeclaredCells new rows (translatedElements hashName castBits old layout memory) :=
  ⟨fun _ member row _ =>
      (translatedElements_size hashName castBits layout memory accepted member row).1,
    fun _ member row _ =>
      (translatedElements_size hashName castBits layout memory accepted member row).2⟩

theorem translatedCell_length (accepted : Accepted old new) {field : FeatureField}
    (member : field ∈ new.fields) (row : Nat) :
    (translatedCell hashName castBits old layout memory field row).length = field.byteCount :=
  (translated_declared hashName castBits layout memory accepted
    (List.replicate (row + 1) "").length).cell_length member (by simp)

/-- The flat buffer of one field holds its cells row by row. -/
def translatedBuffer (hashName : String → UInt64) (castBits : DType → DType → Nat → Nat)
    (old : FeatureSchema) (layout : SegmentLayout) (memory : Memory) (rows : Nat)
    (field : FeatureField) : List UInt8 :=
  ((List.range rows).map (translatedCell hashName castBits old layout memory field)).flatten

/-- An accepted field has at most one list level, as its translated column does. -/
theorem translated_depth (accepted : Accepted old new) {field : FeatureField}
    (member : field ∈ new.fields) :
    field.shape.length ≤ 1 ∧ (if field.shape = [] then 0 else 1) = field.shape.length := by
  have flat : field.shape.length ≤ 1 := by
    cases found : old.byName field.name with
    | none => exact accepted.added field member found
    | some oldField =>
        obtain ⟨oldMember, sameName⟩ := byName_some found
        obtain ⟨newField, newFound, _, _, bound⟩ := accepted.kept oldField oldMember
        rw [sameName, byName_of_mem member] at newFound
        obtain rfl := Option.some.inj newFound
        exact bound
  refine ⟨flat, ?_⟩
  split
  · rename_i scalar
    rw [scalar]
    rfl
  · rename_i shaped
    have positive := List.length_pos_of_ne_nil shaped
    omega

end Columns

end Quorin
