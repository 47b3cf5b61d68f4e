import Quorin.Proof.Evolution.TranslationColumns

namespace Quorin

open ByteMemory

/-- The table of the copy for the given ids. -/
def translatedTable (hashName : String → UInt64) (castBits : DType → DType → Nat → Nat)
    (old new : FeatureSchema) (layout : SegmentLayout) (memory : Memory) (ids : List String) :
    ArrowTable :=
  ⟨ids.length, (new.fields.map fun field =>
      (field.name, translatedColumn hashName castBits old layout memory ids.length field)) ++
    [("entity_id", .texts (StringArray.ofList ids))]⟩

/-- The buffers of that table for the new layout. -/
def translatedColumns (hashName : String → UInt64) (castBits : DType → DType → Nat → Nat)
    (hashId : List UInt8 → UInt64) (old new : FeatureSchema) (layout : SegmentLayout)
    (memory : Memory) (ids : List String) : InsertColumns where
  idHashes := ids.map fun entityId => hashId (encodeUtf8 entityId)
  idByteOffsets := prefixSums (ids.map fun entityId => (encodeUtf8 entityId).length)
  encodedIdsConcat := (ids.map encodeUtf8).flatten
  fieldByteOffsetsInRow := new.placed.map Prod.snd
  fieldByteCounts := new.placed.map fun entry => entry.1.byteCount
  fieldDataStarts := prefixSums (new.placed.map fun entry => entry.1.byteCount * ids.length)
  fieldData := (new.fields.map
    (translatedBuffer hashName castBits old layout memory ids.length)).flatten

section Lookup

variable {β : Type} {fields : List FeatureField}

/-- The column of a field is found by its name. -/
theorem lookup_columns (value : FeatureField → β) (rest : List (String × β))
    (distinct : (fields.map FeatureField.name).Nodup) {field : FeatureField}
    (member : field ∈ fields) :
    ((fields.map fun other => (other.name, value other)) ++ rest).lookup field.name =
      some (value field) := by
  induction fields with
  | nil => cases member
  | cons other others ih =>
      rw [List.map_cons, List.nodup_cons] at distinct
      rw [List.map_cons, List.cons_append, List.lookup_cons]
      rcases List.mem_cons.mp member with rfl | later
      · simp
      · have different : ¬ field.name == other.name := by
          intro same
          exact distinct.1 (List.mem_map.mpr ⟨field, later, by simpa using same⟩)
        simp only [different]
        exact ih distinct.2 later

/-- A name that no field has is found behind the columns of the fields. -/
theorem lookup_behind (value : FeatureField → β) (rest : List (String × β)) {name : String}
    (absent : ∀ field ∈ fields, field.name ≠ name) :
    ((fields.map fun other => (other.name, value other)) ++ rest).lookup name =
      rest.lookup name := by
  induction fields with
  | nil => rfl
  | cons other others ih =>
      have different : ¬ name == other.name := by
        intro same
        exact absent other List.mem_cons_self (eq_of_beq same).symm
      rw [List.map_cons, List.cons_append, List.lookup_cons]
      simp only [different]
      exact ih fun field later => absent field (List.mem_cons_of_mem _ later)

end Lookup

section Prepare

variable (hashName : String → UInt64) (castBits : DType → DType → Nat → Nat)
  (hashId : List UInt8 → UInt64) {old new : FeatureSchema} (layout : SegmentLayout)
  (memory : Memory) (ids : List String)

theorem StringArray.ofList_holds (texts : List String) : (StringArray.ofList texts).Holds texts := by
  refine ⟨List.take_of_length_le ?_, List.prefix_refl _⟩
  simp [StringArray.ofList, prefixSums]

/-- The table of the copy has the declared columns of the new schema. -/
theorem translatedTable_declared (accepted : Accepted old new)
    (noIdField : ∀ field ∈ new.fields, field.name ≠ "entity_id") :
    DeclaredTable new (translatedTable hashName castBits old new layout memory ids) ids
      (translatedElements hashName castBits old layout memory) := by
  refine ⟨translated_declared hashName castBits layout memory accepted ids.length, rfl, ?_,
    ⟨_, lookup_behind _ _ noIdField, StringArray.ofList_holds ids⟩, ?_⟩
  · intro field member
    have flat := (translated_depth accepted member).1
    omega
  · intro field member
    refine (lookup_columns _ _ new.namesDistinct member).trans ?_
    rw [translatedColumn, (translated_depth accepted member).2]

theorem prepareInsertColumns_translated (accepted : Accepted old new)
    (noIdField : ∀ field ∈ new.fields, field.name ≠ "entity_id") {newLayout : SegmentLayout}
    (assembly : newLayout.assemblyTable = computeAssemblyTable hashName new) :
    prepareInsertColumns hashId castBits
        (translatedTable hashName castBits old new layout memory ids) new newLayout =
      .ok (translatedColumns hashName castBits hashId old new layout memory ids) :=
  (translatedTable_declared hashName castBits layout memory ids accepted
    noIdField).prepareInsertColumns_eq hashName hashId castBits assembly
      (lookup_behind _ _ noIdField) (StringArray.ofList_holds ids)

/-- The write of a field of a row holds the translated cell at the place of the field. -/
theorem cellWrite_translated (accepted : Accepted old new) (newLayout : SegmentLayout) {row : Nat}
    (inside : row < ids.length) {field : Nat} (bound : field < new.placed.length) :
    cellWrite newLayout (translatedColumns hashName castBits hashId old new layout memory ids) row
        field =
      ⟨newLayout.rowAddress row + new.placed[field].2,
        translatedCell hashName castBits old layout memory new.placed[field].1 row⟩ :=
  (translated_declared hashName castBits layout memory accepted ids.length).cellWrite_eq hashId
    (ids.map encodeUtf8).flatten newLayout inside bound

/-- The translated buffers are sound for the new layout. -/
theorem translatedColumns_sound {newLayout : SegmentLayout}
    (table : computeRowOffsetTable hashName new = .ok newLayout.rowOffsetTable)
    (rowBytes : rowSize hashName new = .ok newLayout.rowSize) (distinct : ids.Nodup)
    (named : ∀ entityId ∈ ids, entityId ≠ "")
    (short : ∀ entityId ∈ ids, (encodeUtf8 entityId).length ≤ newLayout.maxIdBytes) :
    ColumnsSound hashId newLayout
      (translatedColumns hashName castBits hashId old new layout memory ids) ids :=
  declaredColumns_sound hashId table rowBytes (StringArray.ofList_holds ids) distinct named short

end Prepare

end Quorin
