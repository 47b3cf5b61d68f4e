import Quorin.Proof.Evolution.Migration

namespace Quorin

open ByteMemory

section Carried

variable (hashName : String → UInt64) (castBits : DType → DType → Nat → Nat)
  (old new : FeatureSchema) (layout : SegmentLayout) (memory : Memory)

/-- The values that a field of the new schema takes from the old row at an address. -/
def carriedValues (field : FeatureField) (address : Nat) : List (List UInt8) :=
  match old.byName field.name with
  | none => zeroElements field
  | some oldField =>
      let offset := (rowByteOffset hashName layout.rowOffsetTable oldField.name).getD 0
      (List.range oldField.elementCount).map fun element =>
        astype castBits oldField.dtype field.dtype
          (memory.read (address + offset + element * oldField.dtype.byteSize)
            oldField.dtype.byteSize)

/-- The table has one row for each of the given entities, with the values of its own row. -/
structure CarriesRows (hashId : List UInt8 → UInt64) (table : ArrowTable) (ids : List String) :
    Prop where
  length : table.length = ids.length
  entityIds : (∀ field ∈ new.fields, field.name ≠ "entity_id") →
    table.columns.lookup "entity_id" = some (.texts (StringArray.ofList ids))
  values : ∀ field ∈ new.fields, ∃ depth rows,
    table.columns.lookup field.name = some (.values depth field.dtype rows) ∧
    rows.length = ids.length ∧
    ∀ entityId ∈ ids, ∃ row address : Nat, ids[row]? = some entityId ∧
      (lookup hashId layout entityId).result memory = .ok (some address) ∧
      rows[row]? = some (carriedValues hashName castBits old layout memory field address)

end Carried

section Translation

variable {hashName : String → UInt64} {castBits : DType → DType → Nat → Nat}
  {stringArray : List String → Option StringArray} {hashId : List UInt8 → UInt64}
  {old new : FeatureSchema} {oldLayout : SegmentLayout} {before : Memory}

/-- The translated elements of a row are the values at the address of that row. -/
theorem translatedElements_carried (accepted : Accepted old new)
    (oldTable : computeRowOffsetTable hashName old = .ok oldLayout.rowOffsetTable)
    {field : FeatureField} (member : field ∈ new.fields) (row : Nat) :
    translatedElements hashName castBits old oldLayout before field row =
      carriedValues hashName castBits old oldLayout before field (oldLayout.rowAddress row) := by
  cases found : old.byName field.name with
  | none =>
      unfold translatedElements carriedValues
      rw [found]
  | some oldField =>
      obtain ⟨oldMember, name⟩ := byName_some found
      obtain ⟨same, sameFound, shape, _⟩ := accepted.kept oldField oldMember
      rw [name, byName_of_mem member, Option.some.injEq] at sameFound
      subst sameFound
      obtain ⟨offset, place⟩ := placed_of_mem oldMember
      have placed := rowByteOffset_placed oldTable place
      rw [translatedElements_kept found shape placed, carriedValues, found]
      simp only [placed, Option.getD_some, fieldElements, List.map_map, Function.comp_def]

/-- A segment with a lost row is refused before any id is read. -/
theorem buildTranslationTable_lost
    (oldTable : computeRowOffsetTable hashName old = .ok oldLayout.rowOffsetTable)
    (lost : (occupiedSlots oldLayout before).length < nextFreeRow before) :
    buildTranslationTable hashName castBits stringArray old new oldLayout before =
      .error (.inconsistent (nextFreeRow before) (occupiedSlots oldLayout before).length) := by
  have ids : translateIds oldLayout before (nextFreeRow before) =
      .error (.inconsistent (nextFreeRow before) (occupiedSlots oldLayout before).length) := by
    rw [translateIds_unfold, if_neg (by omega), if_pos (by omega)]
  unfold buildTranslationTable
  dsimp only
  rw [show before.readNat metadataOffset 8 = nextFreeRow before from rfl,
    translateFields_eq hashName castBits oldLayout before oldTable, ids]
  rfl

/-- The table of a segment without lost rows carries the rows of its entities. -/
theorem translatedTable_carries (accepted : Accepted old new) (sound : LayoutSound oldLayout)
    (consistent : Consistent hashId oldLayout before)
    (oldTable : computeRowOffsetTable hashName old = .ok oldLayout.rowOffsetTable)
    (full : (occupiedSlots oldLayout before).length = nextFreeRow before) :
    CarriesRows hashName castBits old new oldLayout before hashId
      (translatedTable hashName castBits old new oldLayout before (rowIds oldLayout before))
      (rowIds oldLayout before) := by
  constructor
  · rfl
  · exact fun noIdField => lookup_behind _ _ noIdField
  · intro field member
    refine ⟨_, _, lookup_columns _ _ new.namesDistinct member, by simp, ?_⟩
    intro entityId present
    obtain ⟨index, inside, stored⟩ :=
      contents_ne_none.mp (((rowIds_spec consistent).2 entityId).mp present)
    obtain ⟨bound, text⟩ := rowIds_slot consistent full inside stored
    have rowBound : slotRow oldLayout before index < (rowIds oldLayout before).length := by
      rw [rowIds_length, full]
      exact bound
    refine ⟨slotRow oldLayout before index, _, ?_,
      (lookup_located sound consistent).mpr ⟨index, inside, stored, rfl⟩, ?_⟩
    · rw [getD_eq_getElem rowBound] at text
      rw [List.getElem?_eq_getElem rowBound, text]
    · rw [List.getElem?_map, List.getElem?_range rowBound, Option.map_some,
        translatedElements_carried accepted oldTable member]

end Translation

/-- A history with a lost row has fewer occupied slots than consumed rows. -/
theorem SegmentHistory.Refined.occupied_lost {hashId : List UInt8 → UInt64} {layout : SegmentLayout}
    {history : SegmentHistory} (refined : history.Refined hashId layout) :
    (occupiedSlots layout history.memory).length + history.lost = nextFreeRow history.memory := by
  have consumed : nextFreeRow history.memory = (presentIds history.log).card + history.lost :=
    refined.accounted.2
  have occupied := occupiedSlots_length refined.consistent refined.accounted.1
  omega

/-- The copy succeeds exactly when no insert lost a row; a new field `entity_id` hides the id
column. -/
theorem buildTranslationTable_carries_iff {hashName : String → UInt64} {old new : FeatureSchema}
    {capacity maxIdBytes : Int} {oldLayout : SegmentLayout} {oldHeader : List UInt8}
    {stringArray : List String → Option StringArray} (castBits : DType → DType → Nat → Nat)
    (hashId : List UInt8 → UInt64) (calls : List (InsertRequest × Option Nat))
    (accepted : (canUpgrade old new).1 = true)
    (computed : computeLayout hashName old capacity maxIdBytes = .ok oldLayout)
    (headerLength : oldHeader.length = headerSize)
    (strings : ∀ ids : List String, ids.Nodup →
      ids.toFinset = presentIds (runCalls hashId oldLayout oldHeader calls).log →
      stringArray ids = some (StringArray.ofList ids)) :
    let history := runCalls hashId oldLayout oldHeader calls
    (∃ table, buildTranslationTable hashName castBits stringArray old new oldLayout
        history.memory = .ok table ∧
      ∃ ids : List String, ids.Nodup ∧ ids.toFinset = presentIds history.log ∧
        CarriesRows hashName castBits old new oldLayout history.memory hashId table ids) ↔
      history.lost = 0 := by
  intro history
  have sound := computeLayout_sound computed
  obtain ⟨oldTable, _⟩ := computeLayout_parts computed
  have refined : history.Refined hashId oldLayout := runCalls_refined hashId sound headerLength calls
  have consistent := refined.consistent
  have present : ∀ entityId, entityId ∈ presentIds history.log ↔
      contents oldLayout history.memory entityId ≠ none := refined.accounted.1
  have occupied := refined.occupied_lost
  obtain ⟨distinct, members⟩ := rowIds_spec consistent
  have same : (rowIds oldLayout history.memory).toFinset = presentIds history.log := by
    ext entityId
    rw [List.mem_toFinset, members, present]
  constructor
  · rintro ⟨table, built, _⟩
    by_contra lost
    rw [buildTranslationTable_lost oldTable (by omega)] at built
    cases built
  · intro noLost
    have full : (occupiedSlots oldLayout history.memory).length = nextFreeRow history.memory := by
      omega
    exact ⟨_, buildTranslationTable_eq consistent oldTable full (strings _ distinct same), _,
      distinct, same,
      translatedTable_carries (canUpgrade_accepted accepted) sound consistent oldTable full⟩

/-- The completed inserts of two sample rows are carried into the upgrade of the sample schema. -/
theorem buildTranslationTable_carries_iff_sample :
    let history := runCalls (fun _ => 0) sampleLayout (List.replicate 16 0)
      (sampleRows.map fun request => (request, none))
    history.lost = 0 ∧
      ∃ table, buildTranslationTable sampleHash sampleCast (fun ids => some (.ofList ids))
        sampleSchema sampleUpgrade sampleLayout history.memory = .ok table ∧
      ∃ ids : List String, ids.Nodup ∧ ids.toFinset = {"a", "b"} ∧
        CarriesRows sampleHash sampleCast sampleSchema sampleUpgrade sampleLayout
          history.memory (fun _ => 0) table ids := by
  intro history
  have noLost : history.lost = 0 := rfl
  have present : presentIds history.log = {"a", "b"} := by
    rw [show history = _ from (runInserts_eq (fun _ => 0) (List.replicate 16 0) sampleRows).symm,
      sampleRows_present]
    decide
  obtain ⟨table, built, ids, distinct, same, carries⟩ :=
    (buildTranslationTable_carries_iff sampleCast (fun _ => 0)
      (sampleRows.map fun request => (request, none))
      (show (canUpgrade sampleSchema sampleUpgrade).1 = true by decide)
      (computeLayout_sample_of_hash (show sampleHash "score" = 0 from rfl))
      (show (List.replicate 16 (0 : UInt8)).length = headerSize from rfl)
      (fun ids _ _ => show some (StringArray.ofList ids) = some (StringArray.ofList ids) from
        rfl)).mpr noLost
  exact ⟨noLost, table, built, ids, distinct, same.trans present, carries⟩

/-- A single call on a fresh segment loses a row when it is cut off between its writes. -/
theorem runCalls_single_lost (hashId : List UInt8 → UInt64) (layout : SegmentLayout)
    (header : List UInt8) (entityId : String) (rowData : List UInt8) (count : Nat) :
    (runCalls hashId layout header [(⟨entityId, rowData⟩, some count)]).lost =
      if 0 < count ∧ count < ((insert hashId layout entityId rowData).writes
        (freshSegment layout header)).length then 1 else 0 := rfl

/-- An insert of a new id cut off after five of its eight writes leaves a lost row. -/
theorem sampleCut_lost (hashId : List UInt8 → UInt64) :
    (runCalls hashId sampleLayout (List.replicate 16 0)
      [(⟨"a", List.replicate 64 1⟩, some 5)]).lost = 1 := by
  have sound := computeLayout_sound computeLayout_sample
  obtain ⟨consistent, empty⟩ := freshSegment_consistent sound
    (show (List.replicate 16 (0 : UInt8)).length = headerSize from rfl) hashId
  have spec : specInsert sampleLayout
      (abstraction sampleLayout (freshSegment sampleLayout (List.replicate 16 0))) "a"
      (List.replicate 64 1) = (.ok true, BoundedMap.empty.add "a" (List.replicate 64 1)) := by
    rw [empty]
    rfl
  have total : ((insert hashId sampleLayout "a" (List.replicate 64 1)).writes
      (freshSegment sampleLayout (List.replicate 16 0))).length = 8 := by
    rcases insert_cases sound consistent "a" (List.replicate 64 1) with
      ⟨error, _, failed⟩ | ⟨entry, _, _, updated⟩ | ⟨plan, trace, length, _⟩
    · rw [spec] at failed
      cases failed
    · rw [spec] at updated
      cases updated
    · rw [Program.writes, trace]
      exact length
  rw [runCalls_single_lost, total]
  rfl

/-- A segment whose writer crashed inside the insert of a new id is refused by the copy. -/
theorem buildTranslationTable_crashed :
    let calls : List (InsertRequest × Option Nat) := [(⟨"a", List.replicate 64 1⟩, some 5)]
    let history := runCalls (fun _ => 0) sampleLayout (List.replicate 16 0) calls
    computeLayout sampleHash sampleSchema 2 8 = .ok sampleLayout ∧
      (canUpgrade sampleSchema sampleUpgrade).1 = true ∧
      ∀ table, buildTranslationTable sampleHash (fun _ _ bits => bits)
        (fun ids => some (.ofList ids)) sampleSchema sampleUpgrade sampleLayout history.memory ≠
          .ok table := by
  intro calls history
  have computed : computeLayout sampleHash sampleSchema 2 8 = .ok sampleLayout :=
    computeLayout_sample_of_hash rfl
  have sound := computeLayout_sound computed
  obtain ⟨oldTable, _⟩ := computeLayout_parts computed
  have refined : history.Refined (fun _ => 0) sampleLayout := runCalls_refined (fun _ => 0) sound rfl calls
  have lost : history.lost = 1 := sampleCut_lost fun _ => 0
  have occupied := refined.occupied_lost
  refine ⟨computed, by decide, ?_⟩
  intro table built
  rw [buildTranslationTable_lost oldTable (by omega)] at built
  cases built

end Quorin
