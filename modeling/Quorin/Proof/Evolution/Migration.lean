import Quorin.Proof.Evolution.TranslationIds

namespace Quorin

open ByteMemory

/-- The two's complement value of a word. -/
def signedValue (width bits : Nat) : Int :=
  if bits < 2 ^ (width - 1) then bits else bits - 2 ^ width

/-- The integer value of an element of an integer type. -/
def DType.intValue : DType → List UInt8 → Option Int
  | .uint8, element => some (leNat element)
  | .int32, element => some (signedValue 32 (leNat element))
  | .int64, element => some (signedValue 64 (leNat element))
  | .float32, _ => none
  | .float64, _ => none

/-- A widened element keeps its bytes, its integer value, or goes through the given float cast. -/
structure Widened (castBits : DType → DType → Nat → Nat) (source target : DType)
    (before after : List UInt8) : Prop where
  permitted : source.widensTo target = true
  same : source = target → after = before
  integer : ∀ value, source.intValue before = some value → target.intValue after = some value
  float : source = .float32 → target = .float64 →
    after = leBytes 8 (castBits .float32 .float64 (leNat before))

/-- A word below the sign bit is its own value. -/
theorem signedValue_small {width bits : Nat} (small : bits < 2 ^ (width - 1)) :
    signedValue width bits = bits := if_pos small

/-- The sign extension keeps the value of a word. -/
theorem signedValue_extend {bits : Nat} (bound : bits < 2 ^ 32) :
    signedValue 64 (if bits < 2 ^ 31 then bits else bits + (2 ^ 64 - 2 ^ 32)) =
      signedValue 32 bits := by
  unfold signedValue
  norm_num
  split <;> split <;> omega

/-- The integer widenings keep the integer value of an element of the right size. -/
theorem astype_intValue (castBits : DType → DType → Nat → Nat) {source target : DType}
    (widens : source.widensTo target = true) {element : List UInt8}
    (size : element.length = source.byteSize) (different : source ≠ target) {value : Int}
    (held : source.intValue element = some value) :
    target.intValue (astype castBits source target element) = some value := by
  have bound := leNat_lt element
  rw [size] at bound
  rw [← held]
  cases source with
  | float32 => cases held
  | float64 => cases held
  | int64 => cases target <;> first | exact absurd widens (by decide) | exact absurd rfl different
  | int32 =>
      cases target with
      | float32 => exact absurd widens (by decide)
      | float64 => exact absurd widens (by decide)
      | uint8 => exact absurd widens (by decide)
      | int32 => exact absurd rfl different
      | int64 =>
          have small : leNat element < 2 ^ 32 := bound
          have back := leNat_leBytes 8
            (if leNat element < 2 ^ 31 then leNat element else leNat element + (2 ^ 64 - 2 ^ 32))
            (by norm_num; split <;> omega)
          exact congrArg some ((congrArg (signedValue 64) back).trans (signedValue_extend small))
  | uint8 =>
      have small : leNat element < 256 := bound
      cases target with
      | float32 => exact absurd widens (by decide)
      | float64 => exact absurd widens (by decide)
      | uint8 => exact absurd rfl different
      | int32 =>
          have back := leNat_leBytes 4 (leNat element) (small.trans (by decide))
          exact congrArg some ((congrArg (signedValue 32) back).trans
            (signedValue_small (small.trans (by decide))))
      | int64 =>
          have back := leNat_leBytes 8 (leNat element) (small.trans (by decide))
          exact congrArg some ((congrArg (signedValue 64) back).trans
            (signedValue_small (small.trans (by decide))))

theorem astype_widened (castBits : DType → DType → Nat → Nat) {source target : DType}
    (widens : source.widensTo target = true) {element : List UInt8}
    (size : element.length = source.byteSize) :
    Widened castBits source target element (astype castBits source target element) := by
  constructor
  · exact widens
  · rintro rfl
    exact astype_self castBits source element
  · intro value held
    by_cases same : source = target
    · subst same
      rw [astype_self]
      exact held
    · exact astype_intValue castBits widens size same held
  · rintro rfl rfl
    rfl

/-- The elements of a field are read back from the bytes of the whole field. -/
theorem read_element {memory : Memory} {address size : Nat} {elements : List (List UInt8)}
    (whole : memory.read address (elements.length * size) = elements.flatten)
    (uniform : ∀ element ∈ elements, element.length = size) {index : Nat}
    (inside : index < elements.length) :
    memory.read (address + index * size) size = elements[index] := by
  have part := slice_flatten_part elements inside
  have start : ((elements.map List.length).take index).sum = index * size := by
    apply sum_take_uniform
    · intro other member
      obtain ⟨element, elementMember, rfl⟩ := List.mem_map.mp member
      exact uniform element elementMember
    · rw [List.length_map]
      omega
  have room : index * size + (size + (elements.length * size - (index + 1) * size)) =
      elements.length * size := by
    have bound : (index + 1) * size ≤ elements.length * size := Nat.mul_le_mul_right _ inside
    rw [Nat.add_mul, Nat.one_mul] at *
    omega
  rw [start, uniform _ (List.getElem_mem inside), ← whole, slice, ← room, Memory.read_drop,
    Memory.read_take] at part
  exact part

/-- The row of one entity before and after the copy, field by field. -/
structure MigratedRow (hashName : String → UInt64) (castBits : DType → DType → Nat → Nat)
    (old new : FeatureSchema) (oldLayout newLayout : SegmentLayout) (before after : Memory)
    (oldAddress newAddress : Nat) : Prop where
  /-- Each field of the old schema holds the widening of its old value. -/
  kept : ∀ oldField ∈ old.fields, ∃ field ∈ new.fields,
    field.name = oldField.name ∧ field.shape = oldField.shape ∧
    ∃ oldOffset offset,
      rowByteOffset hashName oldLayout.rowOffsetTable oldField.name = some oldOffset ∧
      rowByteOffset hashName newLayout.rowOffsetTable field.name = some offset ∧
      ∀ element, element < field.elementCount →
        Widened castBits oldField.dtype field.dtype
          (before.read (oldAddress + oldOffset + element * oldField.dtype.byteSize)
            oldField.dtype.byteSize)
          (after.read (newAddress + offset + element * field.dtype.byteSize) field.dtype.byteSize)
  /-- Each field only in the new schema is zero. -/
  added : ∀ field ∈ new.fields, (∀ oldField ∈ old.fields, oldField.name ≠ field.name) →
    ∃ offset, rowByteOffset hashName newLayout.rowOffsetTable field.name = some offset ∧
      after.read (newAddress + offset) field.byteCount = List.replicate field.byteCount 0

section Rows

variable {hashName : String → UInt64} {castBits : DType → DType → Nat → Nat}
  {hashId : List UInt8 → UInt64} {old new : FeatureSchema} {oldLayout newLayout : SegmentLayout}
  {before after : Memory} {ids : List String} {rows cursor : Nat}

/-- The elements of a kept field are the casts of its old elements. -/
theorem translatedElements_kept {field oldField : FeatureField}
    (found : old.byName field.name = some oldField) (shape : field.shape = oldField.shape)
    {offset : Nat} (placed : rowByteOffset hashName oldLayout.rowOffsetTable oldField.name = some offset)
    (row : Nat) :
    translatedElements hashName castBits old oldLayout before field row =
      (fieldElements oldLayout before row offset oldField).map
        (astype castBits oldField.dtype field.dtype) := by
  unfold translatedElements
  simp only [found, placed, Option.getD_some]
  split
  · rename_i scalar
    apply List.take_of_length_le
    rw [List.length_map, fieldElements, List.length_map, List.length_range,
      elementCount_scalar (shape.symm.trans scalar)]
  · rfl

/-- The elements of an added field are zero. -/
theorem translatedCell_added {field : FeatureField} (missing : old.byName field.name = none)
    (row : Nat) :
    translatedCell hashName castBits old oldLayout before field row =
      List.replicate field.byteCount 0 := by
  have elements : translatedElements hashName castBits old oldLayout before field row =
      zeroElements field := by
    unfold translatedElements
    rw [missing]
  have count : (if field.shape = [] then 1 else field.elementCount) = field.elementCount := by
    split
    · rename_i scalar
      exact (elementCount_scalar scalar).symm
    · rfl
  rw [translatedCell, elements, zeroElements, count, List.flatten_replicate_replicate]
  rfl

/-- A loaded row holds the translated cell of every field at the place of that field. -/
theorem loaded_cell (accepted : Accepted old new)
    (table : computeRowOffsetTable hashName new = .ok newLayout.rowOffsetTable)
    (loaded : Loaded hashId newLayout
      (translatedColumns hashName castBits hashId old new oldLayout before ids) ids after rows cursor)
    {row : Nat} (inside : row < rows) (bounded : rows ≤ ids.length) {field : FeatureField}
    (member : field ∈ new.fields) :
    ∃ offset, rowByteOffset hashName newLayout.rowOffsetTable field.name = some offset ∧
      after.read (newLayout.rowAddress row + offset) field.byteCount =
        translatedCell hashName castBits old oldLayout before field row := by
  obtain ⟨offset, place⟩ := placed_of_mem member
  obtain ⟨index, bound, entry⟩ := List.getElem_of_mem place
  have fields : index < (translatedColumns hashName castBits hashId old new oldLayout before
      ids).fieldByteOffsetsInRow.length := by
    simpa [translatedColumns] using bound
  have cell := loaded.cells row inside index fields
  rw [cellWrite_translated hashName castBits hashId oldLayout before ids accepted newLayout
    (Nat.lt_of_lt_of_le inside bounded) bound, entry] at cell
  dsimp only at cell
  rw [translatedCell_length hashName castBits oldLayout before accepted member] at cell
  exact ⟨offset, rowByteOffset_placed table place, cell⟩

/-- A loaded row is the migration of the old row with the same number. -/
theorem loaded_migrated (accepted : Accepted old new)
    (oldTable : computeRowOffsetTable hashName old = .ok oldLayout.rowOffsetTable)
    (table : computeRowOffsetTable hashName new = .ok newLayout.rowOffsetTable)
    (loaded : Loaded hashId newLayout
      (translatedColumns hashName castBits hashId old new oldLayout before ids) ids after rows cursor)
    {row : Nat} (inside : row < rows) (bounded : rows ≤ ids.length) :
    MigratedRow hashName castBits old new oldLayout newLayout before after
      (oldLayout.rowAddress row) (newLayout.rowAddress row) := by
  constructor
  · intro oldField oldMember
    obtain ⟨field, found, shape, widens, _⟩ := accepted.kept oldField oldMember
    obtain ⟨member, name⟩ := byName_some found
    obtain ⟨oldOffset, oldPlace⟩ := placed_of_mem oldMember
    have oldPlaced := rowByteOffset_placed oldTable oldPlace
    obtain ⟨offset, placed, cell⟩ := loaded_cell accepted table loaded inside bounded member
    refine ⟨field, member, name, shape, oldOffset, offset, oldPlaced, placed, ?_⟩
    intro element bound
    have oldFound : old.byName field.name = some oldField := by
      rw [name]
      exact byName_of_mem oldMember
    obtain ⟨count, sizes⟩ := translatedElements_size hashName castBits oldLayout before accepted
      member row
    have whole : after.read (newLayout.rowAddress row + offset)
        ((translatedElements hashName castBits old oldLayout before field row).length *
          field.dtype.byteSize) =
        (translatedElements hashName castBits old oldLayout before field row).flatten := by
      rw [count]
      exact cell
    rw [read_element whole sizes (by rw [count]; exact bound)]
    simp only [translatedElements_kept oldFound shape oldPlaced, List.getElem_map, fieldElements,
      List.getElem_range]
    exact astype_widened castBits widens (Memory.read_length _ _ _)
  · intro field member absent
    have missing : old.byName field.name = none := by
      apply List.find?_eq_none.mpr
      intro oldField oldMember
      simpa using absent oldField oldMember
    obtain ⟨offset, placed, cell⟩ := loaded_cell accepted table loaded inside bounded member
    exact ⟨offset, placed, cell.trans (translatedCell_added missing row)⟩

end Rows

/-- The ids of a segment in the order of their rows. -/
def rowIds (layout : SegmentLayout) (memory : Memory) : List String :=
  (rowOrder layout memory).map (slotText layout memory)

theorem rowIds_spec {hashId : List UInt8 → UInt64} {layout : SegmentLayout} {memory : Memory}
    {rows cursor : Nat} (invariant : SegmentInvariant hashId layout memory rows cursor) :
    (rowIds layout memory).Nodup ∧
      ∀ entityId, entityId ∈ rowIds layout memory ↔ contents layout memory entityId ≠ none := by
  obtain ⟨distinct, texts⟩ := occupiedSlots_texts invariant
  have permuted := (@rowOrder_perm layout memory).map (slotText layout memory)
  exact ⟨permuted.nodup_iff.mpr distinct, fun entityId => permuted.mem_iff.trans (texts entityId)⟩

theorem rowIds_length (layout : SegmentLayout) (memory : Memory) :
    (rowIds layout memory).length = (occupiedSlots layout memory).length := by
  rw [rowIds, List.length_map, rowOrder_perm.length_eq]

/-- In a segment without lost rows, the slot of an id has the place of the id as its row. -/
theorem rowIds_slot {hashId : List UInt8 → UInt64} {layout : SegmentLayout} {memory : Memory}
    {rows cursor : Nat} (invariant : SegmentInvariant hashId layout memory rows cursor)
    (full : (occupiedSlots layout memory).length = rows) {index : Nat}
    (inside : index < layout.slotCapacity) {entityId : String}
    (stored : slotKey layout memory index = some (encodeUtf8 entityId)) :
    slotRow layout memory index < rows ∧
      (rowIds layout memory).getD (slotRow layout memory index) "" = entityId := by
  have member := mem_occupiedSlots.mpr ⟨inside, (slotKey_eq_some.mp stored).1⟩
  have text : slotText layout memory index = entityId := by
    have key := (slotKey_text invariant member).1
    rw [stored] at key
    exact (encodeUtf8_injective (Option.some.inj key)).symm
  obtain ⟨place, bound, here⟩ := List.getElem_of_mem (rowOrder_perm.mem_iff.mpr member)
  have placeBound : place < rows := by
    rwa [rowOrder_perm.length_eq, full] at bound
  have order := rowOrder_rows invariant full
  have row : slotRow layout memory index = place := by
    have entry := congrArg (fun slots => slots[place]?) order
    simp only [List.getElem?_map, List.getElem?_eq_getElem bound, here,
      List.getElem?_range placeBound, Option.map_some, Option.some.injEq] at entry
    exact entry
  rw [row]
  refine ⟨placeBound, ?_⟩
  rw [rowIds, List.getD_eq_getElem?_getD, List.getElem?_map, List.getElem?_eq_getElem bound, here,
    Option.map_some, Option.getD_some, text]

section Copy

variable {hashName : String → UInt64} {castBits : DType → DType → Nat → Nat}
  {stringArray : List String → Option StringArray} {hashId : List UInt8 → UInt64}
  {old new : FeatureSchema} {oldLayout newLayout : SegmentLayout} {before : Memory}

/-- The table of the copy carries the ids of the old segment. -/
theorem buildTranslationTable_eq (consistent : Consistent hashId oldLayout before)
    (oldTable : computeRowOffsetTable hashName old = .ok oldLayout.rowOffsetTable)
    (full : (occupiedSlots oldLayout before).length = nextFreeRow before)
    (strings : stringArray (rowIds oldLayout before) =
      some (StringArray.ofList (rowIds oldLayout before))) :
    buildTranslationTable hashName castBits stringArray old new oldLayout before =
      .ok (translatedTable hashName castBits old new oldLayout before (rowIds oldLayout before)) := by
  have size : (rowIds oldLayout before).length = nextFreeRow before :=
    (rowIds_length oldLayout before).trans full
  have ids : translateIds oldLayout before (nextFreeRow before) = .ok (rowIds oldLayout before) :=
    translateIds_eq consistent full
  unfold buildTranslationTable
  dsimp only
  rw [show before.readNat metadataOffset 8 = nextFreeRow before from rfl,
    translateFields_eq hashName castBits oldLayout before oldTable, ids]
  simp only [bind, Except.bind, strings, translatedTable, size]
  rfl

/-- The ids of a loaded segment are the given ids. -/
theorem loaded_contents {columns : InsertColumns} {ids : List String} {after : Memory}
    {cursor : Nat}
    (loaded : Loaded hashId newLayout columns ids after ids.length cursor) (entityId : String) :
    contents newLayout after entityId ≠ none ↔ entityId ∈ ids := by
  rw [contents_ne_none]
  constructor
  · rintro ⟨index, inside, stored⟩
    obtain ⟨row, bound, same⟩ := loaded.only index inside _ stored
    rw [encodeUtf8_injective same]
    exact getD_mem bound
  · intro member
    obtain ⟨row, bound, rfl⟩ := List.getElem_of_mem member
    obtain ⟨index, inside, stored, _⟩ := loaded.stored row bound
    rw [getD_eq_getElem bound] at stored
    exact ⟨index, inside, stored⟩

end Copy

/-- The copy of a segment holds the same ids with migrated rows. -/
structure Copied (hashName : String → UInt64) (castBits : DType → DType → Nat → Nat)
    (hashId : List UInt8 → UInt64) (old new : FeatureSchema) (oldLayout newLayout : SegmentLayout)
    (before after : Memory) : Prop where
  consistent : Consistent hashId newLayout after
  same : ∀ entityId, contents newLayout after entityId ≠ none ↔
    contents oldLayout before entityId ≠ none
  migrated : ∀ entityId oldAddress,
    (lookup hashId oldLayout entityId).result before = .ok (some oldAddress) →
    ∃ newAddress, (lookup hashId newLayout entityId).result after = .ok (some newAddress) ∧
      MigratedRow hashName castBits old new oldLayout newLayout before after oldAddress newAddress

section Tables

variable {hashName : String → UInt64} {castBits : DType → DType → Nat → Nat}
  {hashId : List UInt8 → UInt64} {old new : FeatureSchema} {oldLayout newLayout : SegmentLayout}
  {before : Memory} {header : List UInt8} {newCapacity maxIdBytes : Int}

/-- The table of a segment without lost rows loads into a fresh segment with room for its rows. -/
theorem translatedTable_copied (oldSound : LayoutSound oldLayout)
    (consistent : Consistent hashId oldLayout before) (upgrade : Accepted old new)
    (noIdField : ∀ field ∈ new.fields, field.name ≠ "entity_id")
    (oldTable : computeRowOffsetTable hashName old = .ok oldLayout.rowOffsetTable)
    (computed : computeLayout hashName new newCapacity maxIdBytes = .ok newLayout)
    (sameIdBytes : oldLayout.maxIdBytes = newLayout.maxIdBytes)
    (full : (occupiedSlots oldLayout before).length = nextFreeRow before)
    (fits : (rowIds oldLayout before).length ≤ newLayout.capacity)
    (headerLength : header.length = headerSize) :
    ∃ after, (insertMany hashId castBits new newLayout
        (translatedTable hashName castBits old new oldLayout before (rowIds oldLayout before))).run
          (freshSegment newLayout header) = (.ok (rowIds oldLayout before).length, after) ∧
      nextFreeRow after = (rowIds oldLayout before).length ∧
      Copied hashName castBits hashId old new oldLayout newLayout before after := by
  have newSound := computeLayout_sound computed
  obtain ⟨table, rowBytes, assembly, _⟩ := computeLayout_parts computed
  obtain ⟨distinct, members⟩ := rowIds_spec consistent
  have named : ∀ entityId ∈ rowIds oldLayout before, entityId ≠ "" :=
    fun entityId member => contents_nonempty consistent ((members entityId).mp member)
  have short : ∀ entityId ∈ rowIds oldLayout before,
      (encodeUtf8 entityId).length ≤ newLayout.maxIdBytes := by
    intro entityId member
    rw [← sameIdBytes]
    exact contents_short consistent ((members entityId).mp member)
  have prepared : ColumnsSound hashId newLayout (translatedColumns hashName castBits hashId old new
      oldLayout before (rowIds oldLayout before)) (rowIds oldLayout before) :=
    translatedColumns_sound hashName castBits hashId oldLayout before _ table rowBytes distinct
      named short
  have buffers := prepareInsertColumns_translated hashName castBits hashId oldLayout before
    (rowIds oldLayout before) upgrade noIdField assembly
  obtain ⟨after, run, rowsRead, loaded⟩ := insertMany_run newSound prepared rfl buffers fits
    headerLength
  have newConsistent : Consistent hashId newLayout after := by
    unfold Consistent
    rw [rowsRead]
    exact loaded.invariant
  refine ⟨after, run, rowsRead, newConsistent,
    fun entityId => (loaded_contents loaded entityId).trans (members entityId), ?_⟩
  intro entityId oldAddress found
  obtain ⟨index, inside, stored, rfl⟩ := (lookup_located oldSound consistent).mp found
  obtain ⟨bound, text⟩ := rowIds_slot consistent full inside stored
  have rowBound : slotRow oldLayout before index < (rowIds oldLayout before).length := by
    rw [rowIds_length, full]
    exact bound
  obtain ⟨newIndex, newInside, newStored, newRow⟩ := loaded.stored _ rowBound
  rw [text] at newStored
  refine ⟨_, (lookup_located newSound newConsistent).mpr ⟨newIndex, newInside, newStored, rfl⟩, ?_⟩
  rw [newRow]
  exact loaded_migrated upgrade oldTable table loaded rowBound (Nat.le_refl _)

end Tables

/-- The copy of a segment reached by inserts holds the same ids with migrated rows. -/
theorem migration_preserves {hashName : String → UInt64} {old new : FeatureSchema}
    {capacity newCapacity maxIdBytes : Int} {oldLayout newLayout : SegmentLayout}
    {oldHeader newHeader : List UInt8} {stringArray : List String → Option StringArray}
    (castBits : DType → DType → Nat → Nat) (hashId : List UInt8 → UInt64)
    (requests : List InsertRequest)
    (accepted : (canUpgrade old new).1 = true)
    (noIdField : ∀ field ∈ new.fields, field.name ≠ "entity_id")
    (computedOld : computeLayout hashName old capacity maxIdBytes = .ok oldLayout)
    (computedNew : computeLayout hashName new newCapacity maxIdBytes = .ok newLayout)
    (oldHeaderLength : oldHeader.length = headerSize)
    (newHeaderLength : newHeader.length = headerSize)
    (room : ((presentIds (runInserts hashId oldLayout oldHeader requests).log).card : Int) + 1 ≤
      newCapacity)
    (strings : ∀ ids : List String, ids.Nodup →
      ids.toFinset = presentIds (runInserts hashId oldLayout oldHeader requests).log →
      stringArray ids = some (StringArray.ofList ids)) :
    let history := runInserts hashId oldLayout oldHeader requests
    ∃ table after rows,
      buildTranslationTable hashName castBits stringArray old new oldLayout history.memory =
        .ok table ∧
      (insertMany hashId castBits new newLayout table).run (freshSegment newLayout newHeader) =
        (.ok (presentIds history.log).card, after) ∧
      BehavesAsMap hashId newLayout after rows (presentIds history.log).card ∧
      (∀ entityId, rows entityId = none ↔ lastRow history.log entityId = none) ∧
      ∀ entityId oldAddress,
        (lookup hashId oldLayout entityId).result history.memory = .ok (some oldAddress) →
        ∃ newAddress, (lookup hashId newLayout entityId).result after = .ok (some newAddress) ∧
          MigratedRow hashName castBits old new oldLayout newLayout history.memory after
            oldAddress newAddress := by
  intro history
  have oldSound := computeLayout_sound computedOld
  have newSound := computeLayout_sound computedNew
  obtain ⟨oldTable, _, _, _, _, oldMaxIdBytes⟩ := computeLayout_parts computedOld
  obtain ⟨_, _, _, _, newRoom, newMaxIdBytes⟩ := computeLayout_parts computedNew
  have refined : history.Refined hashId oldLayout := by
    rw [show history = _ from runInserts_eq hashId oldHeader requests]
    exact runCalls_refined hashId oldSound oldHeaderLength _
  have noLost : history.lost = 0 := runInserts_lost hashId oldHeader requests
  have consistent := refined.consistent
  have present : ∀ entityId, entityId ∈ presentIds history.log ↔
      contents oldLayout history.memory entityId ≠ none := refined.accounted.1
  have consumed : nextFreeRow history.memory = (presentIds history.log).card := by
    have total : nextFreeRow history.memory = (presentIds history.log).card + history.lost :=
      refined.accounted.2
    rw [total, noLost]
    rfl
  have occupied := occupiedSlots_length consistent present
  have full : (occupiedSlots oldLayout history.memory).length = nextFreeRow history.memory :=
    occupied.trans consumed.symm
  obtain ⟨distinct, members⟩ := rowIds_spec consistent
  have idCount : (rowIds oldLayout history.memory).length = (presentIds history.log).card :=
    (rowIds_length _ _).trans occupied
  have array : stringArray (rowIds oldLayout history.memory) =
      some (StringArray.ofList (rowIds oldLayout history.memory)) := by
    apply strings _ distinct
    ext entityId
    rw [List.mem_toFinset, members, present]
  have fits : (rowIds oldLayout history.memory).length ≤ newLayout.capacity := by
    have enough : ((presentIds history.log).card : Int) + 1 ≤ newCapacity := room
    omega
  obtain ⟨after, run, rowsRead, copied⟩ := @translatedTable_copied hashName castBits hashId old new
    oldLayout newLayout history.memory newHeader newCapacity maxIdBytes oldSound consistent
    (canUpgrade_accepted accepted) noIdField oldTable computedNew (by omega) full fits newHeaderLength
  rw [idCount] at run rowsRead
  refine ⟨_, after, contents newLayout after,
    buildTranslationTable_eq consistent oldTable full array, run, ?_, ?_, copied.migrated⟩
  · have behaves := copied.consistent.behavesAsMap newSound
    rw [rowsRead] at behaves
    exact behaves
  · intro entityId
    rw [← refined.rows]
    exact not_iff_not.mp (copied.same entityId)

theorem rank_named : "rank" ≠ "" := by decide

/-- The sample schema with a wider field behind a new one. -/
def sampleUpgrade : FeatureSchema where
  className := "Sample"
  version := 2
  fields := [⟨"rank", .int32, [], rank_named, scalar_dimensions, scalar_elements, scalar_bytes .int32⟩,
    ⟨"score", .float64, [], score_named, scalar_dimensions, scalar_elements, scalar_bytes .float64⟩]
  fieldsNonempty := by decide
  namesDistinct := by decide

/-- The layout of the upgraded sample schema. -/
def sampleUpgradeLayout : SegmentLayout :=
  layoutOf 2 8 128 [⟨0, 64, .float64, 1, 8⟩, ⟨1, 0, .int32, 1, 4⟩]
    [⟨1, 0, .int32, 1, 4⟩, ⟨0, 64, .float64, 1, 8⟩] 2

theorem computeLayout_sampleUpgrade :
    computeLayout sampleHash sampleUpgrade 2 8 = .ok sampleUpgradeLayout := by
  have table : compileSchema sampleHash sampleUpgrade =
      .ok [⟨0, 128, .float64, 1, 8⟩, ⟨1, 64, .int32, 1, 4⟩] := by
    simp [compileSchema, sampleUpgrade, offsetRows, fieldByteOffsets, alignUp, headerSize,
      sampleHash, cacheLineSize, FeatureField.byteCount, FeatureField.elementCount, elementProduct,
      List.mergeSort, List.MergeSort.Internal.splitInTwo, DType.byteSize]
  have relative : computeRowOffsetTable sampleHash sampleUpgrade =
      .ok [⟨0, 64, .float64, 1, 8⟩, ⟨1, 0, .int32, 1, 4⟩] := by
    rw [computeRowOffsetTable, table]
    rfl
  have rows : rowSize sampleHash sampleUpgrade = .ok 128 := by
    rw [rowSize, relative]
    rfl
  rw [computeLayout, rows, relative]
  rfl

/-- The row of a score in the sample schema. -/
def sampleScoreRow (bits : Nat) : List UInt8 := leBytes 4 bits ++ List.replicate 60 0

/-- The inserts of a score of one for `a` and of two for `b`. -/
def sampleRows : List InsertRequest :=
  [⟨"a", sampleScoreRow 0x3f800000⟩, ⟨"b", sampleScoreRow 0x40000000⟩]

theorem sampleRows_fit : ∀ request ∈ sampleRows, request.Fits sampleLayout := by
  intro request member
  rcases List.mem_pair.mp member with rfl | rfl
  · exact ⟨by decide, by decide, by decide⟩
  · exact ⟨by decide, by decide, by decide⟩

/-- The sample segment behind its two inserts. -/
theorem sampleRows_present :
    presentIds (runInserts (fun _ => 0) sampleLayout (List.replicate 16 0) sampleRows).log =
      {"b", "a"} := by
  rw [runInserts_logged (fun _ => 0) (computeLayout_sound computeLayout_sample) rfl sampleRows_fit
    (by decide)]
  rfl

/-- The layout of the upgraded sample schema with room for the two rows. -/
def sampleRoomyLayout : SegmentLayout :=
  layoutOf 3 8 128 [⟨0, 64, .float64, 1, 8⟩, ⟨1, 0, .int32, 1, 4⟩]
    [⟨1, 0, .int32, 1, 4⟩, ⟨0, 64, .float64, 1, 8⟩] 2

theorem computeLayout_sampleRoomy :
    computeLayout sampleHash sampleUpgrade 3 8 = .ok sampleRoomyLayout := by
  obtain ⟨relative, rows, _⟩ := computeLayout_parts computeLayout_sampleUpgrade
  rw [computeLayout, rows, relative]
  rfl

/-- Two inserted rows of the sample schema are carried into its upgrade. -/
theorem migration_preserves_sample :
    let history := runInserts (fun _ => 0) sampleLayout (List.replicate 16 0) sampleRows
    ∃ table after rows,
      buildTranslationTable sampleHash sampleCast (fun ids => some (.ofList ids))
        sampleSchema sampleUpgrade sampleLayout history.memory = .ok table ∧
      (insertMany (fun _ => 0) sampleCast sampleUpgrade sampleRoomyLayout table).run
        (freshSegment sampleRoomyLayout (List.replicate 16 0)) = (.ok 2, after) ∧
      BehavesAsMap (fun _ => 0) sampleRoomyLayout after rows 2 ∧
      ∀ entityId ∈ ["a", "b"], ∃ oldAddress newAddress,
        (lookup (fun _ => 0) sampleLayout entityId).result history.memory = .ok (some oldAddress) ∧
        (lookup (fun _ => 0) sampleRoomyLayout entityId).result after = .ok (some newAddress) ∧
        MigratedRow sampleHash sampleCast sampleSchema sampleUpgrade sampleLayout sampleRoomyLayout
          history.memory after oldAddress newAddress := by
  intro history
  have sound := computeLayout_sound computeLayout_sample
  have refined : history.Refined (fun _ => 0) sampleLayout := by
    rw [show history = _ from runInserts_eq (fun _ => 0) (List.replicate 16 0) sampleRows]
    exact runCalls_refined (fun _ => 0) sound rfl _
  have count : (presentIds history.log).card = 2 := by
    rw [show presentIds history.log = _ from sampleRows_present]
    rfl
  have noIdField : ∀ field ∈ sampleUpgrade.fields, field.name ≠ "entity_id" := by decide
  obtain ⟨table, after, rows, built, loaded, behaves, _, migrated⟩ :=
    migration_preserves sampleCast (fun _ => 0) sampleRows
      (show (canUpgrade sampleSchema sampleUpgrade).1 = true by decide) noIdField
      (computeLayout_sample_of_hash rfl) computeLayout_sampleRoomy
      (show (List.replicate 16 (0 : UInt8)).length = headerSize from rfl)
      (show (List.replicate 16 (0 : UInt8)).length = headerSize from rfl)
      (show ((presentIds history.log).card : Int) + 1 ≤ 3 by rw [count]; decide)
      (fun ids _ _ => show some (StringArray.ofList ids) = some (StringArray.ofList ids) from rfl)
  rw [show (presentIds (runInserts (fun _ => 0) sampleLayout (List.replicate 16 0)
    sampleRows).log).card = 2 from count] at loaded behaves
  refine ⟨table, after, rows, built, loaded, behaves, ?_⟩
  intro entityId member
  have present : entityId ∈ presentIds history.log := by
    rw [show presentIds history.log = _ from sampleRows_present]
    simpa [or_comm] using member
  obtain ⟨oldAddress, old⟩ := refined.lookup_logged sound present
  obtain ⟨newAddress, new, row⟩ := migrated entityId oldAddress old
  exact ⟨oldAddress, newAddress, old, new, row⟩

end Quorin
