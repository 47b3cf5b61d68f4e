import Quorin.Construction.PackFormat
import Quorin.Proof.Consumer.RowBuffers
import Quorin.Proof.Offline.AcceptedRows

namespace Quorin

section Splices

variable {buffer bytes : List UInt8} {offset start count : Nat}

/-- A spliced part is read back. -/
theorem slice_splice_self (inside : offset + bytes.length ≤ buffer.length) :
    slice (splice buffer offset bytes) offset bytes.length = bytes := by
  have size : (buffer.take offset).length = offset := by
    rw [List.length_take]
    omega
  rw [slice, splice, List.append_assoc, List.drop_append_of_le_length (by omega),
    List.drop_of_length_le (by omega), List.nil_append, List.take_left']
  rfl

/-- A splice leaves what lies in front of it or behind it. -/
theorem slice_splice_apart (inside : offset + bytes.length ≤ buffer.length)
    (apart : start + count ≤ offset ∨ offset + bytes.length ≤ start) :
    slice (splice buffer offset bytes) start count = slice buffer start count := by
  have size : (buffer.take offset).length = offset := by
    rw [List.length_take]
    omega
  rcases apart with before | behind
  · rw [slice, slice, splice, List.append_assoc, List.drop_append_of_le_length (by omega),
      List.take_append_of_le_length (by rw [List.length_drop]; omega), List.drop_take, List.take_take,
      Nat.min_eq_left (by omega)]
  · rw [slice, slice, splice, List.drop_append, List.drop_of_length_le (by simp; omega),
      List.nil_append, List.drop_drop]
    congr 2
    rw [List.length_append, size]
    omega

end Splices

/-- Two slots have no byte in common. -/
def PackSlot.Apart (first second : PackSlot) : Prop :=
  first.byteOffset + first.byteCount ≤ second.byteOffset ∨
    second.byteOffset + second.byteCount ≤ first.byteOffset

theorem PackSlot.Apart.symm {first second : PackSlot} (apart : first.Apart second) :
    second.Apart first := Or.symm apart

instance : Std.Symm PackSlot.Apart := ⟨fun _ _ apart => apart.symm⟩

/-- The bytes of the slots are spliced one after another. -/
def spliceSlots (encode : PackSlot → Option (List UInt8)) : List PackSlot → List UInt8 →
    Option (List UInt8)
  | [], buffer => some buffer
  | slot :: rest, buffer =>
      (encode slot).bind fun bytes => spliceSlots encode rest (splice buffer slot.byteOffset bytes)

section Slots

variable {encode : PackSlot → Option (List UInt8)}

/-- The splices succeed when every slot has bytes. -/
theorem spliceSlots_isSome {slots : List PackSlot} {buffer : List UInt8} :
    (spliceSlots encode slots buffer).isSome = true ↔ ∀ slot ∈ slots, (encode slot).isSome = true := by
  induction slots generalizing buffer with
  | nil => simp [spliceSlots]
  | cons slot rest ih =>
      cases encoded : encode slot with
      | none => simp [spliceSlots, encoded]
      | some bytes => simp [spliceSlots, encoded, ih]

/-- After the splices every slot holds its bytes, and the rest of the buffer is as it was. -/
theorem spliceSlots_spec {slots : List PackSlot} {buffer after : List UInt8}
    (spliced : spliceSlots encode slots buffer = some after)
    (sized : ∀ slot ∈ slots, ∀ bytes, encode slot = some bytes → bytes.length = slot.byteCount)
    (inside : ∀ slot ∈ slots, slot.byteOffset + slot.byteCount ≤ buffer.length)
    (apart : slots.Pairwise PackSlot.Apart) :
    after.length = buffer.length ∧
      (∀ slot ∈ slots, encode slot = some (slice after slot.byteOffset slot.byteCount)) ∧
      ∀ start count, (∀ slot ∈ slots,
        start + count ≤ slot.byteOffset ∨ slot.byteOffset + slot.byteCount ≤ start) →
        slice after start count = slice buffer start count := by
  induction slots generalizing buffer with
  | nil =>
      obtain rfl := Option.some.inj spliced
      exact ⟨rfl, fun slot member => absurd member List.not_mem_nil, fun _ _ _ => rfl⟩
  | cons slot rest ih =>
      obtain ⟨bytes, encoded, later⟩ := Option.bind_eq_some_iff.mp spliced
      have size := sized slot List.mem_cons_self bytes encoded
      have room := inside slot List.mem_cons_self
      rw [← size] at room
      have length := splice_length room
      obtain ⟨first, others⟩ := List.pairwise_cons.mp apart
      obtain ⟨same, held, kept⟩ := ih later
        (fun other member => sized other (List.mem_cons_of_mem _ member))
        (fun other member => by rw [length]; exact inside other (List.mem_cons_of_mem _ member)) others
      refine ⟨same.trans length, ?_, ?_⟩
      · intro other member
        rcases List.mem_cons.mp member with rfl | behind
        · rw [kept _ _ first, encoded, ← size, slice_splice_self room]
        · exact held other behind
      · intro start count free
        rw [kept start count fun other member => free other (List.mem_cons_of_mem _ member)]
        apply slice_splice_apart room
        rw [size]
        exact free slot List.mem_cons_self

end Slots

section Pack

variable {externals : Externals} {values : List WireValue}

/-- The bytes of a scalar slot. -/
def scalarBytes (externals : Externals) (values : List WireValue) (slot : PackSlot) :
    Option (List UInt8) :=
  (values[slot.valueIndex]?).bind (structPack externals slot.dtype)

/-- The bytes of a shaped slot. -/
def shapedBytes (externals : Externals) (values : List WireValue) (slot : PackSlot) :
    Option (List UInt8) :=
  ((values[slot.valueIndex]?).bind (externals.asarray slot.dtype)).bind fun elements =>
    if elements.length = slot.elementCount then some elements.flatten else none

theorem packScalars_ok {slots : List PackSlot} {buffer after : List UInt8} :
    packScalars externals values slots buffer = (.ok (), after) ↔
      spliceSlots (scalarBytes externals values) slots buffer = some after := by
  induction slots generalizing buffer with
  | nil => simp [packScalars, spliceSlots]
  | cons slot rest ih =>
      unfold packScalars spliceSlots
      cases value : scalarBytes externals values slot with
      | none =>
          rw [scalarBytes] at value
          simp [value]
      | some bytes =>
          rw [scalarBytes] at value
          simp only [value, Option.bind_some]
          exact ih

theorem packShaped_ok {slots : List PackSlot} {buffer after : List UInt8} :
    packShaped externals values slots buffer = (.ok (), after) ↔
      spliceSlots (shapedBytes externals values) slots buffer = some after := by
  induction slots generalizing buffer with
  | nil => simp [packShaped, spliceSlots]
  | cons slot rest ih =>
      unfold packShaped spliceSlots shapedBytes
      cases value : (values[slot.valueIndex]?).bind (externals.asarray slot.dtype) with
      | none => simp
      | some elements =>
          by_cases size : elements.length = slot.elementCount
          · simp only [size, ne_eq, not_true_eq_false, if_false, Option.bind_some, if_true]
            exact ih
          · simp [size]

/-- The parts of a packed row. -/
theorem packRowFromList_parts {plan : PackPlan} {value : WireValue} {out row : List UInt8} :
    packRowFromList externals plan value out = (.ok (), row) ↔
      ∃ items, value.items = some items ∧ items.length = plan.expectedLen ∧
        out.length = plan.rowSize ∧ ∃ scalars,
          spliceSlots (scalarBytes externals items) plan.scalars
            (if plan.scalars = [] then out else splice out 0 (List.replicate plan.structSize 0)) =
              some scalars ∧
          spliceSlots (shapedBytes externals items) plan.shapedSlots scalars = some row := by
  unfold packRowFromList
  cases held : value.items with
  | none => simp
  | some items =>
      by_cases count : items.length = plan.expectedLen
      · by_cases length : out.length = plan.rowSize
        · simp only [count, length, ne_eq, not_true_eq_false, if_false, Option.some.injEq,
            exists_eq_left', true_and]
          generalize (if plan.scalars = [] then out else
            splice out 0 (List.replicate plan.structSize 0)) = cleared
          rcases packed : packScalars externals items plan.scalars cleared with ⟨result, scalars⟩
          cases result with
          | error error =>
              constructor
              · rintro ⟨⟩
              · rintro ⟨other, spliced, _⟩
                rw [← packScalars_ok, packed] at spliced
                cases spliced
          | ok done =>
              rw [packScalars_ok] at packed
              simp only [packed, Option.some.injEq, exists_eq_left']
              exact packShaped_ok
        · simp [count, length]
      · simp [count]

end Pack

/-- The placed fields in the order of the wire. -/
def wirePlaced (hashName : String → UInt64) (schema : FeatureSchema) : List (FeatureField × Nat) :=
  schema.placed.mergeSort fun first second => decide (hashName first.1.name ≤ hashName second.1.name)

/-- The slot of a placed field whose value has the given position. -/
def fieldSlot (entry : FeatureField × Nat) (index : Nat) : PackSlot where
  byteOffset := entry.2
  byteCount := entry.1.byteCount
  dtype := entry.1.dtype
  elementCount := entry.1.elementCount
  isTrueScalar := entry.1.shape = []
  valueIndex := index

section Plan

variable {hashName : String → UInt64} {schema : FeatureSchema}

theorem wireOrder_perm : (wireOrder hashName schema).Perm schema.fields := List.mergeSort_perm _ _

theorem mem_wireOrder {field : FeatureField} :
    field ∈ wireOrder hashName schema ↔ field ∈ schema.fields := wireOrder_perm.mem_iff

theorem wirePlaced_perm : (wirePlaced hashName schema).Perm schema.placed := List.mergeSort_perm _ _

theorem wirePlaced_fields : (wirePlaced hashName schema).map Prod.fst = wireOrder hashName schema := by
  rw [wireOrder, ← placed_fields]
  apply List.map_mergeSort
  intro first _ second _
  rfl

/-- The row-relative table holds the placed fields in the order of the wire. -/
theorem computeRowOffsetTable_sorted {table : List OffsetRow}
    (computed : computeRowOffsetTable hashName schema = .ok table) :
    table = (wirePlaced hashName schema).map (placedRow hashName) := by
  unfold computeRowOffsetTable at computed
  cases compiled : compileSchema hashName schema with
  | error error => simp [compiled, bind, Except.bind] at computed
  | ok sorted =>
      simp only [compiled, bind, Except.bind, pure, Except.pure, Except.ok.injEq] at computed
      have header : schema.fields.zip (fieldByteOffsets schema.fields headerSize) =
          schema.placed.map fun entry => (entry.1, entry.2 + cacheLineSize) := by
        rw [fieldByteOffsets_header schema.fieldsNonempty, List.zip_map_right]
        rfl
      have moved : (schema.fields.zip (fieldByteOffsets schema.fields headerSize)).mergeSort
          (fun first second => decide (hashName first.1.name ≤ hashName second.1.name)) =
          (wirePlaced hashName schema).map fun entry => (entry.1, entry.2 + cacheLineSize) := by
        rw [header]
        symm
        apply List.map_mergeSort
        intro first _ second _
        rfl
      rw [compileSchema_first compiled, compileSchema_sorted compiled, moved, List.map_map,
        List.map_map] at computed
      rw [← computed]
      apply List.map_congr_left
      intro entry _
      simp [placedRow]

/-- A table is computed only when the hashes of the names are distinct. -/
theorem computeRowOffsetTable_distinct {table : List OffsetRow}
    (computed : computeRowOffsetTable hashName schema = .ok table) :
    (schema.fields.map fun field => hashName field.name).Nodup := by
  have hashes := (computeRowOffsetTable_spec computed).2
  rw [computeRowOffsetTable_sorted computed, List.map_map] at hashes
  have fields := (@wirePlaced_perm hashName schema).map fun entry => hashName entry.1.name
  rw [← placed_fields, List.map_map]
  exact fields.nodup_iff.mp hashes

theorem buildPlan_hashes {plan : PackPlan} (built : buildPlan hashName schema = .ok plan) :
    (schema.fields.map fun field => hashName field.name).Nodup := by
  unfold buildPlan at built
  cases computed : computeRowOffsetTable hashName schema with
  | error error => simp [computed, bind, Except.bind] at built
  | ok table => exact computeRowOffsetTable_distinct computed

/-- The plan walks one slot for each field, at the place of the field. -/
theorem planSlots_perm {table : List OffsetRow}
    (computed : computeRowOffsetTable hashName schema = .ok table) :
    (planSlots hashName schema table).Perm
      ((wirePlaced hashName schema).zipIdx.map fun entry => fieldSlot entry.1 entry.2) := by
  have sorted := computeRowOffsetTable_sorted computed
  have distinct := computeRowOffsetTable_distinct computed
  refine (List.mergeSort_perm _ _).trans ?_
  rw [sorted, List.zipIdx_map, List.map_map]
  apply List.Perm.of_eq
  apply List.map_congr_left
  rintro ⟨entry, index⟩ member
  have place := wirePlaced_perm.mem_iff.mp (List.fst_mem_of_mem_zipIdx member)
  have found := find_by_hash distinct (List.of_mem_zip place).1
  change PackSlot.mk entry.2 entry.1.byteCount entry.1.dtype entry.1.elementCount
    (decide ((schema.fields.reverse.find? fun field =>
      decide (hashName field.name = hashName entry.1.name)).map FeatureField.shape =
        some [])) index = _
  rw [found]
  simp [fieldSlot]

/-- The slots of the fields lie apart. -/
theorem fieldSlots_apart :
    ((wirePlaced hashName schema).zipIdx.map fun entry => fieldSlot entry.1 entry.2).Pairwise
      PackSlot.Apart := by
  have declared : schema.placed.Pairwise fun first second =>
      (fieldSlot first 0).Apart (fieldSlot second 0) :=
    (placed_apart schema.fields 0).imp Or.inl
  have wired : (wirePlaced hashName schema).Pairwise fun first second =>
      (fieldSlot first 0).Apart (fieldSlot second 0) :=
    (wirePlaced_perm.pairwise_iff fun apart => apart.symm).mpr declared
  rw [List.pairwise_map]
  rw [← List.zipIdx_map_fst 0 (wirePlaced hashName schema), List.pairwise_map] at wired
  exact wired.imp fun apart => apart

/-- A plan is made from its slots. -/
theorem buildPlan_eq {plan : PackPlan} (built : buildPlan hashName schema = .ok plan) :
    ∃ table rows, computeRowOffsetTable hashName schema = .ok table ∧
      rowSize hashName schema = .ok rows ∧
      plan = {
        scalars := (planSlots hashName schema table).filter PackSlot.isTrueScalar
        shapedSlots := (planSlots hashName schema table).filter fun slot => !slot.isTrueScalar
        structSize := ((planSlots hashName schema table).map fun slot =>
          slot.byteOffset + slot.byteCount).max?.getD 0
        expectedLen := table.length
        rowSize := rows } := by
  unfold buildPlan at built
  cases computed : computeRowOffsetTable hashName schema with
  | error error => simp [computed, bind, Except.bind] at built
  | ok table =>
      cases sized : rowSize hashName schema with
      | error error => simp [computed, sized, bind, Except.bind] at built
      | ok rows =>
          simp only [computed, sized, bind, Except.bind, pure, Except.pure, Except.ok.injEq] at built
          exact ⟨table, rows, rfl, rfl, built.symm⟩

/-- The plan has one slot for each field, at the place of the field. -/
theorem buildPlan_slots {plan : PackPlan} (built : buildPlan hashName schema = .ok plan) :
    plan.expectedLen = schema.fields.length ∧ ∃ slots : List PackSlot,
      slots.Perm ((wirePlaced hashName schema).zipIdx.map fun entry => fieldSlot entry.1 entry.2) ∧
      plan.scalars = slots.filter PackSlot.isTrueScalar ∧
      plan.shapedSlots = slots.filter fun slot => !slot.isTrueScalar := by
  obtain ⟨table, rows, computed, _, rfl⟩ := buildPlan_eq built
  refine ⟨?_, _, planSlots_perm computed, rfl, rfl⟩
  rw [computeRowOffsetTable_sorted computed, List.length_map, wirePlaced_perm.length_eq,
    ← List.length_map (f := Prod.fst), placed_fields]

end Plan

/-- The elements of the value of a field, as the pack encodes them. -/
def encodeField (externals : Externals) (field : FeatureField) (value : WireValue) :
    Option (List (List UInt8)) :=
  if field.shape = [] then (structPack externals field.dtype value).map fun bytes => [bytes]
  else
    (externals.asarray field.dtype value).bind fun elements =>
      if elements.length = field.elementCount then some elements else none

/-- Every field of a row holds the encoding of its value; the values are in the order of the wire. -/
def HoldsValues (externals : Externals) (schema : FeatureSchema) (items : List WireValue)
    (row : List UInt8) : Prop :=
  List.Forall₂ (fun entry value =>
      (encodeField externals entry.1 value).map List.flatten =
        some (slice row entry.2 entry.1.byteCount))
    (wirePlaced externals.hashName schema) items

section Rows

variable {externals : Externals} {schema : FeatureSchema} {items : List WireValue}

/-- The elements of a field have the size of its type, and there are as many as in its shape. -/
theorem encodeField_sized {field : FeatureField} {value : WireValue} {elements : List (List UInt8)}
    (encoded : encodeField externals field value = some elements) :
    elements.length = field.elementCount ∧ ∀ element ∈ elements, element.length = field.dtype.byteSize := by
  unfold encodeField at encoded
  split at encoded
  · rename_i scalar
    obtain ⟨bytes, packed, rfl⟩ := Option.map_eq_some_iff.mp encoded
    constructor
    · simp [FeatureField.elementCount, scalar, elementProduct]
    · intro element member
      rw [List.mem_singleton.mp member]
      exact structPack_length packed
  · obtain ⟨array, converted, counted⟩ := Option.bind_eq_some_iff.mp encoded
    split at counted
    · rename_i count
      obtain rfl := Option.some.inj counted
      exact ⟨count, externals.asarraySize _ _ _ converted⟩
    · cases counted

theorem encodeField_bytes {field : FeatureField} {value : WireValue} {elements : List (List UInt8)}
    (encoded : encodeField externals field value = some elements) :
    elements.flatten.length = field.byteCount := by
  obtain ⟨count, sizes⟩ := encodeField_sized encoded
  rw [List.length_flatten, List.map_congr_left sizes]
  simp [FeatureField.byteCount, count]

/-- The bytes of the slot of a field. -/
def slotBytesOf (externals : Externals) (items : List WireValue) (slot : PackSlot) :
    Option (List UInt8) :=
  if slot.isTrueScalar then scalarBytes externals items slot else shapedBytes externals items slot

theorem slotBytesOf_field (entry : FeatureField × Nat) (index : Nat) :
    slotBytesOf externals items (fieldSlot entry index) =
      (items[index]?).bind fun value => (encodeField externals entry.1 value).map List.flatten := by
  unfold slotBytesOf scalarBytes shapedBytes encodeField fieldSlot
  by_cases scalar : entry.1.shape = []
  · simp only [scalar, decide_true, if_true]
    cases items[index]? with
    | none => rfl
    | some value =>
        simp only [Option.bind_some]
        generalize structPack externals entry.1.dtype value = packed
        cases packed <;> simp
  · simp only [scalar, decide_false, Bool.false_eq_true, if_false]
    cases items[index]? with
    | none => rfl
    | some value =>
        simp only [Option.bind_some]
        cases externals.asarray entry.1.dtype value with
        | none => rfl
        | some elements =>
            simp only [Option.bind_some]
            split <;> rfl

/-- The slots of a plan, with what the pack needs of them. -/
structure SlotsOf (externals : Externals) (schema : FeatureSchema) (plan : PackPlan)
    (slots : List PackSlot) : Prop where
  listed : ∀ slot, slot ∈ slots ↔ ∃ entry index,
    (wirePlaced externals.hashName schema)[index]? = some entry ∧ slot = fieldSlot entry index
  apart : slots.Pairwise PackSlot.Apart
  scalars : plan.scalars = slots.filter PackSlot.isTrueScalar
  shaped : plan.shapedSlots = slots.filter fun slot => !slot.isTrueScalar
  inside : ∀ slot ∈ slots, slot.byteOffset + slot.byteCount ≤ plan.rowSize

theorem buildPlan_slotsOf {plan : PackPlan} (built : buildPlan externals.hashName schema = .ok plan) :
    ∃ slots, SlotsOf externals schema plan slots := by
  obtain ⟨_, slots, perm, scalars, shaped⟩ := buildPlan_slots built
  obtain ⟨_, _, scalarFits, shapedFits⟩ := buildPlan_fits built
  refine ⟨slots, ⟨?_, ?_, scalars, shaped, ?_⟩⟩
  · intro slot
    rw [perm.mem_iff, List.mem_map]
    constructor
    · rintro ⟨⟨entry, index⟩, member, rfl⟩
      exact ⟨entry, index, List.mem_zipIdx_iff_getElem?.mp member, rfl⟩
    · rintro ⟨entry, index, place, rfl⟩
      exact ⟨(entry, index), List.mem_zipIdx_iff_getElem?.mpr place, rfl⟩
  · rw [perm.pairwise_iff fun apart => apart.symm]
    exact fieldSlots_apart
  · intro slot member
    by_cases scalar : slot.isTrueScalar = true
    · exact (scalarFits slot (scalars ▸ List.mem_filter.mpr ⟨member, scalar⟩)).inside
    · exact (shapedFits slot (shaped ▸ List.mem_filter.mpr ⟨member, by simpa using scalar⟩)).inside

section Packed

variable {plan : PackPlan} {slots : List PackSlot} (slotsOf : SlotsOf externals schema plan slots)

include slotsOf in
/-- The bytes of a slot fill it. -/
theorem SlotsOf.sized {slot : PackSlot} (member : slot ∈ slots) {bytes : List UInt8}
    (held : slotBytesOf externals items slot = some bytes) : bytes.length = slot.byteCount := by
  obtain ⟨entry, index, _, rfl⟩ := (slotsOf.listed slot).mp member
  rw [slotBytesOf_field] at held
  obtain ⟨value, _, mapped⟩ := Option.bind_eq_some_iff.mp held
  obtain ⟨elements, encoded, rfl⟩ := Option.map_eq_some_iff.mp mapped
  exact encodeField_bytes encoded

include slotsOf in
/-- After the two splices every slot holds its bytes. -/
theorem SlotsOf.held {cleared scalars row : List UInt8} (size : cleared.length = plan.rowSize)
    (first : spliceSlots (scalarBytes externals items) plan.scalars cleared = some scalars)
    (second : spliceSlots (shapedBytes externals items) plan.shapedSlots scalars = some row) :
    row.length = plan.rowSize ∧ ∀ slot ∈ slots,
      slotBytesOf externals items slot = some (slice row slot.byteOffset slot.byteCount) := by
  rw [slotsOf.scalars] at first
  rw [slotsOf.shaped] at second
  obtain ⟨firstLength, firstHeld, _⟩ := spliceSlots_spec first
    (by
      intro slot member bytes held
      obtain ⟨inside, scalar⟩ := List.mem_filter.mp member
      exact slotsOf.sized inside (by rw [slotBytesOf, if_pos scalar]; exact held))
    (by
      intro slot member
      rw [size]
      exact slotsOf.inside slot (List.mem_filter.mp member).1)
    (slotsOf.apart.filter _)
  obtain ⟨secondLength, secondHeld, kept⟩ := spliceSlots_spec second
    (by
      intro slot member bytes held
      obtain ⟨inside, shaped⟩ := List.mem_filter.mp member
      exact slotsOf.sized inside (by rw [slotBytesOf, if_neg (by simpa using shaped)]; exact held))
    (by
      intro slot member
      rw [firstLength, size]
      exact slotsOf.inside slot (List.mem_filter.mp member).1)
    (slotsOf.apart.filter _)
  refine ⟨by omega, ?_⟩
  intro slot member
  by_cases scalar : slot.isTrueScalar = true
  · rw [slotBytesOf, if_pos scalar, kept, firstHeld slot (List.mem_filter.mpr ⟨member, scalar⟩)]
    intro other later
    obtain ⟨inside, shaped⟩ := List.mem_filter.mp later
    refine slotsOf.apart.forall member inside ?_
    rintro rfl
    simp [scalar] at shaped
  · rw [slotBytesOf, if_neg scalar, secondHeld slot (List.mem_filter.mpr ⟨member, by simpa using scalar⟩)]

include slotsOf in
/-- The splices succeed when every field of the schema can be encoded. -/
theorem SlotsOf.encoded (encoded : List.Forall₂
      (fun field value => (encodeField externals field value).isSome = true)
      (wireOrder externals.hashName schema) items) :
    ∀ slot ∈ slots, (slotBytesOf externals items slot).isSome = true := by
  intro slot member
  obtain ⟨entry, index, place, rfl⟩ := (slotsOf.listed slot).mp member
  obtain ⟨inside, entryAt⟩ := List.getElem?_eq_some_iff.mp place
  have bound : index < (wireOrder externals.hashName schema).length := by
    rw [← wirePlaced_fields, List.length_map]
    exact inside
  have there : index < items.length := encoded.length_eq ▸ bound
  have field : (wireOrder externals.hashName schema).get ⟨index, bound⟩ = entry.1 := by
    simp [← wirePlaced_fields, entryAt]
  have value := encoded.get bound there
  rw [field] at value
  rw [slotBytesOf_field, List.getElem?_eq_getElem there, Option.bind_some, Option.isSome_map]
  exact value

end Packed

variable {plan : PackPlan}

theorem cleared_length (built : buildPlan externals.hashName schema = .ok plan) {out : List UInt8}
    (size : out.length = plan.rowSize) :
    (if plan.scalars = [] then out
      else splice out 0 (List.replicate plan.structSize 0)).length = plan.rowSize := by
  obtain ⟨_, struct, _⟩ := buildPlan_fits built
  split
  · exact size
  · rw [splice_length (by simp; omega), size]

/-- A packed row holds the value of every field. -/
theorem packRowFromList_holds (built : buildPlan externals.hashName schema = .ok plan)
    {value : WireValue} {out row : List UInt8}
    (packed : packRowFromList externals plan value out = (.ok (), row)) :
    row.length = plan.rowSize ∧ out.length = plan.rowSize ∧
      ∃ items, value.items = some items ∧ HoldsValues externals schema items row := by
  obtain ⟨items, listed, count, size, scalars, first, second⟩ := packRowFromList_parts.mp packed
  obtain ⟨slots, slotsOf⟩ := buildPlan_slotsOf built
  obtain ⟨length, held⟩ := slotsOf.held (cleared_length built size) first second
  refine ⟨length, size, items, listed, List.forall₂_iff_get.mpr ⟨?_, ?_⟩⟩
  · rw [count, (buildPlan_slots built).1, wirePlaced_perm.length_eq, ← List.length_map (f := Prod.fst),
      placed_fields]
  · intro index inside there
    have place := List.getElem?_eq_getElem inside
    have slot := held _ ((slotsOf.listed _).mpr ⟨_, index, place, rfl⟩)
    rw [slotBytesOf_field, List.getElem?_eq_getElem there, Option.bind_some] at slot
    exact slot

/-- A list is packed exactly when every field can encode its value and the buffer has the row size. -/
theorem packRowFromList_succeeds (built : buildPlan externals.hashName schema = .ok plan)
    (value : WireValue) (out : List UInt8) :
    (packRowFromList externals plan value out).1 = .ok () ↔
      out.length = plan.rowSize ∧ ∃ items, value.items = some items ∧
        List.Forall₂ (fun field value => (encodeField externals field value).isSome = true)
          (wireOrder externals.hashName schema) items := by
  constructor
  · intro succeeded
    obtain ⟨_, size, items, listed, held⟩ := packRowFromList_holds built
      (Prod.ext succeeded rfl : packRowFromList externals plan value out = (.ok (), _))
    refine ⟨size, items, listed, ?_⟩
    rw [← wirePlaced_fields, List.forall₂_map_left_iff]
    refine held.imp ?_
    intro entry item encoded
    rw [← Option.isSome_map, encoded]
    rfl
  · rintro ⟨size, items, listed, encoded⟩
    obtain ⟨slots, slotsOf⟩ := buildPlan_slotsOf built
    have bytes := slotsOf.encoded encoded
    have scalars : (spliceSlots (scalarBytes externals items) plan.scalars
        (if plan.scalars = [] then out
          else splice out 0 (List.replicate plan.structSize 0))).isSome = true := by
      rw [spliceSlots_isSome, slotsOf.scalars]
      intro slot member
      obtain ⟨inside, scalar⟩ := List.mem_filter.mp member
      have present := bytes slot inside
      rwa [slotBytesOf, if_pos scalar] at present
    obtain ⟨buffer, first⟩ := Option.isSome_iff_exists.mp scalars
    have shaped : (spliceSlots (shapedBytes externals items) plan.shapedSlots buffer).isSome = true := by
      rw [spliceSlots_isSome, slotsOf.shaped]
      intro slot member
      obtain ⟨inside, shaped⟩ := List.mem_filter.mp member
      have present := bytes slot inside
      rwa [slotBytesOf, if_neg (by simpa using shaped)] at present
    obtain ⟨row, second⟩ := Option.isSome_iff_exists.mp shaped
    have count : items.length = plan.expectedLen := by
      rw [← encoded.length_eq, (buildPlan_slots built).1, ← wirePlaced_fields, List.length_map,
        wirePlaced_perm.length_eq, ← List.length_map (f := Prod.fst), placed_fields]
    rw [packRowFromList_parts.mpr ⟨items, listed, count, size, buffer, first, second⟩]

end Rows

end Quorin
