import Quorin.Proof.Serving.Probes
import Quorin.Proof.Evolution.FieldOffsets

namespace Quorin

open ByteMemory LinearProbe

/-- The rows of the assembly table cover the output, and each has the bytes of its elements. -/
structure AssemblySound (layout : SegmentLayout) : Prop where
  bytes : ∀ row ∈ layout.assemblyTable, row.byteCount = row.elementCount * row.dtype.byteSize
  total : layout.totalElementCount = (layout.assemblyTable.map OffsetRow.elementCount).sum

theorem computeLayout_assembly {hashName : String → UInt64} {schema : FeatureSchema}
    {capacity maxIdBytes : Int} {layout : SegmentLayout}
    (computed : computeLayout hashName schema capacity maxIdBytes = .ok layout) :
    AssemblySound layout := by
  obtain ⟨_, _, assembly, elements, _⟩ := computeLayout_parts computed
  constructor
  · intro row member
    rw [assembly] at member
    obtain ⟨entry, _, rfl⟩ := List.mem_map.mp member
    rfl
  · have counts : (computeAssemblyTable hashName schema).map OffsetRow.elementCount =
        schema.fields.map FeatureField.elementCount := by
      have shape := congrArg (List.map FeatureField.elementCount) (placed_fields schema)
      rw [List.map_map] at shape
      rw [← shape, computeAssemblyTable, offsetRows, List.map_map]
      rfl
    rw [elements, assembly, counts, totalElementCount]

section Buffers

variable {F : Type}

/-- A loop of element writes replaces one range of the buffer. -/
theorem foldl_set (value : Nat → F) (cursor count : Nat) {out : List F}
    (fits : cursor + count ≤ out.length) :
    (List.range count).foldl (fun filled index => filled.set (cursor + index) (value index)) out =
      out.take cursor ++ (List.range count).map value ++ out.drop (cursor + count) := by
  induction count with
  | zero => simp
  | succ count ih =>
      have length : (out.take cursor ++ (List.range count).map value).length = cursor + count := by
        simp
        omega
      rw [List.range_succ, List.foldl_append, ih (by omega), List.foldl_cons, List.foldl_nil,
        List.set_append_right _ _ (by omega), length, Nat.sub_self,
        List.drop_eq_getElem_cons (by omega), List.set_cons_zero, List.map_append]
      simp [Nat.add_assoc]

/-- A slice of a read is the read of its part. -/
theorem slice_read (memory : Memory) (address : Nat) {start count length : Nat}
    (fits : start + count ≤ length) :
    slice (memory.read address length) start count = memory.read (address + start) count := by
  apply List.ext_getElem
  · simp [slice]
    omega
  · intro index _ _
    simp [slice, Nat.add_assoc]

end Buffers

section Vectors

variable {F : Type} (toFloat32 : DType → List UInt8 → F) (memory : Memory)

/-- The float32 vector of the row at an address, in declaration order. -/
def featureVector (layout : SegmentLayout) (rowOffset : Nat) : List F :=
  (layout.assemblyTable.map (fieldValues toFloat32 memory rowOffset)).flatten

theorem fieldValues_length (rowOffset : Nat) (row : OffsetRow) :
    (fieldValues toFloat32 memory rowOffset row).length = row.elementCount := by
  simp [fieldValues]

theorem featureVector_length {layout : SegmentLayout} (sound : AssemblySound layout)
    (rowOffset : Nat) :
    (featureVector toFloat32 memory layout rowOffset).length = layout.totalElementCount := by
  rw [featureVector, List.length_flatten, List.map_map, sound.total]
  exact congrArg List.sum (List.map_congr_left fun row _ =>
    fieldValues_length toFloat32 memory rowOffset row)

/-- The dtype ladder of the kernels reads the elements that the Python loop reads. -/
theorem castElement_eq {row : OffsetRow} (bytes : row.byteCount = row.elementCount * row.dtype.byteSize)
    (rowOffset : Nat) {index : Nat} (inside : index < row.elementCount) :
    castElement toFloat32 row.dtype.code (memory.read (rowOffset + row.byteOffset) row.byteCount)
        index =
      toFloat32 row.dtype
        (memory.read (rowOffset + row.byteOffset + index * row.dtype.byteSize) row.dtype.byteSize) := by
  have fits : index * row.dtype.byteSize + row.dtype.byteSize ≤ row.byteCount := by
    rw [bytes, ← Nat.succ_mul]
    exact Nat.mul_le_mul_right _ inside
  have part := slice_read memory (rowOffset + row.byteOffset) fits
  rw [← part]
  cases row.dtype with
  | float32 => rfl
  | float64 => rfl
  | int32 => rfl
  | int64 => rfl
  | uint8 => simp [castElement, DType.code, DType.byteSize]

/-- The Python loop fills the buffer behind the cursor with the fields of the row. -/
theorem servingFields_eq (rowOffset : Nat) (rows : List OffsetRow) {cursor : Nat} {out : List F}
    (size : out.length = cursor + (rows.map OffsetRow.elementCount).sum) :
    servingFields toFloat32 memory rowOffset rows cursor out =
      out.take cursor ++ (rows.map (fieldValues toFloat32 memory rowOffset)).flatten := by
  induction rows generalizing cursor out with
  | nil =>
      simp only [List.map_nil, List.sum_nil, Nat.add_zero] at size
      simp [servingFields, ← size]
  | cons row rest ih =>
      rw [List.map_cons, List.sum_cons] at size
      have values := fieldValues_length toFloat32 memory rowOffset row
      have first : (out.take cursor ++ fieldValues toFloat32 memory rowOffset row).length =
          cursor + row.elementCount := by
        rw [List.length_append, List.length_take, values]
        omega
      rw [servingFields, ih, List.take_left' first, List.map_cons, List.flatten_cons,
        List.append_assoc]
      rw [List.length_append, first, List.length_drop]
      omega

/-- The kernel loop computes what the Python loop computes. -/
theorem assembleFields_eq (rowOffset : Nat) (rows : List OffsetRow) {cursor : Nat} {out : List F}
    (bytes : ∀ row ∈ rows, row.byteCount = row.elementCount * row.dtype.byteSize)
    (size : out.length = cursor + (rows.map OffsetRow.elementCount).sum) :
    assembleFields toFloat32 memory rowOffset rows cursor out =
      servingFields toFloat32 memory rowOffset rows cursor out := by
  induction rows generalizing cursor out with
  | nil => rfl
  | cons row rest ih =>
      rw [List.map_cons, List.sum_cons] at size
      have values : (List.range row.elementCount).map (castElement toFloat32 row.dtype.code
          (memory.read (rowOffset + row.byteOffset) row.byteCount)) =
            fieldValues toFloat32 memory rowOffset row := by
        apply List.map_congr_left
        intro index member
        exact castElement_eq toFloat32 memory (bytes row List.mem_cons_self) rowOffset
          (List.mem_range.mp member)
      rw [assembleFields, servingFields, foldl_set _ _ _ (by omega), values, ih]
      · exact fun other later => bytes other (List.mem_cons_of_mem _ later)
      · rw [List.length_append, List.length_append, List.length_take, List.length_drop,
          fieldValues_length]
        omega

end Vectors

section Answers

variable {F : Type} (toFloat32 : DType → List UInt8 → F) (zero : F)
  {hashId : List UInt8 → UInt64} {layout : SegmentLayout} (sound : LayoutSound layout)
  (assembly : AssemblySound layout) {memory : Memory}
  (consistent : Consistent hashId layout memory)

/-- The vector of an entity, when the segment holds it. -/
def readAnswer (toFloat32 : DType → List UInt8 → F) (layout : SegmentLayout) (memory : Memory)
    (entityId : String) : Option (List F) :=
  (findSlot layout memory (encodeUtf8 entityId)).map fun index =>
    featureVector toFloat32 memory layout (layout.rowAddress (slotRow layout memory index))

/-- The buffer of a call has the size of a vector. -/
theorem chooseOut_length {undefined : Nat → F} {out : Option (OutVector F)}
    (suits : ∀ given, out = some given → given.suits layout = true) :
    ∃ data, chooseOut layout undefined out = .ok data ∧
      data.length = layout.totalElementCount := by
  cases out with
  | none => exact ⟨_, rfl, by simp⟩
  | some given =>
      have fits := suits given rfl
      refine ⟨given.data, if_pos fits, ?_⟩
      simp only [OutVector.suits, Bool.and_eq_true, decide_eq_true_eq] at fits
      exact fits.1.1.1

include assembly in
theorem servingFields_vector (rowOffset : Nat) {out : List F}
    (size : out.length = layout.totalElementCount) :
    servingFields toFloat32 memory rowOffset layout.assemblyTable 0 out =
      featureVector toFloat32 memory layout rowOffset := by
  rw [servingFields_eq toFloat32 memory rowOffset _ (by rw [size, assembly.total, Nat.zero_add])]
  rfl

include assembly in
theorem assembleFields_vector (rowOffset : Nat) {out : List F}
    (size : out.length = layout.totalElementCount) :
    assembleFields toFloat32 memory rowOffset layout.assemblyTable 0 out =
      featureVector toFloat32 memory layout rowOffset := by
  rw [assembleFields_eq toFloat32 memory rowOffset _ assembly.bytes
    (by rw [size, assembly.total, Nat.zero_add])]
  exact servingFields_vector toFloat32 assembly rowOffset size

include sound consistent in
theorem lookup_answer {entityId : String} (nonempty : entityId ≠ "") :
    (lookup hashId layout entityId).result memory =
      .ok ((findSlot layout memory (encodeUtf8 entityId)).map fun index =>
        layout.rowAddress (slotRow layout memory index)) := by
  rw [Program.result, lookup_trace sound consistent nonempty]

include sound consistent in
theorem lookupJit_answer {entityId : String} (nonempty : entityId ≠ "") :
    (lookupJit hashId layout entityId).result memory =
      .ok ((findSlot layout memory (encodeUtf8 entityId)).map fun index =>
        layout.rowAddress (slotRow layout memory index)) := by
  rw [lookupJit, if_neg nonempty, Program.result, lookupCore, lookupWalk_trace sound consistent
    fun index inside => probeSlotCore_trace consistent inside (encodeUtf8 entityId)]

include sound assembly consistent in
/-- The Python path answers with the vector of the entity. -/
theorem servingAssemble_answer (undefined : Nat → F) {entityId : String} (nonempty : entityId ≠ "")
    {out : Option (OutVector F)} (suits : ∀ given, out = some given → given.suits layout = true) :
    servingAssemble toFloat32 memory hashId layout undefined entityId out =
      match readAnswer toFloat32 layout memory entityId with
      | some vector => .ok vector
      | none => .error (.entityNotFound entityId) := by
  obtain ⟨data, chosen, size⟩ := @chooseOut_length F layout undefined out suits
  rw [servingAssemble, lookup_answer sound consistent nonempty, readAnswer]
  cases findSlot layout memory (encodeUtf8 entityId) with
  | none => rfl
  | some index =>
      simp only [Option.map_some, chosen]
      rw [servingFields_vector toFloat32 assembly _ size]

include sound assembly consistent in
/-- The compiled path answers with the vector of the entity. -/
theorem assemble_answer (undefined : Nat → F) {entityId : String} (nonempty : entityId ≠ "")
    {out : Option (OutVector F)} (suits : ∀ given, out = some given → given.suits layout = true) :
    assemble toFloat32 memory hashId layout undefined entityId out =
      match readAnswer toFloat32 layout memory entityId with
      | some vector => .ok vector
      | none => .error (.entityNotFound entityId) := by
  obtain ⟨data, chosen, size⟩ := @chooseOut_length F layout undefined out suits
  rw [assemble, lookupJit_answer sound consistent nonempty, readAnswer]
  cases findSlot layout memory (encodeUtf8 entityId) with
  | none => rfl
  | some index =>
      simp only [Option.map_some, chosen]
      rw [assembleCore, assembleFields_vector toFloat32 assembly _ size]

/-- The row of a batch for an id. -/
def batchRow (toFloat32 : DType → List UInt8 → F) (zero : F) (layout : SegmentLayout)
    (memory : Memory) (entityId : String) : List F :=
  (readAnswer toFloat32 layout memory entityId).getD (List.replicate layout.totalElementCount zero)

include assembly in
theorem batchRow_length (entityId : String) :
    (batchRow toFloat32 zero layout memory entityId).length = layout.totalElementCount := by
  unfold batchRow readAnswer
  cases findSlot layout memory (encodeUtf8 entityId) with
  | none => simp
  | some index => exact featureVector_length toFloat32 memory assembly _

/-- The queries of a batch of ids. -/
theorem batchQueries_getElem (hashId : List UInt8 → UInt64) (entityIds : List String) {index : Nat}
    {entityId : String} (found : entityIds[index]? = some entityId) :
    ∃ query, (batchQueries hashId (entityIds.map encodeBatchId))[index]? =
        some ⟨hashId (encodeUtf8 entityId), query⟩ ∧
      query.length = (encodeUtf8 entityId).length ∧
      query.bytes.take query.length = encodeUtf8 entityId := by
  have padded : ∀ width, (padId width (encodeUtf8 entityId)).bytes.take
      (padId width (encodeUtf8 entityId)).length = encodeUtf8 entityId :=
    fun width => List.take_left
  refine ⟨padId (((entityIds.map encodeBatchId).map List.length).foldl max 0)
    (encodeUtf8 entityId), ?_, rfl, padded _⟩
  rw [batchQueries, List.getElem?_map, List.getElem?_map, found]
  simp only [Option.map_some, encodeBatchId_eq, padded]

include sound assembly consistent in
/-- One iteration of the batch kernels fills its row and its entry of the mask. -/
theorem assembleBatchRow_eq {entityIds : List String} {index : Nat} {entityId : String}
    (found : entityIds[index]? = some entityId) {state : List (List F) × List Bool}
    (sizes : ∀ row ∈ state.1, row.length = layout.totalElementCount) :
    assembleBatchRow toFloat32 zero memory layout
        (batchQueries hashId (entityIds.map encodeBatchId)) state index =
      (state.1.set index (batchRow toFloat32 zero layout memory entityId),
        state.2.set index (readAnswer toFloat32 layout memory entityId).isSome) := by
  obtain ⟨query, stored, length, bytes⟩ := batchQueries_getElem hashId entityIds found
  have walk : (lookupLoop layout (probeSlotBatch layout (hashId (encodeUtf8 entityId)) query)
      layout.slotCapacity (homeIndex layout (hashId (encodeUtf8 entityId)))).result memory =
        .ok ((findSlot layout memory (encodeUtf8 entityId)).map fun slot =>
          layout.rowAddress (slotRow layout memory slot)) := by
    rw [Program.result, lookupWalk_trace sound consistent fun slot inside =>
      probeSlotBatch_trace consistent inside length bytes]
  have replaced : ∀ (change : List F → List F) (target : List F),
      (∀ row, row.length = layout.totalElementCount → change row = target) →
        state.1.modify index change = state.1.set index target := by
    intro change target fills
    apply List.ext_getElem?
    intro place
    rw [List.getElem?_modify, List.getElem?_set]
    by_cases same : index = place
    · subst same
      cases row : state.1[index]? with
      | none =>
          have outside : ¬ index < state.1.length := by
            rw [List.getElem?_eq_none_iff] at row
            omega
          simp [outside]
      | some content =>
          have inside : index < state.1.length := (List.getElem?_eq_some_iff.mp row).1
          simp [inside, fills content (sizes content (List.mem_of_getElem? row))]
    · simp [same]
  unfold assembleBatchRow
  rw [stored]
  simp only [walk]
  unfold batchRow readAnswer
  cases findSlot layout memory (encodeUtf8 entityId) with
  | none =>
      refine Prod.ext (replaced _ _ fun row size => ?_) rfl
      have filled := foldl_set (fun _ => zero) 0 row.length (Nat.le_of_eq (Nat.zero_add _))
      simp only [Nat.zero_add] at filled
      rw [filled, size]
      simp [List.map_const', ← size]
  | some slot =>
      exact Prod.ext (replaced _ _ fun row size =>
        assembleFields_vector toFloat32 assembly _ size) rfl

include sound assembly consistent in
/-- Iterations in any order fill exactly the rows that they visit. -/
theorem assembleBatchRows_getElem (entityIds : List String) {order : List Nat}
    (inside : ∀ index ∈ order, index < entityIds.length) {state : List (List F) × List Bool}
    (rowsLength : state.1.length = entityIds.length)
    (maskLength : state.2.length = entityIds.length)
    (sizes : ∀ row ∈ state.1, row.length = layout.totalElementCount) :
    let after := order.foldl (assembleBatchRow toFloat32 zero memory layout
      (batchQueries hashId (entityIds.map encodeBatchId))) state
    after.1.length = entityIds.length ∧ after.2.length = entityIds.length ∧
    ∀ index, index < entityIds.length →
      after.1[index]? = (if index ∈ order then
        (entityIds[index]?).map (batchRow toFloat32 zero layout memory) else state.1[index]?) ∧
      after.2[index]? = (if index ∈ order then
        (entityIds[index]?).map fun entityId =>
          (readAnswer toFloat32 layout memory entityId).isSome else state.2[index]?) := by
  induction order generalizing state with
  | nil => exact ⟨rowsLength, maskLength, fun index _ => ⟨rfl, rfl⟩⟩
  | cons first rest ih =>
      intro after
      have firstInside := inside first List.mem_cons_self
      have found : entityIds[first]? = some entityIds[first] := List.getElem?_eq_getElem firstInside
      have step := assembleBatchRow_eq toFloat32 zero sound assembly consistent found sizes
      have rest' := @ih (fun other later => inside other (List.mem_cons_of_mem _ later))
        (state.1.set first (batchRow toFloat32 zero layout memory entityIds[first]),
          state.2.set first (readAnswer toFloat32 layout memory entityIds[first]).isSome)
        (by rw [List.length_set, rowsLength]) (by rw [List.length_set, maskLength])
        (by
          intro row member
          rcases List.mem_or_eq_of_mem_set member with old | rfl
          · exact sizes row old
          · exact batchRow_length toFloat32 zero assembly _)
      rw [← step] at rest'
      obtain ⟨rowsAfter, maskAfter, entries⟩ := rest'
      refine ⟨rowsAfter, maskAfter, fun index bound => ?_⟩
      obtain ⟨rows, mask⟩ := entries index bound
      refine ⟨?_, ?_⟩
      · refine rows.trans ?_
        by_cases later : index ∈ rest
        · simp [later]
        · by_cases here : first = index
          · subst here
            simp [later, step, rowsLength, firstInside]
          · have elsewhere : index ≠ first := fun same => here same.symm
            simp [later, step, here, elsewhere]
      · refine mask.trans ?_
        by_cases later : index ∈ rest
        · simp [later]
        · by_cases here : first = index
          · subst here
            simp [later, step, maskLength, firstInside]
          · have elsewhere : index ≠ first := fun same => here same.symm
            simp [later, step, here, elsewhere]

include sound assembly consistent in
/-- Iterations in any order that visit every row fill the whole batch. -/
theorem assembleBatchRows_eq (entityIds : List String) {order : List Nat}
    (complete : order.Perm (List.range entityIds.length)) {state : List (List F) × List Bool}
    (rowsLength : state.1.length = entityIds.length)
    (maskLength : state.2.length = entityIds.length)
    (sizes : ∀ row ∈ state.1, row.length = layout.totalElementCount) :
    order.foldl (assembleBatchRow toFloat32 zero memory layout
        (batchQueries hashId (entityIds.map encodeBatchId))) state =
      (entityIds.map (batchRow toFloat32 zero layout memory),
        entityIds.map fun entityId => (readAnswer toFloat32 layout memory entityId).isSome) := by
  have inside : ∀ index ∈ order, index < entityIds.length :=
    fun index member => List.mem_range.mp (complete.mem_iff.mp member)
  have visited : ∀ index, index < entityIds.length → index ∈ order :=
    fun index bound => complete.mem_iff.mpr (List.mem_range.mpr bound)
  obtain ⟨rowsAfter, maskAfter, entries⟩ := assembleBatchRows_getElem toFloat32 zero sound assembly
    consistent entityIds inside rowsLength maskLength sizes
  apply Prod.ext
  · apply List.ext_getElem?
    intro index
    by_cases bound : index < entityIds.length
    · rw [(entries index bound).1, if_pos (visited index bound), List.getElem?_map]
    · rw [List.getElem?_eq_none (by omega), List.getElem?_eq_none (by rw [List.length_map]; omega)]
  · apply List.ext_getElem?
    intro index
    by_cases bound : index < entityIds.length
    · rw [(entries index bound).2, if_pos (visited index bound), List.getElem?_map]
    · rw [List.getElem?_eq_none (by omega), List.getElem?_eq_none (by rw [List.length_map]; omega)]

/-- The matrix of a batch has one row of the size of a vector for each id. -/
theorem chooseRows_sizes {undefined : Nat → Nat → F} {batch : Nat} {out : Option (OutMatrix F)}
    (suits : ∀ given, out = some given → given.suits layout batch = true) :
    ∃ rows, chooseRows layout undefined batch out = .ok rows ∧ rows.length = batch ∧
      ∀ row ∈ rows, row.length = layout.totalElementCount := by
  cases out with
  | none =>
      refine ⟨_, rfl, by simp, ?_⟩
      intro row member
      obtain ⟨index, _, rfl⟩ := List.mem_map.mp member
      simp
  | some given =>
      have fits := suits given rfl
      refine ⟨given.rows, if_pos fits, ?_⟩
      simp only [OutMatrix.suits, Bool.and_eq_true, decide_eq_true_eq] at fits
      exact ⟨fits.1.1.1.1, fun row member => (given.rectangular row member).trans fits.1.1.1.2⟩

theorem chooseMask_length {unknown : Nat → Bool} {batch : Nat} {foundMask : Option OutMask}
    (suits : ∀ given, foundMask = some given → given.suits batch = true) :
    ∃ mask, chooseMask unknown batch foundMask = .ok mask ∧ mask.length = batch := by
  cases foundMask with
  | none => exact ⟨_, rfl, by simp⟩
  | some given =>
      have fits := suits given rfl
      refine ⟨given.data, if_pos fits, ?_⟩
      simp only [OutMask.suits, Bool.and_eq_true, decide_eq_true_eq] at fits
      exact fits.1.1

include sound assembly consistent in
/-- Each row of a batch is the vector of its id, or zeros beside a false entry of the mask. -/
theorem assembleBatch_answer (undefined : Nat → Nat → F) (unknown : Nat → Bool)
    (parallelThreshold : Nat) {entityIds : List String}
    (nonempty : ∀ entityId ∈ entityIds, entityId ≠ "") {order : List Nat}
    (complete : order.Perm (List.range entityIds.length)) {out : Option (OutMatrix F)}
    (suits : ∀ given, out = some given → given.suits layout entityIds.length = true)
    {foundMask : Option OutMask}
    (masks : ∀ given, foundMask = some given → given.suits entityIds.length = true) :
    assembleBatch toFloat32 zero memory layout hashId undefined unknown parallelThreshold order
        entityIds out foundMask =
      .ok (entityIds.map (batchRow toFloat32 zero layout memory),
        entityIds.map fun entityId => (readAnswer toFloat32 layout memory entityId).isSome) := by
  obtain ⟨rows, chosenRows, rowsLength, sizes⟩ := @chooseRows_sizes F layout undefined _ out suits
  obtain ⟨mask, chosenMask, maskLength⟩ := @chooseMask_length unknown _ foundMask masks
  have encoded : encodeBatch entityIds = .ok (entityIds.map encodeBatchId) := by
    have none : entityIds.findIdx? (· = "") = none := by
      rw [List.findIdx?_eq_none_iff]
      intro entityId member
      exact decide_eq_false (nonempty entityId member)
    rw [encodeBatch, none]
  have width : (batchQueries hashId (entityIds.map encodeBatchId)).length = entityIds.length := by
    simp [batchQueries]
  unfold assembleBatch
  rw [chosenRows, chosenMask]
  simp only [bind, Except.bind, pure, Except.pure]
  split
  · rename_i empty
    obtain rfl := List.length_eq_zero_iff.mp empty
    rw [List.length_eq_zero_iff.mp rowsLength, List.length_eq_zero_iff.mp maskLength]
    rfl
  · rw [encoded]
    dsimp only
    split
    · exact congrArg Except.ok (assembleBatchRows_eq toFloat32 zero sound assembly consistent
        entityIds complete rowsLength maskLength sizes)
    · refine congrArg Except.ok ?_
      rw [assembleBatchCore, width]
      exact assembleBatchRows_eq toFloat32 zero sound assembly consistent entityIds
        (List.Perm.refl _) rowsLength maskLength sizes

end Answers

/-- The three read paths give one answer for every id of a segment that calls of `insert` reach,
whatever their buffers held before. -/
theorem readPaths_agree {hashName : String → UInt64} {schema : FeatureSchema}
    {capacity maxIdBytes : Int} {layout : SegmentLayout}
    (computed : computeLayout hashName schema capacity maxIdBytes = .ok layout)
    (hashId : List UInt8 → UInt64) {header : List UInt8} (headerLength : header.length = headerSize)
    (calls : List (InsertRequest × Option Nat)) {F : Type} (toFloat32 : DType → List UInt8 → F)
    (zero : F) :
    let memory := (runCalls hashId layout header calls).memory
    ∃ answer : String → Option (List F),
      (∀ entityId, entityId ≠ "" → ∀ (out : Option (OutVector F)) (undefined : Nat → F),
        (∀ given, out = some given → given.suits layout = true) →
        servingAssemble toFloat32 memory hashId layout undefined entityId out =
            (match answer entityId with
              | some vector => .ok vector
              | none => .error (.entityNotFound entityId)) ∧
          assemble toFloat32 memory hashId layout undefined entityId out =
            (match answer entityId with
              | some vector => .ok vector
              | none => .error (.entityNotFound entityId))) ∧
      ∀ entityIds : List String, (∀ entityId ∈ entityIds, entityId ≠ "") →
        ∀ (out : Option (OutMatrix F)) (foundMask : Option OutMask) (undefined : Nat → Nat → F)
          (unknown : Nat → Bool) (parallelThreshold : Nat) (order : List Nat),
        (∀ given, out = some given → given.suits layout entityIds.length = true) →
        (∀ given, foundMask = some given → given.suits entityIds.length = true) →
        order.Perm (List.range entityIds.length) →
        assembleBatch toFloat32 zero memory layout hashId undefined unknown parallelThreshold order
            entityIds out foundMask =
          .ok (entityIds.map fun entityId =>
              (answer entityId).getD (List.replicate layout.totalElementCount zero),
            entityIds.map fun entityId => (answer entityId).isSome) := by
  intro memory
  have sound := computeLayout_sound computed
  have assembly := computeLayout_assembly computed
  have consistent : Consistent hashId layout memory :=
    (runCalls_refined hashId sound headerLength calls).consistent
  refine ⟨readAnswer toFloat32 layout memory, ?_, ?_⟩
  · intro entityId nonempty out undefined suits
    exact ⟨servingAssemble_answer toFloat32 sound assembly consistent undefined nonempty suits,
      assemble_answer toFloat32 sound assembly consistent undefined nonempty suits⟩
  · intro entityIds nonempty out foundMask undefined unknown parallelThreshold order suits masks
      complete
    exact assembleBatch_answer toFloat32 zero sound assembly consistent undefined unknown
      parallelThreshold nonempty complete suits masks

/-- A dirty buffer for three sample vectors. -/
def sampleDirty : OutMatrix Nat where
  rows := [[7], [8], [9]]
  columns := 1
  rectangular := by decide
  isFloat32 := true
  contiguous := true
  writeable := true

/-- The read paths agree on one sample row, with a dirty batch buffer and a reversed batch order. -/
theorem readPaths_agree_sample :
    let memory := (runCalls (fun _ => 0) sampleLayout (List.replicate 16 0)
      [(⟨"a", List.replicate 64 1⟩, none)]).memory
    servingAssemble (fun _ bytes => leNat bytes) memory (fun _ => 0) sampleLayout (fun _ => 3) "a"
        none =
      assemble (fun _ bytes => leNat bytes) memory (fun _ => 0) sampleLayout (fun _ => 4) "a" none ∧
    assembleBatch (fun _ bytes => leNat bytes) 0 memory sampleLayout (fun _ => 0) (fun _ _ => 5)
        (fun _ => true) 2 [2, 1, 0] ["a", "b", "a"] (some sampleDirty) none =
      assembleBatch (fun _ bytes => leNat bytes) 0 memory sampleLayout (fun _ => 0) (fun _ _ => 6)
        (fun _ => false) 4 [0, 1, 2] ["a", "b", "a"] none none := by
  obtain ⟨answer, single, batch⟩ := readPaths_agree computeLayout_sample (fun _ => 0)
    (show (List.replicate 16 (0 : UInt8)).length = headerSize from rfl)
    [(⟨"a", List.replicate 64 1⟩, none)] (fun _ bytes => leNat bytes) 0
  have suits : ∀ given, some sampleDirty = some given →
      given.suits sampleLayout ["a", "b", "a"].length = true := by
    intro given same
    obtain rfl := Option.some.inj same
    decide
  constructor
  · rw [(single "a" (by decide) none (fun _ => 3) nofun).1,
      (single "a" (by decide) none (fun _ => 4) nofun).2]
  · rw [batch ["a", "b", "a"] (by decide) (some sampleDirty) none (fun _ _ => 5) (fun _ => true) 2
        [2, 1, 0] suits nofun (by decide),
      batch ["a", "b", "a"] (by decide) none none (fun _ _ => 6) (fun _ => false) 4 [0, 1, 2]
        nofun nofun (by decide)]

end Quorin
