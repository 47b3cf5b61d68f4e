import Quorin.Proof.Segment.CheckedSlots

namespace Quorin

open ByteMemory CheckedArrays

section Visits

variable {layout : SegmentLayout} (kernel : KernelLayout layout) {memory : Memory}
  {rows cursor : Nat} (within : SlotsInside layout memory rows cursor)

/-- The result of a visit of the compiled lookups. -/
def visitOutcome (layout : SegmentLayout) (memory : Memory) (corrupt : Nat → Bool)
    (hashValue : UInt64) (key : List UInt8) (slot : Nat) : SlotProbe :=
  if slotFlags layout memory slot = flagEmpty then .empty
  else if slotFlags layout memory slot = flagOccupied ∧
      slotHash layout memory slot = hashValue.toNat then
    if corrupt (entryLength layout memory (slotIdOffset layout memory slot)) then .empty
    else if entryLength layout memory (slotIdOffset layout memory slot) = key.length ∧
        memory.read (layout.entryAddress (slotIdOffset layout memory slot) + lenPrefixBytes)
          key.length = key then .hit
    else .miss
  else .miss

theorem visitOutcome_hit {corrupt : Nat → Bool} {hashValue : UInt64} {key : List UInt8} {slot : Nat}
    (hit : visitOutcome layout memory corrupt hashValue key slot = .hit) :
    slotFlags layout memory slot = flagOccupied := by
  unfold visitOutcome at hit
  split at hit
  · cases hit
  · split at hit
    · rename_i both
      exact both.1
    · cases hit

/-- The comparison of all bytes decides whether the memory holds them. -/
theorem compareAll_eq (memory : Memory) (address : Nat) (key : List UInt8) :
    ((List.range key.length).all fun offset => memory (address + offset) == key.getD offset 0) =
      decide (memory.read address key.length = key) := by
  rw [Bool.eq_iff_iff, List.all_eq_true, decide_eq_true_iff]
  constructor
  · intro equal
    apply List.ext_getElem (Memory.read_length memory address key.length)
    intro offset _ inside
    have same := equal offset (List.mem_range.mpr inside)
    rw [Memory.read_getElem]
    simpa [List.getD_eq_getElem?_getD, inside] using same
  · intro equal offset member
    have inside := List.mem_range.mp member
    have same : (memory.read address key.length).getD offset 0 = key.getD offset 0 := by
      rw [equal]
    rw [beq_iff_eq, ← same, List.getD_eq_getElem?_getD,
      List.getElem?_eq_getElem (by rwa [Memory.read_length]), Option.getD_some,
      Memory.read_getElem]

/-- The unchecked comparison with an entry has the outcome of the visit. -/
theorem compareOutcome_trace (layout : SegmentLayout) (memory : Memory) (key : List UInt8)
    (slot : Nat) :
    (if entryLength layout memory (slotIdOffset layout memory slot) = key.length then do
        if ← compareBytes (layout.entryAddress (slotIdOffset layout memory slot) + lenPrefixBytes)
            key then
          return SlotProbe.hit
        else return SlotProbe.miss
      else return SlotProbe.miss : SegmentProgram SlotProbe).trace memory =
      (.ok (if entryLength layout memory (slotIdOffset layout memory slot) = key.length ∧
          memory.read (layout.entryAddress (slotIdOffset layout memory slot) + lenPrefixBytes)
            key.length = key then .hit
        else .miss), []) := by
  by_cases same : entryLength layout memory (slotIdOffset layout memory slot) = key.length
  · rw [if_pos same, Program.trace_bind_reads (compareBytes_trace memory _ key)]
    by_cases equal : memory.read (layout.entryAddress (slotIdOffset layout memory slot) +
        lenPrefixBytes) key.length = key
    · rw [if_pos (decide_eq_true equal), if_pos ⟨same, equal⟩]
      rfl
    · rw [if_neg (by simpa using equal), if_neg fun both => equal both.2]
      rfl
  · rw [if_neg same, if_neg fun both => same both.1]
    rfl

include kernel within in
/-- Every access of a visit passes its check. -/
theorem checkedVisit_ok (corrupt : Nat → Bool) (hashValue : UInt64) (key : List UInt8)
    {query : Nat → Checked UInt8}
    (queries : ∀ offset, offset < key.length → query offset = .ok (key.getD offset 0)) {slot : Nat}
    (inside : slot < layout.slotCapacity) :
    checkedVisit layout (layout.buffer memory) corrupt hashValue query key.length slot =
      .ok (visitOutcome layout memory corrupt hashValue key slot) := by
  unfold checkedVisit visitOutcome
  rw [kernel.word_ok memory inside (by decide) (by decide) (by decide), ok_bind,
    show memory.readNat (layout.slotField slot slotFlagsOffset) 4 =
      slotFlags layout memory slot from rfl]
  by_cases vacant : slotFlags layout memory slot = flagEmpty
  · rw [if_pos vacant, if_pos vacant]
    rfl
  rw [if_neg vacant, if_neg vacant,
    kernel.word_ok memory inside (by decide) (by decide) (by decide), ok_bind,
    show memory.readNat (layout.slotField slot slotNameHashOffset) 8 =
      slotHash layout memory slot from rfl]
  by_cases named : slotFlags layout memory slot = flagOccupied ∧
      slotHash layout memory slot = hashValue.toNat
  · have entry := (within.slot slot inside named.1).entry
    have used := within.pool kernel.sound
    have pool := kernel.pool_inside
    have length : (layout.buffer memory).unalignedWord
        (layout.entryAddress (slotIdOffset layout memory slot)) lenPrefixBytes =
          .ok (entryLength layout memory (slotIdOffset layout memory slot)) := by
      apply Buffer.unalignedWord_ok (by decide)
      simp only [SegmentLayout.entryAddress, SegmentLayout.buffer]
      omega
    rw [if_pos named, if_pos named,
      kernel.word_ok memory inside (by decide) (by decide) (by decide), ok_bind,
      show memory.readNat (layout.slotField slot slotIdOffsetOffset) 8 =
        slotIdOffset layout memory slot from rfl, length, ok_bind]
    split
    · rfl
    · by_cases same : entryLength layout memory (slotIdOffset layout memory slot) = key.length
      · -- The compared bytes are the bytes of the entry, so they end inside the pool.
        have tests : ∀ offset, 0 ≤ offset → offset < 0 + key.length →
            (do
              let stored ← (layout.buffer memory).byte
                (layout.entryAddress (slotIdOffset layout memory slot) + lenPrefixBytes + offset)
              let byte ← query offset
              return stored == byte : Checked Bool) =
            .ok (memory (layout.entryAddress (slotIdOffset layout memory slot) + lenPrefixBytes +
              offset) == key.getD offset 0) := by
          intro offset _ upper
          rw [Buffer.byte_ok (by simp only [SegmentLayout.entryAddress, SegmentLayout.buffer]; omega),
            ok_bind, queries offset (by omega)]
          rfl
        have compared := allFrom_ok key.length 0 tests
        simp only [Nat.zero_add] at compared
        rw [if_pos same, compared, compareAll_eq, ok_bind]
        by_cases equal : memory.read (layout.entryAddress (slotIdOffset layout memory slot) +
            lenPrefixBytes) key.length = key
        · rw [if_pos (decide_eq_true equal), if_pos ⟨same, equal⟩]
          rfl
        · rw [if_neg (by simpa using equal), if_neg fun both => equal both.2]
          rfl
      · rw [if_neg same, if_neg fun both => same both.1]
        rfl
  · rw [if_neg named, if_neg named]
    rfl

/-- The unchecked visit of `_lookup_core` has the same outcome. -/
theorem probeSlotCore_outcome (layout : SegmentLayout) (memory : Memory) (hashValue : UInt64)
    (key : List UInt8) (slot : Nat) :
    (probeSlotCore layout hashValue key slot).trace memory =
      (.ok (visitOutcome layout memory (fun length => length > layout.maxIdBytes) hashValue key
        slot), []) := by
  unfold probeSlotCore visitOutcome
  rw [Program.trace_readNat, show memory.readNat (layout.slotField slot slotFlagsOffset) 4 =
    slotFlags layout memory slot from rfl]
  by_cases vacant : slotFlags layout memory slot = flagEmpty
  · rw [if_pos vacant, if_pos vacant]
    rfl
  rw [if_neg vacant, if_neg vacant, Program.trace_readNat,
    show memory.readNat (layout.slotField slot slotNameHashOffset) 8 =
      slotHash layout memory slot from rfl]
  by_cases named : slotFlags layout memory slot = flagOccupied ∧
      slotHash layout memory slot = hashValue.toNat
  · rw [if_pos named, if_pos named, Program.trace_readNat, Program.trace_readNat,
      show memory.readNat (layout.entryAddress (memory.readNat
        (layout.slotField slot slotIdOffsetOffset) 8)) lenPrefixBytes =
        entryLength layout memory (slotIdOffset layout memory slot) from rfl,
      show memory.readNat (layout.slotField slot slotIdOffsetOffset) 8 =
        slotIdOffset layout memory slot from rfl]
    by_cases long : entryLength layout memory (slotIdOffset layout memory slot) > layout.maxIdBytes
    · rw [if_pos long, if_pos (decide_eq_true long)]
      rfl
    · have short : ¬ decide (entryLength layout memory (slotIdOffset layout memory slot) >
          layout.maxIdBytes) = true := by
        simpa using long
      rw [if_neg long, if_neg short]
      exact compareOutcome_trace layout memory key slot
  · rw [if_neg named, if_neg named]
    rfl

/-- The unchecked visit of the batch kernels has the same outcome. -/
theorem probeSlotBatch_outcome (layout : SegmentLayout) (memory : Memory) (hashValue : UInt64)
    {query : PaddedId} {key : List UInt8} (length : query.length = key.length)
    (bytes : query.bytes.take query.length = key) (slot : Nat) :
    (probeSlotBatch layout hashValue query slot).trace memory =
      (.ok (visitOutcome layout memory (fun _ => false) hashValue key slot), []) := by
  unfold probeSlotBatch visitOutcome
  rw [Program.trace_readNat, show memory.readNat (layout.slotField slot slotFlagsOffset) 4 =
    slotFlags layout memory slot from rfl]
  by_cases vacant : slotFlags layout memory slot = flagEmpty
  · rw [if_pos vacant, if_pos vacant]
    rfl
  rw [if_neg vacant, if_neg vacant, Program.trace_readNat,
    show memory.readNat (layout.slotField slot slotNameHashOffset) 8 =
      slotHash layout memory slot from rfl]
  by_cases named : slotFlags layout memory slot = flagOccupied ∧
      slotHash layout memory slot = hashValue.toNat
  · rw [if_pos named, if_pos named, Program.trace_readNat, Program.trace_readNat, bytes, length]
    exact compareOutcome_trace layout memory key slot
  · rw [if_neg named, if_neg named]
    rfl

end Visits

section Lookups

variable {layout : SegmentLayout} (kernel : KernelLayout layout) {memory : Memory}
  {rows cursor : Nat} (within : SlotsInside layout memory rows cursor)

include kernel within in
/-- The checked walk is the walk without checks, and it ends at a row of the segment. -/
theorem checkedLookupLoop_ok {checked : Nat → Checked SlotProbe}
    {visit : Nat → SegmentProgram SlotProbe} {outcome : Nat → SlotProbe}
    (passes : ∀ slot, slot < layout.slotCapacity → checked slot = .ok (outcome slot))
    (visits : ∀ slot, (visit slot).trace memory = (.ok (outcome slot), []))
    (hits : ∀ slot, outcome slot = .hit → slotFlags layout memory slot = flagOccupied)
    (fuel : Nat) {slot : Nat} (inside : slot < layout.slotCapacity) :
    ∃ found, checkedLookupLoop layout (layout.buffer memory) checked fuel slot = .ok found ∧
      (lookupLoop layout visit fuel slot).trace memory = (.ok found, []) ∧
      ∀ address, found = some address →
        ∃ row, row < layout.capacity ∧ address = layout.rowAddress row := by
  induction fuel generalizing slot with
  | zero => exact ⟨none, rfl, rfl, by simp⟩
  | succ fuel ih =>
      rw [checkedLookupLoop, passes slot inside, ok_bind, lookupLoop,
        Program.trace_bind_reads (visits slot)]
      cases outcomeEq : outcome slot with
      | empty => exact ⟨none, rfl, rfl, by simp⟩
      | hit =>
          have bounded := (within.slot slot inside (hits slot outcomeEq)).row
          refine ⟨some (layout.rowAddress (slotRow layout memory slot)), ?_, rfl, ?_⟩
          · dsimp only
            rw [kernel.word_ok memory inside (by decide) (by decide) (by decide)]
            rfl
          · intro address same
            exact ⟨_, bounded.trans_le within.rowsBound, (Option.some.inj same).symm⟩
      | miss => exact ih (nextIndex_inside kernel.sound slot)

include kernel within in
/-- The checked kernel `_lookup_core` is the kernel without checks. -/
theorem checkedLookupCore_ok (hashId : List UInt8 → UInt64) (encodedId : List UInt8) :
    ∃ found, checkedLookupCore layout (layout.buffer memory) hashId encodedId = .ok found ∧
      (lookupCore hashId layout encodedId).result memory = .ok found ∧
      ∀ address, found = some address →
        ∃ row, row < layout.capacity ∧ address = layout.rowAddress row := by
  obtain ⟨found, checked, walked, bounded⟩ := checkedLookupLoop_ok kernel within
    (fun slot => checkedVisit_ok kernel within (fun length => length > layout.maxIdBytes)
      (hashId encodedId) encodedId fun offset below => index_getD 0 below)
    (fun slot => probeSlotCore_outcome layout memory (hashId encodedId) encodedId slot)
    (fun slot hit => visitOutcome_hit hit) layout.slotCapacity
    (homeIndex_inside kernel.sound (hashId encodedId))
  exact ⟨found, checked, congrArg Prod.fst walked, bounded⟩

include kernel within in
/-- Every access of `lookup_jit` passes its check. -/
theorem checkedLookupJit_ok (hashId : List UInt8 → UInt64) (entityId : String) :
    checkedLookupJit layout (layout.buffer memory) hashId entityId =
      .ok ((lookupJit hashId layout entityId).result memory) := by
  unfold checkedLookupJit lookupJit
  split
  · rfl
  · obtain ⟨found, checked, looked, _⟩ :=
      checkedLookupCore_ok kernel within hashId (encodeUtf8 entityId)
    rw [checked, looked]
    rfl

end Lookups

section Assemblies

variable {F S : Type} (toFloat32 : DType → List UInt8 → F) {put : S → Nat → F → Checked S}
  {embed : List F → S} (puts : ∀ out position value, position < out.length →
    put (embed out) position value = .ok (embed (out.set position value)))

include puts in
/-- One branch of the ladder stays inside the view and inside the output. -/
theorem checkedElements_ok (dtype : DType) {view : View} {count cursor : Nat} {out : List F}
    (whole : view.bytes.length = count * view.width) (positive : 0 < view.width)
    (fits : cursor + count ≤ out.length) :
    checkedElements toFloat32 put dtype view count cursor (embed out) =
      .ok (embed ((List.range count).foldl (fun filled position =>
        filled.set (cursor + position)
          (toFloat32 dtype (slice view.bytes (position * view.width) view.width))) out)) := by
  unfold checkedElements
  refine (foldlM_ok embed _ _ (fun filled => filled.length = out.length) rfl ?_).1
  intro filled length position member
  have inside := List.mem_range.mp member
  rw [View.element_ok whole positive inside, ok_bind, puts _ _ _ (by omega)]
  exact ⟨rfl, by rw [List.length_set, length]⟩

/-- A loop of element writes keeps the length of the buffer. -/
theorem foldl_set_length (value : Nat → F) (cursor : Nat) (positions : List Nat) (out : List F) :
    (positions.foldl (fun filled position => filled.set (cursor + position) (value position))
      out).length = out.length := by
  induction positions generalizing out with
  | nil => rfl
  | cons position rest ih => rw [List.foldl_cons, ih, List.length_set]

include puts in
/-- The ladder reads the bytes of one field through an aligned view. -/
theorem checkedLadder_ok (row : OffsetRow) (sub : BufferSlice) {cursor : Nat} {out : List F}
    (bytes : sub.bytes.length = row.elementCount * row.dtype.byteSize)
    (aligned : cacheLineSize ∣ sub.start) (fits : cursor + row.elementCount ≤ out.length) :
    checkedLadder toFloat32 put row.dtype.code sub row.elementCount cursor (embed out) =
      .ok (embed ((List.range row.elementCount).foldl (fun filled position =>
        filled.set (cursor + position) (castElement toFloat32 row.dtype.code sub.bytes position))
          out)) := by
  have viewed : ∀ width, width ∣ cacheLineSize → row.dtype.byteSize = width →
      sub.view width = .ok ⟨width, sub.bytes⟩ := by
    intro width line size
    exact BufferSlice.view_ok (line.trans aligned) (by rw [bytes, size]; exact dvd_mul_left _ _)
  unfold checkedLadder
  cases dtype : row.dtype with
  | float32 =>
      rw [dtype] at bytes viewed
      rw [if_pos (by decide), viewed 4 (by decide) rfl, ok_bind]
      exact checkedElements_ok toFloat32 puts .float32 bytes (Nat.succ_pos _) fits
  | float64 =>
      rw [dtype] at bytes viewed
      rw [if_neg (by decide), if_pos (by decide), viewed 8 (by decide) rfl, ok_bind]
      exact checkedElements_ok toFloat32 puts .float64 bytes (Nat.succ_pos _) fits
  | int32 =>
      rw [dtype] at bytes viewed
      rw [if_neg (by decide), if_neg (by decide), if_pos (by decide), viewed 4 (by decide) rfl, ok_bind]
      exact checkedElements_ok toFloat32 puts .int32 bytes (Nat.succ_pos _) fits
  | int64 =>
      rw [dtype] at bytes viewed
      rw [if_neg (by decide), if_neg (by decide), if_neg (by decide), if_pos (by decide),
        viewed 8 (by decide) rfl, ok_bind]
      exact checkedElements_ok toFloat32 puts .int64 bytes (Nat.succ_pos _) fits
  | uint8 =>
      rw [dtype] at bytes
      rw [if_neg (by decide), if_neg (by decide), if_neg (by decide), if_neg (by decide),
        checkedElements_ok toFloat32 puts .uint8 bytes Nat.one_pos fits]
      simp [castElement, DType.code]

theorem assembleFields_length (memory : Memory) (rowOffset : Nat) (table : List OffsetRow)
    (cursor : Nat) (out : List F) :
    (assembleFields toFloat32 memory rowOffset table cursor out).length = out.length := by
  induction table generalizing cursor out with
  | nil => rfl
  | cons row rest ih =>
      rw [assembleFields, ih]
      exact foldl_set_length _ cursor _ out

/-- The bytes of one field start at a cache line and end inside the segment. -/
theorem KernelLayout.field_slice {layout : SegmentLayout} (kernel : KernelLayout layout)
    (memory : Memory) {row : Nat} (bounded : row < layout.capacity) {field : OffsetRow}
    (member : field ∈ layout.assemblyTable) :
    (layout.buffer memory).slice (layout.rowAddress row + field.byteOffset)
        (layout.rowAddress row + field.byteOffset + field.byteCount) =
      .ok ⟨layout.rowAddress row + field.byteOffset,
        memory.read (layout.rowAddress row + field.byteOffset) field.byteCount⟩ := by
  have region := (kernel.sound.rowAddress_range bounded).2
  have inside := kernel.fieldInside field member
  apply Buffer.slice_ok
  simp only [SegmentLayout.buffer]
  omega

include puts in
/-- The field loop stays inside its row, its tables and the output. -/
theorem checkedFields_rest {layout : SegmentLayout} (kernel : KernelLayout layout)
    (memory : Memory) {row : Nat} (bounded : row < layout.capacity) (rest : List OffsetRow)
    (position cursor : Nat) (out : List F) (suffix : layout.assemblyTable.drop position = rest)
    (fits : cursor + (rest.map OffsetRow.elementCount).sum ≤ out.length) :
    ∃ last, (List.range' position rest.length).foldlM
        (checkedField toFloat32 (layout.buffer memory) put layout.assemblyArrays
          (layout.rowAddress row)) (cursor, embed out) =
      .ok (last, embed (assembleFields toFloat32 memory (layout.rowAddress row) rest cursor out)) := by
  induction rest generalizing position cursor out with
  | nil => exact ⟨cursor, rfl⟩
  | cons field rest ih =>
      have member : field ∈ layout.assemblyTable := by
        apply List.mem_of_mem_drop
        rw [suffix]
        exact List.mem_cons_self
      have later : layout.assemblyTable.drop (position + 1) = rest := by
        rw [← List.drop_drop, suffix]
        rfl
      rw [List.map_cons, List.sum_cons] at fits
      have bytes : (memory.read (layout.rowAddress row + field.byteOffset) field.byteCount).length =
          field.elementCount * field.dtype.byteSize := by
        rw [Memory.read_length, kernel.assembly.bytes field member]
      have ladder := checkedLadder_ok toFloat32 puts field ⟨_, memory.read
        (layout.rowAddress row + field.byteOffset) field.byteCount⟩ bytes
        ((kernel.row_aligned row).add (kernel.fieldAligned field member))
        (show cursor + field.elementCount ≤ out.length by omega)
      have step : checkedField toFloat32 (layout.buffer memory) put layout.assemblyArrays
          (layout.rowAddress row) (cursor, embed out) position = .ok (cursor + field.elementCount,
            embed ((List.range field.elementCount).foldl (fun filled position =>
              filled.set (cursor + position) (castElement toFloat32 field.dtype.code
                (memory.read (layout.rowAddress row + field.byteOffset) field.byteCount) position))
              out)) := by
        unfold checkedField SegmentLayout.assemblyArrays
        simp only [index_map_drop _ suffix, ok_bind, kernel.field_slice memory bounded member, ladder]
        rfl
      rw [List.length_cons, List.range'_succ, List.foldlM_cons, step, ok_bind, assembleFields]
      apply ih _ _ _ later
      rw [foldl_set_length]
      omega

include puts in
/-- The field loop of the kernels is the loop without checks. -/
theorem checkedFields_ok {layout : SegmentLayout} (kernel : KernelLayout layout) (memory : Memory)
    {row : Nat} (bounded : row < layout.capacity) {out : List F}
    (sized : out.length = layout.totalElementCount) :
    checkedFields toFloat32 (layout.buffer memory) put layout.assemblyArrays
        (layout.rowAddress row) (embed out) =
      .ok (embed (assembleFields toFloat32 memory (layout.rowAddress row) layout.assemblyTable 0
        out)) := by
  obtain ⟨last, looped⟩ := checkedFields_rest toFloat32 puts kernel memory bounded
    layout.assemblyTable 0 0 out rfl (by rw [sized, kernel.assembly.total, Nat.zero_add])
  have fields : layout.assemblyArrays.byteOffsets.length = layout.assemblyTable.length := by
    simp [SegmentLayout.assemblyArrays]
  rw [checkedFields, fields, List.range_eq_range', looped]
  rfl

/-- The kernel `_assemble_core` is the kernel without checks. -/
theorem checkedAssembleCore_ok {layout : SegmentLayout} (kernel : KernelLayout layout)
    (memory : Memory) {row : Nat} (bounded : row < layout.capacity) {out : List F}
    (sized : out.length = layout.totalElementCount) :
    checkedAssembleCore toFloat32 (layout.buffer memory) layout.assemblyArrays
        (layout.rowAddress row) out =
      .ok (assembleCore toFloat32 memory layout (layout.rowAddress row) out) := by
  have puts : ∀ (out : List F) position value, position < out.length →
      assign (id out) position value = .ok (id (out.set position value)) :=
    fun out position value below => assign_ok below value
  exact checkedFields_ok toFloat32 puts kernel memory bounded sized

end Assemblies

section Wrappers

variable {F : Type} (toFloat32 : DType → List UInt8 → F) {layout : SegmentLayout}
  (kernel : KernelLayout layout) {memory : Memory} {rows cursor : Nat}
  (within : SlotsInside layout memory rows cursor) (hashId : List UInt8 → UInt64)

theorem chosenOut_length {undefined : Nat → F} {out : Option (OutVector F)} {data : List F}
    (chosen : chooseOut layout undefined out = .ok data) :
    data.length = layout.totalElementCount := by
  unfold chooseOut at chosen
  cases out with
  | none =>
      rw [← Except.ok.inj chosen]
      simp
  | some given =>
      dsimp only at chosen
      split at chosen
      · rename_i suits
        rw [← Except.ok.inj chosen]
        simp only [OutVector.suits, Bool.and_eq_true, decide_eq_true_eq] at suits
        exact suits.1.1.1
      · cases chosen

include kernel within in
/-- Every access of `assemble` passes its check. -/
theorem checkedAssemble_ok (undefined : Nat → F) (entityId : String)
    (out : Option (OutVector F)) :
    checkedAssemble toFloat32 (layout.buffer memory) hashId layout undefined entityId out =
      .ok (assemble toFloat32 memory hashId layout undefined entityId out) := by
  unfold checkedAssemble assemble checkedLookupJit lookupJit
  by_cases empty : entityId = ""
  · rw [if_pos empty, if_pos empty]
    rfl
  rw [if_neg empty, if_neg empty]
  obtain ⟨found, checked, looked, bounded⟩ :=
    checkedLookupCore_ok kernel within hashId (encodeUtf8 entityId)
  rw [checked, looked]
  cases found with
  | none => rfl
  | some address =>
      obtain ⟨row, inside, rfl⟩ := bounded address rfl
      cases chosen : chooseOut layout undefined out with
      | error error => rfl
      | ok data =>
          have fields := checkedAssembleCore_ok toFloat32 kernel memory inside
            (chosenOut_length chosen)
          simp only [ok_bind, pure_ok, fields]

end Wrappers

section Batch

variable {F : Type} (toFloat32 : DType → List UInt8 → F) (zero : F) {layout : SegmentLayout}
  (kernel : KernelLayout layout) {memory : Memory} {rows cursor : Nat}
  (within : SlotsInside layout memory rows cursor)

/-- An assignment to a cell of an array replaces the cell of its row. -/
theorem assignCell_ok (matrix : List (List F)) {entry : Nat} (inside : entry < matrix.length)
    (cells : List F) (position : Nat) (value : F) (below : position < cells.length) :
    assignCell (matrix.set entry cells) entry position value =
      .ok (matrix.set entry (cells.set position value)) := by
  have row : entry < (matrix.set entry cells).length := by rwa [List.length_set]
  unfold assignCell
  rw [index_ok row, List.getElem_set_self, ok_bind, assign_ok below, ok_bind, assign_ok row,
    List.set_set]

/-- The output arrays of a batch of `count` ids. -/
def BatchShape (layout : SegmentLayout) (count : Nat) (state : List (List F) × List Bool) : Prop :=
  state.1.length = count ∧ state.2.length = count ∧
    ∀ row ∈ state.1, row.length = layout.totalElementCount

theorem BatchShape.set {count entry : Nat} {state : List (List F) × List Bool}
    (shape : BatchShape layout count state) {row : List F}
    (sized : row.length = layout.totalElementCount) (found : Bool) :
    BatchShape layout count (state.1.set entry row, state.2.set entry found) := by
  obtain ⟨rowsLength, maskLength, sizes⟩ := shape
  refine ⟨by rw [List.length_set, rowsLength], by rw [List.length_set, maskLength], ?_⟩
  intro other member
  rcases List.mem_or_eq_of_mem_set member with old | rfl
  · exact sizes other old
  · exact sized

/-- A loop of zero cells replaces one row. -/
theorem zeroCells_ok (matrix : List (List F)) {entry columns : Nat} (inside : entry < matrix.length)
    (sized : matrix[entry].length = columns) :
    (List.range columns).foldlM (fun out position => assignCell out entry position zero) matrix =
      .ok (matrix.modify entry fun row => (List.range row.length).foldl (fun filled position =>
        filled.set position zero) row) := by
  have steps : ∀ cells : List F, cells.length = columns → ∀ position ∈ List.range columns,
      assignCell (matrix.set entry cells) entry position zero =
          .ok (matrix.set entry (cells.set position zero)) ∧
        (cells.set position zero).length = columns := by
    intro cells length position member
    have below : position < cells.length := length ▸ List.mem_range.mp member
    exact ⟨assignCell_ok matrix inside cells position zero below, by rw [List.length_set, length]⟩
  have loop := (foldlM_ok (fun cells => matrix.set entry cells)
    (fun out position => assignCell out entry position zero)
    (fun cells position => cells.set position zero) (fun cells => cells.length = columns) sized
    steps).1
  rw [List.set_getElem_self] at loop
  rw [loop, List.modify_eq_set_get _ inside, List.get_eq_getElem, sized]

/-- The arrays of a batch hold the hash, the length and the bytes of each query. -/
theorem batchArrays_index {queries : List BatchQuery} {entry : Nat}
    (inside : entry < queries.length) :
    index (batchArrays queries).idHashes entry = .ok queries[entry].hashValue ∧
      index (batchArrays queries).queryIdLens entry = .ok queries[entry].query.length ∧
      index (batchArrays queries).queryIdsPadded entry = .ok queries[entry].query.bytes := by
  unfold batchArrays
  refine ⟨?_, ?_, ?_⟩
  · rw [index_ok (by rwa [List.length_map]), List.getElem_map]
  · rw [index_ok (by rwa [List.length_map]), List.getElem_map]
  · rw [index_ok (by rwa [List.length_map]), List.getElem_map]

include kernel within in
/-- The walk of the batch kernels for a query that its padded row holds. -/
theorem checkedBatchWalk_ok (hashValue : UInt64) {query : PaddedId}
    (padded : query.length ≤ query.bytes.length) {row : Checked (List UInt8)}
    (found : row = .ok query.bytes) :
    ∃ found, checkedLookupLoop layout (layout.buffer memory)
        (checkedVisit layout (layout.buffer memory) (fun _ => false) hashValue (fun offset => do
          let bytes ← row
          index bytes offset) query.length)
        layout.slotCapacity (homeIndex layout hashValue) = .ok found ∧
      (lookupLoop layout (probeSlotBatch layout hashValue query) layout.slotCapacity
        (homeIndex layout hashValue)).result memory = .ok found ∧
      ∀ address, found = some address →
        ∃ row, row < layout.capacity ∧ address = layout.rowAddress row := by
  have keyLength : (query.bytes.take query.length).length = query.length := by
    rw [List.length_take, Nat.min_eq_left padded]
  have bytes : ∀ offset, offset < (query.bytes.take query.length).length →
      (do
        let bytes ← row
        index bytes offset) = .ok ((query.bytes.take query.length).getD offset 0) := by
    intro offset below
    rw [keyLength] at below
    rw [found, ok_bind, index_ok (by omega), List.getD_eq_getElem?_getD, List.getElem?_take,
      if_pos below, List.getElem?_eq_getElem (by omega), Option.getD_some]
  obtain ⟨found, checked, walked, bounded⟩ := checkedLookupLoop_ok kernel within
    (fun slot => checkedVisit_ok kernel within (fun _ => false) hashValue
      (query.bytes.take query.length) bytes)
    (fun slot => probeSlotBatch_outcome layout memory hashValue keyLength.symm rfl slot)
    (fun slot hit => visitOutcome_hit hit) layout.slotCapacity
    (homeIndex_inside kernel.sound hashValue)
  rw [keyLength] at checked
  exact ⟨found, checked, congrArg Prod.fst walked, bounded⟩

include kernel within in
/-- One iteration of the batch kernels is the iteration without checks. -/
theorem checkedBatchRow_ok {queries : List BatchQuery}
    (padded : ∀ entry ∈ queries, entry.query.length ≤ entry.query.bytes.length)
    {state : List (List F) × List Bool} (shape : BatchShape layout queries.length state)
    {entry : Nat} (inside : entry < queries.length) :
    checkedBatchRow toFloat32 zero (layout.buffer memory) layout (batchArrays queries)
        layout.totalElementCount state entry =
      .ok (assembleBatchRow toFloat32 zero memory layout queries state entry) ∧
    BatchShape layout queries.length
      (assembleBatchRow toFloat32 zero memory layout queries state entry) := by
  have rowInside : entry < state.1.length := shape.1 ▸ inside
  have maskInside : entry < state.2.length := shape.2.1 ▸ inside
  have sized := shape.2.2 _ (List.getElem_mem rowInside)
  obtain ⟨hashes, lengths, rows⟩ := batchArrays_index inside
  obtain ⟨found, checked, walked, bounded⟩ := checkedBatchWalk_ok kernel within
    queries[entry].hashValue (padded _ (List.getElem_mem inside)) rows
  unfold checkedBatchRow assembleBatchRow
  rw [hashes, ok_bind, lengths, ok_bind, checked, ok_bind, List.getElem?_eq_getElem inside]
  dsimp only
  rw [walked]
  cases found with
  | none =>
      dsimp only
      rw [zeroCells_ok zero state.1 rowInside sized, ok_bind, assign_ok maskInside]
      refine ⟨rfl, ?_⟩
      rw [List.modify_eq_set_get _ rowInside]
      apply shape.set
      have zeros := foldl_set_length (fun _ => zero) 0 (List.range state.1[entry].length)
        state.1[entry]
      simp only [Nat.zero_add] at zeros
      exact zeros.trans sized
  | some address =>
      obtain ⟨row, rowBound, rfl⟩ := bounded address rfl
      have fields := @checkedFields_ok F _ toFloat32 (fun out => assignCell out entry)
        (fun cells => state.1.set entry cells) (assignCell_ok state.1 rowInside) layout kernel
        memory row rowBound state.1[entry] sized
      dsimp only at fields ⊢
      rw [List.set_getElem_self] at fields
      rw [fields, ok_bind, assign_ok maskInside, List.modify_eq_set_get _ rowInside]
      refine ⟨rfl, shape.set ?_ true⟩
      rw [assembleFields_length]
      exact sized

theorem batchQueries_padded (hashId : List UInt8 → UInt64) (encoded : List (List UInt8)) :
    ∀ entry ∈ batchQueries hashId encoded, entry.query.length ≤ entry.query.bytes.length := by
  intro entry member
  obtain ⟨bytes, _, rfl⟩ := List.mem_map.mp member
  simp [padId]

theorem encodeBatch_length {entityIds : List String} {encoded : List (List UInt8)}
    (prepared : encodeBatch entityIds = .ok encoded) : encoded.length = entityIds.length := by
  unfold encodeBatch at prepared
  split at prepared
  · cases prepared
  · rw [← Except.ok.inj prepared, List.length_map]

theorem chosenRows_sizes {undefined : Nat → Nat → F} {batch : Nat} {out : Option (OutMatrix F)}
    {matrix : List (List F)} (chosen : chooseRows layout undefined batch out = .ok matrix) :
    matrix.length = batch ∧ ∀ row ∈ matrix, row.length = layout.totalElementCount := by
  have suits : ∀ given, out = some given → given.suits layout batch = true := by
    rintro given rfl
    by_contra unsuited
    rw [chooseRows, if_neg unsuited] at chosen
    cases chosen
  obtain ⟨rows, same, length, sizes⟩ := chooseRows_sizes suits
  rw [chosen] at same
  rw [Except.ok.inj same]
  exact ⟨length, sizes⟩

theorem chosenMask_length {unknown : Nat → Bool} {batch : Nat} {foundMask : Option OutMask}
    {mask : List Bool} (chosen : chooseMask unknown batch foundMask = .ok mask) :
    mask.length = batch := by
  have suits : ∀ given, foundMask = some given → given.suits batch = true := by
    rintro given rfl
    by_contra unsuited
    rw [chooseMask, if_neg unsuited] at chosen
    cases chosen
  obtain ⟨data, same, length⟩ := chooseMask_length suits
  rw [chosen] at same
  rw [Except.ok.inj same]
  exact length

include kernel within in
/-- Every access of `assemble_batch` passes its check, in whatever order the iterations run. -/
theorem checkedAssembleBatch_ok (hashId : List UInt8 → UInt64) (undefined : Nat → Nat → F)
    (unknown : Nat → Bool) (parallelThreshold : Nat) {order : List Nat} {entityIds : List String}
    (iterations : ∀ entry ∈ order, entry < entityIds.length) (out : Option (OutMatrix F))
    (foundMask : Option OutMask) :
    checkedAssembleBatch toFloat32 zero (layout.buffer memory) layout hashId undefined unknown
        parallelThreshold order entityIds out foundMask =
      .ok (assembleBatch toFloat32 zero memory layout hashId undefined unknown parallelThreshold order
        entityIds out foundMask) := by
  unfold checkedAssembleBatch assembleBatch
  cases chosen : chooseRows layout undefined entityIds.length out with
  | error error => rfl
  | ok matrix =>
      cases marked : chooseMask unknown entityIds.length foundMask with
      | error error => rfl
      | ok mask =>
          by_cases empty : entityIds.length = 0
          · simp only [bind, Except.bind, if_pos empty]
            rfl
          cases prepared : encodeBatch entityIds with
          | error error =>
              simp only [bind, Except.bind, if_neg empty]
              rfl
          | ok encoded =>
              have count : (batchQueries hashId encoded).length = entityIds.length := by
                rw [batchQueries, List.length_map, encodeBatch_length prepared]
              have shape : BatchShape layout (batchQueries hashId encoded).length (matrix, mask) := by
                rw [count]
                exact ⟨(chosenRows_sizes chosen).1, chosenMask_length marked,
                  (chosenRows_sizes chosen).2⟩
              have runs : ∀ iterations : List Nat, (∀ entry ∈ iterations, entry < entityIds.length) →
                  checkedBatchCore toFloat32 zero (layout.buffer memory) layout iterations
                    (batchArrays (batchQueries hashId encoded)) layout.totalElementCount
                    (matrix, mask) =
                  .ok (iterations.foldl (assembleBatchRow toFloat32 zero memory layout
                    (batchQueries hashId encoded)) (matrix, mask)) := by
                intro iterations inside
                refine (foldlM_ok id _ _ _ shape ?_).1
                intro state held entry member
                exact checkedBatchRow_ok toFloat32 zero kernel within (batchQueries_padded _ _) held
                  (count ▸ inside entry member)
              have hashes : (batchArrays (batchQueries hashId encoded)).idHashes.length =
                  entityIds.length := by
                rw [batchArrays, List.length_map, count]
              simp only [bind, Except.bind, if_neg empty]
              by_cases parallel : entityIds.length ≥ parallelThreshold
              · rw [if_pos parallel, if_pos parallel, runs order iterations]
                rfl
              · rw [if_neg parallel, if_neg parallel, hashes,
                  runs _ fun entry member => List.mem_range.mp member, ← count]
                rfl

end Batch

end Quorin
