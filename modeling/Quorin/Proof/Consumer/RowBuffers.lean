import Quorin.Proof.Consumer.ApplySpec
import Quorin.Proof.Evolution.FieldOffsets

namespace Quorin

open ByteMemory

theorem splice_length {buffer bytes : List UInt8} {offset : Nat}
    (inside : offset + bytes.length ≤ buffer.length) :
    (splice buffer offset bytes).length = buffer.length := by
  simp only [splice, List.length_append, List.length_take, List.length_drop]
  omega

/-- The bytes of a field lie inside the row. -/
structure PackSlot.Fits (slot : PackSlot) (size : Nat) : Prop where
  inside : slot.byteOffset + slot.byteCount ≤ size
  counted : slot.byteCount = slot.elementCount * slot.dtype.byteSize
  positive : 0 < slot.elementCount

section Plan

variable {hashName : String → UInt64} {schema : FeatureSchema} {plan : PackPlan}

/-- Every slot of a plan lies inside the row. -/
theorem buildPlan_fits (built : buildPlan hashName schema = .ok plan) :
    rowSize hashName schema = .ok plan.rowSize ∧ plan.structSize ≤ plan.rowSize ∧
      (∀ slot ∈ plan.scalars, slot.Fits plan.rowSize) ∧
      ∀ slot ∈ plan.shapedSlots, slot.Fits plan.rowSize := by
  unfold buildPlan at built
  cases computed : computeRowOffsetTable hashName schema with
  | error error => simp [computed, bind, Except.bind] at built
  | ok table =>
      cases sized : rowSize hashName schema with
      | error error => simp [computed, sized, bind, Except.bind] at built
      | ok rows =>
          simp only [computed, sized, bind, Except.bind, pure, Except.pure, Except.ok.injEq] at built
          have fits : ∀ row ∈ table, row.byteOffset + row.byteCount ≤ rows ∧
              row.byteCount = row.elementCount * row.dtype.byteSize ∧ 0 < row.elementCount := by
            intro row member
            rw [(computeRowOffsetTable_spec computed).1.mem_iff] at member
            obtain ⟨entry, placed, rfl⟩ := List.mem_map.mp member
            exact ⟨placed_inside computed sized placed, rfl,
              elementProduct_pos _ entry.1.dimensionsPositive⟩
          generalize shape : (table.zipIdx.map _).mergeSort _ = slots at built
          have slotFits : ∀ slot ∈ slots, slot.Fits rows := by
            intro slot member
            rw [← shape, List.mem_mergeSort] at member
            obtain ⟨⟨row, position⟩, inTable, rfl⟩ := List.mem_map.mp member
            obtain ⟨inside, counted, positive⟩ := fits row (List.fst_mem_of_mem_zipIdx inTable)
            exact ⟨inside, counted, positive⟩
          rw [← built]
          refine ⟨rfl, ?_, ?_, ?_⟩
          · cases largest : (slots.map fun slot => slot.byteOffset + slot.byteCount).max? with
            | none => exact Nat.zero_le _
            | some bound =>
                obtain ⟨slot, member, rfl⟩ := List.mem_map.mp (List.max?_mem largest)
                exact (slotFits slot member).inside
          · exact fun slot member => slotFits slot (List.mem_filter.mp member).1
          · exact fun slot member => slotFits slot (List.mem_filter.mp member).1

end Plan

section Pack

variable {externals : Externals} {values : List WireValue}

theorem packFloat_length {dtype : DType} {bits : UInt64} {bytes : List UInt8}
    (float : dtype.intRange = none) (packed : packFloat externals dtype bits = some bytes) :
    bytes.length = dtype.byteSize := by
  cases dtype with
  | float32 =>
      simp only [packFloat] at packed
      split at packed
      · cases packed
      · obtain rfl := Option.some.inj packed
        exact leBytes_length _ _
  | float64 =>
      obtain rfl := Option.some.inj packed
      exact leBytes_length _ _
  | int32 => cases float
  | int64 => cases float
  | uint8 => cases float

theorem packInteger_length {dtype : DType} {value : Int} {bytes : List UInt8}
    (packed : packInteger dtype value = some bytes) : bytes.length = dtype.byteSize := by
  unfold packInteger at packed
  split at packed
  · cases packed
  · split at packed
    · obtain rfl := Option.some.inj packed
      exact leBytes_length _ _
    · cases packed

theorem structPack_length {dtype : DType} {value : WireValue} {bytes : List UInt8}
    (packed : structPack externals dtype value = some bytes) : bytes.length = dtype.byteSize := by
  unfold structPack at packed
  dsimp only at packed
  split at packed
  · obtain ⟨integer, _, integerPacked⟩ := Option.bind_eq_some_iff.mp packed
    exact packInteger_length integerPacked
  · rename_i float
    exact packFloat_length float packed
  · rename_i float _
    obtain ⟨integer, _, rest⟩ := Option.bind_eq_some_iff.mp packed
    obtain ⟨bits, _, floatPacked⟩ := Option.bind_eq_some_iff.mp rest
    exact packFloat_length float floatPacked

theorem packScalars_length {slots : List PackSlot} {buffer : List UInt8}
    (fits : ∀ slot ∈ slots, slot.Fits buffer.length) :
    (packScalars externals values slots buffer).2.length = buffer.length := by
  induction slots generalizing buffer with
  | nil => rfl
  | cons slot rest ih =>
      unfold packScalars
      cases value : (values[slot.valueIndex]?).bind (structPack externals slot.dtype) with
      | none => rfl
      | some bytes =>
          obtain ⟨_, _, packed⟩ := Option.bind_eq_some_iff.mp value
          have here := fits slot List.mem_cons_self
          have one : slot.dtype.byteSize ≤ slot.byteCount := by
            rw [here.counted]
            exact Nat.le_mul_of_pos_left _ here.positive
          have length : (splice buffer slot.byteOffset bytes).length = buffer.length := by
            apply splice_length
            rw [structPack_length packed]
            have inside := here.inside
            omega
          dsimp only
          rw [ih (by
            rw [length]
            exact fun other later => fits other (List.mem_cons_of_mem _ later)), length]

/-- Whether the scalars can be packed depends on the values alone. -/
theorem packScalars_result (slots : List PackSlot) (first second : List UInt8) :
    (packScalars externals values slots first).1 = (packScalars externals values slots second).1 := by
  induction slots generalizing first second with
  | nil => rfl
  | cons slot rest ih =>
      unfold packScalars
      cases (values[slot.valueIndex]?).bind (structPack externals slot.dtype) with
      | none => rfl
      | some bytes => exact ih _ _

theorem packShaped_length {slots : List PackSlot} {buffer : List UInt8}
    (fits : ∀ slot ∈ slots, slot.Fits buffer.length) :
    (packShaped externals values slots buffer).2.length = buffer.length := by
  induction slots generalizing buffer with
  | nil => rfl
  | cons slot rest ih =>
      unfold packShaped
      cases value : (values[slot.valueIndex]?).bind (externals.asarray slot.dtype) with
      | none => rfl
      | some elements =>
          obtain ⟨_, _, array⟩ := Option.bind_eq_some_iff.mp value
          dsimp only
          split
          · rfl
          · rename_i counted
            have here := fits slot List.mem_cons_self
            have bytes : elements.flatten.length = slot.byteCount := by
              rw [here.counted, ← not_not.mp counted, List.length_flatten,
                List.map_congr_left (externals.asarraySize _ _ _ array)]
              simp
            have length : (splice buffer slot.byteOffset elements.flatten).length = buffer.length :=
              splice_length (by rw [bytes]; exact here.inside)
            rw [ih (by
              rw [length]
              exact fun other later => fits other (List.mem_cons_of_mem _ later)), length]

theorem packShaped_result (slots : List PackSlot) (first second : List UInt8) :
    (packShaped externals values slots first).1 = (packShaped externals values slots second).1 := by
  induction slots generalizing first second with
  | nil => rfl
  | cons slot rest ih =>
      unfold packShaped
      cases (values[slot.valueIndex]?).bind (externals.asarray slot.dtype) with
      | none => rfl
      | some elements =>
          dsimp only
          split
          · rfl
          · exact ih _ _

/-- A pack keeps the length of the row buffer. -/
theorem packRowFromList_length {hashName : String → UInt64} {schema : FeatureSchema}
    {plan : PackPlan} (built : buildPlan hashName schema = .ok plan) (value : WireValue)
    (out : List UInt8) : (packRowFromList externals plan value out).2.length = out.length := by
  obtain ⟨_, struct, scalars, shaped⟩ := buildPlan_fits built
  unfold packRowFromList
  split
  · rfl
  · rename_i items _
    split
    · rfl
    split
    · rfl
    rename_i size
    have sized : out.length = plan.rowSize := not_not.mp size
    rw [← sized] at struct scalars shaped
    have clearedLength : (if plan.scalars = [] then out
        else splice out 0 (List.replicate plan.structSize 0)).length = out.length := by
      split
      · rfl
      · exact splice_length (by simpa using struct)
    dsimp only
    generalize (if plan.scalars = [] then out
      else splice out 0 (List.replicate plan.structSize 0)) = cleared at clearedLength
    rw [← clearedLength] at scalars shaped ⊢
    have first := @packScalars_length externals items _ _ scalars
    split
    · rename_i packed
      rw [packed] at first
      exact first
    · rename_i buffer packed
      rw [packed] at first
      rw [packShaped_length (by rw [first]; exact shaped), first]

/-- Whether a row can be packed depends on the values and on the length of the buffer. -/
theorem packRowFromList_result (plan : PackPlan) (value : WireValue) {first second : List UInt8}
    (same : first.length = second.length) :
    (packRowFromList externals plan value first).1 =
      (packRowFromList externals plan value second).1 := by
  unfold packRowFromList
  rw [same]
  split
  · rfl
  · rename_i items _
    split
    · rfl
    split
    · rfl
    have scalars := @packScalars_result externals items plan.scalars
      (if plan.scalars = [] then first else splice first 0 (List.replicate plan.structSize 0))
      (if plan.scalars = [] then second else splice second 0 (List.replicate plan.structSize 0))
    dsimp only
    generalize packScalars externals items plan.scalars
      (if plan.scalars = [] then first else splice first 0 (List.replicate plan.structSize 0)) =
        left at scalars
    generalize packScalars externals items plan.scalars
      (if plan.scalars = [] then second else splice second 0 (List.replicate plan.structSize 0)) =
        right at scalars
    obtain ⟨leftResult, leftBuffer⟩ := left
    obtain ⟨rightResult, rightBuffer⟩ := right
    obtain rfl : leftResult = rightResult := scalars
    cases leftResult with
    | error error => rfl
    | ok done => exact packShaped_result _ _ _

/-- The pack of a message keeps the length of the row buffer. -/
theorem packMessage_length (message : DecodedMessage) (buffer : List UInt8) :
    (packMessage externals message buffer).2.length = buffer.length := by
  unfold packMessage
  split
  · rfl
  · rename_i plan built
    have length := @packRowFromList_length externals _ _ _ built message.values buffer
    split
    · rename_i packed
      rwa [packed] at length
    · rename_i packed
      rwa [packed] at length

/-- A message that was packed once is packed into every buffer of that length. -/
theorem packMessage_again {message : DecodedMessage} {first second : List UInt8}
    (packed : (packMessage externals message first).1 = true)
    (same : first.length = second.length) : (packMessage externals message second).1 = true := by
  unfold packMessage at packed ⊢
  split
  · rename_i failed
    rw [failed] at packed
    exact packed
  · rename_i plan built
    simp only [built] at packed
    have result := @packRowFromList_result externals plan message.values _ _ same
    generalize packRowFromList externals plan message.values first = left at *
    generalize packRowFromList externals plan message.values second = right at *
    obtain ⟨leftResult, leftBuffer⟩ := left
    obtain ⟨rightResult, rightBuffer⟩ := right
    obtain rfl : leftResult = rightResult := result
    cases leftResult with
    | error error => exact packed
    | ok done => rfl

end Pack

/-- The message leaves every row buffer at its length. -/
theorem prepareInsert_buffers (externals : Externals) (consumer : Consumer) (fields : MessageFields)
    (name : List UInt8) :
    ((prepareInsert externals consumer fields).2 name).length = (consumer.rowBuffers name).length := by
  unfold prepareInsert
  split
  · rfl
  · rfl
  · rename_i message _
    have length := @packMessage_length externals message (consumer.rowBuffers message.name)
    have buffers : (Function.update consumer.rowBuffers message.name
        (packMessage externals message (consumer.rowBuffers message.name)).2 name).length =
          (consumer.rowBuffers name).length := by
      by_cases same : name = message.name
      · rw [same, Function.update_self, length]
      · rw [Function.update_of_ne same]
    dsimp only
    split
    · exact buffers
    · exact buffers

/-- A call of `_apply` leaves every row buffer at its length. -/
theorem apply_buffers (externals : Externals) (consumer : Consumer) (shared : SharedMemory)
    (msgId : MsgId) (fields : Option MessageFields) (name : List UInt8) :
    ((apply externals consumer shared msgId fields).2.1.rowBuffers name).length =
      (consumer.rowBuffers name).length := by
  cases fields with
  | none => rfl
  | some present =>
      have buffers := prepareInsert_buffers externals consumer present name
      cases ready : prepareInsert externals consumer present with
      | mk result rowBuffers =>
          rw [ready] at buffers
          rcases result with exception | none | prepared
          · simpa only [apply, ready] using buffers
          · simpa only [apply, ready] using buffers
          · obtain ⟨offline, same, _⟩ := @finishApply_consumer externals
              { consumer with rowBuffers := rowBuffers } shared msgId present prepared
            simp only [apply, ready, same]
            exact buffers

end Quorin
