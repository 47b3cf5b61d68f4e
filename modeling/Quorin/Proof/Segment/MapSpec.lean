import Quorin.Construction.History
import Quorin.Proof.Segment.Refinement

namespace Quorin

open ByteMemory LinearProbe

/-- The pair that the iteration yields for an occupied slot. -/
def slotEntry (layout : SegmentLayout) (memory : Memory) (index : Nat) : Option (String × Nat) :=
  (slotKey layout memory index).bind fun key =>
    (decodeUtf8 key).map fun entityId =>
      (entityId, layout.rowAddress (slotRow layout memory index))

section Iteration

variable {hashId : List UInt8 → UInt64} {layout : SegmentLayout} {memory : Memory}
  {rows cursor : Nat} (invariant : SegmentInvariant hashId layout memory rows cursor)

include invariant in
/-- A slot yields a pair exactly when it holds the id of the pair. -/
theorem slotEntry_eq_some {index : Nat} (inside : index < layout.slotCapacity) {entityId : String}
    {address : Nat} :
    slotEntry layout memory index = some (entityId, address) ↔
      slotKey layout memory index = some (encodeUtf8 entityId) ∧
        address = layout.rowAddress (slotRow layout memory index) := by
  unfold slotEntry
  cases stored : slotKey layout memory index with
  | none => simp
  | some key =>
      have occupied := slotKey_eq_some.mp stored
      obtain ⟨text, _, bytes⟩ := (invariant.slot index inside occupied.1).text
      rw [occupied.2] at bytes
      rw [bytes, Option.bind_some, decodeUtf8_encodeUtf8, Option.map_some]
      simp only [Option.some.injEq, Prod.mk.injEq]
      constructor
      · rintro ⟨rfl, rfl⟩
        exact ⟨rfl, rfl⟩
      · rintro ⟨same, rfl⟩
        exact ⟨encodeUtf8_injective same, rfl⟩

include invariant in
/-- The iteration only reads, and it collects the pairs of the slots in table order. -/
theorem iterateFrom_trace (remaining index : Nat)
    (inside : index + remaining ≤ layout.slotCapacity) :
    (iterateFrom layout remaining index).trace memory =
      (.ok ((List.range' index remaining).filterMap (slotEntry layout memory)), []) := by
  induction remaining generalizing index with
  | zero => rfl
  | succ remaining ih =>
      have rest := ih (index + 1) (by omega)
      rw [iterateFrom, Program.trace_readNat, List.range'_succ,
        show memory.readNat (layout.slotField index slotFlagsOffset) 4 =
          slotFlags layout memory index from rfl]
      rcases invariant.flags index (by omega) with vacant | occupied
      · have nothing : slotEntry layout memory index = none := by
          rw [slotEntry, (invariant.slotKey_eq_none (by omega)).mpr vacant]
          rfl
        rw [if_neg (by rw [vacant]; decide), rest, List.filterMap_cons_none nothing]
      · have slot := invariant.slot index (by omega) occupied
        obtain ⟨text, _, bytes⟩ := slot.text
        have yielded : slotEntry layout memory index =
            some (text, layout.rowAddress (slotRow layout memory index)) := by
          rw [slotEntry_eq_some invariant (by omega), slotKey_of_occupied occupied, bytes]
          exact ⟨rfl, rfl⟩
        rw [if_pos occupied, Program.trace_readNat,
          show memory.readNat (layout.slotField index slotIdOffsetOffset) 8 =
            slotIdOffset layout memory index from rfl,
          Program.trace_bind_reads (readStringBytes_trace slot.length), Program.trace_readNat, bytes,
          decodeUtf8_encodeUtf8, List.filterMap_cons_some yielded]
        dsimp only
        rw [Program.trace_bind_reads rest]
        rfl

include invariant in
/-- Every id is yielded by at most one slot. -/
theorem slotEntries_nodup : (((List.range layout.slotCapacity).filterMap
    (slotEntry layout memory)).map Prod.fst).Nodup := by
  rw [List.Nodup, List.pairwise_map, List.pairwise_filterMap]
  apply List.Pairwise.imp_of_mem _ List.nodup_range
  rintro first second firstMember secondMember different ⟨entityId, firstAddress⟩ firstYield
    ⟨other, secondAddress⟩ secondYield same
  have firstInside := List.mem_range.mp firstMember
  have secondInside := List.mem_range.mp secondMember
  have firstStored := ((slotEntry_eq_some invariant firstInside).mp firstYield).1
  have secondStored := ((slotEntry_eq_some invariant secondInside).mp secondYield).1
  rw [show other = entityId from same.symm] at secondStored
  exact different (invariant.chained.unique first second _ firstInside secondInside firstStored
    secondStored)

end Iteration

section Behaviour

variable {hashId : List UInt8 → UInt64} {layout : SegmentLayout} (sound : LayoutSound layout)
  {memory : Memory} (consistent : Consistent hashId layout memory)

/-- The trace of an insert agrees with the specified insert. -/
theorem insert_cases (sound : LayoutSound layout) (consistent : Consistent hashId layout memory)
    (entityId : String) (rowData : List UInt8) :
    (∃ error, (insert hashId layout entityId rowData).trace memory = (.error error, []) ∧
      specInsert layout (abstraction layout memory) entityId rowData =
        (.error error, abstraction layout memory)) ∨
    (∃ entry, (insert hashId layout entityId rowData).trace memory = (.ok false, [entry]) ∧
      contents layout memory entityId ≠ none ∧
      specInsert layout (abstraction layout memory) entityId rowData =
        (.ok false, (abstraction layout memory).update entityId rowData)) ∨
    (∃ plan, (insert hashId layout entityId rowData).trace memory = (.ok true, plan) ∧
      plan.length = 8 ∧ contents layout memory entityId = none ∧
      specInsert layout (abstraction layout memory) entityId rowData =
        (.ok true, (abstraction layout memory).add entityId rowData)) := by
  by_cases wellFormed : entityId ≠ "" ∧ rowData.length = layout.rowSize ∧
      (encodeUtf8 entityId).length ≤ layout.maxIdBytes
  · obtain ⟨nonempty, size, short⟩ := wellFormed
    have spec := specInsert_wellFormed nonempty size short (abstraction layout memory)
    rcases insert_trace sound consistent nonempty size short with
      ⟨index, found, trace⟩ | ⟨absent, full, trace⟩ | ⟨index, absent, free, _, trace⟩
    · have present : contents layout memory entityId =
          some (memory.read (layout.rowAddress (slotRow layout memory index)) layout.rowSize) := by
        rw [contents, found, Option.map_some]
      rw [show (abstraction layout memory).entries entityId = _ from present] at spec
      exact Or.inr (Or.inl ⟨_, trace, by rw [present]; exact Option.some_ne_none _, spec⟩)
    · rw [show (abstraction layout memory).entries entityId = none from
        contents_eq_none.mpr absent] at spec
      dsimp only at spec
      rw [if_neg (show ¬ (abstraction layout memory).consumed < layout.capacity from
        Nat.not_lt.mpr full)] at spec
      exact Or.inl ⟨_, trace, spec⟩
    · rw [show (abstraction layout memory).entries entityId = none from
        contents_eq_none.mpr absent] at spec
      dsimp only at spec
      rw [if_pos (show (abstraction layout memory).consumed < layout.capacity from free)] at spec
      exact Or.inr (Or.inr ⟨_, trace, rfl, contents_eq_none.mpr absent, spec⟩)
  · obtain ⟨error, trace, spec⟩ := insert_malformed hashId memory wellFormed
      (abstraction layout memory)
    exact Or.inl ⟨error, trace, spec⟩

include sound consistent in
/-- An insert returns or raises as the specified insert does. -/
theorem insert_result (entityId : String) (rowData : List UInt8) :
    (insert hashId layout entityId rowData).result memory =
      (specInsert layout (abstraction layout memory) entityId rowData).1 := by
  unfold Program.result
  rcases insert_cases sound consistent entityId rowData with
    ⟨error, trace, spec⟩ | ⟨entry, trace, _, spec⟩ | ⟨plan, trace, _, _, spec⟩
  · rw [trace, spec]
  · rw [trace, spec]
  · rw [trace, spec]

/-- The specified insert fails in four ways. -/
theorem specInsert_error {map : BoundedMap String (List UInt8)} {entityId : String}
    {rowData : List UInt8} {error : SegmentError}
    (failed : (specInsert layout map entityId rowData).1 = .error error) :
    error = .emptyEntityId ∨ error = .rowDataLength rowData.length layout.rowSize ∨
      error = .idTooLong (encodeUtf8 entityId).length layout.maxIdBytes ∨
      error = .capacityReached layout.capacity map.consumed := by
  unfold specInsert at failed
  split at failed
  · exact Or.inl (Except.error.inj failed).symm
  · split at failed
    · exact Or.inr (Or.inl (Except.error.inj failed).symm)
    · split at failed
      · exact Or.inr (Or.inr (Or.inl (Except.error.inj failed).symm))
      · split at failed
        · cases failed
        · split at failed
          · cases failed
          · exact Or.inr (Or.inr (Or.inr (Except.error.inj failed).symm))

include sound consistent in
theorem lookup_run {entityId : String} (nonempty : entityId ≠ "") :
    (lookup hashId layout entityId).run memory =
      (.ok ((findSlot layout memory (encodeUtf8 entityId)).map fun index =>
        layout.rowAddress (slotRow layout memory index)), memory) := by
  have trace := lookup_trace sound consistent nonempty
  rw [Program.run, Program.result, Program.writes, trace]
  rfl

include sound consistent in
/-- A returned offset is the row of the slot that holds the id. -/
theorem lookup_located {entityId : String} {address : Nat} :
    (lookup hashId layout entityId).result memory = .ok (some address) ↔
      ∃ index, index < layout.slotCapacity ∧
        slotKey layout memory index = some (encodeUtf8 entityId) ∧
        address = layout.rowAddress (slotRow layout memory index) := by
  by_cases empty : entityId = ""
  · subst empty
    constructor
    · intro returned
      cases returned
    · rintro ⟨index, inside, stored, _⟩
      have occupied := slotKey_eq_some.mp stored
      obtain ⟨text, nonempty, bytes⟩ := (consistent.slot index inside occupied.1).text
      rw [occupied.2] at bytes
      exact absurd (encodeUtf8_injective bytes).symm nonempty
  · have returned := congrArg Prod.fst (lookup_run sound consistent empty)
    change (lookup hashId layout entityId).result memory = _ at returned
    rw [returned]
    constructor
    · intro same
      obtain ⟨index, found, place⟩ := Option.map_eq_some_iff.mp (Except.ok.inj same)
      obtain ⟨inside, stored⟩ := findSlot_some found
      exact ⟨index, inside, stored, place.symm⟩
    · rintro ⟨index, inside, stored, rfl⟩
      rw [consistent.findSlot_eq inside stored, Option.map_some]

include consistent in
/-- The empty id is never present. -/
theorem contents_nonempty {entityId : String} (present : contents layout memory entityId ≠ none) :
    entityId ≠ "" := by
  intro empty
  cases found : findSlot layout memory (encodeUtf8 entityId) with
  | none => exact present (contents_eq_none.mpr found)
  | some index =>
      obtain ⟨inside, stored⟩ := findSlot_some found
      have occupied := slotKey_eq_some.mp stored
      obtain ⟨text, nonempty, bytes⟩ := (consistent.slot index inside occupied.1).text
      rw [occupied.2] at bytes
      exact nonempty ((encodeUtf8_injective bytes).symm.trans empty)

theorem contents_ne_none {entityId : String} : contents layout memory entityId ≠ none ↔
    ∃ index, index < layout.slotCapacity ∧
      slotKey layout memory index = some (encodeUtf8 entityId) := by
  rw [Ne, contents_eq_none, findSlot_none]
  push Not
  rfl

include consistent in
/-- A present id fits into an entry of the string pool. -/
theorem contents_short {entityId : String} (present : contents layout memory entityId ≠ none) :
    (encodeUtf8 entityId).length ≤ layout.maxIdBytes := by
  obtain ⟨index, inside, stored⟩ := contents_ne_none.mp present
  obtain ⟨occupied, bytes⟩ := slotKey_eq_some.mp stored
  rw [← bytes, entryBytes, Memory.read_length]
  exact (consistent.slot index inside occupied).length

include consistent in
/-- The iteration of a consistent segment yields the occupied slots. -/
theorem iterateOccupied_run : (iterateOccupied layout).run memory =
    (.ok ((List.range layout.slotCapacity).filterMap (slotEntry layout memory)), memory) := by
  have trace := iterateFrom_trace consistent layout.slotCapacity 0 (by omega)
  rw [iterateOccupied, Program.run, Program.result, Program.writes, trace, List.range_eq_range']
  rfl

include sound consistent in
/-- An insert of a well-formed request fails only for a long id or a full segment. -/
theorem insert_result_wellFormed {entityId : String} {rowData : List UInt8}
    (nonempty : entityId ≠ "") (size : rowData.length = layout.rowSize) :
    (insert hashId layout entityId rowData).result memory =
      if (encodeUtf8 entityId).length > layout.maxIdBytes then
        .error (.idTooLong (encodeUtf8 entityId).length layout.maxIdBytes)
      else if contents layout memory entityId = none ∧ nextFreeRow memory = layout.capacity then
        .error (.capacityReached layout.capacity (nextFreeRow memory))
      else .ok (contents layout memory entityId).isNone := by
  have bound := consistent.rowsBound
  rw [insert_result sound consistent]
  by_cases long : (encodeUtf8 entityId).length > layout.maxIdBytes
  · rw [specInsert, if_neg nonempty, if_neg (not_not.mpr size), if_pos long, if_pos long]
  · rw [specInsert_wellFormed nonempty size (Nat.le_of_not_lt long), if_neg long,
      show (abstraction layout memory).entries = contents layout memory from rfl,
      show (abstraction layout memory).consumed = nextFreeRow memory from rfl]
    cases stored : contents layout memory entityId with
    | some row => simp
    | none =>
        by_cases full : nextFreeRow memory = layout.capacity
        · simp [full]
        · simp [full, Nat.lt_of_le_of_ne bound full]

include sound consistent in
/-- A consistent segment behaves as its entity map. -/
theorem Consistent.behavesAsMap :
    BehavesAsMap hashId layout memory (contents layout memory) (nextFreeRow memory) := by
  constructor
  · intro entityId nonempty missing
    rw [lookup_run sound consistent nonempty, contents_eq_none.mp missing]
    rfl
  · intro entityId rowData present
    have nonempty := contents_nonempty consistent (by rw [present]; exact Option.some_ne_none _)
    obtain ⟨index, found, row⟩ := Option.map_eq_some_iff.mp present
    exact ⟨_, by rw [lookup_run sound consistent nonempty, found]; rfl, row⟩
  · intro first second firstAddress secondAddress different firstFound secondFound
    obtain ⟨left, leftInside, leftStored, rfl⟩ := (lookup_located sound consistent).mp firstFound
    obtain ⟨right, rightInside, rightStored, rfl⟩ :=
      (lookup_located sound consistent).mp secondFound
    apply layout.rowAddress_disjoint
    intro sameRow
    have same := consistent.rowsDistinct left right leftInside rightInside
      (slotKey_eq_some.mp leftStored).1 (slotKey_eq_some.mp rightStored).1 sameRow
    rw [same, rightStored] at leftStored
    exact different (encodeUtf8_injective (Option.some.inj leftStored)).symm
  · refine ⟨_, iterateOccupied_run consistent, slotEntries_nodup consistent, ?_, ?_⟩
    · intro entityId
      rw [contents_ne_none, List.mem_map]
      constructor
      · rintro ⟨⟨other, address⟩, member, rfl⟩
        obtain ⟨index, place, yielded⟩ := List.mem_filterMap.mp member
        have inside := List.mem_range.mp place
        exact ⟨index, inside, ((slotEntry_eq_some consistent inside).mp yielded).1⟩
      · rintro ⟨index, inside, stored⟩
        have yielded := (slotEntry_eq_some consistent inside).mpr ⟨stored, rfl⟩
        exact ⟨_, List.mem_filterMap.mpr ⟨index, List.mem_range.mpr inside, yielded⟩, rfl⟩
    · rintro ⟨entityId, address⟩ member
      obtain ⟨index, place, yielded⟩ := List.mem_filterMap.mp member
      have inside := List.mem_range.mp place
      have slot := (slotEntry_eq_some consistent inside).mp yielded
      exact (lookup_located sound consistent).mpr ⟨index, inside, slot.1, slot.2⟩
  · intro entityId rowData nonempty size
    exact insert_result_wellFormed sound consistent nonempty size
  · intro entityId rowData error failed
    rw [insert_result sound consistent] at failed
    rcases specInsert_error failed with rfl | rfl | rfl | rfl
    · exact ⟨by simp, by simp⟩
    · exact ⟨by simp, by simp⟩
    · exact ⟨by simp, by simp⟩
    · exact ⟨by simp, by simp⟩
  · intro entityId rowData error failed
    unfold Program.result at failed
    rw [Program.run, Program.writes]
    rcases insert_cases sound consistent entityId rowData with
      ⟨_, trace, _⟩ | ⟨_, trace, _⟩ | ⟨_, trace, _⟩
    · rw [trace]
      rfl
    · rw [trace] at failed
      cases failed
    · rw [trace] at failed
      cases failed

end Behaviour

end Quorin
