import Quorin.Proof.Evolution.TranslationTable
import Mathlib.Data.Finset.Dedup

namespace Quorin

open ByteMemory

/-- The id of an occupied slot. -/
def slotText (layout : SegmentLayout) (memory : Memory) (index : Nat) : String :=
  (decodeUtf8 (entryBytes layout memory (slotIdOffset layout memory index))).getD ""

/-- The occupied slots in table order. -/
def occupiedSlots (layout : SegmentLayout) (memory : Memory) : List Nat :=
  (List.range layout.slotCapacity).filter fun index =>
    slotFlags layout memory index = flagOccupied

/-- The occupied slots in the order of their rows. -/
def rowOrder (layout : SegmentLayout) (memory : Memory) : List Nat :=
  (occupiedSlots layout memory).mergeSort fun first second =>
    decide (slotRow layout memory first ≤ slotRow layout memory second)

theorem decodeEntry_eq (layout : SegmentLayout) (memory : Memory) (idOffset : Nat) :
    decodeEntry layout memory idOffset =
      if entryLength layout memory idOffset > layout.maxIdBytes then
        .error (.corruptPoolEntry idOffset (entryLength layout memory idOffset) layout.maxIdBytes)
      else
        match decodeUtf8 (entryBytes layout memory idOffset) with
        | none => .error .invalidUtf8
        | some entityId => .ok entityId := rfl

section Ids

variable {hashId : List UInt8 → UInt64} {layout : SegmentLayout} {memory : Memory}
  {rows cursor : Nat} (invariant : SegmentInvariant hashId layout memory rows cursor)

theorem mem_occupiedSlots {index : Nat} : index ∈ occupiedSlots layout memory ↔
    index < layout.slotCapacity ∧ slotFlags layout memory index = flagOccupied := by
  simp [occupiedSlots]

theorem rowOrder_perm : (rowOrder layout memory).Perm (occupiedSlots layout memory) :=
  List.mergeSort_perm _ _

include invariant in
/-- An occupied slot holds the bytes of its id. -/
theorem slotKey_text {index : Nat} (member : index ∈ occupiedSlots layout memory) :
    slotKey layout memory index = some (encodeUtf8 (slotText layout memory index)) ∧
      slotText layout memory index ≠ "" ∧
      decodeEntry layout memory (slotIdOffset layout memory index) =
        .ok (slotText layout memory index) := by
  obtain ⟨inside, occupied⟩ := mem_occupiedSlots.mp member
  have slot := invariant.slot index inside occupied
  obtain ⟨text, nonempty, bytes⟩ := slot.text
  have decoded : decodeUtf8 (entryBytes layout memory (slotIdOffset layout memory index)) =
      some text := by
    rw [bytes]
    exact decodeUtf8_encodeUtf8 text
  have same : slotText layout memory index = text := by
    rw [slotText, decoded]
    rfl
  rw [same]
  refine ⟨by rw [slotKey_of_occupied occupied, bytes], nonempty, ?_⟩
  rw [decodeEntry_eq, if_neg (Nat.not_lt.mpr slot.length), decoded]

include invariant in
/-- Every present id is the id of one occupied slot. -/
theorem occupiedSlots_texts : ((occupiedSlots layout memory).map (slotText layout memory)).Nodup ∧
    ∀ entityId, entityId ∈ (occupiedSlots layout memory).map (slotText layout memory) ↔
      contents layout memory entityId ≠ none := by
  constructor
  · apply List.Nodup.map_on
    · intro first firstMember second secondMember same
      have firstKey := (slotKey_text invariant firstMember).1
      have secondKey := (slotKey_text invariant secondMember).1
      rw [same] at firstKey
      exact invariant.chained.unique first second _ (mem_occupiedSlots.mp firstMember).1
        (mem_occupiedSlots.mp secondMember).1 firstKey secondKey
    · exact List.nodup_range.filter _
  · intro entityId
    rw [contents_ne_none, List.mem_map]
    constructor
    · rintro ⟨index, member, rfl⟩
      exact ⟨index, (mem_occupiedSlots.mp member).1, (slotKey_text invariant member).1⟩
    · rintro ⟨index, inside, stored⟩
      have member := mem_occupiedSlots.mpr ⟨inside, (slotKey_eq_some.mp stored).1⟩
      have key := (slotKey_text invariant member).1
      rw [stored] at key
      exact ⟨index, member, (encodeUtf8_injective (Option.some.inj key)).symm⟩

include invariant in
theorem occupiedSlots_length {present : Finset String}
    (accounted : ∀ entityId, entityId ∈ present ↔ contents layout memory entityId ≠ none) :
    (occupiedSlots layout memory).length = present.card := by
  obtain ⟨distinct, texts⟩ := occupiedSlots_texts invariant
  have same : ((occupiedSlots layout memory).map (slotText layout memory)).toFinset = present := by
    ext entityId
    rw [List.mem_toFinset, texts, accounted]
  rw [← same, List.toFinset_card_of_nodup distinct, List.length_map]

include invariant in
/-- A segment without lost rows has its occupied slots in the rows from zero on. -/
theorem rowOrder_rows (full : (occupiedSlots layout memory).length = rows) :
    (rowOrder layout memory).map (slotRow layout memory) = List.range rows := by
  have distinct : ((rowOrder layout memory).map (slotRow layout memory)).Nodup := by
    apply List.Nodup.map_on
    · intro first firstMember second secondMember same
      have firstSlot := mem_occupiedSlots.mp (rowOrder_perm.mem_iff.mp firstMember)
      have secondSlot := mem_occupiedSlots.mp (rowOrder_perm.mem_iff.mp secondMember)
      exact invariant.rowsDistinct first second firstSlot.1 secondSlot.1 firstSlot.2 secondSlot.2 same
    · exact rowOrder_perm.nodup_iff.mpr (List.nodup_range.filter _)
  have bounded : (rowOrder layout memory).map (slotRow layout memory) ⊆ List.range rows := by
    intro row member
    obtain ⟨index, inOrder, rfl⟩ := List.mem_map.mp member
    have slot := mem_occupiedSlots.mp (rowOrder_perm.mem_iff.mp inOrder)
    exact List.mem_range.mpr (invariant.slot index slot.1 slot.2).row
  have permuted : ((rowOrder layout memory).map (slotRow layout memory)).Perm (List.range rows) := by
    apply (List.subperm_of_subset distinct bounded).perm_of_length_le
    rw [List.length_range, List.length_map, rowOrder_perm.length_eq, full]
  have sorted : ((rowOrder layout memory).map (slotRow layout memory)).Pairwise (· ≤ ·) := by
    rw [List.pairwise_map]
    have ordered : (rowOrder layout memory).Pairwise fun first second =>
        decide (slotRow layout memory first ≤ slotRow layout memory second) = true := by
      apply List.pairwise_mergeSort
      · intro first second third
        simp only [decide_eq_true_eq]
        omega
      · intro first second
        simp only [Bool.or_eq_true, decide_eq_true_eq]
        omega
    simpa using ordered
  exact permuted.eq_of_pairwise' sorted (List.pairwise_lt_range.imp fun less => Nat.le_of_lt less)

theorem translateIds_unfold (layout : SegmentLayout) (memory : Memory) (rows : Nat) :
    translateIds layout memory rows =
      if rows = 0 then .ok []
      else if (occupiedSlots layout memory).length ≠ rows then
        .error (.inconsistent rows (occupiedSlots layout memory).length)
      else
        decodeEntries layout memory
          ((rowOrder layout memory).map (slotIdOffset layout memory)) := rfl

theorem decodeEntries_eq {slots : List Nat}
    (each : ∀ index ∈ slots, decodeEntry layout memory (slotIdOffset layout memory index) =
      .ok (slotText layout memory index)) :
    decodeEntries layout memory (slots.map (slotIdOffset layout memory)) =
      .ok (slots.map (slotText layout memory)) := by
  induction slots with
  | nil => rfl
  | cons index rest ih =>
      rw [List.map_cons, decodeEntries, each index List.mem_cons_self,
        ih fun other later => each other (List.mem_cons_of_mem _ later)]
      rfl

include invariant in
/-- The ids of the copy are the ids of the occupied slots in the order of their rows. -/
theorem translateIds_eq (full : (occupiedSlots layout memory).length = rows) :
    translateIds layout memory rows =
      .ok ((rowOrder layout memory).map (slotText layout memory)) := by
  rw [translateIds_unfold]
  by_cases none : rows = 0
  · have empty : rowOrder layout memory = [] := by
      apply List.length_eq_zero_iff.mp
      rw [rowOrder_perm.length_eq, full, none]
    rw [if_pos none, empty]
    rfl
  · rw [if_neg none, if_neg (not_not.mpr full)]
    apply decodeEntries_eq
    exact fun index member => (slotKey_text invariant (rowOrder_perm.mem_iff.mp member)).2.2

end Ids

end Quorin
