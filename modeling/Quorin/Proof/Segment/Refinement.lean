import Quorin.Library.BoundedMap
import Quorin.Proof.Segment.WritePrefix

namespace Quorin

open ByteMemory LinearProbe

/-- The entity map of a segment: the row bytes of each present id. -/
def contents (layout : SegmentLayout) (memory : Memory) (entityId : String) :
    Option (List UInt8) :=
  (findSlot layout memory (encodeUtf8 entityId)).map fun index =>
    memory.read (layout.rowAddress (slotRow layout memory index)) layout.rowSize

/-- The abstract state of a segment is its entity map with its consumed row indices. -/
def abstraction (layout : SegmentLayout) (memory : Memory) : BoundedMap String (List UInt8) :=
  ⟨contents layout memory, nextFreeRow memory⟩

/-- The specified insert is a bounded upsert behind the checks of the request. -/
def specInsert (layout : SegmentLayout) (map : BoundedMap String (List UInt8)) (entityId : String)
    (rowData : List UInt8) : Except SegmentError Bool × BoundedMap String (List UInt8) :=
  if entityId = "" then (.error .emptyEntityId, map)
  else if rowData.length ≠ layout.rowSize then
    (.error (.rowDataLength rowData.length layout.rowSize), map)
  else if (encodeUtf8 entityId).length > layout.maxIdBytes then
    (.error (.idTooLong (encodeUtf8 entityId).length layout.maxIdBytes), map)
  else
    match map.entries entityId with
    | some _ => (.ok false, map.update entityId rowData)
    | none =>
        if map.consumed < layout.capacity then (.ok true, map.add entityId rowData)
        else (.error (.capacityReached layout.capacity map.consumed), map)

/-- The specified cut keeps the map, leaks one row index, or completes the insert. -/
def specCut (layout : SegmentLayout) (map : BoundedMap String (List UInt8)) (entityId : String)
    (rowData : List UInt8) (count : Nat) : BoundedMap String (List UInt8) :=
  match (specInsert layout map entityId rowData).1 with
  | .error _ => map
  | .ok false => if count = 0 then map else map.update entityId rowData
  | .ok true =>
      if count = 0 then map else if count < 8 then map.leak else map.add entityId rowData

theorem findSlot_congr {layout : SegmentLayout} {before after : Memory} {key : List UInt8}
    (same : ∀ index, index < layout.slotCapacity →
      (slotKey layout after index = some key ↔ slotKey layout before index = some key)) :
    findSlot layout after key = findSlot layout before key := by
  cases found : findSlot layout before key with
  | none =>
      rw [findSlot_none] at found ⊢
      exact fun index inside stored => found index inside ((same index inside).mp stored)
  | some index =>
      unfold findSlot at found ⊢
      rw [List.find?_range_eq_some] at found ⊢
      simp only [decide_eq_true_eq, Bool.not_eq_true', decide_eq_false_iff_not] at found ⊢
      have inside := List.mem_range.mp found.2.1
      exact ⟨(same index inside).mpr found.1, found.2.1,
        fun other earlier stored => found.2.2 other earlier
          ((same other (earlier.trans inside)).mp stored)⟩

section Contents

variable {hashId : List UInt8 → UInt64} {layout : SegmentLayout} (sound : LayoutSound layout)
  {memory : Memory} {rows cursor : Nat}
  (invariant : SegmentInvariant hashId layout memory rows cursor)

include invariant in
/-- Agreeing memories with the same rows hold the same entity map. -/
theorem contents_agree {after : Memory} (agree : Agree layout cursor memory after)
    (same : SameRows layout rows memory after) : contents layout after = contents layout memory := by
  funext entityId
  have keys := invariant.slotKey_agree agree
  have sameSlot : findSlot layout after (encodeUtf8 entityId) =
      findSlot layout memory (encodeUtf8 entityId) :=
    findSlot_congr fun index inside => by rw [keys index inside]
  unfold contents
  rw [sameSlot]
  cases found : findSlot layout memory (encodeUtf8 entityId) with
  | none => rfl
  | some index =>
      obtain ⟨inside, stored⟩ := findSlot_some found
      have occupied := (slotKey_eq_some.mp stored).1
      simp only [Option.map_some]
      rw [agree.row index inside occupied, same _ (invariant.slot index inside occupied).row]

include sound invariant in
/-- Occupying a prepared slot adds its entity to the map. -/
theorem contents_occupy {index : Nat} {entityId : String} {rowData : List UInt8}
    (free : rows < layout.capacity) (short : (encodeUtf8 entityId).length ≤ layout.maxIdBytes)
    (nonempty : entityId ≠ "")
    (first : FirstVacant hashId layout memory index (encodeUtf8 entityId))
    (prepared : Prepared hashId layout memory rows cursor index (encodeUtf8 entityId))
    (written : memory.read (layout.rowAddress rows) layout.rowSize = rowData) :
    contents layout (occupySlot layout memory index) =
      Function.update (contents layout memory) entityId (some rowData) := by
  have inside := first.inside
  have grown := invariant.occupy sound free short ⟨entityId, nonempty, rfl⟩ first prepared
  have keys := occupySlot_key sound memory inside
  rw [prepared.idOffset, prepared.bytes] at keys
  have row : ∀ other, slotRow layout (occupySlot layout memory index) other =
      slotRow layout memory other :=
    fun other => occupySlot_field memory other _ _ (by decide) (by decide)
  have rowBytes : ∀ place, place < layout.capacity →
      (occupySlot layout memory index).read (layout.rowAddress place) layout.rowSize =
        memory.read (layout.rowAddress place) layout.rowSize := by
    intro place bound
    have behind := (sound.rowAddress_range bound).1
    have pool := sound.poolStart
    exact occupySlot_read sound memory inside (by omega)
  funext other
  by_cases same : other = entityId
  · rw [same, Function.update_self]
    have stored : slotKey layout (occupySlot layout memory index) index =
        some (encodeUtf8 entityId) := by rw [keys, Function.update_self]
    unfold contents
    rw [grown.findSlot_eq inside stored, Option.map_some, row, prepared.row, rowBytes _ free,
      written]
  · rw [Function.update_of_ne same]
    have elsewhere : ∀ place, place < layout.slotCapacity →
        (slotKey layout (occupySlot layout memory index) place = some (encodeUtf8 other) ↔
          slotKey layout memory place = some (encodeUtf8 other)) := by
      intro place _
      rw [keys]
      by_cases here : place = index
      · rw [here, Function.update_self, first.vacant]
        simp only [Option.some.injEq, reduceCtorEq, iff_false]
        exact fun equal => same (encodeUtf8_injective equal).symm
      · rw [Function.update_of_ne here]
    unfold contents
    rw [findSlot_congr elsewhere]
    cases found : findSlot layout memory (encodeUtf8 other) with
    | none => rfl
    | some place =>
        obtain ⟨placeInside, stored⟩ := findSlot_some found
        have occupied := (slotKey_eq_some.mp stored).1
        have bound := (invariant.slot place placeInside occupied).row
        simp only [Option.map_some]
        rw [row, rowBytes _ (bound.trans free)]

include sound invariant in
/-- A row write leaves both cursors as they were. -/
theorem rowWrite_cursors {index : Nat} {key : List UInt8}
    (found : findSlot layout memory key = some index) (rowData : List UInt8) :
    nextFreeRow (memory.write (layout.rowAddress (slotRow layout memory index)) rowData) =
        nextFreeRow memory ∧
      stringPoolCursor (memory.write (layout.rowAddress (slotRow layout memory index)) rowData) =
        stringPoolCursor memory := by
  obtain ⟨inside, stored⟩ := findSlot_some found
  have occupied := (slotKey_eq_some.mp stored).1
  have bound := lt_of_lt_of_le (invariant.slot index inside occupied).row invariant.rowsBound
  have behind := (sound.rowAddress_range bound).1
  have start := sound.slotStart
  have tableEnd := sound.slotEnd
  have pool := sound.poolStart
  simp only [dataRegionOffset] at start
  constructor
  · apply Memory.readNat_write_disjoint
    simp only [metadataOffset]
    omega
  · apply Memory.readNat_write_disjoint
    simp only [metadataOffset]
    omega

include sound invariant in
/-- A row write changes the row of its entity and no other row. -/
theorem contents_update {index : Nat} {entityId : String} {rowData : List UInt8}
    (size : rowData.length = layout.rowSize)
    (found : findSlot layout memory (encodeUtf8 entityId) = some index) :
    Agree layout cursor memory
        (memory.write (layout.rowAddress (slotRow layout memory index)) rowData) ∧
      contents layout (memory.write (layout.rowAddress (slotRow layout memory index)) rowData) =
        Function.update (contents layout memory) entityId (some rowData) := by
  obtain ⟨inside, stored⟩ := findSlot_some found
  have occupied := (slotKey_eq_some.mp stored).1
  have bound := lt_of_lt_of_le (invariant.slot index inside occupied).row invariant.rowsBound
  have behind := (sound.rowAddress_range bound).1
  have used : cursor ≤ layout.stringPoolDataBytes := by
    rw [sound.poolBytes]
    exact invariant.cursorBound.trans (Nat.mul_le_mul_right _ invariant.rowsBound)
  have agree : Agree layout cursor memory
      (memory.write (layout.rowAddress (slotRow layout memory index)) rowData) :=
    Agree.write_outside sound memory (Or.inr (by omega))
  refine ⟨agree, ?_⟩
  have keys := invariant.slotKey_agree agree
  funext other
  have sameSlot : findSlot layout
      (memory.write (layout.rowAddress (slotRow layout memory index)) rowData) (encodeUtf8 other) =
      findSlot layout memory (encodeUtf8 other) :=
    findSlot_congr fun place placeInside => by rw [keys place placeInside]
  unfold contents
  rw [sameSlot]
  by_cases same : other = entityId
  · rw [same, Function.update_self, found, Option.map_some, agree.row index inside occupied]
    have written := memory.read_write_same (layout.rowAddress (slotRow layout memory index)) rowData
    rw [size] at written
    rw [written]
  · rw [Function.update_of_ne same]
    cases otherFound : findSlot layout memory (encodeUtf8 other) with
    | none => rfl
    | some place =>
        obtain ⟨placeInside, placeStored⟩ := findSlot_some otherFound
        have placeOccupied := (slotKey_eq_some.mp placeStored).1
        have different : slotRow layout memory place ≠ slotRow layout memory index := by
          intro equal
          have samePlace := invariant.rowsDistinct place index placeInside inside placeOccupied
            occupied equal
          rw [samePlace, stored] at placeStored
          exact same (encodeUtf8_injective (Option.some.inj placeStored)).symm
        have apart := layout.rowAddress_disjoint different
        simp only [Option.map_some]
        rw [agree.row place placeInside placeOccupied, Memory.read_write_disjoint]
        rw [size]
        omega

end Contents

theorem contents_eq_none {layout : SegmentLayout} {memory : Memory} {entityId : String} :
    contents layout memory entityId = none ↔
      findSlot layout memory (encodeUtf8 entityId) = none := by
  simp [contents]

section Simulation

variable {hashId : List UInt8 → UInt64} {layout : SegmentLayout} (sound : LayoutSound layout)
  {memory : Memory} (consistent : Consistent hashId layout memory)

/-- A malformed request raises before its first write. -/
theorem insert_malformed (hashId : List UInt8 → UInt64) (memory : Memory) {entityId : String}
    {rowData : List UInt8} (malformed : ¬ (entityId ≠ "" ∧ rowData.length = layout.rowSize ∧
      (encodeUtf8 entityId).length ≤ layout.maxIdBytes))
    (map : BoundedMap String (List UInt8)) :
    ∃ error, (insert hashId layout entityId rowData).trace memory = (.error error, []) ∧
      specInsert layout map entityId rowData = (.error error, map) := by
  unfold insert specInsert
  by_cases empty : entityId = ""
  · exact ⟨_, by rw [if_pos empty]; rfl, by rw [if_pos empty]⟩
  · by_cases size : rowData.length = layout.rowSize
    · have long : (encodeUtf8 entityId).length > layout.maxIdBytes := by
        by_contra short
        exact malformed ⟨empty, size, Nat.le_of_not_lt short⟩
      exact ⟨_, by rw [if_neg empty, if_neg (not_not.mpr size), if_pos long]; rfl,
        by rw [if_neg empty, if_neg (not_not.mpr size), if_pos long]⟩
    · exact ⟨_, by rw [if_neg empty, if_pos size]; rfl, by rw [if_neg empty, if_pos size]⟩

theorem specInsert_wellFormed {entityId : String} {rowData : List UInt8} (nonempty : entityId ≠ "")
    (size : rowData.length = layout.rowSize)
    (short : (encodeUtf8 entityId).length ≤ layout.maxIdBytes)
    (map : BoundedMap String (List UInt8)) :
    specInsert layout map entityId rowData =
      match map.entries entityId with
      | some _ => (.ok false, map.update entityId rowData)
      | none =>
          if map.consumed < layout.capacity then (.ok true, map.add entityId rowData)
          else (.error (.capacityReached layout.capacity map.consumed), map) := by
  unfold specInsert
  rw [if_neg nonempty, if_neg (not_not.mpr size), if_neg (Nat.not_lt.mpr short)]

/-- A first vacant slot stays the first vacant slot of an agreeing memory. -/
theorem FirstVacant.agree {rows cursor index : Nat} {key : List UInt8} {after : Memory}
    (first : FirstVacant hashId layout memory index key)
    (invariant : SegmentInvariant hashId layout memory rows cursor)
    (agree : Agree layout cursor memory after) : FirstVacant hashId layout after index key := by
  have keys := invariant.slotKey_agree agree
  constructor
  · intro other inside
    rw [keys other inside]
    exact first.absent other inside
  · rw [keys index first.inside]
    exact first.vacant
  · obtain ⟨distance, bound, place, run⟩ := first.walk
    refine ⟨distance, bound, place, fun step earlier => ?_⟩
    rw [keys _ (Nat.mod_lt _ (by omega))]
    exact run step earlier

section NewEntity

variable {index : Nat} {entityId : String} {rowData : List UInt8}
  (size : rowData.length = layout.rowSize)
  (short : (encodeUtf8 entityId).length ≤ layout.maxIdBytes)
  (free : nextFreeRow memory < layout.capacity)
  (first : FirstVacant hashId layout memory index (encodeUtf8 entityId))

/-- The writes of the insert of a new entity into its first vacant slot. -/
def newEntityPlan (hashId : List UInt8 → UInt64) (layout : SegmentLayout) (memory : Memory)
    (index : Nat) (entityId : String) (rowData : List UInt8) : List Write :=
  insertPlan layout index (hashId (encodeUtf8 entityId)) (encodeUtf8 entityId) rowData
    (nextFreeRow memory) (stringPoolCursor memory)

include sound consistent size short free first in
/-- The writes before the flags keep every occupied record and every consumed row. -/
theorem newEntityPlan_harmless (count : Nat) (early : count < 8) :
    Agree layout (stringPoolCursor memory) memory
        (memory.applyAll ((newEntityPlan hashId layout memory index entityId rowData).take count)) ∧
      SameRows layout (nextFreeRow memory) memory
        (memory.applyAll ((newEntityPlan hashId layout memory index entityId rowData).take
          count)) := by
  have harmless := insertPlan_harmless sound short first.inside free consistent.cursorBound
    (hashId (encodeUtf8 entityId)) size
  have vacant := (consistent.slotKey_eq_none first.inside).mp first.vacant
  apply harmless_applyAll sound first.inside _ memory vacant
  intro entry member
  apply harmless entry
  rw [show count = min count 7 by omega, ← List.take_take] at member
  exact List.mem_of_mem_take member

include sound consistent size short free first in
/-- An insert that is cut off before its flags keeps the map and leaks one row index. -/
theorem newEntityPlan_leak {count : Nat} (some : 0 < count) (early : count < 8) :
    Consistent hashId layout
        (memory.applyAll ((newEntityPlan hashId layout memory index entityId rowData).take count)) ∧
      abstraction layout
          (memory.applyAll
            ((newEntityPlan hashId layout memory index entityId rowData).take count)) =
        (abstraction layout memory).leak := by
  have room := sound.pool_room free consistent.cursorBound short
  have cursors := insertPlan_cursors sound short first.inside free consistent.cursorBound memory
    (hashId (encodeUtf8 entityId)) rowData count some
  obtain ⟨agree, same⟩ := newEntityPlan_harmless sound consistent size short free first count early
  constructor
  · unfold Consistent
    rw [newEntityPlan, cursors.1, cursors.2]
    exact consistent.agree agree (Nat.le_succ _) free (Nat.le_add_right _ _) room.1
  · apply BoundedMap.ext
    · exact contents_agree consistent agree same
    · exact cursors.1

include sound consistent size short free first in
/-- A complete insert adds its entity to the map. -/
theorem newEntityPlan_add (nonempty : entityId ≠ "") :
    Consistent hashId layout
        (memory.applyAll (newEntityPlan hashId layout memory index entityId rowData)) ∧
      abstraction layout
          (memory.applyAll (newEntityPlan hashId layout memory index entityId rowData)) =
        (abstraction layout memory).add entityId rowData := by
  have used := consistent.cursorBound
  have cursors := insertPlan_cursors sound short first.inside free used memory
    (hashId (encodeUtf8 entityId)) rowData 8 (by decide)
  obtain ⟨agree, same⟩ := newEntityPlan_harmless sound consistent size short free first 7
    (by decide)
  obtain ⟨prepared, written⟩ := insertPlan_prepared sound short first.inside free used size
    hashId memory
  have invariant := consistent.agree agree (Nat.le_refl _) consistent.rowsBound (Nat.le_refl _) used
  have still := first.agree consistent agree
  have split := insertPlan_split layout index (hashId (encodeUtf8 entityId)) (encodeUtf8 entityId)
    rowData (nextFreeRow memory) (stringPoolCursor memory) memory
  constructor
  · have grown := invariant.occupy sound free short ⟨entityId, nonempty, rfl⟩ still prepared
    unfold Consistent
    rw [show nextFreeRow (memory.applyAll
      (newEntityPlan hashId layout memory index entityId rowData)) = _ from cursors.1,
      show stringPoolCursor (memory.applyAll
      (newEntityPlan hashId layout memory index entityId rowData)) = _ from cursors.2,
      newEntityPlan, split]
    exact grown
  · apply BoundedMap.ext
    · have added := contents_occupy sound invariant free short nonempty still prepared written
      rw [newEntityPlan, abstraction, split]
      rw [newEntityPlan] at agree same added
      rw [contents_agree consistent agree same] at added
      exact added
    · exact cursors.1

end NewEntity

include sound consistent in
/-- An insert that is cut off after any number of writes refines the specified cut. -/
theorem cutInsert_refines (entityId : String) (rowData : List UInt8) (count : Nat) :
    Consistent hashId layout (cutInsert hashId layout memory entityId rowData count) ∧
      abstraction layout (cutInsert hashId layout memory entityId rowData count) =
        specCut layout (abstraction layout memory) entityId rowData count := by
  unfold cutInsert Program.writes
  by_cases wellFormed : entityId ≠ "" ∧ rowData.length = layout.rowSize ∧
      (encodeUtf8 entityId).length ≤ layout.maxIdBytes
  · obtain ⟨nonempty, size, short⟩ := wellFormed
    unfold specCut
    rw [specInsert_wellFormed nonempty size short]
    rcases insert_trace sound consistent nonempty size short with
      ⟨index, found, trace⟩ | ⟨absent, full, trace⟩ | ⟨index, absent, free, first, trace⟩
    · have present : ∃ row, (abstraction layout memory).entries entityId = some row := by
        simp [abstraction, contents, found]
      obtain ⟨row, present⟩ := present
      obtain ⟨agree, updated⟩ := contents_update sound consistent size found
      have cursors := rowWrite_cursors sound consistent found rowData
      rw [trace, present]
      cases count with
      | zero => exact ⟨by simpa using consistent, by simp⟩
      | succ count =>
          simp only [List.take_succ_cons, List.take_nil, Memory.applyAll_cons, Memory.applyAll_nil,
            Nat.add_one_ne_zero, if_false]
          constructor
          · unfold Consistent
            rw [cursors.1, cursors.2]
            exact consistent.agree agree (Nat.le_refl _) consistent.rowsBound (Nat.le_refl _)
              consistent.cursorBound
          · exact BoundedMap.ext updated cursors.1
    · have missing : (abstraction layout memory).entries entityId = none :=
        contents_eq_none.mpr absent
      rw [trace, missing]
      dsimp only
      rw [if_neg (show ¬ (abstraction layout memory).consumed < layout.capacity from
        Nat.not_lt.mpr full)]
      exact ⟨by simpa using consistent, by simp⟩
    · have missing : (abstraction layout memory).entries entityId = none :=
        contents_eq_none.mpr absent
      rw [trace, missing]
      dsimp only
      rw [if_pos (show (abstraction layout memory).consumed < layout.capacity from free)]
      dsimp only
      by_cases none : count = 0
      · rw [none]
        exact ⟨by simpa using consistent, by simp⟩
      · rw [if_neg none]
        by_cases early : count < 8
        · rw [if_pos early]
          exact newEntityPlan_leak sound consistent size short free first (Nat.pos_of_ne_zero none)
            early
        · rw [if_neg early, List.take_of_length_le (Nat.le_of_not_lt early)]
          exact newEntityPlan_add sound consistent size short free first nonempty
  · obtain ⟨error, trace, spec⟩ := insert_malformed hashId memory wellFormed
      (abstraction layout memory)
    unfold specCut
    rw [trace, spec]
    exact ⟨by simpa using consistent, by simp⟩

end Simulation

end Quorin
