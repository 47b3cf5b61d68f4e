import Quorin.Proof.Segment.MapSpec

namespace Quorin

open ByteMemory LinearProbe

section Fresh

variable {layout : SegmentLayout} (sound : LayoutSound layout) {header : List UInt8}
  (headerLength : header.length = headerSize)

theorem freshSegment_eq (layout : SegmentLayout) (header : List UInt8) :
    freshSegment layout header =
      ((Memory.zero.write 0 header).write metadataOffset (leBytes 8 0 ++ leBytes 8 0)).write
        layout.stringPoolOffset (leBytes 4 layout.maxIdBytes ++ leBytes 4 0) := rfl

include sound in
/-- Both cursors of a fresh segment are zero. -/
theorem freshSegment_cursors (header : List UInt8) :
    nextFreeRow (freshSegment layout header) = 0 ∧
      stringPoolCursor (freshSegment layout header) = 0 := by
  have start := sound.slotStart
  have tableEnd := sound.slotEnd
  simp only [dataRegionOffset] at start
  have metadata : (freshSegment layout header).read metadataOffset (8 + 8) =
      leBytes 8 0 ++ leBytes 8 0 := by
    rw [freshSegment_eq, Memory.read_write_disjoint]
    · exact Memory.read_write_same _ _ (leBytes 8 0 ++ leBytes 8 0)
    · simp only [metadataOffset]
      omega
  constructor
  · rw [nextFreeRow, Memory.readNat, ← Memory.read_take _ _ 8 8, metadata]
    decide
  · rw [stringPoolCursor, Memory.readNat, ← Memory.read_drop _ _ 8 8, metadata]
    decide

include sound headerLength in
/-- Every slot of a fresh segment is vacant. -/
theorem freshSegment_flags {index : Nat} (inside : index < layout.slotCapacity) :
    slotFlags layout (freshSegment layout header) index = flagEmpty := by
  have range := sound.slotField_range slotFlagsOffset 4 inside (by decide)
  simp only [dataRegionOffset, headerSize] at range headerLength
  rw [slotFlags, freshSegment_eq, Memory.readNat_write_disjoint, Memory.readNat_write_disjoint,
    Memory.readNat_write_disjoint, Memory.zero_readNat]
  · rfl
  · omega
  · simp only [metadataOffset, List.length_append, leBytes_length]
    omega
  · omega

include sound headerLength in
/-- A fresh segment is consistent and holds no entity. -/
theorem freshSegment_consistent (hashId : List UInt8 → UInt64) :
    Consistent hashId layout (freshSegment layout header) ∧
      abstraction layout (freshSegment layout header) = BoundedMap.empty := by
  obtain ⟨noRows, noBytes⟩ := freshSegment_cursors sound header
  have vacant : ∀ index, index < layout.slotCapacity →
      slotFlags layout (freshSegment layout header) index ≠ flagOccupied := by
    intro index inside occupied
    rw [freshSegment_flags sound headerLength inside] at occupied
    exact absurd occupied (by decide)
  have noKey : ∀ index, index < layout.slotCapacity →
      slotKey layout (freshSegment layout header) index = none :=
    fun index inside => if_neg (vacant index inside)
  constructor
  · unfold Consistent
    rw [noRows, noBytes]
    constructor
    · exact Nat.zero_le _
    · exact Nat.zero_le _
    · exact fun index inside => Or.inl (freshSegment_flags sound headerLength inside)
    · exact fun index inside occupied => absurd occupied (vacant index inside)
    · exact fun first _ inside _ occupied _ _ => absurd occupied (vacant first inside)
    · exact fun first _ inside _ occupied _ _ => absurd occupied (vacant first inside)
    · constructor
      · intro first second key inside _ stored _
        rw [noKey first inside] at stored
        cases stored
      · intro index key inside stored
        rw [noKey index inside] at stored
        cases stored
  · apply BoundedMap.ext
    · funext entityId
      apply contents_eq_none.mpr
      rw [findSlot_none]
      intro index inside stored
      rw [noKey index inside] at stored
      cases stored
    · exact noRows

end Fresh

/-- A history is refined when its segment holds the newest rows and accounts for the lost rows. -/
structure SegmentHistory.Refined (hashId : List UInt8 → UInt64) (layout : SegmentLayout)
    (history : SegmentHistory) : Prop where
  consistent : Consistent hashId layout history.memory
  rows : (abstraction layout history.memory).entries = lastRow history.log
  accounted : (abstraction layout history.memory).Accounted (presentIds history.log) history.lost

theorem lastRow_cons (request : InsertRequest) (log : List InsertRequest) :
    lastRow (request :: log) =
      Function.update (lastRow log) request.entityId (some request.rowData) := by
  funext entityId
  by_cases same : request.entityId = entityId
  · rw [← same, Function.update_self]
    simp [lastRow]
  · rw [Function.update_of_ne (Ne.symm same)]
    simp [lastRow, same]

theorem presentIds_cons (request : InsertRequest) (log : List InsertRequest) :
    presentIds (request :: log) = Insert.insert request.entityId (presentIds log) := by
  simp [presentIds]

section Steps

variable {hashId : List UInt8 → UInt64} {layout : SegmentLayout} (sound : LayoutSound layout)
  {history : SegmentHistory} (refined : history.Refined hashId layout)

/-- A segment with the map of its history keeps the history refined. -/
theorem SegmentHistory.Refined.unchanged {memory : Memory}
    (refined : history.Refined hashId layout) (consistent : Consistent hashId layout memory)
    (same : abstraction layout memory = abstraction layout history.memory) :
    (SegmentHistory.mk memory history.log history.lost).Refined hashId layout := by
  constructor
  · exact consistent
  · exact (congrArg BoundedMap.entries same).trans refined.rows
  · rw [same]
    exact refined.accounted

/-- A segment with one more lost row keeps the history refined. -/
theorem SegmentHistory.Refined.leak {memory : Memory}
    (refined : history.Refined hashId layout) (consistent : Consistent hashId layout memory)
    (leaked : abstraction layout memory = (abstraction layout history.memory).leak) :
    (SegmentHistory.mk memory history.log (history.lost + 1)).Refined hashId layout := by
  constructor
  · exact consistent
  · exact (congrArg BoundedMap.entries leaked).trans refined.rows
  · rw [leaked]
    exact refined.accounted.leak

/-- A segment with an updated row keeps the history refined. -/
theorem SegmentHistory.Refined.update {memory : Memory} {request : InsertRequest}
    (refined : history.Refined hashId layout) (consistent : Consistent hashId layout memory)
    (present : contents layout history.memory request.entityId ≠ none)
    (updated : abstraction layout memory =
      (abstraction layout history.memory).update request.entityId request.rowData) :
    (SegmentHistory.mk memory (request :: history.log) history.lost).Refined hashId layout := by
  have member := (refined.accounted.1 request.entityId).mpr present
  constructor
  · exact consistent
  · rw [updated, lastRow_cons, ← refined.rows]
    rfl
  · rw [updated, presentIds_cons, Finset.insert_eq_of_mem member]
    exact refined.accounted.update request.rowData present

/-- A segment with a new entity keeps the history refined. -/
theorem SegmentHistory.Refined.add {memory : Memory} {request : InsertRequest}
    (refined : history.Refined hashId layout) (consistent : Consistent hashId layout memory)
    (absent : contents layout history.memory request.entityId = none)
    (added : abstraction layout memory =
      (abstraction layout history.memory).add request.entityId request.rowData) :
    (SegmentHistory.mk memory (request :: history.log) history.lost).Refined hashId layout := by
  constructor
  · exact consistent
  · rw [added, lastRow_cons, ← refined.rows]
    rfl
  · rw [added, presentIds_cons]
    exact refined.accounted.add request.rowData absent

include sound refined in
/-- A call that is cut off keeps the history refined. -/
theorem SegmentHistory.Refined.cutOffInsert (request : InsertRequest) (count : Nat) :
    (history.cutOffInsert hashId layout request count).Refined hashId layout := by
  obtain ⟨consistent, cut⟩ := cutInsert_refines sound refined.consistent request.entityId
    request.rowData count
  unfold SegmentHistory.cutOffInsert Program.writes
  rcases insert_cases sound refined.consistent request.entityId request.rowData with
    ⟨error, trace, spec⟩ | ⟨entry, trace, present, spec⟩ | ⟨plan, trace, total, absent, spec⟩
  · rw [specCut, spec] at cut
    have notLost : ¬ (0 < count ∧ count < 0) := by omega
    simp only [trace, List.length_nil, Nat.lt_irrefl, false_and, if_false, if_neg notLost]
    exact refined.unchanged consistent cut
  · rw [specCut, spec] at cut
    rw [trace]
    by_cases none : count = 0
    · rw [if_pos none] at cut
      simp only [List.length_singleton, none]
      exact refined.unchanged (none ▸ consistent) (none ▸ cut)
    · rw [if_neg none] at cut
      have complete : 0 < 1 ∧ 1 ≤ count := by omega
      have notLost : ¬ (0 < count ∧ count < 1) := by omega
      simp only [List.length_singleton, if_pos complete, if_neg notLost]
      exact refined.update consistent present cut
  · rw [specCut, spec] at cut
    rw [trace]
    dsimp only at cut ⊢
    rw [total]
    by_cases none : count = 0
    · rw [if_pos none] at cut
      subst none
      exact refined.unchanged consistent cut
    · rw [if_neg none] at cut
      by_cases early : count < 8
      · have missing : ¬ (0 < 8 ∧ 8 ≤ count) := by omega
        have lost : 0 < count ∧ count < 8 := by omega
        rw [if_pos early] at cut
        rw [if_neg missing, if_pos lost]
        exact refined.leak consistent cut
      · have complete : 0 < 8 ∧ 8 ≤ count := by omega
        have notLost : ¬ (0 < count ∧ count < 8) := by omega
        rw [if_neg early] at cut
        rw [if_pos complete, if_neg notLost]
        exact refined.add consistent absent cut

/-- A completed call is a call that is cut off behind its last write. -/
theorem SegmentHistory.completeInsert_eq (sound : LayoutSound layout)
    (consistent : Consistent hashId layout history.memory) (request : InsertRequest) :
    history.completeInsert hashId layout request =
      history.cutOffInsert hashId layout request 8 := by
  unfold completeInsert cutOffInsert cutInsert Program.run Program.result Program.writes
  rcases insert_cases sound consistent request.entityId request.rowData with
    ⟨error, trace, _⟩ | ⟨entry, trace, _⟩ | ⟨plan, trace, total, _⟩
  · rw [trace]
    rfl
  · rw [trace]
    rfl
  · simp only [trace, total, List.take_of_length_le (Nat.le_of_eq total)]
    rfl

include sound refined in
/-- A completed call keeps the history refined. -/
theorem SegmentHistory.Refined.completeInsert (request : InsertRequest) :
    (history.completeInsert hashId layout request).Refined hashId layout := by
  rw [completeInsert_eq sound refined.consistent request]
  exact refined.cutOffInsert sound request 8

include sound refined in
theorem SegmentHistory.Refined.perform (call : InsertRequest × Option Nat) :
    (history.perform hashId layout call).Refined hashId layout := by
  unfold SegmentHistory.perform
  split
  · exact refined.completeInsert sound call.1
  · exact refined.cutOffInsert sound call.1 _

end Steps

/-- An insert of a named row that fits. -/
structure InsertRequest.Fits (layout : SegmentLayout) (request : InsertRequest) : Prop where
  named : request.entityId ≠ ""
  size : request.rowData.length = layout.rowSize
  short : (encodeUtf8 request.entityId).length ≤ layout.maxIdBytes

section Runs

variable (hashId : List UInt8 → UInt64) {layout : SegmentLayout} (sound : LayoutSound layout)
  {header : List UInt8} (headerLength : header.length = headerSize)

include sound headerLength in
theorem SegmentHistory.Refined.fresh :
    (SegmentHistory.fresh layout header).Refined hashId layout := by
  obtain ⟨consistent, empty⟩ := freshSegment_consistent sound headerLength hashId
  constructor
  · exact consistent
  · exact congrArg BoundedMap.entries empty
  · exact (congrArg (fun map => BoundedMap.Accounted map ∅ 0) empty).mpr BoundedMap.accounted_empty

include sound headerLength in
/-- Every sequence of completed and cut-off calls keeps the history refined. -/
theorem runCalls_refined (calls : List (InsertRequest × Option Nat)) :
    (runCalls hashId layout header calls).Refined hashId layout := by
  unfold runCalls
  have start := SegmentHistory.Refined.fresh hashId sound headerLength
  generalize SegmentHistory.fresh layout header = history at start
  induction calls generalizing history with
  | nil => exact start
  | cons call rest ih => exact ih _ (start.perform sound call)

/-- A sequence of completed calls is a sequence of calls without a cut. -/
theorem runInserts_eq (header : List UInt8) (requests : List InsertRequest) :
    runInserts hashId layout header requests =
      runCalls hashId layout header (requests.map fun request => (request, none)) := by
  rw [runInserts, runCalls, List.foldl_map]
  rfl

theorem runInserts_lost (header : List UInt8) (requests : List InsertRequest) :
    (runInserts hashId layout header requests).lost = 0 := by
  unfold runInserts
  have start : (SegmentHistory.fresh layout header).lost = 0 := rfl
  generalize SegmentHistory.fresh layout header = history at start
  induction requests generalizing history with
  | nil => exact start
  | cons request rest ih => exact ih _ start

include sound headerLength in
/-- No more inserts than there are rows are all logged when each of them fits. -/
theorem runInserts_logged {requests : List InsertRequest}
    (fit : ∀ request ∈ requests, request.Fits layout) (room : requests.length ≤ layout.capacity) :
    (runInserts hashId layout header requests).log = requests.reverse := by
  induction requests using List.reverseRecOn with
  | nil => rfl
  | append_singleton earlier request ih =>
      rw [List.length_append, List.length_singleton] at room
      have logged := ih (fun other member => fit other (List.mem_append_left _ member)) (by omega)
      have fits := fit request (List.mem_append_right _ (List.mem_singleton_self _))
      have refined : (runInserts hashId layout header earlier).Refined hashId layout := by
        rw [runInserts_eq]
        exact runCalls_refined hashId sound headerLength _
      have few : nextFreeRow (runInserts hashId layout header earlier).memory ≤ earlier.length := by
        have total : nextFreeRow (runInserts hashId layout header earlier).memory =
            (presentIds (runInserts hashId layout header earlier).log).card +
              (runInserts hashId layout header earlier).lost := refined.accounted.2
        rw [total, runInserts_lost, presentIds, logged]
        refine (List.toFinset_card_le _).trans ?_
        rw [List.length_map, List.length_reverse]
      have returned := insert_result_wellFormed sound refined.consistent fits.named fits.size
      rw [if_neg (Nat.not_lt.mpr fits.short), if_neg (by omega)] at returned
      have ok : ((insert hashId layout request.entityId request.rowData).run
          (runInserts hashId layout header earlier).memory).1 = .ok _ := returned
      have stepped : runInserts hashId layout header (earlier ++ [request]) =
          (runInserts hashId layout header earlier).completeInsert hashId layout request := by
        rw [runInserts, List.foldl_concat]
        rfl
      rw [List.reverse_concat, ← logged]
      simp only [stepped, SegmentHistory.completeInsert, ok]

end Runs

/-- A lookup of a logged id finds its row. -/
theorem SegmentHistory.Refined.lookup_logged {hashId : List UInt8 → UInt64} {layout : SegmentLayout}
    (sound : LayoutSound layout) {history : SegmentHistory}
    (refined : history.Refined hashId layout) {entityId : String}
    (logged : entityId ∈ presentIds history.log) :
    ∃ address, (lookup hashId layout entityId).result history.memory = .ok (some address) := by
  obtain ⟨index, inside, stored⟩ :=
    contents_ne_none.mp ((refined.accounted.1 entityId).mp logged)
  exact ⟨_, (lookup_located sound refined.consistent).mpr ⟨index, inside, stored, rfl⟩⟩

/-- The bytes of the string pool that the entry of an id uses. -/
def poolRange (layout : SegmentLayout) (memory : Memory) (entityId : String) :
    Option (Nat × Nat) :=
  (findSlot layout memory (encodeUtf8 entityId)).map fun index =>
    let idOffset := slotIdOffset layout memory index
    (layout.entryAddress idOffset,
      layout.entryAddress idOffset + lenPrefixBytes + entryLength layout memory idOffset)

/-- Different present ids use disjoint bytes of the string pool. -/
theorem poolRange_disjoint {hashId : List UInt8 → UInt64} {layout : SegmentLayout}
    {memory : Memory} (consistent : Consistent hashId layout memory) {first second : String}
    (different : first ≠ second) {firstRange secondRange : Nat × Nat}
    (firstUsed : poolRange layout memory first = some firstRange)
    (secondUsed : poolRange layout memory second = some secondRange) :
    firstRange.2 ≤ secondRange.1 ∨ secondRange.2 ≤ firstRange.1 := by
  obtain ⟨left, leftFound, rfl⟩ := Option.map_eq_some_iff.mp firstUsed
  obtain ⟨right, rightFound, rfl⟩ := Option.map_eq_some_iff.mp secondUsed
  obtain ⟨leftInside, leftStored⟩ := findSlot_some leftFound
  obtain ⟨rightInside, rightStored⟩ := findSlot_some rightFound
  have apart : left ≠ right := by
    rintro rfl
    rw [leftStored] at rightStored
    exact different (encodeUtf8_injective (Option.some.inj rightStored))
  have disjoint := consistent.poolDisjoint left right leftInside rightInside
    (slotKey_eq_some.mp leftStored).1 (slotKey_eq_some.mp rightStored).1 apart
  simp only [SegmentLayout.entryAddress]
  omega

section Results

variable {hashName : String → UInt64} {schema : FeatureSchema} {capacity maxIdBytes : Int}
  {layout : SegmentLayout}

theorem SegmentHistory.Refined.behavesAsMap {hashId : List UInt8 → UInt64}
    (sound : LayoutSound layout) {history : SegmentHistory}
    (refined : history.Refined hashId layout) :
    BehavesAsMap hashId layout history.memory (lastRow history.log)
      ((presentIds history.log).card + history.lost) := by
  have behaves := refined.consistent.behavesAsMap sound
  rw [← refined.rows, ← refined.accounted.2]
  exact behaves

/-- Every sequence of inserts makes a fresh segment behave as the map of its newest rows. -/
theorem runInserts_behavesAsMap
    (computed : computeLayout hashName schema capacity maxIdBytes = .ok layout)
    (hashId : List UInt8 → UInt64) (header : List UInt8)
    (headerLength : header.length = headerSize) (requests : List InsertRequest) :
    let history := runInserts hashId layout header requests
    BehavesAsMap hashId layout history.memory (lastRow history.log)
      (presentIds history.log).card := by
  intro history
  have sound := computeLayout_sound computed
  have refined : history.Refined hashId layout := by
    rw [show history = _ from runInserts_eq hashId header requests]
    exact runCalls_refined hashId sound headerLength _
  have behaves := refined.behavesAsMap sound
  rw [show history.lost = 0 from runInserts_lost hashId header requests] at behaves
  exact behaves

/-- Two inserts of one id into the sample segment leave the newer row. -/
theorem runInserts_behavesAsMap_sample :
    let history := runInserts (fun _ => 0) sampleLayout (List.replicate 16 0)
      [⟨"a", List.replicate 64 1⟩, ⟨"a", List.replicate 64 2⟩]
    BehavesAsMap (fun _ => 0) sampleLayout history.memory (lastRow history.log)
      (presentIds history.log).card :=
  runInserts_behavesAsMap computeLayout_sample (fun _ => 0) _ rfl _

/-- Every sequence of completed and cut-off inserts keeps a segment crash consistent. -/
theorem runCalls_crashConsistent
    (computed : computeLayout hashName schema capacity maxIdBytes = .ok layout)
    (hashId : List UInt8 → UInt64) (header : List UInt8)
    (headerLength : header.length = headerSize) (calls : List (InsertRequest × Option Nat)) :
    let history := runCalls hashId layout header calls
    BehavesAsMap hashId layout history.memory (lastRow history.log)
        ((presentIds history.log).card + history.lost) ∧
      nextFreeRow history.memory = (presentIds history.log).card + history.lost ∧
      (∀ entityId, poolRange layout history.memory entityId = none ↔
        lastRow history.log entityId = none) ∧
      (∀ first second firstRange secondRange, first ≠ second →
        poolRange layout history.memory first = some firstRange →
        poolRange layout history.memory second = some secondRange →
        firstRange.2 ≤ secondRange.1 ∨ secondRange.2 ≤ firstRange.1) ∧
      ∀ request count,
        let after := history.cutOffInsert hashId layout request count
        (∀ other, other ≠ request.entityId →
          lastRow after.log other = lastRow history.log other) ∧
        (lastRow after.log request.entityId = lastRow history.log request.entityId ∨
          lastRow after.log request.entityId = some request.rowData) ∧
        after.lost ≤ history.lost + 1 := by
  intro history
  have sound := computeLayout_sound computed
  have refined := runCalls_refined hashId sound headerLength calls
  refine ⟨refined.behavesAsMap sound, refined.accounted.2, ?_, ?_, ?_⟩
  · intro entityId
    rw [← refined.rows]
    exact Option.map_eq_none_iff.trans contents_eq_none.symm
  · intro first second firstRange secondRange different firstUsed secondUsed
    exact poolRange_disjoint refined.consistent different firstUsed secondUsed
  · intro request count after
    have log : after.log = history.log ∨ after.log = request :: history.log := by
      simp only [after, SegmentHistory.cutOffInsert]
      split
      · exact Or.inr rfl
      · exact Or.inl rfl
    refine ⟨?_, ?_, ?_⟩
    · intro other different
      rcases log with same | longer
      · rw [same]
      · rw [longer, lastRow_cons, Function.update_of_ne different]
    · rcases log with same | longer
      · exact Or.inl (by rw [same])
      · exact Or.inr (by rw [longer, lastRow_cons, Function.update_self])
    · simp only [after, SegmentHistory.cutOffInsert]
      split
      · exact Nat.le_refl _
      · exact Nat.le_succ _

/-- A cut-off insert of one id does not disturb the later insert of another id. -/
theorem runCalls_crashConsistent_sample :
    let history := runCalls (fun _ => 0) sampleLayout (List.replicate 16 0)
      [(⟨"a", List.replicate 64 1⟩, some 5), (⟨"b", List.replicate 64 2⟩, none)]
    BehavesAsMap (fun _ => 0) sampleLayout history.memory (lastRow history.log)
        ((presentIds history.log).card + history.lost) :=
  (runCalls_crashConsistent computeLayout_sample (fun _ => 0) (List.replicate 16 0) rfl _).1

end Results

end Quorin
