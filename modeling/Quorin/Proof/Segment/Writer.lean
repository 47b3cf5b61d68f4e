import Quorin.Construction.Writer
import Quorin.Proof.Segment.Histories

namespace Quorin

open ByteMemory LinearProbe Relation

/-- An occupied record of one memory is the same occupied record in another memory. -/
structure SameRecord (layout : SegmentLayout) (before after : Memory) (index : Nat) : Prop where
  flags : slotFlags layout after index = flagOccupied
  hash : slotHash layout after index = slotHash layout before index
  idOffset : slotIdOffset layout after index = slotIdOffset layout before index
  row : slotRow layout after index = slotRow layout before index
  length : entryLength layout after (slotIdOffset layout before index) =
    entryLength layout before (slotIdOffset layout before index)
  bytes : entryBytes layout after (slotIdOffset layout before index) =
    entryBytes layout before (slotIdOffset layout before index)

/-- A memory grows into another when every occupied record stays as it is. -/
def Grows (layout : SegmentLayout) (before after : Memory) : Prop :=
  ∀ index, index < layout.slotCapacity → slotFlags layout before index = flagOccupied →
    SameRecord layout before after index

theorem Grows.refl (layout : SegmentLayout) (memory : Memory) : Grows layout memory memory :=
  fun _ _ occupied => ⟨occupied, rfl, rfl, rfl, rfl, rfl⟩

theorem Grows.trans {layout : SegmentLayout} {first second third : Memory}
    (left : Grows layout first second) (right : Grows layout second third) :
    Grows layout first third := by
  intro index inside occupied
  have early := left index inside occupied
  have late := right index inside early.flags
  have lateLength := late.length
  have lateBytes := late.bytes
  rw [early.idOffset] at lateLength lateBytes
  exact ⟨late.flags, late.hash.trans early.hash, late.idOffset.trans early.idOffset,
    late.row.trans early.row, lateLength.trans early.length, lateBytes.trans early.bytes⟩

/-- A grown memory keeps the key of every occupied slot. -/
theorem Grows.slotKey {layout : SegmentLayout} {before after : Memory}
    (grows : Grows layout before after) {index : Nat} (inside : index < layout.slotCapacity)
    {key : List UInt8} (stored : slotKey layout before index = some key) :
    slotKey layout after index = some key := by
  have occupied := slotKey_eq_some.mp stored
  have same := grows index inside occupied.1
  apply slotKey_eq_some.mpr
  rw [same.idOffset, same.bytes]
  exact ⟨same.flags, occupied.2⟩

section Cuts

variable {hashId : List UInt8 → UInt64} {layout : SegmentLayout} {base : Memory}
  {rows cursor : Nat} (invariant : SegmentInvariant hashId layout base rows cursor)

include invariant in
/-- Two memories that agree with one base hold the same records. -/
theorem SegmentInvariant.grows {before after : Memory} (early : Agree layout cursor base before)
    (late : Agree layout cursor base after) : Grows layout before after := by
  intro index inside occupied
  have occupiedBase := (early.flags index inside).symm.trans occupied
  have used := (invariant.slot index inside occupiedBase).entry
  have earlyEntry := early.entry used
  have lateEntry := late.entry used
  have place := early.idOffset index inside occupiedBase
  constructor
  · exact (late.flags index inside).trans occupiedBase
  · exact (late.hash index inside occupiedBase).trans (early.hash index inside occupiedBase).symm
  · exact (late.idOffset index inside occupiedBase).trans place.symm
  · exact (late.row index inside occupiedBase).trans (early.row index inside occupiedBase).symm
  · rw [place]
    exact lateEntry.1.trans earlyEntry.1.symm
  · rw [place]
    exact lateEntry.2.trans earlyEntry.2.symm

/-- The flags write of a vacant slot keeps every occupied record. -/
theorem occupySlot_grows (sound : LayoutSound layout) {memory : Memory} {index : Nat}
    (inside : index < layout.slotCapacity) : Grows layout memory (occupySlot layout memory index) := by
  intro other _ occupied
  have entry := occupySlot_entry sound memory inside (slotIdOffset layout memory other)
  constructor
  · rw [occupySlot_flags]
    split
    · rfl
    · exact occupied
  · exact occupySlot_field memory other _ _ (by decide) (by decide)
  · exact occupySlot_field memory other _ _ (by decide) (by decide)
  · exact occupySlot_field memory other _ _ (by decide) (by decide)
  · exact entry.1
  · exact entry.2

/-- Each further write of an insert keeps every occupied record. -/
theorem cutInsert_grows (sound : LayoutSound layout) (consistent : Consistent hashId layout base)
    (entityId : String) (rowData : List UInt8) (count : Nat) :
    Grows layout (cutInsert hashId layout base entityId rowData count)
      (cutInsert hashId layout base entityId rowData (count + 1)) := by
  unfold cutInsert Program.writes
  by_cases wellFormed : entityId ≠ "" ∧ rowData.length = layout.rowSize ∧
      (encodeUtf8 entityId).length ≤ layout.maxIdBytes
  · obtain ⟨nonempty, size, short⟩ := wellFormed
    rcases insert_trace sound consistent nonempty size short with
      ⟨index, found, trace⟩ | ⟨_, _, trace⟩ | ⟨index, absent, free, first, trace⟩
    · rw [trace]
      cases count with
      | zero =>
          have agree := (contents_update sound consistent size found).1
          exact consistent.grows (Agree.refl layout _ base) agree
      | succ count =>
          simp only [List.take_succ_cons, List.take_nil]
          exact Grows.refl layout _
    · rw [trace]
      simp only [List.take_nil]
      exact Grows.refl layout _
    · have harmless := fun count early =>
        (newEntityPlan_harmless sound consistent size short free first count early).1
      rw [trace]
      by_cases early : count + 1 < 8
      · exact consistent.grows (harmless count (by omega)) (harmless (count + 1) early)
      · by_cases last : count = 7
        · rw [last]
          have split := insertPlan_split layout index (hashId (encodeUtf8 entityId))
            (encodeUtf8 entityId) rowData (nextFreeRow base) (stringPoolCursor base) base
          exact split ▸ occupySlot_grows sound first.inside
        · have long : (insertPlan layout index (hashId (encodeUtf8 entityId)) (encodeUtf8 entityId)
              rowData (nextFreeRow base) (stringPoolCursor base)).length ≤ count := by
            simp only [insertPlan, List.length_cons, List.length_nil]
            omega
          simp only [List.take_of_length_le long, List.take_of_length_le (long.trans (Nat.le_succ _))]
          exact Grows.refl layout _
  · obtain ⟨error, trace, _⟩ := insert_malformed hashId base wellFormed BoundedMap.empty
    rw [trace]
    simp only [List.take_nil]
    exact Grows.refl layout _

/-- A cut insert keeps the row of every other id. -/
theorem specCut_other (layout : SegmentLayout) (map : BoundedMap String (List UInt8))
    {entityId other : String} (different : other ≠ entityId) (rowData : List UInt8) (count : Nat) :
    (specCut layout map entityId rowData count).entries other = map.entries other := by
  unfold specCut
  split
  · rfl
  · split
    · rfl
    · exact Function.update_of_ne different _ _
  · split
    · rfl
    · split
      · rfl
      · exact Function.update_of_ne different _ _

/-- A further write of a cut insert keeps its own id present. -/
theorem specCut_own (layout : SegmentLayout) (map : BoundedMap String (List UInt8))
    (entityId : String) (rowData : List UInt8) (count : Nat)
    (present : (specCut layout map entityId rowData count).entries entityId ≠ none) :
    (specCut layout map entityId rowData (count + 1)).entries entityId ≠ none := by
  unfold specCut at present ⊢
  generalize (specInsert layout map entityId rowData).1 = outcome at present ⊢
  cases outcome with
  | error error => exact present
  | ok value =>
      cases value with
      | false => simp [BoundedMap.update]
      | true =>
          by_cases early : count + 1 < 8
          · have before : count < 8 := by omega
            by_cases none : count = 0
            · simpa [none, BoundedMap.leak] using present
            · simpa [none, early, before, BoundedMap.leak] using present
          · simp [early, BoundedMap.add, BoundedMap.update, BoundedMap.leak]

end Cuts

/-- The remaining program of a call performs the remaining writes of an insert into a base. -/
structure Underway (hashId : List UInt8 → UInt64) (layout : SegmentLayout) (memory : Memory)
    (request : InsertRequest) (program : SegmentProgram Bool) (base : Memory) (count : Nat) :
    Prop where
  consistent : Consistent hashId layout base
  reached : memory = cutInsert hashId layout base request.entityId request.rowData count
  result : program.result memory =
    (insert hashId layout request.entityId request.rowData).result base
  writes : program.writes memory =
    ((insert hashId layout request.entityId request.rowData).writes base).drop count

/-- The invariant of the writer. -/
structure WriterInvariant (hashId : List UInt8 → UInt64) (layout : SegmentLayout)
    (state : WriterState) : Prop where
  consistent : Consistent hashId layout state.memory
  begun : ∀ entityId, contents layout state.memory entityId ≠ none →
    ∃ request ∈ state.begun, request.entityId = entityId
  returned : ∀ request ∈ state.returned, contents layout state.memory request.entityId ≠ none
  current : ∀ request program, state.current = some (request, program) →
    request ∈ state.begun ∧ ∃ base count, Underway hashId layout state.memory request program base
      count

section Writer

variable {hashId : List UInt8 → UInt64} {layout : SegmentLayout} (sound : LayoutSound layout)

include sound in
/-- The next write of a call leads to the next cut of its insert. -/
theorem Underway.write {memory : Memory} {request : InsertRequest} {address : Nat}
    {bytes : List UInt8} {next : SegmentProgram Bool} {base : Memory} {count : Nat}
    (underway : Underway hashId layout memory request (.write address bytes next) base count) :
    Underway hashId layout (memory.write address bytes) request next base (count + 1) ∧
      Consistent hashId layout (memory.write address bytes) ∧
      Grows layout memory (memory.write address bytes) ∧
      (∀ entityId, contents layout memory entityId ≠ none →
        contents layout (memory.write address bytes) entityId ≠ none) ∧
      ∀ entityId, contents layout (memory.write address bytes) entityId ≠ none →
        contents layout memory entityId ≠ none ∨ entityId = request.entityId := by
  have pending := underway.writes
  change ⟨address, bytes⟩ :: next.writes (memory.write address bytes) = _ at pending
  have later : memory.write address bytes =
      cutInsert hashId layout base request.entityId request.rowData (count + 1) := by
    rw [cutInsert, List.take_add, ← pending, Memory.applyAll_append, ← cutInsert,
      ← underway.reached]
    rfl
  have early := cutInsert_refines sound underway.consistent request.entityId request.rowData count
  have late := cutInsert_refines sound underway.consistent request.entityId request.rowData
    (count + 1)
  have before : contents layout memory = (specCut layout (abstraction layout base) request.entityId
      request.rowData count).entries := by
    rw [underway.reached, ← early.2]
    rfl
  have after : contents layout (memory.write address bytes) = (specCut layout
      (abstraction layout base) request.entityId request.rowData (count + 1)).entries := by
    rw [later, ← late.2]
    rfl
  refine ⟨⟨underway.consistent, later, underway.result, ?_⟩, ?_, ?_, ?_, ?_⟩
  · rw [← List.drop_drop, ← pending]
    rfl
  · rw [later]
    exact late.1
  · rw [later]
    nth_rewrite 1 [underway.reached]
    exact cutInsert_grows sound underway.consistent request.entityId request.rowData count
  · intro entityId present
    rw [before] at present
    rw [after]
    by_cases same : entityId = request.entityId
    · rw [same] at present ⊢
      exact specCut_own layout _ _ _ _ present
    · rw [specCut_other layout _ same] at present ⊢
      exact present
  · intro entityId present
    rw [after] at present
    rw [before]
    by_cases same : entityId = request.entityId
    · exact Or.inr same
    · rw [specCut_other layout _ same] at present ⊢
      exact Or.inl present

include sound in
/-- A call that returned has left its id in the segment. -/
theorem Underway.returned {memory : Memory} {request : InsertRequest} {value : Bool} {base : Memory}
    {count : Nat} (underway : Underway hashId layout memory request (.done value) base count) :
    contents layout memory request.entityId ≠ none := by
  have result := underway.result
  have writes := underway.writes
  change .ok value = ((insert hashId layout request.entityId request.rowData).trace base).1 at result
  change [] = ((insert hashId layout request.entityId request.rowData).trace base).2.drop count
    at writes
  have cut := (cutInsert_refines sound underway.consistent request.entityId request.rowData count).2
  rw [← underway.reached, specCut] at cut
  have entries : contents layout memory = (abstraction layout memory).entries := rfl
  rw [entries, cut]
  rcases insert_cases sound underway.consistent request.entityId request.rowData with
    ⟨error, trace, spec⟩ | ⟨entry, trace, present, spec⟩ | ⟨plan, trace, total, _, spec⟩
  · rw [trace] at result
    cases result
  · rw [spec]
    by_cases none : count = 0
    · rw [none]
      exact present
    · simp [none, BoundedMap.update]
  · rw [trace] at writes
    have complete := List.drop_eq_nil_iff.mp writes.symm
    dsimp only at complete
    rw [total] at complete
    rw [spec]
    simp [show count ≠ 0 by omega, show ¬ count < 8 by omega, BoundedMap.add, BoundedMap.update,
      BoundedMap.leak]

include sound in
/-- Every step of the writer keeps its invariant and every occupied record. -/
theorem WriterInvariant.step {state next : WriterState}
    (invariant : WriterInvariant hashId layout state) (moved : WriterStep hashId layout state next) :
    WriterInvariant hashId layout next ∧ Grows layout state.memory next.memory := by
  cases moved with
  | begin request idle =>
      refine ⟨⟨invariant.consistent, ?_, invariant.returned, ?_⟩, Grows.refl layout _⟩
      · intro entityId present
        obtain ⟨earlier, member, same⟩ := invariant.begun entityId present
        exact ⟨earlier, List.mem_cons_of_mem _ member, same⟩
      · intro other program active
        obtain ⟨rfl, rfl⟩ := Prod.mk.inj (Option.some.inj active)
        exact ⟨List.mem_cons_self, state.memory, 0, invariant.consistent, rfl, rfl, rfl⟩
  | read active =>
      obtain ⟨member, base, count, underway⟩ := invariant.current _ _ active
      refine ⟨⟨invariant.consistent, invariant.begun, invariant.returned, ?_⟩, Grows.refl layout _⟩
      intro other program later
      obtain ⟨rfl, rfl⟩ := Prod.mk.inj (Option.some.inj later)
      exact ⟨member, base, count, underway.consistent, underway.reached, underway.result,
        underway.writes⟩
  | write active =>
      obtain ⟨member, base, count, underway⟩ := invariant.current _ _ active
      obtain ⟨later, consistent, grows, kept, added⟩ := underway.write sound
      refine ⟨⟨consistent, ?_, ?_, ?_⟩, grows⟩
      · intro entityId present
        rcases added entityId present with earlier | rfl
        · exact invariant.begun entityId earlier
        · exact ⟨_, member, rfl⟩
      · exact fun request returned => kept _ (invariant.returned request returned)
      · intro other program now
        obtain ⟨rfl, rfl⟩ := Prod.mk.inj (Option.some.inj now)
        exact ⟨member, base, count + 1, later⟩
  | finish active =>
      obtain ⟨member, base, count, underway⟩ := invariant.current _ _ active
      refine ⟨⟨invariant.consistent, invariant.begun, ?_, fun _ _ idle => nomatch idle⟩,
        Grows.refl layout _⟩
      intro request returned
      rcases List.mem_cons.mp returned with rfl | earlier
      · exact underway.returned sound
      · exact invariant.returned request earlier
  | raise active =>
      exact ⟨⟨invariant.consistent, invariant.begun, invariant.returned, fun _ _ idle => nomatch idle⟩,
        Grows.refl layout _⟩
  | crash active =>
      exact ⟨⟨invariant.consistent, invariant.begun, invariant.returned, fun _ _ idle => nomatch idle⟩,
        Grows.refl layout _⟩

include sound in
/-- Every run of the writer keeps its invariant and every occupied record. -/
theorem WriterInvariant.run {state later : WriterState}
    (invariant : WriterInvariant hashId layout state)
    (path : ReflTransGen (WriterStep hashId layout) state later) :
    WriterInvariant hashId layout later ∧ Grows layout state.memory later.memory := by
  induction path with
  | refl => exact ⟨invariant, Grows.refl layout _⟩
  | tail _ last ih =>
      have next := ih.1.step sound last
      exact ⟨next.1, ih.2.trans next.2⟩

include sound in
/-- Every reachable writer state satisfies the invariant. -/
theorem WriterReachable.invariant {header : List UInt8} (headerLength : header.length = headerSize)
    {state : WriterState} (reached : WriterReachable hashId layout header state) :
    WriterInvariant hashId layout state := by
  obtain ⟨consistent, empty⟩ := freshSegment_consistent sound headerLength hashId
  have start : WriterInvariant hashId layout (.start layout header) := by
    refine ⟨consistent, ?_, fun _ member => (nomatch member), fun _ _ idle => nomatch idle⟩
    intro entityId present
    exact absurd (congrFun (congrArg BoundedMap.entries empty) entityId) present
  exact (start.run sound reached).1

end Writer

end Quorin
