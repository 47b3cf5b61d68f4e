import Quorin.Proof.Evolution.CrashedUpgrade

namespace Quorin

open ByteMemory

section Copies

variable {hashName : String → UInt64} {castBits : DType → DType → Nat → Nat}
  {stringArray : List String → Option StringArray} {hashId : List UInt8 → UInt64}
  {old new : FeatureSchema} {oldLayout newLayout : SegmentLayout} {before after : Memory}
  {header : List UInt8} {table : ArrowTable} {count : Nat}

/-- A table that was built is the table of all ids of a segment without lost rows, in one array. -/
theorem buildTranslationTable_ok {history : SegmentHistory} (refined : history.Refined hashId oldLayout)
    (oldTable : computeRowOffsetTable hashName old = .ok oldLayout.rowOffsetTable)
    (strings : ∀ ids array, stringArray ids = some array → array = .ofList ids)
    (built : buildTranslationTable hashName castBits stringArray old new oldLayout history.memory =
      .ok table) :
    (occupiedSlots oldLayout history.memory).length = nextFreeRow history.memory ∧
      table = translatedTable hashName castBits old new oldLayout history.memory
        (rowIds oldLayout history.memory) ∧
      stringArray (rowIds oldLayout history.memory) ≠ none := by
  have consistent := refined.consistent
  have occupied := refined.occupied_lost
  have full : (occupiedSlots oldLayout history.memory).length = nextFreeRow history.memory := by
    by_contra lost
    rw [buildTranslationTable_lost oldTable (by omega)] at built
    cases built
  refine ⟨full, ?_⟩
  cases array : stringArray (rowIds oldLayout history.memory) with
  | some found =>
      obtain rfl := strings _ _ array
      rw [buildTranslationTable_eq consistent oldTable full array] at built
      exact ⟨(Except.ok.inj built).symm, Option.some_ne_none _⟩
  | none =>
      have ids : translateIds oldLayout history.memory (nextFreeRow history.memory) =
          .ok (rowIds oldLayout history.memory) := translateIds_eq consistent full
      unfold buildTranslationTable at built
      dsimp only at built
      rw [show history.memory.readNat metadataOffset 8 = nextFreeRow history.memory from rfl,
        translateFields_eq hashName castBits oldLayout history.memory oldTable, ids] at built
      simp only [bind, Except.bind, array] at built
      cases built

/-- A bulk insert that returned had room for its rows, and the id column under its name. -/
theorem insertMany_ok {schema : FeatureSchema} {layout : SegmentLayout}
    (loaded : (insertMany hashId castBits schema layout table).result before = .ok count)
    (some : table.length ≠ 0) :
    table.length ≤ layout.capacity ∧
      ∃ columns, prepareInsertColumns hashId castBits table schema layout = .ok columns := by
  unfold insertMany at loaded
  rw [if_neg some, Program.result, Program.trace_bind_reads (readMetadata_trace _)] at loaded
  dsimp only at loaded
  split at loaded
  · cases loaded
  · split at loaded
    · cases loaded
    · rename_i room
      refine ⟨Nat.not_lt.mp room, ?_⟩
      split at loaded
      · cases loaded
      · exact ⟨_, by assumption⟩

/-- A field with the name of the id column keeps a table with rows from being prepared. -/
theorem noIdField_of_prepared {ids : List String} {columns : InsertColumns}
    (prepared : prepareInsertColumns hashId castBits
      (translatedTable hashName castBits old new oldLayout before ids) new newLayout = .ok columns) :
    ∀ field ∈ new.fields, field.name ≠ "entity_id" := by
  intro field member same
  have found := lookup_columns (fun field => translatedColumn hashName castBits old oldLayout before
    ids.length field) [("entity_id", .texts (StringArray.ofList ids))] new.namesDistinct member
  rw [same] at found
  unfold prepareInsertColumns at prepared
  rw [show (translatedTable hashName castBits old new oldLayout before ids).columns.lookup "entity_id" =
    _ from found] at prepared
  dsimp only [translatedColumn] at prepared
  split at prepared <;> cases prepared

/-- The rows of a refined segment are copied when its table was built and loaded. -/
theorem copied_of_loaded {history : SegmentHistory} (refined : history.Refined hashId oldLayout)
    (oldSound : LayoutSound oldLayout) (accepted : (canUpgrade old new).1 = true)
    (oldTable : computeRowOffsetTable hashName old = .ok oldLayout.rowOffsetTable)
    {newCapacity maxIdBytes : Int}
    (computed : computeLayout hashName new newCapacity maxIdBytes = .ok newLayout)
    (sameIdBytes : oldLayout.maxIdBytes = newLayout.maxIdBytes)
    (strings : ∀ ids array, stringArray ids = some array → array = .ofList ids)
    (built : buildTranslationTable hashName castBits stringArray old new oldLayout history.memory =
      .ok table)
    (headerLength : header.length = headerSize)
    (loaded : (insertMany hashId castBits new newLayout table).run (freshSegment newLayout header) =
      (.ok count, after)) :
    Copied hashName castBits hashId old new oldLayout newLayout history.memory after ∧
      nextFreeRow after = (rowIds oldLayout history.memory).length := by
  obtain ⟨full, rfl, _⟩ := buildTranslationTable_ok refined oldTable strings built
  have newSound := computeLayout_sound computed
  by_cases noRows : (rowIds oldLayout history.memory).length = 0
  · rw [insertMany_empty hashId castBits new newLayout noRows] at loaded
    obtain rfl := (Prod.mk.inj loaded).2
    obtain ⟨consistent, empty⟩ := freshSegment_consistent newSound headerLength hashId
    obtain ⟨_, members⟩ := rowIds_spec refined.consistent
    have absent : ∀ entityId, contents oldLayout history.memory entityId = none := by
      intro entityId
      by_contra present
      rw [List.length_eq_zero_iff.mp noRows] at members
      exact absurd ((members entityId).mpr present) List.not_mem_nil
    have vacant : ∀ entityId, contents newLayout (freshSegment newLayout header) entityId = none :=
      fun entityId => congrFun (congrArg BoundedMap.entries empty) entityId
    refine ⟨⟨consistent, fun entityId => by rw [absent, vacant], ?_⟩, ?_⟩
    · intro entityId oldAddress found
      obtain ⟨index, inside, stored, _⟩ := (lookup_located oldSound refined.consistent).mp found
      exact absurd (absent entityId) (contents_ne_none.mpr ⟨index, inside, stored⟩)
    · rw [(freshSegment_cursors newSound header).1, noRows]
  · obtain ⟨fits, columns, prepared⟩ := insertMany_ok (Prod.mk.inj loaded).1 noRows
    obtain ⟨final, run, rowsRead, copied⟩ := @translatedTable_copied hashName castBits hashId old new
      oldLayout newLayout history.memory header newCapacity maxIdBytes oldSound refined.consistent
      (canUpgrade_accepted accepted) (noIdField_of_prepared prepared) oldTable computed sameIdBytes full
      fits headerLength
    rw [run] at loaded
    obtain rfl := (Prod.mk.inj loaded).2
    exact ⟨copied, rowsRead⟩

/-- A copy is refined by the log of its rows. -/
theorem Copied.refined (copied : Copied hashName castBits hashId old new oldLayout newLayout before after)
    (consistent : Consistent hashId oldLayout before)
    (rowsRead : nextFreeRow after = (rowIds oldLayout before).length) :
    ∃ log, (SegmentHistory.mk after log 0).Refined hashId newLayout := by
  obtain ⟨distinct, members⟩ := rowIds_spec consistent
  have same : ∀ entityId, entityId ∈ rowIds oldLayout before ↔ contents newLayout after entityId ≠ none :=
    fun entityId => (members entityId).trans (copied.same entityId).symm
  let request := fun entityId => InsertRequest.mk entityId ((contents newLayout after entityId).getD [])
  have ids : presentIds ((rowIds oldLayout before).map request) = (rowIds oldLayout before).toFinset := by
    rw [presentIds, List.map_map, show InsertRequest.entityId ∘ request = id from rfl, List.map_id]
  refine ⟨(rowIds oldLayout before).map request, copied.consistent, ?_, ?_, ?_⟩
  · funext entityId
    change contents newLayout after entityId = lastRow _ entityId
    rw [lastRow, List.find?_map]
    change _ = Option.map _ (Option.map _ ((rowIds oldLayout before).find? fun other =>
      decide (other = entityId)))
    by_cases member : entityId ∈ rowIds oldLayout before
    · obtain ⟨row, stored⟩ := Option.ne_none_iff_exists'.mp ((same entityId).mp member)
      have found : (rowIds oldLayout before).find? (fun other => decide (other = entityId)) =
          some entityId := by
        cases search : (rowIds oldLayout before).find? (fun other => decide (other = entityId)) with
        | none => exact absurd (List.find?_eq_none.mp search entityId member) (by simp)
        | some other =>
            have named := List.find?_some search
            rw [of_decide_eq_true named]
      rw [found, stored]
      simp [request, stored]
    · have missing : (rowIds oldLayout before).find? (fun other => decide (other = entityId)) =
          none := by
        rw [List.find?_eq_none]
        rintro other listed found
        exact member (of_decide_eq_true found ▸ listed)
      rw [missing]
      exact not_not.mp fun present => member ((same entityId).mpr present)
  · intro entityId
    rw [ids, List.mem_toFinset, same]
    rfl
  · change nextFreeRow after = _
    rw [ids, List.toFinset_card_of_nodup distinct, rowsRead]
    rfl

/-- Equal rows have equal parts. -/
theorem read_part {first second : Memory} {firstAddress secondAddress size offset count : Nat}
    (row : first.read firstAddress size = second.read secondAddress size)
    (inside : offset + count ≤ size) :
    first.read (firstAddress + offset) count = second.read (secondAddress + offset) count := by
  have part := congrArg (fun bytes => (bytes.drop offset).take count) row
  have split : size = offset + (count + (size - offset - count)) := by omega
  rw [split, Memory.read_drop, Memory.read_drop, Memory.read_take, Memory.read_take] at part
  exact part

/-- A migrated row stays migrated where its bytes go. -/
theorem MigratedRow.moved {now : Memory} {oldAddress newAddress address : Nat}
    (migrated : MigratedRow hashName castBits old new oldLayout newLayout before after oldAddress
      newAddress)
    (table : computeRowOffsetTable hashName new = .ok newLayout.rowOffsetTable)
    (sized : rowSize hashName new = .ok newLayout.rowSize)
    (row : now.read address newLayout.rowSize = after.read newAddress newLayout.rowSize) :
    MigratedRow hashName castBits old new oldLayout newLayout before now oldAddress address := by
  have inside : ∀ field ∈ new.fields, ∀ offset,
      rowByteOffset hashName newLayout.rowOffsetTable field.name = some offset →
      offset + field.byteCount ≤ newLayout.rowSize := by
    intro field member offset placed
    obtain ⟨place, stored⟩ := placed_of_mem member
    rw [rowByteOffset_placed table stored, Option.some.injEq] at placed
    subst placed
    exact placed_inside table sized stored
  constructor
  · intro oldField oldMember
    obtain ⟨field, member, name, shape, oldOffset, offset, oldPlaced, placed, widened⟩ :=
      migrated.kept oldField oldMember
    refine ⟨field, member, name, shape, oldOffset, offset, oldPlaced, placed, ?_⟩
    intro element bound
    have room := inside field member offset placed
    have last : (element + 1) * field.dtype.byteSize ≤ field.byteCount :=
      Nat.mul_le_mul_right _ bound
    rw [Nat.add_mul, Nat.one_mul] at last
    have part := read_part row (show offset + element * field.dtype.byteSize + field.dtype.byteSize ≤
      newLayout.rowSize by omega)
    rw [← Nat.add_assoc, ← Nat.add_assoc] at part
    rw [part]
    exact widened element bound
  · intro field member absent
    obtain ⟨offset, placed, zero⟩ := migrated.added field member absent
    exact ⟨offset, placed, (read_part row (inside field member offset placed)).trans zero⟩

end Copies

end Quorin
