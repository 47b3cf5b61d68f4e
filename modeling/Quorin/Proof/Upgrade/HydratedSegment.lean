import Quorin.Proof.Offline.AppliedStream
import Quorin.Proof.Serving.WireRoundTrip
import Quorin.Proof.Upgrade.HydrationVisibility

namespace Quorin

open ByteMemory FaultyCalls

section Loads

variable {hashName : String → UInt64} {hashId : List UInt8 → UInt64}
  {schema : FeatureSchema} {layout : SegmentLayout} {ids : List String}
  {elements : FeatureField → Nat → List (List UInt8)} {memory : Memory} {values : List UInt8}

/-- A loaded memory maps every id to the cells of its row, and no other id to anything. -/
theorem Loaded.fieldMap {capacity maxIdBytes : Int}
    (computed : computeLayout hashName schema capacity maxIdBytes = .ok layout)
    (declared : DeclaredCells schema ids.length elements)
    (consistent : Consistent hashId layout memory) {cursor : Nat}
    (loaded : Loaded hashId layout (declaredColumns hashId schema elements values ids) ids memory
      ids.length cursor) (header : FeatureSchema) :
    (∀ row (inside : row < ids.length),
      Segment.fieldMap hashId schema ⟨header, layout, memory⟩ ids[row] =
        some (schema.fields.map fun field => (elements field row).flatten)) ∧
    ∀ entityId, entityId ∉ ids →
      Segment.fieldMap hashId schema ⟨header, layout, memory⟩ entityId = none := by
  have sound := computeLayout_sound computed
  obtain ⟨table, sized, _⟩ := computeLayout_parts computed
  constructor
  · intro row inside
    obtain ⟨index, place, stored, rowOf⟩ := loaded.stored row inside
    rw [getD_eq_getElem inside] at stored
    have found := (lookup_located sound consistent).mpr ⟨index, place, stored, rfl⟩
    rw [rowOf] at found
    unfold Segment.fieldMap Segment.entityMap
    dsimp only
    rw [found]
    dsimp only
    rw [Option.map_some, ← placed_fields schema, List.map_map]
    refine congrArg some (List.map_congr_left ?_)
    intro entry member
    obtain ⟨field, bound, rfl⟩ := List.mem_iff_getElem.mp member
    have columns : field < (declaredColumns hashId schema elements values
        ids).fieldByteOffsetsInRow.length := by
      simpa [declaredColumns] using bound
    have known : schema.placed[field].1 ∈ schema.fields := by
      rw [← placed_fields schema]
      exact List.mem_map_of_mem member
    have cell := loaded.cells row inside field columns
    rw [declared.cellWrite_eq hashId values layout inside bound] at cell
    dsimp only at cell
    rw [declared.cell_length known inside] at cell
    rw [slice_read memory _ (placed_inside table sized member), cell, Function.comp_apply]
  · intro entityId absent
    unfold Segment.fieldMap Segment.entityMap
    dsimp only
    cases result : (lookup hashId layout entityId).result memory with
    | error error => rfl
    | ok found =>
        cases found with
        | none => rfl
        | some address =>
            obtain ⟨index, place, stored, _⟩ := (lookup_located sound consistent).mp result
            obtain ⟨row, bound, same⟩ := loaded.only index place _ stored
            rw [getD_eq_getElem bound] at same
            exact absurd (encodeUtf8_injective same ▸ List.getElem_mem bound) absent

/-- A bulk insert of a declared table into a fresh segment loads the cells of every row. -/
theorem DeclaredTable.insertMany_fieldMap {table : ArrowTable}
    (declared : DeclaredTable schema table ids elements) (distinct : ids.Nodup)
    (named : ∀ entityId ∈ ids, entityId ≠ "") {capacity maxIdBytes : Int}
    (computed : computeLayout hashName schema capacity maxIdBytes = .ok layout)
    (short : ∀ entityId ∈ ids, (encodeUtf8 entityId).length ≤ layout.maxIdBytes)
    (room : table.length ≤ layout.capacity) (hashId : List UInt8 → UInt64)
    (castBits : DType → DType → Nat → Nat) {header : List UInt8}
    (headerLength : header.length = headerSize) (className : FeatureSchema) :
    ∃ after, (insertMany hashId castBits schema layout table).run (freshSegment layout header) =
        (.ok table.length, after) ∧
      (∀ row (inside : row < ids.length),
        Segment.fieldMap hashId schema ⟨className, layout, after⟩ ids[row] =
          some (schema.fields.map fun field => (elements field row).flatten)) ∧
      ∀ entityId, entityId ∉ ids →
        Segment.fieldMap hashId schema ⟨className, layout, after⟩ entityId = none := by
  obtain ⟨rowTable, rowBytes, assembly, _⟩ := computeLayout_parts computed
  obtain ⟨array, entityId, holds⟩ := declared.entityId
  have prepared : ColumnsSound hashId layout (declaredColumns hashId schema elements array.values ids)
      ids := declaredColumns_sound hashId rowTable rowBytes holds distinct named short
  have buffers := declared.prepareInsertColumns_eq hashName hashId castBits assembly entityId holds
  obtain ⟨after, run, rowsRead, loaded⟩ := insertMany_run (computeLayout_sound computed) prepared
    declared.size buffers (declared.size ▸ room) headerLength
  have consistent : Consistent hashId layout after := by
    unfold Consistent
    rw [rowsRead]
    exact loaded.invariant
  refine ⟨after, ?_, loaded.fieldMap computed declared.toDeclaredCells consistent className⟩
  rw [run, declared.size]

end Loads

section Runs

variable {externals : Externals} {call : HydrateCall}

/-- The steps of a `hydrate` in which no call raises. -/
def quietSteps (count : Nat) : List HydrationAction := List.replicate count (.advance .returned)

theorem performAll_quiet_succ (system : Hydration) (count : Nat) :
    system.performAll externals call (quietSteps (count + 1)) =
      (system.advance externals call .returned).performAll externals call (quietSteps count) := rfl

/-- A hydration that has finished stays as it is. -/
theorem Hydration.performAll_finished {system : Hydration} {rows : Nat}
    (finished : system.phase = .finished rows) (count : Nat) :
    system.performAll externals call (quietSteps count) = system := by
  induction count with
  | zero => rfl
  | succ count ih =>
      have still : system.advance externals call .returned = system := by
        unfold Hydration.advance
        rw [finished]
      rw [performAll_quiet_succ, still, ih]

/-- The loading phase runs the bulk insert to its end. -/
theorem Hydration.performAll_loading {program : Program InsertManyError Nat} {system : Hydration}
    {segment : Segment} (loading : system.phase = .loading program)
    (stored : system.host.objects call.name = some segment) {rows : Nat} {after : Memory}
    (run : program.run segment.memory = (.ok rows, after)) :
    ∃ count, (system.performAll externals call (quietSteps count)).phase = .finished rows ∧
      (system.performAll externals call (quietSteps count)).host.objects call.name =
        some { segment with memory := after } := by
  induction program generalizing system segment with
  | done value =>
      obtain ⟨same, rfl⟩ := Prod.mk.inj run
      obtain rfl := Except.ok.inj same
      refine ⟨1, ?_⟩
      rw [performAll_quiet_succ]
      unfold Hydration.advance
      rw [loading]
      exact ⟨rfl, stored⟩
  | fail error =>
      cases (Prod.mk.inj run).1
  | read address count next ih =>
      have stepped : system.advance externals call .returned =
          { system with phase := .loading (next (segment.memory.read address count)) } := by
        unfold Hydration.advance
        rw [loading]
        dsimp only
        rw [stored]
        rfl
      obtain ⟨steps, done⟩ := @ih (segment.memory.read address count)
        { system with phase := .loading (next (segment.memory.read address count)) } segment
        rfl stored run
      refine ⟨steps + 1, ?_⟩
      rw [performAll_quiet_succ, stepped]
      exact done
  | write address bytes next ih =>
      have stepped : system.advance externals call .returned =
          { system with
            host := system.host.withMemory call.name fun memory => memory.write address bytes
            phase := .loading next } := by
        unfold Hydration.advance
        rw [loading]
        rfl
      have written : (system.host.withMemory call.name fun memory =>
          memory.write address bytes).objects call.name =
            some { segment with memory := segment.memory.write address bytes } := by
        rw [Host.withMemory, stored]
        exact Function.update_self _ _ _
      obtain ⟨steps, done⟩ := @ih
        { system with
          host := system.host.withMemory call.name fun memory => memory.write address bytes
          phase := .loading next }
        { segment with memory := segment.memory.write address bytes } rfl written run
      refine ⟨steps + 1, ?_⟩
      rw [performAll_quiet_succ, stepped]
      exact done

/-- What a `hydrate` without an error meets: nothing is current, no consumer lives, the snapshot has
rows, and the segment can be created. -/
structure HydrateReady (externals : Externals) (call : HydrateCall) (host : Host) (table : ArrowTable)
    (layout : SegmentLayout) : Prop where
  factor : call.factorValid = true
  vacant : host.keys.current call.schema.safeName = none
  alone : host.liveness = false
  listed : call.latest = some table
  rows : table.length ≠ 0
  computed : computeLayout externals.hashName call.schema (hydrateCreate call table).capacity
    (hydrateCreate call table).maxIdBytes = .ok layout
  space : call.space = true
  unlinked : call.name ∉ host.linked
  header : packHeader externals call.schema layout.capacity ≠ none

/-- Six steps lead to the bulk insert into a fresh segment. -/
theorem HydrateReady.opened {host : Host} {table : ArrowTable} {layout : SegmentLayout}
    (ready : HydrateReady externals call host table layout) :
    ∃ header, header.length = headerSize ∧
      ((Hydration.initial externals host []).performAll externals call (quietSteps 6)).phase =
        .loading (insertMany externals.hashId externals.castBits call.schema layout table) ∧
      ((Hydration.initial externals host []).performAll externals call
        (quietSteps 6)).host.objects call.name =
          some ⟨call.schema, layout, freshSegment layout header⟩ := by
  obtain ⟨header, packed⟩ := Option.ne_none_iff_exists'.mp ready.header
  have listed : (Hydration.initial externals host []).performAll externals call (quietSteps 3) =
      ⟨host, .listed table, some table, []⟩ := by
    have started : Hydration.advance externals call (.initial externals host []) .returned =
        ⟨host, .currentChecked, none, []⟩ := by
      simp [Hydration.advance, Hydration.initial, ready.factor, ready.vacant]
    have checked : Hydration.advance externals call ⟨host, .currentChecked, none, []⟩ .returned =
        ⟨host, .listing, none, []⟩ := by
      simp [Hydration.advance, ready.alone]
    have listing : Hydration.advance externals call ⟨host, .listing, none, []⟩ .returned =
        ⟨host, .listed table, some table, []⟩ := by
      simp [Hydration.advance, ready.listed, ready.rows]
    rw [performAll_quiet_succ, started, performAll_quiet_succ, checked, performAll_quiet_succ, listing]
    rfl
  have linked : Hydration.advance externals call ⟨host, .listed table, some table, []⟩ .returned =
      ⟨host.link call.name call.schema layout, .linked table layout, some table, []⟩ := by
    unfold Hydration.advance
    dsimp only
    rw [ready.computed]
    dsimp only
    rw [if_neg (by rw [ready.space]; exact Bool.noConfusion), if_neg ready.unlinked]
  have publishing : Hydration.advance externals call
      ⟨host.link call.name call.schema layout, .linked table layout, some table, []⟩ .returned =
      ⟨(host.link call.name call.schema layout).withMemory call.name fun _ => freshSegment layout header,
        .publishing table layout, some table, []⟩ := by
    unfold Hydration.advance
    dsimp only
    rw [packed]
  have steps : quietSteps 6 = quietSteps 3 ++ quietSteps 3 := rfl
  refine ⟨header, packHeader_length packed, ?_, ?_⟩
  · rw [steps, Hydration.performAll_append, listed, performAll_quiet_succ, linked,
      performAll_quiet_succ, publishing]
    rfl
  · rw [steps, Hydration.performAll_append, listed, performAll_quiet_succ, linked,
      performAll_quiet_succ, publishing]
    have object : (host.link call.name call.schema layout).objects call.name =
        some ⟨call.schema, layout, Memory.zero⟩ := by
      rw [Host.link, if_neg ready.unlinked]
      exact Function.update_self _ _ _
    change Function.update _ _ _ call.name = _
    rw [Function.update_self, object]
    rfl

/-- A `hydrate` without an error ends with the cells of its table under the ids of their rows. -/
theorem HydrateReady.finishes {host : Host} {table : ArrowTable} {layout : SegmentLayout}
    (ready : HydrateReady externals call host table layout) {ids : List String}
    {elements : FeatureField → Nat → List (List UInt8)}
    (declared : DeclaredTable call.schema table ids elements) (distinct : ids.Nodup)
    (named : ∀ entityId ∈ ids, entityId ≠ "")
    (short : ∀ entityId ∈ ids, (encodeUtf8 entityId).length ≤ defaultMaxIdBytes)
    (grows : (table.length : Int) ≤ call.scaled table.length) :
    ∃ finished segment, (∀ count, finished ≤ count →
        let final := (Hydration.initial externals host []).performAll externals call (quietSteps count)
        final.phase = .finished table.length ∧ final.host.objects call.name = some segment) ∧
      (∀ row (inside : row < ids.length),
        segment.fieldMap externals.hashId call.schema ids[row] =
          some (call.schema.fields.map fun field => (elements field row).flatten)) ∧
      ∀ entityId, entityId ∉ ids → segment.fieldMap externals.hashId call.schema entityId = none := by
  obtain ⟨header, headerLength, loading, object⟩ := ready.opened
  obtain ⟨_, _, _, _, capacity, idBytes⟩ := computeLayout_parts ready.computed
  have room : table.length ≤ layout.capacity := by
    have bound : call.scaled table.length ≤ (hydrateCreate call table).capacity := le_max_left _ _
    omega
  have idRoom : layout.maxIdBytes = defaultMaxIdBytes := Int.ofNat_inj.mp idBytes
  obtain ⟨after, run, rows, others⟩ := declared.insertMany_fieldMap distinct named ready.computed
    (idRoom ▸ short) room externals.hashId externals.castBits headerLength call.schema
  obtain ⟨count, phase, stored⟩ := Hydration.performAll_loading loading object run
  refine ⟨6 + count, _, ?_, rows, others⟩
  intro steps enough
  obtain ⟨more, rfl⟩ := Nat.exists_eq_add_of_le enough
  have split : quietSteps (6 + count + more) =
      quietSteps 6 ++ (quietSteps count ++ quietSteps more) := by
    simp only [quietSteps, List.replicate_append_replicate, Nat.add_assoc]
  intro final
  have still : final = ((Hydration.initial externals host []).performAll externals call
      (quietSteps 6)).performAll externals call (quietSteps count) := by
    change Hydration.performAll externals call _ _ = _
    rw [split, Hydration.performAll_append, Hydration.performAll_append,
      Hydration.performAll_finished phase]
  rw [still]
  exact ⟨phase, stored⟩

end Runs

end Quorin
