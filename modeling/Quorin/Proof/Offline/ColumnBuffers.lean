import Quorin.Construction.ColumnBuffers
import Quorin.Proof.Offline.AcceptedRows
import Quorin.Proof.Consumer.Applicable

namespace Quorin

section Heap

variable {heap : ListHeap}

/-- An append to another list object changes nothing. -/
theorem push_other {entry : Nat × WireValue} {ref : Nat} (different : ref ≠ entry.1) :
    (heap.push entry).contents ref = heap.contents ref :=
  Function.update_of_ne different _ _

theorem push_self (entry : Nat × WireValue) :
    (heap.push entry).contents entry.1 = heap.contents entry.1 ++ [entry.2] :=
  Function.update_self _ _ _

theorem pushes_next (entries : List (Nat × WireValue)) :
    (entries.foldl ListHeap.push heap).next = heap.next := by
  induction entries generalizing heap with
  | nil => rfl
  | cons entry rest ih => exact ih

/-- Appends to other list objects change nothing. -/
theorem pushes_other {entries : List (Nat × WireValue)} {ref : Nat}
    (absent : ref ∉ entries.map Prod.fst) :
    (entries.foldl ListHeap.push heap).contents ref = heap.contents ref := by
  induction entries generalizing heap with
  | nil => rfl
  | cons entry rest ih =>
      rw [List.map_cons, List.mem_cons, not_or] at absent
      rw [List.foldl_cons, ih absent.2, push_other absent.1]

/-- A list object that is appended to once grows by its value. -/
theorem pushes_self {entries : List (Nat × WireValue)} (once : (entries.map Prod.fst).Nodup)
    {entry : Nat × WireValue} (member : entry ∈ entries) :
    (entries.foldl ListHeap.push heap).contents entry.1 = heap.contents entry.1 ++ [entry.2] := by
  induction entries generalizing heap with
  | nil => cases member
  | cons first rest ih =>
      rw [List.map_cons, List.nodup_cons] at once
      rw [List.foldl_cons]
      rcases List.mem_cons.mp member with rfl | later
      · rw [pushes_other once.1, push_self]
      · rw [ih once.2 later, push_other]
        intro same
        exact once.1 (same ▸ List.mem_map_of_mem later)

end Heap

section Columns

/-- Distinct names get consecutive list objects. -/
theorem allocColumns_spec {names : List String} (distinct : names.Nodup) (heap : ListHeap)
    {columns : List (String × Nat)} (fresh : ∀ name ∈ names, name ∉ columns.map Prod.fst) :
    (allocColumns names heap columns).1 = columns ++ names.zipIdx heap.next ∧
      (allocColumns names heap columns).2.next = heap.next + names.length ∧
      (∀ ref, heap.next ≤ ref → ref < heap.next + names.length →
        (allocColumns names heap columns).2.contents ref = []) ∧
      ∀ ref < heap.next, (allocColumns names heap columns).2.contents ref = heap.contents ref := by
  induction names generalizing heap columns with
  | nil =>
      refine ⟨(List.append_nil columns).symm, rfl, ?_, fun _ _ => rfl⟩
      intro ref lower upper
      simp at upper
      omega
  | cons name rest ih =>
      rw [List.nodup_cons] at distinct
      have absent := fresh name List.mem_cons_self
      have added : setColumn columns name heap.next = columns ++ [(name, heap.next)] :=
        if_neg absent
      have later : ∀ other ∈ rest, other ∉ (columns ++ [(name, heap.next)]).map Prod.fst := by
        intro other member
        rw [List.map_append, List.mem_append, not_or]
        refine ⟨fresh other (List.mem_cons_of_mem _ member), ?_⟩
        intro same
        obtain rfl : other = name := by simpa using same
        exact distinct.1 member
      obtain ⟨listed, next, empty, kept⟩ := ih distinct.2 heap.alloc later
      have alloc : heap.alloc.next = heap.next + 1 := rfl
      unfold allocColumns
      rw [added]
      refine ⟨?_, ?_, ?_, ?_⟩
      · rw [listed, List.append_assoc, alloc, List.zipIdx_cons]
        rfl
      · rw [next, alloc, List.length_cons]
        omega
      · intro ref lower upper
        rw [List.length_cons] at upper
        by_cases here : ref = heap.next
        · rw [kept ref (by omega), here]
          exact Function.update_self _ _ _
        · exact empty ref (by omega) (by omega)
      · intro ref inside
        rw [kept ref (by omega)]
        exact Function.update_of_ne (by omega) _ _

/-- A name is found at its position. -/
theorem lookup_zipIdx {names : List String} (distinct : names.Nodup) {start index : Nat}
    {name : String} (place : names[index]? = some name) :
    (names.zipIdx start).lookup name = some (start + index) := by
  induction names generalizing start index with
  | nil => cases place
  | cons first rest ih =>
      rw [List.nodup_cons] at distinct
      rw [List.zipIdx_cons]
      cases index with
      | zero =>
          obtain rfl := Option.some.inj place
          simp
      | succ index =>
          have later : rest[index]? = some name := place
          have different : ¬ name = first := by
            rintro rfl
            exact distinct.1 (List.mem_of_getElem? later)
          rw [List.lookup_cons, beq_eq_false_iff_ne.mpr different, ih distinct.2 later,
            Nat.add_assoc, Nat.add_comm 1 index]

theorem mapM_option_map {α β : Type} {f : α → Option β} {g : α → β} {xs : List α}
    (each : ∀ x ∈ xs, f x = some (g x)) : xs.mapM f = some (xs.map g) := by
  induction xs with
  | nil => rfl
  | cons x rest ih =>
      rw [List.mapM_cons, each x List.mem_cons_self,
        ih fun other member => each other (List.mem_cons_of_mem _ member)]
      rfl

end Columns

/-- The names of the columns in declaration order. -/
def bucketColumns (schema : FeatureSchema) (includeMsgId : Bool) : List String :=
  "entity_id" :: "event_time_ns" ::
    (schema.fields.map FeatureField.name ++ (msgIdColumns includeMsgId).map Prod.fst)

/-- The place of a field among the columns. -/
def declIndex (schema : FeatureSchema) (field : FeatureField) : Nat :=
  ((nameToDecl schema).lookup field.name).getD 0

/-- The bucket whose list objects were made one after another from an identity on. -/
def columnBucketAt (hashName : String → UInt64) (schema : FeatureSchema) (includeMsgId : Bool)
    (base : Nat) : ColumnBucket where
  columns := (bucketColumns schema includeMsgId).zipIdx base
  wireLists := (wireOrder hashName schema).map fun field => base + declIndex schema field
  entityIdCol := base
  eventTimeNsCol := base + 1
  msgIdCols :=
    if includeMsgId then
      some (base + (declOffset + schema.fields.length), base + (declOffset + schema.fields.length + 1))
    else none

section Plan

variable {hashName : String → UInt64} {schema : FeatureSchema} {includeMsgId : Bool}

theorem declIndex_getElem {index : Nat} (inside : index < schema.fields.length) :
    declIndex schema schema.fields[index] = declOffset + index := by
  have place : (schema.fields.map FeatureField.name)[index]? = some schema.fields[index].name := by
    rw [List.getElem?_map, List.getElem?_eq_getElem inside, Option.map_some]
  rw [declIndex, nameToDecl, lookup_zipIdx schema.namesDistinct place, Option.getD_some]

/-- The places of the fields in declaration order. -/
theorem declIndex_fields :
    schema.fields.map (declIndex schema) = List.range' declOffset schema.fields.length := by
  apply List.ext_getElem
  · simp
  · intro index inside _
    rw [List.length_map] at inside
    rw [List.getElem_map, declIndex_getElem inside, List.getElem_range', Nat.one_mul]

theorem declIndex_wire : ((wireOrder hashName schema).map (declIndex schema)).Perm
    (List.range' declOffset schema.fields.length) := by
  rw [← declIndex_fields]
  exact wireOrder_perm.map _

/-- What a column plan says, and the Arrow plan that it comes with. -/
structure PlannedColumns (hashName : String → UInt64) (schema : FeatureSchema) (includeMsgId : Bool)
    (plan : ColumnPlan) (types : List ArrowType) : Prop where
  unreserved : schema.Unreserved
  declared : schema.fields.mapM arrowTypeFor = .ok types
  arrowSchema : plan.arrowSchema = ("entity_id", .text) :: ("event_time_ns", .arrow (.leaf .int64)) ::
    ((schema.fields.map FeatureField.name).zip (types.map ColumnType.arrow) ++
      msgIdColumns includeMsgId)
  wireToDecl : plan.wireToDecl = (wireOrder hashName schema).map (declIndex schema)

theorem columnPlanFor_planned {plan : ColumnPlan}
    (planned : columnPlanFor hashName schema includeMsgId = .ok plan) :
    ∃ types, PlannedColumns hashName schema includeMsgId plan types := by
  unfold columnPlanFor at planned
  dsimp only at planned
  split at planned
  · cases planned
  · rename_i unreserved
    cases declared : schema.fields.mapM arrowTypeFor with
    | error error => simp [declared, bind, Except.bind] at planned
    | ok types =>
        simp only [declared, bind, Except.bind, pure, Except.pure, Except.ok.injEq] at planned
        refine ⟨types, reserved_filter.mp (not_not.mp unreserved), declared, ?_, ?_⟩
        · rw [← planned]
        · rw [← planned]
          rfl

/-- The plan of the columns is built or refused as the Arrow plan is. -/
theorem columnPlanFor_cases (hashName : String → UInt64) (schema : FeatureSchema)
    (includeMsgId : Bool) :
    (∃ error, columnPlanFor hashName schema includeMsgId = .error error ∧
        arrowPlanFor hashName schema = .error error) ∨
      ∃ plan arrow, columnPlanFor hashName schema includeMsgId = .ok plan ∧
        arrowPlanFor hashName schema = .ok arrow := by
  unfold columnPlanFor arrowPlanFor
  dsimp only
  split
  · exact Or.inl ⟨_, rfl, rfl⟩
  · cases declared : schema.fields.mapM arrowTypeFor with
    | error error => exact Or.inl ⟨error, rfl, rfl⟩
    | ok types =>
        have each := mapM_except_forall declared
        have typed : ∀ field ∈ wireOrder hashName schema, ∃ type, arrowTypeFor field = .ok type := by
          intro field member
          obtain ⟨index, inside, rfl⟩ := List.mem_iff_getElem.mp (mem_wireOrder.mp member)
          exact ⟨_, each.get inside (each.length_eq ▸ inside)⟩
        obtain ⟨wired, wireTypes⟩ := mapM_except_exists typed
        refine Or.inr ⟨_, ⟨wired⟩, rfl, ?_⟩
        simp only [wireTypes, bind, Except.bind, pure, Except.pure]

end Plan

section Planned

variable {hashName : String → UInt64} {schema : FeatureSchema} {includeMsgId : Bool}
  {plan : ColumnPlan} {types : List ArrowType}
  (planned : PlannedColumns hashName schema includeMsgId plan types)

include planned in
theorem PlannedColumns.names : plan.columnNames = bucketColumns schema includeMsgId := by
  have count := (mapM_except_forall planned.declared).length_eq
  rw [ColumnPlan.columnNames, planned.arrowSchema, bucketColumns, List.map_cons, List.map_cons,
    List.map_append, List.map_fst_zip (by simp [count])]

include planned in
/-- The names of the columns are distinct. -/
theorem PlannedColumns.distinct : (bucketColumns schema includeMsgId).Nodup := by
  have apart : ∀ name ∈ reservedFieldNames, name ∉ schema.fields.map FeatureField.name := by
    intro name reserved member
    obtain ⟨field, inside, rfl⟩ := List.mem_map.mp member
    exact planned.unreserved field inside reserved
  have entityId := apart "entity_id" (by decide)
  have eventTime := apart "event_time_ns" (by decide)
  unfold bucketColumns msgIdColumns
  cases includeMsgId with
  | false => simp [schema.namesDistinct, entityId, eventTime]
  | true =>
      simp only [if_true, List.map_cons, List.map_nil]
      rw [List.nodup_cons, List.nodup_cons, List.nodup_append]
      refine ⟨by simp [entityId], by simp [eventTime], schema.namesDistinct, by decide, ?_⟩
      intro name member other reserved same
      rw [same] at member
      refine apart other ?_ member
      rcases List.mem_cons.mp reserved with rfl | last
      · decide
      · rw [List.mem_singleton.mp last]
        decide

theorem bucketColumns_field {field : FeatureField} (member : field ∈ schema.fields) :
    (bucketColumns schema includeMsgId)[declIndex schema field]? = some field.name := by
  obtain ⟨index, inside, rfl⟩ := List.mem_iff_getElem.mp member
  rw [declIndex_getElem inside, bucketColumns, declOffset, Nat.add_comm 2, List.getElem?_cons_succ,
    List.getElem?_cons_succ, List.getElem?_append_left (by simpa using inside), List.getElem?_map,
    List.getElem?_eq_getElem inside, Option.map_some]

theorem bucketColumns_ids (index : Nat) :
    (bucketColumns schema includeMsgId)[declOffset + schema.fields.length + index]? =
      ((msgIdColumns includeMsgId).map Prod.fst)[index]? := by
  have place : declOffset + schema.fields.length + index = schema.fields.length + index + 1 + 1 := by
    rw [declOffset]
    omega
  rw [place, bucketColumns, List.getElem?_cons_succ, List.getElem?_cons_succ,
    List.getElem?_append_right (by simp)]
  congr 1
  simp

include planned in
/-- A fresh bucket has its list objects behind those of the heap. -/
theorem PlannedColumns.made (heap : ListHeap) :
    makeColumns plan includeMsgId heap = some (columnBucketAt hashName schema includeMsgId heap.next,
      (allocColumns (bucketColumns schema includeMsgId) heap []).2) := by
  have distinct := planned.distinct
  have listed := (@allocColumns_spec (bucketColumns schema includeMsgId) distinct heap []
    (fun _ _ => List.not_mem_nil)).1
  rw [List.nil_append] at listed
  have found : ∀ {index : Nat} {name : String},
      (bucketColumns schema includeMsgId)[index]? = some name →
        (allocColumns (bucketColumns schema includeMsgId) heap []).1.lookup name =
          some (heap.next + index) := by
    intro index name place
    rw [listed]
    exact lookup_zipIdx distinct place
  have wired : (plan.wireToDecl.mapM fun index => (bucketColumns schema includeMsgId)[index]?.bind
      fun name => (allocColumns (bucketColumns schema includeMsgId) heap []).1.lookup name) =
      some ((wireOrder hashName schema).map fun field => heap.next + declIndex schema field) := by
    rw [planned.wireToDecl]
    refine (mapM_option_map (g := fun index => heap.next + index) ?_).trans ?_
    · intro index member
      obtain ⟨field, inside, rfl⟩ := List.mem_map.mp member
      have place := @bucketColumns_field schema includeMsgId field (mem_wireOrder.mp inside)
      rw [place, Option.bind_some, found place]
    · rw [List.map_map]
      rfl
  have entityId := @found 0 "entity_id" rfl
  have eventTime := @found 1 "event_time_ns" rfl
  unfold makeColumns
  rw [planned.names]
  cases pair : allocColumns (bucketColumns schema includeMsgId) heap [] with
  | mk columns after =>
      rw [pair] at listed found wired entityId eventTime
      dsimp only at listed found wired entityId eventTime
      subst listed
      simp only [Option.bind_eq_bind, wired, entityId, eventTime, Option.bind_some]
      cases includeMsgId with
      | false => rfl
      | true =>
          have ms := @found _ "msg_id_ms" (bucketColumns_ids 0)
          have seq := @found _ "msg_id_seq" (bucketColumns_ids 1)
          simp only [ms, seq, Option.bind_some, if_true]
          rfl

end Planned

/-- The list objects of a bucket, by their uses. -/
def ColumnBucket.refs (bucket : ColumnBucket) : List Nat :=
  bucket.entityIdCol :: bucket.eventTimeNsCol :: (bucket.wireLists ++
    match bucket.msgIdCols with
    | none => []
    | some columns => [columns.1, columns.2])

section Refs

variable {hashName : String → UInt64} {schema : FeatureSchema} {includeMsgId : Bool} {base : Nat}

/-- The uses of a fresh bucket name each of its list objects once. -/
theorem columnBucketAt_refs : (columnBucketAt hashName schema includeMsgId base).refs.Perm
    (List.range' base (bucketColumns schema includeMsgId).length) := by
  have wired : ((wireOrder hashName schema).map fun field => base + declIndex schema field).Perm
      (List.range' (base + 2) schema.fields.length) := by
    have places := (@declIndex_wire hashName schema).map fun index => base + index
    rw [List.map_map, List.map_add_range'] at places
    exact places
  have width : (bucketColumns schema includeMsgId).length =
      schema.fields.length + (msgIdColumns includeMsgId).length + 1 + 1 := by
    simp [bucketColumns]
  rw [width, List.range'_succ, List.range'_succ, ← List.range'_append_1]
  apply List.Perm.cons
  apply List.Perm.cons
  apply List.Perm.append wired
  apply List.Perm.of_eq
  cases includeMsgId with
  | false => rfl
  | true =>
      have first : base + (declOffset + schema.fields.length) =
          base + 1 + 1 + schema.fields.length := by
        rw [declOffset]
        omega
      simp [columnBucketAt, msgIdColumns, List.range'_succ, first, ← Nat.add_assoc]

theorem columnBucketAt_nodup : (columnBucketAt hashName schema includeMsgId base).refs.Nodup :=
  columnBucketAt_refs.nodup_iff.mpr (@List.nodup_range' _ _ 1 Nat.one_pos)

theorem mem_columnBucketAt {ref : Nat} :
    ref ∈ (columnBucketAt hashName schema includeMsgId base).refs ↔
      base ≤ ref ∧ ref < base + (bucketColumns schema includeMsgId).length := by
  rw [columnBucketAt_refs.mem_iff, List.mem_range'_1]

end Refs

/-- The list objects of a bucket hold the columns of the bucket of the writer. -/
structure Represents (hashName : String → UInt64) (schema : FeatureSchema) (includeMsgId : Bool)
    (heap : ListHeap) (columns : ColumnBucket) (bucket : Bucket) : Prop where
  placed : columns = columnBucketAt hashName schema includeMsgId columns.entityIdCol
  entityIds : heap.contents columns.entityIdCol = bucket.entityIdCol.map .text
  eventTimes : heap.contents columns.eventTimeNsCol = bucket.eventTimeNsCol.map .int
  wireLists : columns.wireLists.map heap.contents = bucket.wireLists
  msgIds : columns.msgIdCols.map (fun refs => (heap.contents refs.1, heap.contents refs.2)) =
    bucket.msgIdCols.map fun ids => (ids.1.map .int, ids.2.map .int)

section Represents

variable {hashName : String → UInt64} {schema : FeatureSchema} {includeMsgId : Bool}
  {heap : ListHeap} {columns : ColumnBucket} {bucket : Bucket}

/-- A bucket depends on its own list objects alone. -/
theorem Represents.frame (represents : Represents hashName schema includeMsgId heap columns bucket)
    {after : ListHeap} (same : ∀ ref ∈ columns.refs, after.contents ref = heap.contents ref) :
    Represents hashName schema includeMsgId after columns bucket where
  placed := represents.placed
  entityIds := by
    rw [same _ List.mem_cons_self]
    exact represents.entityIds
  eventTimes := by
    rw [same _ (List.mem_cons_of_mem _ List.mem_cons_self)]
    exact represents.eventTimes
  wireLists := by
    rw [← represents.wireLists]
    apply List.map_congr_left
    intro ref member
    exact same ref (List.mem_cons_of_mem _ (List.mem_cons_of_mem _ (List.mem_append_left _ member)))
  msgIds := by
    rw [← represents.msgIds]
    cases ids : columns.msgIdCols with
    | none => rfl
    | some refs =>
        have first := same refs.1 (by simp [ColumnBucket.refs, ids])
        have second := same refs.2 (by simp [ColumnBucket.refs, ids])
        simp [first, second]

/-- The appends of one row, in their order. -/
def ColumnBucket.cells (columns : ColumnBucket) (entityId : String) (eventTimeNs : Int)
    (values : List WireValue) (msgId : Int × Int) : List (Nat × WireValue) :=
  (columns.entityIdCol, .text entityId) :: (columns.eventTimeNsCol, .int eventTimeNs) ::
    (columns.wireLists.zip values ++ columns.idCells msgId)

theorem pushRow_cells (entityId : String) (eventTimeNs : Int) (values : List WireValue)
    (msgId : Int × Int) :
    columns.pushRow heap entityId eventTimeNs values msgId =
      (columns.cells entityId eventTimeNs values msgId).foldl ListHeap.push heap := by
  rw [ColumnBucket.cells, List.foldl_cons, List.foldl_cons, List.foldl_append]
  rfl

theorem cells_refs {values : List WireValue} (count : values.length = columns.wireLists.length)
    (entityId : String) (eventTimeNs : Int) (msgId : Int × Int) :
    (columns.cells entityId eventTimeNs values msgId).map Prod.fst = columns.refs := by
  rw [ColumnBucket.cells, List.map_cons, List.map_cons, List.map_append,
    List.map_fst_zip (Nat.le_of_eq count.symm), ColumnBucket.refs, ColumnBucket.idCells]
  cases columns.msgIdCols <;> rfl

/-- The appends of one row push the row. -/
theorem Represents.push (represents : Represents hashName schema includeMsgId heap columns bucket)
    {values : List WireValue} (count : values.length = columns.wireLists.length)
    (entityId : String) (eventTimeNs : Int) (msgId : Int × Int) :
    Represents hashName schema includeMsgId
      (columns.pushRow heap entityId eventTimeNs values msgId) columns
      (bucket.push entityId eventTimeNs values msgId) := by
  have once : ((columns.cells entityId eventTimeNs values msgId).map Prod.fst).Nodup := by
    rw [cells_refs count, represents.placed]
    exact columnBucketAt_nodup
  rw [pushRow_cells]
  have pushed : ∀ entry ∈ columns.cells entityId eventTimeNs values msgId,
      ((columns.cells entityId eventTimeNs values msgId).foldl ListHeap.push heap).contents entry.1 =
        heap.contents entry.1 ++ [entry.2] := fun entry member => pushes_self once member
  generalize (columns.cells entityId eventTimeNs values msgId).foldl ListHeap.push heap = after at pushed
  unfold ColumnBucket.cells at pushed
  constructor
  · exact represents.placed
  · have grown := pushed _ List.mem_cons_self
    rw [grown, represents.entityIds]
    simp [Bucket.push]
  · have grown := pushed _ (List.mem_cons_of_mem _ List.mem_cons_self)
    rw [grown, represents.eventTimes]
    simp [Bucket.push]
  · have grown : ∀ entry ∈ columns.wireLists.zip values,
        after.contents entry.1 = heap.contents entry.1 ++ [entry.2] := fun entry member =>
      pushed entry (List.mem_cons_of_mem _ (List.mem_cons_of_mem _ (List.mem_append_left _ member)))
    conv_lhs => rw [← List.map_fst_zip (Nat.le_of_eq count.symm), List.map_map]
    change _ = (bucket.wireLists.zip values).map fun entry => entry.1 ++ [entry.2]
    rw [← represents.wireLists, List.zip_map_left, List.map_map]
    apply List.map_congr_left
    exact grown
  · have stored := represents.msgIds
    cases ids : columns.msgIdCols with
    | none =>
        rw [ids] at stored
        cases held : bucket.msgIdCols with
        | none => simp [Bucket.push, held]
        | some pair => simp [held] at stored
    | some refs =>
        rw [ids] at stored
        have cells : columns.idCells msgId = [(refs.1, .int msgId.1), (refs.2, .int msgId.2)] := by
          simp [ColumnBucket.idCells, ids]
        have first := pushed (refs.1, .int msgId.1) (by simp [cells])
        have second := pushed (refs.2, .int msgId.2) (by simp [cells])
        cases held : bucket.msgIdCols with
        | none => simp [held] at stored
        | some pair =>
            simp only [held, Option.map_some, Option.some.injEq, Prod.mk.injEq] at stored
            simp [Bucket.push, held, first, second, stored.1, stored.2]

/-- A fresh bucket holds no row. -/
theorem Represents.fresh (distinct : (bucketColumns schema includeMsgId).Nodup) (heap : ListHeap)
    {plan : ArrowPlan} (planned : arrowPlanFor hashName schema = .ok plan) :
    Represents hashName schema includeMsgId
      (allocColumns (bucketColumns schema includeMsgId) heap []).2
      (columnBucketAt hashName schema includeMsgId heap.next) (makeBucket plan includeMsgId) := by
  obtain ⟨_, _, empty, _⟩ := @allocColumns_spec (bucketColumns schema includeMsgId) distinct heap []
    (fun _ _ => List.not_mem_nil)
  generalize (allocColumns (bucketColumns schema includeMsgId) heap []).2 = after at empty
  have clear : ∀ ref ∈ (columnBucketAt hashName schema includeMsgId heap.next).refs,
      after.contents ref = [] := by
    intro ref member
    obtain ⟨lower, upper⟩ := mem_columnBucketAt.mp member
    exact empty ref lower upper
  constructor
  · rfl
  · exact clear _ List.mem_cons_self
  · exact clear _ (List.mem_cons_of_mem _ List.mem_cons_self)
  · have width := (mapM_except_forall (arrowPlanFor_wireTypes planned)).length_eq
    have wired : ∀ ref ∈ (columnBucketAt hashName schema includeMsgId heap.next).wireLists,
        after.contents ref = [] := fun ref member =>
      clear ref (List.mem_cons_of_mem _ (List.mem_cons_of_mem _ (List.mem_append_left _ member)))
    change _ = plan.wireTypes.map fun _ => []
    rw [List.map_congr_left wired, List.map_const', List.map_const', ← width, columnBucketAt,
      List.length_map]
  · cases includeMsgId with
    | false => rfl
    | true =>
        have first := clear (heap.next + (declOffset + schema.fields.length))
          (by simp [ColumnBucket.refs, columnBucketAt])
        have second := clear (heap.next + (declOffset + schema.fields.length + 1))
          (by simp [ColumnBucket.refs, columnBucketAt])
        simp only [columnBucketAt, if_true, Option.map_some, first, second, makeBucket]
        rfl

end Represents

end Quorin
