import Quorin.Proof.Offline.ColumnBuffers

namespace Quorin

/-- The cells of one row by the names of their columns. -/
abbrev Record := List (String × WireValue)

/-- The value of a field among values in wire order. -/
def wireCell {α : Type} (hashName : String → UInt64) (schema : FeatureSchema) (values : List α)
    (default : α) (field : FeatureField) : α :=
  ((((wireOrder hashName schema).map FeatureField.name).zip values).lookup field.name).getD default

/-- The row with every value under the name of its own field. -/
def StoredRow.record (hashName : String → UInt64) (schema : FeatureSchema) (row : StoredRow) : Record :=
  ("entity_id", .text row.entityId) :: ("event_time_ns", .int row.eventTimeNs) ::
    ((schema.fields.map fun field =>
        (field.name, wireCell hashName schema row.values .nil field)) ++
      match row.msgId with
      | none => []
      | some ids => [("msg_id_ms", .int ids.1), ("msg_id_seq", .int ids.2)])

/-- The columns of a bucket by their names. -/
def Bucket.table (hashName : String → UInt64) (schema : FeatureSchema) (bucket : Bucket) :
    List (String × List WireValue) :=
  ("entity_id", bucket.entityIdCol.map .text) :: ("event_time_ns", bucket.eventTimeNsCol.map .int) ::
    ((schema.fields.map fun field =>
        (field.name, wireCell hashName schema bucket.wireLists [] field)) ++
      match bucket.msgIdCols with
      | none => []
      | some ids => [("msg_id_ms", ids.1.map .int), ("msg_id_seq", ids.2.map .int)])

/-- The row of a table at one position. -/
def tableRow (table : List (String × List WireValue)) (index : Nat) : Record :=
  table.map fun column => (column.1, column.2.getD index .nil)

/-- The rows of a table; the first column gives their number. -/
def tableRows (table : List (String × List WireValue)) : List Record :=
  (List.range ((table.head?.map fun column => column.2.length).getD 0)).map (tableRow table)

/-- The columns that a bucket shows at some time. -/
def ColumnBucket.table (heap : ListHeap) (columns : ColumnBucket) : List (String × List WireValue) :=
  columns.columns.map fun entry => (entry.1, heap.contents entry.2)

section Cells

variable {hashName : String → UInt64} {schema : FeatureSchema}

/-- The value of a field stands at the position of the field in wire order. -/
theorem wireCell_getElem {α : Type} {values : List α} {default : α} {index : Nat}
    (inside : index < (wireOrder hashName schema).length) (there : index < values.length) :
    wireCell hashName schema values default (wireOrder hashName schema)[index] = values[index] := by
  have distinct : ((wireOrder hashName schema).map FeatureField.name).Nodup :=
    (wireOrder_perm.map FeatureField.name).nodup_iff.mpr schema.namesDistinct
  unfold wireCell
  generalize wireOrder hashName schema = order at distinct inside ⊢
  induction order generalizing values index with
  | nil => simp at inside
  | cons field rest ih =>
      cases values with
      | nil => simp at there
      | cons value others =>
          rw [List.map_cons, List.nodup_cons] at distinct
          cases index with
          | zero => simp
          | succ index =>
              have later : index < rest.length := by simpa using inside
              have behind : index < others.length := by simpa using there
              have different : ¬ rest[index].name = field.name := by
                intro same
                exact distinct.1 (same ▸ List.mem_map_of_mem (List.getElem_mem later))
              have found := ih behind distinct.2 later
              simpa [List.lookup_cons, beq_eq_false_iff_ne.mpr different] using found

theorem wireCell_map {α β : Type} (f : α → β) (values : List α) (default : α) (field : FeatureField) :
    wireCell hashName schema (values.map f) (f default) field =
      f (wireCell hashName schema values default field) := by
  unfold wireCell
  generalize (wireOrder hashName schema).map FeatureField.name = names
  induction names generalizing values with
  | nil => rfl
  | cons name rest ih =>
      cases values with
      | nil => rfl
      | cons value others =>
          simp only [List.map_cons, List.zip_cons_cons, List.lookup_cons]
          cases field.name == name with
          | true => rfl
          | false => exact ih others

/-- The rows of the table of a bucket are its rows. -/
theorem tableRows_table (bucket : Bucket) :
    tableRows (bucket.table hashName schema) = bucket.rows.map (StoredRow.record hashName schema) := by
  have count : ((bucket.table hashName schema).head?.map fun column => column.2.length).getD 0 =
      bucket.entityIdCol.length := by
    simp [Bucket.table]
  rw [tableRows, count, Bucket.rows, List.map_map]
  apply List.map_congr_left
  intro index member
  have inside := List.mem_range.mp member
  have cells : (schema.fields.map fun field =>
      (field.name, (wireCell hashName schema bucket.wireLists [] field).getD index .nil)) =
      schema.fields.map fun field =>
        (field.name, wireCell hashName schema (bucket.row index).values .nil field) := by
    apply List.map_congr_left
    intro field _
    have moved := @wireCell_map hashName schema _ _
      (fun column : List WireValue => column.getD index .nil) bucket.wireLists [] field
    rw [Bucket.row, ← moved]
    simp
  have times : index < bucket.eventTimeNsCol.length := by
    rw [bucket.timesAligned]
    exact inside
  have entityId : (bucket.entityIdCol.map WireValue.text).getD index .nil =
      .text (bucket.row index).entityId := by
    simp [Bucket.row, List.getD_eq_getElem?_getD, inside]
  have eventTime : (bucket.eventTimeNsCol.map WireValue.int).getD index .nil =
      .int (bucket.row index).eventTimeNs := by
    simp [Bucket.row, List.getD_eq_getElem?_getD, times]
  rw [tableRow, Bucket.table, List.map_cons, List.map_cons, List.map_append, List.map_map]
  simp only [Function.comp_def, StoredRow.record, entityId, eventTime, cells]
  congr 3
  cases ids : bucket.msgIdCols with
  | none => simp [Bucket.row, ids]
  | some held =>
      obtain ⟨first, second⟩ := bucket.idsAligned held ids
      have ms : index < held.1.length := first ▸ inside
      have seq : index < held.2.length := second ▸ inside
      simp [Bucket.row, ids, List.getD_eq_getElem?_getD, ms, seq]

end Cells

section Represents

variable {hashName : String → UInt64} {schema : FeatureSchema} {includeMsgId : Bool}
  {heap : ListHeap} {columns : ColumnBucket} {bucket : Bucket}
  (represents : Represents hashName schema includeMsgId heap columns bucket)

include represents in
theorem Represents.refs : columns.wireLists = (wireOrder hashName schema).map fun field =>
    columns.entityIdCol + declIndex schema field :=
  congrArg ColumnBucket.wireLists represents.placed

include represents in
/-- The list object at the place of a field holds the column of the field. -/
theorem Represents.cell {field : FeatureField} (member : field ∈ schema.fields) :
    heap.contents (columns.entityIdCol + declIndex schema field) =
      wireCell hashName schema bucket.wireLists [] field := by
  have lists := represents.wireLists
  rw [represents.refs, List.map_map] at lists
  obtain ⟨index, inside, rfl⟩ := List.mem_iff_getElem.mp ((@mem_wireOrder hashName).mpr member)
  have there : index < bucket.wireLists.length := by
    rw [← lists, List.length_map]
    exact inside
  rw [wireCell_getElem inside there]
  have place := List.getElem_of_eq lists (by simpa using inside)
  rw [List.getElem_map] at place
  exact place

include represents in
/-- The list objects show the table of the bucket. -/
theorem Represents.table : columns.table heap = bucket.table hashName schema := by
  have listed : columns.columns = (bucketColumns schema includeMsgId).zipIdx columns.entityIdCol :=
    congrArg ColumnBucket.columns represents.placed
  have second : columns.eventTimeNsCol = columns.entityIdCol + 1 :=
    congrArg ColumnBucket.eventTimeNsCol represents.placed
  have times := represents.eventTimes
  rw [second] at times
  rw [ColumnBucket.table, listed, bucketColumns, List.zipIdx_cons, List.zipIdx_cons, List.zipIdx_append,
    List.map_cons, List.map_cons, List.map_append, Bucket.table, represents.entityIds, times]
  congr 3
  · apply List.ext_getElem
    · simp
    · intro index inside _
      have bound : index < schema.fields.length := by simpa using inside
      have place : columns.entityIdCol + 1 + 1 + index =
          columns.entityIdCol + declIndex schema schema.fields[index] := by
        rw [declIndex_getElem bound, declOffset]
        omega
      simp only [List.getElem_map, List.getElem_zipIdx, place,
        represents.cell (List.getElem_mem bound)]
  · have stored := represents.msgIds
    rw [congrArg ColumnBucket.msgIdCols represents.placed] at stored
    cases includeMsgId with
    | false =>
        cases ids : bucket.msgIdCols with
        | none => rfl
        | some held => simp [columnBucketAt, ids] at stored
    | true =>
        cases ids : bucket.msgIdCols with
        | none => simp [columnBucketAt, ids] at stored
        | some held =>
            simp only [columnBucketAt, if_true, ids, Option.map_some, Option.some.injEq,
              Prod.mk.injEq] at stored
            have first : columns.entityIdCol + 1 + 1 + (schema.fields.map FeatureField.name).length =
                columns.entityIdCol + (declOffset + schema.fields.length) := by
              rw [List.length_map, declOffset]
              omega
            simp only [msgIdColumns, if_true, List.map_cons, List.map_nil, List.zipIdx_cons,
              List.zipIdx_nil, first, stored.1]
            rw [show columns.entityIdCol + (declOffset + schema.fields.length) + 1 =
              columns.entityIdCol + (declOffset + schema.fields.length + 1) by omega, stored.2]

include represents in
/-- The columns of a table are at one length. -/
theorem Represents.aligned :
    ∀ column ∈ columns.table heap, column.2.length = bucket.entityIdCol.length := by
  rw [represents.table, Bucket.table]
  intro column member
  rcases List.mem_cons.mp member with rfl | member
  · simp
  rcases List.mem_cons.mp member with rfl | member
  · simp [bucket.timesAligned]
  rcases List.mem_append.mp member with field | ids
  · obtain ⟨field, inside, rfl⟩ := List.mem_map.mp field
    apply bucket.listsAligned
    dsimp only
    rw [← represents.cell inside, ← represents.wireLists]
    apply List.mem_map_of_mem
    rw [represents.refs]
    exact List.mem_map_of_mem (mem_wireOrder.mpr inside)
  · cases held : bucket.msgIdCols with
    | none => simp [held] at ids
    | some pair =>
        obtain ⟨first, second⟩ := bucket.idsAligned pair held
        rw [held] at ids
        rcases List.mem_cons.mp ids with rfl | ids
        · simp [first]
        · rw [List.mem_singleton.mp ids]
          simp [second]

theorem mapM_option_if {α β : Type} {f : α → Option β} {g : α → β} {test : α → Bool} {xs : List α}
    (each : ∀ x ∈ xs, f x = if test x then some (g x) else none) :
    xs.mapM f = if xs.all test then some (xs.map g) else none := by
  induction xs with
  | nil => rfl
  | cons x rest ih =>
      rw [List.mapM_cons, each x List.mem_cons_self,
        ih fun other member => each other (List.mem_cons_of_mem _ member), List.all_cons]
      cases test x <;> cases rest.all test <;> rfl

variable {externals : Externals} {plan : ColumnPlan} {types : List ArrowType} {arrow : ArrowPlan}

/-- The cells of one field are converted to its type. -/
def FieldConverts (externals : Externals) (schema : FeatureSchema) (heap : ListHeap) (base : Nat) :
    Prop :=
  ∀ field ∈ schema.fields, ∀ type, arrowTypeFor field = .ok type →
    (heap.contents (base + declIndex schema field)).all (type.converts externals) = true

include represents in
/-- The wire columns are converted when the cells of every field are. -/
theorem Represents.wireConverts (planned : arrowPlanFor hashName schema = .ok arrow) :
    (arrow.wireTypes.zip bucket.wireLists).all
        (fun entry => entry.2.all (entry.1.converts externals)) = true ↔
      FieldConverts externals schema heap columns.entityIdCol := by
  have typed := mapM_except_forall (arrowPlanFor_wireTypes planned)
  have lists := represents.wireLists
  rw [represents.refs, List.map_map] at lists
  rw [← lists, List.all_eq_true]
  constructor
  · intro held field member type found
    obtain ⟨index, inside, rfl⟩ := List.mem_iff_getElem.mp ((@mem_wireOrder hashName).mpr member)
    have there : index < arrow.wireTypes.length := typed.length_eq ▸ inside
    have same := typed.get inside there
    rw [List.get_eq_getElem, found] at same
    obtain rfl := Except.ok.inj same
    refine held (arrow.wireTypes[index], _) (List.mem_iff_getElem.mpr ⟨index, ?_, ?_⟩)
    · simp only [List.length_zip, List.length_map]
      omega
    · simp
  · rintro held ⟨type, column⟩ member
    obtain ⟨index, inside, same⟩ := List.mem_iff_getElem.mp member
    simp only [List.length_zip, List.length_map, lt_min_iff] at inside
    rw [List.getElem_zip, List.getElem_map] at same
    obtain ⟨rfl, rfl⟩ := Prod.mk.inj same
    exact held _ (mem_wireOrder.mp (List.getElem_mem inside.2)) _ (typed.get inside.2 inside.1)

include represents in
/-- The declared columns are converted when the cells of every field are. -/
theorem Represents.declaredConverts (planned : PlannedColumns hashName schema includeMsgId plan types) :
    ((schema.fields.map FeatureField.name).zip (types.map ColumnType.arrow)).all (fun column =>
        (heap.contents ((columns.columns.lookup column.1).getD 0)).all
          (column.2.converts externals)) = true ↔
      FieldConverts externals schema heap columns.entityIdCol := by
  have typed := mapM_except_forall planned.declared
  have listed : columns.columns = (bucketColumns schema includeMsgId).zipIdx columns.entityIdCol :=
    congrArg ColumnBucket.columns represents.placed
  have found : ∀ field ∈ schema.fields, columns.columns.lookup field.name =
      some (columns.entityIdCol + declIndex schema field) := by
    intro field member
    rw [listed]
    exact lookup_zipIdx planned.distinct (bucketColumns_field member)
  rw [List.all_eq_true]
  constructor
  · intro held field member type same
    obtain ⟨index, inside, rfl⟩ := List.mem_iff_getElem.mp member
    have there : index < types.length := typed.length_eq ▸ inside
    have own := typed.get inside there
    rw [List.get_eq_getElem, same] at own
    obtain rfl := Except.ok.inj own
    have converted := held (schema.fields[index].name, .arrow types[index])
      (List.mem_iff_getElem.mpr ⟨index, by simp only [List.length_zip, List.length_map]; omega, by simp⟩)
    rw [found _ member] at converted
    exact converted
  · rintro held ⟨name, type⟩ member
    obtain ⟨index, inside, same⟩ := List.mem_iff_getElem.mp member
    simp only [List.length_zip, List.length_map, lt_min_iff] at inside
    rw [List.getElem_zip, List.getElem_map, List.getElem_map] at same
    obtain ⟨rfl, rfl⟩ := Prod.mk.inj same
    dsimp only
    rw [found _ (List.getElem_mem inside.1)]
    exact held _ (List.getElem_mem inside.1) _ (typed.get inside.1 inside.2)

/-- The id columns of a bucket convert. -/
def Bucket.idsConvert (externals : Externals) (bucket : Bucket) : Bool :=
  match bucket.msgIdCols with
  | none => true
  | some (milliseconds, sequences) =>
      milliseconds.all (fun number => (ArrowType.leaf .int64).converts externals (.int number)) &&
      sequences.all (fun number => (ArrowType.leaf .int32).converts externals (.int number))

include represents in
/-- The table of a bucket is built when the conversion of the bucket succeeds. -/
theorem Represents.fromPydict (planned : PlannedColumns hashName schema includeMsgId plan types)
    (arrowPlanned : arrowPlanFor hashName schema = .ok arrow) :
    columns.fromPydict externals plan heap =
      if bucket.fromPydict externals arrow then some (bucket.table hashName schema) else none := by
  have listed : columns.columns = (bucketColumns schema includeMsgId).zipIdx columns.entityIdCol :=
    congrArg ColumnBucket.columns represents.placed
  have names : plan.arrowSchema.map Prod.fst = bucketColumns schema includeMsgId := planned.names
  have found : ∀ {index : Nat} {name : String},
      (bucketColumns schema includeMsgId)[index]? = some name →
        columns.columns.lookup name = some (columns.entityIdCol + index) := by
    intro index name place
    rw [listed]
    exact lookup_zipIdx planned.distinct place
  have named : ∀ {index : Nat} (inside : index < plan.arrowSchema.length),
      columns.columns.lookup plan.arrowSchema[index].1 = some (columns.entityIdCol + index) := by
    intro index inside
    apply found
    rw [← names, List.getElem?_map, List.getElem?_eq_getElem inside, Option.map_some]
  have table : plan.arrowSchema.map (fun column =>
      (column.1, heap.contents ((columns.columns.lookup column.1).getD 0))) = columns.table heap := by
    apply List.ext_getElem
    · rw [ColumnBucket.table, List.length_map, List.length_map, listed, List.length_zipIdx, ← names,
        List.length_map]
    · intro index inside _
      rw [List.length_map] at inside
      have entries : columns.columns =
          (plan.arrowSchema.map Prod.fst).zipIdx columns.entityIdCol := by rw [names, listed]
      have entry := List.getElem_of_eq entries (by rw [entries]; simpa using inside)
      simp only [ColumnBucket.table, List.getElem_map, named inside, Option.getD_some]
      rw [entry, List.getElem_zipIdx, List.getElem_map]
  have entityIds : (heap.contents ((columns.columns.lookup "entity_id").getD 0)).all
      (ColumnType.text.converts externals) = true := by
    rw [@found 0 "entity_id" rfl, Option.getD_some, Nat.add_zero, represents.entityIds, List.all_map]
    exact List.all_eq_true.mpr fun text _ => rfl
  have eventTimes : (heap.contents ((columns.columns.lookup "event_time_ns").getD 0)).all
      ((ColumnType.arrow (.leaf .int64)).converts externals) =
      bucket.eventTimeNsCol.all fun time => (ArrowType.leaf .int64).converts externals (.int time) := by
    have times := represents.eventTimes
    rw [congrArg ColumnBucket.eventTimeNsCol represents.placed] at times
    rw [@found 1 "event_time_ns" rfl, Option.getD_some]
    change (heap.contents (columnBucketAt hashName schema includeMsgId
      columns.entityIdCol).eventTimeNsCol).all _ = _
    rw [times, List.all_map]
    rfl
  have ids : (msgIdColumns includeMsgId).all (fun column =>
      (heap.contents ((columns.columns.lookup column.1).getD 0)).all (column.2.converts externals)) =
      bucket.idsConvert externals := by
    unfold Bucket.idsConvert
    have stored := represents.msgIds
    rw [congrArg ColumnBucket.msgIdCols represents.placed] at stored
    cases includeMsgId with
    | false =>
        cases held : bucket.msgIdCols with
        | none => rfl
        | some pair => simp [columnBucketAt, held] at stored
    | true =>
        cases held : bucket.msgIdCols with
        | none => simp [columnBucketAt, held] at stored
        | some pair =>
            simp only [columnBucketAt, if_true, held, Option.map_some, Option.some.injEq,
              Prod.mk.injEq] at stored
            have first := @found _ "msg_id_ms" (bucketColumns_ids 0)
            have second := @found _ "msg_id_seq" (bucketColumns_ids 1)
            simp only [msgIdColumns, if_true, List.all_cons, List.all_nil, Bool.and_true, first, second,
              Option.getD_some, Nat.add_zero, stored.1, stored.2, List.all_map]
            rfl
  have converted : plan.arrowSchema.all (fun column =>
      (heap.contents ((columns.columns.lookup column.1).getD 0)).all (column.2.converts externals)) =
      bucket.fromPydict externals arrow := by
    rw [planned.arrowSchema, List.all_cons, List.all_cons, List.all_append, entityIds, eventTimes, ids,
      Bucket.idsConvert, Bucket.fromPydict, Bool.true_and, Bool.and_assoc]
    congr 2
    rw [Bool.eq_iff_iff, represents.declaredConverts planned, represents.wireConverts arrowPlanned]
  have aligned : (columns.table heap).all (fun column =>
      column.2.length = (heap.contents columns.entityIdCol).length) = true := by
    rw [List.all_eq_true]
    intro column member
    rw [represents.entityIds, List.length_map]
    exact decide_eq_true (represents.aligned column member)
  have mapped := @mapM_option_if _ _ (fun column : String × ColumnType =>
      (columns.columns.lookup column.1).bind fun ref =>
        if (heap.contents ref).all (column.2.converts externals) then
          some (column.1, heap.contents ref)
        else none)
    (fun column => (column.1, heap.contents ((columns.columns.lookup column.1).getD 0)))
    (fun column => (heap.contents ((columns.columns.lookup column.1).getD 0)).all
      (column.2.converts externals)) plan.arrowSchema (by
    intro column member
    obtain ⟨index, inside, rfl⟩ := List.mem_iff_getElem.mp member
    simp only [named inside, Option.bind_some, Option.getD_some])
  unfold ColumnBucket.fromPydict
  rw [mapped, converted, table, ← represents.table]
  cases bucket.fromPydict externals arrow with
  | false => rfl
  | true => exact if_pos aligned

end Represents

end Quorin
