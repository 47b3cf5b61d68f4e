import Quorin.Construction.OfflineStore

namespace Quorin

/-- One row of the columns of a bucket. -/
structure StoredRow where
  entityId : String
  eventTimeNs : Int
  values : List WireValue
  msgId : Option (Int × Int)

/-- The row of a bucket at one position of its columns. -/
def Bucket.row (bucket : Bucket) (index : Nat) : StoredRow where
  entityId := bucket.entityIdCol.getD index ""
  eventTimeNs := bucket.eventTimeNsCol.getD index 0
  values := bucket.wireLists.map fun column => column.getD index .nil
  msgId := bucket.msgIdCols.map fun columns => (columns.1.getD index 0, columns.2.getD index 0)

/-- The rows of a bucket in the order of their appends. -/
def Bucket.rows (bucket : Bucket) : List StoredRow :=
  (List.range bucket.entityIdCol.length).map bucket.row

theorem getD_append_left {α : Type} (xs : List α) (last default : α) {index : Nat}
    (inside : index < xs.length) : (xs ++ [last]).getD index default = xs.getD index default := by
  simp [List.getD_eq_getElem?_getD, List.getElem?_append_left inside]

theorem getD_append_last {α : Type} (xs : List α) (last default : α) {index : Nat}
    (behind : index = xs.length) : (xs ++ [last]).getD index default = last := by
  subst behind
  simp [List.getD_eq_getElem?_getD]

section Push

variable (bucket : Bucket) (entityId : String) (eventTimeNs : Int) (values : List WireValue)
  (msgId : Int × Int)

/-- An earlier row keeps its values. -/
theorem push_row_before {index : Nat} (inside : index < bucket.entityIdCol.length)
    (count : values.length = bucket.wireLists.length) :
    (bucket.push entityId eventTimeNs values msgId).row index = bucket.row index := by
  have times : index < bucket.eventTimeNsCol.length := by
    rw [bucket.timesAligned]
    exact inside
  have columns : ((bucket.wireLists.zip values).map fun entry => entry.1 ++ [entry.2]).map
      (fun column => column.getD index .nil) =
      bucket.wireLists.map fun column => column.getD index .nil := by
    rw [List.map_map]
    conv_rhs => rw [← List.map_fst_zip (Nat.le_of_eq count.symm), List.map_map]
    apply List.map_congr_left
    intro entry member
    have aligned := bucket.listsAligned entry.1 (List.of_mem_zip member).1
    exact getD_append_left entry.1 entry.2 .nil (by rw [aligned]; exact inside)
  have ids : (bucket.msgIdCols.map fun columns =>
      (columns.1 ++ [msgId.1], columns.2 ++ [msgId.2])).map
      (fun columns => (columns.1.getD index 0, columns.2.getD index 0)) =
      bucket.msgIdCols.map fun columns => (columns.1.getD index 0, columns.2.getD index 0) := by
    cases stored : bucket.msgIdCols with
    | none => rfl
    | some held =>
        obtain ⟨first, second⟩ := bucket.idsAligned held stored
        simp only [Option.map_some]
        rw [getD_append_left _ _ _ (by rw [first]; exact inside),
          getD_append_left _ _ _ (by rw [second]; exact inside)]
  simp only [Bucket.row, Bucket.push, columns, ids, getD_append_left _ _ _ inside,
    getD_append_left _ _ _ times]

/-- The new row holds the appended values. -/
theorem push_row_last (count : values.length = bucket.wireLists.length) :
    (bucket.push entityId eventTimeNs values msgId).row bucket.entityIdCol.length =
      ⟨entityId, eventTimeNs, values, bucket.msgIdCols.map fun _ => msgId⟩ := by
  have columns : ((bucket.wireLists.zip values).map fun entry => entry.1 ++ [entry.2]).map
      (fun column => column.getD bucket.entityIdCol.length .nil) = values := by
    rw [List.map_map]
    conv_rhs => rw [← List.map_snd_zip (Nat.le_of_eq count)]
    apply List.map_congr_left
    intro entry member
    have aligned := bucket.listsAligned entry.1 (List.of_mem_zip member).1
    exact getD_append_last entry.1 entry.2 .nil aligned.symm
  have ids : (bucket.msgIdCols.map fun columns =>
      (columns.1 ++ [msgId.1], columns.2 ++ [msgId.2])).map
      (fun columns => (columns.1.getD bucket.entityIdCol.length 0,
        columns.2.getD bucket.entityIdCol.length 0)) =
      bucket.msgIdCols.map fun _ => msgId := by
    cases stored : bucket.msgIdCols with
    | none => rfl
    | some held =>
        obtain ⟨first, second⟩ := bucket.idsAligned held stored
        simp only [Option.map_some]
        rw [getD_append_last _ _ _ first.symm, getD_append_last _ _ _ second.symm]
  simp only [Bucket.row, Bucket.push, columns, ids, getD_append_last _ _ _ rfl,
    getD_append_last _ _ _ bucket.timesAligned.symm]

/-- A push adds one row behind the others. -/
theorem push_rows (count : values.length = bucket.wireLists.length) :
    (bucket.push entityId eventTimeNs values msgId).rows =
      bucket.rows ++ [⟨entityId, eventTimeNs, values, bucket.msgIdCols.map fun _ => msgId⟩] := by
  have size : (bucket.push entityId eventTimeNs values msgId).entityIdCol.length =
      bucket.entityIdCol.length + 1 := by
    simp [Bucket.push]
  rw [Bucket.rows, size, List.range_succ, List.map_append, List.map_singleton,
    push_row_last bucket entityId eventTimeNs values msgId count, Bucket.rows]
  congr 1
  apply List.map_congr_left
  intro index member
  exact push_row_before bucket entityId eventTimeNs values msgId (List.mem_range.mp member) count

end Push

theorem rows_of_empty {bucket : Bucket} (empty : bucket.entityIdCol = []) : bucket.rows = [] := by
  simp [Bucket.rows, empty]

end Quorin
