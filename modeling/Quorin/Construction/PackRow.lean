import Quorin.Construction.InsertMany

namespace Quorin

/-- The array of one field, as the bytes of its elements. -/
structure FieldArray where
  dtype : DType
  elements : List (List UInt8)

/-- The failures of `pack_row`, in the order of its checks. -/
inductive PackRowError where
  | schema (error : SchemaError)
  | keys (provided declared : List String)
  | dtype (name : String) (got expected : DType)
  | elementCount (name : String) (size expected : Nat)

/-- The bytes of each field replace their part of the row. -/
def packRowFields (values : List (String × FieldArray)) :
    List (FeatureField × OffsetRow) → List UInt8 → Except PackRowError (List UInt8)
  | [], out => .ok out
  | (field, row) :: rest, out =>
      let array := (values.lookup field.name).getD ⟨field.dtype, []⟩
      if array.dtype ≠ row.dtype then .error (.dtype field.name array.dtype row.dtype)
      else if array.elements.length ≠ row.elementCount then
        .error (.elementCount field.name array.elements.length row.elementCount)
      else
        packRowFields values rest (out.take row.byteOffset ++ array.elements.flatten ++
          out.drop (row.byteOffset + row.byteCount))

/-- A zeroed row is filled field by field in declaration order. -/
def packRow (hashName : String → UInt64) (schema : FeatureSchema)
    (values : List (String × FieldArray)) : Except PackRowError (List UInt8) :=
  match rowSize hashName schema with
  | .error error => .error (.schema error)
  | .ok size =>
      let provided := values.map Prod.fst
      let declared := schema.fields.map FeatureField.name
      if provided.all (declared.contains ·) && declared.all (provided.contains ·) then
        packRowFields values (schema.fields.zip (computeAssemblyTable hashName schema))
          (List.replicate size 0)
      else .error (.keys provided declared)

/-- The array of one field in one row of a table. -/
def ArrowTable.fieldArray (table : ArrowTable) (row : Nat) (field : FeatureField) : FieldArray :=
  match table.columns.lookup field.name with
  | some (.values _ dtype rows) => ⟨dtype, rows.getD row []⟩
  | _ => ⟨field.dtype, []⟩

/-- The arrays of one row of a table, by field name. -/
def ArrowTable.rowValues (table : ArrowTable) (schema : FeatureSchema) (row : Nat) :
    List (String × FieldArray) :=
  schema.fields.map fun field => (field.name, table.fieldArray row field)

end Quorin
