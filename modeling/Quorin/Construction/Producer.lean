import Quorin.Construction.OfflineStore

namespace Quorin

/-- This is `MAX_ENTITY_ID_BYTES`. -/
def maxEntityIdBytes : Nat := 256

/-- The coercions of pydantic on Python objects, absent when the object is refused. -/
structure Pydantic (Object : Type) where
  toFloat : Object → Option UInt64
  toInt : Object → Option Int
  toList : Object → Option (List Object)

/-- The failures of a write, in the order of its steps. -/
inductive WriteError where
  | schema (error : SchemaError)
  | shapeNotSupported (name : String) (rank : Nat)
  | missingField (name : String)
  | extraField (name : String)
  | invalid (name : String)
  | unpackable
  | entityIdTooLong (length : Nat)
  | eventTimeText
  deriving DecidableEq

section Validation

variable {Object : Type} (pydantic : Pydantic Object)

/-- A float takes every pattern; an integer keeps the range of its type. -/
def validateScalar (dtype : DType) (value : Object) : Option WireValue :=
  match dtype.intRange with
  | none => (pydantic.toFloat value).map .float
  | some (low, high) =>
      (pydantic.toInt value).bind fun number =>
        if low ≤ number ∧ number ≤ high then some (.int number) else none

/-- A list keeps the pinned length, and every item is validated. -/
def validateList (validate : Object → Option WireValue) (length : Nat) (value : Object) :
    Option WireValue :=
  (pydantic.toList value).bind fun items =>
    if items.length = length then (items.mapM validate).map .list else none

/-- The validator of a field of rank at most two. -/
def validateField (field : FeatureField) (value : Object) : Option WireValue :=
  match field.shape with
  | [] => validateScalar pydantic field.dtype value
  | [length] => validateList pydantic (validateScalar pydantic field.dtype) length value
  | [rows, columns] =>
      validateList pydantic
        (validateList pydantic (validateScalar pydantic field.dtype) columns) rows value
  | _ => none

/-- The validated values of the fields, in the given order. -/
def validateFields (values : List (String × Object)) :
    List FeatureField → Except WriteError (List WireValue)
  | [] => .ok []
  | field :: rest => do
      match values.lookup field.name with
      | none => .error (.missingField field.name)
      | some value =>
          match validateField pydantic field value with
          | none => .error (.invalid field.name)
          | some validated =>
              let others ← validateFields values rest
              return validated :: others

end Validation

/-- The fields in the order of the compiled table, found again by the hashes of their names. -/
def fieldOrderFor (hashName : String → UInt64) (schema : FeatureSchema) :
    Except WriteError (List FeatureField) :=
  match compileSchema hashName schema with
  | .error error => .error (.schema error)
  | .ok table =>
      .ok (table.filterMap fun row =>
        schema.fields.reverse.find? fun field => hashName field.name = row.nameHash)

/-- The validate and encode path of `_do_write` gives the fields of the stream entry. -/
def doWrite {Object : Type} (externals : Externals) (pydantic : Pydantic Object)
    (schema : FeatureSchema) (entityId : String) (values : List (String × Object))
    (eventTimeNs : Int) : Except WriteError MessageFields := do
  let order ← fieldOrderFor externals.hashName schema
  match order.find? fun field => field.shape.length > 2 with
  | some field => .error (.shapeNotSupported field.name field.shape.length)
  | none =>
      match values.find? fun entry => entry.1 ∉ schema.fields.map FeatureField.name with
      | some entry => .error (.extraField entry.1)
      | none =>
          let valuesList ← validateFields pydantic values order
          match externals.packb (.list valuesList) with
          | none => .error .unpackable
          | some blob =>
              let entityIdBytes := encodeUtf8 entityId
              if entityIdBytes.length > maxEntityIdBytes then
                .error (.entityIdTooLong entityIdBytes.length)
              else
                match strInt eventTimeNs with
                | none => .error .eventTimeText
                | some eventTime =>
                    return {
                      schema := some (encodeUtf8 schema.className)
                      entityId := some entityIdBytes
                      eventTime := some eventTime
                      blob := some blob }

end Quorin
