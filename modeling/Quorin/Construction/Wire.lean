import Quorin.Construction.InsertMany
import Mathlib.Data.Prod.Lex
import Mathlib.Data.Nat.Digits.Defs

namespace Quorin

/-- The id that Redis assigns to a stream entry; ids are ordered by time and then by sequence. -/
abbrev MsgId := ℕ ×ₗ ℕ

def MsgId.of (ms seq : Nat) : MsgId := toLex (ms, seq)

def MsgId.ms (msgId : MsgId) : Nat := (ofLex msgId).1

def MsgId.seq (msgId : MsgId) : Nat := (ofLex msgId).2

/-- The interpreter refuses decimal texts of more digits than this. -/
def intMaxStrDigits : Nat := 4300

/-- The decimal digits of a number, most significant first. -/
def decimal (number : Nat) : List UInt8 :=
  if number = 0 then [48]
  else (Nat.digits 10 number).reverse.map fun digit => UInt8.ofNat (48 + digit)

/-- The text `str(number)` in ASCII. -/
def strInt (number : Int) : Option (List UInt8) :=
  let digits := decimal number.natAbs
  if digits.length > intMaxStrDigits then none
  else some (if number < 0 then 45 :: digits else digits)

def isDigit (byte : UInt8) : Bool := 48 ≤ byte && byte ≤ 57

def isSpace (byte : UInt8) : Bool := byte = 32 || (9 ≤ byte && byte ≤ 13)

/-- The digits of a number may be separated by single underscores. -/
def readDigits : List UInt8 → Nat → Option Nat
  | [], total => some total
  | byte :: rest, total =>
      if isDigit byte then readDigits rest (total * 10 + (byte.toNat - 48))
      else if byte = 95 && (rest.head?.map isDigit).getD false then readDigits rest total
      else none

/-- A number starts with a digit and keeps the digit limit of the interpreter. -/
def readNumber (text : List UInt8) : Option Nat :=
  if (text.filter isDigit).length > intMaxStrDigits then none
  else if (text.head?.map isDigit).getD false then readDigits text 0
  else none

/-- The conversion `int(text)` of a byte text. -/
def parseInt (text : List UInt8) : Option Int :=
  let body := ((text.dropWhile isSpace).reverse.dropWhile isSpace).reverse
  match body with
  | 43 :: rest => (readNumber rest).map Int.ofNat
  | 45 :: rest => (readNumber rest).map fun number => -Int.ofNat number
  | _ => (readNumber body).map Int.ofNat

/-- The wire text of a message id. -/
def MsgId.bytes (msgId : MsgId) : List UInt8 := decimal msgId.ms ++ 45 :: decimal msgId.seq

/-- A decoded payload value; `other` stands for maps and timestamps, which have no positions. -/
inductive WireValue where
  | nil
  | bool (value : Bool)
  | int (value : Int)
  | float (bits : UInt64)
  | text (value : String)
  | bytes (value : List UInt8)
  | list (items : List WireValue)
  | extension (code : Int) (data : List UInt8)
  | other

/-- The items of a value that has a length and positions. -/
def WireValue.items : WireValue → Option (List WireValue)
  | .text value => some (value.toList.map fun char => .text (String.singleton char))
  | .bytes value => some (value.map fun byte => .int byte.toNat)
  | .list items => some items
  | .extension code data => some [.int code, .bytes data]
  | .nil => none
  | .bool _ => none
  | .int _ => none
  | .float _ => none
  | .other => none

/-- The four fields of a stream entry that the consumer reads. -/
structure MessageFields where
  schema : Option (List UInt8)
  entityId : Option (List UInt8)
  eventTime : Option (List UInt8)
  blob : Option (List UInt8)
  deriving DecidableEq

/-- An entry of the stream. -/
structure StreamEntry where
  id : MsgId
  fields : MessageFields
  deriving DecidableEq

/-- The value range of an integer type, with the bounds of `_int_constraints`. -/
def DType.intRange : DType → Option (Int × Int)
  | .int64 => some (-2 ^ 63, 2 ^ 63 - 1)
  | .int32 => some (-2 ^ 31, 2 ^ 31 - 1)
  | .uint8 => some (0, 255)
  | .float32 => none
  | .float64 => none

/-- An Arrow type of a column: a leaf, or a fixed-size list. -/
inductive ArrowType where
  | leaf (dtype : DType)
  | fixedList (item : ArrowType) (length : Nat)
  deriving DecidableEq

/-- The conversions of the interpreter and of the libraries outside the repository. -/
structure Externals where
  /-- The blake2b hash of a field name. -/
  hashName : String → UInt64
  /-- The checksum of a compiled table. -/
  crc32 : List OffsetRow → UInt32
  /-- The hash of the encoded entity id. -/
  hashId : List UInt8 → UInt64
  /-- The float conversion between element types, on bit patterns. -/
  castBits : DType → DType → Nat → Nat
  /-- The conversion `float(number)`, absent on overflow. -/
  intToFloat : Int → Option UInt64
  /-- The flat elements of `np.asarray(value, dtype)`, absent when it raises. -/
  asarray : DType → WireValue → Option (List (List UInt8))
  /-- Every element of an array has the size of its type. -/
  asarraySize : ∀ dtype value elements, asarray dtype value = some elements →
    ∀ element ∈ elements, element.length = dtype.byteSize
  /-- The bytes of `Packer.pack`, absent when it raises. -/
  packb : WireValue → Option (List UInt8)
  /-- The value of `msgpack.unpackb`, absent when it raises. -/
  unpackb : List UInt8 → Option WireValue
  /-- The date text of `datetime.fromtimestamp(ns / 1e9, tz=UTC)`, absent when it raises. -/
  dateString : Int → Option String
  /-- Whether Arrow converts a value that is not of the kind of the column type. -/
  arrowCoerces : ArrowType → WireValue → Bool
  /-- The Arrow string array of the given texts, absent when Arrow raises. -/
  stringArray : List String → Option StringArray

end Quorin
