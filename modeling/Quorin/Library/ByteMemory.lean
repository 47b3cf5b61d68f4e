import Mathlib.Data.List.Basic
import Mathlib.Tactic.Ring

namespace ByteMemory

/-- A memory gives one byte at each address. -/
abbrev Memory := Nat → UInt8

/-- The zeroed memory is the state before any write. -/
def Memory.zero : Memory := fun _ => 0

/-- A read returns the bytes of one address range. -/
def Memory.read (memory : Memory) (address count : Nat) : List UInt8 :=
  (List.range count).map fun offset => memory (address + offset)

/-- A write replaces the bytes of one address range. -/
def Memory.write (memory : Memory) (address : Nat) (bytes : List UInt8) : Memory :=
  fun query =>
    if address ≤ query ∧ query < address + bytes.length then bytes.getD (query - address) 0
    else memory query

@[simp] theorem Memory.read_length (memory : Memory) (address count : Nat) :
    (memory.read address count).length = count := by
  simp [read]

@[simp] theorem Memory.read_getElem (memory : Memory) (address count index : Nat)
    (inside : index < (memory.read address count).length) :
    (memory.read address count)[index] = memory (address + index) := by
  simp [read]

/-- Two memories that agree on a range give the same read. -/
theorem Memory.read_congr {first second : Memory} {address count : Nat}
    (agree : ∀ query, address ≤ query → query < address + count → first query = second query) :
    first.read address count = second.read address count := by
  apply List.ext_getElem
  · simp
  · intro index inside _
    simp only [read_getElem]
    rw [read_length] at inside
    exact agree _ (Nat.le_add_right _ _) (by omega)

/-- Equal reads of one range agree at every address of the range. -/
theorem Memory.agree_of_read {first second : Memory} {address count : Nat}
    (equal : first.read address count = second.read address count)
    (query : Nat) (lower : address ≤ query) (upper : query < address + count) :
    first query = second query := by
  have inside : query - address < (first.read address count).length := by
    rw [read_length]; omega
  have inside' : query - address < (second.read address count).length := by
    rw [read_length]; omega
  have value : (first.read address count)[query - address] =
      (second.read address count)[query - address] := by
    simp only [equal]
  rw [read_getElem, read_getElem, Nat.add_sub_cancel' lower] at value
  exact value

theorem Memory.write_inside (memory : Memory) (address : Nat) (bytes : List UInt8) (query : Nat)
    (lower : address ≤ query) (upper : query < address + bytes.length) :
    memory.write address bytes query = bytes.getD (query - address) 0 :=
  if_pos ⟨lower, upper⟩

theorem Memory.write_outside (memory : Memory) (address : Nat) (bytes : List UInt8) (query : Nat)
    (outside : query < address ∨ address + bytes.length ≤ query) :
    memory.write address bytes query = memory query :=
  if_neg (by omega)

/-- A read of the written range returns the written bytes. -/
theorem Memory.read_write_same (memory : Memory) (address : Nat) (bytes : List UInt8) :
    (memory.write address bytes).read address bytes.length = bytes := by
  apply List.ext_getElem
  · simp
  · intro index inside inside'
    rw [read_getElem, write_inside _ _ _ _ (Nat.le_add_right _ _) (by omega),
      Nat.add_sub_cancel_left]
    simp [inside']

/-- A read of a disjoint range is not affected by a write. -/
theorem Memory.read_write_disjoint (memory : Memory) (address : Nat) (bytes : List UInt8)
    (start count : Nat) (disjoint : start + count ≤ address ∨ address + bytes.length ≤ start) :
    (memory.write address bytes).read start count = memory.read start count := by
  apply read_congr
  intro query lower upper
  exact write_outside _ _ _ _ (by omega)

/-- A read that starts inside a longer read returns its part of the bytes. -/
theorem Memory.read_sub {first second : Memory} {address count start length : Nat}
    (equal : first.read address count = second.read address count)
    (lower : address ≤ start) (upper : start + length ≤ address + count) :
    first.read start length = second.read start length := by
  apply read_congr
  intro query from_start to_end
  exact agree_of_read equal query (by omega) (by omega)

/-- The first part of a read is the shorter read. -/
theorem Memory.read_take (memory : Memory) (address first second : Nat) :
    (memory.read address (first + second)).take first = memory.read address first := by
  apply List.ext_getElem
  · simp
  · intro index inside _
    simp

/-- The rest of a read is the read behind its first part. -/
theorem Memory.read_drop (memory : Memory) (address first second : Nat) :
    (memory.read address (first + second)).drop first = memory.read (address + first) second := by
  apply List.ext_getElem
  · simp
  · intro index inside _
    simp [Nat.add_assoc]

/-- A write of the bytes that a range holds changes nothing. -/
theorem Memory.write_read (memory : Memory) (address count : Nat) :
    memory.write address (memory.read address count) = memory := by
  funext query
  by_cases inside : address ≤ query ∧ query < address + count
  · have place : query - address < (memory.read address count).length := by
      rw [read_length]
      omega
    rw [write_inside _ _ _ _ inside.1 (by rw [read_length]; exact inside.2),
      List.getD_eq_getElem?_getD, List.getElem?_eq_getElem place, Option.getD_some, read_getElem,
      Nat.add_sub_cancel' inside.1]
  · exact write_outside _ _ _ _ (by rw [read_length]; omega)

/-- A second write of a range replaces the first. -/
theorem Memory.write_write_same (memory : Memory) (address : Nat) {first second : List UInt8}
    (lengths : first.length = second.length) :
    (memory.write address first).write address second = memory.write address second := by
  funext query
  by_cases inside : address ≤ query ∧ query < address + second.length
  · rw [write_inside _ _ _ _ inside.1 inside.2, write_inside _ _ _ _ inside.1 inside.2]
  · rw [write_outside _ _ _ _ (by omega), write_outside _ _ _ _ (by omega),
      write_outside _ _ _ _ (by omega)]

/-- Writes of disjoint ranges commute. -/
theorem Memory.write_comm (memory : Memory) {firstAddress secondAddress : Nat}
    {first second : List UInt8}
    (disjoint : firstAddress + first.length ≤ secondAddress ∨
      secondAddress + second.length ≤ firstAddress) :
    (memory.write firstAddress first).write secondAddress second =
      (memory.write secondAddress second).write firstAddress first := by
  funext query
  by_cases inFirst : firstAddress ≤ query ∧ query < firstAddress + first.length
  · rw [write_outside _ _ _ _ (by omega), write_inside _ _ _ _ inFirst.1 inFirst.2,
      write_inside _ _ _ _ inFirst.1 inFirst.2]
  · rw [write_outside _ firstAddress _ _ (by omega)]
    by_cases inSecond : secondAddress ≤ query ∧ query < secondAddress + second.length
    · rw [write_inside _ _ _ _ inSecond.1 inSecond.2, write_inside _ _ _ _ inSecond.1 inSecond.2]
    · rw [write_outside _ _ _ _ (by omega), write_outside _ _ _ _ (by omega),
        write_outside _ _ _ _ (by omega)]

/-- A write inside a written range is one write of the changed bytes. -/
theorem Memory.write_within (memory : Memory) (address : Nat) {buffer bytes : List UInt8}
    {offset : Nat} (fits : offset + bytes.length ≤ buffer.length) :
    (memory.write address buffer).write (address + offset) bytes =
      memory.write address
        (buffer.take offset ++ bytes ++ buffer.drop (offset + bytes.length)) := by
  have length : (buffer.take offset ++ bytes ++ buffer.drop (offset + bytes.length)).length =
      buffer.length := by
    simp
    omega
  funext query
  by_cases inside : address ≤ query ∧ query < address + buffer.length
  · rw [write_inside _ address (_ ++ _) _ inside.1 (by omega), List.getD_eq_getElem?_getD]
    by_cases inner : address + offset ≤ query ∧ query < address + offset + bytes.length
    · rw [write_inside _ _ _ _ inner.1 inner.2, List.getElem?_append_left (by simp; omega),
        List.getElem?_append_right (by simp; omega), ← List.getD_eq_getElem?_getD]
      congr 1
      simp
      omega
    · rw [write_outside _ (address + offset) _ _ (by omega),
        write_inside _ _ _ _ inside.1 inside.2, List.getD_eq_getElem?_getD]
      by_cases before : query < address + offset
      · rw [List.append_assoc, List.getElem?_append_left (by simp; omega), List.getElem?_take,
          if_pos (by omega)]
      · rw [List.getElem?_append_right (by simp; omega), List.getElem?_drop]
        congr 2
        simp
        omega
  · rw [write_outside _ _ _ _ (by omega), write_outside _ _ _ _ (by omega),
      write_outside _ _ _ _ (by omega)]

/-- One atomic write names its address and its bytes. -/
structure Write where
  address : Nat
  bytes : List UInt8
  deriving DecidableEq

def Write.last (entry : Write) : Nat := entry.address + entry.bytes.length

/-- This memory results from the writes in list order. -/
def Memory.applyAll (memory : Memory) (writes : List Write) : Memory :=
  writes.foldl (fun current entry => current.write entry.address entry.bytes) memory

@[simp] theorem Memory.applyAll_nil (memory : Memory) : memory.applyAll [] = memory := rfl

@[simp] theorem Memory.applyAll_cons (memory : Memory) (entry : Write) (rest : List Write) :
    memory.applyAll (entry :: rest) =
      (memory.write entry.address entry.bytes).applyAll rest := rfl

theorem Memory.applyAll_append (memory : Memory) (first second : List Write) :
    memory.applyAll (first ++ second) = (memory.applyAll first).applyAll second := by
  simp [applyAll]

/-- A range that no write touches keeps its bytes. -/
theorem Memory.read_applyAll_disjoint (memory : Memory) (writes : List Write) (start count : Nat)
    (disjoint : ∀ entry ∈ writes, start + count ≤ entry.address ∨ entry.last ≤ start) :
    (memory.applyAll writes).read start count = memory.read start count := by
  induction writes generalizing memory with
  | nil => rfl
  | cons entry rest ih =>
      rw [applyAll_cons, ih _ fun other member => disjoint other (List.mem_cons_of_mem _ member)]
      exact read_write_disjoint _ _ _ _ _ (disjoint entry List.mem_cons_self)

/-- A write commutes with writes that do not touch its range. -/
theorem Memory.applyAll_write (memory : Memory) (address : Nat) (bytes : List UInt8)
    (writes : List Write)
    (disjoint : ∀ entry ∈ writes, address + bytes.length ≤ entry.address ∨ entry.last ≤ address) :
    (memory.write address bytes).applyAll writes = (memory.applyAll writes).write address bytes := by
  induction writes generalizing memory with
  | nil => rfl
  | cons entry rest ih =>
      rw [applyAll_cons, applyAll_cons, write_comm _ (disjoint entry List.mem_cons_self),
        ih _ fun other member => disjoint other (List.mem_cons_of_mem _ member)]

/-- The last write of a range decides its bytes. -/
theorem Memory.read_applyAll_last (memory : Memory) (before after : List Write) (entry : Write)
    (disjoint : ∀ other ∈ after, entry.last ≤ other.address ∨ other.last ≤ entry.address) :
    (memory.applyAll (before ++ entry :: after)).read entry.address entry.bytes.length =
      entry.bytes := by
  rw [applyAll_append, applyAll_cons, read_applyAll_disjoint _ _ _ _ disjoint, read_write_same]

/-- The little-endian encoding keeps the low `width` bytes of a number. -/
def leBytes : Nat → Nat → List UInt8
  | 0, _ => []
  | width + 1, value => UInt8.ofNat value :: leBytes width (value / 256)

/-- The little-endian decoding returns the number that a byte list stands for. -/
def leNat : List UInt8 → Nat
  | [] => 0
  | byte :: rest => byte.toNat + 256 * leNat rest

@[simp] theorem leBytes_length (width value : Nat) : (leBytes width value).length = width := by
  induction width generalizing value with
  | zero => rfl
  | succ width ih => simp [leBytes, ih]

/-- A number that fits its width survives the byte encoding. -/
theorem leNat_leBytes (width value : Nat) (fits : value < 256 ^ width) :
    leNat (leBytes width value) = value := by
  induction width generalizing value with
  | zero =>
      simp only [Nat.pow_zero, Nat.lt_one_iff] at fits
      simp [leBytes, leNat, fits]
  | succ width ih =>
      have quotient : value / 256 < 256 ^ width := by
        rw [Nat.pow_succ] at fits
        exact Nat.div_lt_of_lt_mul (by omega)
      have low : (UInt8.ofNat value).toNat = value % 256 := by simp
      rw [leBytes, leNat, ih _ quotient, low]
      omega

/-- A decoded number fits the width of its bytes. -/
theorem leNat_lt (bytes : List UInt8) : leNat bytes < 256 ^ bytes.length := by
  induction bytes with
  | nil => simp [leNat]
  | cons byte rest ih =>
      have small := byte.toNat_lt
      simp only [leNat, List.length_cons, Nat.pow_succ]
      omega

/-- The encoding of a decoded number returns the same bytes. -/
theorem leBytes_leNat (bytes : List UInt8) : leBytes bytes.length (leNat bytes) = bytes := by
  induction bytes with
  | nil => rfl
  | cons byte rest ih =>
      have small := byte.toNat_lt
      have quotient : (byte.toNat + 256 * leNat rest) / 256 = leNat rest := by omega
      have low : UInt8.ofNat (byte.toNat + 256 * leNat rest) = byte := by
        apply UInt8.toNat_inj.mp
        simp only [UInt8.toNat_ofNat', Nat.reducePow]
        omega
      simp only [List.length_cons, leNat, leBytes, quotient, ih, low]

/-- A zero run decodes to zero. -/
theorem leNat_replicate_zero (count : Nat) : leNat (List.replicate count 0) = 0 := by
  induction count with
  | zero => rfl
  | succ count ih => simp [List.replicate_succ, leNat, ih]

/-- This number is the little-endian field at an address. -/
def Memory.readNat (memory : Memory) (address width : Nat) : Nat :=
  leNat (memory.read address width)

theorem Memory.readNat_congr {first second : Memory} {address width : Nat}
    (agree : first.read address width = second.read address width) :
    first.readNat address width = second.readNat address width :=
  congrArg leNat agree

/-- A field read returns the number that was written to the field. -/
theorem Memory.readNat_write_same (memory : Memory) (address width value : Nat)
    (fits : value < 256 ^ width) :
    (memory.write address (leBytes width value)).readNat address width = value := by
  have same := memory.read_write_same address (leBytes width value)
  rw [leBytes_length] at same
  rw [readNat, same, leNat_leBytes width value fits]

theorem Memory.readNat_write_disjoint (memory : Memory) (address : Nat) (bytes : List UInt8)
    (start width : Nat) (disjoint : start + width ≤ address ∨ address + bytes.length ≤ start) :
    (memory.write address bytes).readNat start width = memory.readNat start width :=
  readNat_congr (memory.read_write_disjoint address bytes start width disjoint)

theorem Memory.zero_readNat (address width : Nat) : Memory.zero.readNat address width = 0 := by
  have bytes : Memory.zero.read address width = List.replicate width 0 := by
    apply List.ext_getElem <;> simp [zero]
  rw [readNat, bytes, leNat_replicate_zero]

end ByteMemory
