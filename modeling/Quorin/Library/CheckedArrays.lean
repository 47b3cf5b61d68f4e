import Quorin.Library.ByteMemory

namespace CheckedArrays

open ByteMemory

/-- The accesses that leave an array, or that reinterpret bytes at an address that is not aligned. -/
inductive AccessError where
  | index (position length : Nat)
  | range (start stop length : Nat)
  | assign (target source : Nat)
  | view (start bytes width : Nat)
  deriving DecidableEq

/-- A computation in which every access of an array is checked. -/
abbrev Checked (α : Type) := Except AccessError α

variable {α β : Type}

@[simp] theorem ok_bind (value : α) (continuation : α → Checked β) :
    ((.ok value : Checked α) >>= continuation) = continuation value := rfl

@[simp] theorem pure_ok (value : α) : (pure value : Checked α) = .ok value := rfl

/-- The element `xs[position]`. -/
def index (xs : List α) (position : Nat) : Checked α :=
  if inside : position < xs.length then .ok xs[position] else .error (.index position xs.length)

/-- The assignment `xs[position] = value`. -/
def assign (xs : List α) (position : Nat) (value : α) : Checked (List α) :=
  if position < xs.length then .ok (xs.set position value)
  else .error (.index position xs.length)

/-- The slice `xs[start:stop]`. -/
def range (xs : List α) (start stop : Nat) : Checked (List α) :=
  if start ≤ stop ∧ stop ≤ xs.length then .ok ((xs.drop start).take (stop - start))
  else .error (.range start stop xs.length)

/-- A buffer is the first `size` bytes of a memory; its first byte is aligned to every width. -/
structure Buffer where
  memory : Memory
  size : Nat

/-- The slice of a buffer, with the position of its first byte. -/
structure BufferSlice where
  start : Nat
  bytes : List UInt8

/-- The bytes of a slice as elements of one width. -/
structure View where
  width : Nat
  bytes : List UInt8

/-- The slice `buffer[start:stop]`. -/
def Buffer.slice (buffer : Buffer) (start stop : Nat) : Checked BufferSlice :=
  if start ≤ stop ∧ stop ≤ buffer.size then .ok ⟨start, buffer.memory.read start (stop - start)⟩
  else .error (.range start stop buffer.size)

/-- The element `buffer[position]`. -/
def Buffer.byte (buffer : Buffer) (position : Nat) : Checked UInt8 :=
  if position < buffer.size then .ok (buffer.memory position)
  else .error (.index position buffer.size)

/-- The view of a slice whose bytes are a whole number of elements. -/
def BufferSlice.unalignedView (slice : BufferSlice) (width : Nat) : Checked View :=
  if width ∣ slice.bytes.length then .ok ⟨width, slice.bytes⟩
  else .error (.view slice.start slice.bytes.length width)

/-- The view of a slice that also starts at a multiple of its width. -/
def BufferSlice.view (slice : BufferSlice) (width : Nat) : Checked View :=
  if width ∣ slice.start then slice.unalignedView width
  else .error (.view slice.start slice.bytes.length width)

/-- The bytes of the element `view[position]`. -/
def View.element (view : View) (position : Nat) : Checked (List UInt8) :=
  if position < view.bytes.length / view.width then
    .ok ((view.bytes.drop (position * view.width)).take view.width)
  else .error (.index position (view.bytes.length / view.width))

/-- The word `buffer[start : start + width].view(width)[0]`. -/
def Buffer.word (buffer : Buffer) (start width : Nat) : Checked Nat := do
  let slice ← buffer.slice start (start + width)
  let view ← slice.view width
  let bytes ← view.element 0
  return leNat bytes

/-- The word of an unaligned view. -/
def Buffer.unalignedWord (buffer : Buffer) (start width : Nat) : Checked Nat := do
  let slice ← buffer.slice start (start + width)
  let view ← slice.unalignedView width
  let bytes ← view.element 0
  return leNat bytes

/-- The assignment `buffer[start : start + width].view(width)[0] = value`. -/
def Buffer.storeWord (buffer : Buffer) (start width value : Nat) : Checked Buffer := do
  let slice ← buffer.slice start (start + width)
  let view ← slice.view width
  let _ ← view.element 0
  return { buffer with memory := buffer.memory.write start (leBytes width value) }

/-- The assignment of a word through an unaligned view. -/
def Buffer.storeUnaligned (buffer : Buffer) (start width value : Nat) : Checked Buffer := do
  let slice ← buffer.slice start (start + width)
  let view ← slice.unalignedView width
  let _ ← view.element 0
  return { buffer with memory := buffer.memory.write start (leBytes width value) }

/-- The assignment `buffer[start:stop] = bytes`. -/
def Buffer.store (buffer : Buffer) (start stop : Nat) (bytes : List UInt8) : Checked Buffer := do
  let slice ← buffer.slice start stop
  if slice.bytes.length = bytes.length then
    return { buffer with memory := buffer.memory.write start bytes }
  else .error (.assign slice.bytes.length bytes.length)

/-- A loop of tests stops at the first test that fails. -/
def allFrom (test : Nat → Checked Bool) : Nat → Nat → Checked Bool
  | 0, _ => .ok true
  | remaining + 1, position => do
      if ← test position then allFrom test remaining (position + 1) else return false

section Lists

variable {xs : List α} {position : Nat}

theorem index_ok (inside : position < xs.length) : index xs position = .ok xs[position] :=
  dif_pos inside

theorem index_getD (default : α) (inside : position < xs.length) :
    index xs position = .ok (xs.getD position default) := by
  rw [index_ok inside, List.getD_eq_getElem?_getD, List.getElem?_eq_getElem inside]
  rfl

/-- The element behind the dropped ones, in an array of computed values. -/
theorem index_map_drop {items rest : List β} {item : β} (value : β → α)
    (suffix : items.drop position = item :: rest) :
    index (items.map value) position = .ok (value item) := by
  have inside : position < items.length := by
    by_contra outside
    rw [List.drop_of_length_le (Nat.le_of_not_lt outside)] at suffix
    cases suffix
  rw [List.drop_eq_getElem_cons inside] at suffix
  rw [index_ok (by rwa [List.length_map]), List.getElem_map, (List.cons.inj suffix).1]

theorem assign_ok (inside : position < xs.length) (value : α) :
    assign xs position value = .ok (xs.set position value) :=
  if_pos inside

theorem range_ok {start count : Nat} (inside : start + count ≤ xs.length) :
    range xs start (start + count) = .ok ((xs.drop start).take count) := by
  rw [range, if_pos ⟨Nat.le_add_right _ _, inside⟩, Nat.add_sub_cancel_left]

/-- A loop whose steps succeed under an invariant is the loop without checks on a smaller state. -/
theorem foldlM_ok {σ τ : Type} (embed : τ → σ) (step : σ → α → Checked σ) (next : τ → α → τ)
    (invariant : τ → Prop) {items : List α} {start : τ} (holds : invariant start)
    (steps : ∀ state, invariant state → ∀ item ∈ items,
      step (embed state) item = .ok (embed (next state item)) ∧ invariant (next state item)) :
    items.foldlM step (embed start) = .ok (embed (items.foldl next start)) ∧
      invariant (items.foldl next start) := by
  induction items generalizing start with
  | nil => exact ⟨rfl, holds⟩
  | cons item rest ih =>
      obtain ⟨stepped, kept⟩ := steps start holds item List.mem_cons_self
      rw [List.foldlM_cons, stepped]
      exact ih kept fun state within other later =>
        steps state within other (List.mem_cons_of_mem _ later)

theorem allFrom_ok {test : Nat → Checked Bool} {passes : Nat → Bool} (remaining position : Nat)
    (tests : ∀ index, position ≤ index → index < position + remaining →
      test index = .ok (passes index)) :
    allFrom test remaining position =
      .ok ((List.range remaining).all fun offset => passes (position + offset)) := by
  induction remaining generalizing position with
  | zero => rfl
  | succ remaining ih =>
      have first := tests position (Nat.le_refl _) (by omega)
      have later := ih (position + 1) fun index lower upper => tests index (by omega) (by omega)
      rw [allFrom, first, List.range_succ_eq_map, List.all_cons, List.all_map, Nat.add_zero]
      cases passes position with
      | false => rfl
      | true =>
          rw [ok_bind, if_pos rfl, later, Bool.true_and]
          congr 2
          funext offset
          simp only [Function.comp_apply, Nat.succ_eq_add_one]
          congr 1
          omega

end Lists

section Buffers

variable {buffer : Buffer} {start width : Nat}

theorem Buffer.slice_ok {count : Nat} (inside : start + count ≤ buffer.size) :
    buffer.slice start (start + count) = .ok ⟨start, buffer.memory.read start count⟩ := by
  rw [slice, if_pos ⟨Nat.le_add_right _ _, inside⟩, Nat.add_sub_cancel_left]

theorem Buffer.byte_ok {position : Nat} (inside : position < buffer.size) :
    buffer.byte position = .ok (buffer.memory position) :=
  if_pos inside

theorem BufferSlice.view_ok {slice : BufferSlice} (aligned : width ∣ slice.start)
    (whole : width ∣ slice.bytes.length) : slice.view width = .ok ⟨width, slice.bytes⟩ := by
  rw [view, if_pos aligned, unalignedView, if_pos whole]

theorem View.element_ok {view : View} {position count : Nat}
    (whole : view.bytes.length = count * view.width) (positive : 0 < view.width)
    (inside : position < count) :
    view.element position = .ok ((view.bytes.drop (position * view.width)).take view.width) := by
  apply if_pos
  rwa [whole, Nat.mul_div_cancel _ positive]

/-- The view of one word has one element, and it holds all the bytes. -/
theorem View.word_ok {bytes : List UInt8} (positive : 0 < width) (length : bytes.length = width) :
    (⟨width, bytes⟩ : View).element 0 = .ok bytes := by
  have whole : (⟨width, bytes⟩ : View).bytes.length = 1 * width := by
    rw [Nat.one_mul, length]
  rw [View.element_ok whole positive Nat.one_pos, Nat.zero_mul, List.drop_zero,
    List.take_of_length_le (Nat.le_of_eq length)]

theorem Buffer.unalignedWord_ok (positive : 0 < width) (inside : start + width ≤ buffer.size) :
    buffer.unalignedWord start width = .ok (buffer.memory.readNat start width) := by
  have length := buffer.memory.read_length start width
  rw [unalignedWord, Buffer.slice_ok inside]
  simp only [ok_bind, BufferSlice.unalignedView, length, dvd_refl, if_true,
    View.word_ok positive length]
  rfl

theorem Buffer.word_ok (positive : 0 < width) (aligned : width ∣ start)
    (inside : start + width ≤ buffer.size) :
    buffer.word start width = .ok (buffer.memory.readNat start width) := by
  have length := buffer.memory.read_length start width
  rw [word, Buffer.slice_ok inside]
  rw [ok_bind, BufferSlice.view_ok aligned (by rw [length])]
  simp only [ok_bind, View.word_ok positive length]
  rfl

theorem Buffer.storeUnaligned_ok (positive : 0 < width) (inside : start + width ≤ buffer.size)
    (value : Nat) : buffer.storeUnaligned start width value =
      .ok ⟨buffer.memory.write start (leBytes width value), buffer.size⟩ := by
  have length := buffer.memory.read_length start width
  rw [storeUnaligned, Buffer.slice_ok inside]
  simp only [ok_bind, BufferSlice.unalignedView, length, dvd_refl, if_true,
    View.word_ok positive length]
  rfl

theorem Buffer.storeWord_ok (positive : 0 < width) (aligned : width ∣ start)
    (inside : start + width ≤ buffer.size) (value : Nat) : buffer.storeWord start width value =
      .ok ⟨buffer.memory.write start (leBytes width value), buffer.size⟩ := by
  have length := buffer.memory.read_length start width
  rw [storeWord, Buffer.slice_ok inside]
  rw [ok_bind, BufferSlice.view_ok aligned (by rw [length])]
  simp only [ok_bind, View.word_ok positive length]
  rfl

theorem Buffer.store_ok {count : Nat} {bytes : List UInt8} (length : bytes.length = count)
    (inside : start + count ≤ buffer.size) : buffer.store start (start + count) bytes =
      .ok ⟨buffer.memory.write start bytes, buffer.size⟩ := by
  rw [store, Buffer.slice_ok inside, ok_bind,
    if_pos ((buffer.memory.read_length _ _).trans length.symm)]
  rfl

end Buffers

end CheckedArrays
