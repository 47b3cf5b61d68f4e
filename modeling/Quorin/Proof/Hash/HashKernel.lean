import Quorin.Construction.HashKernel
import Quorin.Library.Blake2b

namespace Quorin.HashKernel

open ByteMemory

/-- The two shifts of a word are its rotation. -/
theorem rotr64_eq (x : UInt64) {n : Nat} (positive : 0 < n) (small : n < 64) :
    rotr64 x n = Blake2b.rotateRight x n := by
  have right : n % 64 = n := Nat.mod_eq_of_lt small
  have left : (64 - n) % 64 = 64 - n := by omega
  apply UInt64.toBitVec_inj.mp
  rw [rotr64, Blake2b.rotateRight, UInt64.toBitVec_or, UInt64.toBitVec_shiftRight,
    UInt64.toBitVec_shiftLeft, BitVec.rotateRight_def, right]
  congr 1
  · apply BitVec.eq_of_toNat_eq
    simp [right]
  · apply BitVec.eq_of_toNat_eq
    simp [left]

theorem G_eq (v : Vector UInt64 16) (a b c d : Fin 16) (x y : UInt64) :
    G v a b c d x y = Blake2b.mix v a b c d x y := by
  simp only [G, Blake2b.mix]
  rw [rotr64_eq _ (by decide) (by decide), rotr64_eq _ (by decide) (by decide),
    rotr64_eq _ (by decide) (by decide), rotr64_eq _ (by decide) (by decide)]

theorem iv_eq : blake2bIv = Blake2b.iv := by
  decide +kernel

/-- The twelve rows of the table are the permutations of the twelve rounds. -/
theorem sigma_eq : sigma.toList = (List.range 12).map Blake2b.schedule := by
  decide +kernel

/-- A counter of one word is the low word of the standard's counter. -/
theorem F_eq (h : Vector UInt64 8) (m : Vector UInt64 16) {t : Nat} (fits : t < 2 ^ 64)
    (finalize : Bool) : F h m (UInt64.ofNat t) finalize = Blake2b.compress h m t finalize := by
  have high : UInt64.ofNat (t / 2 ^ 64) = 0 := by
    rw [Nat.div_eq_of_lt fits]
    rfl
  simp only [F, Blake2b.compress, Blake2b.round, G_eq, iv_eq, sigma_eq, List.foldl_map, high,
    UInt64.xor_zero, Vector.set_getElem_self]
  rfl

theorem leNat_concat (bytes : List UInt8) (byte : UInt8) :
    leNat (bytes ++ [byte]) = 2 ^ (8 * bytes.length) * byte.toNat + leNat bytes := by
  induction bytes with
  | nil => simp [leNat]
  | cons first rest ih =>
      have power : 2 ^ (8 * (rest.length + 1)) = 256 * 2 ^ (8 * rest.length) := by
        rw [Nat.mul_add, Nat.pow_add, Nat.mul_comm]
      simp only [List.cons_append, leNat, ih, List.length_cons, power]
      ring

/-- A byte above the bits of a word is added to the word. -/
theorem byteInto_toNat (inputBytes : List UInt8) (wo : Nat) (word : UInt64) {byteIdx : Nat}
    (inside : byteIdx < 8) (low : word.toNat < 2 ^ (8 * byteIdx)) :
    (byteInto inputBytes wo word byteIdx).toNat =
      2 ^ (8 * byteIdx) * (inputBytes.getD (wo + byteIdx) 0).toNat + word.toNat := by
  have small := (inputBytes.getD (wo + byteIdx) 0).toNat_lt
  have shift : byteIdx * 8 % 2 ^ 64 % 64 = 8 * byteIdx := by omega
  have fits : (inputBytes.getD (wo + byteIdx) 0).toNat * 2 ^ (8 * byteIdx) < 2 ^ 64 := by
    calc (inputBytes.getD (wo + byteIdx) 0).toNat * 2 ^ (8 * byteIdx)
        < 2 ^ 8 * 2 ^ (8 * byteIdx) :=
          Nat.mul_lt_mul_of_pos_right small (Nat.two_pow_pos _)
      _ = 2 ^ (8 + 8 * byteIdx) := (Nat.pow_add 2 8 (8 * byteIdx)).symm
      _ ≤ 2 ^ 64 := Nat.pow_le_pow_right (by decide) (by omega)
  rw [byteInto, UInt64.toNat_or, UInt64.toNat_shiftLeft, UInt64.toNat_ofNat', shift,
    UInt8.toNat_toUInt64, Nat.shiftLeft_eq, Nat.mod_eq_of_lt fits,
    Nat.two_pow_add_eq_or_of_lt low, Nat.or_comm, Nat.mul_comm]

/-- A word is filled with its bytes from the low end. -/
theorem fold_byteInto (inputBytes : List UInt8) (wo : Nat) {count : Nat} (inside : count ≤ 8) :
    ((List.range count).foldl (byteInto inputBytes wo) 0).toNat =
      leNat ((List.range count).map fun byte => inputBytes.getD (wo + byte) 0) := by
  induction count with
  | zero => rfl
  | succ count ih =>
      have value := ih (by omega)
      have low := leNat_lt ((List.range count).map fun byte => inputBytes.getD (wo + byte) 0)
      rw [List.length_map, List.length_range, ← value,
        show 256 ^ count = 2 ^ (8 * count) from (Nat.pow_mul 2 8 count).symm] at low
      rw [List.range_succ, List.foldl_append, List.foldl_cons, List.foldl_nil,
        byteInto_toNat inputBytes wo _ (by omega) low, value, List.map_append, List.map_cons,
        List.map_nil, leNat_concat, List.length_map, List.length_range]

/-- The bytes of a word below `n` are bytes of the first `n` bytes of the input. -/
theorem byteInto_take (inputBytes : List UInt8) {n wo byteIdx : Nat} (word : UInt64)
    (inside : wo + byteIdx < n) :
    byteInto inputBytes wo word byteIdx = byteInto (inputBytes.take n) wo word byteIdx := by
  rw [byteInto, byteInto, List.getD_eq_getElem?_getD, List.getD_eq_getElem?_getD,
    List.getElem?_take_of_lt inside]

/-- A byte from index `n` on leaves the word of the first `n` bytes as it is. -/
theorem byteInto_after (inputBytes : List UInt8) {n wo byteIdx : Nat} (word : UInt64)
    (after : ¬ wo + byteIdx < n) :
    byteInto (inputBytes.take n) wo word byteIdx = word := by
  have missing : (inputBytes.take n)[wo + byteIdx]? = none := by
    apply List.getElem?_eq_none
    rw [List.length_take]
    omega
  rw [byteInto, List.getD_eq_getElem?_getD, missing]
  simp

theorem block_word (data : List UInt8) (wo : Nat) :
    (List.range 8).foldl (byteInto data wo) 0 =
      UInt64.ofNat (leNat ((List.range 8).map fun byte => data.getD (wo + byte) 0)) := by
  rw [← fold_byteInto data wo (le_refl 8), UInt64.ofNat_toNat]

/-- A block before the last one is a block of the standard. -/
theorem fullBlock_eq (inputBytes : List UInt8) {n b : Nat} (inside : b * 128 + 128 ≤ n) :
    fullBlock inputBytes (b * 128) = Blake2b.block (inputBytes.take n) b := by
  rw [fullBlock, Blake2b.block]
  apply congrArg Vector.ofFn
  funext w
  have same : ∀ word, ∀ byteIdx ∈ List.range 8,
      byteInto inputBytes (b * 128 + w * 8) word byteIdx =
        byteInto (inputBytes.take n) (b * 128 + w * 8) word byteIdx := by
    intro word byteIdx member
    have small := List.mem_range.mp member
    have place := w.isLt
    exact byteInto_take inputBytes word (by omega)
  exact (List.foldl_ext _ _ 0 same).trans (block_word _ _)

/-- The last block is the standard's block of the first `n` bytes with its zeros. -/
theorem finalBlock_eq (inputBytes : List UInt8) (n b : Nat) :
    finalBlock inputBytes n (b * 128) = Blake2b.block (inputBytes.take n) b := by
  rw [finalBlock, Blake2b.block]
  apply congrArg Vector.ofFn
  funext w
  have same : ∀ word, ∀ byteIdx ∈ List.range 8,
      (if b * 128 + w * 8 + byteIdx < n then
        byteInto inputBytes (b * 128 + w * 8) word byteIdx
      else word) = byteInto (inputBytes.take n) (b * 128 + w * 8) word byteIdx := by
    intro word byteIdx _
    split
    · next inside => exact byteInto_take inputBytes word inside
    · next after => exact (byteInto_after inputBytes word after).symm
  exact (List.foldl_ext _ _ 0 same).trans (block_word _ _)

/-- The kernel compresses every block of the standard before the last one. -/
theorem fullBlocks_eq (n : Nat) : fullBlocks n = Blake2b.blockCount n - 1 := by
  rw [fullBlocks, Blake2b.blockCount, Blake2b.blockBytes]
  split <;> omega

theorem chain_eq (inputBytes : List UInt8) {n count : Nat} (int64 : n < 2 ^ 63)
    (inside : count * 128 ≤ n) :
    (List.range count).foldl (fun h b =>
      F h (fullBlock inputBytes (b * 128)) (UInt64.ofNat (b * 128 + 128)) false)
      (Blake2b.initial 8) = Blake2b.chain (inputBytes.take n) 8 count := by
  rw [Blake2b.chain, Blake2b.blockBytes]
  apply List.foldl_ext
  intro h b member
  have small := List.mem_range.mp member
  have last : b * 128 + 128 ≤ n := by omega
  rw [fullBlock_eq inputBytes last, F_eq _ _ (by omega),
    show b * 128 + 128 = (b + 1) * 128 by omega]

/-- The first bytes of a digest are the first word of the last state. -/
theorem leNat_digest (data : List UInt8) :
    leNat (Blake2b.digest data 8) =
      (Blake2b.compress (Blake2b.chain data 8 (Blake2b.blockCount data.length - 1))
        (Blake2b.block data (Blake2b.blockCount data.length - 1)) data.length true)[0].toNat := by
  simp only [Blake2b.digest]
  generalize Blake2b.compress (Blake2b.chain data 8 (Blake2b.blockCount data.length - 1))
    (Blake2b.block data (Blake2b.blockCount data.length - 1)) data.length true = h
  have first : h.toList = h[0] :: h.toList.tail := by
    have filled : h.toList ≠ [] := List.ne_nil_of_length_pos (by simp)
    calc h.toList = h.toList.head filled :: h.toList.tail := (List.cons_head_tail filled).symm
      _ = h[0] :: h.toList.tail := by rw [List.head_eq_getElem, Vector.getElem_toList]
  rw [first, List.flatMap_cons, List.take_append_of_le_length (by simp), List.take_of_length_le
    (by simp)]
  exact leNat_leBytes 8 _ h[0].toNat_lt

/-- The kernel computes the standard digest of the first `n` bytes. -/
theorem blake2b8_digest (inputBytes : List UInt8) {n : Nat} (inside : n ≤ inputBytes.length)
    (int64 : n < 2 ^ 63) :
    (blake2b8 inputBytes n).toNat = leNat (Blake2b.digest (inputBytes.take n) 8) := by
  have length : (inputBytes.take n).length = n := List.length_take_of_le inside
  have blocks : fullBlocks n * 128 ≤ n := by
    rw [fullBlocks]
    split <;> omega
  have start : blake2bIv.set 0 (getElem blake2bIv 0 (by decide) ^^^ paramXor) (by decide) =
      Blake2b.initial 8 := by decide +kernel
  rw [leNat_digest, length, ← fullBlocks_eq, blake2b8, start]
  rw [chain_eq inputBytes int64 blocks, finalBlock_eq, F_eq _ _ (by omega)]

end Quorin.HashKernel

namespace Quorin

open ByteMemory HashKernel

/-- The compiled hash is the standard digest of the prefix, and the hash of every entity id. -/
theorem blake2b8_is_blake2b (blake2b : List UInt8 → Nat → List UInt8)
    (standard : ∀ data, blake2b data 8 = Blake2b.digest data 8) :
    (∀ (inputBytes : List UInt8) (n : Nat), n ≤ inputBytes.length → n < 2 ^ 63 →
      (blake2b8 inputBytes n).toNat = leNat (Blake2b.digest (inputBytes.take n) 8)) ∧
    (∀ (first second : List UInt8) (n : Nat), n ≤ first.length → n ≤ second.length → n < 2 ^ 63 →
      first.take n = second.take n → blake2b8 first n = blake2b8 second n) ∧
    ∀ entityId : String, (encodeUtf8 entityId).length < 2 ^ 63 →
      (blake2b8 (encodeUtf8 entityId) (encodeUtf8 entityId).length).toNat =
        hashEntityId blake2b entityId := by
  constructor
  · intro inputBytes n inside int64
    exact blake2b8_digest inputBytes inside int64
  constructor
  · intro first second n inFirst inSecond int64 prefixes
    apply UInt64.toNat_inj.mp
    rw [blake2b8_digest first inFirst int64, blake2b8_digest second inSecond int64, prefixes]
  · intro entityId int64
    rw [blake2b8_digest _ (le_refl _) int64, List.take_length, hashEntityId, standard]

theorem blake2b8_is_blake2b_sample :
    (blake2b8 (List.replicate 200 7) 128).toNat =
        leNat (Blake2b.digest ((List.replicate 200 7).take 128) 8) ∧
      (blake2b8 (encodeUtf8 "entity") 6).toNat = hashEntityId Blake2b.digest "entity" := by
  obtain ⟨digests, _, ids⟩ := blake2b8_is_blake2b Blake2b.digest (fun _ => rfl)
  have inside : 128 ≤ (List.replicate 200 (7 : UInt8)).length := by
    rw [List.length_replicate]
    omega
  exact ⟨digests (List.replicate 200 7) 128 inside (by decide),
    ids "entity" (by decide +kernel)⟩

end Quorin
