import Quorin.Library.ByteMemory
import Mathlib.Data.Nat.Sqrt

namespace Blake2b

open ByteMemory

abbrev blockWords : Nat := 16

instance blockWords_ne_zero : NeZero blockWords := ⟨by decide⟩

abbrev stateWords : Nat := 8

/-- The words of one block, and the words of the chained state. -/
abbrev Block := Vector UInt64 blockWords

abbrev State := Vector UInt64 stateWords

/-- The bytes of one block. -/
def blockBytes : Nat := 128

def primes : Vector Nat stateWords := #v[2, 3, 5, 7, 11, 13, 17, 19]

/-- The initialization vector: the first 64 bits of the fractional parts of the square roots of the
first eight primes. -/
def iv : State := primes.map fun prime => UInt64.ofNat (Nat.sqrt (prime * 2 ^ 128))

/-- The ten permutations of the message schedule. -/
def sigma : Vector (Vector (Fin blockWords) blockWords) 10 := #v[
  #v[0, 1, 2, 3, 4, 5, 6, 7, 8, 9, 10, 11, 12, 13, 14, 15],
  #v[14, 10, 4, 8, 9, 15, 13, 6, 1, 12, 0, 2, 11, 7, 5, 3],
  #v[11, 8, 12, 0, 5, 2, 15, 13, 10, 14, 3, 6, 7, 1, 9, 4],
  #v[7, 9, 3, 1, 13, 12, 11, 14, 2, 6, 5, 10, 4, 0, 15, 8],
  #v[9, 0, 5, 7, 2, 4, 10, 15, 14, 1, 11, 12, 6, 8, 3, 13],
  #v[2, 12, 6, 10, 0, 11, 8, 3, 4, 13, 7, 5, 15, 14, 1, 9],
  #v[12, 5, 1, 15, 14, 13, 4, 10, 0, 7, 6, 3, 9, 2, 8, 11],
  #v[13, 11, 7, 14, 12, 1, 3, 9, 5, 0, 15, 4, 8, 6, 2, 10],
  #v[6, 15, 14, 9, 11, 3, 0, 8, 12, 2, 13, 7, 1, 4, 10, 5],
  #v[10, 2, 8, 4, 7, 6, 1, 5, 15, 11, 9, 14, 3, 12, 13, 0]]

/-- The permutation of a round. -/
def schedule (round : Nat) : Vector (Fin blockWords) blockWords :=
  sigma.get ⟨round % 10, Nat.mod_lt _ (by decide)⟩

/-- The rotation of a word to the right. -/
def rotateRight (word : UInt64) (count : Nat) : UInt64 :=
  UInt64.ofBitVec (word.toBitVec.rotateRight count)

/-- The mixing function. -/
def mix (v : Block) (a b c d : Fin blockWords) (x y : UInt64) : Block :=
  let v := v.set a (v[a] + v[b] + x)
  let v := v.set d (rotateRight (v[d] ^^^ v[a]) 32)
  let v := v.set c (v[c] + v[d])
  let v := v.set b (rotateRight (v[b] ^^^ v[c]) 24)
  let v := v.set a (v[a] + v[b] + y)
  let v := v.set d (rotateRight (v[d] ^^^ v[a]) 16)
  let v := v.set c (v[c] + v[d])
  v.set b (rotateRight (v[b] ^^^ v[c]) 63)

/-- One round mixes the columns and then the diagonals. -/
def round (m : Block) (s : Vector (Fin blockWords) blockWords) (v : Block) : Block :=
  let v := mix v 0 4 8 12 m[s[0]] m[s[1]]
  let v := mix v 1 5 9 13 m[s[2]] m[s[3]]
  let v := mix v 2 6 10 14 m[s[4]] m[s[5]]
  let v := mix v 3 7 11 15 m[s[6]] m[s[7]]
  let v := mix v 0 5 10 15 m[s[8]] m[s[9]]
  let v := mix v 1 6 11 12 m[s[10]] m[s[11]]
  let v := mix v 2 7 8 13 m[s[12]] m[s[13]]
  mix v 3 4 9 14 m[s[14]] m[s[15]]

/-- The compression function, with a byte counter of two words. -/
def compress (h : State) (m : Block) (t : Nat) (last : Bool) : State :=
  let v : Block := h ++ iv
  let v := v.set 12 (v[12] ^^^ UInt64.ofNat t)
  let v := v.set 13 (v[13] ^^^ UInt64.ofNat (t / 2 ^ 64))
  let v := if last then v.set 14 (v[14] ^^^ 0xFFFFFFFFFFFFFFFF) else v
  let v := (List.range 12).foldl (fun v index => round m (schedule index) v) v
  Vector.ofFn fun i => h[i] ^^^ v[i.val] ^^^ v.get ⟨i.val + 8, Nat.add_lt_add_right i.isLt 8⟩

/-- The words of a block of the data; zeros follow the last byte of the data. -/
def block (data : List UInt8) (index : Nat) : Block :=
  Vector.ofFn fun word => UInt64.ofNat (leNat ((List.range 8).map fun byte =>
    data.getD (index * blockBytes + word * 8 + byte) 0))

/-- The number of blocks of the data; no data is one block. -/
def blockCount (length : Nat) : Nat := max 1 ((length + (blockBytes - 1)) / blockBytes)

/-- The state after the parameter word of an unkeyed digest of `size` bytes. -/
def initial (size : Nat) : State :=
  iv.set 0 (iv[0] ^^^ 0x01010000 ^^^ UInt64.ofNat size)

/-- The state after all blocks before the last one. -/
def chain (data : List UInt8) (size count : Nat) : State :=
  (List.range count).foldl
    (fun h index => compress h (block data index) ((index + 1) * blockBytes) false) (initial size)

/-- The unkeyed digest of `size` bytes. -/
def digest (data : List UInt8) (size : Nat) : List UInt8 :=
  let last := blockCount data.length - 1
  let h := compress (chain data size last) (block data last) data.length true
  (h.toList.flatMap fun word => leBytes 8 word.toNat).take size

end Blake2b
