import Quorin.Construction.Segment
import Quorin.Library.Blake2b
import Quorin.Library.ByteMemory

namespace Quorin

open ByteMemory

namespace HashKernel

/-- This table is the `_BLAKE2B_IV` array. -/
def blake2bIv : Vector UInt64 8 := #v[
  0x6A09E667F3BCC908, 0xBB67AE8584CAA73B, 0x3C6EF372FE94F82B, 0xA54FF53A5F1D36F1,
  0x510E527FADE682D1, 0x9B05688C2B3E6C1F, 0x1F83D9ABFB41BD6B, 0x5BE0CD19137E2179]

def paramXor : UInt64 := 0x0000000001010008

/-- This table is the `_SIGMA` array, with one row for each of the twelve rounds. -/
def sigma : Vector (Vector (Fin 16) 16) 12 := #v[
  #v[0, 1, 2, 3, 4, 5, 6, 7, 8, 9, 10, 11, 12, 13, 14, 15],
  #v[14, 10, 4, 8, 9, 15, 13, 6, 1, 12, 0, 2, 11, 7, 5, 3],
  #v[11, 8, 12, 0, 5, 2, 15, 13, 10, 14, 3, 6, 7, 1, 9, 4],
  #v[7, 9, 3, 1, 13, 12, 11, 14, 2, 6, 5, 10, 4, 0, 15, 8],
  #v[9, 0, 5, 7, 2, 4, 10, 15, 14, 1, 11, 12, 6, 8, 3, 13],
  #v[2, 12, 6, 10, 0, 11, 8, 3, 4, 13, 7, 5, 15, 14, 1, 9],
  #v[12, 5, 1, 15, 14, 13, 4, 10, 0, 7, 6, 3, 9, 2, 8, 11],
  #v[13, 11, 7, 14, 12, 1, 3, 9, 5, 0, 15, 4, 8, 6, 2, 10],
  #v[6, 15, 14, 9, 11, 3, 0, 8, 12, 2, 13, 7, 1, 4, 10, 5],
  #v[10, 2, 8, 4, 7, 6, 1, 5, 15, 11, 9, 14, 3, 12, 13, 0],
  #v[0, 1, 2, 3, 4, 5, 6, 7, 8, 9, 10, 11, 12, 13, 14, 15],
  #v[14, 10, 4, 8, 9, 15, 13, 6, 1, 12, 0, 2, 11, 7, 5, 3]]

/-- This function is `_rotr64`. -/
def rotr64 (x : UInt64) (n : Nat) : UInt64 :=
  (x >>> UInt64.ofNat n) ||| (x <<< UInt64.ofNat (64 - n))

/-- This function is `_G`. -/
def G (v : Vector UInt64 16) (a b c d : Fin 16) (x y : UInt64) : Vector UInt64 16 :=
  let v := v.set a (v[a] + v[b] + x)
  let v := v.set d (rotr64 (v[d] ^^^ v[a]) 32)
  let v := v.set c (v[c] + v[d])
  let v := v.set b (rotr64 (v[b] ^^^ v[c]) 24)
  let v := v.set a (v[a] + v[b] + y)
  let v := v.set d (rotr64 (v[d] ^^^ v[a]) 16)
  let v := v.set c (v[c] + v[d])
  v.set b (rotr64 (v[b] ^^^ v[c]) 63)

/-- This function is `_F`. -/
def F (h : Vector UInt64 8) (m : Vector UInt64 16) (t : UInt64) (finalize : Bool) :
    Vector UInt64 8 :=
  let v : Vector UInt64 16 := h ++ blake2bIv
  let v := v.set 12 (v[12] ^^^ t)
  let v := if finalize then v.set 14 (v[14] ^^^ 0xFFFFFFFFFFFFFFFF) else v
  let v := sigma.toList.foldl (fun v s =>
    let v := G v 0 4 8 12 m[s[0]] m[s[1]]
    let v := G v 1 5 9 13 m[s[2]] m[s[3]]
    let v := G v 2 6 10 14 m[s[4]] m[s[5]]
    let v := G v 3 7 11 15 m[s[6]] m[s[7]]
    let v := G v 0 5 10 15 m[s[8]] m[s[9]]
    let v := G v 1 6 11 12 m[s[10]] m[s[11]]
    let v := G v 2 7 8 13 m[s[12]] m[s[13]]
    G v 3 4 9 14 m[s[14]] m[s[15]]) v
  Vector.ofFn fun i => h[i] ^^^ v[i.val] ^^^ v[i.val + 8]

/-- This step puts one byte of the input into a word. -/
def byteInto (inputBytes : List UInt8) (wo : Nat) (word : UInt64) (byteIdx : Nat) : UInt64 :=
  word ||| (inputBytes.getD (wo + byteIdx) 0).toUInt64 <<< UInt64.ofNat (byteIdx * 8)

/-- The words of a block before the last one. -/
def fullBlock (inputBytes : List UInt8) (blockOffset : Nat) : Vector UInt64 16 :=
  Vector.ofFn fun w => (List.range 8).foldl (byteInto inputBytes (blockOffset + w * 8)) 0

/-- The words of the last block, where no byte from index `n` on is read. -/
def finalBlock (inputBytes : List UInt8) (n finalOffset : Nat) : Vector UInt64 16 :=
  Vector.ofFn fun w => (List.range 8).foldl (fun word byteIdx =>
    if finalOffset + w * 8 + byteIdx < n then
      byteInto inputBytes (finalOffset + w * 8) word byteIdx
    else word) 0

def fullBlocks (n : Nat) : Nat := if n = 0 then 0 else (n - 1) / 128

/-- This function is `blake2b_8`. -/
def blake2b8 (inputBytes : List UInt8) (n : Nat) : UInt64 :=
  let h := blake2bIv.set 0 (blake2bIv[0] ^^^ paramXor)
  let h := (List.range (fullBlocks n)).foldl (fun h b =>
    F h (fullBlock inputBytes (b * 128)) (UInt64.ofNat (b * 128 + 128)) false) h
  (F h (finalBlock inputBytes n (fullBlocks n * 128)) (UInt64.ofNat n) true)[0]

end HashKernel

/-- The bytes variant of the entity hash over a digest function of a data and a digest size. -/
def hashEntityIdBytes (blake2b : List UInt8 → Nat → List UInt8) (buf : List UInt8) : Nat :=
  leNat (blake2b buf 8)

def hashEntityId (blake2b : List UInt8 → Nat → List UInt8) (entityId : String) : Nat :=
  leNat (blake2b (encodeUtf8 entityId) 8)

end Quorin
