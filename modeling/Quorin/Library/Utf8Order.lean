import Mathlib.Tactic.Common
import Mathlib.Data.String.Basic

namespace Utf8Order

/-- The bytes of a list of characters. -/
def encode (text : List Char) : List UInt8 := text.flatMap String.utf8EncodeChar

theorem cons_lt_cons {first second : UInt8} {rest others : List UInt8} :
    first :: rest < second :: others ↔
      first.toNat < second.toNat ∨ first.toNat = second.toNat ∧ rest < others := by
  rw [List.cons_lt_cons_iff, UInt8.lt_iff_toNat_lt, UInt8.toNat_inj]

theorem char_bound (char : Char) : char.val.toNat < 0x110000 := by
  obtain small | ⟨_, small⟩ := char.valid
  · omega
  · exact small

/-- A smaller character has a smaller code, whatever follows. -/
theorem encodeChar_lt {first second : Char} (smaller : first < second)
    (rest others : List UInt8) :
    String.utf8EncodeChar first ++ rest < String.utf8EncodeChar second ++ others := by
  have ordered : first.val.toNat < second.val.toNat := smaller
  have firstBound := char_bound first
  have secondBound := char_bound second
  simp only [String.utf8EncodeChar]
  generalize first.val.toNat = left at *
  generalize second.val.toNat = right at *
  split_ifs <;>
    simp only [List.cons_append, List.nil_append, cons_lt_cons, UInt8.toNat_ofNat'] <;>
    simp (disch := omega) only [Nat.mod_eq_of_lt] <;>
    omega

theorem encode_cons_ne_nil (char : Char) (rest : List Char) : encode (char :: rest) ≠ [] := by
  intro empty
  have bytes : String.utf8EncodeChar char = [] :=
    (List.append_eq_nil_iff.mp (List.flatMap_cons.symm.trans empty)).1
  have positive := char.utf8Size_pos
  rw [← String.length_utf8EncodeChar, bytes] at positive
  exact absurd positive (by simp)

theorem encode_lt {first second : List Char} (smaller : first < second) :
    encode first < encode second := by
  induction smaller with
  | @nil char rest =>
      obtain ⟨byte, bytes, shape⟩ := List.exists_cons_of_ne_nil (encode_cons_ne_nil char rest)
      rw [shape]
      exact List.nil_lt_cons byte bytes
  | rel ordered => exact encodeChar_lt ordered _ _
  | @cons char _ _ _ ih => exact List.append_left_lt ih

/-- The order of the codes is the order of the characters. -/
theorem encode_lt_iff {first second : List Char} :
    encode first < encode second ↔ first < second := by
  constructor
  · intro smaller
    rcases lt_trichotomy first second with below | rfl | above
    · exact below
    · exact absurd smaller (List.lt_irrefl _)
    · exact absurd smaller (List.lt_asymm (encode_lt above))
  · exact encode_lt

theorem encode_toList (text : String) : encode text.toList = text.toByteArray.data.toList := by
  rw [← String.utf8Encode_toList, List.utf8Encode, encode]
  simp

/-- The order of strings by UTF-8 bytes is their order by code points. -/
theorem bytes_lt_iff (first second : String) :
    first.toByteArray.data.toList < second.toByteArray.data.toList ↔ first < second := by
  rw [← encode_toList, ← encode_toList, encode_lt_iff, String.lt_iff]

end Utf8Order
