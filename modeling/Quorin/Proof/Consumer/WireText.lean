import Quorin.Construction.OfflineStore
import Mathlib.Data.Nat.Digits.Lemmas

namespace Quorin

/-- The byte of a decimal digit. -/
theorem isDigit_of_lt {digit : Nat} (small : digit < 10) :
    isDigit (UInt8.ofNat (48 + digit)) = true ∧ (UInt8.ofNat (48 + digit)).toNat - 48 = digit := by
  interval_cases digit <;> decide

theorem readDigits_map {digits : List Nat} (small : ∀ digit ∈ digits, digit < 10) (total : Nat) :
    readDigits (digits.map fun digit => UInt8.ofNat (48 + digit)) total =
      some (digits.foldl (fun sum digit => sum * 10 + digit) total) := by
  induction digits generalizing total with
  | nil => rfl
  | cons digit rest ih =>
      obtain ⟨byte, value⟩ := isDigit_of_lt (small digit List.mem_cons_self)
      rw [List.map_cons, readDigits, if_pos byte, value, List.foldl_cons]
      exact ih (fun other later => small other (List.mem_cons_of_mem _ later)) _

/-- A decimal text is a non-empty list of digit bytes. -/
theorem decimal_digits (number : Nat) :
    ∃ digits : List Nat, digits ≠ [] ∧ (∀ digit ∈ digits, digit < 10) ∧
      decimal number = digits.map (fun digit => UInt8.ofNat (48 + digit)) ∧
      digits.foldl (fun sum digit => sum * 10 + digit) 0 = number := by
  by_cases zero : number = 0
  · refine ⟨[0], by decide, by decide, ?_, zero.symm⟩
    rw [decimal, if_pos zero]
    rfl
  · refine ⟨(Nat.digits 10 number).reverse, ?_, ?_, by rw [decimal, if_neg zero], ?_⟩
    · rw [Ne, List.reverse_eq_nil_iff, Nat.digits_eq_nil_iff_eq_zero]
      exact zero
    · intro digit member
      exact Nat.digits_lt_base (by decide) (List.mem_reverse.mp member)
    · have value := Nat.ofDigits_digits 10 number
      rw [Nat.ofDigits_eq_foldr] at value
      rw [List.foldl_reverse]
      simpa [Nat.add_comm, Nat.mul_comm] using value

theorem decimal_isDigit (number : Nat) : ∀ byte ∈ decimal number, isDigit byte = true := by
  obtain ⟨digits, _, small, text, _⟩ := decimal_digits number
  rw [text]
  intro byte member
  obtain ⟨digit, inside, rfl⟩ := List.mem_map.mp member
  exact (isDigit_of_lt (small digit inside)).1

theorem decimal_ne_nil (number : Nat) : decimal number ≠ [] := by
  obtain ⟨digits, nonempty, _, text, _⟩ := decimal_digits number
  rw [text]
  simpa using nonempty

theorem isDigit_facts (byte : UInt8) (digit : isDigit byte = true) :
    isSpace byte = false ∧ byte ≠ 43 ∧ byte ≠ 45 := by
  have range : 48 ≤ byte.toNat ∧ byte.toNat ≤ 57 := by
    simpa [isDigit, UInt8.le_iff_toNat_le] using digit
  simp only [isSpace, Bool.or_eq_false_iff, decide_eq_false_iff_not, Bool.and_eq_false_iff,
    UInt8.le_iff_toNat_le, ← UInt8.toNat_inj, Ne]
  refine ⟨⟨?_, Or.inr ?_⟩, ?_, ?_⟩
  · change ¬ byte.toNat = 32
    omega
  · change ¬ byte.toNat ≤ 13
    omega
  · change ¬ byte.toNat = 43
    omega
  · change ¬ byte.toNat = 45
    omega

/-- A decimal text is read back unless it is longer than the interpreter accepts. -/
theorem readNumber_decimal (number : Nat) :
    readNumber (decimal number) =
      if (decimal number).length > intMaxStrDigits then none else some number := by
  have digits := decimal_isDigit number
  have all : (decimal number).filter isDigit = decimal number := List.filter_eq_self.mpr digits
  unfold readNumber
  rw [all]
  split
  · rfl
  · obtain ⟨values, nonempty, small, text, value⟩ := decimal_digits number
    have start : (((decimal number).head?.map isDigit).getD false) = true := by
      cases shape : decimal number with
      | nil => exact absurd shape (decimal_ne_nil number)
      | cons byte rest =>
          have first := digits byte (by rw [shape]; exact List.mem_cons_self)
          simpa using first
    rw [if_pos start, text, readDigits_map small, value]

/-- Digits have no surrounding spaces. -/
theorem strip_digits {text : List UInt8} (digits : ∀ byte ∈ text, isDigit byte = true) :
    ((text.dropWhile isSpace).reverse.dropWhile isSpace).reverse = text := by
  have kept : ∀ bytes : List UInt8, (∀ byte ∈ bytes, isDigit byte = true) →
      bytes.dropWhile isSpace = bytes := by
    intro bytes all
    cases bytes with
    | nil => rfl
    | cons byte rest =>
        have space := (isDigit_facts byte (all byte List.mem_cons_self)).1
        rw [List.dropWhile_cons_of_neg (by rw [space]; exact Bool.false_ne_true)]
  rw [kept text digits, kept text.reverse fun byte member =>
    digits byte (List.mem_reverse.mp member), List.reverse_reverse]

theorem parseInt_decimal (number : Nat) :
    parseInt (decimal number) =
      if (decimal number).length > intMaxStrDigits then none else some (number : Int) := by
  have digits := decimal_isDigit number
  unfold parseInt
  rw [strip_digits digits]
  have plain : (readNumber (decimal number)).map Int.ofNat =
      if (decimal number).length > intMaxStrDigits then none else some (number : Int) := by
    rw [readNumber_decimal]
    split <;> rfl
  cases shape : decimal number with
  | nil => exact absurd shape (decimal_ne_nil number)
  | cons byte rest =>
      obtain ⟨_, notPlus, notMinus⟩ := isDigit_facts byte
        (digits byte (by rw [shape]; exact List.mem_cons_self))
      rw [shape] at plain
      rw [← plain]
      dsimp only
      split
      · rename_i same
        exact absurd (List.cons.inj same).1 notPlus
      · rename_i same
        exact absurd (List.cons.inj same).1 notMinus
      · rfl

/-- The text of an integer is read back. -/
theorem parseInt_strInt {number : Int} {text : List UInt8} (printed : strInt number = some text) :
    parseInt text = some number := by
  unfold strInt at printed
  dsimp only at printed
  split at printed
  · cases printed
  · rename_i short
    obtain rfl := Option.some.inj printed
    split
    · rename_i negative
      have digits := decimal_isDigit number.natAbs
      have stripped : (((45 :: decimal number.natAbs).dropWhile isSpace).reverse.dropWhile
          isSpace).reverse = 45 :: decimal number.natAbs := by
        rw [List.dropWhile_cons_of_neg (by decide), List.reverse_cons]
        cases shape : (decimal number.natAbs).reverse with
        | nil => exact absurd (List.reverse_eq_nil_iff.mp shape) (decimal_ne_nil _)
        | cons byte rest =>
            have last : byte ∈ decimal number.natAbs := by
              rw [← List.mem_reverse, shape]
              exact List.mem_cons_self
            have space := (isDigit_facts byte (digits byte last)).1
            rw [List.cons_append, List.dropWhile_cons_of_neg (by rw [space]; exact Bool.false_ne_true),
              ← List.cons_append, ← shape, List.reverse_append, List.reverse_reverse]
            rfl
      unfold parseInt
      rw [stripped]
      simp only [readNumber_decimal, if_neg short, Option.map_some, Option.some.injEq,
        Int.ofNat_eq_natCast]
      omega
    · rename_i positive
      rw [parseInt_decimal, if_neg short]
      congr 1
      omega

/-- The hyphen of an id text separates its two numbers. -/
theorem partitionHyphen_bytes (msgId : MsgId) :
    partitionHyphen msgId.bytes = (decimal msgId.ms, decimal msgId.seq) := by
  have noHyphen : ∀ byte ∈ decimal msgId.ms, (byte ≠ 45) = true := by
    intro byte member
    simpa using (isDigit_facts byte (decimal_isDigit _ byte member)).2.2
  unfold partitionHyphen MsgId.bytes
  rw [List.takeWhile_append_of_pos (by simpa using noHyphen),
    List.dropWhile_append_of_pos (by simpa using noHyphen)]
  simp

/-- A parsed id text gives the numbers of the id. -/
theorem parseMsgId_bytes {bucket : Bucket} {msgId : MsgId} {parsed : Int × Int}
    (returned : parseMsgId bucket msgId.bytes = .ok parsed) :
    parsed = if bucket.msgIdCols.isSome then ((msgId.ms : Int), (msgId.seq : Int)) else (0, 0) := by
  unfold parseMsgId at returned
  cases stored : bucket.msgIdCols with
  | none =>
      rw [stored] at returned
      exact (Except.ok.inj returned).symm
  | some columns =>
      rw [stored, partitionHyphen_bytes] at returned
      simp only [parseInt_decimal] at returned
      split at returned
      · rename_i ms seq first second
        split at first
        · cases first
        · split at second
          · cases second
          · obtain rfl := Option.some.inj first
            obtain rfl := Option.some.inj second
            exact (Except.ok.inj returned).symm
      · cases returned

end Quorin
