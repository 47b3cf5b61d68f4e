import Mathlib.Data.Prod.Lex
import Mathlib.Data.String.Basic
import Mathlib.Order.Monotone.Basic
import Mathlib.Tactic.IntervalCases

/-- A day of the proleptic Gregorian calendar. -/
structure CivilDate where
  year : Nat
  month : Nat
  day : Nat
  deriving DecidableEq

namespace CivilDate

/-- Every fourth year is a leap year, except the centuries that 400 does not divide. -/
def isLeap (year : Nat) : Bool := year % 4 = 0 && (year % 100 ≠ 0 || year % 400 = 0)

/-- The days of a month, which is counted from one. -/
def daysInMonth (leap : Bool) : Nat → Nat
  | 2 => if leap then 29 else 28
  | 4 => 30
  | 6 => 30
  | 9 => 30
  | 11 => 30
  | _ => 31

/-- The days of a year before a month. -/
def daysBeforeMonth (leap : Bool) : Nat → Nat
  | 0 => 0
  | 1 => 0
  | month + 2 => daysBeforeMonth leap (month + 1) + daysInMonth leap (month + 1)

/-- The days before the first of January of a year. -/
def daysBeforeYear (year : Nat) : Nat :=
  (year - 1) * 365 + (year - 1) / 4 - (year - 1) / 100 + (year - 1) / 400

/-- The number of a day; the first of January of the year one is day one. -/
def toOrdinal (date : CivilDate) : Nat :=
  daysBeforeYear date.year + daysBeforeMonth (isLeap date.year) date.month + date.day

/-- The month and the day at an offset in a year; the estimate of the month is at most one too high. -/
def monthDay (leap : Bool) (offset : Nat) : Nat × Nat :=
  let month := (offset + 50) / 32
  if offset < daysBeforeMonth leap month then
    (month - 1, offset - daysBeforeMonth leap (month - 1) + 1)
  else (month, offset - daysBeforeMonth leap month + 1)

/-- The year before a day, and the offset of the day in the next year. -/
def yearOffset (days : Nat) : Nat × Nat :=
  let n400 := days / 146097
  let rest400 := days % 146097
  let n100 := rest400 / 36524
  let rest100 := rest400 % 36524
  let n4 := rest100 / 1461
  let rest4 := rest100 % 1461
  let n1 := rest4 / 365
  let years := n400 * 400 + n100 * 100 + n4 * 4 + n1
  if n1 = 4 ∨ n100 = 4 then (years - 1, 365) else (years, rest4 % 365)

/-- The date of a numbered day. -/
def ofOrdinal (ordinal : Nat) : CivilDate :=
  let (years, offset) := yearOffset (ordinal - 1)
  let (month, day) := monthDay (isLeap (years + 1)) offset
  ⟨years + 1, month, day⟩

/-- The parts of a date are in their ranges. -/
structure Valid (date : CivilDate) : Prop where
  year : 1 ≤ date.year
  month : 1 ≤ date.month ∧ date.month ≤ 12
  day : 1 ≤ date.day ∧ date.day ≤ daysInMonth (isLeap date.year) date.month

def daysInYear (leap : Bool) : Nat := if leap then 366 else 365

/-- The month and the day of an offset lead back to the offset. -/
theorem monthDay_offset (leap : Bool) {offset : Nat} (inside : offset < daysInYear leap) :
    (1 ≤ (monthDay leap offset).1 ∧ (monthDay leap offset).1 ≤ 12) ∧
      (1 ≤ (monthDay leap offset).2 ∧
        (monthDay leap offset).2 ≤ daysInMonth leap (monthDay leap offset).1) ∧
      daysBeforeMonth leap (monthDay leap offset).1 + (monthDay leap offset).2 = offset + 1 := by
  have every : ∀ leap : Bool, ∀ offset < daysInYear leap,
      (1 ≤ (monthDay leap offset).1 ∧ (monthDay leap offset).1 ≤ 12) ∧
        (1 ≤ (monthDay leap offset).2 ∧
          (monthDay leap offset).2 ≤ daysInMonth leap (monthDay leap offset).1) ∧
        daysBeforeMonth leap (monthDay leap offset).1 + (monthDay leap offset).2 = offset + 1 := by
    decide +kernel
  exact every leap offset inside

/-- The counts of four centuries, of centuries, of four years and of years before a year. -/
theorem daysBeforeYear_counts {n400 n100 n4 n1 : Nat} (centuries : n100 ≤ 3) (fours : n4 ≤ 24)
    (ones : n1 ≤ 3) :
    daysBeforeYear (n400 * 400 + n100 * 100 + n4 * 4 + n1 + 1) =
        n400 * 146097 + n100 * 36524 + n4 * 1461 + n1 * 365 ∧
      isLeap (n400 * 400 + n100 * 100 + n4 * 4 + n1 + 1) =
        decide (n1 = 3 ∧ (n4 ≠ 24 ∨ n100 = 3)) := by
  obtain ⟨before, years⟩ : ∃ before, before = n400 * 400 + n100 * 100 + n4 * 4 + n1 := ⟨_, rfl⟩
  rw [← years]
  have quarter : before / 4 = n400 * 100 + n100 * 25 + n4 := by omega
  have century : before / 100 = n400 * 4 + n100 := by omega
  have quadruple : before / 400 = n400 := by omega
  constructor
  · unfold daysBeforeYear
    rw [Nat.add_sub_cancel, quarter, century, quadruple]
    omega
  · have four : (before + 1) % 4 = 0 ↔ n1 = 3 := by omega
    have hundred : (before + 1) % 100 = 0 ↔ n1 = 3 ∧ n4 = 24 := by omega
    have fourHundred : (before + 1) % 400 = 0 ↔ n1 = 3 ∧ n4 = 24 ∧ n100 = 3 := by omega
    rw [Bool.eq_iff_iff]
    simp only [isLeap, Bool.and_eq_true, Bool.or_eq_true, decide_eq_true_eq, ne_eq, four, hundred,
      fourHundred]
    tauto

/-- The offset of a day lies in its year. -/
theorem yearOffset_spec (days : Nat) :
    daysBeforeYear ((yearOffset days).1 + 1) + (yearOffset days).2 = days ∧
      (yearOffset days).2 < daysInYear (isLeap ((yearOffset days).1 + 1)) := by
  unfold yearOffset
  dsimp only
  generalize quadruples : days / 146097 = n400
  generalize rest400Def : days % 146097 = rest400
  generalize centuries : rest400 / 36524 = n100
  generalize rest100Def : rest400 % 36524 = rest100
  generalize fours : rest100 / 1461 = n4
  generalize rest4Def : rest100 % 1461 = rest4
  generalize ones : rest4 / 365 = n1
  by_cases lastYear : n1 = 4 ∨ n100 = 4
  · rw [if_pos lastYear]
    rcases lastYear with last | last
    · have small : n100 ≤ 3 := by omega
      have few : n4 ≤ 24 := by omega
      obtain ⟨before, leap⟩ := @daysBeforeYear_counts n400 n100 n4 3 small few (by decide)
      have same : n400 * 400 + n100 * 100 + n4 * 4 + n1 - 1 =
          n400 * 400 + n100 * 100 + n4 * 4 + 3 := by omega
      have wide : n4 ≠ 24 ∨ n100 = 3 := by omega
      rw [same, before, leap, decide_eq_true ⟨rfl, wide⟩]
      constructor
      · omega
      · exact (by decide : 365 < daysInYear true)
    · obtain ⟨before, leap⟩ := @daysBeforeYear_counts n400 3 24 3 (by decide) (by decide) (by decide)
      have same : n400 * 400 + n100 * 100 + n4 * 4 + n1 - 1 =
          n400 * 400 + 3 * 100 + 24 * 4 + 3 := by omega
      rw [same, before, leap, decide_eq_true ⟨rfl, Or.inr rfl⟩]
      constructor
      · omega
      · exact (by decide : 365 < daysInYear true)
  · rw [if_neg lastYear]
    rw [not_or] at lastYear
    have small : n100 ≤ 3 := by omega
    have few : n4 ≤ 24 := by omega
    have short : n1 ≤ 3 := by omega
    obtain ⟨before, leap⟩ := @daysBeforeYear_counts n400 n100 n4 n1 small few short
    dsimp only
    rw [before]
    constructor
    · omega
    · have offset : rest4 % 365 < 365 := Nat.mod_lt _ (by decide)
      unfold daysInYear
      split <;> omega

/-- A year is as long as the distance to the next. -/
theorem daysBeforeYear_succ (years : Nat) :
    daysBeforeYear (years + 2) = daysBeforeYear (years + 1) + daysInYear (isLeap (years + 1)) := by
  have quarter : (years + 1) / 4 = years / 4 + if (years + 1) % 4 = 0 then 1 else 0 := by
    split <;> omega
  have century : (years + 1) / 100 = years / 100 + if (years + 1) % 100 = 0 then 1 else 0 := by
    split <;> omega
  have quadruple : (years + 1) / 400 = years / 400 + if (years + 1) % 400 = 0 then 1 else 0 := by
    split <;> omega
  have fewer : years / 100 ≤ years / 4 := by omega
  unfold daysBeforeYear daysInYear isLeap
  rw [Nat.add_sub_cancel, show years + 2 - 1 = years + 1 from rfl, quarter, century, quadruple]
  have centuries : (years + 1) % 100 = 0 → (years + 1) % 4 = 0 := by omega
  have quadruples : (years + 1) % 400 = 0 → (years + 1) % 100 = 0 := by omega
  by_cases four : (years + 1) % 4 = 0 <;> by_cases hundred : (years + 1) % 100 = 0 <;>
    by_cases fourHundred : (years + 1) % 400 = 0 <;>
      simp only [four, hundred, fourHundred, decide_true, decide_false, ne_eq, not_true,
        not_false_iff, Bool.or_true, Bool.or_false, Bool.and_true, Bool.and_false, if_true,
        Bool.false_eq_true, if_false] at * <;> omega

theorem daysBeforeYear_mono {first second : Nat} (before : first ≤ second) :
    daysBeforeYear (first + 1) ≤ daysBeforeYear (second + 1) := by
  induction before with
  | refl => exact Nat.le_refl _
  | step _ ih =>
      rw [Nat.succ_eq_add_one, daysBeforeYear_succ]
      omega

theorem ofOrdinal_valid (ordinal : Nat) : (ofOrdinal ordinal).Valid := by
  obtain ⟨_, inside⟩ := yearOffset_spec (ordinal - 1)
  obtain ⟨month, day, _⟩ := monthDay_offset (isLeap ((yearOffset (ordinal - 1)).1 + 1)) inside
  exact ⟨Nat.le_add_left 1 _, month, day⟩

/-- The date of a numbered day has its number. -/
theorem toOrdinal_ofOrdinal {ordinal : Nat} (positive : 1 ≤ ordinal) :
    toOrdinal (ofOrdinal ordinal) = ordinal := by
  obtain ⟨year, inside⟩ := yearOffset_spec (ordinal - 1)
  obtain ⟨_, _, offset⟩ := monthDay_offset (isLeap ((yearOffset (ordinal - 1)).1 + 1)) inside
  unfold toOrdinal ofOrdinal
  dsimp only
  omega

/-- The order of dates by year, month and day. -/
def key (date : CivilDate) : Nat ×ₗ Nat ×ₗ Nat :=
  toLex (date.year, toLex (date.month, date.day))

theorem daysBeforeMonth_mono (leap : Bool) {first second : Nat} (before : first < second)
    (real : 1 ≤ first) :
    daysBeforeMonth leap first + daysInMonth leap first ≤ daysBeforeMonth leap second := by
  induction before with
  | refl =>
      obtain ⟨month, rfl⟩ := Nat.exists_eq_add_of_le' real
      exact Nat.le_refl _
  | @step later reached ih =>
      cases later with
      | zero => exact absurd reached (Nat.not_succ_le_zero first)
      | succ month =>
          have longer : daysBeforeMonth leap (month + 2) =
              daysBeforeMonth leap (month + 1) + daysInMonth leap (month + 1) := rfl
          rw [Nat.succ_eq_add_one, longer]
          omega

/-- A valid date ends inside its year. -/
theorem Valid.inYear {date : CivilDate} (valid : date.Valid) :
    daysBeforeMonth (isLeap date.year) date.month + date.day ≤ daysInYear (isLeap date.year) := by
  have before := daysBeforeMonth_mono (isLeap date.year) (Nat.lt_succ_of_le valid.month.2)
    valid.month.1
  have whole : ∀ leap, daysBeforeMonth leap (Nat.succ 12) = daysInYear leap := by decide
  rw [← whole]
  have short := valid.day.2
  omega

/-- A later date has a larger number. -/
theorem toOrdinal_lt {first second : CivilDate} (firstValid : first.Valid)
    (secondValid : second.Valid) (before : first.key < second.key) :
    toOrdinal first < toOrdinal second := by
  have firstInside := firstValid.inYear
  have secondDay := secondValid.day.1
  unfold toOrdinal
  rcases Prod.Lex.toLex_lt_toLex.mp before with years | ⟨sameYear, within⟩
  · obtain ⟨years', firstYear⟩ := Nat.exists_eq_add_of_le' firstValid.year
    obtain ⟨others, secondYear⟩ := Nat.exists_eq_add_of_le' secondValid.year
    have next := daysBeforeYear_succ years'
    have grown := @daysBeforeYear_mono (years' + 1) others (by omega)
    rw [secondYear, firstYear]
    rw [firstYear] at firstInside
    rw [show years' + 1 + 1 = years' + 2 from rfl, next] at grown
    omega
  · change first.year = second.year at sameYear
    rw [sameYear]
    rcases Prod.Lex.toLex_lt_toLex.mp within with months | ⟨sameMonth, days⟩
    · change first.month < second.month at months
      have grown := daysBeforeMonth_mono (isLeap second.year) months firstValid.month.1
      have short := firstValid.day.2
      rw [sameYear] at short
      omega
    · change first.month = second.month at sameMonth
      change first.day < second.day at days
      rw [sameMonth]
      omega

/-- Later days have later dates. -/
theorem ofOrdinal_lt {first second : Nat} (positive : 1 ≤ first) (before : first < second) :
    (ofOrdinal first).key < (ofOrdinal second).key := by
  rcases lt_or_ge (ofOrdinal first).key (ofOrdinal second).key with less | atLeast
  · exact less
  · rcases atLeast.lt_or_eq with greater | same
    · have reversed := toOrdinal_lt (ofOrdinal_valid second) (ofOrdinal_valid first) greater
      rw [toOrdinal_ofOrdinal positive, toOrdinal_ofOrdinal (by omega)] at reversed
      omega
    · have equal : ofOrdinal second = ofOrdinal first := by
        unfold key at same
        simp only [EmbeddingLike.apply_eq_iff_eq, Prod.mk.injEq] at same
        cases one : ofOrdinal second
        cases two : ofOrdinal first
        rw [one, two] at same
        obtain ⟨rfl, rfl, rfl⟩ := same
        rfl
      have numbers := congrArg toOrdinal equal
      rw [toOrdinal_ofOrdinal positive, toOrdinal_ofOrdinal (by omega)] at numbers
      omega

/-- The last digits of a number, in a text of fixed width. -/
def digits : Nat → Nat → List Char
  | 0, _ => []
  | width + 1, number => digits width (number / 10) ++ [Nat.digitChar (number % 10)]

/-- The text of a date with a year of four digits, as `%Y-%m-%d` prints it. -/
def isoText (date : CivilDate) : String :=
  String.ofList (digits 4 date.year ++ '-' :: digits 2 date.month ++ '-' :: digits 2 date.day)

theorem digits_length (width number : Nat) : (digits width number).length = width := by
  induction width generalizing number with
  | zero => rfl
  | succ width ih => rw [digits, List.length_append, ih, List.length_singleton]

/-- A smaller text of one width decides the order of longer texts. -/
theorem append_lt {first second : List Char} (width : first.length = second.length)
    (before : first < second) (rest others : List Char) : first ++ rest < second ++ others := by
  induction first generalizing second with
  | nil =>
      cases second with
      | nil => exact absurd before (List.lt_irrefl [])
      | cons _ _ => simp at width
  | cons head tail ih =>
      cases second with
      | nil => simp at width
      | cons other remaining =>
          rw [List.cons_lt_cons_iff] at before
          rw [List.cons_append, List.cons_append, List.cons_lt_cons_iff]
          rcases before with less | ⟨same, later⟩
          · exact Or.inl less
          · exact Or.inr ⟨same, ih (by simpa using width) later⟩

theorem append_left_lt (shared : List Char) {first second : List Char} (before : first < second) :
    shared ++ first < shared ++ second := by
  induction shared with
  | nil => exact before
  | cons head tail ih => exact List.cons_lt_cons_iff.mpr (Or.inr ⟨rfl, ih⟩)

/-- The digits of numbers of a fixed width are in the order of the numbers. -/
theorem digits_lt {width first second : Nat} (before : first < second) (fits : second < 10 ^ width) :
    digits width first < digits width second := by
  induction width generalizing first second with
  | zero => omega
  | succ width ih =>
      rw [digits, digits]
      rw [Nat.pow_succ] at fits
      rcases Nat.lt_or_ge (first / 10) (second / 10) with less | atLeast
      · exact append_lt (by rw [digits_length, digits_length]) (ih less (by omega)) _ _
      · have same : first / 10 = second / 10 := by omega
        have last : first % 10 < second % 10 := by omega
        have small : second % 10 < 10 := Nat.mod_lt _ (by decide)
        have digit : ∀ high < 10, ∀ low < high, Nat.digitChar low < Nat.digitChar high := by decide
        rw [same]
        exact append_left_lt _ (List.cons_lt_cons_iff.mpr (Or.inl (digit _ small _ last)))

/-- Texts are in the order of their dates. -/
theorem isoText_lt {first second : CivilDate} (valid : second.Valid) (years : second.year ≤ 9999)
    (before : first.key < second.key) : first.isoText < second.isoText := by
  have month : second.month < 10 ^ 2 := by
    have bound := valid.month.2
    omega
  have day : second.day < 10 ^ 2 := by
    have bound := valid.day.2
    have short : ∀ leap, ∀ month ≤ 12, daysInMonth leap month ≤ 31 := by decide
    have most := short (isLeap second.year) second.month valid.month.2
    omega
  unfold isoText
  rw [String.lt_iff_toList_lt, String.toList_ofList, String.toList_ofList]
  rcases Prod.Lex.toLex_lt_toLex.mp before with less | ⟨sameYear, within⟩
  · rw [List.append_assoc, List.append_assoc]
    exact append_lt (by rw [digits_length, digits_length]) (digits_lt less (by omega)) _ _
  · change first.year = second.year at sameYear
    rw [sameYear, List.append_assoc, List.append_assoc]
    apply append_left_lt
    rcases Prod.Lex.toLex_lt_toLex.mp within with less | ⟨sameMonth, days⟩
    · apply append_left_lt ['-']
      exact append_lt (by rw [digits_length, digits_length]) (digits_lt less month) _ _
    · change first.month = second.month at sameMonth
      rw [sameMonth]
      apply append_left_lt ('-' :: digits 2 second.month)
      exact append_left_lt ['-'] (digits_lt days day)

end CivilDate
