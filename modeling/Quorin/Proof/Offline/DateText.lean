import Quorin.Construction.DateText

namespace Quorin

/-- A time in the last half microsecond of its UTC day. -/
def LateInDay (ns : Int) : Prop := dayNs - 500 ≤ ns % dayNs

instance (ns : Int) : Decidable (LateInDay ns) := inferInstanceAs (Decidable (_ ≤ _))

theorem roundMicros_day (ns : Int) :
    (LateInDay ns → roundMicros ns / 86400000000 = ns / dayNs + 1) ∧
      (¬ LateInDay ns → roundMicros ns / 86400000000 = ns / dayNs) := by
  unfold roundMicros LateInDay dayNs
  by_cases below : ns % 1000 < 500
  · rw [if_pos below]
    omega
  · rw [if_neg below]
    by_cases above : 500 < ns % 1000
    · rw [if_pos above]
      omega
    · rw [if_neg above]
      by_cases even : ns / 1000 % 2 = 0
      · rw [if_pos even]
        omega
      · rw [if_neg even]
        omega

/-- The rounding moves a time to the next day exactly in the last half microsecond of its day. -/
theorem dayOrdinal_eq (ns : Int) :
    dayOrdinal ns = ns / dayNs + 719163 + if LateInDay ns then 1 else 0 := by
  obtain ⟨next, own⟩ := roundMicros_day ns
  unfold dayOrdinal
  by_cases late : LateInDay ns
  · rw [if_pos late, next late]
    omega
  · rw [if_neg late, own late]
    omega

theorem dayOrdinal_mono {first second : Int} (before : first ≤ second) :
    dayOrdinal first ≤ dayOrdinal second := by
  rw [dayOrdinal_eq, dayOrdinal_eq]
  by_cases firstLate : LateInDay first
  · rw [if_pos firstLate]
    by_cases secondLate : LateInDay second
    · rw [if_pos secondLate]
      unfold dayNs
      omega
    · rw [if_neg secondLate]
      unfold LateInDay dayNs at *
      omega
  · rw [if_neg firstLate]
    split
    · unfold dayNs
      omega
    · unfold dayNs
      omega

theorem nsToDateStr_some {ns : Int} {text : String} (dated : nsToDateStr ns = some text) :
    (1 ≤ dayOrdinal ns ∧ dayOrdinal ns ≤ 3652059) ∧
      text = (CivilDate.ofOrdinal (dayOrdinal ns).toNat).isoText := by
  unfold nsToDateStr at dated
  split at dated
  · rename_i inside
    exact ⟨inside, (Option.some.inj dated).symm⟩
  · cases dated

/-- A day of the calendar has a year of at most four digits. -/
theorem ofOrdinal_year {ordinal : Nat} (positive : 1 ≤ ordinal) (small : ordinal ≤ 3652059) :
    (CivilDate.ofOrdinal ordinal).year ≤ 9999 := by
  by_contra large
  have valid := CivilDate.ofOrdinal_valid ordinal
  obtain ⟨years, year⟩ := Nat.exists_eq_add_of_le' valid.year
  have grown := @CivilDate.daysBeforeYear_mono 9999 years (by omega)
  have own := CivilDate.toOrdinal_ofOrdinal positive
  have first : CivilDate.daysBeforeYear 10000 = 3652059 := by decide
  rw [CivilDate.toOrdinal, year] at own
  rw [first] at grown
  have day := valid.day.1
  omega

/-- Texts are in the order of their days. -/
theorem nsToDateStr_lt {first second : Int} {firstText secondText : String}
    (firstDate : nsToDateStr first = some firstText)
    (secondDate : nsToDateStr second = some secondText) (before : dayOrdinal first < dayOrdinal second) :
    firstText < secondText := by
  obtain ⟨firstInside, rfl⟩ := nsToDateStr_some firstDate
  obtain ⟨secondInside, rfl⟩ := nsToDateStr_some secondDate
  exact CivilDate.isoText_lt (CivilDate.ofOrdinal_valid _)
    (ofOrdinal_year (by omega) (by omega)) (CivilDate.ofOrdinal_lt (by omega) (by omega))

theorem nsToDateStr_eq {first second : Int} {firstText secondText : String}
    (firstDate : nsToDateStr first = some firstText)
    (secondDate : nsToDateStr second = some secondText) :
    firstText = secondText ↔ dayOrdinal first = dayOrdinal second := by
  constructor
  · rintro rfl
    rcases lt_trichotomy (dayOrdinal first) (dayOrdinal second) with less | same | greater
    · exact absurd (nsToDateStr_lt firstDate secondDate less) (lt_irrefl _)
    · exact same
    · exact absurd (nsToDateStr_lt secondDate firstDate greater) (lt_irrefl _)
  · intro same
    rw [(nsToDateStr_some firstDate).2, (nsToDateStr_some secondDate).2, same]

theorem nsToDateStr_le {first second : Int} {firstText secondText : String}
    (firstDate : nsToDateStr first = some firstText)
    (secondDate : nsToDateStr second = some secondText) (before : first ≤ second) :
    firstText ≤ secondText := by
  rcases (dayOrdinal_mono before).lt_or_eq with less | same
  · exact (nsToDateStr_lt firstDate secondDate less).le
  · exact ((nsToDateStr_eq firstDate secondDate).mpr same).le

/-- Every int64 time has a date text. -/
theorem nsToDateStr_int64 {ns : Int} (low : -2 ^ 63 ≤ ns) (high : ns < 2 ^ 63) :
    ∃ text, nsToDateStr ns = some text := by
  unfold nsToDateStr
  rw [if_pos]
  · exact ⟨_, rfl⟩
  · rw [dayOrdinal_eq]
    unfold dayNs
    split <;> omega

end Quorin
