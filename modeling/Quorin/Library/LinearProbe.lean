import Mathlib.Data.Nat.Find
import Mathlib.Data.Nat.ModEq
import Mathlib.Logic.Function.Basic
import Mathlib.Tactic.Ring

namespace LinearProbe

variable {κ : Type}

/-- A probe ends at a vacant slot, at the key, or after the whole table. -/
inductive Outcome where
  | vacant (index : Nat)
  | hit (index : Nat)
  | exhausted
  deriving DecidableEq

/-- The probe visits the slots in circular order and makes at most `fuel` visits. -/
def probe [DecidableEq κ] (size : Nat) (slot : Nat → Option κ) (key : κ) : Nat → Nat → Outcome
  | 0, _ => .exhausted
  | fuel + 1, index =>
      match slot index with
      | none => .vacant index
      | some other =>
          if other = key then .hit index else probe size slot key fuel ((index + 1) % size)

/-- Every stored key is unique and lies behind an unbroken run from its home slot. -/
structure Chained (size : Nat) (home : κ → Nat) (slot : Nat → Option κ) : Prop where
  unique : ∀ first second key, first < size → second < size →
    slot first = some key → slot second = some key → first = second
  chain : ∀ index key, index < size → slot index = some key →
    ∃ distance, distance < size ∧ index = (home key + distance) % size ∧
      ∀ step, step < distance → slot ((home key + step) % size) ≠ none

/-- Two steps of less than one turn end at the same slot only when they are equal. -/
theorem turn_injective {size start first second : Nat} (firstBound : first < size)
    (secondBound : second < size) (equal : (start + first) % size = (start + second) % size) :
    first = second := by
  have congruent : first ≡ second [MOD size] := Nat.ModEq.add_left_cancel' start equal
  exact Nat.ModEq.eq_of_lt_of_lt congruent firstBound secondBound

/-- Every slot is reached from every start in less than one turn. -/
theorem turn_surjective {size index : Nat} (start : Nat) (inside : index < size) :
    ∃ distance, distance < size ∧ (start + distance) % size = index := by
  refine ⟨(index + size - start % size) % size, Nat.mod_lt _ (by omega), ?_⟩
  have rest : start % size < size := Nat.mod_lt _ (by omega)
  have total : start % size + (index + size - start % size) = index + size := by omega
  rw [Nat.add_mod_mod, ← Nat.mod_add_mod, total, Nat.add_mod_right, Nat.mod_eq_of_lt inside]

/-- The probe passes every slot that holds another key. -/
theorem probe_walk [DecidableEq κ] {size : Nat} {slot : Nat → Option κ} {key : κ} {start distance fuel : Nat}
    (within : distance ≤ fuel)
    (passed : ∀ step, step < distance →
      ∃ other, slot ((start + step) % size) = some other ∧ other ≠ key) :
    probe size slot key fuel (start % size) =
      probe size slot key (fuel - distance) ((start + distance) % size) := by
  induction distance with
  | zero => simp
  | succ distance ih =>
      rw [ih (by omega) fun step bound => passed step (by omega)]
      obtain ⟨other, stored, different⟩ := passed distance (by omega)
      rw [show fuel - distance = (fuel - (distance + 1)) + 1 by omega, probe, stored]
      simp only [if_neg different, Nat.mod_add_mod, Nat.add_assoc]

/-- The probe of a stored key stops at the slot of the key. -/
theorem Chained.probe_stored [DecidableEq κ] {size : Nat} {home : κ → Nat} {slot : Nat → Option κ}
    (chained : Chained size home slot) {index : Nat} {key : κ} (inside : index < size)
    (stored : slot index = some key) :
    probe size slot key size (home key % size) = .hit index := by
  obtain ⟨distance, bound, place, run⟩ := chained.chain index key inside stored
  have passed : ∀ step, step < distance →
      ∃ other, slot ((home key + step) % size) = some other ∧ other ≠ key := by
    intro step before
    obtain ⟨other, present⟩ := Option.ne_none_iff_exists'.mp (run step before)
    refine ⟨other, present, ?_⟩
    rintro rfl
    have same := chained.unique _ _ _ (Nat.mod_lt _ (by omega)) inside present stored
    have equal := turn_injective (by omega) bound (same.trans place)
    omega
  rw [probe_walk bound.le passed, ← place,
    show size - distance = (size - distance - 1) + 1 by omega, probe, stored]
  simp

/-- The probe of an absent key stops at the first vacant slot behind the home slot. -/
theorem probe_absent [DecidableEq κ] {size : Nat} (home : κ → Nat) {slot : Nat → Option κ} {key : κ}
    (absent : ∀ index, index < size → slot index ≠ some key)
    (room : ∃ index, index < size ∧ slot index = none) :
    ∃ distance, distance < size ∧
      probe size slot key size (home key % size) = .vacant ((home key + distance) % size) ∧
      slot ((home key + distance) % size) = none ∧
      ∀ step, step < distance → slot ((home key + step) % size) ≠ none := by
  obtain ⟨free, freeInside, freeVacant⟩ := room
  obtain ⟨turn, turnBound, turnPlace⟩ := turn_surjective (home key) freeInside
  have vacancy : ∃ distance, slot ((home key + distance) % size) = none :=
    ⟨turn, turnPlace ▸ freeVacant⟩
  have least := Nat.find_spec vacancy
  have bound : Nat.find vacancy < size :=
    lt_of_le_of_lt (Nat.find_min' vacancy (turnPlace ▸ freeVacant)) turnBound
  refine ⟨Nat.find vacancy, bound, ?_, least, fun step before => Nat.find_min vacancy before⟩
  have passed : ∀ step, step < Nat.find vacancy →
      ∃ other, slot ((home key + step) % size) = some other ∧ other ≠ key := by
    intro step before
    obtain ⟨other, present⟩ := Option.ne_none_iff_exists'.mp (Nat.find_min vacancy before)
    refine ⟨other, present, ?_⟩
    rintro rfl
    exact absent _ (Nat.mod_lt _ (by omega)) present
  rw [probe_walk bound.le passed,
    show size - Nat.find vacancy = (size - Nat.find vacancy - 1) + 1 by omega, probe, least]

/-- A slot function that agrees inside the table has the same chains. -/
theorem Chained.congr {size : Nat} {home : κ → Nat} {slot other : Nat → Option κ}
    (chained : Chained size home slot) (agree : ∀ index, index < size → other index = slot index) :
    Chained size home other := by
  constructor
  · intro first second key firstInside secondInside firstStored secondStored
    rw [agree _ firstInside] at firstStored
    rw [agree _ secondInside] at secondStored
    exact chained.unique first second key firstInside secondInside firstStored secondStored
  · intro index key inside stored
    rw [agree _ inside] at stored
    obtain ⟨distance, bound, place, run⟩ := chained.chain index key inside stored
    refine ⟨distance, bound, place, fun step before => ?_⟩
    rw [agree _ (Nat.mod_lt _ (by omega))]
    exact run step before

/-- A new key at the first vacant slot keeps every chain. -/
theorem Chained.store {size : Nat} {home : κ → Nat} {slot : Nat → Option κ}
    (chained : Chained size home slot) {key : κ} {distance : Nat} (bound : distance < size)
    (absent : ∀ index, index < size → slot index ≠ some key)
    (vacant : slot ((home key + distance) % size) = none)
    (run : ∀ step, step < distance → slot ((home key + step) % size) ≠ none) :
    Chained size home (Function.update slot ((home key + distance) % size) (some key)) := by
  have grown : ∀ index, slot index ≠ none →
      Function.update slot ((home key + distance) % size) (some key) index = slot index := by
    intro index occupied
    refine Function.update_of_ne ?_ _ _
    rintro rfl
    exact occupied vacant
  constructor
  · intro first second other firstInside secondInside firstStored secondStored
    by_cases atFirst : first = (home key + distance) % size
    · by_cases atSecond : second = (home key + distance) % size
      · rw [atFirst, atSecond]
      · rw [atFirst, Function.update_self] at firstStored
        rw [Function.update_of_ne atSecond] at secondStored
        obtain rfl := Option.some.inj firstStored
        exact absurd secondStored (absent second secondInside)
    · rw [Function.update_of_ne atFirst] at firstStored
      by_cases atSecond : second = (home key + distance) % size
      · rw [atSecond, Function.update_self] at secondStored
        obtain rfl := Option.some.inj secondStored
        exact absurd firstStored (absent first firstInside)
      · rw [Function.update_of_ne atSecond] at secondStored
        exact chained.unique first second other firstInside secondInside firstStored secondStored
  · intro index other inside stored
    by_cases atIndex : index = (home key + distance) % size
    · rw [atIndex, Function.update_self] at stored
      obtain rfl := Option.some.inj stored
      refine ⟨distance, bound, atIndex, fun step before => ?_⟩
      rw [grown _ (run step before)]
      exact run step before
    · rw [Function.update_of_ne atIndex] at stored
      obtain ⟨length, lengthBound, place, walk⟩ := chained.chain index other inside stored
      refine ⟨length, lengthBound, place, fun step before => ?_⟩
      rw [grown _ (walk step before)]
      exact walk step before

end LinearProbe
