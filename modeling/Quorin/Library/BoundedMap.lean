import Mathlib.Data.Finset.Card
import Mathlib.Logic.Function.Basic

/-- A bounded map is a partial function with a count of the places it has consumed. -/
structure BoundedMap (κ ν : Type) where
  entries : κ → Option ν
  consumed : Nat

namespace BoundedMap

variable {κ ν : Type}

@[ext] theorem ext {first second : BoundedMap κ ν}
    (entries : first.entries = second.entries) (consumed : first.consumed = second.consumed) :
    first = second := by
  cases first
  cases second
  simp_all

def empty : BoundedMap κ ν := ⟨fun _ => none, 0⟩

/-- A place that no key uses is lost. -/
def leak (map : BoundedMap κ ν) : BoundedMap κ ν := ⟨map.entries, map.consumed + 1⟩

/-- The present keys form a finite set, and the other consumed places are lost. -/
def Accounted (map : BoundedMap κ ν) (present : Finset κ) (lost : Nat) : Prop :=
  (∀ key, key ∈ present ↔ map.entries key ≠ none) ∧ map.consumed = present.card + lost

theorem accounted_empty : Accounted (empty : BoundedMap κ ν) ∅ 0 := by
  simp [Accounted, empty]

theorem Accounted.leak {map : BoundedMap κ ν} {present : Finset κ} {lost : Nat}
    (accounted : map.Accounted present lost) : map.leak.Accounted present (lost + 1) := by
  refine ⟨accounted.1, ?_⟩
  simp only [BoundedMap.leak, accounted.2]
  omega

variable [DecidableEq κ]

/-- An update changes the value of a key and consumes no place. -/
def update (map : BoundedMap κ ν) (key : κ) (value : ν) : BoundedMap κ ν :=
  ⟨Function.update map.entries key (some value), map.consumed⟩

/-- A new key consumes one place. -/
def add (map : BoundedMap κ ν) (key : κ) (value : ν) : BoundedMap κ ν :=
  (map.update key value).leak

theorem Accounted.update {map : BoundedMap κ ν} {present : Finset κ} {lost : Nat}
    (accounted : map.Accounted present lost) {key : κ} (value : ν)
    (old : map.entries key ≠ none) : (map.update key value).Accounted present lost := by
  refine ⟨fun other => ?_, accounted.2⟩
  by_cases same : other = key
  · rw [same]
    simp [BoundedMap.update, accounted.1, old]
  · simp [BoundedMap.update, Function.update_of_ne same, accounted.1]

theorem Accounted.add {map : BoundedMap κ ν} {present : Finset κ} {lost : Nat}
    (accounted : map.Accounted present lost) {key : κ} (value : ν)
    (absent : map.entries key = none) : (map.add key value).Accounted (insert key present) lost := by
  have fresh : key ∉ present := by
    rw [accounted.1]
    simp [absent]
  refine ⟨fun other => ?_, ?_⟩
  · by_cases same : other = key
    · rw [same]
      simp [BoundedMap.add, BoundedMap.update, BoundedMap.leak]
    · simp [BoundedMap.add, BoundedMap.update, BoundedMap.leak, same, accounted.1]
  · simp only [BoundedMap.add, BoundedMap.update, BoundedMap.leak, accounted.2,
      Finset.card_insert_of_notMem fresh]
    omega

end BoundedMap
