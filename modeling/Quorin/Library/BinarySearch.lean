import Mathlib.Order.Lattice
import Mathlib.Order.Nat
import Mathlib.Tactic.Common

namespace BinarySearch

/-- The search halves the interval until one boundary is left. -/
def search (before : Nat → Bool) : Nat → Nat → Nat → Nat
  | 0, low, _ => low
  | fuel + 1, low, high =>
      if low < high then
        if before (low + (high - low) / 2) then
          search before fuel (low + (high - low) / 2 + 1) high
        else search before fuel low (low + (high - low) / 2)
      else low

/-- A boundary separates the positions before a key from the others. -/
structure Boundary (before : Nat → Bool) (size index : Nat) : Prop where
  inside : index ≤ size
  below : ∀ position, position < index → before position = true
  above : ∀ position, index ≤ position → position < size → before position = false

/-- The positions before a key come first. -/
def Falling (before : Nat → Bool) (size : Nat) : Prop :=
  ∀ first second, first ≤ second → second < size → before second = true → before first = true

/-- The search ends at the boundary when everything outside the interval is settled. -/
theorem search_boundary {before : Nat → Bool} {size : Nat} (falling : Falling before size)
    {fuel low high : Nat} (enough : high - low ≤ fuel) (ordered : low ≤ high)
    (inside : high ≤ size) (below : ∀ position, position < low → before position = true)
    (above : ∀ position, high ≤ position → position < size → before position = false) :
    Boundary before size (search before fuel low high) := by
  induction fuel generalizing low high with
  | zero =>
      have same : low = high := by omega
      subst same
      exact ⟨inside, below, above⟩
  | succ fuel ih =>
      rw [search]
      by_cases active : low < high
      · rw [if_pos active]
        have left : low ≤ low + (high - low) / 2 := by omega
        have right : low + (high - low) / 2 < high := by omega
        generalize low + (high - low) / 2 = middle at left right
        by_cases passed : before middle = true
        · rw [if_pos passed]
          apply ih (by omega) (by omega) inside _ above
          intro position bound
          exact falling position middle (by omega) (by omega) passed
        · rw [if_neg passed]
          apply ih (by omega) left (by omega) below
          intro position later bound
          by_contra failed
          exact passed (falling middle position later bound (by simpa using failed))
      · rw [if_neg active]
        have same : low = high := by omega
        subst same
        exact ⟨inside, below, above⟩

/-- The position is left or right of the equal keys. -/
inductive Side where
  | left
  | right
  deriving DecidableEq

section Sorted

variable {κ : Type} [LinearOrder κ]

/-- The test of one key, which is strict on the left side. -/
def passes (side : Side) (key other : κ) : Bool :=
  match side with
  | .left => decide (other < key)
  | .right => decide (other ≤ key)

/-- The insertion position of a key in a sorted list. -/
def searchsorted (side : Side) (keys : List κ) (key : κ) : Nat :=
  search (fun index => (keys[index]?).any (passes side key)) keys.length 0 keys.length

@[simp] theorem passes_left (key other : κ) : passes .left key other = true ↔ other < key :=
  decide_eq_true_iff

@[simp] theorem passes_right (key other : κ) : passes .right key other = true ↔ other ≤ key :=
  decide_eq_true_iff

theorem passes_falling {side : Side} {key first second : κ} (ordered : first ≤ second)
    (passed : passes side key second = true) : passes side key first = true := by
  cases side with
  | left =>
      rw [passes_left] at *
      exact lt_of_le_of_lt ordered passed
  | right =>
      rw [passes_right] at *
      exact le_trans ordered passed

/-- The position splits a sorted list into the keys that pass and the others. -/
theorem searchsorted_splits (side : Side) {keys : List κ} (sorted : keys.Pairwise (· ≤ ·))
    (key : κ) :
    searchsorted side keys key ≤ keys.length ∧
      ∀ index other, keys[index]? = some other →
        (index < searchsorted side keys key ↔ passes side key other = true) := by
  have falling : Falling (fun index => (keys[index]?).any (passes side key)) keys.length := by
    intro first second ordered bound passed
    obtain rfl | strict := Nat.eq_or_lt_of_le ordered
    · exact passed
    · have below : keys[first] ≤ keys[second] :=
        List.pairwise_iff_getElem.mp sorted first second (by omega) bound strict
      simp only [List.getElem?_eq_getElem bound, Option.any_some] at passed
      simp only [List.getElem?_eq_getElem (show first < keys.length by omega), Option.any_some]
      exact passes_falling below passed
  have boundary : Boundary (fun index => (keys[index]?).any (passes side key)) keys.length
      (searchsorted side keys key) := by
    apply search_boundary falling (by omega) (by omega) (by omega)
    · intro position bound
      omega
    · intro position later bound
      omega
  refine ⟨boundary.inside, ?_⟩
  intro index other found
  have bound : index < keys.length := (List.getElem?_eq_some_iff.mp found).1
  constructor
  · intro left
    simpa [found] using boundary.below index left
  · intro passed
    by_contra right
    have failed := boundary.above index (by omega) bound
    simp [found, passed] at failed

end Sorted

end BinarySearch
