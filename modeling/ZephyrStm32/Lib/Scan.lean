import Mathlib.Data.List.Basic
import Mathlib.Tactic

/-!
# Searching for the first hit

`firstFrom hit i n` looks at the `n` candidates from `i` on and gives the first that hits, as a
loop over an index or an iterator's `position` does. `firstFrom_eq_some` and `firstFrom_eq_none`
say what it found in terms of `hit` alone.
-/

namespace Scan

def firstFrom (hit : Nat → Bool) : Nat → Nat → Option Nat
  | _, 0 => none
  | i, n + 1 => if hit i then some i else firstFrom hit (i + 1) n

theorem firstFrom_eq_none {hit : Nat → Bool} {i n : Nat} :
    firstFrom hit i n = none ↔ ∀ k, i ≤ k → k < i + n → hit k = false := by
  induction n generalizing i with
  | zero => exact ⟨fun _ k h₁ h₂ => by omega, fun _ => rfl⟩
  | succ n ih =>
    rw [firstFrom]
    split
    · rename_i hi
      refine ⟨fun h => by simp at h, fun h => ?_⟩
      rw [h i le_rfl (by omega)] at hi
      exact absurd hi (by simp)
    · rename_i hi
      rw [ih]
      constructor
      · intro h k h₁ h₂
        rcases Nat.eq_or_lt_of_le h₁ with rfl | h₁
        · simpa using hi
        · exact h k h₁ (by omega)
      · exact fun h k h₁ h₂ => h k (by omega) (by omega)

theorem firstFrom_eq_some {hit : Nat → Bool} {i n j : Nat} :
    firstFrom hit i n = some j ↔
      i ≤ j ∧ j < i + n ∧ hit j = true ∧ ∀ k, i ≤ k → k < j → hit k = false := by
  induction n generalizing i with
  | zero => exact ⟨fun h => by simp [firstFrom] at h, fun h => by omega⟩
  | succ n ih =>
    rw [firstFrom]
    split
    · rename_i hi
      constructor
      · intro h
        cases h
        exact ⟨le_rfl, by omega, hi, fun k h₁ h₂ => by omega⟩
      · rintro ⟨h₁, -, -, hmin⟩
        rcases Nat.eq_or_lt_of_le h₁ with rfl | h₁
        · rfl
        · rw [hmin i le_rfl h₁] at hi
          exact absurd hi (by simp)
    · rename_i hi
      rw [ih]
      constructor
      · rintro ⟨h₁, h₂, hj, hmin⟩
        refine ⟨by omega, by omega, hj, fun k hk₁ hk₂ => ?_⟩
        rcases Nat.eq_or_lt_of_le hk₁ with rfl | hk₁
        · simpa using hi
        · exact hmin k hk₁ hk₂
      · rintro ⟨h₁, h₂, hj, hmin⟩
        have hne : i ≠ j := fun h => hi (h ▸ hj)
        exact ⟨by omega, by omega, hj, fun k hk₁ hk₂ => hmin k (by omega) hk₂⟩

/-- The search sees nothing but the candidates. -/
theorem firstFrom_congr {hit hit' : Nat → Bool} {i n : Nat}
    (h : ∀ k, i ≤ k → k < i + n → hit k = hit' k) : firstFrom hit i n = firstFrom hit' i n := by
  induction n generalizing i with
  | zero => rfl
  | succ n ih =>
    rw [firstFrom, firstFrom, h i le_rfl (by omega),
      ih fun k h₁ h₂ => h k (by omega) (by omega)]

/-- A hit at the first candidate is found at once. -/
theorem firstFrom_self {hit : Nat → Bool} {i n : Nat} (hn : 0 < n) (h : hit i = true) :
    firstFrom hit i n = some i :=
  firstFrom_eq_some.2 ⟨le_rfl, by omega, h, fun k h₁ h₂ => by omega⟩

/-- Searching a shifted predicate finds the shifted index. -/
theorem firstFrom_add (hit : Nat → Bool) (p i n : Nat) :
    (firstFrom (fun k => hit (p + k)) i n).map (p + ·) = firstFrom hit (p + i) n := by
  induction n generalizing i with
  | zero => rfl
  | succ n ih =>
    rw [firstFrom, firstFrom]
    split
    · rfl
    · exact ih (i + 1)

end Scan
