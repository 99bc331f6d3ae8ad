import ZephyrStm32.Lib.Bytes

/-!
# Memories that are written page by page

A serial memory takes the bytes of one write in turn and counts its address up, but only within the
page the write began in: behind the last cell of the page comes the first one. `Paged.write` is
such a write, `cell` where its bytes go.

**Theorem (`write_eq_iff`).** It does what `Mem.write` does exactly when nothing is missing behind
the page and nothing is out of place in it; so a write that stays in its page is an ordinary one
(`write_of_fits`).
-/

namespace Paged

/-- The address behind `a`, in pages of `p` cells. -/
def next (p a : Nat) : Nat := a / p * p + (a + 1) % p

/-- The bytes `l`, written from address `a` on. -/
def write (p : Nat) : Mem → Nat → List UInt8 → Mem
  | m, _, [] => m
  | m, a, b :: l => write p (m.write a [b]) (next p a) l

/-- Where byte `k` of a write from `a` on goes. -/
def cell (p a k : Nat) : Nat := a / p * p + (a + k) % p

variable {p a i k : Nat} {m : Mem} {l : List UInt8}

theorem cell_zero (p a : Nat) : cell p a 0 = a := by
  rw [cell, Nat.add_zero, Nat.mul_comm, Nat.div_add_mod]

theorem cell_next (hp : 0 < p) (a k : Nat) : cell p (next p a) k = cell p a (k + 1) := by
  have hdiv : next p a / p = a / p := by
    rw [next, Nat.mul_comm, Nat.mul_add_div hp, Nat.div_eq_of_lt (Nat.mod_lt _ hp), Nat.add_zero]
  have hmod : (next p a + k) % p = (a + (k + 1)) % p := by
    rw [next, Nat.add_assoc, Nat.mul_comm, Nat.mul_add_mod, Nat.mod_add_mod, Nat.add_assoc,
      Nat.add_comm 1 k]
  rw [cell, hdiv, hmod, cell]

/-- Inside the page the bytes go to the addresses in turn. -/
theorem cell_of_fits (h : a % p + k < p) : cell p a k = a + k := by
  have hmod : (a + k) % p = a % p + k := by
    rw [← Nat.mod_add_mod, Nat.mod_eq_of_lt h]
  rw [cell, hmod, ← Nat.add_assoc, Nat.mul_comm, Nat.div_add_mod]

/-- All cells are in the page of `a`. -/
theorem cell_bounds (hp : 0 < p) (a k : Nat) :
    a / p * p ≤ cell p a k ∧ cell p a k < a / p * p + p :=
  ⟨Nat.le_add_right _ _, Nat.add_lt_add_left (Nat.mod_lt _ hp) _⟩

/-- Two bytes of a write go to one cell if their distance is a number of pages. -/
theorem cell_eq_iff {j : Nat} : cell p a j = cell p a k ↔ j % p = k % p := by
  rw [cell, cell, Nat.add_left_cancel_iff]
  exact ⟨fun h => Nat.ModEq.add_left_cancel' a h, fun h => Nat.ModEq.add_left a h⟩

/-! ## What a write leaves -/

/-- A cell that no byte goes to is left alone. -/
theorem write_apply_of_ne (hp : 0 < p) (h : ∀ k < l.length, cell p a k ≠ i) :
    write p m a l i = m i := by
  induction l generalizing m a with
  | nil => rfl
  | cons b l ih =>
    have hne : a ≠ i := by
      rw [← cell_zero p a]
      exact h 0 (Nat.succ_pos _)
    rw [write, ih fun k hk => ?_]
    · exact if_neg (by rw [List.length_singleton]; omega)
    · rw [cell_next hp]
      exact h (k + 1) (Nat.succ_lt_succ hk)

/-- The last byte that goes to a cell stays there. -/
theorem write_apply_cell (hp : 0 < p) (hk : k < l.length) (hlast : l.length ≤ k + p) :
    write p m a l (cell p a k) = l.getD k 0 := by
  induction l generalizing m a k with
  | nil => cases hk
  | cons b l ih =>
    rw [List.length_cons] at hk hlast
    cases k with
    | zero =>
      rw [write, write_apply_of_ne hp fun j hj => ?_]
      · rw [cell_zero]
        exact Mem.write_apply (i := 0) (l := [b]) Nat.zero_lt_one
      · rw [cell_next hp, ne_eq, cell_eq_iff, Nat.zero_mod, Nat.mod_eq_of_lt (by omega)]
        exact Nat.succ_ne_zero j
    | succ k =>
      rw [write, ← cell_next hp, ih (by omega) (by omega), List.getD_cons_succ]

/-- Some byte is the last one to go to a cell that any byte goes to. -/
theorem exists_last (hp : 0 < p) (hk : k < l.length) :
    ∃ j < l.length, l.length ≤ j + p ∧ cell p a j = cell p a k := by
  have hmod := Nat.div_add_mod (l.length - 1 - k) p
  have hlt := Nat.mod_lt (l.length - 1 - k) hp
  refine ⟨k + p * ((l.length - 1 - k) / p), by omega, by omega, ?_⟩
  rw [cell_eq_iff, Nat.add_mul_mod_self_left]

/-- **An ordinary write.** The bytes that should go behind the page are there already, and those
that stay in it instead find in their cells what should be there. -/
theorem write_eq_iff (hp : 0 < p) : write p m a l = m.write a l ↔
    ∀ k < l.length, p ≤ a % p + k → m (a + k) = l.getD k 0 ∧
      (l.length ≤ k + p → m.write a l (cell p a k) = l.getD k 0) := by
  constructor
  · intro h k hk hpage
    constructor
    · have hout : ∀ j < l.length, cell p a j ≠ a + k := by
        intro j _ hj
        have hlt := (cell_bounds hp a j).2
        have hdiv := Nat.div_add_mod a p
        rw [Nat.mul_comm] at hdiv
        omega
      rw [← Mem.write_apply (m := m) hk, ← h, write_apply_of_ne hp hout]
    · intro hlast
      rw [← h, write_apply_cell hp hk hlast]
  · intro h
    funext i
    by_cases hex : ∃ k < l.length, cell p a k = i
    · obtain ⟨k, hk, rfl⟩ := hex
      obtain ⟨j, hj, hlast, hcell⟩ := exists_last (a := a) hp hk
      rw [← hcell, write_apply_cell hp hj hlast]
      rcases Nat.lt_or_ge (a % p + j) p with hfit | hpage
      · rw [cell_of_fits hfit, Mem.write_apply hj]
      · exact ((h j hj hpage).2 hlast).symm
    · have hnone : ∀ k < l.length, cell p a k ≠ i := fun k hk he => hex ⟨k, hk, he⟩
      rw [write_apply_of_ne hp hnone]
      by_cases hi : a ≤ i ∧ i < a + l.length
      · obtain ⟨k, rfl⟩ := Nat.exists_eq_add_of_le hi.1
        have hk : k < l.length := by omega
        have hpage : p ≤ a % p + k := by
          by_contra hfit
          exact hnone k hk (cell_of_fits (by omega))
        rw [Mem.write_apply hk, (h k hk hpage).1]
      · exact (if_neg hi).symm

/-- A write that stays in its page is an ordinary one. -/
theorem write_of_fits (hp : 0 < p) (h : a % p + l.length ≤ p) : write p m a l = m.write a l :=
  (write_eq_iff hp).2 fun k hk hpage => by omega

end Paged
