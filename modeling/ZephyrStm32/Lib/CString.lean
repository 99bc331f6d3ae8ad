import Mathlib.Tactic

/-!
# Strings in a buffer of characters

A C string is the characters from a place in a buffer up to the first NUL. `StringAt` says which
string is there; `stringAt_written` that a text without NUL is there once it is written with a NUL
behind it. Numbers in `%d` and `%u` have no NUL, and a bounded length.
-/

namespace CString

/-- The buffer holds the text from `i` on, and a NUL behind it. -/
structure StringAt (buffer : Nat → Char) (i : Nat) (text : List Char) : Prop where
  chars : ∀ k (h : k < text.length), buffer (i + k) = text[k]
  nul : buffer (i + text.length) = '\x00'
  noNul : '\x00' ∉ text

theorem StringAt.tail {buffer : Nat → Char} {i : Nat} {ch : Char} {text : List Char}
    (h : StringAt buffer i (ch :: text)) : StringAt buffer (i + 1) text where
  chars k hk := by
    rw [Nat.add_right_comm]
    exact h.chars (k + 1) (by simpa using hk)
  nul := by
    rw [Nat.add_right_comm]
    exact h.nul
  noNul hm := h.noNul (List.mem_cons_of_mem _ hm)

/-- The buffer after the characters are written from `i` on, one by one. -/
def written (buffer : Nat → Char) : Nat → List Char → Nat → Char
  | _, [] => buffer
  | i, ch :: cs => written (Function.update buffer i ch) (i + 1) cs

variable {buffer : Nat → Char} {i k n : Nat} {cs text : List Char}

theorem written_before (hk : k < i) : written buffer i cs k = buffer k := by
  induction cs generalizing buffer i with
  | nil => rfl
  | cons ch cs ih =>
    rw [written, ih (Nat.lt_succ_of_lt hk), Function.update_of_ne hk.ne]

theorem written_at (hk : k < cs.length) : written buffer i cs (i + k) = cs[k] := by
  induction cs generalizing buffer i k with
  | nil => exact absurd hk (Nat.not_lt_zero k)
  | cons ch cs ih =>
    cases k with
    | zero =>
      change written _ (i + 1) cs i = ch
      rw [written_before (Nat.lt_succ_self i), Function.update_self]
    | succ k =>
      rw [written, ← Nat.add_assoc, Nat.add_right_comm]
      exact ih (by simpa using hk)

theorem stringAt_written (h : '\x00' ∉ text) :
    StringAt (written buffer 0 (text ++ ['\x00'])) 0 text where
  chars k hk := by
    rw [written_at (by simp; omega), List.getElem_append_left hk]
  nul := by
    rw [written_at (by simp), List.getElem_append_right le_rfl]
    simp
  noNul := h

/-! ## Numbers -/

theorem nul_not_mem_repr (k : Nat) : '\x00' ∉ k.repr.toList := by
  intro hm
  rw [Nat.toList_repr] at hm
  have hdigit := Nat.isDigit_of_mem_toDigits (by decide) le_rfl hm
  exact absurd hdigit (by decide)

theorem length_repr_le {k : Nat} (hn : 0 < n) (h : k < 10 ^ n) : k.repr.toList.length ≤ n := by
  rw [Nat.toList_repr]
  exact (Nat.length_toDigits_le_iff (by decide) hn).mpr h

/-- `%d` of an `int`: up to ten digits and a sign. -/
theorem toString_int32 (count : Int32) :
    '\x00' ∉ (toString count).toList ∧ (toString count).toList.length ≤ 11 := by
  have hlower := count.le_toInt
  have hupper := count.toInt_lt
  change '\x00' ∉ count.toInt.repr.toList ∧ count.toInt.repr.toList.length ≤ 11
  rw [Int.repr_eq_if]
  by_cases hsign : 0 ≤ count.toInt
  · rw [if_pos hsign]
    exact ⟨nul_not_mem_repr _, (length_repr_le (n := 10) (by decide) (by omega)).trans (by decide)⟩
  · have hdigits := length_repr_le (n := 10) (k := (-count.toInt).toNat) (by decide) (by omega)
    have hnul := nul_not_mem_repr (-count.toInt).toNat
    rw [if_neg hsign, String.toList_append]
    simp only [List.mem_append, List.length_append]
    refine ⟨fun hm => ?_, ?_⟩
    · obtain hm | hm := hm
      · exact absurd hm (by decide)
      · exact hnul hm
    · exact Nat.add_le_add (le_refl 1) hdigits

/-- `%u`: up to ten digits. -/
theorem toString_uint32 (ms : UInt32) :
    '\x00' ∉ (toString ms).toList ∧ (toString ms).toList.length ≤ 10 :=
  ⟨nul_not_mem_repr _, length_repr_le (by decide) (ms.toNat_lt.trans (by decide))⟩

end CString
