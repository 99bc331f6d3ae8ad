import Mathlib.Data.List.Basic
import Mathlib.Tactic

/-!
# The reflected CRC-32 and its streaming form

The checksum is a fold over the bytes between two complements, so an update that starts from the
checksum of `a` and runs over `b` gives the checksum of `a ++ b` (`streaming_update`). Every
update function with that law (`Streaming`) gives the same value however its input is cut into
pieces (`Streaming.inPieces_eq`).
-/

namespace Crc32

def polynomial : UInt32 := 0xEDB88320

def bitStep (c : UInt32) : UInt32 := if c &&& 1 = 1 then (c >>> 1) ^^^ polynomial else c >>> 1

def byteStep (c : UInt32) (b : UInt8) : UInt32 := bitStep^[8] (c ^^^ b.toUInt32)

/-- Continue the checksum `c` over `l`. -/
def update (c : UInt32) (l : List UInt8) : UInt32 := ~~~ (l.foldl byteStep (~~~ c))

/-- The checksum of `l`. -/
def hash (l : List UInt8) : UInt32 := update 0 l

/-- An update function that may be fed its input in pieces. -/
structure Streaming (upd : UInt32 → List UInt8 → UInt32) : Prop where
  nil : ∀ c, upd c [] = c
  append : ∀ c a b, upd (upd c a) b = upd c (a ++ b)

theorem streaming_update : Streaming update where
  nil c := by simp [update]
  append c a b := by simp [update, List.foldl_append]

@[simp] theorem hash_nil : hash [] = 0 := streaming_update.nil 0

theorem update_hash (a b : List UInt8) : update (hash a) b = hash (a ++ b) :=
  streaming_update.append 0 a b

/-- The check value of the algorithm's catalogue entry: the checksum of `"123456789"`. -/
example : hash [0x31, 0x32, 0x33, 0x34, 0x35, 0x36, 0x37, 0x38, 0x39] = 0xCBF43926 := by
  decide +kernel

/-! ## Feeding an update in pieces -/

/-- Feed `l` to `upd` in pieces of `k` bytes, the last one shorter. -/
def inPieces (upd : UInt32 → List UInt8 → UInt32) (k : Nat) (c : UInt32) (l : List UInt8) :
    UInt32 :=
  if l = [] ∨ k = 0 then c else inPieces upd k (upd c (l.take k)) (l.drop k)
termination_by l.length
decreasing_by
  rename_i h
  rw [not_or, ← List.length_eq_zero_iff] at h
  simp only [List.length_drop]
  omega

variable {upd : UInt32 → List UInt8 → UInt32} {k : Nat}

@[simp] theorem inPieces_nil (c : UInt32) : inPieces upd k c [] = c := by
  rw [inPieces, if_pos (Or.inl rfl)]

theorem inPieces_cons {c : UInt32} {l : List UInt8} (hk : 0 < k) (hl : l ≠ []) :
    inPieces upd k c l = inPieces upd k (upd c (l.take k)) (l.drop k) := by
  rw [inPieces, if_neg (by simp only [hl, false_or]; omega)]

/-- Cutting the input does not matter to a streaming update. -/
theorem Streaming.inPieces_eq (h : Streaming upd) (hk : 0 < k) (c : UInt32) (l : List UInt8) :
    inPieces upd k c l = upd c l := by
  induction hn : l.length using Nat.strong_induction_on generalizing c l with
  | _ n ih =>
    by_cases hl : l = []
    · rw [hl, inPieces_nil, h.nil]
    · have hpos : 0 < l.length := List.length_pos_of_ne_nil hl
      have hlt : (l.drop k).length < n := by
        simp only [List.length_drop]
        omega
      rw [inPieces_cons hk hl, ih _ hlt _ _ rfl, h.append, List.take_append_drop]

end Crc32
