import Mathlib.Data.List.Basic
import Mathlib.Tactic

/-!
# Bytes, little-endian words and byte memories

Two views of a run of bytes are used side by side: a `List UInt8`, for what travels on a wire,
and a `Mem`, the memory seen from a pointer, for what a C program indexes.

* `u16le`, `u32le`, `le16`, `le32`: little-endian words and their bytes, inverse to each other.
* `Mem.slice`: the bytes `m[off .. off + n)`, with its laws under writes, moves and fills.
-/

namespace Bytes

/-! ## Little-endian words -/

def u16le (b₀ b₁ : UInt8) : UInt16 := b₀.toUInt16 + b₁.toUInt16 * 256

def u32le (b₀ b₁ b₂ b₃ : UInt8) : UInt32 :=
  b₀.toUInt32 + b₁.toUInt32 * 256 + b₂.toUInt32 * 65536 + b₃.toUInt32 * 16777216

def le16 (w : UInt16) : List UInt8 := [w.toUInt8, (w >>> 8).toUInt8]

def le32 (w : UInt32) : List UInt8 :=
  [w.toUInt8, (w >>> 8).toUInt8, (w >>> 16).toUInt8, (w >>> 24).toUInt8]

@[simp] theorem length_le16 (w : UInt16) : (le16 w).length = 2 := rfl

@[simp] theorem length_le32 (w : UInt32) : (le32 w).length = 4 := rfl

theorem toNat_u16le (b₀ b₁ : UInt8) : (u16le b₀ b₁).toNat = b₀.toNat + 256 * b₁.toNat := by
  have h₀ := b₀.toNat_lt
  have h₁ := b₁.toNat_lt
  simp only [u16le, UInt16.toNat_add, UInt16.toNat_mul, UInt8.toNat_toUInt16, UInt16.reduceToNat]
  omega

theorem toNat_u32le (b₀ b₁ b₂ b₃ : UInt8) : (u32le b₀ b₁ b₂ b₃).toNat =
    b₀.toNat + 256 * b₁.toNat + 65536 * b₂.toNat + 16777216 * b₃.toNat := by
  have h₀ := b₀.toNat_lt
  have h₁ := b₁.toNat_lt
  have h₂ := b₂.toNat_lt
  have h₃ := b₃.toNat_lt
  simp only [u32le, UInt32.toNat_add, UInt32.toNat_mul, UInt8.toNat_toUInt32, UInt32.reduceToNat]
  omega

@[simp] theorem u16le_le16 (w : UInt16) : u16le w.toUInt8 (w >>> 8).toUInt8 = w := by
  have hw := w.toNat_lt
  apply UInt16.toNat_inj.mp
  simp only [toNat_u16le, UInt16.toNat_toUInt8, UInt16.toNat_shiftRight, UInt16.reduceToNat,
    Nat.shiftRight_eq_div_pow, Nat.reduceMod, Nat.reducePow]
  omega

@[simp] theorem u32le_le32 (w : UInt32) :
    u32le w.toUInt8 (w >>> 8).toUInt8 (w >>> 16).toUInt8 (w >>> 24).toUInt8 = w := by
  have hw := w.toNat_lt
  apply UInt32.toNat_inj.mp
  simp only [toNat_u32le, UInt32.toNat_toUInt8, UInt32.toNat_shiftRight, UInt32.reduceToNat,
    Nat.shiftRight_eq_div_pow, Nat.reduceMod, Nat.reducePow]
  omega

theorem le32_injective : Function.Injective le32 := by
  intro w w' h
  simp only [le32, List.cons.injEq, and_true] at h
  rw [← u32le_le32 w, h.1, h.2.1, h.2.2.1, h.2.2.2, u32le_le32]

@[simp] theorem le16_u16le (b₀ b₁ : UInt8) : le16 (u16le b₀ b₁) = [b₀, b₁] := by
  have h₀ := b₀.toNat_lt
  have h₁ := b₁.toNat_lt
  simp only [le16, List.cons.injEq, and_true, ← UInt8.toNat_inj, UInt16.toNat_toUInt8,
    UInt16.toNat_shiftRight, UInt16.reduceToNat, Nat.shiftRight_eq_div_pow, Nat.reduceMod,
    Nat.reducePow, toNat_u16le]
  omega

/-- Four bytes are read off their word. -/
theorem u32le_inj {a b c d a' b' c' d' : UInt8} :
    u32le a b c d = u32le a' b' c' d' ↔ a = a' ∧ b = b' ∧ c = c' ∧ d = d' := by
  constructor
  · intro h
    have h := congrArg UInt32.toNat h
    have := a.toNat_lt
    have := b.toNat_lt
    have := c.toNat_lt
    have := a'.toNat_lt
    have := b'.toNat_lt
    have := c'.toNat_lt
    simp only [toNat_u32le] at h
    simp only [← UInt8.toNat_inj]
    omega
  · rintro ⟨rfl, rfl, rfl, rfl⟩
    rfl

end Bytes

/-! ## Memories -/

/-- The memory seen from a pointer. -/
abbrev Mem := Nat → UInt8

namespace Mem

/-- The bytes `m[off .. off + n)`. -/
def slice (m : Mem) (off n : Nat) : List UInt8 := (List.range n).map fun i => m (off + i)

/-- The memory holding `l` from its first byte on, and zeros after it. -/
def ofList (l : List UInt8) : Mem := fun i => l.getD i 0

/-- `memcpy(&m[off], l, |l|)`. -/
def write (m : Mem) (off : Nat) (l : List UInt8) : Mem := fun i =>
  if off ≤ i ∧ i < off + l.length then l.getD (i - off) 0 else m i

/-- `memset(&m[off], b, n)`. -/
def fill (m : Mem) (off n : Nat) (b : UInt8) : Mem := fun i =>
  if off ≤ i ∧ i < off + n then b else m i

/-- The pointer `&m[off]`. -/
def at_ (m : Mem) (off : Nat) : Mem := fun i => m (off + i)

def u16 (m : Mem) (off : Nat) : UInt16 := Bytes.u16le (m off) (m (off + 1))

def u32 (m : Mem) (off : Nat) : UInt32 :=
  Bytes.u32le (m off) (m (off + 1)) (m (off + 2)) (m (off + 3))

@[simp] theorem length_slice (m : Mem) (off n : Nat) : (m.slice off n).length = n := by
  simp [slice]

@[simp] theorem slice_zero (m : Mem) (off : Nat) : m.slice off 0 = [] := rfl

@[simp] theorem at_apply (m : Mem) (off i : Nat) : m.at_ off i = m (off + i) := rfl

theorem getElem_slice (m : Mem) (off n i : Nat) (h : i < (m.slice off n).length) :
    (m.slice off n)[i] = m (off + i) := by
  simp [slice]

theorem getElem?_slice (m : Mem) {off n i : Nat} (h : i < n) :
    (m.slice off n)[i]? = some (m (off + i)) := by
  simp [slice, List.getElem?_range h]

theorem slice_add (m : Mem) (off a b : Nat) :
    m.slice off (a + b) = m.slice off a ++ m.slice (off + a) b := by
  simp only [slice, List.range_add, List.map_append, List.map_map]
  congr 1
  exact List.map_congr_left fun i _ => by simp [Nat.add_assoc]

theorem slice_at (m : Mem) (p off n : Nat) : (m.at_ p).slice off n = m.slice (p + off) n := by
  simp [slice, Nat.add_assoc]

theorem slice_congr {m m' : Mem} {off off' n : Nat}
    (h : ∀ i < n, m (off + i) = m' (off' + i)) : m.slice off n = m'.slice off' n :=
  List.map_congr_left fun i hi => h i (List.mem_range.1 hi)

/-- Two slices agree exactly when their bytes do. -/
theorem slice_eq_slice_iff {m m' : Mem} {off off' n : Nat} :
    m.slice off n = m'.slice off' n ↔ ∀ i < n, m (off + i) = m' (off' + i) := by
  refine ⟨fun h i hi => ?_, slice_congr⟩
  have := congrArg (·[i]?) h
  simpa only [getElem?_slice _ hi, Option.some.injEq] using this

theorem slice_eq_iff {m : Mem} {off n : Nat} {l : List UInt8} (hn : l.length = n) :
    m.slice off n = l ↔ ∀ i < n, m (off + i) = l.getD i 0 := by
  subst hn
  constructor
  · intro h i hi
    have := congrArg (·.getD i 0) h
    simpa [List.getD_eq_getElem?_getD, getElem?_slice _ hi] using this
  · intro h
    apply List.ext_getElem (by simp)
    intro i h₁ h₂
    rw [getElem_slice, h i h₂]
    simp [h₂]

theorem slice_ofList (l : List UInt8) : (ofList l).slice 0 l.length = l :=
  (slice_eq_iff rfl).2 fun i _ => by simp [ofList]

/-- A slice, put into a memory of its own. -/
theorem ofList_slice (m : Mem) (off : Nat) {n i : Nat} (h : i < n) :
    ofList (m.slice off n) i = m (off + i) := by
  simp [ofList, getElem?_slice _ h]

theorem ofList_append_left {a b : List UInt8} {i : Nat} (h : i < a.length) :
    ofList (a ++ b) i = ofList a i := by
  simp [ofList, List.getElem?_append_left h]

theorem ofList_append_right (a b : List UInt8) (i : Nat) :
    ofList (a ++ b) (a.length + i) = ofList b i := by
  simp [ofList, List.getElem?_append_right]

theorem ofList_take {l : List UInt8} {n i : Nat} (h : i < n) :
    ofList (l.take n) i = ofList l i := by
  simp [ofList, List.getElem?_take_of_lt h]

/-- The middle part of a list in memory. -/
theorem slice_ofList_append (a b c : List UInt8) :
    (ofList (a ++ (b ++ c))).slice a.length b.length = b := by
  apply (slice_eq_iff rfl).2
  intro i hi
  rw [ofList_append_right, ofList_append_left hi]
  rfl

/-- A slice whose bytes are `l` begins with any prefix of `l`. -/
theorem slice_of_append {m : Mem} {off n : Nat} {l r : List UInt8}
    (h : m.slice off n = l ++ r) : m.slice off l.length = l := by
  have hn : n = l.length + r.length := by simpa using congrArg List.length h
  rw [hn, slice_add] at h
  exact (List.append_inj h (by simp)).1

theorem slice_after {m : Mem} {off n : Nat} {l r : List UInt8}
    (h : m.slice off n = l ++ r) : m.slice (off + l.length) r.length = r := by
  have hn : n = l.length + r.length := by simpa using congrArg List.length h
  rw [hn, slice_add] at h
  exact (List.append_inj h (by simp)).2

/-- The word at the front of a slice. -/
theorem u32_of_slice {m : Mem} {off n : Nat} {w : UInt32} {r : List UInt8}
    (h : m.slice off n = Bytes.le32 w ++ r) : m.u32 off = w := by
  have hw := (slice_eq_iff (Bytes.length_le32 w)).1 (slice_of_append h)
  have h₀ := hw 0 (by decide)
  have h₁ := hw 1 (by decide)
  have h₂ := hw 2 (by decide)
  have h₃ := hw 3 (by decide)
  simp only [Bytes.le32, List.getD_cons_zero, List.getD_cons_succ, Nat.add_zero] at h₀ h₁ h₂ h₃
  rw [u32, h₀, h₁, h₂, h₃, Bytes.u32le_le32]

/-- Words are equal when and only when their four bytes are. -/
theorem u32_eq_u32_iff {m m' : Mem} {off off' : Nat} :
    m.u32 off = m'.u32 off' ↔ m.slice off 4 = m'.slice off' 4 := by
  rw [u32, u32, Bytes.u32le_inj, slice_eq_slice_iff]
  constructor
  · rintro ⟨h₀, h₁, h₂, h₃⟩ i hi
    rcases (by omega : i = 0 ∨ i = 1 ∨ i = 2 ∨ i = 3) with rfl | rfl | rfl | rfl
    · exact h₀
    · exact h₁
    · exact h₂
    · exact h₃
  · intro h
    exact ⟨h 0 (by decide), h 1 (by decide), h 2 (by decide), h 3 (by decide)⟩

@[simp] theorem write_nil (m : Mem) (off : Nat) : m.write off [] = m := by
  funext i
  rw [write, if_neg (by simp)]

theorem write_of_lt {m : Mem} {off i : Nat} {l : List UInt8} (h : i < off) :
    m.write off l i = m i := by
  rw [write, if_neg (by omega)]

theorem write_apply {m : Mem} {off i : Nat} {l : List UInt8} (h : i < l.length) :
    m.write off l (off + i) = l.getD i 0 := by
  rw [write, if_pos (by omega), Nat.add_sub_cancel_left]

theorem slice_write (m : Mem) (off : Nat) (l : List UInt8) :
    (m.write off l).slice off l.length = l :=
  (slice_eq_iff rfl).2 fun _ hi => write_apply hi

/-- Writing what is there. -/
theorem write_self {m : Mem} {off : Nat} {l : List UInt8} (h : m.slice off l.length = l) :
    m.write off l = m := by
  funext i
  rw [write]
  split
  · rename_i hi
    have hbyte := (slice_eq_iff rfl).1 h (i - off) (by omega)
    rw [← hbyte, Nat.add_sub_cancel' hi.1]
  · rfl

theorem take_slice (m : Mem) (off n k : Nat) :
    (m.slice off n).take k = m.slice off (min k n) := by
  rw [slice, slice, ← List.map_take, List.take_range]

theorem drop_slice (m : Mem) (off n k : Nat) :
    (m.slice off n).drop k = m.slice (off + k) (n - k) := by
  rcases le_total k n with h | h
  · obtain ⟨j, rfl⟩ := Nat.exists_eq_add_of_le h
    rw [slice_add, List.drop_left' (length_slice m off k), Nat.add_sub_cancel_left]
  · rw [List.drop_eq_nil_of_le (by simpa using h), Nat.sub_eq_zero_of_le h, slice_zero]

/-- Bytes written right after a slice extend it. -/
theorem slice_write_append (m : Mem) (off n : Nat) (l : List UInt8) :
    (m.write (off + n) l).slice off (n + l.length) = m.slice off n ++ l := by
  rw [slice_add, slice_write]
  congr 1
  exact slice_congr fun i hi => write_of_lt (by omega)

/-- A write leaves a slice from the same place as it is exactly when its bytes are those there. -/
theorem slice_write_eq_slice_iff {m : Mem} {off n : Nat} {l : List UInt8} :
    (m.write off l).slice off n = m.slice off n ↔
      ∀ j < n, j < l.length → l.getD j 0 = (m.slice off n).getD j 0 := by
  rw [slice_eq_slice_iff]
  refine forall₂_congr fun j hj => ?_
  have hget : (m.slice off n).getD j 0 = m (off + j) := by
    rw [List.getD_eq_getElem?_getD, getElem?_slice m hj, Option.getD_some]
  rw [hget]
  constructor
  · intro h hl
    rw [← h, write_apply hl]
  · intro h
    by_cases hl : j < l.length
    · rw [write_apply hl, h hl]
    · rw [write, if_neg (by omega)]

end Mem
