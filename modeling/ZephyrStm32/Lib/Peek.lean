import ZephyrStm32.Lib.Bytes
import ZephyrStm32.Lib.Interact

/-!
# Programs that read a memory byte by byte

A program of this kind sees of a memory only the bytes it asks for, so the indices it asks for
(`reads`) are all that its result (`value`) depends on. `Below` bounds them; its rules follow the
structure of the program.
-/

open Interact in
/-- A program that asks for the bytes at indices of its choice. -/
abbrev Peek (ε α : Type) : Type := Interact Nat (fun _ => UInt8) ε α

namespace Peek

variable {ε α β : Type}

/-- `m[i]`. -/
def byte (i : Nat) : Peek ε UInt8 := Interact.question i

/-- The little-endian word at `m[off]`. -/
def u16 (off : Nat) : Peek ε UInt16 := do
  let b₀ ← byte off
  let b₁ ← byte (off + 1)
  return Bytes.u16le b₀ b₁

/-- The bytes `m[off .. off + n)`. -/
def bytes (off : Nat) : Nat → Peek ε (List UInt8)
  | 0 => pure []
  | n + 1 => do
    let b ← byte off
    let bs ← bytes (off + 1) n
    return b :: bs

/-- The environment that answers from a memory. -/
def memory (m : Mem) : Interact.Env Nat (fun _ => UInt8) Unit := fun _ i => (m i, ())

/-- What a program gives over a memory. -/
def value (m : Mem) (p : Peek ε α) : Except ε α := (p.run (memory m) ()).1

/-- The indices it asks for, in order. -/
def reads (m : Mem) (p : Peek ε α) : List Nat := (p.run (memory m) ()).2.map Asked.op

/-- All of them are below `n`. -/
def Below (m : Mem) (n : Nat) (p : Peek ε α) : Prop := ∀ i ∈ reads m p, i < n

instance (m : Mem) (n : Nat) (p : Peek ε α) : Decidable (Below m n p) :=
  inferInstanceAs (Decidable (∀ i ∈ _, _))

variable {m : Mem} {n : Nat} {p : Peek ε α} {f : α → Peek ε β}

/-! ## The result -/

@[simp] theorem value_pure (a : α) : value m (pure a : Peek ε α) = .ok a := rfl

@[simp] theorem value_fail (e : ε) : value m (.fail e : Peek ε α) = .error e := rfl

@[simp] theorem value_byte (i : Nat) : value m (byte i : Peek ε UInt8) = .ok (m i) := rfl

@[simp] theorem value_bind : value m (p >>= f) = (value m p).bind fun a => value m (f a) := by
  change value m (p.bind f) = _
  induction p with
  | done a => rfl
  | fail e => rfl
  | ask i next ih => exact ih (m i)

@[simp] theorem value_u16 (off : Nat) : value m (u16 off : Peek ε UInt16) = .ok (m.u16 off) := rfl

@[simp] theorem value_bytes (off n : Nat) :
    value m (bytes off n : Peek ε (List UInt8)) = .ok (m.slice off n) := by
  induction n generalizing off with
  | zero => rfl
  | succ n ih =>
    rw [bytes, value_bind, value_byte, Except.bind, value_bind, ih, Nat.add_comm n 1,
      Mem.slice_add]
    rfl

/-! ## The reads -/

@[simp] theorem below_pure (a : α) : Below m n (pure a : Peek ε α) := by
  intro i hi
  cases hi

@[simp] theorem below_fail (e : ε) : Below m n (.fail e : Peek ε α) := by
  intro i hi
  cases hi

@[simp] theorem below_byte (i : Nat) : Below m n (byte i : Peek ε UInt8) ↔ i < n := by
  simp [Below, reads, byte, Interact.question, Interact.run]

@[simp] theorem below_ask {i : Nat} {next : UInt8 → Peek ε α} :
    Below m n (.ask i next) ↔ i < n ∧ Below m n (next (m i)) := List.forall_mem_cons

/-- The sequencing rule: the second part counts where the first gives a value. -/
@[simp] theorem below_bind :
    Below m n (p >>= f) ↔ Below m n p ∧ ∀ a, value m p = .ok a → Below m n (f a) := by
  change Below m n (p.bind f) ↔ _
  induction p with
  | done a =>
    constructor
    · intro h
      refine ⟨below_pure a, fun b hb => ?_⟩
      cases hb
      exact h
    · exact fun h => h.2 a rfl
  | fail e => exact ⟨fun _ => ⟨below_fail e, fun _ h => nomatch h⟩, fun _ => below_fail e⟩
  | ask i next ih =>
    change Below m n (.ask i fun x => (next x).bind f) ↔ _
    rw [below_ask, below_ask, ih (m i), and_assoc]
    exact Iff.rfl

@[simp] theorem below_u16 (off : Nat) : Below m n (u16 off : Peek ε UInt16) ↔ off + 1 < n := by
  simp only [u16, below_bind, below_byte, below_pure, value_byte]
  constructor
  · exact fun h => (h.2 _ rfl).1
  · exact fun h => ⟨by omega, fun _ _ => ⟨h, fun _ _ => trivial⟩⟩

@[simp] theorem below_bytes (off k : Nat) :
    Below m n (bytes off k : Peek ε (List UInt8)) ↔ k = 0 ∨ off + k ≤ n := by
  induction k generalizing off with
  | zero => simp [bytes]
  | succ k ih =>
    simp only [bytes, below_bind, below_byte, below_pure, value_byte, ih]
    constructor
    · rintro ⟨hoff, h⟩
      have := (h _ rfl).1
      omega
    · intro h
      exact ⟨by omega, fun _ _ => ⟨by omega, fun _ _ => trivial⟩⟩

/-! ## Memories that agree where a program reads -/

theorem below_congr {m' : Mem} (h : ∀ i < n, m' i = m i) (hp : Below m n p) : Below m' n p := by
  induction p with
  | done a => exact below_pure a
  | fail e => exact below_fail e
  | ask i next ih =>
    obtain ⟨hi, hnext⟩ := below_ask.1 hp
    rw [below_ask, h i hi]
    exact ⟨hi, ih _ hnext⟩

/-- A program gives the same over memories that agree where it reads. -/
theorem value_congr {m' : Mem} (h : ∀ i < n, m' i = m i) (hp : Below m n p) :
    value m' p = value m p := by
  induction p with
  | done a => rfl
  | fail e => rfl
  | ask i next ih =>
    obtain ⟨hi, hnext⟩ := below_ask.1 hp
    change value m' (next (m' i)) = value m (next (m i))
    rw [h i hi]
    exact ih _ hnext

end Peek
