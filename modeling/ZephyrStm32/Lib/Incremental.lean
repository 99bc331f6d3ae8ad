import Mathlib.Data.List.Basic
import Mathlib.Tactic
import ZephyrStm32.Lib.Run

/-!
# Scanning a stream that arrives in pieces

A `Rule` looks at the symbols it has and either waits for more or gives an item (or nothing) and
the number of symbols to drop. It may not revise what it decided when more symbols arrive
(`stable`).

* `SameItems`: buffers that are as good as each other, whatever arrives.
* `Decodes.flatten_outputs`: a decoder that keeps a buffer as good as what the scan leaves gives the
  items of the scan, however the stream is cut.
-/

namespace Incremental

open Machine

/-- What to do with the symbols at hand: wait (`none`), or drop some of them, with or without an
item. -/
structure Rule (β α : Type) where
  next : List β → Option (Option α × Nat)
  pos : ∀ {b a n}, next b = some (a, n) → 0 < n
  le : ∀ {b a n}, next b = some (a, n) → n ≤ b.length
  stable : ∀ {b r} (c : List β), next b = some r → next (b ++ c) = some r

namespace Rule

variable {β α : Type} (R : Rule β α)

/-- A number of rounds: the items, and the symbols left. -/
def scanFor : Nat → List β → List α × List β
  | 0, b => ([], b)
  | rounds + 1, b =>
    match R.next b with
    | none => ([], b)
    | some (a, n) =>
      let rest := scanFor rounds (b.drop n)
      (a.toList ++ rest.1, rest.2)

/-- Every round but the last drops a symbol, so there are enough of them. -/
def scan (b : List β) : List α × List β := R.scanFor b.length b

variable {R} {b : List β} {a : Option α} {n : Nat}

theorem scanFor_none (h : R.next b = none) (rounds : Nat) : R.scanFor rounds b = ([], b) := by
  cases rounds with
  | zero => rfl
  | succ rounds => rw [scanFor, h]

theorem scanFor_enough {rounds rounds' : Nat} (h : b.length ≤ rounds) (h' : b.length ≤ rounds') :
    R.scanFor rounds b = R.scanFor rounds' b := by
  induction rounds generalizing b rounds' with
  | zero =>
    cases hn : R.next b with
    | none => rw [scanFor_none hn, scanFor_none hn]
    | some r =>
      have := R.pos hn
      have := R.le hn
      omega
  | succ rounds ih =>
    cases hn : R.next b with
    | none => rw [scanFor_none hn, scanFor_none hn]
    | some r =>
      have hpos := R.pos hn
      have hle := R.le hn
      obtain ⟨rounds', rfl⟩ := Nat.exists_eq_succ_of_ne_zero (by omega : rounds' ≠ 0)
      have hdrop : (b.drop r.2).length = b.length - r.2 := List.length_drop
      rw [scanFor, scanFor, hn]
      dsimp only
      rw [ih (by omega) (by omega : (b.drop r.2).length ≤ rounds')]

theorem scan_none (h : R.next b = none) : R.scan b = ([], b) := scanFor_none h _

theorem scan_some (h : R.next b = some (a, n)) :
    R.scan b = (a.toList ++ (R.scan (b.drop n)).1, (R.scan (b.drop n)).2) := by
  have hpos := R.pos h
  have hle := R.le h
  obtain ⟨k, hk⟩ := Nat.exists_eq_succ_of_ne_zero (by omega : b.length ≠ 0)
  have hdrop : (b.drop n).length = b.length - n := List.length_drop
  have hrest : R.scanFor k (b.drop n) = R.scan (b.drop n) :=
    scanFor_enough (by omega) le_rfl
  rw [scan, hk, Nat.succ_eq_add_one, scanFor, h]
  dsimp only
  rw [hrest]

/-- A round in front of more symbols. -/
theorem scan_append_some (h : R.next b = some (a, n)) (c : List β) :
    (R.scan (b ++ c)).1 = a.toList ++ (R.scan (b.drop n ++ c)).1 := by
  rw [scan_some (R.stable c h), List.drop_append_of_le_length (R.le h)]

end Rule

/-! ## Buffers that are as good as a stream -/

variable {β α : Type} (R : Rule β α)

/-- Whatever arrives, scanning it behind `b` or behind `b'` gives the same items. -/
def SameItems (b b' : List β) : Prop := ∀ c, (R.scan (b ++ c)).1 = (R.scan (b' ++ c)).1

variable {R}

theorem SameItems.refl (b : List β) : SameItems R b b := fun _ => rfl

/-! ## Decoders -/

/-- A decoder takes symbols piece by piece and keeps a buffer: it gives the items that the scan of
its buffer and of the new symbols adds, and what it keeps is as good as what the scan leaves. -/
structure Decodes {σ : Type} (R : Rule β α) (feed : σ → List β → List α × σ) (buf : σ → List β)
    (Inv : σ → Prop) : Prop where
  inv : ∀ {s}, Inv s → ∀ c, Inv (feed s c).2
  waits : ∀ {s}, Inv s → R.next (buf s) = none
  items : ∀ {s}, Inv s → ∀ c c', (R.scan (buf s ++ c ++ c')).1 =
    (feed s c).1 ++ (R.scan (buf (feed s c).2 ++ c')).1

section

variable {σ : Type} {feed : σ → List β → List α × σ} {buf : σ → List β} {Inv : σ → Prop} {s : σ}

theorem Decodes.items_append (h : Decodes R feed buf Inv) (hs : Inv s) (cs : List (List β))
    (c : List β) : (R.scan (buf s ++ cs.flatten ++ c)).1 =
      (outputs feed s cs).flatten ++ (R.scan (buf (final feed s cs) ++ c)).1 := by
  induction cs generalizing s with
  | nil => rw [List.flatten_nil, List.append_nil]; rfl
  | cons c₀ cs ih =>
    have h₀ := h.items hs c₀ (cs.flatten ++ c)
    rw [← List.append_assoc, ← List.append_assoc, ih (h.inv hs c₀)] at h₀
    rw [List.flatten_cons, ← List.append_assoc, h₀, outputs_cons, List.flatten_cons, final_cons,
      List.append_assoc]

theorem Decodes.inv_final (h : Decodes R feed buf Inv) (hs : Inv s) (cs : List (List β)) :
    Inv (final feed s cs) := by
  induction cs generalizing s with
  | nil => exact hs
  | cons c cs ih => exact ih (h.inv hs c)

/-- **Pieces do not matter.** However a stream is cut, a decoder gives the items of its scan. -/
theorem Decodes.flatten_outputs (h : Decodes R feed buf Inv) (hs : Inv s) (cs : List (List β)) :
    (outputs feed s cs).flatten = (R.scan (buf s ++ cs.flatten)).1 := by
  have hall := h.items_append hs cs []
  rw [List.append_nil, List.append_nil, Rule.scan_none (h.waits (h.inv_final hs cs)),
    List.append_nil] at hall
  exact hall.symm

end

end Incremental
