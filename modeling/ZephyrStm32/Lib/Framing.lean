import Mathlib.Data.List.Basic
import Mathlib.Tactic

/-!
# A stream cut at the ends of its items

A stream is the concatenation of encoded items; of it the first `n` elements have arrived.
`complete` counts the items that arrived whole and `consumed` their elements, so that what follows
them is the beginning of the next item (`eq_complete_append`). Both add up over two parts of the
stream (`complete_append`, `consumed_append`).
-/

namespace Framing

variable {α : Type}

/-- How many leading items lie within the first `n` elements. -/
def complete : List (List α) → Nat → Nat
  | [], _ => 0
  | e :: es, n => if e.length ≤ n then complete es (n - e.length) + 1 else 0

/-- The elements of these items. -/
def consumed : List (List α) → Nat → Nat
  | [], _ => 0
  | e :: es, n => if e.length ≤ n then e.length + consumed es (n - e.length) else 0

section

variable {e : List α} {es : List (List α)} {n : Nat}

theorem complete_cons_of_le (h : e.length ≤ n) :
    complete (e :: es) n = complete es (n - e.length) + 1 := if_pos h

theorem complete_cons_of_lt (h : n < e.length) : complete (e :: es) n = 0 :=
  if_neg (Nat.not_le.2 h)

theorem consumed_cons_of_le (h : e.length ≤ n) :
    consumed (e :: es) n = e.length + consumed es (n - e.length) := if_pos h

theorem consumed_cons_of_lt (h : n < e.length) : consumed (e :: es) n = 0 :=
  if_neg (Nat.not_le.2 h)

end

theorem complete_le_length (es : List (List α)) (n : Nat) : complete es n ≤ es.length := by
  induction es generalizing n with
  | nil => exact le_rfl
  | cons e es ih =>
    rcases Nat.lt_or_ge n e.length with h | h
    · rw [complete_cons_of_lt h]
      exact Nat.zero_le _
    · rw [complete_cons_of_le h, List.length_cons]
      exact Nat.succ_le_succ (ih _)

/-- Once the first part of the stream has arrived, counting goes on in the second. -/
theorem complete_append (done todo : List (List α)) (n : Nat) :
    complete (done ++ todo) (done.flatten.length + n) = done.length + complete todo n := by
  induction done with
  | nil => simp
  | cons e done ih =>
    rw [List.cons_append, List.flatten_cons, List.length_append,
      complete_cons_of_le (by omega),
      show e.length + done.flatten.length + n - e.length = done.flatten.length + n by omega, ih,
      List.length_cons]
    omega

theorem consumed_append (done todo : List (List α)) (n : Nat) :
    consumed (done ++ todo) (done.flatten.length + n) =
      done.flatten.length + consumed todo n := by
  induction done with
  | nil => simp
  | cons e done ih =>
    rw [List.cons_append, List.flatten_cons, List.length_append,
      consumed_cons_of_le (by omega),
      show e.length + done.flatten.length + n - e.length = done.flatten.length + n by omega, ih]
    omega

/-- Behind the first items of a stream the others follow. -/
theorem prefix_drop {es : List (List α)} {j : Nat} {q : List α}
    (h : (es.take j).flatten ++ q <+: es.flatten) : q <+: (es.drop j).flatten := by
  have hes : es.flatten = (es.take j).flatten ++ (es.drop j).flatten := by
    rw [← List.flatten_append, List.take_append_drop]
  rwa [hes, List.prefix_append_right_inj] at h

/-- `r` is the beginning of item `k`, which is not whole, or nothing behind the last item. -/
def BeginsItem (es : List (List α)) (k : Nat) (r : List α) : Prop :=
  match es[k]? with
  | some e => r <+: e ∧ r.length < e.length
  | none => r = []

/-- What the first elements of a stream are: the complete items, and the beginning of the next
one, if there is one. -/
theorem eq_complete_append {es : List (List α)} {p : List α} (hp : p <+: es.flatten) :
    p = (es.take (complete es p.length)).flatten ++ p.drop (consumed es p.length) ∧
      BeginsItem es (complete es p.length) (p.drop (consumed es p.length)) := by
  induction es generalizing p with
  | nil =>
    rw [List.flatten_nil, List.prefix_nil] at hp
    subst hp
    exact ⟨rfl, rfl⟩
  | cons e es ih =>
    rw [List.flatten_cons] at hp
    rcases Nat.lt_or_ge p.length e.length with h | h
    · rw [complete_cons_of_lt h, consumed_cons_of_lt h]
      exact ⟨rfl, List.prefix_of_prefix_length_le hp (List.prefix_append e _) h.le, h⟩
    · obtain ⟨p', rfl⟩ := List.prefix_of_prefix_length_le (List.prefix_append e _) hp h
      obtain ⟨heq, hnext⟩ := ih ((List.prefix_append_right_inj e).1 hp)
      have hlen : (e ++ p').length - e.length = p'.length := by simp
      rw [complete_cons_of_le h, consumed_cons_of_le h, hlen, List.take_succ_cons, BeginsItem,
        List.getElem?_cons_succ, List.drop_append, List.drop_eq_nil_of_le (by omega),
        Nat.add_sub_cancel_left, List.nil_append, List.flatten_cons, List.append_assoc, ← heq]
      exact ⟨rfl, hnext⟩

end Framing
