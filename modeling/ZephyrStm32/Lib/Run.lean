import Mathlib.Data.List.Basic
import Mathlib.Tactic

/-!
# Runs of a machine, with their history

A machine maps a state and an input to an output and the next state; what its environment decides
is part of the input. A run keeps every step it made, the latest first, so that a statement about
a run can speak of its past (`Run.invariant`), of a condition met at every step
(`Always`, `Run.invariant_of_always`), or of the inputs alone (`exec`).
-/

/-- One step of a run. -/
structure Step (σ ι ο : Type) where
  before : σ
  input : ι
  output : ο
  after : σ

namespace Machine

variable {σ ι ο : Type}

/-- The step a machine makes on an input. -/
def stepOf (m : σ → ι → ο × σ) (s : σ) (i : ι) : Step σ ι ο := ⟨s, i, (m s i).1, (m s i).2⟩

section

variable (m : σ → ι → ο × σ) (s : σ) (i : ι)

@[simp] theorem stepOf_before : (stepOf m s i).before = s := rfl

@[simp] theorem stepOf_input : (stepOf m s i).input = i := rfl

@[simp] theorem stepOf_output : (stepOf m s i).output = (m s i).1 := rfl

@[simp] theorem stepOf_after : (stepOf m s i).after = (m s i).2 := rfl

end

/-- `Run m s₀ h s`: from `s₀` the machine can go to `s` by the steps `h`, the latest first. -/
inductive Run (m : σ → ι → ο × σ) (s₀ : σ) : List (Step σ ι ο) → σ → Prop
  | nil : Run m s₀ [] s₀
  | snoc {h : List (Step σ ι ο)} {s : σ} (i : ι) :
      Run m s₀ h s → Run m s₀ (stepOf m s i :: h) (m s i).2

variable {m : σ → ι → ο × σ} {s₀ s : σ} {h : List (Step σ ι ο)}

/-- **The invariant rule.** What holds at the start and is kept by every step, of the history and
the state together, holds of every run. -/
theorem Run.invariant {P : List (Step σ ι ο) → σ → Prop} (hr : Run m s₀ h s) (h₀ : P [] s₀)
    (hstep : ∀ h s i, Run m s₀ h s → P h s → P (stepOf m s i :: h) (m s i).2) : P h s := by
  induction hr with
  | nil => exact h₀
  | snoc i hr ih => exact hstep _ _ i hr ih

/-- The invariant rule, with what the invariant says about each step. -/
theorem Run.invariant_steps {P : List (Step σ ι ο) → σ → Prop} {Q : Step σ ι ο → Prop}
    (hr : Run m s₀ h s) (h₀ : P [] s₀)
    (hstep : ∀ h s i, P h s → P (stepOf m s i :: h) (m s i).2 ∧ Q (stepOf m s i)) :
    P h s ∧ ∀ st ∈ h, Q st := by
  refine hr.invariant (P := fun h s => P h s ∧ ∀ st ∈ h, Q st)
    ⟨h₀, fun _ hst => absurd hst List.not_mem_nil⟩ ?_
  intro h s i _ hi
  obtain ⟨hP, hQ⟩ := hstep h s i hi.1
  exact ⟨hP, List.forall_mem_cons.mpr ⟨hQ, hi.2⟩⟩

/-! ## Conditions on every step -/

/-- Every step of the history meets `C`, which may also look at the steps before it. -/
def Always (C : List (Step σ ι ο) → Step σ ι ο → Prop) : List (Step σ ι ο) → Prop
  | [] => True
  | st :: h => C h st ∧ Always C h

/-- The invariant rule for runs whose steps all meet a condition. -/
theorem Run.invariant_of_always {C : List (Step σ ι ο) → Step σ ι ο → Prop}
    {P : List (Step σ ι ο) → σ → Prop} (hr : Run m s₀ h s) (hC : Always C h) (h₀ : P [] s₀)
    (hstep : ∀ h s i, Run m s₀ h s → P h s → C h (stepOf m s i) →
      P (stepOf m s i :: h) (m s i).2) : P h s := by
  induction hr with
  | nil => exact h₀
  | snoc i hr ih => exact hstep _ _ i hr (ih hC.2) hC.1

/-- Two conditions that agree at each step, while the first was met so far, are met by the same
runs. -/
theorem Run.always_iff {C D : List (Step σ ι ο) → Step σ ι ο → Prop} (hr : Run m s₀ h s)
    (hstep : ∀ h s i, Run m s₀ h s → Always C h → (C h (stepOf m s i) ↔ D h (stepOf m s i))) :
    Always C h ↔ Always D h := by
  induction hr with
  | nil => exact Iff.rfl
  | snoc i hr ih =>
    constructor
    · rintro ⟨hc, ha⟩
      exact ⟨(hstep _ _ i hr ha).1 hc, ih.1 ha⟩
    · rintro ⟨hd, ha⟩
      have ha' := ih.2 ha
      exact ⟨(hstep _ _ i hr ha').2 hd, ha'⟩

/-! ## Running a list of inputs -/

/-- The history and the state after a list of inputs, from a history and a state. -/
def execFrom (m : σ → ι → ο × σ) : List (Step σ ι ο) → σ → List ι → List (Step σ ι ο) × σ
  | h, s, [] => (h, s)
  | h, s, i :: is => execFrom m (stepOf m s i :: h) (m s i).2 is

/-- The history and the state after a list of inputs. -/
def exec (m : σ → ι → ο × σ) (s₀ : σ) (is : List ι) : List (Step σ ι ο) × σ := execFrom m [] s₀ is

theorem Run.execFrom (hr : Run m s₀ h s) (is : List ι) :
    Run m s₀ (Machine.execFrom m h s is).1 (Machine.execFrom m h s is).2 := by
  induction is generalizing h s with
  | nil => exact hr
  | cons i is ih => exact ih (.snoc i hr)

/-- What `exec` computes is a run. -/
theorem run_exec (m : σ → ι → ο × σ) (s₀ : σ) (is : List ι) :
    Run m s₀ (exec m s₀ is).1 (exec m s₀ is).2 :=
  Run.nil.execFrom is

/-! ## Outputs only -/

/-- The outputs on a list of inputs, in order. -/
def outputs (m : σ → ι → ο × σ) : σ → List ι → List ο
  | _, [] => []
  | s, i :: is => (m s i).1 :: outputs m (m s i).2 is

/-- The state after a list of inputs. -/
def final (m : σ → ι → ο × σ) : σ → List ι → σ
  | s, [] => s
  | s, i :: is => final m (m s i).2 is

@[simp] theorem outputs_nil : outputs m s [] = [] := rfl

@[simp] theorem outputs_cons (i : ι) (is : List ι) :
    outputs m s (i :: is) = (m s i).1 :: outputs m (m s i).2 is := rfl

@[simp] theorem final_nil : final m s [] = s := rfl

@[simp] theorem final_cons (i : ι) (is : List ι) :
    final m s (i :: is) = final m (m s i).2 is := rfl

theorem outputs_append (s : σ) (is js : List ι) :
    outputs m s (is ++ js) = outputs m s is ++ outputs m (final m s is) js := by
  induction is generalizing s with
  | nil => rfl
  | cons i is ih => exact congrArg _ (ih _)

theorem final_append (s : σ) (is js : List ι) :
    final m s (is ++ js) = final m (final m s is) js := by
  induction is generalizing s with
  | nil => rfl
  | cons i is ih => exact ih _

/-- **The simulation rule.** Related states that give the same outputs and stay related give the
same outputs all along. -/
theorem outputs_of_sim {S : σ → σ → Prop} {s s' : σ}
    (hstep : ∀ s s' i, S s s' → (m s' i).1 = (m s i).1 ∧ S (m s i).2 (m s' i).2) (h : S s s')
    (is : List ι) : outputs m s' is = outputs m s is ∧ S (final m s is) (final m s' is) := by
  induction is generalizing s s' with
  | nil => exact ⟨rfl, h⟩
  | cons i is ih =>
    obtain ⟨houtput, hnext⟩ := hstep s s' i h
    obtain ⟨houtputs, hfinal⟩ := ih hnext
    rw [outputs_cons, outputs_cons, houtput, houtputs]
    exact ⟨rfl, hfinal⟩

/-! ## Inputs without end -/

/-- The states along an endless sequence of inputs. -/
def along (m : σ → ι → ο × σ) (s : σ) (input : Nat → ι) : Nat → σ
  | 0 => s
  | n + 1 => (m (along m s input n) (input n)).2

theorem along_add (s : σ) (input : Nat → ι) (k n : Nat) :
    along m s input (k + n) = along m (along m s input k) (fun j => input (k + j)) n := by
  induction n with
  | zero => rfl
  | succ n ih =>
    change (m (along m s input (k + n)) (input (k + n))).2 = _
    rw [ih]
    rfl

/-- What other inputs keep is still there at the first input of a kind, which comes. -/
theorem along_first {C : ι → Prop} {P Q : σ → Prop} {input : Nat → ι} {s : σ}
    (hkeep : ∀ s i, P s → ¬ C i → P (m s i).2) (hcall : ∀ s i, P s → C i → Q (m s i).2)
    (hs : P s) (hex : ∃ k, C (input k)) : ∃ n, Q (along m s input n) := by
  classical
  have hP : ∀ n ≤ Nat.find hex, P (along m s input n) := by
    intro n
    induction n with
    | zero => exact fun _ => hs
    | succ n ih =>
      intro hn
      exact hkeep _ _ (ih (Nat.le_of_succ_le hn)) (Nat.find_min hex hn)
  exact ⟨Nat.find hex + 1, hcall _ _ (hP _ le_rfl) (Nat.find_spec hex)⟩

end Machine
