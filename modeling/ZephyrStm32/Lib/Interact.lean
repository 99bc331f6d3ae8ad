import Mathlib.Tactic

/-!
# Programs that put questions to their environment

A program ends with a value, fails, or asks and goes on with the answer. An environment is any
machine that answers; `run` gives the result and the transcript.

`Demand` says what it takes to put a question, in a state of any kind, and `wp` is the weakest
precondition of a program under it; sequencing, consequence and the catching of a failure are
proved once, for all demands. A monitor is an automaton that reads the transcript (`monitor`).
`wp_run`: what `wp` promises under a monitor holds of the run in every environment.
-/

/-- A question with its answer. -/
structure Asked (Op : Type) (Res : Op → Type) where
  op : Op
  answer : Res op

/-- A program that computes an `α` or fails with an `ε`. -/
inductive Interact (Op : Type) (Res : Op → Type) (ε α : Type) : Type
  | done (a : α)
  | fail (e : ε)
  | ask (op : Op) (next : Res op → Interact Op Res ε α)

namespace Interact

variable {Op : Type} {Res : Op → Type} {ε α β γ : Type}

protected def bind (f : α → Interact Op Res ε β) : Interact Op Res ε α → Interact Op Res ε β
  | done a => f a
  | fail e => fail e
  | ask op next => ask op fun x => (next x).bind f

instance : Monad (Interact Op Res ε) where
  pure := done
  bind p f := p.bind f

theorem bind_done (p : Interact Op Res ε α) : (p.bind fun a => done a) = p := by
  induction p with
  | done a => rfl
  | fail e => rfl
  | ask op next ih => exact congrArg (ask op) (funext ih)

theorem bind_bind (p : Interact Op Res ε α) (f : α → Interact Op Res ε β)
    (g : β → Interact Op Res ε γ) :
    (p.bind f).bind g = p.bind fun a => (f a).bind g := by
  induction p with
  | done a => rfl
  | fail e => rfl
  | ask op next ih => exact congrArg (ask op) (funext ih)

instance : LawfulMonad (Interact Op Res ε) :=
  LawfulMonad.mk' _ (fun p => bind_done p) (fun _ _ => rfl) (fun p f g => bind_bind p f g)

/-- Ask, and give the answer. -/
def question (op : Op) : Interact Op Res ε (Res op) := ask op done

/-! ## Runs -/

/-- An environment with states in `σ`. -/
abbrev Env (Op : Type) (Res : Op → Type) (σ : Type) := σ → (op : Op) → Res op × σ

/-- The result, and the questions that were put, in order. -/
def run {σ : Type} (env : Env Op Res σ) :
    Interact Op Res ε α → σ → Except ε α × List (Asked Op Res)
  | done a, _ => (.ok a, [])
  | fail e, _ => (.error e, [])
  | ask op next, s =>
    let x := env s op
    let r := run env (next x.1) x.2
    (r.1, ⟨op, x.1⟩ :: r.2)

/-! ## Weakest preconditions -/

/-- What it takes to put a question in a state, if something is to hold of the answer and of the
state behind it. -/
structure Demand (Op : Type) (Res : Op → Type) (σ : Type) where
  ask : (op : Op) → σ → (Res op → σ → Prop) → Prop
  mono : ∀ {op s K K'}, ask op s K → (∀ x s', K x s' → K' x s') → ask op s K'

variable {σ : Type} {D : Demand Op Res σ}

/-- Every question is put as it must be, and the program ends in `Q` or fails in `E`. -/
def wp (D : Demand Op Res σ) (Q : α → σ → Prop) (E : ε → σ → Prop) :
    Interact Op Res ε α → σ → Prop
  | done a, s => Q a s
  | fail e, s => E e s
  | ask op next, s => D.ask op s fun x s' => wp D Q E (next x) s'

variable {Q Q' : α → σ → Prop} {E E' : ε → σ → Prop} {s : σ} {p : Interact Op Res ε α}

@[simp] theorem wp_pure {a : α} : wp D Q E (pure a) s ↔ Q a s := Iff.rfl

@[simp] theorem wp_fail {e : ε} : wp D Q E (fail e) s ↔ E e s := Iff.rfl

/-- The consequence rule. -/
theorem wp_imp (h : wp D Q E p s) (hQ : ∀ a s, Q a s → Q' a s) (hE : ∀ e s, E e s → E' e s) :
    wp D Q' E' p s := by
  induction p generalizing s with
  | done a => exact hQ a s h
  | fail e => exact hE e s h
  | ask op next ih => exact D.mono h fun x s' hx => ih x hx

/-- The consequence rule for the value. -/
theorem wp_mono (h : wp D Q E p s) (hQ : ∀ a s, Q a s → Q' a s) : wp D Q' E p s :=
  wp_imp h hQ fun _ _ he => he

/-- The sequencing rule. -/
@[simp] theorem wp_bind {f : α → Interact Op Res ε β} {Q : β → σ → Prop} :
    wp D Q E (p >>= f) s ↔ wp D (fun a s' => wp D Q E (f a) s') E p s := by
  change wp D Q E (p.bind f) s ↔ _
  induction p generalizing s with
  | done a => exact Iff.rfl
  | fail e => exact Iff.rfl
  | ask op next ih =>
    exact ⟨fun h => D.mono h fun x _ => (ih x).1, fun h => D.mono h fun x _ => (ih x).2⟩

/-- A part that does as it must, before the rest. -/
theorem wp_seq {f : α → Interact Op Res ε β} {Q' : β → σ → Prop} (hp : wp D Q E p s)
    (hf : ∀ a s, Q a s → wp D Q' E (f a) s) : wp D Q' E (p >>= f) s :=
  wp_bind.2 (wp_mono hp hf)

/-- What two demands promise of a question, a third may promise together. -/
theorem wp_and {D₁ D₂ : Demand Op Res σ} (hD : ∀ op s K₁ K₂, D₁.ask op s K₁ → D₂.ask op s K₂ →
      D.ask op s fun x s' => K₁ x s' ∧ K₂ x s')
    (h : wp D₁ Q E p s) (h' : wp D₂ Q' E' p s) :
    wp D (fun a s => Q a s ∧ Q' a s) (fun e s => E e s ∧ E' e s) p s := by
  induction p generalizing s with
  | done a => exact ⟨h, h'⟩
  | fail e => exact ⟨h, h'⟩
  | ask op next ih => exact D.mono (hD op s _ _ h h') fun x s' hx => ih x hx.1 hx.2

/-- A demand that promises more. -/
theorem wp_weaken {D' : Demand Op Res σ} (hD : ∀ op s K, D'.ask op s K → D.ask op s K)
    (h : wp D' Q E p s) : wp D Q E p s := by
  induction p generalizing s with
  | done a => exact h
  | fail e => exact h
  | ask op next ih => exact D.mono (hD op s _ h) fun x _ => ih x

/-- What is asserted before a program, and of its value and the state behind it. -/
def Triple (D : Demand Op Res σ) (E : ε → σ → Prop) (P : σ → Prop) (p : Interact Op Res ε α)
    (Q : α → σ → Prop) : Prop :=
  ∀ s, P s → wp D Q E p s

theorem Triple.bind {P : σ → Prop} {f : α → Interact Op Res ε β} {Q' : β → σ → Prop}
    (hp : Triple D E P p Q) (hf : ∀ a, Triple D E (Q a) (f a) Q') : Triple D E P (p >>= f) Q' :=
  fun s h => wp_seq (hp s h) fun a s' => hf a s'

theorem Triple.imp {P : σ → Prop} (h : Triple D E P p Q) (hQ : ∀ a s, Q a s → Q' a s)
    (hE : ∀ e s, E e s → E' e s) : Triple D E' P p Q' :=
  fun s hs => wp_imp (h s hs) hQ hE

theorem Triple.mono {P : σ → Prop} (h : Triple D E P p Q) (hQ : ∀ a s, Q a s → Q' a s) :
    Triple D E P p Q' :=
  fun s hs => wp_mono (h s hs) hQ

/-- What holds in every state is known beforehand. -/
theorem Triple.of_and {P : σ → Prop} {c : Prop} (h : c → Triple D E P p Q) :
    Triple D E (fun s => c ∧ P s) p Q :=
  fun s hs => h hs.1 s hs.2

/-! ## Catching a failure -/

/-- Run a program for its result, which may be a failure. -/
def attempt : Interact Op Res ε α → Interact Op Res ε (Except ε α)
  | done a => done (.ok a)
  | fail e => done (.error e)
  | ask op next => ask op fun x => attempt (next x)

@[simp] theorem wp_attempt {Q : Except ε α → σ → Prop} :
    wp D Q E (attempt p) s ↔ wp D (fun a s => Q (.ok a) s) (fun e s => Q (.error e) s) p s := by
  induction p generalizing s with
  | done a => exact Iff.rfl
  | fail e => exact Iff.rfl
  | ask op next ih =>
    exact ⟨fun h => D.mono h fun x _ => (ih x).1, fun h => D.mono h fun x _ => (ih x).2⟩

/-! ## Monitors -/

/-- Whatever the answer, the monitor reads it. -/
def monitor {μ : Type} (δ : μ → Asked Op Res → μ) : Demand Op Res μ where
  ask op m K := ∀ x, K x (δ m ⟨op, x⟩)
  mono h hK x := hK x _ (h x)

section

variable {μ : Type} {δ : μ → Asked Op Res → μ} {Q : α → μ → Prop} {E : ε → μ → Prop} {m : μ}

theorem monitor_and (op : Op) (m : μ) (K K' : Res op → μ → Prop) (h : (monitor δ).ask op m K)
    (h' : (monitor δ).ask op m K') : (monitor δ).ask op m fun x m' => K x m' ∧ K' x m' :=
  fun x => ⟨h x, h' x⟩

/-- Every program ends or fails. -/
theorem wp_of_forall (hQ : ∀ a m, Q a m) (hE : ∀ e m, E e m) : wp (monitor δ) Q E p m := by
  induction p generalizing m with
  | done a => exact hQ a m
  | fail e => exact hE e m
  | ask op next ih => exact fun x => ih x

/-- A monitor state that is never left, and at which the program must neither end nor fail, is not
reached. -/
theorem not_wp [hx : ∀ op, Nonempty (Res op)] (hm : ∀ a, δ m a = m) (hQ : ∀ a, ¬ Q a m)
    (hE : ∀ e, ¬ E e m) : ¬ wp (monitor δ) Q E p m := by
  induction p with
  | done a => exact hQ a
  | fail e => exact hE e
  | ask op next ih =>
    intro h
    obtain ⟨x⟩ := hx op
    have hnext := h x
    rw [hm] at hnext
    exact ih x hnext

/-- The values that a program may end with, whatever the answers. -/
def Yields (V : α → Prop) (p : Interact Op Res ε α) : Prop :=
  wp (monitor fun (_ : Unit) _ => ()) (fun a _ => V a) (fun _ _ => True) p ()

theorem wp_yields {σ : Type} {D : Demand Op Res σ} {Q : α → σ → Prop} {E : ε → σ → Prop} {s : σ}
    {V : α → Prop} (h : wp D Q E p s) (hV : Yields V p) :
    wp D (fun a s' => V a ∧ Q a s') E p s := by
  induction p generalizing s with
  | done a => exact ⟨hV, h⟩
  | fail e => exact h
  | ask op next ih => exact D.mono h fun x _ hx => ih x hx (hV x)

/-- **Soundness.** In every environment the result and the monitor's verdict on the transcript
are as `wp` says. -/
theorem wp_run {σ : Type} (env : Env Op Res σ) (h : wp (monitor δ) Q E p m) (s : σ) :
    (∃ a, (run env p s).1 = .ok a ∧ Q a ((run env p s).2.foldl δ m)) ∨
      ∃ e, (run env p s).1 = .error e ∧ E e ((run env p s).2.foldl δ m) := by
  induction p generalizing m s with
  | done a => exact Or.inl ⟨a, rfl, h⟩
  | fail e => exact Or.inr ⟨e, rfl, h⟩
  | ask op next ih => exact ih _ (h _) _

end

end Interact
