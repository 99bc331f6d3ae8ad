import ZephyrStm32.Lib.Interact

/-!
# What a program asks

A cost is given to each question. Under the demand `spending c` each question must be within the
budget that is left, which is its state; `cost_run` turns this into a bound on the transcript of
every run.

`Asks S p`: all questions of `p` are in `S`. What these questions keep under a demand, `p` keeps
under it (`Asks.keeps`). The monitor that keeps everything (`snoc`) has the transcript so far as its
state.
-/

namespace Interact

variable {Op : Type} {Res : Op → Type} {ε α β σ : Type} {p : Interact Op Res ε α}

/-- The cost of a transcript. -/
def cost (c : Op → Nat) (t : List (Asked Op Res)) : Nat := (t.map fun a => c a.op).sum

/-- The questions are paid for from a budget. -/
def spending (c : Op → Nat) : Demand Op Res Nat where
  ask op n K := c op ≤ n ∧ ∀ x, K x (n - c op)
  mono h hK := ⟨h.1, fun x => hK x _ (h.2 x)⟩

section

variable {c : Op → Nat} {n : Nat} {Q : α → Nat → Prop} {E : ε → Nat → Prop}

/-- **Soundness.** -/
theorem cost_run {σ : Type} (env : Env Op Res σ) (h : wp (spending c) Q E p n) (s : σ) :
    cost c (run env p s).2 ≤ n := by
  induction p generalizing n s with
  | done a => exact Nat.zero_le n
  | fail e => exact Nat.zero_le n
  | ask op next ih =>
    obtain ⟨hle, hnext⟩ := h
    have hrest := ih (env s op).1 (hnext _) (env s op).2
    change c op + cost c _ ≤ n
    omega

end

/-! ## The questions -/

/-- The questions are in a set. -/
def within (S : Op → Prop) : Demand Op Res Unit where
  ask op s K := S op ∧ ∀ x, K x s
  mono h hK := ⟨h.1, fun x => hK x _ (h.2 x)⟩

def Asks (S : Op → Prop) (p : Interact Op Res ε α) : Prop :=
  wp (within S) (fun _ _ => True) (fun _ _ => True) p ()

section

variable {S : Op → Prop}

theorem asks_pure (a : α) : Asks S (pure a : Interact Op Res ε α) := trivial

theorem asks_question {op : Op} (h : S op) :
    Asks S (question op : Interact Op Res ε (Res op)) := ⟨h, fun _ => trivial⟩

theorem Asks.bind {f : α → Interact Op Res ε β} (hp : Asks S p) (hf : ∀ a, Asks S (f a)) :
    Asks S (p >>= f) :=
  wp_seq hp fun a _ _ => hf a

/-- What its questions keep, a program keeps. -/
theorem Asks.keeps {D : Demand Op Res σ} {I : σ → Prop} (hp : Asks S p)
    (hD : ∀ op s, S op → I s → D.ask op s fun _ s' => I s') :
    Triple D (fun _ => I) I p fun _ => I := by
  induction p with
  | done a => exact fun s h => h
  | fail e => exact fun s h => h
  | ask op next ih => exact fun s h => D.mono (hD op s hp.1 h) fun x s' => ih x (hp.2 x) s'

end

/-! ## The transcript so far -/

/-- A monitor that keeps everything. -/
def snoc (t : List (Asked Op Res)) (a : Asked Op Res) : List (Asked Op Res) := t ++ [a]

theorem foldl_snoc (t before : List (Asked Op Res)) : t.foldl snoc before = before ++ t := by
  induction t generalizing before with
  | nil => rw [List.append_nil, List.foldl_nil]
  | cons a t ih => rw [List.foldl_cons, ih, snoc, List.append_assoc, List.singleton_append]

/-- It sees what any other monitor sees. -/
theorem wp_snoc_of_wp {μ : Type} {δ : μ → Asked Op Res → μ} {Q : α → μ → Prop} {E : ε → μ → Prop}
    {s : μ} {t : List (Asked Op Res)} (h : wp (monitor δ) Q E p (t.foldl δ s)) :
    wp (monitor snoc) (fun a t' => Q a (t'.foldl δ s)) (fun e t' => E e (t'.foldl δ s)) p t := by
  induction p generalizing t with
  | done a => exact h
  | fail e => exact h
  | ask op next ih =>
    refine fun x => ih x ?_
    rw [snoc, List.foldl_append]
    exact h x

/-- What is promised of the end holds of some way to go on. -/
theorem exists_of_wp_snoc [hx : ∀ op, Nonempty (Res op)] {P : List (Asked Op Res) → Prop}
    {t : List (Asked Op Res)} (h : wp (monitor snoc) (fun _ => P) (fun _ => P) p t) :
    ∃ after, P (t ++ after) := by
  induction p generalizing t with
  | done a => exact ⟨[], (List.append_nil t).symm ▸ h⟩
  | fail e => exact ⟨[], (List.append_nil t).symm ▸ h⟩
  | ask op next ih =>
    obtain ⟨x⟩ := hx op
    obtain ⟨after, hafter⟩ := ih x (h x)
    rw [snoc, List.append_assoc] at hafter
    exact ⟨_, hafter⟩

/-- A property of every question with what came before it, when one more is put. -/
theorem forall_split_snoc {t : List (Asked Op Res)} {a : Asked Op Res}
    {P : List (Asked Op Res) → Asked Op Res → Prop}
    (h : ∀ before b after, t = before ++ b :: after → P before b) (ha : P t a) :
    ∀ before b after, t ++ [a] = before ++ b :: after → P before b := by
  intro before b after hsplit
  rcases List.eq_nil_or_concat after with rfl | ⟨after, c, rfl⟩
  · obtain ⟨rfl, hb⟩ := List.append_inj' hsplit rfl
    obtain rfl := List.singleton_inj.1 hb
    exact ha
  · rw [List.concat_eq_append, ← List.cons_append, ← List.append_assoc] at hsplit
    exact h before b after (List.append_inj' hsplit rfl).1

end Interact
