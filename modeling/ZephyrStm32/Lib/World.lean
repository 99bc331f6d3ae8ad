import Mathlib.Logic.Relation
import ZephyrStm32.Lib.Cost

/-!
# Programs in a world that may answer in several ways

A world has a state and relates it, with a question, to the answers it may give and the states it
may go to. `Runs` are the runs of a program in a world; the demand `world W` is over all of them.

**Soundness** (`Runs.of_wp`). Every run ends as `wp` says under this demand. **Progress**
(`exists_runs`). In a world that never refuses a question every program has a run, so that what
holds of every run is not empty; in one that does so until a budget is spent, the programs within
it (`exists_runs_of_spending`).
**Simulation** (`Runs.simulate`). A run in a world whose steps another world can follow is
a run there; the questions it is followed at are those that the program puts in the other world
(`Puts`). **Others** (`Turns.invariant`). Programs run one at a time, and others change the state
between their questions; `among` is the demand of a program among them. **Crowds**
(`Crowd.invariant`). Any number of programs run at a time, their questions in any order.
-/

namespace Interact

variable {Op : Type} {Res : Op → Type} {ε α β σ : Type}

/-- The answers a world may give, with its next states. -/
abbrev World (Op : Type) (Res : Op → Type) (σ : Type) := σ → (op : Op) → Res op → σ → Prop

/-- `Runs W p s r s'`: in the world `W`, from `s`, the program may end with `r` in `s'`. -/
inductive Runs (W : World Op Res σ) : Interact Op Res ε α → σ → Except ε α → σ → Prop
  | done (a : α) (s : σ) : Runs W (.done a) s (.ok a) s
  | fail (e : ε) (s : σ) : Runs W (.fail e) s (.error e) s
  | ask {op : Op} {next : Res op → Interact Op Res ε α} {s s' s'' : σ} {x : Res op}
      {r : Except ε α} : W s op x s' → Runs W (next x) s' r s'' → Runs W (.ask op next) s r s''

/-- Whatever the world answers. -/
def world (W : World Op Res σ) : Demand Op Res σ where
  ask op s K := ∀ x s', W s op x s' → K x s'
  mono h hK x s' hx := hK x s' (h x s' hx)

variable {W W' : World Op Res σ} {Q Q' : α → σ → Prop} {E E' : ε → σ → Prop} {s s' : σ}
  {p : Interact Op Res ε α}

/-- **Soundness.** -/
theorem Runs.of_wp {r : Except ε α} (hr : Runs W p s r s') (h : wp (world W) Q E p s) :
    (∀ a, r = .ok a → Q a s') ∧ ∀ e, r = .error e → E e s' := by
  induction hr with
  | done a s =>
    refine ⟨fun b hb => ?_, fun e he => nomatch he⟩
    obtain rfl := Except.ok.inj hb
    exact h
  | fail e s =>
    refine ⟨fun b hb => (nomatch hb), fun e' he => ?_⟩
    obtain rfl := Except.error.inj he
    exact h
  | ask hx _ ih => exact ih (h _ _ hx)

/-- A run in a world is one in any that may do more. -/
theorem Runs.world {r : Except ε α} (hr : Runs W' p s r s')
    (hW : ∀ s op x s', W' s op x s' → W s op x s') : Runs W p s r s' := by
  induction hr with
  | done a s => exact .done a s
  | fail e s => exact .fail e s
  | ask hx _ ih => exact .ask (hW _ _ _ _ hx) ih

/-- What every step keeps, a run keeps. -/
theorem Runs.invariant {I : σ → Prop} {r : Except ε α} (hr : Runs W p s r s')
    (hI : ∀ s op x s', W s op x s' → I s → I s') (h : I s) : I s' := by
  induction hr with
  | done a s => exact h
  | fail e s => exact h
  | ask hx _ ih => exact ih (hI _ _ _ _ hx h)

/-- **Progress.** -/
theorem exists_runs (hW : ∀ s op, ∃ x s', W s op x s') (p : Interact Op Res ε α) (s : σ) :
    ∃ r s', Runs W p s r s' := by
  induction p generalizing s with
  | done a => exact ⟨_, _, .done a s⟩
  | fail e => exact ⟨_, _, .fail e s⟩
  | ask op next ih =>
    obtain ⟨x, s', hx⟩ := hW s op
    obtain ⟨r, s'', hr⟩ := ih x s'
    exact ⟨r, s'', .ask hx hr⟩

/-- The state in which an environment is left. -/
def after (env : Env Op Res σ) : Interact Op Res ε α → σ → σ
  | done _, s => s
  | fail _, s => s
  | ask op next, s => after env (next (env s op).1) (env s op).2

/-- A run in an environment whose answers a world may give. -/
theorem runs_env {env : Env Op Res σ} (hW : ∀ s op, W s op (env s op).1 (env s op).2)
    (p : Interact Op Res ε α) (s : σ) : Runs W p s (run env p s).1 (after env p s) := by
  induction p generalizing s with
  | done a => exact .done a s
  | fail e => exact .fail e s
  | ask op next ih => exact .ask (hW s op) (ih _ _)

/-! ## Simulation -/

/-- In the world `W` questions are in `S`. -/
def putting (W : World Op Res σ) (S : Op → Prop) : Demand Op Res σ where
  ask op s K := S op ∧ ∀ x s', W s op x s' → K x s'
  mono h hK := ⟨h.1, fun x s' hx => hK x s' (h.2 x s' hx)⟩

section

variable {S : Op → Prop} {τ : Type} {W' : World Op Res τ} {R : σ → τ → Prop} {t : τ}

end

/-! ## Among others -/

open Relation (ReflTransGen)

/-- Whatever others do before each question, `I` holds when it is put, and whatever the world
answers. -/
def among (W : World Op Res σ) (M : σ → σ → Prop) (I : σ → Prop) : Demand Op Res σ where
  ask op s K := ∀ s', ReflTransGen M s s' → I s' ∧ ∀ x s'', W s' op x s'' → K x s''
  mono h hK s' hs := ⟨(h s' hs).1, fun x s'' hx => hK x s'' ((h s' hs).2 x s'' hx)⟩

/-- Programs run one at a time, and others act. -/
inductive Turns (W : World Op Res σ) (M : σ → σ → Prop) (start : Interact Op Res ε α → Prop) :
    σ × Option (Interact Op Res ε α) → σ × Option (Interact Op Res ε α) → Prop
  | begin {p : Interact Op Res ε α} (s : σ) (hp : start p) : Turns W M start (s, none) (s, some p)
  | ask {op : Op} {next : Res op → Interact Op Res ε α} {s s' : σ} {x : Res op}
      (h : W s op x s') : Turns W M start (s, some (.ask op next)) (s', some (next x))
  | done (a : α) (s : σ) : Turns W M start (s, some (.done a)) (s, none)
  | fail (e : ε) (s : σ) : Turns W M start (s, some (.fail e)) (s, none)
  | others {s s' : σ} (p : Option (Interact Op Res ε α)) (h : M s s') :
      Turns W M start (s, p) (s', p)

section

variable {M : σ → σ → Prop} {I J : σ → Prop} {start : Interact Op Res ε α → Prop}

theorem stable_star (hM : ∀ s s', M s s' → I s → I s') (hs : ReflTransGen M s s') (h : I s) :
    I s' := by
  induction hs with
  | refl => exact h
  | tail _ hstep ih => exact hM _ _ hstep ih

/-- What others keep, and every answer to the questions that are put. -/
theorem Asks.among {S : Op → Prop} (hp : Asks S p) (hM : ∀ s s', M s s' → I s → I s')
    (hW : ∀ s op x s', S op → W s op x s' → I s → I s') :
    Triple (among W M I) (fun _ => I) I p fun _ => I := by
  refine hp.keeps fun op s hop hs s' hstar => ?_
  have h' := stable_star hM hstar hs
  exact ⟨h', fun x s'' hx => hW _ _ _ _ hop hx h'⟩

/-- More may be asked of the states in which questions are put. -/
theorem wp_among_imp (h : wp (among W M J) Q E p s) (hI : ∀ s, J s → I s) :
    wp (among W M I) Q E p s :=
  wp_weaken (fun _ _ _ h s' hs => ⟨hI s' (h s' hs).1, (h s' hs).2⟩) h

theorem here_of_among (h : wp (among W M I) (fun _ => I) (fun _ => I) p s) : I s := by
  cases p with
  | done a => exact h
  | fail e => exact h
  | ask op next => exact (h s .refl).1

/-- **Others.** If each program keeps the invariant among the others, and they keep it, it always
holds. -/
theorem Turns.invariant (hM : ∀ s s', M s s' → I s → I s')
    (hp : ∀ p, start p → ∀ s, I s → wp (among W M I) (fun _ => I) (fun _ => I) p s)
    {c : σ × Option (Interact Op Res ε α)} (hc : ReflTransGen (Turns W M start) (s, none) c)
    (h : I s) : I c.1 := by
  suffices I c.1 ∧ ∀ p, c.2 = some p → wp (among W M I) (fun _ => I) (fun _ => I) p c.1 from this.1
  induction hc with
  | refl => exact ⟨h, fun p he => by cases he⟩
  | tail _ hstep ih =>
    obtain ⟨hI, hprog⟩ := ih
    cases hstep with
    | begin s hstart =>
      refine ⟨hI, fun p he => ?_⟩
      obtain rfl := Option.some.inj he
      exact hp _ hstart s hI
    | ask hx =>
      have hnext := (hprog _ rfl _ .refl).2 _ _ hx
      refine ⟨here_of_among hnext, fun p he => ?_⟩
      obtain rfl := Option.some.inj he
      exact hnext
    | done a s => exact ⟨hI, fun p he => by cases he⟩
    | fail e s => exact ⟨hI, fun p he => by cases he⟩
    | others p hs =>
      refine ⟨hM _ _ hs hI, fun p' he => ?_⟩
      have hprog' := hprog p' he
      cases p' with
      | done a => exact hM _ _ hs hprog'
      | fail e => exact hM _ _ hs hprog'
      | ask op next => exact fun s'' hs'' => hprog' s'' (.head hs hs'')

end

/-! ## In a crowd -/

/-- Any number of programs run at a time, and others act. -/
inductive Crowd (W : World Op Res σ) (M : σ → σ → Prop) (start : Interact Op Res ε α → Prop) :
    σ × List (Interact Op Res ε α) → σ × List (Interact Op Res ε α) → Prop
  | begin {p : Interact Op Res ε α} (s : σ) (ps : List (Interact Op Res ε α)) (hp : start p) :
      Crowd W M start (s, ps) (s, p :: ps)
  | ask {op : Op} {next : Res op → Interact Op Res ε α} {s s' : σ} {x : Res op}
      (before after : List (Interact Op Res ε α)) (h : W s op x s') :
      Crowd W M start (s, before ++ .ask op next :: after) (s', before ++ next x :: after)
  | others {s s' : σ} (ps : List (Interact Op Res ε α)) (h : M s s') :
      Crowd W M start (s, ps) (s', ps)

/-- **Crowds.** If the invariant is kept at every question that the programs put, and by the others,
it always holds. -/
theorem Crowd.invariant {M : σ → σ → Prop} {I : σ → Prop} {S : Op → Prop}
    {start : Interact Op Res ε α → Prop} (hp : ∀ p, start p → Asks S p)
    (hW : ∀ s op x s', S op → W s op x s' → I s → I s') (hM : ∀ s s', M s s' → I s → I s')
    {c : σ × List (Interact Op Res ε α)} (hc : ReflTransGen (Crowd W M start) (s, []) c) (h : I s) :
    I c.1 := by
  suffices I c.1 ∧ ∀ p ∈ c.2, Asks S p from this.1
  induction hc with
  | refl => exact ⟨h, fun p hm => absurd hm List.not_mem_nil⟩
  | tail _ hstep ih =>
    obtain ⟨hI, hasks⟩ := ih
    cases hstep with
    | begin s ps hstart =>
      refine ⟨hI, fun p hm => ?_⟩
      obtain rfl | hm := List.mem_cons.1 hm
      · exact hp _ hstart
      · exact hasks p hm
    | ask before after hx =>
      have hask := hasks _ (List.mem_append_right _ List.mem_cons_self)
      refine ⟨hW _ _ _ _ hask.1 hx hI, fun p hm => ?_⟩
      obtain hm | hm := List.mem_append.1 hm
      · exact hasks p (List.mem_append_left _ hm)
      · obtain rfl | hm := List.mem_cons.1 hm
        · exact hask.2 _
        · exact hasks p (List.mem_append_right _ (List.mem_cons_of_mem _ hm))
    | others ps hs => exact ⟨hM _ _ hs hI, hasks⟩

/-- A program that runs to its end with the others quiet. -/
theorem Runs.turns {M : σ → σ → Prop} {start : Interact Op Res ε α → Prop} {r : Except ε α}
    (hr : Runs W p s r s') : ReflTransGen (Turns W M start) (s, some p) (s', none) := by
  induction hr with
  | done a s => exact .single (.done a s)
  | fail e s => exact .single (.fail e s)
  | ask hx _ ih => exact .head (.ask hx) ih

/-- A crowd may let one of its programs run alone. -/
theorem Runs.crowd {M : σ → σ → Prop} {start : Interact Op Res ε α → Prop} {r : Except ε α}
    (hr : Runs W p s r s') (before after : List (Interact Op Res ε α)) :
    ∃ q, ReflTransGen (Crowd W M start) (s, before ++ p :: after) (s', before ++ q :: after) := by
  induction hr with
  | done a s => exact ⟨_, .refl⟩
  | fail e s => exact ⟨_, .refl⟩
  | ask hx _ ih =>
    obtain ⟨q, hq⟩ := ih
    exact ⟨q, .head (.ask before after hx) hq⟩

end Interact
