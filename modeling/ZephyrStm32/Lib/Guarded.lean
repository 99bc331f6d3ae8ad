import Mathlib.Logic.Function.Basic
import Mathlib.Logic.Relation
import ZephyrStm32.Lib.Interact

/-!
# Threads and a lock

Threads run the bodies of their loops over a shared state, one access at a time and in any order,
with a lock that its owner may take again. Nothing in this semantics keeps a thread from the shared
state, or from giving back a lock that it does not have: that is for the bodies to see to.

`Guarded W I R p n s`: the thread, with `n` locks taken and left with `p`, accesses the state only
under the lock, finds it in `R` when it takes the lock and leaves it so, and never ends a round with
the lock. **Theorem (`Guarded.invariant`).** If all bodies are guarded, `I` always holds, and `R`
whenever the lock is free; and a thread that gives the lock back has it.
-/

namespace Interact

/-- To take the lock, with or without an end to the patience; to give it back; to access the
state. -/
inductive Act (Op : Type)
  | lock (patient : Bool)
  | unlock
  | access (op : Op)

/-- `lock` and `unlock` say whether they did it. -/
abbrev Act.Res {Op : Type} (Res : Op → Type) : Act Op → Type
  | .lock _ => Bool
  | .unlock => Bool
  | .access op => Res op

abbrev Thread (Op : Type) (Res : Op → Type) (ε : Type) :=
  Interact (Act Op) (Act.Res Res) ε Unit

/-- The shared state, who has the lock and how often it was taken, and what is left of each
thread's round. -/
structure Threads (Op : Type) (Res : Op → Type) (ε ι σ : Type) where
  shared : σ
  owner : Option (ι × Nat)
  left : ι → Thread Op Res ε

variable {Op : Type} {Res : Op → Type} {ε ι σ : Type} [DecidableEq ι]

namespace Threads

/-- What a step changes: the state, the lock, and the thread that makes it. -/
def set (c : Threads Op Res ε ι σ) (s : σ) (o : Option (ι × Nat)) (i : ι)
    (p : Thread Op Res ε) : Threads Op Res ε ι σ :=
  ⟨s, o, Function.update c.left i p⟩

/-- How often the thread has taken the lock. -/
def depth (c : Threads Op Res ε ι σ) (i : ι) : Nat :=
  match c.owner with
  | none => 0
  | some (j, n) => if i = j then n + 1 else 0

end Threads

/-- **The steps.** The lock is owned by a thread that took it `n + 1` times. -/
inductive Schedules (W : σ → (op : Op) → Res op → σ → Prop) (body : ι → Thread Op Res ε) :
    Threads Op Res ε ι σ → Threads Op Res ε ι σ → Prop
  | access {c : Threads Op Res ε ι σ} {i : ι} {op : Op} {next : Res op → Thread Op Res ε}
      {x : Res op} {s : σ} (hp : c.left i = .ask (.access op) next) (h : W c.shared op x s) :
      Schedules W body c (c.set s c.owner i (next x))
  | take {c : Threads Op Res ε ι σ} {i : ι} {patient : Bool} {next : Bool → Thread Op Res ε}
      (hp : c.left i = .ask (.lock patient) next) (h : c.owner = none) :
      Schedules W body c (c.set c.shared (some (i, 0)) i (next true))
  | retake {c : Threads Op Res ε ι σ} {i : ι} {patient : Bool} {next : Bool → Thread Op Res ε}
      {n : Nat} (hp : c.left i = .ask (.lock patient) next) (h : c.owner = some (i, n)) :
      Schedules W body c (c.set c.shared (some (i, n + 1)) i (next true))
  | giveUp {c : Threads Op Res ε ι σ} {i j : ι} {next : Bool → Thread Op Res ε} {n : Nat}
      (hp : c.left i = .ask (.lock false) next) (h : c.owner = some (j, n)) (hj : j ≠ i) :
      Schedules W body c (c.set c.shared c.owner i (next false))
  | release {c : Threads Op Res ε ι σ} {i : ι} {next : Bool → Thread Op Res ε} {n : Nat}
      (hp : c.left i = .ask .unlock next) (h : c.owner = some (i, n)) :
      Schedules W body c (c.set c.shared (if n = 0 then none else some (i, n - 1)) i (next true))
  | refuse {c : Threads Op Res ε ι σ} {i : ι} {next : Bool → Thread Op Res ε}
      (hp : c.left i = .ask .unlock next) (h : ∀ n, c.owner ≠ some (i, n)) :
      Schedules W body c (c.set c.shared c.owner i (next false))
  | again {c : Threads Op Res ε ι σ} {i : ι} (hp : c.left i = .done ()) :
      Schedules W body c (c.set c.shared c.owner i (body i))

/-- A thread that uses the lock as it should. -/
def Guarded (W : σ → (op : Op) → Res op → σ → Prop) (I R : σ → Prop) :
    Thread Op Res ε → Nat → σ → Prop
  | .done _, n, _ => n = 0
  | .fail _, n, _ => n = 0
  | .ask (.lock patient) next, 0, _ =>
    (∀ s, R s → Guarded W I R (next true) 1 s) ∧
      (patient = false → ∀ s, Guarded W I R (next false) 0 s)
  | .ask (.lock _) next, n + 1, s => Guarded W I R (next true) (n + 2) s
  | .ask .unlock _, 0, _ => False
  | .ask .unlock next, n + 1, s => (n = 0 → R s) ∧ Guarded W I R (next true) n s
  | .ask (.access op) next, 0, _ =>
    (∀ s x s', W s op x s' → s' = s) ∧ ∀ x s, Guarded W I R (next x) 0 s
  | .ask (.access op) next, n + 1, s =>
    ∀ x s', W s op x s' → I s' ∧ Guarded W I R (next x) (n + 1) s'

variable {W : σ → (op : Op) → Res op → σ → Prop} {I R : σ → Prop} {body : ι → Thread Op Res ε}
  {c c' : Threads Op Res ε ι σ} {p : Thread Op Res ε} {i j : ι} {n : Nat} {s : σ}

/-- Without the lock the state does not matter. -/
theorem guarded_outside (h : Guarded W I R p 0 s) (s' : σ) : Guarded W I R p 0 s' := by
  cases p with
  | done a => exact h
  | fail e => exact h
  | ask op next =>
    cases op with
    | lock patient => exact h
    | unlock => exact h
    | access op => exact h

/-- What holds all the time. -/
structure Threads.Sound (W : σ → (op : Op) → Res op → σ → Prop) (I R : σ → Prop)
    (c : Threads Op Res ε ι σ) : Prop where
  always : I c.shared
  free : c.owner = none → R c.shared
  threads : ∀ i, Guarded W I R (c.left i) (c.depth i) c.shared

/-! ## One step -/

theorem Threads.depth_none (h : c.owner = none) : c.depth i = 0 := by
  rw [depth, h]

theorem Threads.depth_some (h : c.owner = some (i, n)) : c.depth i = n + 1 := by
  rw [depth, h]
  exact if_pos rfl

theorem Threads.depth_other (h : c.owner = some (j, n)) (hj : j ≠ i) : c.depth i = 0 := by
  rw [depth, h]
  exact if_neg hj.symm

/-- A step of one thread: it leaves the others as they are, and changes the state only if they do
not have the lock. -/
theorem Threads.Sound.set (hc : c.Sound W I R) {s' : σ} {o : Option (ι × Nat)} (hI : I s')
    (hfree : o = none → R s') (hown : Guarded W I R p ((c.set s' o i p).depth i) s')
    (hothers : ∀ j, j ≠ i → (c.set s' o i p).depth j = c.depth j)
    (hstate : s' = c.shared ∨ ∀ j, j ≠ i → c.depth j = 0) : (c.set s' o i p).Sound W I R where
  always := hI
  free := hfree
  threads j := by
    by_cases hj : j = i
    · subst hj
      change Guarded W I R (Function.update c.left j p j) _ _
      rwa [Function.update_self]
    · have hthread := hc.threads j
      change Guarded W I R (Function.update c.left i p j) _ _
      rw [Function.update_of_ne hj, hothers j hj]
      obtain rfl | hzero := hstate
      · exact hthread
      · rw [hzero j hj] at hthread ⊢
        exact guarded_outside hthread s'

/-- The owner of the lock shuts the others out. -/
theorem Threads.depth_of_owner (h : c.owner = some (i, n)) : ∀ j, j ≠ i → c.depth j = 0 :=
  fun _ hj => depth_other h hj.symm

theorem Threads.owner_of_depth (h : c.depth i ≠ 0) : ∃ n, c.owner = some (i, n) := by
  cases ho : c.owner with
  | none => exact absurd (depth_none ho) h
  | some o =>
    obtain ⟨j, n⟩ := o
    by_cases hj : j = i
    · exact ⟨n, hj ▸ rfl⟩
    · exact absurd (depth_other ho hj) h

/-- What the thread owes before its next question. -/
theorem Threads.Sound.owes (hc : c.Sound W I R) (hp : c.left i = p) (hdepth : c.depth i = n) :
    Guarded W I R p n c.shared := by
  have hthread := hc.threads i
  rwa [hp, hdepth] at hthread

theorem Threads.Sound.access (hc : c.Sound W I R) {op : Op} {next : Res op → Thread Op Res ε}
    {x : Res op} (hp : c.left i = .ask (.access op) next) (h : W c.shared op x s) :
    (c.set s c.owner i (next x)).Sound W I R := by
  by_cases hdepth : c.depth i = 0
  · have hthread := hc.owes hp hdepth
    obtain rfl := hthread.1 _ _ _ h
    refine hc.set hc.always hc.free ?_ (fun _ _ => rfl) (Or.inl rfl)
    change Guarded W I R (next x) (c.depth i) _
    rw [hdepth]
    exact hthread.2 x _
  · obtain ⟨n, ho⟩ := owner_of_depth hdepth
    obtain ⟨hI, hnext⟩ := hc.owes hp (depth_some ho) _ _ h
    refine hc.set hI (fun he => ?_) ?_ (fun _ _ => rfl) (Or.inr (depth_of_owner ho))
    · rw [ho] at he
      cases he
    · change Guarded W I R (next x) (c.depth i) s
      rwa [depth_some ho]

theorem Threads.Sound.take (hc : c.Sound W I R) (hRI : ∀ s, R s → I s) {patient : Bool}
    {next : Bool → Thread Op Res ε} (hp : c.left i = .ask (.lock patient) next)
    (h : c.owner = none) : (c.set c.shared (some (i, 0)) i (next true)).Sound W I R := by
  have hR := hc.free h
  refine hc.set (hRI _ hR) (fun he => by cases he) ?_ (fun j hj => ?_) (Or.inl rfl)
  · rw [depth_some (n := 0) rfl]
    exact (hc.owes hp (depth_none h)).1 _ hR
  · rw [depth_none h, depth_other (j := i) (n := 0) rfl hj.symm]

theorem Threads.Sound.retake (hc : c.Sound W I R) {patient : Bool}
    {next : Bool → Thread Op Res ε} (hp : c.left i = .ask (.lock patient) next)
    (h : c.owner = some (i, n)) :
    (c.set c.shared (some (i, n + 1)) i (next true)).Sound W I R := by
  have hthread := hc.owes hp (depth_some h)
  refine hc.set hc.always (fun he => by cases he) ?_ (fun j hj => ?_) (Or.inl rfl)
  · rw [depth_some (n := n + 1) rfl]
    exact hthread
  · rw [depth_other h hj.symm, depth_other (j := i) (n := n + 1) rfl hj.symm]

theorem Threads.Sound.giveUp (hc : c.Sound W I R) {next : Bool → Thread Op Res ε}
    (hp : c.left i = .ask (.lock false) next) (h : c.owner = some (j, n)) (hj : j ≠ i) :
    (c.set c.shared c.owner i (next false)).Sound W I R := by
  refine hc.set hc.always hc.free ?_ (fun _ _ => rfl) (Or.inl rfl)
  change Guarded W I R (next false) (c.depth i) _
  rw [depth_other h hj]
  exact (hc.owes hp (depth_other h hj)).2 rfl _

theorem Threads.Sound.release (hc : c.Sound W I R) {next : Bool → Thread Op Res ε}
    (hp : c.left i = .ask .unlock next) (h : c.owner = some (i, n)) :
    (c.set c.shared (if n = 0 then none else some (i, n - 1)) i (next true)).Sound W I R := by
  have hthread := hc.owes hp (depth_some h)
  have hothers := depth_of_owner h
  by_cases hn : n = 0
  · subst hn
    refine hc.set hc.always (fun _ => hthread.1 rfl) ?_ (fun j hj => ?_) (Or.inl rfl)
    · rw [depth_none rfl]
      exact hthread.2
    · rw [depth_none rfl, hothers j hj]
  · rw [if_neg hn]
    refine hc.set hc.always (fun he => by cases he) ?_ (fun j hj => ?_) (Or.inl rfl)
    · rw [depth_some (n := n - 1) rfl, Nat.sub_add_cancel (Nat.pos_of_ne_zero hn)]
      exact hthread.2
    · rw [depth_other (j := i) (n := n - 1) rfl hj.symm, hothers j hj]

/-- Who asks to give the lock back has it. -/
theorem Threads.Sound.owner (hc : c.Sound W I R) {next : Bool → Thread Op Res ε}
    (hp : c.left i = .ask .unlock next) : ∃ n, c.owner = some (i, n) :=
  owner_of_depth fun hdepth => hc.owes hp hdepth

theorem Threads.Sound.again (hc : c.Sound W I R) (hbody : ∀ i s, Guarded W I R (body i) 0 s)
    (hp : c.left i = .done ()) : (c.set c.shared c.owner i (body i)).Sound W I R := by
  have hdepth : c.depth i = 0 := hc.owes hp rfl
  refine hc.set hc.always hc.free ?_ (fun _ _ => rfl) (Or.inl rfl)
  change Guarded W I R (body i) (c.depth i) _
  rw [hdepth]
  exact hbody i _

/-- **One step.** -/
theorem Threads.Sound.step (hbody : ∀ i s, Guarded W I R (body i) 0 s) (hRI : ∀ s, R s → I s)
    (hstep : Schedules W body c c') (hc : c.Sound W I R) : c'.Sound W I R := by
  cases hstep with
  | access hp h => exact hc.access hp h
  | take hp h => exact hc.take hRI hp h
  | retake hp h => exact hc.retake hp h
  | giveUp hp h hj => exact hc.giveUp hp h hj
  | release hp h => exact hc.release hp h
  | refuse hp h =>
    obtain ⟨n, ho⟩ := hc.owner hp
    exact absurd ho (h n)
  | again hp => exact hc.again hbody hp

/-! ## Whole runs -/

open Relation (ReflTransGen)

/-- The lock is free, and all threads begin their rounds. -/
def Threads.start (body : ι → Thread Op Res ε) (s : σ) : Threads Op Res ε ι σ := ⟨s, none, body⟩

theorem Guarded.sound (hbody : ∀ i s, Guarded W I R (body i) 0 s) (hRI : ∀ s, R s → I s)
    (hs : R s) (hc : ReflTransGen (Schedules W body) (.start body s) c) : c.Sound W I R := by
  induction hc with
  | refl => exact ⟨hRI s hs, fun _ => hs, fun i => hbody i s⟩
  | tail _ hstep ih => exact ih.step hbody hRI hstep

/-- **What the lock guards.** -/
theorem Guarded.invariant (hbody : ∀ i s, Guarded W I R (body i) 0 s) (hRI : ∀ s, R s → I s)
    (hs : R s) (hc : ReflTransGen (Schedules W body) (.start body s) c) :
    I c.shared ∧ (c.owner = none → R c.shared) ∧
      ∀ i next, c.left i = .ask .unlock next → ∃ n, c.owner = some (i, n) := by
  have hsound := sound hbody hRI hs hc
  exact ⟨hsound.always, hsound.free, fun i next hp => hsound.owner hp⟩

/-! ## A scheduler that can be run -/

/-- The thread `i` has its turn, and the state answers as `env` says. Who waits for the lock stays
where it is. -/
def turn (env : Env Op Res σ) (body : ι → Thread Op Res ε) (c : Threads Op Res ε ι σ) (i : ι) :
    Threads Op Res ε ι σ :=
  match c.left i with
  | .done () => c.set c.shared c.owner i (body i)
  | .fail _ => c
  | .ask (.access op) next => c.set (env c.shared op).2 c.owner i (next (env c.shared op).1)
  | .ask (.lock patient) next =>
    match c.owner with
    | none => c.set c.shared (some (i, 0)) i (next true)
    | some (j, n) =>
      if j = i then c.set c.shared (some (j, n + 1)) i (next true)
      else if patient then c else c.set c.shared (some (j, n)) i (next false)
  | .ask .unlock next =>
    match c.owner with
    | none => c.set c.shared none i (next false)
    | some (j, n) =>
      if j = i then c.set c.shared (if n = 0 then none else some (j, n - 1)) i (next true)
      else c.set c.shared (some (j, n)) i (next false)

theorem turn_schedules {env : Env Op Res σ} (henv : ∀ s op, W s op (env s op).1 (env s op).2) :
    turn env body c i = c ∨ Schedules W body c (turn env body c i) := by
  cases hp : c.left i with
  | done a =>
    rw [turn, hp]
    exact Or.inr (.again hp)
  | fail e =>
    rw [turn, hp]
    exact Or.inl rfl
  | ask op next =>
    cases op with
    | access op =>
      rw [turn, hp]
      exact Or.inr (.access hp (henv ..))
    | lock patient =>
      rw [turn, hp]
      cases ho : c.owner with
      | none => exact Or.inr (.take hp ho)
      | some o =>
        obtain ⟨j, n⟩ := o
        by_cases hj : j = i
        · subst hj
          simp only [↓reduceIte]
          exact Or.inr (.retake hp ho)
        · cases patient with
          | true => exact Or.inl (by simp [hj])
          | false =>
            simp only [if_neg hj, ← ho]
            exact Or.inr (.giveUp hp ho hj)
    | unlock =>
      rw [turn, hp]
      cases ho : c.owner with
      | none =>
        simp only [← ho]
        exact Or.inr (.refuse hp fun n => by simp [ho])
      | some o =>
        obtain ⟨j, n⟩ := o
        by_cases hj : j = i
        · subst hj
          simp only [↓reduceIte]
          exact Or.inr (.release hp ho)
        · simp only [if_neg hj, ← ho]
          exact Or.inr (.refuse hp fun n => by simp [ho, hj])

/-- Turns in the order of the list are a run. -/
theorem reachable_turns {env : Env Op Res σ} (henv : ∀ s op, W s op (env s op).1 (env s op).2)
    (is : List ι) : ReflTransGen (Schedules W body) c (is.foldl (turn env body) c) := by
  induction is generalizing c with
  | nil => exact .refl
  | cons i is ih =>
    obtain hstay | hstep : turn env body c i = c ∨ Schedules W body c (turn env body c i) :=
      turn_schedules henv
    · rw [List.foldl_cons, hstay]
      exact ih
    · exact .head hstep ih

end Interact
