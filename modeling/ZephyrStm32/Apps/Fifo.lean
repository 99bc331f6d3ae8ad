import ZephyrStm32.Lib.Run

/-!
# The FIFO demo: `producer_func` and `consumer_func`

The producer puts one of the four items of `data_pool` into `data_fifo` every 1500 ms, taking them
round and round; the consumer takes one out, keeps it for 2500 ms and takes the next. Time goes on
only while neither has anything to do. What becomes of the queue when an item is put that is still
linked in it is left open.

**Theorem (`owned_iff`).** In a run every item put was free, and what was taken out followed by
what is still queued is what was put, exactly when there were eight puts or fewer. The ninth, after
13.5 s, is of an item that the consumer holds.
-/

namespace ZephyrStm32.Fifo

open Machine

def poolSize : Nat := 4

structure DataItem where
  count : Nat
  msg : String

/-- The consumer in `k_fifo_get`, or asleep with an item until its wake-up time. -/
inductive Consumer
  | waiting
  | holding (item wake : Nat)
  deriving DecidableEq

/-- The time in ms, the wake-up time of the producer, and the data of both; `data_fifo` holds
indices into `data_pool`. -/
structure Demo where
  now : Nat
  wake : Nat
  poolIndex : Nat
  pool : Nat → DataItem
  dataFifo : List Nat
  consumer : Consumer

inductive Event
  /-- The producer runs; `garbled` is the queue after a put of an item linked in it. -/
  | producer (garbled : List Nat)
  | consumer
  /-- `n` ms go by. -/
  | elapse (n : Nat)

/-- The messages put and taken out in a step. -/
structure Output where
  put : Option String
  got : Option String

namespace Demo

def start : Demo := ⟨0, 1500, 0, fun _ => ⟨0, ""⟩, [], .waiting⟩

/-- `k_fifo_put`: an item may not be linked already. -/
def kFifoPut (garbled fifo : List Nat) (item : Nat) : List Nat :=
  if item ∈ fifo then garbled else fifo ++ [item]

/-- The item that the producer puts next, with its count and message. -/
def nextItem (s : Demo) : DataItem :=
  let count := (s.pool s.poolIndex).count + 1
  ⟨count, "msg #" ++ toString count⟩

/-- The body of `producer_func`, up to the next `k_msleep(1500)`. -/
def produce (s : Demo) (garbled : List Nat) : Demo :=
  { s with
    wake := s.now + 1500
    poolIndex := (s.poolIndex + 1) % poolSize
    pool := Function.update s.pool s.poolIndex s.nextItem
    dataFifo := kFifoPut garbled s.dataFifo s.poolIndex }

/-- `n` ms can go by: nobody has anything to do before they are over. -/
def Sleeps (s : Demo) (n : Nat) : Prop :=
  s.now + n ≤ s.wake ∧
    match s.consumer with
    | .waiting => s.dataFifo = []
    | .holding _ wake => s.now + n ≤ wake

instance (s : Demo) (n : Nat) : Decidable (s.Sleeps n) :=
  match h : s.consumer with
  | .waiting => decidable_of_iff (s.now + n ≤ s.wake ∧ s.dataFifo = []) (by rw [Sleeps, h])
  | .holding _ wake => decidable_of_iff (s.now + n ≤ s.wake ∧ s.now + n ≤ wake) (by rw [Sleeps, h])

def step (s : Demo) : Event → Output × Demo
  | .producer garbled =>
    if s.wake ≤ s.now then (⟨some s.nextItem.msg, none⟩, s.produce garbled) else (⟨none, none⟩, s)
  | .consumer =>
    match s.consumer with
    | .waiting =>
      match s.dataFifo with
      | [] => (⟨none, none⟩, s)
      | item :: rest =>
        (⟨none, some (s.pool item).msg⟩,
          { s with dataFifo := rest, consumer := .holding item (s.now + 2500) })
    | .holding _ wake =>
      (⟨none, none⟩, if wake ≤ s.now then { s with consumer := .waiting } else s)
  | .elapse n => (⟨none, none⟩, if s.Sleeps n then { s with now := s.now + n } else s)

/-- The item is neither linked in the queue nor held by the consumer. -/
def Free (s : Demo) (item : Nat) : Prop :=
  item ∉ s.dataFifo ∧ ∀ wake, s.consumer ≠ .holding item wake

end Demo

abbrev DemoStep := Step Demo Event Output

/-- The messages put so far, and the messages taken out. -/
def produced : List DemoStep → List String
  | [] => []
  | st :: h => produced h ++ st.output.put.toList

def delivered : List DemoStep → List String
  | [] => []
  | st :: h => delivered h ++ st.output.got.toList

/-- The item put is free. -/
def Owned (_ : List DemoStep) (st : DemoStep) : Prop :=
  st.output.put ≠ none → st.before.Free st.before.poolIndex

/-- What was put has been taken out in order, or is still queued as it was put. -/
def Intact (h : List DemoStep) (s : Demo) : Prop :=
  delivered h ++ s.dataFifo.map (fun i => (s.pool i).msg) = produced h

variable {h : List DemoStep} {s : Demo} {j k n item wake : Nat} {garbled rest : List Nat}

/-! ## What time it is -/

/-- Where the consumer is at a time, after `j` items. -/
def ConsumerAt (j now : Nat) : Consumer → Prop
  | .waiting => now ≤ 2500 * j + 1500 ∧ (j = 0 ∨ now = 2500 * j + 1500)
  | .holding item wake =>
    0 < j ∧ item = (j - 1) % poolSize ∧ wake = 2500 * j + 1500 ∧ 2500 * j ≤ now + 1000 ∧ now ≤ wake

/-- The schedule after `k` puts, of which `j` were taken out. -/
structure Schedule (k j : Nat) (s : Demo) : Prop where
  wake : s.wake = 1500 * (k + 1)
  ge : 1500 * k ≤ s.now
  le : s.now ≤ s.wake
  taken : j ≤ k
  poolIndex : s.poolIndex = k % poolSize
  dataFifo : s.dataFifo = (List.range' j (k - j)).map (· % poolSize)
  consumer : ConsumerAt j s.now s.consumer

theorem schedule_start : Schedule 0 0 .start :=
  ⟨rfl, le_rfl, Nat.zero_le _, le_rfl, rfl, rfl, Nat.zero_le _, Or.inl rfl⟩

/-- A put of an item that is not linked. -/
theorem Schedule.produce (hs : Schedule k j s) (hw : s.wake ≤ s.now)
    (hfree : s.poolIndex ∉ s.dataFifo) : Schedule (k + 1) j (s.produce garbled) := by
  have hnow : s.now = 1500 * (k + 1) := by rw [← hs.wake, Nat.le_antisymm hs.le hw]
  refine ⟨?_, hnow.ge, Nat.le_add_right _ _, Nat.le_succ_of_le hs.taken, ?_, ?_, hs.consumer⟩
  · change s.now + 1500 = _
    rw [hnow]
    omega
  · change (s.poolIndex + 1) % poolSize = _
    rw [hs.poolIndex, Nat.mod_add_mod]
  · change Demo.kFifoPut garbled s.dataFifo s.poolIndex = _
    rw [Demo.kFifoPut, if_neg hfree, hs.dataFifo, hs.poolIndex, Nat.succ_sub hs.taken,
      List.range'_1_concat, List.map_append, Nat.add_sub_cancel' hs.taken]
    rfl

/-- The consumer takes an item out. -/
theorem Schedule.take (hs : Schedule k j s) (hc : s.consumer = .waiting)
    (hf : s.dataFifo = item :: rest) : Schedule k (j + 1)
      { s with dataFifo := rest, consumer := .holding item (s.now + 2500) } := by
  have hat := hs.consumer
  have hge := hs.ge
  rw [hc] at hat
  obtain ⟨hle, hnow⟩ := hat
  have hfifo := hs.dataFifo
  cases hlen : k - j with
  | zero =>
    rw [hlen, hf] at hfifo
    cases hfifo
  | succ m =>
    rw [hlen, hf, List.range'_succ, List.map_cons, List.cons.injEq] at hfifo
    refine ⟨hs.wake, hs.ge, hs.le, by omega, hs.poolIndex, ?_, ?_⟩
    · rw [show k - (j + 1) = m by omega]
      exact hfifo.2
    · refine ⟨Nat.succ_pos j, hfifo.1, ?_, ?_, Nat.le_add_right _ _⟩
      · omega
      · dsimp only
        omega

/-- The consumer has slept. -/
theorem Schedule.release (hs : Schedule k j s) (hc : s.consumer = .holding item wake)
    (hw : wake ≤ s.now) : Schedule k j { s with consumer := .waiting } := by
  have hat := hs.consumer
  rw [hc] at hat
  obtain ⟨-, -, rfl, -, hle⟩ := hat
  exact ⟨hs.wake, hs.ge, hs.le, hs.taken, hs.poolIndex, hs.dataFifo, hle,
    Or.inr (Nat.le_antisymm hle hw)⟩

/-- Time goes by. -/
theorem Schedule.elapse (hs : Schedule k j s) (hn : s.Sleeps n) :
    Schedule k j { s with now := s.now + n } := by
  have hge := hs.ge
  have hle := hs.le
  have hwake := hs.wake
  refine ⟨hs.wake, Nat.le_add_right_of_le hs.ge, hn.1, hs.taken, hs.poolIndex, hs.dataFifo, ?_⟩
  have hat := hs.consumer
  have hsleep := hn.2
  have hdue := hn.1
  cases hc : s.consumer with
  | waiting =>
    rw [hc] at hat hsleep
    obtain ⟨-, hnow⟩ := hat
    have hlen : k - j = 0 := by
      have hl := congrArg List.length hs.dataFifo
      rw [hsleep] at hl
      simpa using hl.symm
    have htaken := hs.taken
    change s.now + n ≤ 2500 * j + 1500 ∧ (j = 0 ∨ s.now + n = 2500 * j + 1500)
    omega
  | holding item wake =>
    rw [hc] at hat hsleep
    obtain ⟨hpos, hitem, hw, hfrom, -⟩ := hat
    exact ⟨hpos, hitem, hw, by dsimp only; omega, hsleep⟩

/-- At the next put, the items taken out and put since are these. -/
theorem Schedule.free_iff (hs : Schedule k j s) : s.Free s.poolIndex ↔
    (∀ i, j ≤ i → i < k → i % poolSize ≠ k % poolSize) ∧
      ∀ wake, s.consumer ≠ .holding (k % poolSize) wake := by
  rw [Demo.Free, hs.dataFifo, hs.poolIndex]
  refine and_congr_left fun _ => ?_
  simp only [List.mem_map, List.mem_range'_1, not_exists, not_and]
  have htaken := hs.taken
  constructor
  · exact fun h i hle hlt => h i ⟨hle, by omega⟩
  · exact fun h i hi => h i hi.1 (by omega)

/-- Up to the eighth put, the item is free. -/
theorem Schedule.free (hs : Schedule k j s) (hw : s.wake ≤ s.now) (hk : k < 8) :
    s.Free s.poolIndex := by
  have hnow : s.now = 1500 * (k + 1) := by rw [← hs.wake, Nat.le_antisymm hs.le hw]
  have hat := hs.consumer
  rw [hs.free_iff]
  simp only [poolSize]
  cases hc : s.consumer with
  | waiting =>
    rw [hc] at hat
    obtain ⟨hle, hlast⟩ := hat
    refine ⟨fun i hi hlt he => ?_, fun _ he => (nomatch he)⟩
    omega
  | holding item wake =>
    rw [hc] at hat
    obtain ⟨hpos, rfl, rfl, hfrom, hle⟩ := hat
    refine ⟨fun i hi hlt he => by omega, fun w he => ?_⟩
    simp only [Consumer.holding.injEq, poolSize] at he
    have htaken := hs.taken
    omega

/-- At the ninth, the consumer holds it. -/
theorem Schedule.held (hs : Schedule 8 j s) (hw : s.wake ≤ s.now) : ¬ s.Free s.poolIndex := by
  have hnow : s.now = 13500 := by rw [Nat.le_antisymm hs.le hw, hs.wake]
  have hat := hs.consumer
  rw [hs.free_iff]
  intro h
  cases hc : s.consumer with
  | waiting =>
    rw [hc] at hat
    obtain ⟨hle, hlast⟩ := hat
    omega
  | holding item wake =>
    rw [hc] at hat
    obtain ⟨hpos, rfl, rfl, hfrom, hle⟩ := hat
    have hj : j = 5 := by omega
    subst hj
    exact h.2 _ hc

/-! ## Runs of the demo -/

/-- The schedule of a run, and that nothing is lost. -/
structure DemoInv (h : List DemoStep) (s : Demo) : Prop where
  schedule : Schedule (produced h).length (delivered h).length s
  intact : Intact h s

theorem produced_cons (e : Event) :
    produced (stepOf Demo.step s e :: h) = produced h ++ (s.step e).1.put.toList := rfl

theorem delivered_cons (e : Event) :
    delivered (stepOf Demo.step s e :: h) = delivered h ++ (s.step e).1.got.toList := rfl

/-- A put of a free item. -/
theorem DemoInv.produce (hi : DemoInv h s) (hw : s.wake ≤ s.now) (hfree : s.Free s.poolIndex) :
    DemoInv (stepOf Demo.step s (.producer garbled) :: h) (s.step (.producer garbled)).2 := by
  have hstep : s.step (.producer garbled) = (⟨some s.nextItem.msg, none⟩, s.produce garbled) :=
    if_pos hw
  constructor
  · rw [produced_cons, delivered_cons, hstep, List.length_append, Option.toList_none,
      List.append_nil]
    exact hi.schedule.produce hw hfree.1
  · have hfifo : (s.produce garbled).dataFifo = s.dataFifo ++ [s.poolIndex] := if_neg hfree.1
    have hpool : ∀ i ∈ s.dataFifo, ((s.produce garbled).pool i).msg = (s.pool i).msg := by
      intro i hmem
      have hne : i ≠ s.poolIndex := fun he => hfree.1 (he ▸ hmem)
      exact congrArg DataItem.msg (Function.update_of_ne hne _ _)
    have hnew : ((s.produce garbled).pool s.poolIndex).msg = s.nextItem.msg :=
      congrArg DataItem.msg (Function.update_self _ _ _)
    rw [Intact, produced_cons, delivered_cons, hstep, hfifo, List.map_append,
      List.map_congr_left hpool, List.map_singleton, hnew, Option.toList_none, List.append_nil,
      ← List.append_assoc, hi.intact]
    rfl

/-- The oldest item taken out. -/
theorem DemoInv.take (hi : DemoInv h s) (hc : s.consumer = .waiting)
    (hf : s.dataFifo = item :: rest) :
    DemoInv (stepOf Demo.step s .consumer :: h) (s.step .consumer).2 := by
  have hstep : s.step .consumer = (⟨none, some (s.pool item).msg⟩,
      { s with dataFifo := rest, consumer := .holding item (s.now + 2500) }) := by
    rw [Demo.step, hc]
    dsimp only
    rw [hf]
  have hintact := hi.intact
  rw [Intact, hf, List.map_cons] at hintact
  constructor
  · rw [produced_cons, delivered_cons, hstep, Option.toList_none, List.append_nil,
      List.length_append]
    exact hi.schedule.take hc hf
  · rw [Intact, produced_cons, delivered_cons, hstep, Option.toList_none, List.append_nil,
      ← hintact, List.append_assoc]
    rfl

/-- A step that neither puts nor takes. -/
theorem DemoInv.quiet (hi : DemoInv h s) {e : Event} {s' : Demo}
    (hstep : s.step e = (⟨none, none⟩, s'))
    (hs : Schedule (produced h).length (delivered h).length s') (hfifo : s'.dataFifo = s.dataFifo)
    (hpool : s'.pool = s.pool) : DemoInv (stepOf Demo.step s e :: h) (s.step e).2 := by
  constructor
  · rw [produced_cons, delivered_cons, hstep, Option.toList_none, List.append_nil, List.append_nil]
    exact hs
  · rw [Intact, produced_cons, delivered_cons, hstep, Option.toList_none, List.append_nil,
      List.append_nil, hfifo, hpool]
    exact hi.intact

/-- A step keeps the schedule, unless it puts an item that is not free. -/
theorem demoInv_step (hi : DemoInv h s) (e : Event) (ho : Owned h (stepOf Demo.step s e)) :
    DemoInv (stepOf Demo.step s e :: h) (s.step e).2 := by
  have hs := hi.schedule
  cases e with
  | producer garbled =>
    by_cases hw : s.wake ≤ s.now
    · have hput : (s.step (.producer garbled)).1.put ≠ none := by
        rw [Demo.step, if_pos hw]
        exact Option.some_ne_none _
      exact hi.produce hw (ho hput)
    · exact hi.quiet (if_neg hw) hs rfl rfl
  | consumer =>
    cases hc : s.consumer with
    | waiting =>
      cases hf : s.dataFifo with
      | nil => exact hi.quiet (by rw [Demo.step, hc, hf]) hs rfl rfl
      | cons item rest => exact hi.take hc hf
    | holding item wake =>
      by_cases hw : wake ≤ s.now
      · exact hi.quiet (by simp only [Demo.step, hc, if_pos hw]) (hs.release hc hw) rfl rfl
      · exact hi.quiet (by simp only [Demo.step, hc, if_neg hw]) hs rfl rfl
  | elapse n =>
    by_cases hn : s.Sleeps n
    · exact hi.quiet (by rw [Demo.step, if_pos hn]) (hs.elapse hn) rfl rfl
    · exact hi.quiet (by rw [Demo.step, if_neg hn]) hs rfl rfl

/-- Only a producer that is due puts something. -/
theorem put_ne_none {e : Event} (hput : (s.step e).1.put ≠ none) :
    s.wake ≤ s.now ∧ (s.step e).1.put = some s.nextItem.msg := by
  cases e with
  | producer garbled =>
    by_cases hw : s.wake ≤ s.now
    · rw [Demo.step, if_pos hw]
      exact ⟨hw, rfl⟩
    · rw [Demo.step, if_neg hw] at hput
      exact absurd rfl hput
  | consumer =>
    refine absurd ?_ hput
    rw [Demo.step]
    split
    · split <;> rfl
    · rfl
  | elapse n => exact absurd rfl hput

/-- While all puts are of free items there are at most eight. -/
theorem produced_le (hr : Run Demo.step .start h s) (ho : Always Owned h) :
    DemoInv h s ∧ (produced h).length ≤ 8 := by
  refine hr.invariant_of_always (P := fun h s => DemoInv h s ∧ (produced h).length ≤ 8) ho
    ⟨⟨schedule_start, rfl⟩, Nat.zero_le _⟩ ?_
  rintro h s e _ ⟨hi, hle⟩ ho
  refine ⟨demoInv_step hi e ho, ?_⟩
  by_cases hput : (s.step e).1.put = none
  · rw [produced_cons, hput, Option.toList_none, List.append_nil]
    exact hle
  · obtain ⟨hw, hmsg⟩ := put_ne_none hput
    rw [produced_cons, hmsg, List.length_append]
    rcases Nat.lt_or_eq_of_le hle with hlt | heq
    · exact hlt
    · have hs := hi.schedule
      rw [heq] at hs
      exact absurd (ho hput) (hs.held hw)

/-- The first eight puts are all of free items. -/
theorem owned_of_le (hr : Run Demo.step .start h s) (hle : (produced h).length ≤ 8) :
    Always Owned h := by
  refine (hr.invariant (P := fun h s => (produced h).length ≤ 8 → Always Owned h ∧ DemoInv h s)
    (fun _ => ⟨trivial, schedule_start, rfl⟩) ?_ hle).1
  intro h s e _ ih hle
  rw [produced_cons, List.length_append] at hle
  obtain ⟨ha, hi⟩ := ih (Nat.le_of_add_right_le hle)
  have ho : Owned h (stepOf Demo.step s e) := by
    intro hput
    obtain ⟨hw, hmsg⟩ := put_ne_none hput
    rw [hmsg] at hle
    exact hi.schedule.free hw hle
  exact ⟨⟨ho, ha⟩, demoInv_step hi e ho⟩

/-- **The pool.** In every run of the two threads, in every order where both are due, all items put
were free, and what was put has been taken out in order or is still queued as it was put, exactly
when there were at most eight puts. -/
theorem owned_iff (hr : Run Demo.step .start h s) :
    (Always Owned h ∧ Intact h s) ↔ (produced h).length ≤ 8 := by
  constructor
  · exact fun ho => (produced_le hr ho.1).2
  · intro hle
    have ho := owned_of_le hr hle
    exact ⟨ho, (produced_le hr ho).1.intact⟩

/-- Two puts, with one item taken out and one queued. -/
theorem owned_iff_two : Always Owned (exec Demo.step .start
    [.elapse 1500, .producer [], .consumer, .elapse 1500, .producer []]).1 :=
  ((owned_iff (run_exec _ _ _)).2 (by decide)).1

/-- The first 13.5 s: the ninth put is of the item put fifth and taken out at 11.5 s. -/
def ninePuts : List Event :=
  [.elapse 1500, .producer [], .consumer, .elapse 1500, .producer [],
    .elapse 1000, .consumer, .consumer, .elapse 500, .producer [], .elapse 1500, .producer [],
    .elapse 500, .consumer, .consumer, .elapse 1000, .producer [],
    .elapse 1500, .consumer, .consumer, .producer [], .elapse 1500, .producer [],
    .elapse 1000, .consumer, .consumer, .elapse 500, .producer [], .elapse 1500, .producer []]

theorem not_owned : ∃ h s, Run Demo.step .start h s ∧ s.now = 13500 ∧ ¬ Always Owned h := by
  have hr := run_exec Demo.step .start ninePuts
  refine ⟨_, _, hr, by decide +kernel, fun ho => ?_⟩
  exact absurd (produced_le hr ho).2 (by decide +kernel)

theorem now_le_step (s : Demo) (e : Event) : s.now ≤ (s.step e).2.now := by
  cases e with
  | producer garbled =>
    rw [Demo.step]
    split <;> exact le_rfl
  | consumer =>
    rw [Demo.step]
    split
    · split <;> exact le_rfl
    · dsimp only
      split <;> exact le_rfl
  | elapse n =>
    rw [Demo.step]
    dsimp only
    split
    · exact Nat.le_add_right _ _
    · exact le_rfl

/-- Before 13.5 s there are no more than eight puts. -/
theorem produced_le_of_now (hr : Run Demo.step .start h s) (hnow : s.now < 13500) :
    (produced h).length ≤ 8 := by
  refine ((hr.invariant (P := fun h s => s.now < 13500 → DemoInv h s ∧ (produced h).length ≤ 8)
    (fun _ => ⟨⟨schedule_start, rfl⟩, Nat.zero_le _⟩) ?_) hnow).2
  intro h s e hr ih hnow
  obtain ⟨hi, hle⟩ := ih (Nat.lt_of_le_of_lt (now_le_step s e) hnow)
  have hs := hi.schedule
  have ho : Owned h (stepOf Demo.step s e) := by
    intro hput
    obtain ⟨hw, -⟩ := put_ne_none hput
    have hbefore := Nat.lt_of_le_of_lt (now_le_step s e) hnow
    have hwake := hs.wake
    exact hs.free hw (by omega)
  have ha : Always Owned (stepOf Demo.step s e :: h) := ⟨ho, owned_of_le hr hle⟩
  exact ⟨demoInv_step hi e ho, (produced_le (hr.snoc e) ha).2⟩

end ZephyrStm32.Fifo
