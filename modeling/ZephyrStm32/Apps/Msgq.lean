import ZephyrStm32.Lib.Run

/-!
# The message queue demo: `sensor_func` and `processor_func`

Every 1500 ms the sensor puts a sample into `sensor_msgq`, which holds five, and drops it when the
queue is full. The processor takes one out and sleeps for 2000 ms. Time goes on only while neither
has anything to do; where both wake up at once, either may go first.

**Theorem (`quarter_lost`).** What was processed, followed by what is queued, is what was accepted,
in order. Of `k` samples between `(k - 24) / 4` and `(k - 17) / 4` were dropped: none of the first
twenty, and in the long run every fourth.
-/

namespace ZephyrStm32.Msgq

open Machine

/-- The number of messages that `sensor_msgq` holds. -/
def maxMsgs : Nat := 5

structure SensorData where
  id : Int32
  temperature : Int32
  humidity : Int32
  timestamp : UInt32
  deriving DecidableEq, Repr

/-- What the sensor makes of an id, at a time in ms. -/
def sampleOf (id : Int32) (now : Nat) : SensorData where
  id := id
  temperature := 25 + id % 10
  humidity := 60 + id % 20
  timestamp := UInt32.ofNat now

/-- The processor in `k_msgq_get`, or asleep until its wake-up time. -/
inductive Processor
  | waiting
  | asleep (wake : Nat)
  deriving DecidableEq

/-- The time in ms, the wake-up time of the sensor, and the data of both. -/
structure Demo where
  now : Nat
  wake : Nat
  /-- `data.id` of the sensor; it is not initialised. -/
  id : Int32
  sensorMsgq : List SensorData
  processor : Processor

inductive Event
  | sensor
  | processor
  /-- `n` ms go by. -/
  | elapse (n : Nat)

/-- The sample of a step, whether the queue took it, and the sample processed. -/
structure Output where
  sampled : Option (SensorData × Bool)
  processed : Option SensorData

namespace Demo

def start (id : Int32) : Demo := ⟨0, 1500, id, [], .waiting⟩

def sample (s : Demo) : SensorData := sampleOf (s.id + 1) s.now

/-- One round of `sensor_func`, up to the next sleep. -/
def sensorFunc (s : Demo) : Output × Demo :=
  let s' := { s with id := s.id + 1, wake := s.now + 1500 }
  if s.sensorMsgq.length < maxMsgs then
    (⟨some (s.sample, true), none⟩, { s' with sensorMsgq := s.sensorMsgq ++ [s.sample] })
  else (⟨some (s.sample, false), none⟩, s')

/-- Neither thread has anything to do for `n` ms. -/
def Sleeps (s : Demo) (n : Nat) : Prop :=
  s.now + n ≤ s.wake ∧
    match s.processor with
    | .waiting => s.sensorMsgq = []
    | .asleep wake => s.now + n ≤ wake

instance (s : Demo) (n : Nat) : Decidable (s.Sleeps n) :=
  match h : s.processor with
  | .waiting => decidable_of_iff (s.now + n ≤ s.wake ∧ s.sensorMsgq = []) (by rw [Sleeps, h])
  | .asleep wake => decidable_of_iff (s.now + n ≤ s.wake ∧ s.now + n ≤ wake) (by rw [Sleeps, h])

def step (s : Demo) : Event → Output × Demo
  | .sensor => if s.wake ≤ s.now then s.sensorFunc else (⟨none, none⟩, s)
  | .processor =>
    match s.processor with
    | .waiting =>
      match s.sensorMsgq with
      | [] => (⟨none, none⟩, s)
      | data :: rest =>
        (⟨none, some data⟩, { s with sensorMsgq := rest, processor := .asleep (s.now + 2000) })
    | .asleep wake =>
      (⟨none, none⟩, if wake ≤ s.now then { s with processor := .waiting } else s)
  | .elapse n => (⟨none, none⟩, if s.Sleeps n then { s with now := s.now + n } else s)

end Demo

abbrev DemoStep := Step Demo Event Output

/-- The samples so far, each with whether the queue took it. -/
def sampled : List DemoStep → List (SensorData × Bool)
  | [] => []
  | st :: h => sampled h ++ st.output.sampled.toList

def accepted (h : List DemoStep) : List SensorData :=
  ((sampled h).filter Prod.snd).map Prod.fst

def dropped (h : List DemoStep) : Nat := ((sampled h).filter fun x => !x.2).length

def processed : List DemoStep → List SensorData
  | [] => []
  | st :: h => processed h ++ st.output.processed.toList

/-- The sample number `k`, counted from 0, of a sensor that begins with `id`. -/
def sampleAt (id : Int32) (k : Nat) : SensorData :=
  sampleOf (id + Int32.ofNat k + 1) (1500 * (k + 1))

variable {h : List DemoStep} {s : Demo} {id : Int32} {k j d n wake : Nat} {data : SensorData}
  {rest : List SensorData}

/-! ## What time it is -/

/-- Where the processor is at a time, after `k` samples, of which it has `j`. -/
def ProcessorAt (k j now : Nat) : Processor → Prop
  | .waiting => now = 2000 * j + 1500 ∨ k = 0
  | .asleep wake => 0 < j ∧ wake = 2000 * j + 1500 ∧ 2000 * j ≤ now + 500 ∧ now ≤ wake

/-- The schedule after `k` samples, of which the processor has `j` and `d` were dropped. -/
structure Schedule (k j d : Nat) (s : Demo) : Prop where
  wake : s.wake = 1500 * (k + 1)
  le : s.now ≤ s.wake
  queue : s.sensorMsgq.length + d + j = k
  full : s.sensorMsgq.length ≤ maxMsgs
  processor : ProcessorAt k j s.now s.processor
  atMost : d = 0 ∨ 4 * d + 17 ≤ k

theorem schedule_start : Schedule 0 0 0 (.start id) :=
  ⟨rfl, Nat.zero_le _, rfl, Nat.zero_le _, Or.inr rfl, Or.inl rfl⟩

/-- The sensor wakes up no later than the processor needs for what it has. -/
theorem Schedule.due (hs : Schedule k j d s) (hw : s.wake ≤ s.now) :
    s.now = 1500 * (k + 1) ∧ (3 * k ≤ 4 * j) ∧ ProcessorAt (k + 1) j s.now s.processor := by
  have hnow : s.now = 1500 * (k + 1) := by rw [← hs.wake, Nat.le_antisymm hs.le hw]
  have hqueue := hs.queue
  have hat := hs.processor
  cases hp : s.processor with
  | waiting =>
    rw [hp] at hat
    have hat' : s.now = 2000 * j + 1500 := by
      obtain hat | rfl := hat
      · exact hat
      · omega
    exact ⟨hnow, by omega, Or.inl hat'⟩
  | asleep wake =>
    rw [hp] at hat
    obtain ⟨-, rfl, -, hle⟩ := id hat
    exact ⟨hnow, by omega, hat⟩

/-- A sample that the queue takes. -/
theorem Schedule.put (hs : Schedule k j d s) (hw : s.wake ≤ s.now)
    (hfree : s.sensorMsgq.length < maxMsgs) : Schedule (k + 1) j d
      { s with id := s.id + 1, wake := s.now + 1500, sensorMsgq := s.sensorMsgq ++ [data] } := by
  obtain ⟨hnow, -, hat⟩ := hs.due hw
  have hqueue := hs.queue
  have hlength : (s.sensorMsgq ++ [data]).length = s.sensorMsgq.length + 1 := List.length_append
  refine ⟨?_, Nat.le_add_right _ _, ?_, ?_, hat, hs.atMost.imp_right Nat.le_succ_of_le⟩
  · change s.now + 1500 = _
    rw [hnow]
    omega
  · change (s.sensorMsgq ++ [data]).length + d + j = k + 1
    omega
  · change (s.sensorMsgq ++ [data]).length ≤ maxMsgs
    rw [hlength]
    exact hfree

/-- A sample that is dropped: the processor is five behind, and cannot be more than a quarter of the
samples behind by the time. -/
theorem Schedule.drop (hs : Schedule k j d s) (hw : s.wake ≤ s.now)
    (hfull : ¬ s.sensorMsgq.length < maxMsgs) :
    Schedule (k + 1) j (d + 1) { s with id := s.id + 1, wake := s.now + 1500 } := by
  obtain ⟨hnow, hj, hat⟩ := hs.due hw
  have hqueue := hs.queue
  have hfive : s.sensorMsgq.length = 5 := Nat.le_antisymm hs.full (Nat.not_lt.mp hfull)
  refine ⟨?_, Nat.le_add_right _ _, ?_, hs.full, hat, Or.inr (by omega)⟩
  · change s.now + 1500 = _
    rw [hnow]
    omega
  · change s.sensorMsgq.length + (d + 1) + j = k + 1
    omega

/-- The processor takes a sample out. -/
theorem Schedule.take (hs : Schedule k j d s) (hp : s.processor = .waiting)
    (hq : s.sensorMsgq = data :: rest) : Schedule k (j + 1) d
      { s with sensorMsgq := rest, processor := .asleep (s.now + 2000) } := by
  have hat := hs.processor
  have hqueue := hs.queue
  have hfull := hs.full
  rw [hp] at hat
  rw [hq, List.length_cons] at hqueue hfull
  have hnow : s.now = 2000 * j + 1500 := by
    obtain hat | rfl := hat
    · exact hat
    · omega
  refine ⟨hs.wake, hs.le, ?_, Nat.le_of_succ_le hfull, ?_, hs.atMost⟩
  · change rest.length + d + (j + 1) = k
    omega
  · refine ⟨Nat.succ_pos j, ?_, ?_, Nat.le_add_right _ _⟩
    · omega
    · dsimp only
      omega

/-- The processor has slept. -/
theorem Schedule.wakeUp (hs : Schedule k j d s) (hp : s.processor = .asleep wake)
    (hw : wake ≤ s.now) : Schedule k j d { s with processor := .waiting } := by
  have hat := hs.processor
  rw [hp] at hat
  obtain ⟨-, rfl, -, hle⟩ := hat
  exact ⟨hs.wake, hs.le, hs.queue, hs.full, Or.inl (Nat.le_antisymm hle hw), hs.atMost⟩

/-- Time goes by. After the first sample the processor never finds the queue empty. -/
theorem Schedule.elapse (hs : Schedule k j d s) (hn : s.Sleeps n) :
    Schedule k j d { s with now := s.now + n } := by
  obtain ⟨hdue, hsleep⟩ := hn
  have hat := hs.processor
  have hwake := hs.wake
  have hqueue := hs.queue
  have hmost := hs.atMost
  refine ⟨hs.wake, hdue, hs.queue, hs.full, ?_, hs.atMost⟩
  change ProcessorAt k j (s.now + n) s.processor
  cases hp : s.processor with
  | waiting =>
    rw [hp] at hat hsleep
    dsimp only at hsleep
    rw [hsleep, List.length_nil] at hqueue
    refine Or.inr ?_
    obtain hat | hat := hat
    · omega
    · exact hat
  | asleep wake =>
    rw [hp] at hat hsleep
    obtain ⟨hpos, hw, hfrom, -⟩ := hat
    exact ⟨hpos, hw, Nat.le_trans hfrom (by omega), hsleep⟩

/-- The processor takes a sample every 2000 ms. -/
theorem Schedule.atLeast (hs : Schedule k j d s) : k ≤ 4 * d + 24 := by
  have hqueue := hs.queue
  have hfull := hs.full
  have hwake := hs.wake
  have hle := hs.le
  have hat := hs.processor
  simp only [maxMsgs] at hfull
  cases hp : s.processor with
  | waiting =>
    rw [hp] at hat
    obtain hat | rfl := hat
    · omega
    · exact Nat.zero_le _
  | asleep wake =>
    rw [hp] at hat
    obtain ⟨hpos, rfl, hfrom, -⟩ := hat
    omega

/-! ## Runs of the demo -/

theorem sampled_cons (e : Event) :
    sampled (stepOf Demo.step s e :: h) = sampled h ++ (s.step e).1.sampled.toList := rfl

theorem processed_cons (e : Event) :
    processed (stepOf Demo.step s e :: h) = processed h ++ (s.step e).1.processed.toList := rfl

/-- The samples are those of the sensor, and what is accepted is processed or queued. -/
structure DemoInv (id : Int32) (h : List DemoStep) (s : Demo) : Prop where
  schedule : Schedule (sampled h).length (processed h).length (dropped h) s
  lastId : s.id = id + Int32.ofNat (sampled h).length
  samples : (sampled h).map Prod.fst = (List.range (sampled h).length).map (sampleAt id)
  intact : processed h ++ s.sensorMsgq = accepted h

/-- A step without output. -/
theorem DemoInv.quiet {e : Event} {s' : Demo} (hi : DemoInv id h s)
    (hstep : s.step e = (⟨none, none⟩, s'))
    (hs : Schedule (sampled h).length (processed h).length (dropped h) s') (hid : s'.id = s.id)
    (hq : s'.sensorMsgq = s.sensorMsgq) :
    DemoInv id (stepOf Demo.step s e :: h) (s.step e).2 := by
  have hsampled : sampled (stepOf Demo.step s e :: h) = sampled h := by
    rw [sampled_cons, hstep, Option.toList_none, List.append_nil]
  have hprocessed : processed (stepOf Demo.step s e :: h) = processed h := by
    rw [processed_cons, hstep, Option.toList_none, List.append_nil]
  rw [hstep]
  constructor
  · rw [dropped, hsampled, hprocessed]
    exact hs
  · rw [hsampled, hid]
    exact hi.lastId
  · rw [hsampled]
    exact hi.samples
  · rw [accepted, hsampled, hprocessed, hq]
    exact hi.intact

/-- A sample is taken out. -/
theorem DemoInv.take (hi : DemoInv id h s) (hp : s.processor = .waiting)
    (hq : s.sensorMsgq = data :: rest) :
    DemoInv id (stepOf Demo.step s .processor :: h) (s.step .processor).2 := by
  have hstep : s.step .processor = (⟨none, some data⟩,
      { s with sensorMsgq := rest, processor := .asleep (s.now + 2000) }) := by
    rw [Demo.step, hp]
    dsimp only
    rw [hq]
  have hsampled : sampled (stepOf Demo.step s .processor :: h) = sampled h := by
    rw [sampled_cons, hstep, Option.toList_none, List.append_nil]
  have hprocessed : processed (stepOf Demo.step s .processor :: h) = processed h ++ [data] := by
    rw [processed_cons, hstep, Option.toList_some]
  rw [hstep]
  constructor
  · rw [dropped, hsampled, hprocessed, List.length_append]
    exact hi.schedule.take hp hq
  · rw [hsampled]
    exact hi.lastId
  · rw [hsampled]
    exact hi.samples
  · rw [accepted, hsampled, hprocessed, List.append_assoc, List.singleton_append, ← hq]
    exact hi.intact

/-- The sensor makes the next sample. -/
theorem DemoInv.sample (hi : DemoInv id h s) (hw : s.wake ≤ s.now) :
    s.sample = sampleAt id (sampled h).length := by
  rw [Demo.sample, hi.lastId, (hi.schedule.due hw).1]
  rfl

/-- One sample more. -/
theorem DemoInv.samples_append (hi : DemoInv id h s) (hw : s.wake ≤ s.now) (ok : Bool) :
    (sampled h ++ [(s.sample, ok)]).map Prod.fst =
      (List.range (sampled h ++ [(s.sample, ok)]).length).map (sampleAt id) := by
  rw [List.length_append, List.length_singleton, List.range_succ, List.map_append, List.map_append,
    hi.samples]
  exact congrArg (fun data => _ ++ [data]) (hi.sample hw)

theorem DemoInv.id_succ (hi : DemoInv id h s) :
    s.id + 1 = id + Int32.ofNat ((sampled h).length + 1) := by
  rw [hi.lastId, Int32.ofNat_add, Int32.add_assoc]
  rfl

/-- The sensor wakes up. -/
theorem DemoInv.sensor (hi : DemoInv id h s) (hw : s.wake ≤ s.now) :
    DemoInv id (stepOf Demo.step s .sensor :: h) (s.step .sensor).2 := by
  have hdue : s.step .sensor = s.sensorFunc := if_pos hw
  by_cases hfree : s.sensorMsgq.length < maxMsgs
  · have hstep : s.step .sensor = (⟨some (s.sample, true), none⟩, { s with
        id := s.id + 1, wake := s.now + 1500, sensorMsgq := s.sensorMsgq ++ [s.sample] }) :=
      hdue.trans (if_pos hfree)
    have hsampled :
        sampled (stepOf Demo.step s .sensor :: h) = sampled h ++ [(s.sample, true)] := by
      rw [sampled_cons, hstep, Option.toList_some]
    have hprocessed : processed (stepOf Demo.step s .sensor :: h) = processed h := by
      rw [processed_cons, hstep, Option.toList_none, List.append_nil]
    rw [hstep]
    constructor
    · have hdropped : dropped (stepOf Demo.step s .sensor :: h) = dropped h := by
        rw [dropped, hsampled, List.filter_append]
        exact congrArg List.length (List.append_nil _)
      rw [hdropped, hsampled, hprocessed, List.length_append]
      exact hi.schedule.put hw hfree
    · rw [hsampled, List.length_append]
      exact hi.id_succ
    · rw [hsampled]
      exact hi.samples_append hw true
    · rw [accepted, hsampled, hprocessed, List.filter_append, List.map_append, ← List.append_assoc,
        hi.intact]
      rfl
  · have hstep : s.step .sensor = (⟨some (s.sample, false), none⟩,
        { s with id := s.id + 1, wake := s.now + 1500 }) := hdue.trans (if_neg hfree)
    have hsampled : sampled (stepOf Demo.step s .sensor :: h) =
        sampled h ++ [(s.sample, false)] := by
      rw [sampled_cons, hstep, Option.toList_some]
    have hprocessed : processed (stepOf Demo.step s .sensor :: h) = processed h := by
      rw [processed_cons, hstep, Option.toList_none, List.append_nil]
    rw [hstep]
    constructor
    · have hdropped : dropped (stepOf Demo.step s .sensor :: h) = dropped h + 1 := by
        rw [dropped, hsampled, List.filter_append]
        exact List.length_append
      rw [hdropped, hsampled, hprocessed, List.length_append]
      exact hi.schedule.drop hw hfree
    · rw [hsampled, List.length_append]
      exact hi.id_succ
    · rw [hsampled]
      exact hi.samples_append hw false
    · rw [accepted, hsampled, hprocessed, List.filter_append, List.map_append]
      exact hi.intact.trans (List.append_nil _).symm

theorem DemoInv.step (hi : DemoInv id h s) (e : Event) :
    DemoInv id (stepOf Demo.step s e :: h) (s.step e).2 := by
  cases e with
  | sensor =>
    by_cases hw : s.wake ≤ s.now
    · exact hi.sensor hw
    · exact hi.quiet (if_neg hw) hi.schedule rfl rfl
  | processor =>
    cases hp : s.processor with
    | waiting =>
      cases hq : s.sensorMsgq with
      | nil =>
        have hstep : s.step .processor = (⟨none, none⟩, s) := by
          rw [Demo.step, hp]
          dsimp only
          rw [hq]
        exact hi.quiet hstep hi.schedule rfl rfl
      | cons data rest => exact hi.take hp hq
    | asleep wake =>
      have hstep : s.step .processor =
          (⟨none, none⟩, if wake ≤ s.now then { s with processor := .waiting } else s) := by
        rw [Demo.step, hp]
      by_cases hw : wake ≤ s.now
      · rw [if_pos hw] at hstep
        exact hi.quiet hstep (hi.schedule.wakeUp hp hw) rfl rfl
      · rw [if_neg hw] at hstep
        exact hi.quiet hstep hi.schedule rfl rfl
  | elapse n =>
    by_cases hn : s.Sleeps n
    · exact hi.quiet (congrArg _ (if_pos hn)) (hi.schedule.elapse hn) rfl rfl
    · exact hi.quiet (congrArg _ (if_neg hn)) hi.schedule rfl rfl

/-- **Theorem (`quarter_lost`).** In every run the samples are those of the sensor, one every
1500 ms; what was processed, followed by what is queued, is what was accepted; and of `k` samples
between `(k - 24) / 4` and `(k - 17) / 4` were dropped. -/
theorem quarter_lost (hr : Run Demo.step (.start id) h s) :
    (sampled h).map Prod.fst = (List.range (sampled h).length).map (sampleAt id) ∧
      processed h ++ s.sensorMsgq = accepted h ∧
      (dropped h = 0 ∨ 4 * dropped h + 17 ≤ (sampled h).length) ∧
      (sampled h).length ≤ 4 * dropped h + 24 := by
  have hstart : DemoInv id [] (.start id) := ⟨schedule_start, (Int32.add_zero id).symm, rfl, rfl⟩
  have hi : DemoInv id h s := hr.invariant hstart fun _ _ e _ hi => hi.step e
  exact ⟨hi.samples, hi.intact, hi.schedule.atMost, hi.schedule.atLeast⟩

/-- Every 500 ms the sensor goes first. -/
def ticks (n : Nat) : List Event :=
  (List.replicate n [.elapse 500, .sensor, .processor, .processor]).flatten

/-- The 21st sample is dropped. -/
theorem quarter_lost_ticks : ∃ h s, Run Demo.step (.start 0) h s ∧ (sampled h).length = 21 ∧
    dropped h = 1 ∧ processed h ++ s.sensorMsgq = accepted h := by
  have hr := run_exec Demo.step (.start 0) (ticks 63)
  refine ⟨_, _, hr, ?_, ?_, (quarter_lost hr).2.1⟩
  · decide +kernel
  · decide +kernel

end ZephyrStm32.Msgq
