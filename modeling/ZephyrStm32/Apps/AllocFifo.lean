import ZephyrStm32.Lib.Run

/-!
# The FIFO demo with allocated items: `sensor_alloc_func` and `processor_alloc_func`

Once a second the sensor allocates an item, fills it in and puts it into `sensor_fifo`; it prints
the item after the put, when the processor may have it already. The processor takes an item out,
prints it, and frees it 800 ms later. The threads are interrupted between any two statements; time
goes on only while neither has anything to do. What `k_malloc` returns, what is in the
block, and whether `k_fifo_alloc_put` finds memory are inputs.

**Theorem (`items_safe`).** Every access is to an allocated item, and no item is freed twice; the
items allocated are those that a thread or the queue has, each of them once; and what is processed
is what was put, in order.
-/

namespace ZephyrStm32.AllocFifo

open Machine

abbrev Ptr := Nat

structure SensorData where
  id : Int32
  value : Int32
  deriving DecidableEq, Repr

/-- Where the sensor is in its round, with its item. -/
inductive Sensor
  | asleep (wake : Nat)
  /-- Before `data->id++`. -/
  | counting (data : Ptr)
  /-- Before `data->value = data->id * 100`. -/
  | valuing (data : Ptr)
  | putting (data : Ptr)
  /-- Before the `printk` after a put. -/
  | printing (data : Ptr)
  /-- Before the `printk` when the put failed. -/
  | failing (data : Ptr)
  /-- Before the `k_free` after it. -/
  | freeing (data : Ptr)
  deriving DecidableEq

inductive Processor
  | waiting
  | printing (data : Ptr)
  | asleep (data : Ptr) (wake : Nat)
  deriving DecidableEq

/-- The time in ms, which blocks are allocated and what is in them, and the data of both threads. -/
structure Demo where
  now : Nat
  live : Ptr → Bool
  mem : Ptr → SensorData
  sensor : Sensor
  sensorFifo : List Ptr
  processor : Processor

inductive Event
  /-- The sensor goes on, with what `k_malloc` and `k_fifo_alloc_put` would find. -/
  | sensor (block : Option (Ptr × SensorData)) (room : Bool)
  | processor
  /-- `n` ms go by. -/
  | elapse (n : Nat)

/-- What is put and what is processed, and whether the items accessed and freed were allocated. -/
structure Output where
  put : Option SensorData
  processed : Option SensorData
  ok : Bool

def Output.none : Output := ⟨.none, .none, true⟩

namespace Demo

def start : Demo := ⟨0, fun _ => false, fun _ => ⟨0, 0⟩, .asleep 1000, [], .waiting⟩

/-- `k_malloc` returns no block that is allocated. -/
def kMalloc (s : Demo) : Option (Ptr × SensorData) → Demo
  | none => { s with sensor := .asleep (s.now + 1000) }
  | some (data, junk) =>
    if s.live data then { s with sensor := .asleep (s.now + 1000) }
    else { s with
      live := Function.update s.live data true
      mem := Function.update s.mem data junk
      sensor := .counting data }

def kFree (s : Demo) (data : Ptr) : Demo := { s with live := Function.update s.live data false }

/-- Neither thread has anything to do for `n` ms. -/
def sleeps (s : Demo) (n : Nat) : Bool :=
  match s.sensor, s.processor with
  | .asleep wake, .waiting => s.now + n ≤ wake && s.sensorFifo.isEmpty
  | .asleep wake, .asleep _ wake' => s.now + n ≤ wake && s.now + n ≤ wake'
  | _, _ => false

def sensorStep (s : Demo) (block : Option (Ptr × SensorData)) (room : Bool) : Output × Demo :=
  match s.sensor with
  | .asleep wake => (.none, if wake ≤ s.now then s.kMalloc block else s)
  | .counting data =>
    (⟨none, none, s.live data⟩, { s with
      mem := Function.update s.mem data { s.mem data with id := (s.mem data).id + 1 }
      sensor := .valuing data })
  | .valuing data =>
    (⟨none, none, s.live data⟩, { s with
      mem := Function.update s.mem data { s.mem data with value := (s.mem data).id * 100 }
      sensor := .putting data })
  | .putting data =>
    if room then
      (⟨some (s.mem data), none, true⟩,
        { s with sensorFifo := s.sensorFifo ++ [data], sensor := .printing data })
    else (.none, { s with sensor := .failing data })
  | .printing data => (⟨none, none, s.live data⟩, { s with sensor := .asleep (s.now + 1000) })
  | .failing data => (⟨none, none, s.live data⟩, { s with sensor := .freeing data })
  | .freeing data =>
    (⟨none, none, s.live data⟩, { s.kFree data with sensor := .asleep (s.now + 1000) })

def processorStep (s : Demo) : Output × Demo :=
  match s.processor with
  | .waiting =>
    match s.sensorFifo with
    | [] => (.none, s)
    | data :: rest => (.none, { s with sensorFifo := rest, processor := .printing data })
  | .printing data =>
    (⟨none, some (s.mem data), s.live data⟩, { s with processor := .asleep data (s.now + 800) })
  | .asleep data wake =>
    if wake ≤ s.now then
      (⟨none, none, s.live data⟩, { s.kFree data with processor := .waiting })
    else (.none, s)

def step (s : Demo) : Event → Output × Demo
  | .sensor block room => s.sensorStep block room
  | .processor => s.processorStep
  | .elapse n => (.none, if s.sleeps n then { s with now := s.now + n } else s)

end Demo

abbrev DemoStep := Step Demo Event Output

def put : List DemoStep → List SensorData
  | [] => []
  | st :: h => put h ++ st.output.put.toList

def processed : List DemoStep → List SensorData
  | [] => []
  | st :: h => processed h ++ st.output.processed.toList

/-! ## Who has which item -/

/-- The item that the sensor has to pass on or to free; the one it prints after the put is not its
own any more. -/
def Sensor.owned : Sensor → List Ptr
  | .asleep _ => []
  | .counting data => [data]
  | .valuing data => [data]
  | .putting data => [data]
  | .printing _ => []
  | .failing data => [data]
  | .freeing data => [data]

def Processor.owned : Processor → List Ptr
  | .waiting => []
  | .printing data => [data]
  | .asleep data _ => [data]

/-- The items taken out that are not printed yet. -/
def Processor.unprinted : Processor → List Ptr
  | .printing data => [data]
  | _ => []

namespace Demo

def owned (s : Demo) : List Ptr := s.processor.owned ++ s.sensorFifo ++ s.sensor.owned

/-- The item is somebody's who will not free it now. -/
def Kept (s : Demo) (data : Ptr) : Prop :=
  data ∈ s.sensorFifo ∨ s.processor = .printing data ∨
    ∃ wake, s.processor = .asleep data wake ∧ s.now < wake

end Demo

open Demo

/-- After the items in `ps` are put and those in `gs` processed. The items allocated are those that
somebody has, once; the sensor prints one that is kept; and the items are as they were put. -/
structure Sound (ps gs : List SensorData) (s : Demo) : Prop where
  nodup : s.owned.Nodup
  live : ∀ data, s.live data = true ↔ data ∈ s.owned
  printing : ∀ data, s.sensor = .printing data → s.Kept data
  scaled : ∀ data, s.sensor = .putting data → (s.mem data).value = (s.mem data).id * 100
  allScaled : ∀ data ∈ ps, data.value = data.id * 100
  order : gs ++ (s.processor.unprinted ++ s.sensorFifo).map s.mem = ps

/-- The step keeps it so. -/
def Keeps (ps gs : List SensorData) (r : Output × Demo) : Prop :=
  Sound (ps ++ r.1.put.toList) (gs ++ r.1.processed.toList) r.2 ∧ r.1.ok = true

variable {h : List DemoStep} {s : Demo} {ps gs : List SensorData} {data : Ptr} {wake n : Nat}
  {l rest : List Ptr} {block : Option (Ptr × SensorData)} {room : Bool} {x : SensorData}
  {live : Ptr → Bool} {mem : Ptr → SensorData}

theorem sound_start : Sound [] [] .start where
  nodup := List.nodup_nil
  live _ := by simp [Demo.start, Demo.owned, Processor.owned, Sensor.owned]
  printing _ hs := by cases hs
  scaled _ hs := by cases hs
  allScaled _ hd := absurd hd List.not_mem_nil
  order := rfl

/-! ## Blocks -/

theorem live_malloc (hlive : ∀ q, live q = true ↔ q ∈ l) (q : Ptr) :
    Function.update live data true q = true ↔ q ∈ l ++ [data] := by
  rw [List.mem_append, List.mem_singleton]
  by_cases hq : q = data
  · simp [hq]
  · rw [Function.update_of_ne hq, hlive, or_iff_left hq]

theorem live_free (hlive : ∀ q, live q = true ↔ q = data ∨ q ∈ l) (hd : data ∉ l) (q : Ptr) :
    Function.update live data false q = true ↔ q ∈ l := by
  by_cases hq : q = data
  · simp [hq, hd]
  · rw [Function.update_of_ne hq, hlive, or_iff_right hq]

theorem map_update (hd : data ∉ l) : l.map (Function.update mem data x) = l.map mem :=
  List.map_congr_left fun _ hq => Function.update_of_ne (ne_of_mem_of_not_mem hq hd) _ _

theorem unprinted_subset {q : Ptr} (hq : q ∈ s.processor.unprinted ++ s.sensorFifo) :
    q ∈ s.processor.owned ++ s.sensorFifo := by
  obtain hq | hq := List.mem_append.mp hq
  · refine List.mem_append_left _ ?_
    cases hp : s.processor with
    | printing data =>
      rw [hp] at hq
      exact hq
    | waiting | asleep data wake =>
      rw [hp] at hq
      exact absurd hq List.not_mem_nil
  · exact List.mem_append_right _ hq

/-- What is kept is allocated. -/
theorem Sound.live_kept (hs : Sound ps gs s) (hd : s.Kept data) : s.live data = true := by
  rw [hs.live, Demo.owned]
  obtain hd | hd | ⟨wake, hd, -⟩ := hd
  · exact List.mem_append_left _ (List.mem_append_right _ hd)
  · rw [hd]
    exact List.mem_append_left _ (List.mem_append_left _ List.mem_cons_self)
  · rw [hd]
    exact List.mem_append_left _ (List.mem_append_left _ List.mem_cons_self)

/-- The sensor's own item is nobody else's. -/
theorem Sound.own (hs : Sound ps gs s) (hd : s.sensor.owned = [data]) :
    s.live data = true ∧ data ∉ s.processor.owned ++ s.sensorFifo := by
  have hnodup := hs.nodup
  have hlive := hs.live data
  rw [Demo.owned, hd] at hnodup hlive
  refine ⟨hlive.mpr (List.mem_append_right _ List.mem_cons_self), fun hmem => ?_⟩
  exact (List.disjoint_of_nodup_append hnodup) hmem List.mem_cons_self

/-- A step without output. -/
theorem Sound.quiet (hs : Sound ps gs s) : Keeps ps gs (.none, s) := by
  refine ⟨?_, rfl⟩
  change Sound (ps ++ []) (gs ++ []) s
  rw [List.append_nil, List.append_nil]
  exact hs

/-! ## The sensor's steps -/

/-- The sensor writes to its own item, which it does not put yet. -/
theorem Sound.write (hs : Sound ps gs s) {sensor' : Sensor} (hd : s.sensor.owned = [data])
    (hd' : sensor'.owned = [data]) (hprinting : ∀ q, sensor' ≠ .printing q)
    (hscaled : ∀ q, sensor' = .putting q → q = data ∧ x.value = x.id * 100) :
    Keeps ps gs (⟨none, none, s.live data⟩,
      { s with mem := Function.update s.mem data x, sensor := sensor' }) := by
  obtain ⟨hlive, hother⟩ := hs.own hd
  have howned : Demo.owned { s with mem := Function.update s.mem data x, sensor := sensor' } =
      s.owned := by
    rw [Demo.owned, Demo.owned, hd, hd']
  have hnot : data ∉ s.processor.unprinted ++ s.sensorFifo := fun h => hother (unprinted_subset h)
  refine ⟨⟨howned ▸ hs.nodup, fun q => howned ▸ hs.live q, fun q hq => absurd hq (hprinting q),
    fun q hq => ?_, ?_, ?_⟩, hlive⟩
  · obtain ⟨rfl, hx⟩ := hscaled q hq
    change (Function.update s.mem q x q).value = (Function.update s.mem q x q).id * 100
    rw [Function.update_self]
    exact hx
  · exact fun d hd => hs.allScaled d (by simpa using hd)
  · change gs ++ [] ++ (s.processor.unprinted ++ s.sensorFifo).map _ = ps ++ []
    rw [map_update hnot, List.append_nil, List.append_nil]
    exact hs.order

/-- The sensor goes on without a change of the items. -/
theorem Sound.goOn (hs : Sound ps gs s) {sensor' : Sensor} (howned : sensor'.owned = s.sensor.owned)
    (hprinting : ∀ q, sensor' ≠ .printing q) (hputting : ∀ q, sensor' ≠ .putting q) :
    Sound ps gs { s with sensor := sensor' } := by
  have howned' : Demo.owned { s with sensor := sensor' } = s.owned := by
    rw [Demo.owned, Demo.owned, howned]
  exact ⟨howned' ▸ hs.nodup, fun q => howned' ▸ hs.live q, fun q hq => absurd hq (hprinting q),
    fun q hq => absurd hq (hputting q), hs.allScaled, hs.order⟩

/-- A new item. -/
theorem Sound.malloc (hs : Sound ps gs s) (hsensor : s.sensor = .asleep wake) :
    Keeps ps gs (.none, s.kMalloc block) := by
  have hsleep : Sound ps gs { s with sensor := .asleep (s.now + 1000) } :=
    hs.goOn (by rw [hsensor]; rfl) (fun _ => by simp) fun _ => by simp
  cases block with
  | none => exact hsleep.quiet
  | some block =>
    obtain ⟨data, junk⟩ := block
    cases hlive : s.live data with
    | true =>
      have hmalloc : s.kMalloc (some (data, junk)) = { s with sensor := .asleep (s.now + 1000) } :=
        if_pos hlive
      rw [hmalloc]
      exact hsleep.quiet
    | false =>
      have hmalloc : s.kMalloc (some (data, junk)) = { s with
          live := Function.update s.live data true
          mem := Function.update s.mem data junk
          sensor := .counting data } := if_neg (by rw [hlive]; decide)
      have hnew : data ∉ s.owned := by
        rw [← hs.live, hlive]
        decide
      have howned : s.owned = s.processor.owned ++ s.sensorFifo := by
        rw [Demo.owned, hsensor]
        exact List.append_nil _
      rw [hmalloc]
      refine Sound.quiet ⟨?_, ?_, fun q hq => (by cases hq), fun q hq => (by cases hq),
        hs.allScaled, ?_⟩
      · change (s.processor.owned ++ s.sensorFifo ++ [data]).Nodup
        rw [← howned]
        exact hs.nodup.append (List.nodup_singleton _) (by simpa using hnew)
      · intro q
        change Function.update s.live data true q = true ↔
          q ∈ s.processor.owned ++ s.sensorFifo ++ [data]
        rw [← howned]
        exact live_malloc hs.live q
      · change gs ++ (s.processor.unprinted ++ s.sensorFifo).map _ = ps
        rw [map_update fun h => hnew (howned ▸ unprinted_subset h)]
        exact hs.order

/-- The item is passed on. -/
theorem Sound.put (hs : Sound ps gs s) (hsensor : s.sensor = .putting data) :
    Keeps ps gs (⟨some (s.mem data), none, true⟩,
      { s with sensorFifo := s.sensorFifo ++ [data], sensor := .printing data }) := by
  have howned : Demo.owned { s with
      sensorFifo := s.sensorFifo ++ [data], sensor := .printing data } = s.owned := by
    rw [Demo.owned, Demo.owned, hsensor]
    simp [Sensor.owned]
  refine ⟨⟨howned ▸ hs.nodup, fun q => howned ▸ hs.live q, fun q hq => ?_,
    fun q hq => (by cases hq), fun d hd => ?_, ?_⟩, rfl⟩
  · obtain rfl := Sensor.printing.inj hq
    exact Or.inl (List.mem_append_right _ List.mem_cons_self)
  · obtain hd | hd := List.mem_append.mp hd
    · exact hs.allScaled d hd
    · obtain rfl : d = s.mem data := by simpa using hd
      exact hs.scaled data hsensor
  · change gs ++ [] ++ (s.processor.unprinted ++ (s.sensorFifo ++ [data])).map s.mem =
      ps ++ [s.mem data]
    rw [List.append_nil, ← List.append_assoc, List.map_append, ← List.append_assoc, hs.order]
    rfl

/-- The put failed, and the item is freed. -/
theorem Sound.fail (hs : Sound ps gs s) (hsensor : s.sensor = .freeing data) :
    Keeps ps gs (⟨none, none, s.live data⟩,
      { s.kFree data with sensor := .asleep (s.now + 1000) }) := by
  have hown : s.sensor.owned = [data] := by
    rw [hsensor]
    rfl
  obtain ⟨hlive, hother⟩ := hs.own hown
  have hall : ∀ q, s.live q = true ↔ q = data ∨ q ∈ s.processor.owned ++ s.sensorFifo := by
    intro q
    rw [hs.live, Demo.owned, hsensor, List.mem_append]
    exact (or_congr Iff.rfl List.mem_singleton).trans or_comm
  refine ⟨⟨?_, fun q => ?_, fun q hq => (by cases hq), fun q hq => (by cases hq), ?_, ?_⟩, hlive⟩
  · change (s.processor.owned ++ s.sensorFifo ++ []).Nodup
    rw [List.append_nil]
    exact hs.nodup.sublist (List.sublist_append_left _ _)
  · change Function.update s.live data false q = true ↔ q ∈ s.processor.owned ++ s.sensorFifo ++ []
    rw [List.append_nil]
    exact live_free hall hother q
  · exact fun d hd => hs.allScaled d (by simpa using hd)
  · change gs ++ [] ++ _ = ps ++ []
    rw [List.append_nil, List.append_nil]
    exact hs.order

theorem Sound.sensorStep (hs : Sound ps gs s) : Keeps ps gs (s.sensorStep block room) := by
  cases hsensor : s.sensor with
  | asleep wake =>
    rw [Demo.sensorStep, hsensor]
    by_cases hw : wake ≤ s.now
    · simp only [if_pos hw]
      exact hs.malloc hsensor
    · simp only [if_neg hw]
      exact hs.quiet
  | counting data =>
    rw [Demo.sensorStep, hsensor]
    exact hs.write (by rw [hsensor]; rfl) rfl (fun _ => by simp) fun _ h => by cases h
  | valuing data =>
    rw [Demo.sensorStep, hsensor]
    exact hs.write (by rw [hsensor]; rfl) rfl (fun _ => by simp) fun _ h =>
      ⟨(Sensor.putting.inj h).symm, rfl⟩
  | putting data =>
    rw [Demo.sensorStep, hsensor]
    cases room with
    | true => exact hs.put hsensor
    | false =>
      exact Sound.quiet (hs.goOn (by rw [hsensor]; rfl) (fun _ => by simp) fun _ => by simp)
  | printing data =>
    rw [Demo.sensorStep, hsensor]
    have hsleep : Sound ps gs { s with sensor := .asleep (s.now + 1000) } :=
      hs.goOn (by rw [hsensor]; rfl) (fun _ => by simp) fun _ => by simp
    exact ⟨hsleep.quiet.1, hs.live_kept (hs.printing data hsensor)⟩
  | failing data =>
    rw [Demo.sensorStep, hsensor]
    have hgo : Sound ps gs { s with sensor := .freeing data } :=
      hs.goOn (by rw [hsensor]; rfl) (fun _ => by simp) fun _ => by simp
    exact ⟨hgo.quiet.1, (hs.own (by rw [hsensor]; rfl)).1⟩
  | freeing data =>
    rw [Demo.sensorStep, hsensor]
    exact hs.fail hsensor

/-! ## The processor's steps, and time -/

/-- An item is taken out. -/
theorem Sound.take (hs : Sound ps gs s) (hp : s.processor = .waiting)
    (hq : s.sensorFifo = data :: rest) :
    Keeps ps gs (.none, { s with sensorFifo := rest, processor := .printing data }) := by
  have howned : Demo.owned { s with sensorFifo := rest, processor := .printing data } =
      s.owned := by
    rw [Demo.owned, Demo.owned, hp, hq]
    rfl
  refine Sound.quiet ⟨howned ▸ hs.nodup, fun q => howned ▸ hs.live q, fun q hsensor => ?_,
    hs.scaled, hs.allScaled, ?_⟩
  · obtain hd | hd | ⟨wake, hd, -⟩ := hs.printing q hsensor
    · rw [hq] at hd
      obtain rfl | hd := List.mem_cons.mp hd
      · exact Or.inr (Or.inl rfl)
      · exact Or.inl hd
    · rw [hp] at hd
      cases hd
    · rw [hp] at hd
      cases hd
  · have horder := hs.order
    rw [hp, hq] at horder
    exact horder

/-- The item is printed; it will be there for 800 ms. -/
theorem Sound.print (hs : Sound ps gs s) (hp : s.processor = .printing data) :
    Keeps ps gs (⟨none, some (s.mem data), s.live data⟩,
      { s with processor := .asleep data (s.now + 800) }) := by
  have howned : Demo.owned { s with processor := .asleep data (s.now + 800) } = s.owned := by
    rw [Demo.owned, Demo.owned, hp]
    rfl
  refine ⟨⟨howned ▸ hs.nodup, fun q => howned ▸ hs.live q, fun q hsensor => ?_, hs.scaled,
    fun d hd => hs.allScaled d (by simpa using hd), ?_⟩, hs.live_kept (Or.inr (Or.inl hp))⟩
  · obtain hd | hd | ⟨wake, hd, -⟩ := hs.printing q hsensor
    · exact Or.inl hd
    · rw [hp] at hd
      obtain rfl := Processor.printing.inj hd
      exact Or.inr (Or.inr ⟨_, rfl, Nat.lt_add_of_pos_right (by decide)⟩)
    · rw [hp] at hd
      cases hd
  · have horder := hs.order
    rw [hp] at horder
    change gs ++ [s.mem data] ++ s.sensorFifo.map s.mem = ps ++ []
    rw [List.append_nil, List.append_assoc]
    exact horder

/-- The item is freed: the sensor does not print it any more, since no time goes by before that. -/
theorem Sound.free (hs : Sound ps gs s) (hp : s.processor = .asleep data wake)
    (hw : wake ≤ s.now) :
    Keeps ps gs (⟨none, none, s.live data⟩, { s.kFree data with processor := .waiting }) := by
  have howned : s.owned = data :: (s.sensorFifo ++ s.sensor.owned) := by
    rw [Demo.owned, hp]
    rfl
  have hnodup := hs.nodup
  rw [howned, List.nodup_cons] at hnodup
  have hall : ∀ q, s.live q = true ↔ q = data ∨ q ∈ s.sensorFifo ++ s.sensor.owned := by
    intro q
    rw [hs.live, howned, List.mem_cons]
  refine ⟨⟨hnodup.2, live_free hall hnodup.1, fun q hsensor => ?_, hs.scaled,
    fun d hd => hs.allScaled d (by simpa using hd), ?_⟩, (hall data).mpr (Or.inl rfl)⟩
  · obtain hd | hd | ⟨wake', hd, hlt⟩ := hs.printing q hsensor
    · exact Or.inl hd
    · rw [hp] at hd
      cases hd
    · rw [hp] at hd
      obtain ⟨-, rfl⟩ := Processor.asleep.inj hd
      exact absurd hw (Nat.not_le.mpr hlt)
  · have horder := hs.order
    rw [hp] at horder
    change gs ++ [] ++ s.sensorFifo.map s.mem = ps ++ []
    rw [List.append_nil, List.append_nil]
    exact horder

theorem Sound.processorStep (hs : Sound ps gs s) : Keeps ps gs s.processorStep := by
  cases hp : s.processor with
  | waiting =>
    rw [Demo.processorStep, hp]
    dsimp only
    cases hq : s.sensorFifo with
    | nil => exact hs.quiet
    | cons data rest => exact hs.take hp hq
  | printing data =>
    rw [Demo.processorStep, hp]
    exact hs.print hp
  | asleep data wake =>
    rw [Demo.processorStep, hp]
    by_cases hw : wake ≤ s.now
    · simp only [if_pos hw]
      exact hs.free hp hw
    · simp only [if_neg hw]
      exact hs.quiet

/-- Time goes by only while the sensor sleeps. -/
theorem Sound.elapse (hs : Sound ps gs s) (hn : s.sleeps n = true) :
    Sound ps gs { s with now := s.now + n } := by
  refine ⟨hs.nodup, hs.live, fun q hsensor => ?_, hs.scaled, hs.allScaled, hs.order⟩
  have hsensor' : s.sensor = .printing q := hsensor
  rw [Demo.sleeps, hsensor'] at hn
  cases hn

theorem Sound.step (hs : Sound ps gs s) (e : Event) : Keeps ps gs (s.step e) := by
  cases e with
  | sensor block room => exact hs.sensorStep
  | processor => exact hs.processorStep
  | elapse n =>
    by_cases hn : s.sleeps n = true
    · have hstep : s.step (.elapse n) = (.none, { s with now := s.now + n }) :=
        congrArg _ (if_pos hn)
      rw [hstep]
      exact (hs.elapse hn).quiet
    · have hstep : s.step (.elapse n) = (.none, s) := congrArg _ (if_neg hn)
      rw [hstep]
      exact hs.quiet

/-! ## Runs of the demo -/

/-- **Theorem (`items_safe`).** In every run all items accessed and freed are allocated; those
allocated are what the threads and the queue have, each of them once; what was processed, followed
by what is still to be, is what was put; and every value is a hundred times the id. -/
theorem items_safe (hr : Run Demo.step .start h s) :
    (∀ st ∈ h, st.output.ok = true) ∧
      (s.owned.Nodup ∧ ∀ data, s.live data = true ↔ data ∈ s.owned) ∧
      processed h ++ (s.processor.unprinted ++ s.sensorFifo).map s.mem = put h ∧
      ∀ data ∈ put h, data.value = data.id * 100 := by
  have hinv : Sound (put h) (processed h) s ∧ ∀ st ∈ h, st.output.ok = true :=
    hr.invariant_steps (P := fun h s => Sound (put h) (processed h) s) sound_start
      fun _ _ e hs => hs.step e
  obtain ⟨hs, hok⟩ := hinv
  exact ⟨hok, ⟨hs.nodup, hs.live⟩, hs.order, hs.allScaled⟩

/-- The sensor goes on `n` times, and finds the block 7 with this in it. -/
def sensorTurns (n : Nat) (junk : SensorData) : List Event :=
  List.replicate n (Event.sensor (some (7, junk)) true)

/-- The processor takes the item out and prints it before the sensor does; the second item is in
the same block. -/
def reuse : List Event :=
  [Event.elapse 1000] ++ sensorTurns 4 ⟨41, 0⟩ ++ List.replicate 2 Event.processor ++
    sensorTurns 1 ⟨41, 0⟩ ++ [Event.elapse 800, Event.processor, Event.elapse 200] ++
    sensorTurns 5 ⟨-3, 5⟩ ++ List.replicate 2 Event.processor

theorem items_safe_reuse : ∃ h s, Run Demo.step .start h s ∧
    processed h = [⟨42, 4200⟩, ⟨-2, -200⟩] ∧ ∀ st ∈ h, st.output.ok = true := by
  have hr := run_exec Demo.step .start reuse
  refine ⟨_, _, hr, ?_, (items_safe hr).1⟩
  decide +kernel

end ZephyrStm32.AllocFifo
