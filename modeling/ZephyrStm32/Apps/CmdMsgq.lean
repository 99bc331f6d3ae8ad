import ZephyrStm32.Lib.Run

/-!
# The second message queue: `cmd_sender_func` and `cmd_handler_func`

The sender sleeps for 2000 ms and puts a command into `cmd_msgq`, which holds three; it waits for
1000 ms at most, and loses the command when the queue is still full then. The handler waits for
5000 ms at most, takes one out and sleeps for 3500 ms. Time goes on only while neither has anything
to do; where both are due at once, either may go first.

**Theorem (`every_third_lost`).** The commands lost are the 9th, the 12th, the 15th and so on; the
others are executed in order; and the handler never waits in vain.
-/

namespace ZephyrStm32.CmdMsgq

open Machine

/-- The number of commands that `cmd_msgq` holds. -/
def maxMsgs : Nat := 3

structure Command where
  cmdId : Int32
  param : Int32
  deriving DecidableEq, Repr

def commandOf (cmdId : Int32) : Command := ⟨cmdId, cmdId * 10⟩

/-- The sender asleep, or in `k_msgq_put` with a command until its deadline. -/
inductive Sender
  | asleep (wake : Nat)
  | blocked (cmd : Command) (deadline : Nat)

/-- The handler in `k_msgq_get` until its deadline, or asleep. -/
inductive Handler
  | waiting (deadline : Nat)
  | asleep (wake : Nat)

/-- When the thread wakes up by itself. -/
def Sender.due : Sender → Nat
  | .asleep wake => wake
  | .blocked _ deadline => deadline

def Handler.due : Handler → Nat
  | .waiting deadline => deadline
  | .asleep wake => wake

def Handler.waits : Handler → Bool
  | .waiting _ => true
  | .asleep _ => false

/-- The time in ms, and the data of both threads. -/
structure Demo where
  now : Nat
  /-- `cmd.cmd_id` of the sender; it is not initialised. -/
  cmdId : Int32
  cmdMsgq : List Command
  sender : Sender
  handler : Handler

inductive Event
  | sender
  | handler
  /-- `n` ms go by. -/
  | elapse (n : Nat)

/-- What a step shows: the command whose `k_msgq_put` returns, and whether it is in the queue; the
command executed; and whether `k_msgq_get` ran into its deadline. -/
structure Output where
  returned : Option (Command × Bool)
  executed : Option Command
  starved : Bool

def Output.none : Output := ⟨.none, .none, false⟩

namespace Demo

def start (cmdId : Int32) : Demo := ⟨0, cmdId, [], .asleep 2000, .waiting 5000⟩

/-- The sender begins a `k_msgq_put`. -/
def kMsgqPut (s : Demo) : Output × Demo :=
  let cmd := commandOf (s.cmdId + 1)
  if s.cmdMsgq.length < maxMsgs then
    (⟨some (cmd, true), none, false⟩, { s with
      cmdId := s.cmdId + 1
      cmdMsgq := s.cmdMsgq ++ [cmd]
      sender := .asleep (s.now + 2000) })
  else (.none, { s with cmdId := s.cmdId + 1, sender := .blocked cmd (s.now + 1000) })

/-- The handler takes a command out, and a blocked sender's goes in. -/
def kMsgqGet (s : Demo) (cmd : Command) (rest : List Command) : Output × Demo :=
  match s.sender with
  | .asleep _ =>
    (⟨none, some cmd, false⟩, { s with cmdMsgq := rest, handler := .asleep (s.now + 3500) })
  | .blocked cmd' _ =>
    (⟨some (cmd', true), some cmd, false⟩, { s with
      cmdMsgq := rest ++ [cmd']
      sender := .asleep (s.now + 2000)
      handler := .asleep (s.now + 3500) })

/-- Neither thread has anything to do for `n` ms. -/
def Sleeps (s : Demo) (n : Nat) : Prop :=
  s.now + n ≤ s.sender.due ∧ s.now + n ≤ s.handler.due ∧ (s.handler.waits = true → s.cmdMsgq = [])

instance (s : Demo) (n : Nat) : Decidable (s.Sleeps n) :=
  inferInstanceAs (Decidable (_ ∧ _ ∧ (_ → _)))

def step (s : Demo) : Event → Output × Demo
  | .sender =>
    match s.sender with
    | .asleep wake => if wake ≤ s.now then s.kMsgqPut else (.none, s)
    | .blocked cmd deadline =>
      if deadline ≤ s.now then
        (⟨some (cmd, false), none, false⟩, { s with sender := .asleep (s.now + 2000) })
      else (.none, s)
  | .handler =>
    match s.handler with
    | .waiting deadline =>
      match s.cmdMsgq with
      | cmd :: rest => s.kMsgqGet cmd rest
      | [] =>
        if deadline ≤ s.now then
          (⟨none, none, true⟩, { s with handler := .waiting (s.now + 5000) })
        else (.none, s)
    | .asleep wake =>
      (.none, if wake ≤ s.now then { s with handler := .waiting (s.now + 5000) } else s)
  | .elapse n => (.none, if s.Sleeps n then { s with now := s.now + n } else s)

end Demo

abbrev DemoStep := Step Demo Event Output

/-- The commands whose `k_msgq_put` returned, each with whether it is in the queue. -/
def returned : List DemoStep → List (Command × Bool)
  | [] => []
  | st :: h => returned h ++ st.output.returned.toList

def accepted (h : List DemoStep) : List Command := ((returned h).filter Prod.snd).map Prod.fst

def executed : List DemoStep → List Command
  | [] => []
  | st :: h => executed h ++ st.output.executed.toList

/-- The command that is not in the queue yet. -/
def Demo.pending (s : Demo) : List Command :=
  match s.sender with
  | .asleep _ => []
  | .blocked cmd _ => [cmd]

/-- The command number `k`, counted from 0, of a sender that begins with `cmdId`. -/
def commandAt (cmdId : Int32) (k : Nat) : Command := commandOf (cmdId + Int32.ofNat k + 1)

/-- The command number `k`, counted from 0, is lost. -/
def lostAt (k : Nat) : Bool := 8 ≤ k ∧ k % 3 = 2

variable {h : List DemoStep} {s : Demo} {cmdId : Int32}
  {m n j now len wake deadline deadline' : Nat}
  {cmd cmd' : Command} {rest x : List Command} {l : List (Command × Bool)}
  {sender : Sender} {handler : Handler}

/-! ## What time it is -/

/-- So many of the first `m` commands are lost. -/
def losses (m : Nat) : Nat := (m - 6) / 3

/-- When the put of the command number `m` begins: a loss costs 1000 ms. -/
def begins (m : Nat) : Nat := 2000 * (m + 1) + 1000 * losses m

/-- Where the sender is at a time, after `m` commands, with so many queued. -/
def SenderAt (m now len : Nat) : Sender → Prop
  | .asleep wake => wake = begins m ∧ now ≤ wake
  | .blocked _ deadline =>
    deadline = begins m + 1000 ∧ begins m ≤ now ∧ now ≤ deadline ∧ len = maxMsgs

/-- Where the handler is at a time, after `m` commands, of which it has `j`. -/
def HandlerAt (m j now : Nat) : Handler → Prop
  | .waiting deadline =>
    now = 3500 * j + 2000 ∧ now < deadline ∨ m = 0 ∧ j = 0 ∧ 2000 < deadline
  | .asleep wake => 0 < j ∧ wake = 3500 * j + 2000 ∧ 3500 * j ≤ now + 1500 ∧ now ≤ wake

/-- The schedule after `m` commands, of which the handler has `j`. -/
structure Schedule (m j now len : Nat) (sender : Sender) (handler : Handler) : Prop where
  queue : len + j + losses m = m
  full : len ≤ maxMsgs
  sender : SenderAt m now len sender
  handler : HandlerAt m j now handler

theorem schedule_start : Schedule 0 0 0 0 (.asleep 2000) (.waiting 5000) :=
  ⟨rfl, by decide, ⟨rfl, by decide⟩, Or.inr ⟨rfl, rfl, by decide⟩⟩

/-- The handler takes one every 3500 ms. -/
theorem HandlerAt.bounds (hh : HandlerAt m j now handler) (hm : m ≠ 0) :
    3500 * j ≤ now + 1500 ∧ now ≤ 3500 * j + 2000 := by
  cases handler with
  | waiting deadline =>
    obtain ⟨hnow, -⟩ | ⟨rfl, -⟩ := hh
    · omega
    · exact absurd rfl hm
  | asleep wake =>
    obtain ⟨-, rfl, hfrom, hle⟩ := hh
    exact ⟨hfrom, hle⟩

/-- A command later the handler is still where it was. -/
theorem HandlerAt.succ (hh : HandlerAt m j now handler) (hnow : m = 0 → now = 2000) :
    HandlerAt (m + 1) j now handler := by
  cases handler with
  | waiting deadline =>
    obtain hh | ⟨hm, rfl, hdeadline⟩ := hh
    · exact Or.inl hh
    · exact Or.inl ⟨hnow hm, (hnow hm).trans_lt hdeadline⟩
  | asleep wake => exact hh

/-- A command that gets in at once. -/
theorem Schedule.put (hs : Schedule m j now len (.asleep wake) handler) (hw : wake ≤ now)
    (hfree : len < maxMsgs) : lostAt m = false ∧
      Schedule (m + 1) j now (len + 1) (.asleep (now + 2000)) handler := by
  obtain ⟨hqueue, -, ⟨rfl, hle⟩, hh⟩ := hs
  have hnow : now = begins m := Nat.le_antisymm hle hw
  have hbounds := hh.bounds
  have hkept : ¬ (8 ≤ m ∧ m % 3 = 2) := by
    intro hlost
    have htime := hbounds (by omega)
    simp only [begins, losses, maxMsgs] at hnow hqueue hfree
    omega
  have hlosses : losses (m + 1) = losses m := by
    simp only [losses]
    omega
  refine ⟨decide_eq_false hkept, ?_, hfree, ⟨?_, Nat.le_add_right _ _⟩, hh.succ fun hm => ?_⟩
  · omega
  · rw [hnow, begins, begins, hlosses]
    omega
  · rw [hnow, hm]
    rfl

/-- A command that has to wait. -/
theorem Schedule.block (hs : Schedule m j now len (.asleep wake) handler) (hw : wake ≤ now)
    (hfull : ¬ len < maxMsgs) : Schedule m j now len (.blocked cmd (now + 1000)) handler := by
  obtain ⟨hqueue, hle, ⟨rfl, hnow⟩, hh⟩ := hs
  have hnow' : now = begins m := Nat.le_antisymm hnow hw
  exact ⟨hqueue, hle, ⟨by rw [hnow'], hw, Nat.le_add_right _ _,
    Nat.le_antisymm hle (Nat.not_lt.mp hfull)⟩, hh⟩

/-- A command that waits in vain: the handler is late by 500 ms. -/
theorem Schedule.timeout (hs : Schedule m j now len (.blocked cmd deadline) handler)
    (hd : deadline ≤ now) : lostAt m = true ∧
      Schedule (m + 1) j now len (.asleep (now + 2000)) handler := by
  obtain ⟨hqueue, hle, ⟨rfl, -, hnow, hlen⟩, hh⟩ := hs
  have hnow' : now = begins m + 1000 := Nat.le_antisymm hnow hd
  have hbounds := hh.bounds
  have hlost : 8 ≤ m ∧ m % 3 = 2 := by
    have htime := hbounds (by simp only [maxMsgs] at hlen; omega)
    simp only [begins, losses, maxMsgs] at hnow' hqueue hlen
    omega
  have hlosses : losses (m + 1) = losses m + 1 := by
    simp only [losses]
    omega
  refine ⟨decide_eq_true hlost, ?_, hle, ⟨?_, Nat.le_add_right _ _⟩, hh.succ fun hm => ?_⟩
  · omega
  · rw [hnow', begins, begins, hlosses]
    omega
  · omega

/-- The handler takes a command, and the sender is not waiting. -/
theorem Schedule.take (hs : Schedule m j now (len + 1) (.asleep wake) (.waiting deadline)) :
    Schedule m (j + 1) now len (.asleep wake) (.asleep (now + 3500)) := by
  obtain ⟨hqueue, hle, hsender, hh⟩ := hs
  obtain ⟨hnow, -⟩ | ⟨rfl, -, -⟩ := hh
  · refine ⟨by omega, Nat.le_of_succ_le hle, hsender, Nat.succ_pos j, ?_, ?_, Nat.le_add_right _ _⟩
    · omega
    · omega
  · omega

/-- The handler takes a command, and the sender's gets in: it has not waited at all. -/
theorem Schedule.admit
    (hs : Schedule m j now len (.blocked cmd deadline') (.waiting deadline)) : lostAt m = false ∧
      Schedule (m + 1) (j + 1) now len (.asleep (now + 2000)) (.asleep (now + 3500)) := by
  obtain ⟨hqueue, hle, ⟨rfl, hfrom, hto, hlen⟩, hh⟩ := hs
  have hhandler : now = 3500 * j + 2000 := by
    obtain ⟨hnow, -⟩ | ⟨rfl, -, -⟩ := hh
    · exact hnow
    · simp only [maxMsgs] at hlen
      omega
  have htie : now = begins m ∧ ¬ (8 ≤ m ∧ m % 3 = 2) := by
    simp only [begins, losses, maxMsgs] at hfrom hto hqueue hlen ⊢
    omega
  have hlosses : losses (m + 1) = losses m := by
    simp only [begins, losses, maxMsgs] at htie hqueue hlen ⊢
    omega
  refine ⟨decide_eq_false htie.2, ?_, hle, ⟨?_, Nat.le_add_right _ _⟩, Nat.succ_pos j, ?_, ?_,
    Nat.le_add_right _ _⟩
  · omega
  · rw [htie.1, begins, begins, hlosses]
    omega
  · omega
  · omega

/-- The handler waits for the first command only. -/
theorem Schedule.empty (hs : Schedule m j now 0 sender (.waiting deadline)) :
    m = 0 ∧ j = 0 ∧ 2000 < deadline ∧ now ≤ 2000 ∧ sender = .asleep 2000 := by
  obtain ⟨hqueue, -, hsender, hh⟩ := hs
  cases sender with
  | blocked cmd deadline' => exact absurd hsender.2.2.2 (by decide)
  | asleep wake =>
    obtain ⟨rfl, hle⟩ := hsender
    have hfirst : m = 0 ∧ j = 0 ∧ 2000 < deadline := by
      obtain ⟨hnow, hlt⟩ | hfirst := hh
      · simp only [begins, losses] at hqueue hle
        omega
      · exact hfirst
    obtain ⟨rfl, rfl, hdeadline⟩ := hfirst
    exact ⟨rfl, rfl, hdeadline, hle, rfl⟩

theorem Schedule.fed (hs : Schedule m j now 0 sender (.waiting deadline)) : now < deadline := by
  obtain ⟨-, -, hdeadline, hnow, -⟩ := hs.empty
  exact hnow.trans_lt hdeadline

/-- The handler has slept. -/
theorem Schedule.wakeUp (hs : Schedule m j now len sender (.asleep wake)) (hw : wake ≤ now) :
    Schedule m j now len sender (.waiting (now + 5000)) := by
  obtain ⟨hqueue, hle, hsender, -, rfl, -, hnow⟩ := hs
  exact ⟨hqueue, hle, hsender,
    Or.inl ⟨Nat.le_antisymm hnow hw, Nat.lt_add_of_pos_right (by decide)⟩⟩

/-- Time goes by. -/
theorem Schedule.elapse (hs : Schedule m j now len sender handler) (hdue : now + n ≤ sender.due)
    (hdue' : now + n ≤ handler.due) (hempty : handler.waits = true → len = 0) :
    Schedule m j (now + n) len sender handler := by
  refine ⟨hs.queue, hs.full, ?_, ?_⟩
  · have hsender := hs.sender
    cases sender with
    | asleep wake => exact ⟨hsender.1, hdue⟩
    | blocked cmd deadline =>
      obtain ⟨hdeadline, hfrom, -, hlen⟩ := hsender
      exact ⟨hdeadline, Nat.le_add_right_of_le hfrom, hdue, hlen⟩
  · cases handler with
    | waiting deadline =>
      obtain rfl := hempty rfl
      obtain ⟨hm, hj, hdeadline, -, -⟩ := hs.empty
      exact Or.inr ⟨hm, hj, hdeadline⟩
    | asleep wake =>
      obtain ⟨hpos, hwake, hfrom, -⟩ := hs.handler
      exact ⟨hpos, hwake, by omega, hdue'⟩

/-! ## What becomes of the commands -/

/-- After the `k_msgq_put`s in `l` have returned and the commands in `x` are executed. -/
structure Kept (cmdId : Int32) (l : List (Command × Bool)) (x : List Command) (s : Demo) :
    Prop where
  schedule : Schedule l.length x.length s.now s.cmdMsgq.length s.sender s.handler
  commands : ∃ n, s.cmdId = cmdId + Int32.ofNat n ∧
    l.map Prod.fst ++ s.pending = (List.range n).map (commandAt cmdId)
  fates : l.map Prod.snd = (List.range l.length).map fun k => !lostAt k
  intact : x ++ s.cmdMsgq = (l.filter Prod.snd).map Prod.fst

theorem kept_start : Kept cmdId [] [] (.start cmdId) where
  schedule := schedule_start
  commands := ⟨0, (Int32.add_zero cmdId).symm, rfl⟩
  fates := rfl
  intact := rfl

/-- One more fate. -/
theorem fates_append {ok : Bool} (h : l.map Prod.snd = (List.range l.length).map fun k => !lostAt k)
    (hok : lostAt l.length = !ok) : (l ++ [(cmd, ok)]).map Prod.snd =
      (List.range (l ++ [(cmd, ok)]).length).map fun k => !lostAt k := by
  rw [List.length_append, List.length_singleton, List.range_succ, List.map_append, List.map_append,
    h, List.map_singleton, List.map_singleton, hok, Bool.not_not]

/-- The next command. -/
theorem commands_succ (h : s.cmdId = cmdId + Int32.ofNat n ∧
    l.map Prod.fst = (List.range n).map (commandAt cmdId)) :
    s.cmdId + 1 = cmdId + Int32.ofNat (n + 1) ∧
      l.map Prod.fst ++ [commandOf (s.cmdId + 1)] =
        (List.range (n + 1)).map (commandAt cmdId) := by
  constructor
  · rw [h.1, Int32.ofNat_add, Int32.add_assoc]
    rfl
  · rw [List.range_succ, List.map_append, h.2, h.1]
    rfl

/-- What the step does to what is kept. -/
def Keeps (cmdId : Int32) (l : List (Command × Bool)) (x : List Command) (r : Output × Demo) :
    Prop :=
  Kept cmdId (l ++ r.1.returned.toList) (x ++ r.1.executed.toList) r.2 ∧ r.1.starved = false

/-- A step without output. -/
theorem Kept.quiet (hk : Kept cmdId l x s) : Keeps cmdId l x (.none, s) := by
  refine ⟨?_, rfl⟩
  change Kept cmdId (l ++ []) (x ++ []) s
  rw [List.append_nil, List.append_nil]
  exact hk

/-- The sender begins a `k_msgq_put`. -/
theorem Kept.put (hk : Kept cmdId l x s) (hs : s.sender = .asleep wake) (hw : wake ≤ s.now) :
    Keeps cmdId l x s.kMsgqPut := by
  obtain ⟨n, hid, hall⟩ := hk.commands
  have hpending : s.pending = [] := by rw [Demo.pending, hs]
  have hschedule := hk.schedule
  rw [hs] at hschedule
  rw [hpending, List.append_nil] at hall
  obtain ⟨hid', hall'⟩ := commands_succ ⟨hid, hall⟩
  by_cases hfree : s.cmdMsgq.length < maxMsgs
  · have hput : s.kMsgqPut = (⟨some (commandOf (s.cmdId + 1), true), none, false⟩, { s with
        cmdId := s.cmdId + 1
        cmdMsgq := s.cmdMsgq ++ [commandOf (s.cmdId + 1)]
        sender := .asleep (s.now + 2000) }) := if_pos hfree
    obtain ⟨hlost, hschedule'⟩ := hschedule.put hw hfree
    rw [hput]
    refine ⟨⟨?_, ⟨n + 1, hid', ?_⟩, fates_append hk.fates hlost, ?_⟩, rfl⟩
    · change Schedule (l ++ [_]).length (x ++ []).length s.now (s.cmdMsgq ++ [_]).length _ s.handler
      rw [List.append_nil, List.length_append, List.length_append]
      exact hschedule'
    · rw [← hall', List.map_append]
      exact List.append_nil _
    · change x ++ [] ++ (s.cmdMsgq ++ [_]) = _
      rw [List.append_nil, ← List.append_assoc, hk.intact, List.filter_append, List.map_append]
      rfl
  · have hput : s.kMsgqPut = (.none, { s with
        cmdId := s.cmdId + 1
        sender := .blocked (commandOf (s.cmdId + 1)) (s.now + 1000) }) := if_neg hfree
    rw [hput]
    exact Kept.quiet ⟨hschedule.block hw hfree, ⟨n + 1, hid', hall'⟩, hk.fates, hk.intact⟩

/-- The sender has waited in vain. -/
theorem Kept.timeout (hk : Kept cmdId l x s) (hs : s.sender = .blocked cmd deadline)
    (hd : deadline ≤ s.now) : Keeps cmdId l x
      (⟨some (cmd, false), none, false⟩, { s with sender := .asleep (s.now + 2000) }) := by
  obtain ⟨n, hid, hall⟩ := hk.commands
  have hpending : s.pending = [cmd] := by rw [Demo.pending, hs]
  have hschedule := hk.schedule
  rw [hs] at hschedule
  rw [hpending] at hall
  obtain ⟨hlost, hschedule'⟩ := hschedule.timeout hd
  refine ⟨⟨?_, ⟨n, hid, ?_⟩, fates_append hk.fates hlost, ?_⟩, rfl⟩
  · change Schedule (l ++ [_]).length (x ++ []).length s.now s.cmdMsgq.length _ s.handler
    rw [List.append_nil, List.length_append]
    exact hschedule'
  · rw [← hall, List.map_append]
    exact List.append_nil _
  · change x ++ [] ++ s.cmdMsgq = _
    rw [List.append_nil, hk.intact, List.filter_append, List.map_append]
    exact (List.append_nil _).symm

/-- The handler takes a command out. -/
theorem Kept.get (hk : Kept cmdId l x s) (hh : s.handler = .waiting deadline)
    (hq : s.cmdMsgq = cmd :: rest) : Keeps cmdId l x (s.kMsgqGet cmd rest) := by
  obtain ⟨n, hid, hall⟩ := hk.commands
  have hschedule := hk.schedule
  have hintact := hk.intact
  rw [hh, hq] at hschedule
  rw [hq] at hintact
  cases hs : s.sender with
  | asleep wake =>
    have hget : s.kMsgqGet cmd rest = (⟨none, some cmd, false⟩,
        { s with cmdMsgq := rest, handler := .asleep (s.now + 3500) }) := by
      rw [Demo.kMsgqGet, hs]
    rw [hs] at hschedule
    rw [hget]
    refine ⟨?_, rfl⟩
    change Kept cmdId (l ++ []) (x ++ [cmd]) _
    rw [List.append_nil]
    refine ⟨?_, ⟨n, hid, hall⟩, hk.fates, ?_⟩
    · change Schedule l.length (x ++ [cmd]).length s.now rest.length s.sender _
      rw [List.length_append, hs]
      exact hschedule.take
    · change x ++ [cmd] ++ rest = _
      rw [List.append_assoc]
      exact hintact
  | blocked cmd' deadline' =>
    have hget : s.kMsgqGet cmd rest = (⟨some (cmd', true), some cmd, false⟩, { s with
        cmdMsgq := rest ++ [cmd']
        sender := .asleep (s.now + 2000)
        handler := .asleep (s.now + 3500) }) := by
      rw [Demo.kMsgqGet, hs]
    have hpending : s.pending = [cmd'] := by rw [Demo.pending, hs]
    have hlength : (rest ++ [cmd']).length = (cmd :: rest).length := List.length_append
    rw [hs] at hschedule
    rw [hpending] at hall
    rw [hget]
    obtain ⟨hlost, hschedule'⟩ := hschedule.admit
    refine ⟨⟨?_, ⟨n, hid, ?_⟩, fates_append hk.fates hlost, ?_⟩, rfl⟩
    · change Schedule (l ++ [_]).length (x ++ [cmd]).length s.now (rest ++ [cmd']).length _ _
      rw [hlength, List.length_append, List.length_append]
      exact hschedule'
    · rw [← hall, List.map_append]
      exact List.append_nil _
    · change x ++ [cmd] ++ (rest ++ [cmd']) = ((l ++ [(cmd', true)]).filter Prod.snd).map Prod.fst
      rw [List.filter_append, List.map_append, ← hintact, List.append_assoc, List.append_assoc]
      rfl

theorem Kept.stepSender (hk : Kept cmdId l x s) : Keeps cmdId l x (s.step .sender) := by
  cases hs : s.sender with
  | asleep wake =>
    have hstep : s.step .sender = if wake ≤ s.now then s.kMsgqPut else (.none, s) := by
      rw [Demo.step, hs]
    by_cases hw : wake ≤ s.now
    · rw [hstep, if_pos hw]
      exact hk.put hs hw
    · rw [hstep, if_neg hw]
      exact hk.quiet
  | blocked cmd deadline =>
    have hstep : s.step .sender = if deadline ≤ s.now then
        (⟨some (cmd, false), none, false⟩, { s with sender := .asleep (s.now + 2000) })
        else (.none, s) := by
      rw [Demo.step, hs]
    by_cases hd : deadline ≤ s.now
    · rw [hstep, if_pos hd]
      exact hk.timeout hs hd
    · rw [hstep, if_neg hd]
      exact hk.quiet

theorem Kept.stepHandler (hk : Kept cmdId l x s) : Keeps cmdId l x (s.step .handler) := by
  have hschedule := hk.schedule
  cases hh : s.handler with
  | waiting deadline =>
    rw [hh] at hschedule
    cases hq : s.cmdMsgq with
    | nil =>
      rw [hq] at hschedule
      have hstep : s.step .handler = (.none, s) := by
        rw [Demo.step, hh]
        dsimp only
        rw [hq]
        exact if_neg (Nat.not_le.mpr hschedule.fed)
      rw [hstep]
      exact hk.quiet
    | cons cmd rest =>
      have hstep : s.step .handler = s.kMsgqGet cmd rest := by
        rw [Demo.step, hh]
        dsimp only
        rw [hq]
      rw [hstep]
      exact hk.get hh hq
  | asleep wake =>
    have hstep : s.step .handler = (.none, if wake ≤ s.now then
        { s with handler := .waiting (s.now + 5000) } else s) := by
      rw [Demo.step, hh]
    rw [hh] at hschedule
    by_cases hw : wake ≤ s.now
    · rw [hstep, if_pos hw]
      exact Kept.quiet ⟨hschedule.wakeUp hw, hk.commands, hk.fates, hk.intact⟩
    · rw [hstep, if_neg hw]
      exact hk.quiet

theorem Kept.stepElapse (hk : Kept cmdId l x s) : Keeps cmdId l x (s.step (.elapse n)) := by
  by_cases hn : s.Sleeps n
  · have hstep : s.step (.elapse n) = (.none, { s with now := s.now + n }) :=
      congrArg _ (if_pos hn)
    have hempty : s.handler.waits = true → s.cmdMsgq.length = 0 := fun h => by
      rw [hn.2.2 h, List.length_nil]
    rw [hstep]
    exact Kept.quiet ⟨hk.schedule.elapse hn.1 hn.2.1 hempty, hk.commands, hk.fates, hk.intact⟩
  · have hstep : s.step (.elapse n) = (.none, s) := congrArg _ (if_neg hn)
    rw [hstep]
    exact hk.quiet

theorem Kept.step (hk : Kept cmdId l x s) (e : Event) : Keeps cmdId l x (s.step e) := by
  cases e with
  | sender => exact hk.stepSender
  | handler => exact hk.stepHandler
  | elapse n => exact hk.stepElapse

/-! ## Runs of the demo -/

/-- **Theorem (`every_third_lost`).** In every run the commands are those of the sender; the 9th,
the 12th and so on are lost, and no others; those that got in, and they only, are executed in order
or queued; and the handler's deadline never passes. -/
theorem every_third_lost (hr : Run Demo.step (.start cmdId) h s) :
    (∃ n, (returned h).map Prod.fst ++ s.pending = (List.range n).map (commandAt cmdId)) ∧
      (returned h).map Prod.snd = (List.range (returned h).length).map (fun k => !lostAt k) ∧
      executed h ++ s.cmdMsgq = accepted h ∧ ∀ st ∈ h, st.output.starved = false := by
  have hinv : Kept cmdId (returned h) (executed h) s ∧ ∀ st ∈ h, st.output.starved = false :=
    hr.invariant_steps (P := fun h s => Kept cmdId (returned h) (executed h) s) kept_start
      fun _ _ e hk => hk.step e
  obtain ⟨hk, hfed⟩ := hinv
  obtain ⟨n, -, hall⟩ := hk.commands
  exact ⟨⟨n, hall⟩, hk.fates, hk.intact, hfed⟩

/-- Every 500 ms the sender goes first. -/
def ticks (n : Nat) : List Event :=
  (List.replicate n [.elapse 500, .sender, .handler, .handler]).flatten

/-- 19 seconds: the ninth command is lost. -/
theorem every_third_lost_ticks : ∃ h s, Run Demo.step (.start 0) h s ∧
    (returned h).getLast? = some (⟨9, 90⟩, false) ∧ executed h ++ s.cmdMsgq = accepted h := by
  have hr := run_exec Demo.step (.start 0) (ticks 38)
  refine ⟨_, _, hr, ?_, (every_third_lost hr).2.2.1⟩
  decide +kernel

end ZephyrStm32.CmdMsgq
