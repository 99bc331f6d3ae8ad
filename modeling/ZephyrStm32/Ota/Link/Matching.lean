import ZephyrStm32.Lib.Run
import ZephyrStm32.Ota.Pc.Commands

/-!
# Requests and responses: `SerialConnection`

The requests travel to the device in order; the device answers each of them once, at any time; the
reading thread puts the decoded responses into `frame_rx`. `send_and_recv` holds the connection's
mutex from its send to the end of its wait, and takes whatever response comes first.

**Theorem (`responses_matched_iff`).** In a run of any users of the connection, every response
handed out is the one to the request it is handed out for, if and only if every `send_and_recv`
that got a response was called when no earlier request was unanswered and no earlier response
unread. Nothing in the code provides for that: a request that timed out, or a CANCEL sent without
waiting, leaves its response for the next caller.
-/

namespace ZephyrStm32.Ota.Link

open Machine
open Pc (Frame)

/-! ## The connection -/

/-- The connection with the device at its other end. Requests are numbered as they are sent, and a
response keeps the number of the request it answers; the code knows nothing of these numbers. -/
structure SerialConnection (σ : Type) where
  device : σ
  /-- Sent, and not answered yet. -/
  toDevice : List (Nat × Frame)
  /-- Answered, and not read yet. -/
  frameRx : List (Nat × Frame)
  sent : Nat
  /-- The `send_and_recv` that holds the mutex and waits for its response. -/
  waiting : Option (Nat × Frame)

/-- What a `send_and_recv` returned: for which request, and a response to which. -/
structure Returned where
  number : Nat
  asked : Frame
  answers : Nat
  frame : Frame

/-- What can happen, in any order. -/
inductive LinkEvent
  /-- `with_conn(|c| c.send_frame(&f))`, as the transfer loop sends CANCEL. -/
  | sendFrame (f : Frame)
  /-- The sending half of `with_conn(|c| c.send_and_recv(&f, timeout))`: a step of the upgrade or
  one of its retries, a poll of the logs, a user command. -/
  | sendAndRecv (f : Frame)
  /-- The device answers the oldest request. -/
  | answer
  /-- `recv_timeout` finds a frame. -/
  | recvFrame
  /-- `recv_timeout` gives up; it does so only when there is none. -/
  | timeout

namespace SerialConnection

variable {σ : Type}

def init (device : σ) : SerialConnection σ := ⟨device, [], [], 0, none⟩

/-- Both queues are empty: every request so far has its response read. -/
def Drained (l : SerialConnection σ) : Prop := l.toDevice = [] ∧ l.frameRx = []

def sendFrame (l : SerialConnection σ) (f : Frame) : SerialConnection σ :=
  { l with toDevice := l.toDevice ++ [(l.sent, f)], sent := l.sent + 1 }

/-- One event. Who finds the mutex taken waits, and does nothing yet. -/
def step (respond : σ → Frame → Frame × σ) (l : SerialConnection σ) :
    LinkEvent → Option Returned × SerialConnection σ
  | .sendFrame f =>
    match l.waiting with
    | none => (none, l.sendFrame f)
    | some _ => (none, l)
  | .sendAndRecv f =>
    match l.waiting with
    | none => (none, { l.sendFrame f with waiting := some (l.sent, f) })
    | some _ => (none, l)
  | .answer =>
    match l.toDevice with
    | [] => (none, l)
    | (n, f) :: rest =>
      let r := respond l.device f
      (none, { l with device := r.2, toDevice := rest, frameRx := l.frameRx ++ [(n, r.1)] })
  | .recvFrame =>
    match l.waiting, l.frameRx with
    | some (n, f), (k, resp) :: rest =>
      (some ⟨n, f, k, resp⟩, { l with frameRx := rest, waiting := none })
    | _, _ => (none, l)
  | .timeout =>
    match l.waiting, l.frameRx with
    | some _, [] => (none, { l with waiting := none })
    | _, _ => (none, l)

end SerialConnection

/-- A step of the connection. -/
abbrev LinkStep (σ : Type) := Step (SerialConnection σ) LinkEvent (Option Returned)

section

variable {σ : Type}

/-- A response that is handed out answers the request it is handed out for. -/
def Matched (st : LinkStep σ) : Prop := ∀ r, st.output = some r → r.answers = r.number

/-- The `send_and_recv` begun last in a history (the latest step first). -/
def begun : List (LinkStep σ) → Option (LinkStep σ)
  | [] => none
  | st :: h =>
    match st.input, st.before.waiting with
    | .sendAndRecv _, none => some st
    | _, _ => begun h

/-- When `recv_timeout` finds a frame, the `send_and_recv` that waits was called on drained
queues. -/
def CalledDrained (h : List (LinkStep σ)) (st : LinkStep σ) : Prop :=
  st.input = .recvFrame → st.before.waiting ≠ none → st.before.frameRx ≠ [] →
    ∃ call, begun h = some call ∧ call.before.Drained

end

variable {σ : Type} {respond : σ → Frame → Frame × σ} {l : SerialConnection σ}
  {h : List (LinkStep σ)}

/-! ## The numbers in the queues -/

namespace SerialConnection

/-- The numbers of the requests whose response is not read yet. -/
def outstanding (l : SerialConnection σ) : List Nat := (l.frameRx ++ l.toDevice).map Prod.fst

theorem drained_iff : l.Drained ↔ l.outstanding = [] := by
  simp [Drained, outstanding, and_comm]

theorem outstanding_sendFrame (l : SerialConnection σ) (f : Frame) :
    (l.sendFrame f).outstanding = l.outstanding ++ [l.sent] := by
  simp [outstanding, sendFrame]

/-- An answer moves a request's number from one queue to the other. -/
theorem outstanding_answer (l : SerialConnection σ) :
    (l.step respond .answer).2.outstanding = l.outstanding := by
  cases hd : l.toDevice with
  | nil => simp [step, hd]
  | cons x rest => simp [step, hd, outstanding]

end SerialConnection

/-- What a run keeps: every outstanding number was given out, and while a `send_and_recv` waits its
own is the last, with those outstanding at its call in front of it. -/
structure LinkInv (h : List (LinkStep σ)) (l : SerialConnection σ) : Prop where
  lt_sent : ∀ k ∈ l.outstanding, k < l.sent
  waiting : ∀ n f, l.waiting = some (n, f) → ∃ call, begun h = some call ∧
    l.outstanding = call.before.outstanding ++ [n] ∧ ∀ k ∈ call.before.outstanding, k < n

theorem linkInv_init (d : σ) : LinkInv [] (SerialConnection.init d) where
  lt_sent := by
    intro k hk
    cases hk
  waiting := by
    intro n f hw
    cases hw

/-- The number of a request that is sent is new. -/
theorem lt_sent_sendFrame (hl : ∀ k ∈ l.outstanding, k < l.sent) (f : Frame) :
    ∀ k ∈ (l.sendFrame f).outstanding, k < (l.sendFrame f).sent := by
  intro k hk
  rw [SerialConnection.outstanding_sendFrame, List.mem_append, List.mem_singleton] at hk
  change k < l.sent + 1
  rcases hk with hk | rfl
  · exact Nat.lt_succ_of_lt (hl k hk)
  · exact Nat.lt_succ_self _

/-- An event that begins no `send_and_recv` and neither adds nor takes away a number. -/
theorem LinkInv.quiet (hi : LinkInv h l) {st : LinkStep σ} {l' : SerialConnection σ}
    (hb : begun (st :: h) = begun h) (ho : l'.outstanding = l.outstanding)
    (hs : l'.sent = l.sent) (hw : l'.waiting = l.waiting ∨ l'.waiting = none) :
    LinkInv (st :: h) l' where
  lt_sent := by
    rw [ho, hs]
    exact hi.lt_sent
  waiting := by
    intro n f hn
    rcases hw with hw | hw
    · rw [hb, ho]
      exact hi.waiting n f (hw.symm.trans hn)
    · rw [hw] at hn
      cases hn

theorem begun_of_waiting {st : LinkStep σ} {x : Nat × Frame} (hw : st.before.waiting = some x) :
    begun (st :: h) = begun h := by
  cases hi : st.input <;> simp [begun, hi, hw]

theorem begun_of_input {st : LinkStep σ} (hi : ∀ f, st.input ≠ .sendAndRecv f) :
    begun (st :: h) = begun h := by
  cases he : st.input with
  | sendAndRecv f => exact absurd he (hi f)
  | _ => simp [begun, he]

theorem linkInv_step (hi : LinkInv h l) (e : LinkEvent) :
    LinkInv (stepOf (SerialConnection.step respond) l e :: h) (l.step respond e).2 := by
  cases e with
  | sendFrame f =>
    have hb : begun (stepOf (SerialConnection.step respond) l (.sendFrame f) :: h) = begun h :=
      begun_of_input (by simp)
    cases hw : l.waiting with
    | none =>
      simp only [SerialConnection.step, hw]
      refine ⟨lt_sent_sendFrame hi.lt_sent f, fun n g hn => ?_⟩
      rw [show (l.sendFrame f).waiting = none from hw] at hn
      cases hn
    | some x =>
      simp only [SerialConnection.step, hw]
      exact hi.quiet hb rfl rfl (Or.inl rfl)
  | sendAndRecv f =>
    cases hw : l.waiting with
    | none =>
      have hb : begun (stepOf (SerialConnection.step respond) l (.sendAndRecv f) :: h) =
          some (stepOf (SerialConnection.step respond) l (.sendAndRecv f)) := by
        simp [begun, hw]
      simp only [SerialConnection.step, hw]
      refine ⟨lt_sent_sendFrame hi.lt_sent f, fun n g hn => ⟨_, hb, ?_, ?_⟩⟩
      · obtain ⟨rfl, rfl⟩ := Prod.mk.inj (Option.some.inj hn)
        exact SerialConnection.outstanding_sendFrame l f
      · obtain ⟨rfl, rfl⟩ := Prod.mk.inj (Option.some.inj hn)
        exact hi.lt_sent
    | some x =>
      simp only [SerialConnection.step, hw]
      exact hi.quiet (begun_of_waiting hw) rfl rfl (Or.inl rfl)
  | answer =>
    refine hi.quiet (begun_of_input (by simp)) l.outstanding_answer ?_ (Or.inl ?_)
    · cases hd : l.toDevice <;> simp [SerialConnection.step, hd]
    · cases hd : l.toDevice <;> simp [SerialConnection.step, hd]
  | recvFrame =>
    have hb : begun (stepOf (SerialConnection.step respond) l .recvFrame :: h) = begun h :=
      begun_of_input (by simp)
    cases hw : l.waiting with
    | none =>
      simp only [SerialConnection.step, hw]
      exact hi.quiet hb rfl rfl (Or.inl rfl)
    | some x =>
      cases hr : l.frameRx with
      | nil =>
        simp only [SerialConnection.step, hw, hr]
        exact hi.quiet hb rfl rfl (Or.inl rfl)
      | cons y rest =>
        simp only [SerialConnection.step, hw, hr]
        refine ⟨fun k hk => hi.lt_sent k ?_, fun n f hn => by cases hn⟩
        simp only [SerialConnection.outstanding, hr, List.cons_append, List.map_cons]
        exact List.mem_cons_of_mem _ hk
  | timeout =>
    have hb : begun (stepOf (SerialConnection.step respond) l .timeout :: h) = begun h :=
      begun_of_input (by simp)
    cases hw : l.waiting with
    | none =>
      simp only [SerialConnection.step, hw]
      exact hi.quiet hb rfl rfl (Or.inl rfl)
    | some x =>
      cases hr : l.frameRx with
      | nil =>
        simp only [SerialConnection.step, hw, hr]
        exact hi.quiet hb (by simp [SerialConnection.outstanding, hr]) rfl (Or.inr rfl)
      | cons y rest =>
        simp only [SerialConnection.step, hw, hr]
        exact hi.quiet hb rfl rfl (Or.inl rfl)

theorem run_linkInv {d : σ} (hr : Run (SerialConnection.step respond) (.init d) h l) :
    LinkInv h l :=
  hr.invariant (linkInv_init d) fun _ _ e _ hi => linkInv_step hi e

/-! ## What is handed out -/

/-- A response is handed out only by `recv_timeout`, to the call that waits, from the front. -/
theorem step_output {e : LinkEvent} {r : Returned} (ho : (l.step respond e).1 = some r) :
    e = .recvFrame ∧ l.waiting = some (r.number, r.asked) ∧
      ∃ rest, l.frameRx = (r.answers, r.frame) :: rest := by
  cases e with
  | recvFrame =>
    cases hw : l.waiting with
    | none => simp [SerialConnection.step, hw] at ho
    | some x =>
      cases hr : l.frameRx with
      | nil => simp [SerialConnection.step, hw, hr] at ho
      | cons y rest =>
        simp only [SerialConnection.step, hw, hr, Option.some.injEq] at ho
        subst ho
        exact ⟨rfl, rfl, rest, rfl⟩
  | answer => cases hd : l.toDevice <;> simp [SerialConnection.step, hd] at ho
  | timeout =>
    cases hw : l.waiting <;> cases hr : l.frameRx <;> simp [SerialConnection.step, hw, hr] at ho
  | _ => cases hw : l.waiting <;> simp [SerialConnection.step, hw] at ho

theorem step_recvFrame (hw : l.waiting ≠ none) (hr : l.frameRx ≠ []) :
    (l.step respond .recvFrame).1 ≠ none := by
  obtain ⟨x, hx⟩ := Option.ne_none_iff_exists'.1 hw
  obtain ⟨y, rest, hy⟩ := List.exists_cons_of_ne_nil hr
  simp [SerialConnection.step, hx, hy]

/-- One step: the response is the caller's own when and only when it was called on drained
queues. -/
theorem matched_iff (hi : LinkInv h l) (e : LinkEvent) :
    Matched (stepOf (SerialConnection.step respond) l e) ↔
      CalledDrained h (stepOf (SerialConnection.step respond) l e) := by
  rw [Matched, CalledDrained, stepOf_output, stepOf_input, stepOf_before]
  cases ho : (l.step respond e).1 with
  | none =>
    refine iff_of_true (fun r hr => by cases hr) fun he hw hrx => ?_
    subst he
    exact absurd ho (step_recvFrame hw hrx)
  | some r =>
    obtain ⟨rfl, hw, rest, hrx⟩ := step_output ho
    obtain ⟨call, hcall, hout, hlt⟩ := hi.waiting _ _ hw
    have hfront : r.answers :: (rest ++ l.toDevice).map Prod.fst =
        call.before.outstanding ++ [r.number] := by
      rw [← hout, SerialConnection.outstanding, hrx, List.cons_append, List.map_cons]
    simp only [Option.some.injEq, forall_eq', ne_eq, reduceCtorEq, not_false_eq_true,
      forall_const, hw, hrx, hcall, exists_eq_left', SerialConnection.drained_iff]
    cases hprev : call.before.outstanding with
    | nil =>
      rw [hprev] at hfront
      simpa using (List.cons.inj hfront).1
    | cons k ks =>
      rw [hprev] at hfront hlt
      have hk : k < r.number := hlt k List.mem_cons_self
      have heq : r.answers = k := (List.cons.inj hfront).1
      simp only [reduceCtorEq, iff_false]
      omega

/-- **Requests and responses.** In every run, all responses handed out answer the requests they are
handed out for if and only if each `send_and_recv` that got one was called on drained queues. -/
theorem responses_matched_iff {d : σ} (hr : Run (SerialConnection.step respond) (.init d) h l) :
    Always (fun _ => Matched) h ↔ Always CalledDrained h :=
  hr.always_iff fun _ _ e hr _ => matched_iff (run_linkInv hr) e

/-! ### A device that repeats the command code, as ours does -/

/-- Every request is answered with its own number and command, and with success. -/
def echo (_ : Unit) (f : Frame) : Frame × Unit :=
  ({ f with srcAddr := Pc.addrDevice, dstAddr := Pc.addrPc, data := [0x00] }, ())

/-- The request with command `c` and no payload. -/
def plain (c : UInt16) : Frame := ⟨0, Pc.addrPc, Pc.addrDevice, 1, 0, c, []⟩

/-- Two calls, one after the other. -/
theorem matched_in_turn : Always (fun _ => Matched) (exec (SerialConnection.step echo) (.init ())
    [.sendAndRecv (plain Pc.cmdHandshake), .answer, .recvFrame,
      .sendAndRecv (plain Pc.cmdGetDeviceInfo), .answer, .recvFrame]).1 := by
  refine (responses_matched_iff (run_exec _ _ _)).2 ⟨?_, ?_, ?_, ?_, ?_, ?_, trivial⟩
  · exact fun _ _ _ => ⟨_, rfl, rfl, rfl⟩
  · exact fun he => by cases he
  · exact fun he => by cases he
  · exact fun _ _ _ => ⟨_, rfl, rfl, rfl⟩
  · exact fun he => by cases he
  · exact fun he => by cases he

/-- The response to the CANCEL of the transfer loop is handed out as the log that is polled next;
not even the command codes agree. -/
theorem cancel_taken_for_log : ¬ ∀ (h : List (LinkStep Unit)) (l : SerialConnection Unit),
    Run (SerialConnection.step echo) (.init ()) h l →
      Always (fun _ st => ∀ r, st.output = some r →
        r.answers = r.number ∨ r.frame.command = r.asked.command) h := by
  intro hall
  have hrun := run_exec (SerialConnection.step echo) (.init ())
    [.sendFrame (plain Pc.cmdCancelUpgrade), .sendAndRecv (plain Pc.cmdGetLog), .answer, .recvFrame]
  have hlast := (hall _ _ hrun).1 _ rfl
  revert hlast
  decide

end ZephyrStm32.Ota.Link
