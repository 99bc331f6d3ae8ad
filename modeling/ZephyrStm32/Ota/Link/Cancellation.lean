import ZephyrStm32.Ota.Device.Reset
import ZephyrStm32.Ota.Link.Reassembly
import ZephyrStm32.Ota.Pc.Cancel

/-!
# `start_upgrade`, `cancel_upgrade` and the upgrade threads

All threads share one flag and one connection. `start_upgrade` stores `false` in the flag and
spawns a thread, `cancel_upgrade` stores `true` and then sends CANCEL, a thread makes its next call;
these steps interleave in any order. An exchange with the device is one step, since the mutex is
held from the request to the response; every request arrives, and what `recv` gives is left open.

**Theorem (`cancellation_effective`).** Cancellation works in every run in which `cancel` finds no
thread between its test of the flag and one of the commands it guards, and `start_upgrade` does not
take back a flag that a cancelled thread has yet to see. Nothing in the code provides for either:
`start_outruns_cancel` shows a START that the device accepts after the CANCEL.
-/

namespace ZephyrStm32.Ota.Link

open Machine
open Pc (Frame Op UpgradeThread OtaConfig GivesUp ChecksFirst Heedful upgradeCommands)

/-! ## The model -/

/-- What is left open about an exchange: the uninitialised frame struct, the flash calls, what the
areas open with if the device restarts, and what the PC receives for what the device did. -/
structure Exchange where
  junk : OtaFrame
  flash : FlashCalls
  slot0Open : FlashOpen
  slot1Open : FlashOpen
  recv : List Event → Except String Frame

/-- The device handles a frame. A device that reboots is up again before the next one. -/
def Exchange.handle (z : Zephyr) (x : Exchange) (d : Dev) (f : Frame) : Handled :=
  let r := otaFrameProcess z x.flash d (readFrame (Mem.ofList f.toBytes) 0 x.junk)
  if r.2.rebooted then (r.1, r.2.reset x.slot0Open x.slot1Open) else r

structure Thread where
  left : UpgradeThread
  /-- It was running when `cancel` was called. -/
  cancelled : Bool

def Thread.running (t : Thread) : Bool :=
  match t.left with
  | .ask .. => true
  | _ => false

/-- `cancel` is called. -/
def Thread.cancel (t : Thread) : Thread := { t with cancelled := t.cancelled || t.running }

/-- The PC's program, with the device at the other end of its serial port. -/
structure App where
  device : Dev
  cancelFlag : Bool
  threads : List Thread
  /-- How many calls of `cancel_upgrade` have stored the flag and not sent CANCEL yet. -/
  cancelling : Nat

inductive AppEvent
  /-- `start_upgrade`; `loaded` is what `load_firmware` will give. -/
  | startUpgrade (loaded : Except String (List UInt8))
  /-- `cancel_upgrade` stores the flag. -/
  | cancel
  /-- `cancel_upgrade` sends CANCEL. -/
  | sendCancel (x : Exchange)
  /-- Thread `i` makes its next call. -/
  | thread (i : Nat) (x : Exchange)

namespace App

def init (device : Dev) : App := ⟨device, false, [], 0⟩

/-- What a call gives, and the device after it. -/
def answer (z : Zephyr) (u : App) (x : Exchange) : (op : Op) → op.Answer × Dev
  | .isCancelled => (u.cancelFlag, u.device)
  | .sendAndRecv f _ =>
    let r := x.handle z u.device f
    (x.recv r.1, r.2)
  | .sendFrame f => (.ok (), (x.handle z u.device f).2)
  | .sleep _ => ((), u.device)
  | .emit _ => ((), u.device)

/-- The frame that a thread sends, with the thread, and the state after the event. -/
def step (z : Zephyr) (crc32fastHash : List UInt8 → UInt32) (config : OtaConfig) (u : App) :
    AppEvent → Option (Nat × Frame) × App
  | .startUpgrade loaded =>
    (none, { u with
      cancelFlag := false
      threads := u.threads ++ [⟨Pc.upgradeThread crc32fastHash loaded config, false⟩] })
  | .cancel =>
    (none, { u with
      cancelFlag := true
      threads := u.threads.map Thread.cancel
      cancelling := u.cancelling + 1 })
  | .sendCancel x =>
    match u.cancelling, Pc.buildCancelUpgrade with
    | n + 1, .ok f => (none, { u with device := (x.handle z u.device f).2, cancelling := n })
    | n + 1, .error _ => (none, { u with cancelling := n })
    | 0, _ => (none, u)
  | .thread i x =>
    match u.threads[i]? with
    | some ⟨.ask op next, cancelled⟩ =>
      let r := u.answer z x op
      (op.frame?.map (i, ·),
        { u with device := r.2, threads := u.threads.set i ⟨next r.1, cancelled⟩ })
    | _ => (none, u)

end App

abbrev AppStep := Step App AppEvent (Option (Nat × Frame))

/-! ## The property and the condition -/

/-- Cancellation has been effective so far. -/
structure Effective (h : List AppStep) (u : App) : Prop where
  /-- A thread that was running when `cancel` was called has sent none of the commands since. -/
  quiet : ∀ st ∈ h, ∀ i f t, st.output = some (i, f) → st.before.threads[i]? = some t →
    t.cancelled = true → f.command ∉ upgradeCommands
  /-- It returns `Err`. -/
  err : ∀ t ∈ u.threads, t.cancelled = true → t.running = false → ∃ e, t.left = .done (.error e)
  /-- When `cancel` came last and `cancel_upgrade` and all threads have finished, the device is
  idle. -/
  idle : u.cancelFlag = true → u.cancelling = 0 → (∀ t ∈ u.threads, t.running = false) →
    u.device.ota.status = .idle

/-- The condition on one step. -/
structure Orderly (st : AppStep) : Prop where
  /-- The flag is not taken back while a `cancel_upgrade` is under way or a cancelled thread has not
  given up yet. -/
  start : ∀ loaded, st.input = .startUpgrade loaded →
    st.before.cancelling = 0 ∧ ∀ t ∈ st.before.threads, t.cancelled = true → GivesUp t.left
  /-- The flag is not set while a thread is past its test of it. -/
  cancel : st.input = .cancel →
    ∀ t ∈ st.before.threads, t.running = true → ChecksFirst t.left

variable {z : Zephyr} {crc32fastHash : List UInt8 → UInt32} {config : OtaConfig} {u : App}
  {h : List AppStep} {x : Exchange} {d : Dev}

/-! ## The device -/

/-- Idle, with no transfer begun. -/
def Idle (d : Dev) : Prop := d.ota.status = .idle ∧ d.ota.inProgress = false

theorem cmd_received (f : Frame) (junk : OtaFrame) :
    (readFrame (Mem.ofList f.toBytes) 0 junk).cmd = f.command :=
  Bytes.u16le_le16 f.command

theorem dstAddr_received (f : Frame) (junk : OtaFrame) :
    (readFrame (Mem.ofList f.toBytes) 0 junk).dstAddr = f.dstAddr :=
  Bytes.u16le_le16 f.dstAddr

theorem idle_reset (slot0Open slot1Open : FlashOpen) (d : Dev) :
    Idle (d.reset slot0Open slot1Open) := by
  obtain ⟨_, _, _, _, h⟩ := boot_ota slot0Open slot1Open d.slot1
  refine ⟨boot_idle _ _ _, ?_⟩
  rw [Dev.reset, h]
  rfl

/-- Nothing but START leads out of the idle state: the other commands of an upgrade are refused
there. -/
theorem idle_handles {fl : FlashCalls} {f : OtaFrame} {r : Handled} (hd : Idle d)
    (hc : f.cmd ≠ cmdStartUpgrade) (hh : Handles z fl d f r) : Idle r.2 := by
  obtain ⟨hs, hp⟩ := hd
  cases hh with
  | startTooLarge h | startRefused h => exact absurd h.2 hc
  | startEraseFailed h | startAccepted h => exact absurd h.cmd.2 hc
  | dataOffset h | dataTooLarge h => exact absurd (hp.symm.trans h.inProgress) (by decide)
  | dataWriteFailed h | dataAccepted h | doneAccepted h =>
    exact absurd (hp.symm.trans h.inProgress) (by decide)
  | doneMismatch _ h => exact absurd (hp.symm.trans h) (by decide)
  | verifyReadFailed _ h | verifyMatch _ h | resetAccepted _ h =>
    exact absurd (hs.symm.trans h) (by decide)
  | verifyMismatch _ h => exact absurd (hs.symm.trans h) (by decide)
  | flagSet _ _ _ h => exact absurd (hs.symm.trans h) (by decide)
  | cancelled => exact ⟨rfl, rfl⟩
  | _ => exact ⟨hs, hp⟩

/-- A device that restarts is idle as well. -/
theorem idle_handle_of {f : Frame}
    (h : Idle (otaFrameProcess z x.flash d (readFrame (Mem.ofList f.toBytes) 0 x.junk)).2) :
    Idle (x.handle z d f).2 := by
  unfold Exchange.handle
  dsimp only
  split
  · exact idle_reset _ _ _
  · exact h

theorem idle_handle {f : Frame} (hd : Idle d) (hf : f.command ∉ upgradeCommands) :
    Idle (x.handle z d f).2 := by
  apply idle_handle_of
  refine idle_handles hd ?_ (otaFrameProcess_handles _ _ _ _)
  rw [cmd_received]
  intro hc
  rw [hc] at hf
  exact hf (by decide)

/-- CANCEL makes the device idle in any state. -/
theorem idle_cancel {f : Frame} (hf : Pc.buildCancelUpgrade = .ok f) :
    Idle (x.handle z d f).2 := by
  rw [Pc.buildCancelUpgrade, Pc.new_eq_ok (by simp)] at hf
  obtain rfl := Except.ok.inj hf
  apply idle_handle_of
  have hcmd := cmd_received ⟨0, Pc.addrPc, Pc.addrDevice, 1, 0, Pc.cmdCancelUpgrade, []⟩ x.junk
  have haddr := dstAddr_received ⟨0, Pc.addrPc, Pc.addrDevice, 1, 0, Pc.cmdCancelUpgrade, []⟩ x.junk
  rw [otaFrameProcess_addressed _ _ _ _ (Or.inl haddr), hcmd]
  exact ⟨rfl, rfl⟩

/-! ## A thread's step -/

section

variable {i : Nat} {op : Op} {next : op.Answer → UpgradeThread} {cancelled : Bool}

theorem step_thread (ht : u.threads[i]? = some ⟨.ask op next, cancelled⟩) :
    u.step z crc32fastHash config (.thread i x) = (op.frame?.map (i, ·),
      { u with
        device := (u.answer z x op).2
        threads := u.threads.set i ⟨next (u.answer z x op).1, cancelled⟩ }) := by
  simp only [App.step, ht]

end

/-- A thread that does not run makes no step. -/
theorem step_thread_idle {i : Nat} (ht : ∀ t, u.threads[i]? = some t → t.running = false) :
    u.step z crc32fastHash config (.thread i x) = (none, u) := by
  rcases hti : u.threads[i]? with - | ⟨left, cancelled⟩
  · simp only [App.step, hti]
  · have hrun := ht _ hti
    cases left with
    | done r => simp only [App.step, hti]
    | fail e => simp only [App.step, hti]
    | ask op next => cases hrun

/-- The thread runs, or the step is none. -/
theorem running_cases (u : App) (i : Nat) :
    (∃ op next cancelled, u.threads[i]? = some ⟨.ask op next, cancelled⟩) ∨
      ∀ t, u.threads[i]? = some t → t.running = false := by
  rcases hti : u.threads[i]? with - | ⟨left, cancelled⟩
  · exact Or.inr fun t ht => by cases ht
  · cases left with
    | ask op next => exact Or.inl ⟨op, next, cancelled, rfl⟩
    | done r => exact Or.inr fun t ht => by cases ht; rfl
    | fail e => exact Or.inr fun t ht => by cases ht; rfl

/-! ## The invariant -/

/-- What an orderly run keeps. While the flag is set, every running thread was cancelled, and has a
test of the flag in front of it. -/
structure AppInv (u : App) : Prop where
  heedful : ∀ t ∈ u.threads, Heedful t.left
  cancelled : ∀ t ∈ u.threads, t.cancelled = true →
    GivesUp t.left ∨ u.cancelFlag = true ∧ ChecksFirst t.left
  marked : u.cancelFlag = true → ∀ t ∈ u.threads, t.running = true → t.cancelled = true
  pending : u.cancelFlag = false → u.cancelling = 0
  idle : u.cancelFlag = true → u.cancelling = 0 → Idle u.device

theorem appInv_init (d : Dev) : AppInv (App.init d) where
  heedful := by
    intro t ht
    cases ht
  cancelled := by
    intro t ht
    cases ht
  marked := by
    intro hf
    cases hf
  pending := fun _ => rfl
  idle := by
    intro hf
    cases hf

/-- The next call of a cancelled thread sends none of the commands. -/
theorem AppInv.upgrades_eq_false (hi : AppInv u) {op : Op} {next : op.Answer → UpgradeThread}
    (ht : ⟨.ask op next, true⟩ ∈ u.threads) : op.upgrades = false := by
  rcases hi.cancelled _ ht rfl with hg | ⟨-, rfl | hc⟩
  · exact hg.1
  · rfl
  · exact hc.1

theorem idle_answer {op : Op} (hd : Idle u.device) (hop : op.upgrades = false) :
    Idle (u.answer z x op).2 := by
  cases op with
  | sendAndRecv f timeoutMs =>
    have hf : f.command ∉ upgradeCommands := by simpa [Op.upgrades, Op.frame?] using hop
    rw [App.answer]
    dsimp only
    exact idle_handle hd hf
  | sendFrame f =>
    have hf : f.command ∉ upgradeCommands := by simpa [Op.upgrades, Op.frame?] using hop
    rw [App.answer]
    dsimp only
    exact idle_handle hd hf
  | _ => exact hd

theorem appInv_start (hi : AppInv u) (loaded : Except String (List UInt8))
    (ho : u.cancelling = 0 ∧ ∀ t ∈ u.threads, t.cancelled = true → GivesUp t.left) :
    AppInv (u.step z crc32fastHash config (.startUpgrade loaded)).2 where
  heedful := by
    intro t ht
    rcases List.mem_append.1 ht with ht | ht
    · exact hi.heedful t ht
    · obtain rfl := List.mem_singleton.1 ht
      exact Pc.heedful_upgradeThread _ _ _
  cancelled := by
    intro t ht hc
    rcases List.mem_append.1 ht with ht | ht
    · exact Or.inl (ho.2 t ht hc)
    · obtain rfl := List.mem_singleton.1 ht
      cases hc
  marked := by
    intro hf
    cases hf
  pending := fun _ => ho.1
  idle := by
    intro hf
    cases hf

theorem appInv_cancel (hi : AppInv u)
    (ho : ∀ t ∈ u.threads, t.running = true → ChecksFirst t.left) :
    AppInv (u.step z crc32fastHash config .cancel).2 where
  heedful := by
    intro _ hm
    obtain ⟨t, ht, rfl⟩ := List.mem_map.1 hm
    exact hi.heedful t ht
  cancelled := by
    intro _ hm hc
    obtain ⟨t, ht, rfl⟩ := List.mem_map.1 hm
    rcases Bool.or_eq_true_iff.1 hc with hc | hr
    · exact (hi.cancelled t ht hc).imp_right fun h => ⟨rfl, h.2⟩
    · exact Or.inr ⟨rfl, ho t ht hr⟩
  marked := by
    intro _ _ hm hr
    obtain ⟨t, ht, rfl⟩ := List.mem_map.1 hm
    exact Bool.or_eq_true_iff.2 (Or.inr hr)
  pending := by
    intro hf
    cases hf
  idle := fun _ hn => absurd hn (Nat.succ_ne_zero _)

theorem appInv_sendCancel (hi : AppInv u) (x : Exchange) :
    AppInv (u.step z crc32fastHash config (.sendCancel x)).2 := by
  cases hn : u.cancelling with
  | zero =>
    simp only [App.step, hn]
    exact hi
  | succ n =>
    have hf : u.cancelFlag = true := by
      by_contra hf
      rw [hi.pending (Bool.not_eq_true _ ▸ hf)] at hn
      cases hn
    have hok : ∃ f, Pc.buildCancelUpgrade = .ok f := ⟨_, Pc.new_eq_ok (by simp)⟩
    obtain ⟨f, hok⟩ := hok
    have hidle : Idle (x.handle z u.device f).2 := idle_cancel hok
    simp only [App.step, hn, hok]
    generalize (x.handle z u.device f).2 = d at hidle ⊢
    refine ⟨hi.heedful, hi.cancelled, hi.marked, ?_, fun _ _ => hidle⟩
    intro hf'
    rw [hf] at hf'
    cases hf'

theorem appInv_thread (hi : AppInv u) (i : Nat) (x : Exchange) :
    AppInv (u.step z crc32fastHash config (.thread i x)).2 := by
  rcases running_cases u i with ⟨op, next, cancelled, ht⟩ | ht
  · have hmem : ⟨.ask op next, cancelled⟩ ∈ u.threads := List.mem_of_getElem? ht
    rw [step_thread ht]
    refine ⟨?_, ?_, ?_, hi.pending, ?_⟩
    · intro t hm
      rcases List.mem_or_eq_of_mem_set hm with hm | rfl
      · exact hi.heedful t hm
      · exact (hi.heedful _ hmem).next _
    · intro t hm hc
      rcases List.mem_or_eq_of_mem_set hm with hm | rfl
      · exact hi.cancelled t hm hc
      · rcases hi.cancelled _ hmem hc with hg | ⟨hf, rfl | hcheck⟩
        · exact Or.inl (hg.2 _)
        · -- The load that was in front of it finds the flag set.
          have hgive := (hi.heedful _ hmem).givesUp
          rw [← hf] at hgive
          exact Or.inl hgive
        · exact Or.inr ⟨hf, hcheck.2 _⟩
    · intro hf t hm hr
      rcases List.mem_or_eq_of_mem_set hm with hm | rfl
      · exact hi.marked hf t hm hr
      · have hc := hi.marked hf _ hmem rfl
        exact hc
    · intro hf hn
      obtain rfl : cancelled = true := hi.marked hf _ hmem rfl
      exact idle_answer (hi.idle hf hn) (hi.upgrades_eq_false hmem)
  · rw [step_thread_idle ht]
    exact hi

theorem appInv_step (hi : AppInv u) (e : AppEvent)
    (ho : Orderly (stepOf (App.step z crc32fastHash config) u e)) :
    AppInv (u.step z crc32fastHash config e).2 := by
  cases e with
  | startUpgrade loaded => exact appInv_start hi loaded (ho.start loaded rfl)
  | cancel => exact appInv_cancel hi (ho.cancel rfl)
  | sendCancel x => exact appInv_sendCancel hi x
  | thread i x => exact appInv_thread hi i x

/-! ## Every run -/

/-- A step of a cancelled thread sends none of the commands. -/
theorem quiet_step (hi : AppInv u) (e : AppEvent) {i : Nat} {f : Frame} {t : Thread}
    (hout : (u.step z crc32fastHash config e).1 = some (i, f)) (ht : u.threads[i]? = some t)
    (hc : t.cancelled = true) : f.command ∉ upgradeCommands := by
  cases e with
  | startUpgrade loaded => cases hout
  | cancel => cases hout
  | sendCancel x =>
    have hok : Pc.buildCancelUpgrade = .ok _ := Pc.new_eq_ok (by simp)
    cases hn : u.cancelling with
    | zero => simp [App.step, hn] at hout
    | succ n => simp [App.step, hn, hok] at hout
  | thread j x =>
    rcases running_cases u j with ⟨op, next, cancelled, htj⟩ | htj
    · rw [step_thread htj] at hout
      obtain ⟨g, hg, hjf⟩ := Option.map_eq_some_iff.1 hout
      obtain ⟨rfl, rfl⟩ := Prod.mk.inj hjf
      rw [htj] at ht
      obtain rfl := Option.some.inj ht
      obtain rfl : cancelled = true := hc
      have hop := hi.upgrades_eq_false (List.mem_of_getElem? htj)
      simpa [Op.upgrades, hg] using hop
    · rw [step_thread_idle htj] at hout
      cases hout

theorem err_of_appInv (hi : AppInv u) {t : Thread} (ht : t ∈ u.threads)
    (hc : t.cancelled = true) (hr : t.running = false) : ∃ e, t.left = .done (.error e) := by
  have hcheck : ChecksFirst t.left := (hi.cancelled t ht hc).elim GivesUp.checksFirst And.right
  obtain ⟨left, cancelled⟩ := t
  cases left with
  | done r =>
    obtain ⟨e, rfl⟩ := hcheck
    exact ⟨e, rfl⟩
  | fail e => exact hcheck.elim
  | ask op next => cases hr

theorem run_effective (hr : Run (App.step z crc32fastHash config) (.init d) h u)
    (hc : Always (fun _ => Orderly) h) : Effective h u := by
  have hinv : AppInv u ∧ ∀ st ∈ h, ∀ i f t, st.output = some (i, f) →
      st.before.threads[i]? = some t → t.cancelled = true → f.command ∉ upgradeCommands := by
    refine hr.invariant_of_always (P := fun h u => AppInv u ∧ ∀ st ∈ h, ∀ i f t, st.output =
      some (i, f) → st.before.threads[i]? = some t → t.cancelled = true →
        f.command ∉ upgradeCommands) hc ⟨appInv_init d, fun st hst => by cases hst⟩ ?_
    rintro h u e - ⟨hi, hquiet⟩ ho
    refine ⟨appInv_step hi e ho, ?_⟩
    intro st hst i f t hout ht hc
    rcases List.mem_cons.1 hst with rfl | hst
    · exact quiet_step hi e hout ht hc
    · exact hquiet st hst i f t hout ht hc
  obtain ⟨hi, hquiet⟩ := hinv
  exact ⟨hquiet, fun t ht => err_of_appInv hi ht, fun hf hn _ => (hi.idle hf hn).1⟩

/-! ## A thread returns -/

/-- Other steps leave a thread where it is. -/
theorem step_left {i : Nat} {p : UpgradeThread} (e : AppEvent) (he : ¬ ∃ x, e = .thread i x)
    (hp : (u.threads[i]?.map Thread.left) = some p) :
    (u.step z crc32fastHash config e).2.threads[i]?.map Thread.left = some p := by
  obtain ⟨t, ht, rfl⟩ := Option.map_eq_some_iff.1 hp
  have hlt : i < u.threads.length := (List.getElem?_eq_some_iff.1 ht).1
  cases e with
  | startUpgrade loaded =>
    simp only [App.step, List.getElem?_append_left hlt, ht, Option.map_some]
  | cancel => simp only [App.step, List.getElem?_map, ht, Option.map_some, Thread.cancel]
  | sendCancel x =>
    have hok : Pc.buildCancelUpgrade = .ok _ := Pc.new_eq_ok (by simp)
    cases hn : u.cancelling with
    | zero => simp only [App.step, hn, ht, Option.map_some]
    | succ n => simp only [App.step, hn, hok, ht, Option.map_some]
  | thread j x =>
    have hne : j ≠ i := fun hji => he ⟨x, hji ▸ rfl⟩
    rcases running_cases u j with ⟨op, next, cancelled, htj⟩ | htj
    · rw [step_thread htj]
      simp only [List.getElem?_set_ne hne, ht, Option.map_some]
    · rw [step_thread_idle htj]
      simp only [ht, Option.map_some]

/-- A thread whose turn comes again and again returns, by induction on what it has left to do. -/
theorem thread_returns {i : Nat} {p : UpgradeThread} (ht : u.threads[i]?.map Thread.left = some p)
    {events : Nat → AppEvent} (hfair : ∀ n, ∃ k, n ≤ k ∧ ∃ x, events k = .thread i x) :
    ∃ n, ∀ t, (along (App.step z crc32fastHash config) u events n).threads[i]? = some t →
      t.running = false := by
  induction p generalizing u events with
  | done r =>
    refine ⟨0, fun t ht' => ?_⟩
    have ht' : u.threads[i]? = some t := ht'
    rw [ht', Option.map_some, Option.some.injEq] at ht
    rw [Thread.running, ht]
  | fail e =>
    refine ⟨0, fun t ht' => ?_⟩
    have ht' : u.threads[i]? = some t := ht'
    rw [ht', Option.map_some, Option.some.injEq] at ht
    rw [Thread.running, ht]
  | ask op next ih =>
    obtain ⟨k, -, hk⟩ := hfair 0
    obtain ⟨n, a, hn⟩ := along_first (C := fun e => ∃ x, e = .thread i x)
      (P := fun u : App => u.threads[i]?.map Thread.left = some (.ask op next))
      (Q := fun u : App => ∃ a, u.threads[i]?.map Thread.left = some (next a))
      (m := App.step z crc32fastHash config) (fun _ e hp he => step_left e he hp)
      (by
        rintro u _ hp ⟨x, rfl⟩
        obtain ⟨⟨left, cancelled⟩, ht, rfl⟩ := Option.map_eq_some_iff.1 hp
        refine ⟨(u.answer z x op).1, ?_⟩
        have hlt : i < u.threads.length := (List.getElem?_eq_some_iff.1 ht).1
        rw [step_thread ht]
        simp only [List.getElem?_set_self hlt, Option.map_some])
      ht ⟨k, hk⟩
    have hfair' : ∀ j, ∃ k, j ≤ k ∧ ∃ x, events (n + k) = .thread i x := by
      intro j
      obtain ⟨k, hjk, hk⟩ := hfair (n + j)
      obtain ⟨k, rfl⟩ := Nat.exists_eq_add_of_le (show n ≤ k by omega)
      exact ⟨k, by omega, hk⟩
    obtain ⟨j, hj⟩ := ih a hn hfair'
    refine ⟨n + j, ?_⟩
    rw [along_add]
    exact hj

/-- **Cancellation.** In every orderly run, a thread that was running when `cancel` was called sends
none of the commands from then on and returns `Err`, and when `cancel_upgrade` and all threads have
finished the device is idle; and every thread whose turn comes again and again does finish. -/
theorem cancellation_effective (hr : Run (App.step z crc32fastHash config) (.init d) h u)
    (hc : Always (fun _ => Orderly) h) :
    Effective h u ∧ ∀ i events, (∀ n, ∃ k, n ≤ k ∧ ∃ x, events k = .thread i x) →
      ∃ n, ∀ t, (along (App.step z crc32fastHash config) u events n).threads[i]? = some t →
        t.running = false := by
  refine ⟨run_effective hr hc, fun i events hfair => ?_⟩
  cases ht : u.threads[i]? with
  | none =>
    refine ⟨0, fun t ht' => ?_⟩
    have ht' : u.threads[i]? = some t := ht'
    rw [ht] at ht'
    cases ht'
  | some t => exact thread_returns (by rw [ht, Option.map_some]) hfair

/-! ### Over a link that loses nothing -/

/-- What the PC receives: the device's response. -/
def firstResponse : List Event → Except String Frame
  | [] => .error "Receive timeout"
  | .send seq cmd data :: _ => .ok ⟨seq, Pc.addrDevice, Pc.addrPc, 1, 0, cmd, data⟩
  | _ :: es => firstResponse es

def Exchange.lossless : Exchange :=
  ⟨.onStack fun _ => 0, .ok, ⟨0, none⟩, ⟨0, none⟩, firstResponse⟩

/-- Every exchange brings the device's response. -/
def AppEvent.Lossless : AppEvent → Prop
  | .sendCancel x | .thread _ x => x.recv = firstResponse
  | _ => True

/-- A thread is cancelled before it has made a call, and then makes two. -/
theorem cancelled_at_once :
    let r := exec (App.step .standard Crc32.hash {}) (.init .board)
      [.startUpgrade (.ok [0xAA]), .cancel, .sendCancel .lossless, .thread 0 .lossless,
        .thread 0 .lossless]
    Effective r.1 r.2 := by
  intro r
  have hother : ∀ (u : App) (e : AppEvent), (∀ loaded, e ≠ .startUpgrade loaded) → e ≠ .cancel →
      Orderly (stepOf (App.step .standard Crc32.hash {}) u e) := by
    intro u e hs hc
    exact ⟨fun loaded he => absurd he (hs loaded), fun he => absurd he hc⟩
  have hc : Always (fun _ => Orderly) r.1 := by
    refine ⟨hother _ _ (by simp) (by simp), hother _ _ (by simp) (by simp),
      hother _ _ (by simp) (by simp), ⟨?_, ?_⟩, ⟨?_, ?_⟩, trivial⟩
    · intro loaded he
      cases he
    · -- The first call announces the stage, the second loads the flag.
      intro _ t ht _
      obtain rfl := List.mem_singleton.1 ht
      exact Or.inr ⟨rfl, fun _ => Or.inl rfl⟩
    · exact fun _ _ => ⟨rfl, fun t ht => by cases ht⟩
    · intro he
      cases he
  exact (cancellation_effective (run_exec _ _ _) hc).1

/-- A run in which `cancel` comes between the test of the flag and the START behind it. -/
def outrun : List AppEvent :=
  .startUpgrade (.ok [0xAA]) :: List.replicate 11 (.thread 0 .lossless) ++
    [.cancel, .sendCancel .lossless] ++ List.replicate 5 (.thread 0 .lossless)

theorem lossless_outrun : ∀ e ∈ outrun, e.Lossless := by
  intro e he
  simp only [outrun, List.mem_cons, List.mem_append, List.mem_replicate, List.not_mem_nil,
    or_false] at he
  rcases he with ((rfl | ⟨-, rfl⟩) | rfl | rfl) | ⟨-, rfl⟩
  · exact trivial
  · exact rfl
  · exact trivial
  · exact rfl
  · exact rfl

/-- **START behind CANCEL.** The thread's START reaches the device after the CANCEL; the thread
returns, and the device is left waiting for data. -/
theorem start_outruns_cancel : ¬ ∀ events : List AppEvent, (∀ e ∈ events, e.Lossless) →
    Effective (exec (App.step .standard Crc32.hash {}) (.init .board) events).1
      (exec (App.step .standard Crc32.hash {}) (.init .board) events).2 := by
  intro hall
  have hidle := (hall outrun lossless_outrun).idle
  have hrun : let u := (exec (App.step .standard Crc32.hash {}) (.init .board) outrun).2
      u.cancelFlag = true ∧ u.cancelling = 0 ∧ u.threads.all (!·.running) = true ∧
        u.device.ota.status = .receiving := by
    decide +kernel
  obtain ⟨hf, hn, hthreads, hstatus⟩ := hrun
  rw [List.all_eq_true] at hthreads
  have hs := hidle hf hn fun t ht => by simpa using hthreads t ht
  rw [hstatus] at hs
  cases hs

end ZephyrStm32.Ota.Link
