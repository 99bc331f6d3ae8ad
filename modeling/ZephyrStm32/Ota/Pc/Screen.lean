import ZephyrStm32.Lib.Run
import ZephyrStm32.Ota.Pc.Progress
import ZephyrStm32.Ota.Pc.Stages

/-!
# The window: `useOta.ts`, `useSerial.ts`, `App.tsx` and `OtaControls.tsx`

The frontend folds the events of all upgrade threads into one state, in the order in which they
were emitted. `start_upgrade` is a call that the backend gets to later, so that threads can overlap;
a disconnect clears the state at once, while threads go on. Clicks on a disabled button do nothing.

**Theorem (`screen_truthful`).** In every reachable state: once the pending events are delivered the
window shows an upgrade under way only if a thread is still running, one that announced that stage
last; the progress it shows is none or one that a thread reported, and for a file below 4 GiB that
gives the bytes of its packets that `check_response` had let pass by then, out of its size; and it
holds at most 501 lines of log.
-/

namespace ZephyrStm32.Ota.Pc

open Interact
open Engine
open Machine

/-! ## `useOta.ts` -/

structure OtaLog where
  level : String
  message : String
  deriving DecidableEq, Repr

/-- An event of the backend. The log lines of an upgrade are no questions of its program. -/
inductive Emitted
  | event (event : OtaEvent)
  | log (log : OtaLog)

structure OtaState where
  stage : UpgradeStage := .idle
  sent : Nat := 0
  total : Nat := 0
  message : String := ""
  deviceInfo : Option DeviceInfo := none
  logs : List OtaLog := []
  error : Option String := none

namespace OtaState

/-- `[...prev.slice(-500), log]` -/
def addLog (s : OtaState) (log : OtaLog) : OtaState :=
  { s with logs := s.logs.drop (s.logs.length - 500) ++ [log] }

/-- The listener of `ota:event`. -/
def listen (s : OtaState) : Emitted → OtaState
  | .event (.progress stage message bytesSent totalBytes) =>
    { s with stage := stage, sent := bytesSent, total := totalBytes, message := message }
  | .event (.error message) =>
    let message := if message.isEmpty then "Unknown error" else message
    { s with error := some message }.addLog ⟨"error", message⟩
  | .event (.deviceInfo info) => { s with deviceInfo := some info }
  | .event (.stageChanged stage) => { s with stage := stage }
  | .log log => s.addLog log

def clearLogs (s : OtaState) : OtaState := { s with logs := [] }

def resetState (_ : OtaState) : OtaState := {}

/-- `isBusy` of `OtaControls` and `isActive` of `OtaProgress`. -/
def isBusy (s : OtaState) : Bool :=
  s.stage ≠ .idle && s.stage ≠ .complete && s.stage ≠ .cancelled && s.stage ≠ .error

end OtaState

/-! ## The program with its window -/

/-- A thread that `run_upgrade` spawned, with the calls it has made. -/
structure Spawned where
  loaded : Except String (List UInt8)
  left : UpgradeThread
  asked : List (Asked Op Op.Answer)

def Spawned.running (t : Spawned) : Bool :=
  match t.left with
  | .ask .. => true
  | _ => false

structure Desk where
  ota : OtaState
  /-- `connected` of `useSerial`. -/
  connected : Bool
  firmwarePath : String
  /-- The connection of `SerialManager`. -/
  isConnected : Bool
  /-- Calls of `disconnect_serial` that the backend has not got to yet. -/
  disconnecting : Nat
  /-- Calls of `start_upgrade` that the backend has not got to yet. -/
  starting : List String
  threads : List Spawned
  /-- The events that are not delivered yet. -/
  pending : List Emitted

inductive DeskEvent
  | connect (opened : Bool)
  /-- The disconnect button. -/
  | disconnect
  /-- The backend has closed the connection. -/
  | disconnected
  | firmwareSelected (path name : String)
  /-- The start button. -/
  | startUpgrade
  /-- The backend runs the oldest `start_upgrade`; `loaded` is what `load_firmware` gives. -/
  | runUpgrade (loaded : Except String (List UInt8))
  /-- The cancel button. -/
  | cancelUpgrade
  | clearLogs
  /-- What another command reports in the log. -/
  | addLog (log : OtaLog)
  /-- `get_device_info` emits what it read. -/
  | deviceInfo (info : DeviceInfo)
  /-- A thread writes to the log. -/
  | emitLog (log : OtaLog)
  /-- Thread `i` makes its next call. -/
  | thread (i : Nat) (answer : (op : Op) → op.Answer)
  /-- The oldest pending event is delivered. -/
  | deliver

namespace Desk

def init : Desk := ⟨{}, false, "", false, 0, [], [], []⟩

/-- `canStart` of `OtaControls`. -/
def canStart (u : Desk) : Bool := u.connected && u.firmwarePath ≠ "" && !u.ota.isBusy

/-- What a call adds to the pending events. -/
def emitted : Op → List Emitted
  | .emit event => [.event event]
  | _ => []

/-- `OtaEngine` has the default configuration. -/
def spawn (crc32fastHash : List UInt8 → UInt32) (loaded : Except String (List UInt8)) : Spawned :=
  ⟨loaded, upgradeThread crc32fastHash loaded {}, []⟩

/-- The error of `start_upgrade`. -/
def notConnected : String := "Serial port not connected"

def step (crc32fastHash : List UInt8 → UInt32) (u : Desk) : DeskEvent → Unit × Desk
  | .connect opened =>
    ((), if u.connected then u else { u with connected := opened, isConnected := opened })
  | .disconnect =>
    ((), if u.connected then
      { u with ota := u.ota.resetState, disconnecting := u.disconnecting + 1 } else u)
  | .disconnected =>
    match u.disconnecting with
    | 0 => ((), u)
    | n + 1 => ((), { u with connected := false, isConnected := false, disconnecting := n })
  | .firmwareSelected path name =>
    ((), { u with firmwarePath := path, ota := u.ota.addLog ⟨"info", s!"已选择固件: {name}"⟩ })
  | .startUpgrade =>
    ((), if u.canStart then
      { u with
        ota := { u.ota with error := none }.addLog ⟨"info", s!"开始升级: {u.firmwarePath}"⟩
        starting := u.starting ++ [u.firmwarePath] }
      else u)
  | .runUpgrade loaded =>
    match u.starting with
    | [] => ((), u)
    | _ :: starting =>
      ((), if u.isConnected then
        { u with starting := starting, threads := u.threads ++ [spawn crc32fastHash loaded] }
        else
        { u with
          starting := starting
          ota := { u.ota.addLog ⟨"error", s!"升级启动失败: {notConnected}"⟩ with
            error := notConnected } })
  | .cancelUpgrade =>
    ((), if u.ota.isBusy then { u with ota := u.ota.addLog ⟨"warn", "取消升级..."⟩ } else u)
  | .clearLogs => ((), { u with ota := u.ota.clearLogs })
  | .addLog log => ((), { u with ota := u.ota.addLog log })
  | .deviceInfo info => ((), { u with pending := u.pending ++ [.event (.deviceInfo info)] })
  | .emitLog log => ((), { u with pending := u.pending ++ [.log log] })
  | .thread i answer =>
    match u.threads[i]? with
    | some ⟨loaded, .ask op next, asked⟩ =>
      ((), { u with
        threads := u.threads.set i ⟨loaded, next (answer op), asked ++ [⟨op, answer op⟩]⟩
        pending := u.pending ++ emitted op })
    | _ => ((), u)
  | .deliver =>
    match u.pending with
    | [] => ((), u)
    | e :: pending => ((), { u with ota := u.ota.listen e, pending := pending })

/-- What the window shows once the pending events are delivered. -/
def settled (u : Desk) : OtaState := u.pending.foldl OtaState.listen u.ota

end Desk

/-! ## What a thread announced -/

/-- The stage of an event. -/
def Emitted.stage? : Emitted → Option UpgradeStage
  | .event (.progress stage ..) => some stage
  | .event (.stageChanged stage) => some stage
  | _ => none

/-- The bytes sent and the total of an event. -/
def Emitted.progress? : Emitted → Option (Nat × Nat)
  | .event (.progress _ _ bytesSent totalBytes) => some (bytesSent, totalBytes)
  | _ => none

/-- The stage announced last. -/
def lastStage (t : List (Asked Op Op.Answer)) : Option UpgradeStage :=
  ((t.flatMap fun a => Desk.emitted a.op).filterMap Emitted.stage?).getLast?

/-- A thread reported so many bytes of its file, those passed until then. The sizes of a larger file
do not fit the requests. -/
def Spawned.Reported (t : Spawned) (sent total : Nat) : Prop :=
  ∃ fwData before stage message after, t.loaded = .ok fwData ∧
    t.asked = before ++ ⟨.emit (.progress stage message sent total), ()⟩ :: after ∧
    (fwData.length < 2 ^ 32 → sent = passed before ∧ total = fwData.length)

/-- What the window shows comes from the threads. -/
structure Desk.Shows (u : Desk) : Prop where
  stage : u.settled.isBusy = true →
    ∃ t ∈ u.threads, t.running = true ∧ lastStage t.asked = some u.settled.stage
  progress : u.settled.sent = 0 ∧ u.settled.total = 0 ∨
    ∃ t ∈ u.threads, t.Reported u.settled.sent u.settled.total
  logs : u.ota.logs.length ≤ 501

variable {t : List (Asked Op Op.Answer)} {a : Asked Op Op.Answer} {config : OtaConfig}
  {crc32fastHash : List UInt8 → UInt32} {u : Desk}

theorem lastStage_snoc : lastStage (t ++ [a]) =
    (((Desk.emitted a.op).filterMap Emitted.stage?).getLast?).or (lastStage t) := by
  simp [lastStage, List.flatMap_append, List.filterMap_append, List.getLast?_append]

/-! ## A thread ends with a terminal stage -/

/-- The stage announced last is terminal. -/
def EndsTerminal (t : List (Asked Op Op.Answer)) : Prop :=
  ∃ stage, lastStage t = some stage ∧ stage.terminal = true

/-- Wherever it begins, a part that ends has announced such a stage. -/
def Closing {α : Type} (p : Engine α) : Prop :=
  Triple (monitor snoc) (fun _ _ => True) (fun _ => True) p fun _ => EndsTerminal

/-- Only the last part counts. -/
theorem closing_bind {α β : Type} {p : Engine α} {f : α → Engine β} (hf : ∀ a, Closing (f a)) :
    Closing (p >>= f) := by
  refine Triple.bind (Q := fun _ _ => True) (fun t _ => ?_) hf
  exact wp_of_forall (fun _ _ => trivial) fun _ _ => trivial

theorem closing_emitStage {stage : UpgradeStage} (hs : stage.terminal = true) :
    Closing (emitStage stage) :=
  fun _ _ _ => ⟨stage, lastStage_snoc, hs⟩

theorem closing_emitError (message : String) : Closing (emitError message) :=
  fun _ _ _ _ => ⟨.error, lastStage_snoc.trans lastStage_snoc, rfl⟩

theorem closing_doUpgrade (loaded : Except String (List UInt8)) :
    Closing (doUpgrade crc32fastHash loaded config) := by
  refine closing_bind fun _ => ?_
  repeat refine closing_bind fun _ => ?_
  exact closing_emitStage rfl

theorem closing_upgradeThread (loaded : Except String (List UInt8)) :
    Closing (upgradeThread crc32fastHash loaded config) := by
  refine upgradeThread_triple (F := fun _ _ => True) (J := fun _ _ => True)
    (closing_doUpgrade loaded) (fun _ _ => trivial) (fun _ _ _ => ?_) closing_emitError
  exact wp_of_forall (fun _ _ => trivial) fun _ _ => trivial

/-- A thread that may make an attempt does not panic. -/
theorem wp_upgradeThread_total (hn : 0 < config.maxRetries)
    (loaded : Except String (List UInt8)) :
    wp (monitor snoc) (fun _ _ => True) (fun _ _ => False)
      (upgradeThread crc32fastHash loaded config) [] := by
  cases loaded with
  | error e => exact fun _ _ _ _ _ => trivial
  | ok fwData =>
    have hwatch := wp_upgradeThread_watch crc32fastHash hn fwData
    exact wp_imp (wp_snoc_of_wp (t := []) hwatch) (fun _ _ _ => trivial) fun _ _ h => h

/-- A file that cannot be read brings no progress. -/
theorem asks_unreadable (e : String) :
    Asks Op.Calm (upgradeThread crc32fastHash (.error e) config) := by
  have hlog : cmdGetLog ≠ cmdTransferData := by decide
  exact ⟨trivial, fun _ => ⟨trivial, fun _ => ⟨hlog, fun _ => ⟨trivial, fun _ => ⟨trivial,
    fun _ => trivial⟩⟩⟩⟩⟩

/-- What is known of a thread, wherever it is. -/
structure Spawned.Sound (t : Spawned) : Prop where
  ends : wp (monitor snoc) (fun _ => EndsTerminal) (fun _ _ => False) t.left t.asked
  calm : ∀ e, t.loaded = .error e → Asks Op.Calm t.left
  truthful : ∀ fwData, t.loaded = .ok fwData → fwData.length < 2 ^ 32 →
    wp (monitor snoc) (fun _ => Truthful fwData.length) (fun _ => Truthful fwData.length) t.left
      t.asked

theorem sound_spawn (crc32fastHash : List UInt8 → UInt32)
    (loaded : Except String (List UInt8)) : (Desk.spawn crc32fastHash loaded).Sound where
  ends := by
    refine wp_imp (wp_and monitor_and (closing_upgradeThread loaded [] trivial)
      (wp_upgradeThread_total (by decide) loaded)) ?_ ?_
    · exact fun _ _ h => h.1
    · exact fun _ _ h => h.2
  calm := by
    rintro e rfl
    exact asks_unreadable e
  truthful := by
    rintro fwData rfl hlen
    exact wp_imp (wp_upgradeThread_progress crc32fastHash hlen) (fun _ _ h => h.1) fun _ _ h => h

section

variable {loaded : Except String (List UInt8)} {op : Op} {next : op.Answer → UpgradeThread}

theorem Spawned.Sound.step (h : (⟨loaded, .ask op next, t⟩ : Spawned).Sound) (x : op.Answer) :
    (⟨loaded, next x, t ++ [⟨op, x⟩]⟩ : Spawned).Sound where
  ends := h.ends x
  calm e he := (h.calm e he).2 x
  truthful fwData hf hlen := h.truthful fwData hf hlen x

/-- A thread that has ended announced a terminal stage last. -/
theorem Spawned.Sound.endsTerminal {t : Spawned} (h : t.Sound) (hr : t.running = false) :
    EndsTerminal t.asked := by
  obtain ⟨loaded, left, asked⟩ := t
  cases left with
  | done r => exact h.ends
  | fail e => exact h.ends.elim
  | ask op next => cases hr

/-- The progress event that a thread emits next is right. -/
theorem Spawned.Sound.reports {stage : UpgradeStage} {msg : String} {sent total : Nat}
    {next : (Op.emit (.progress stage msg sent total)).Answer → UpgradeThread}
    (h : (⟨loaded, .ask (.emit (.progress stage msg sent total)) next, t⟩ : Spawned).Sound) :
    ∃ fwData, loaded = .ok fwData ∧ (fwData.length < 2 ^ 32 →
      sent = passed t ∧ total = fwData.length) := by
  cases loaded with
  | error e => exact (h.calm e rfl).1.elim
  | ok fwData =>
    refine ⟨fwData, rfl, fun hlen => ?_⟩
    obtain ⟨after, htruthful⟩ := exists_of_wp_snoc (h.truthful fwData rfl hlen ())
    rw [snoc, List.append_assoc] at htruthful
    obtain ⟨-, hsent, -, htotal⟩ := htruthful.each _ _ _ rfl
    exact ⟨hsent, htotal⟩

end

/-! ## What the window makes of the events -/

theorem logs_addLog {s : OtaState} (h : s.logs.length ≤ 501) (log : OtaLog) :
    (s.addLog log).logs.length ≤ 501 := by
  simp only [OtaState.addLog, List.length_append, List.length_drop, List.length_singleton]
  omega

theorem logs_listen {s : OtaState} (h : s.logs.length ≤ 501) (e : Emitted) :
    (s.listen e).logs.length ≤ 501 := by
  cases e with
  | event event =>
    cases event with
    | error message => exact logs_addLog (s := { s with error := _ }) h _
    | _ => exact h
  | log log => exact logs_addLog h log

/-- A part of a state that some events overwrite and the others leave alone. -/
theorem foldl_last {σ ε β : Type} {f : σ → ε → σ} (get : σ → β) {part : ε → Option β}
    (h : ∀ s e, get (f s e) = (part e).getD (get s)) (events : List ε) (s : σ) :
    get (events.foldl f s) = ((events.filterMap part).getLast?).getD (get s) := by
  induction events using List.reverseRecOn with
  | nil => rfl
  | append_singleton events e ih =>
    rw [List.foldl_append, List.foldl_cons, List.foldl_nil, h, ih, List.filterMap_append]
    cases he : part e <;> simp [he]

theorem stage_listen (s : OtaState) (e : Emitted) :
    (s.listen e).stage = e.stage?.getD s.stage := by
  cases e with
  | event event =>
    cases event <;> simp only [OtaState.listen, OtaState.addLog, Emitted.stage?, Option.getD_none,
      Option.getD_some]
  | log log => simp only [OtaState.listen, OtaState.addLog, Emitted.stage?, Option.getD_none]

theorem progress_listen (s : OtaState) (e : Emitted) :
    ((s.listen e).sent, (s.listen e).total) = e.progress?.getD (s.sent, s.total) := by
  cases e with
  | event event =>
    cases event <;> simp only [OtaState.listen, OtaState.addLog, Emitted.progress?,
      Option.getD_none, Option.getD_some]
  | log log => simp only [OtaState.listen, OtaState.addLog, Emitted.progress?, Option.getD_none]

/-- The stage shown in the end is that of the last event that has one. -/
theorem stage_settled (u : Desk) : u.settled.stage =
    ((u.pending.filterMap Emitted.stage?).getLast?).getD u.ota.stage :=
  foldl_last OtaState.stage stage_listen u.pending u.ota

theorem progress_settled (u : Desk) : (u.settled.sent, u.settled.total) =
    ((u.pending.filterMap Emitted.progress?).getLast?).getD (u.ota.sent, u.ota.total) :=
  foldl_last (fun s => (s.sent, s.total)) progress_listen u.pending u.ota

/-! ## The invariant -/

structure DeskInv (u : Desk) : Prop where
  sound : ∀ t ∈ u.threads, t.Sound
  stage : u.settled.isBusy = true → ∃ t ∈ u.threads, lastStage t.asked = some u.settled.stage
  progress : u.settled.sent = 0 ∧ u.settled.total = 0 ∨
    ∃ t ∈ u.threads, t.Reported u.settled.sent u.settled.total
  logs : u.ota.logs.length ≤ 501

theorem isBusy_congr {s s' : OtaState} (h : s.stage = s'.stage) : s.isBusy = s'.isBusy := by
  simp only [OtaState.isBusy, h]

theorem deskInv_init : DeskInv Desk.init where
  sound t ht := by cases ht
  stage h := by cases h
  progress := Or.inl ⟨rfl, rfl⟩
  logs := Nat.zero_le _

/-- A step that changes nothing of what the threads announced or of what is shown of it. -/
theorem DeskInv.same {u' : Desk} (h : DeskInv u) (ht : u'.threads = u.threads)
    (hs : u'.settled.stage = u.settled.stage)
    (hp : (u'.settled.sent, u'.settled.total) = (u.settled.sent, u.settled.total))
    (hl : u'.ota.logs.length ≤ 501) : DeskInv u' where
  sound := ht ▸ h.sound
  stage := by
    rw [isBusy_congr hs, hs, ht]
    exact h.stage
  progress := by
    obtain ⟨hsent, htotal⟩ := Prod.mk.inj hp
    rw [hsent, htotal, ht]
    exact h.progress
  logs := hl

/-- A step of the frontend that touches other parts of its state. -/
theorem DeskInv.frontend {u' : Desk} (h : DeskInv u) (ht : u'.threads = u.threads)
    (hpending : u'.pending = u.pending) (hs : u'.ota.stage = u.ota.stage)
    (hp : (u'.ota.sent, u'.ota.total) = (u.ota.sent, u.ota.total))
    (hl : u'.ota.logs.length ≤ 501) : DeskInv u' := by
  refine h.same ht ?_ ?_ hl
  · rw [stage_settled, stage_settled, hpending, hs]
  · rw [progress_settled, progress_settled, hpending, hp]

theorem DeskInv.addLog (h : DeskInv u) (log : OtaLog) :
    DeskInv { u with ota := u.ota.addLog log } := by
  refine h.frontend rfl rfl ?_ ?_ (logs_addLog h.logs log) <;> simp only [OtaState.addLog]

/-- The error shown is no part of it. -/
theorem DeskInv.setError (h : DeskInv u) (error : Option String) :
    DeskInv { u with ota := { u.ota with error := error } } :=
  h.frontend rfl rfl rfl rfl h.logs

/-- An event that has neither a stage nor progress becomes pending. -/
theorem DeskInv.emit (h : DeskInv u) {e : Emitted} (hs : e.stage? = none)
    (hp : e.progress? = none) : DeskInv { u with pending := u.pending ++ [e] } := by
  refine h.same rfl ?_ ?_ h.logs
  · rw [stage_settled, stage_settled, List.filterMap_append, List.filterMap_cons_none hs,
      List.filterMap_nil, List.append_nil]
  · rw [progress_settled, progress_settled, List.filterMap_append, List.filterMap_cons_none hp,
      List.filterMap_nil, List.append_nil]

/-- The state is cleared; what is still pending will overwrite it. -/
theorem deskInv_disconnect (h : DeskInv u) (n : Nat) :
    DeskInv { u with ota := u.ota.resetState, disconnecting := n } where
  sound := h.sound
  stage := by
    have hstage := stage_settled { u with ota := u.ota.resetState, disconnecting := n }
    intro hbusy
    cases hlast : (u.pending.filterMap Emitted.stage?).getLast? with
    | none =>
      rw [hlast] at hstage
      rw [OtaState.isBusy, hstage] at hbusy
      cases hbusy
    | some stage =>
      have hsame := stage_settled u
      rw [hlast] at hstage hsame
      have heq := hstage.trans hsame.symm
      rw [heq]
      rw [isBusy_congr heq] at hbusy
      exact h.stage hbusy
  progress := by
    have hshown := progress_settled { u with ota := u.ota.resetState, disconnecting := n }
    cases hlast : (u.pending.filterMap Emitted.progress?).getLast? with
    | none =>
      rw [hlast] at hshown
      exact Or.inl (Prod.mk.inj hshown)
    | some p =>
      have hsame := progress_settled u
      rw [hlast] at hshown hsame
      obtain ⟨hsent, htotal⟩ := Prod.mk.inj (hshown.trans hsame.symm)
      rw [hsent, htotal]
      exact h.progress
  logs := Nat.zero_le _

theorem deskInv_spawn (h : DeskInv u) (starting : List String)
    (loaded : Except String (List UInt8)) : DeskInv { u with
      starting := starting
      threads := u.threads ++ [Desk.spawn crc32fastHash loaded] } where
  sound t ht := by
    rcases List.mem_append.1 ht with ht | ht
    · exact h.sound t ht
    · obtain rfl := List.mem_singleton.1 ht
      exact sound_spawn crc32fastHash loaded
  stage hbusy := by
    obtain ⟨t, ht, hstage⟩ := h.stage hbusy
    exact ⟨t, List.mem_append_left _ ht, hstage⟩
  progress := by
    refine h.progress.imp id ?_
    rintro ⟨t, ht, hreported⟩
    exact ⟨t, List.mem_append_left _ ht, hreported⟩
  logs := h.logs

/-- What holds of some thread holds of some thread still, after one of them has gone on. -/
theorem exists_mem_set {threads : List Spawned} {i : Nat} {t t' : Spawned}
    {P : Spawned → Prop} (hi : threads[i]? = some t) (hP : ∃ t ∈ threads, P t)
    (hstep : P t → P t') : ∃ s ∈ threads.set i t', P s := by
  obtain ⟨s, hs, hPs⟩ := hP
  obtain ⟨j, hj⟩ := List.mem_iff_getElem?.1 hs
  by_cases hij : i = j
  · subst hij
    obtain rfl := Option.some.inj (hi.symm.trans hj)
    exact ⟨t', List.mem_set (List.getElem?_eq_some_iff.1 hi).1 t', hstep hPs⟩
  · refine ⟨s, List.mem_of_getElem? (i := j) ?_, hPs⟩
    rw [List.getElem?_set_ne hij, hj]

section

variable {i : Nat} {loaded : Except String (List UInt8)} {op : Op}
  {next : op.Answer → UpgradeThread} {left : UpgradeThread}

theorem mem_set_self {t' : Spawned} (ht : u.threads[i]? = some ⟨loaded, left, t⟩) :
    t' ∈ u.threads.set i t' :=
  List.mem_set (List.getElem?_eq_some_iff.1 ht).1 _

/-- The stage shown, after a call. -/
theorem stage_thread (h : DeskInv u) (ht : u.threads[i]? = some ⟨loaded, .ask op next, t⟩)
    (x : op.Answer) {u' : Desk} (hpending : u'.pending = u.pending ++ Desk.emitted op)
    (hota : u'.ota = u.ota)
    (hthreads : u'.threads = u.threads.set i ⟨loaded, next x, t ++ [⟨op, x⟩]⟩)
    (hbusy : u'.settled.isBusy = true) :
    ∃ s ∈ u'.threads, lastStage s.asked = some u'.settled.stage := by
  have hnow := stage_settled u'
  rw [hpending, hota, List.filterMap_append, List.getLast?_append] at hnow
  cases hlast : ((Desk.emitted op).filterMap Emitted.stage?).getLast? with
  | none =>
    rw [hlast, Option.none_or, ← stage_settled u] at hnow
    rw [isBusy_congr hnow] at hbusy
    rw [hnow, hthreads]
    refine exists_mem_set ht (h.stage hbusy) fun hstage => ?_
    rw [lastStage_snoc, hlast]
    exact hstage
  | some stage =>
    rw [hlast] at hnow
    rw [hthreads]
    refine ⟨_, mem_set_self ht, ?_⟩
    rw [lastStage_snoc, hlast, hnow]
    rfl

/-- The progress shown, after a call. -/
theorem progress_thread (h : DeskInv u) (ht : u.threads[i]? = some ⟨loaded, .ask op next, t⟩)
    (x : op.Answer) {u' : Desk} (hpending : u'.pending = u.pending ++ Desk.emitted op)
    (hota : u'.ota = u.ota)
    (hthreads : u'.threads = u.threads.set i ⟨loaded, next x, t ++ [⟨op, x⟩]⟩) :
    u'.settled.sent = 0 ∧ u'.settled.total = 0 ∨
      ∃ s ∈ u'.threads, s.Reported u'.settled.sent u'.settled.total := by
  have hnow := progress_settled u'
  rw [hpending, hota, List.filterMap_append, List.getLast?_append] at hnow
  by_cases hnone : (Desk.emitted op).filterMap Emitted.progress? = []
  · rw [hnone, List.getLast?_nil, Option.none_or, ← progress_settled u] at hnow
    obtain ⟨hsent, htotal⟩ := Prod.mk.inj hnow
    rw [hsent, htotal, hthreads]
    refine h.progress.imp id fun hex => exists_mem_set ht hex ?_
    rintro ⟨fwData, before, stage, message, after, hfw, hasked, hright⟩
    refine ⟨fwData, before, stage, message, after ++ [⟨op, x⟩], hfw, ?_, hright⟩
    change t ++ [⟨op, x⟩] = _
    rw [show t = _ from hasked, List.append_assoc, List.cons_append]
  · have hsound := h.sound _ (List.mem_of_getElem? ht)
    cases op with
    | emit event =>
      cases event with
      | progress stage msg sent total =>
        obtain ⟨hsent, htotal⟩ := Prod.mk.inj hnow
        obtain ⟨fwData, hfw, heq⟩ := hsound.reports
        rw [hsent, htotal, hthreads]
        exact Or.inr ⟨_, mem_set_self ht, fwData, t, stage, msg, [], hfw, rfl, heq⟩
      | _ => exact absurd rfl hnone
    | _ => exact absurd rfl hnone

theorem deskInv_thread (h : DeskInv u) (ht : u.threads[i]? = some ⟨loaded, .ask op next, t⟩)
    (x : op.Answer) : DeskInv { u with
      threads := u.threads.set i ⟨loaded, next x, t ++ [⟨op, x⟩]⟩
      pending := u.pending ++ Desk.emitted op } where
  sound s hs := by
    rcases List.mem_or_eq_of_mem_set hs with hs | rfl
    · exact h.sound s hs
    · exact (h.sound _ (List.mem_of_getElem? ht)).step x
  stage := stage_thread h ht x rfl rfl rfl
  progress := progress_thread h ht x rfl rfl rfl
  logs := h.logs

end

theorem deskInv_step (h : DeskInv u) (e : DeskEvent) :
    DeskInv (u.step crc32fastHash e).2 := by
  cases e with
  | connect opened =>
    rw [Desk.step]
    split
    · exact h
    · exact h.frontend rfl rfl rfl rfl h.logs
  | disconnect =>
    rw [Desk.step]
    split
    · exact deskInv_disconnect h _
    · exact h
  | disconnected =>
    cases hn : u.disconnecting with
    | zero =>
      simp only [Desk.step, hn]
      exact h
    | succ n =>
      simp only [Desk.step, hn]
      exact h.frontend rfl rfl rfl rfl h.logs
  | firmwareSelected path name =>
    have hlog := h.addLog ⟨"info", s!"已选择固件: {name}"⟩
    exact hlog.frontend rfl rfl rfl rfl hlog.logs
  | startUpgrade =>
    rw [Desk.step]
    split
    · have hlog := (h.setError none).addLog ⟨"info", s!"开始升级: {u.firmwarePath}"⟩
      exact hlog.frontend rfl rfl rfl rfl hlog.logs
    · exact h
  | runUpgrade loaded =>
    cases hstarting : u.starting with
    | nil =>
      simp only [Desk.step, hstarting]
      exact h
    | cons path starting =>
      simp only [Desk.step, hstarting]
      split
      · exact deskInv_spawn h starting loaded
      · have hlog := (h.addLog ⟨"error", s!"升级启动失败: {Desk.notConnected}"⟩).setError
          Desk.notConnected
        exact hlog.frontend rfl rfl rfl rfl hlog.logs
  | cancelUpgrade =>
    rw [Desk.step]
    split
    · exact h.addLog _
    · exact h
  | clearLogs => exact h.frontend rfl rfl rfl rfl (Nat.zero_le _)
  | addLog log => exact h.addLog log
  | deviceInfo info => exact h.emit rfl rfl
  | emitLog log => exact h.emit rfl rfl
  | thread i answer =>
    rcases hi : u.threads[i]? with - | ⟨loaded, left, asked⟩
    · simp only [Desk.step, hi]
      exact h
    · cases left with
      | ask op next =>
        simp only [Desk.step, hi]
        exact deskInv_thread h hi (answer op)
      | done r =>
        simp only [Desk.step, hi]
        exact h
      | fail e =>
        simp only [Desk.step, hi]
        exact h
  | deliver =>
    cases hpending : u.pending with
    | nil =>
      simp only [Desk.step, hpending]
      exact h
    | cons e pending =>
      have hsettled : u.settled = pending.foldl OtaState.listen (u.ota.listen e) := by
        rw [Desk.settled, hpending, List.foldl_cons]
      simp only [Desk.step, hpending]
      refine h.same rfl ?_ ?_ (logs_listen h.logs e) <;> rw [hsettled] <;> rfl

/-- **The window is truthful**, in every reachable state. -/
theorem screen_truthful (crc32fastHash : List UInt8 → UInt32)
    {steps : List (Step Desk DeskEvent Unit)} {u : Desk}
    (hr : Run (Desk.step crc32fastHash) .init steps u) : u.Shows := by
  have hinv : DeskInv u := hr.invariant (P := fun _ u => DeskInv u) deskInv_init
    fun _ _ e _ hi => deskInv_step hi e
  refine ⟨fun hbusy => ?_, hinv.progress, hinv.logs⟩
  obtain ⟨t, ht, hstage⟩ := hinv.stage hbusy
  refine ⟨t, ht, ?_, hstage⟩
  by_contra hrun
  obtain ⟨stage, hlast, hterminal⟩ :=
    (hinv.sound t ht).endsTerminal (Bool.not_eq_true _ ▸ hrun)
  obtain rfl := Option.some.inj (hlast.symm.trans hstage)
  revert hterminal hbusy
  rw [OtaState.isBusy]
  cases u.settled.stage <;> decide

/-- A file is chosen, the upgrade started, and its thread has announced the handshake. -/
def handshaking : List DeskEvent :=
  [.connect true, .firmwareSelected "fw.bin" "fw.bin", .startUpgrade, .runUpgrade (.ok [0xAA]),
    .thread 0 fun op => (silentLink () op).1]

/-- It shows, and the thread is running. -/
theorem screen_truthful_handshake :
    ∃ t ∈ (exec (Desk.step Crc32.hash) .init handshaking).2.threads,
      t.running = true ∧ lastStage t.asked = some .handshaking :=
  (screen_truthful Crc32.hash (run_exec (Desk.step Crc32.hash) .init handshaking)).stage
    (by decide +kernel)

end ZephyrStm32.Ota.Pc
