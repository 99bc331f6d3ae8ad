import ZephyrStm32.Lib.Crc32
import ZephyrStm32.Ota.Pc.Cancel

/-!
# How an upgrade thread reports its end

`run_upgrade` reports every failure of `do_upgrade`, which has reported some of them itself, and it
reports a cancelled upgrade as a failure. The monitor `watch` keeps the stages announced, the error
messages and the answers behind which an end is reported wrongly.

**Theorem (`ends_once_iff`).** A thread ends with the right stage, announced once, exactly when no
such answer came, the firmware could be read and an attempt was allowed.
-/

namespace ZephyrStm32.Ota.Pc

open Interact
open Engine

/-! ## The stages of a transcript -/

/-- An upgrade is over. -/
def UpgradeStage.terminal : UpgradeStage → Bool
  | .complete | .cancelled | .error => true
  | _ => false

/-- The stage a call announces. -/
def announced : Asked Op Op.Answer → Option UpgradeStage
  | ⟨.emit (.stageChanged stage), _⟩ => some stage
  | _ => none

def stages (t : List (Asked Op Op.Answer)) : List UpgradeStage := t.filterMap announced

def isErrorMessage : Asked Op Op.Answer → Bool
  | ⟨.emit (.error _), _⟩ => true
  | _ => false

/-- One terminal stage, the last: Complete if `do_upgrade` returned `Ok`, Cancelled if a load found
the flag set, Error otherwise, with one message. -/
def EndsOnce (r : Except Failure (Except String Unit)) (t : List (Asked Op Op.Answer)) : Prop :=
  ∃ before last, stages t = before ++ [last] ∧ last.terminal = true ∧
    (∀ stage ∈ before, stage.terminal = false) ∧
    (last = .complete ↔ r = .ok (.ok ())) ∧ (last = .cancelled ↔ t.any foundSet = true) ∧
    (last = .error → t.countP isErrorMessage = 1)

/-! ## The answers behind which the end is reported wrongly -/

/-- The responses on which `do_upgrade` reports the error itself. -/
def selfReported (fwSize : UInt32) (command : UInt16) (resp : Frame) : Bool :=
  !resp.isErrorResponse &&
    ((command == cmdGetDeviceInfo && (parseDeviceInfo resp).any (fwSize > ·.flashTotalSize)) ||
      (command == cmdVerifyFirmware && (parseVerifyResponse resp).any (·.1 != 0x00)))

/-- The count of attempts in a row that brought no response, after another one. It is `none` once
`maxRetries` of them have failed or the response is one of these. -/
def spoilReply (maxRetries : Nat) (fwSize : UInt32) (failed : Nat) (frame : Frame) :
    Except String Frame → Option Nat
  | .error _ =>
    if frame.command = cmdGetLog then some failed
    else if failed + 1 = maxRetries then none else some (failed + 1)
  | .ok resp =>
    if frame.command = cmdGetLog then some failed
    else if selfReported fwSize frame.command resp then none else some 0

/-- A monitor of the answers: also a load that finds the flag set spoils the end. -/
def spoil (maxRetries : Nat) (fwSize : UInt32) : Option Nat → Asked Op Op.Answer → Option Nat
  | none, _ => none
  | some failed, ⟨.isCancelled, cancelled⟩ => bif cancelled then none else some failed
  | some failed, ⟨.sendAndRecv frame _, x⟩ => spoilReply maxRetries fwSize failed frame x
  | some failed, _ => some failed

/-- The firmware cannot be read, no attempt is allowed, or an answer spoils the end. -/
def Spoiled (config : OtaConfig) : Except String (List UInt8) → List (Asked Op Op.Answer) → Prop
  | .error _, _ => True
  | .ok fwData, t => config.maxRetries = 0 ∨
    t.foldl (spoil config.maxRetries (UInt32.ofNat fwData.length)) (some 0) = none

/-! ## All of it in one monitor -/

/-- The stages announced, the latest first, the number of error messages, whether a load found the
flag set, and the state of `spoil`. -/
structure Watch where
  stages : List UpgradeStage
  errors : Nat
  cancelled : Bool
  attempts : Option Nat

def watch (maxRetries : Nat) (fwSize : UInt32) (w : Watch) (a : Asked Op Op.Answer) : Watch where
  stages := (announced a).toList ++ w.stages
  errors := if isErrorMessage a then w.errors + 1 else w.errors
  cancelled := w.cancelled || foundSet a
  attempts := spoil maxRetries fwSize w.attempts a

def Watch.init : Watch := ⟨[], 0, false, some 0⟩

/-- No end was reported, and no load found the flag set. -/
structure Watch.Open (w : Watch) : Prop where
  stages : ∀ stage ∈ w.stages, stage.terminal = false
  errors : w.errors = 0
  cancelled : w.cancelled = false

/-- An end will be reported wrongly: it should be Cancelled, or it has been reported already. -/
structure Watch.Lost (w : Watch) : Prop where
  attempts : w.attempts = none
  ended : w.cancelled = true ∨ ∃ stage ∈ w.stages, stage.terminal = true

/-- A part of `do_upgrade` fails with `Err`, before or after an answer that spoils the end. -/
def Watch.Failed (e : Failure) (w : Watch) : Prop :=
  (∃ msg, e = .err msg) ∧ (w.Open ∧ w.attempts ≠ none ∨ w.Lost)

/-- No end was reported, and the count of attempts is `v`. -/
def Watch.At (v : Option Nat) (w : Watch) : Prop := w.Open ∧ w.attempts = v

/-- The triples of the monitor. -/
def Watched {α : Type} (config : OtaConfig) (fwSize : UInt32) (P : Watch → Prop) (p : Engine α)
    (Q : α → Watch → Prop) : Prop :=
  Triple (monitor (watch config.maxRetries fwSize)) Watch.Failed P p Q

variable {config : OtaConfig} {fwSize fwCrc : UInt32} {n : Nat} {w : Watch} {α : Type}
  {frame resp : Frame} {label : String} {v : Option Nat}

/-- The monitor keeps what the transcript shows. -/
theorem foldl_watch (t : List (Asked Op Op.Answer)) (w : Watch) :
    t.foldl (watch n fwSize) w =
      ⟨(stages t).reverse ++ w.stages, w.errors + t.countP isErrorMessage,
        w.cancelled || t.any foundSet, t.foldl (spoil n fwSize) w.attempts⟩ := by
  induction t generalizing w with
  | nil => simp [stages]
  | cons a t ih =>
    rw [List.foldl_cons, ih]
    simp only [watch, stages, List.filterMap_cons, List.countP_cons, List.any_cons,
      List.foldl_cons, Bool.or_assoc]
    congr 1
    · cases announced a <;> simp
    · split <;> omega

/-! ## One call -/

/-- A call that none of the monitor's fields looks at. -/
theorem watch_unseen {a : Asked Op Op.Answer} (hstage : announced a = none)
    (herror : isErrorMessage a = false) (hset : foundSet a = false)
    (hspoil : ∀ failed, spoil n fwSize (some failed) a = some failed) : watch n fwSize w a = w := by
  have hattempts : spoil n fwSize w.attempts a = w.attempts := by
    cases w.attempts with
    | none => rfl
    | some failed => exact hspoil failed
  simp [watch, hstage, herror, hset, hattempts]

/-- An event spoils nothing. -/
theorem watch_emit_attempts (event : OtaEvent) :
    (watch n fwSize w ⟨.emit event, ()⟩).attempts = w.attempts := by
  change spoil n fwSize w.attempts _ = w.attempts
  cases w.attempts <;> rfl

theorem Watch.Open.stage (h : w.Open) {stage : UpgradeStage} (hs : stage.terminal = false) :
    (watch n fwSize w ⟨.emit (.stageChanged stage), ()⟩).Open where
  stages := List.forall_mem_cons.2 ⟨hs, h.stages⟩
  errors := h.errors
  cancelled := (Bool.or_false _).trans h.cancelled

/-- A request that is answered or not. -/
theorem Watch.Open.reply (h : w.Open) {failed : Nat} (ha : w.attempts = some failed)
    (n timeoutMs : Nat) (fwSize : UInt32) (frame : Frame) (x : Except String Frame) :
    (watch n fwSize w ⟨.sendAndRecv frame timeoutMs, x⟩).Open ∧
      (watch n fwSize w ⟨.sendAndRecv frame timeoutMs, x⟩).attempts =
        spoilReply n fwSize failed frame x := by
  refine ⟨⟨h.stages, h.errors, (Bool.or_false _).trans h.cancelled⟩, ?_⟩
  change spoil n fwSize w.attempts _ = _
  rw [ha]
  rfl

theorem lost_of_load : (watch n fwSize w ⟨.isCancelled, true⟩).Lost where
  attempts := by
    change spoil n fwSize w.attempts _ = none
    cases w.attempts <;> rfl
  ended := Or.inl (Bool.or_true _)

/-- An error reported after an answer that spoils the end. -/
theorem lost_of_error (h : w.attempts = none) (msg : String) :
    (watch n fwSize (watch n fwSize w ⟨.emit (.stageChanged .error), ()⟩)
      ⟨.emit (.error msg), ()⟩).Lost where
  attempts := by rw [watch_emit_attempts, watch_emit_attempts, h]
  ended := Or.inr ⟨.error, List.mem_cons_self, rfl⟩

theorem Watch.Lost.watch (h : w.Lost) (a : Asked Op Op.Answer) :
    (watch n fwSize w a).Lost where
  attempts := by
    change spoil n fwSize w.attempts a = none
    rw [h.attempts]
    rfl
  ended := by
    refine h.ended.imp (fun hc => ?_) fun ⟨stage, hmem, hs⟩ => ?_
    · change (w.cancelled || foundSet a) = true
      rw [hc, Bool.true_or]
    · exact ⟨stage, List.mem_append_right _ hmem, hs⟩

/-! ## The parts of `do_upgrade` -/

theorem failed_open (h : w.Open) (ha : w.attempts ≠ none) (msg : String) :
    Watch.Failed (.err msg) w := ⟨⟨msg, rfl⟩, Or.inl ⟨h, ha⟩⟩

theorem Watch.Lost.failed (h : w.Lost) (msg : String) : Watch.Failed (.err msg) w :=
  ⟨⟨msg, rfl⟩, Or.inr h⟩

/-- A call that the monitor does not look at. -/
theorem watched_unseen {P : Watch → Prop} {E : Failure → Watch → Prop} {op : Op}
    (h : ∀ x w, watch n fwSize w ⟨op, x⟩ = w) :
    Triple (monitor (watch n fwSize)) E P (question op : Engine op.Answer) fun _ => P := by
  intro w hw x
  change P (watch n fwSize w ⟨op, x⟩)
  rwa [h x w]

theorem watched_deviceInfo (info : DeviceInfo) :
    Watched config fwSize (·.At v) (emit (.deviceInfo info)) fun _ w => w.At v :=
  watched_unseen fun _ _ => watch_unseen rfl rfl rfl fun _ => rfl

theorem watched_emitProgress (msg : String) (sent total : Nat) :
    Watched config fwSize (·.At v) (emitProgress .transferring msg sent total) fun _ w => w.At v :=
  watched_unseen fun _ _ => watch_unseen rfl rfl rfl fun _ => rfl

/-- Nothing is seen of a poll of the log. -/
theorem watched_pollLogs {P : Watch → Prop} {E : Failure → Watch → Prop} :
    Triple (monitor (watch n fwSize)) E P pollLogs fun _ => P := by
  refine pollLogs_triple (watched_unseen fun x _ => watch_unseen rfl rfl rfl fun failed => ?_)
  cases x <;> rfl

theorem watched_emitStage {stage : UpgradeStage} (hs : stage.terminal = false) :
    Watched config fwSize (·.At v) (emitStage stage) fun _ w => w.At v :=
  fun _ hw _ => ⟨hw.1.stage hs, (watch_emit_attempts _).trans hw.2⟩

/-- A step reports its failure after an answer that spoils the end. -/
theorem watched_emitError (message : String) :
    Watched config fwSize (·.At none) (emitError message)
      fun _ w => Watch.Failed (.err message) w :=
  fun _ hw _ _ => (lost_of_error hw.2 message).failed message

theorem watched_isCancelled :
    Watched config fwSize (·.At v) isCancelled
      fun cancelled w => if cancelled then w.Lost else w.At v := by
  intro w hw cancelled
  cases cancelled with
  | true => exact lost_of_load
  | false =>
    change (watch _ _ w ⟨.isCancelled, false⟩).At v
    rwa [watch_unseen (a := ⟨.isCancelled, false⟩) rfl rfl rfl fun _ => rfl]

theorem watched_failIfCancelled :
    Watched config fwSize (·.At v) failIfCancelled fun _ w => w.At v := by
  refine failIfCancelled_triple (watched_isCancelled.mono ?_)
  intro cancelled w h
  cases cancelled with
  | true => exact h.failed _
  | false => exact h

/-! ## The verdict on a response -/

/-- What a response leaves the count of attempts at. -/
def spoilt (fwSize : UInt32) (command : UInt16) (resp : Frame) : Option Nat :=
  if selfReported fwSize command resp then none else some 0

/-- What it should, from what the step makes of it. -/
def Engine.Settled.spoilt (r : Settled α) : Option Nat :=
  match r.outcome with
  | .reported _ => none
  | _ => some 0

/-- `run_upgrade` alone reports an error response. -/
theorem spoilt_checked {c : UInt16} {r : Settled α}
    (h : resp.isErrorResponse = false → spoilt fwSize c resp = r.spoilt) :
    spoilt fwSize c resp = (checked label resp r).spoilt := by
  rw [checked]
  split
  · rename_i herr
    simp [Pc.spoilt, Settled.spoilt, selfReported, herr]
  · rename_i herr
    exact h (Bool.not_eq_true _ ▸ herr)

/-- Most steps report nothing themselves. -/
theorem spoilt_of_plain {c : UInt16} (hc : c ∉ [cmdGetDeviceInfo, cmdVerifyFirmware]) :
    spoilt fwSize c resp = some 0 := by
  simp only [List.mem_cons, List.not_mem_nil, or_false, not_or] at hc
  simp [spoilt, selfReported, hc]

theorem spoilt_settleAny {c : UInt16} (hc : c ∉ [cmdGetDeviceInfo, cmdVerifyFirmware]) :
    spoilt fwSize c resp = (checked label resp (settleAny resp)).spoilt :=
  spoilt_checked fun _ => spoilt_of_plain hc

theorem spoilt_settleStart : spoilt fwSize cmdStartUpgrade resp =
    (checked label resp (settleStart resp)).spoilt := by
  refine spoilt_checked fun _ => ?_
  rw [spoilt_of_plain (by decide), settleStart]
  rcases parseStartUpgradeResponse resp with - | ⟨status, maxPktSize, eraseProgress⟩
  · rfl
  · by_cases hs : status = 0x00 <;> simp [hs, Settled.spoilt]

theorem spoilt_settleDeviceInfo : spoilt fwSize cmdGetDeviceInfo resp =
    (checked label resp (settleDeviceInfo fwSize resp)).spoilt := by
  refine spoilt_checked fun herr => ?_
  have hv : spoilt fwSize cmdGetDeviceInfo resp =
      if (parseDeviceInfo resp).any (fwSize > ·.flashTotalSize) then none else some 0 := by
    simp [Pc.spoilt, selfReported, herr, cmdGetDeviceInfo, cmdVerifyFirmware]
  rw [hv, settleDeviceInfo]
  cases parseDeviceInfo resp with
  | none => rfl
  | some info => by_cases hbig : info.flashTotalSize < fwSize <;> simp [hbig, Settled.spoilt]

theorem spoilt_settleVerify : spoilt fwSize cmdVerifyFirmware resp =
    (checked label resp (settleVerify fwCrc resp)).spoilt := by
  refine spoilt_checked fun herr => ?_
  have hv : spoilt fwSize cmdVerifyFirmware resp =
      if (parseVerifyResponse resp).any (·.1 != 0x00) then none else some 0 := by
    simp [Pc.spoilt, selfReported, herr, cmdGetDeviceInfo, cmdVerifyFirmware]
  rw [hv, settleVerify]
  rcases parseVerifyResponse resp with - | ⟨result, calcCrc⟩
  · rfl
  · by_cases hr : result = 0x00 <;> simp [hr, settleAny, Settled.spoilt]

/-! ## The steps of `do_upgrade` -/

/-- The failed attempts and those left make `maxRetries`; the last one ends lost. -/
theorem attempts_watch (hlog : frame.command ≠ cmdGetLog) :
    Attempts (monitor (watch config.maxRetries fwSize)) Watch.Failed config frame
      (fun left w => 0 < left ∧ ∃ failed, w.At (some failed) ∧ failed + left = config.maxRetries)
      (fun left w => ∃ failed, w.At (some failed) ∧ failed + left + 1 = config.maxRetries)
      (fun left w => if left = 0 then w.At none
        else ∃ failed, w.At (some failed) ∧ failed + left = config.maxRetries)
      fun resp w => w.At (spoilt fwSize frame.command resp) where
  panic _ h := absurd h.1 (Nat.lt_irrefl 0)
  look left := by
    rintro w ⟨-, failed, hw, hsum⟩
    refine wp_mono (watched_isCancelled w hw) fun cancelled w' h => ?_
    cases cancelled with
    | true => exact h.failed _
    | false => exact ⟨failed, h, hsum⟩
  ask left := by
    rintro w ⟨failed, hw, hsum⟩ x
    obtain ⟨hopen, hattempts⟩ := hw.1.reply hw.2 config.maxRetries config.commandTimeoutMs fwSize
      frame x
    cases x with
    | ok resp =>
      refine ⟨hopen, hattempts.trans ?_⟩
      rw [spoilReply, if_neg hlog, spoilt]
    | error e =>
      rw [spoilReply, if_neg hlog] at hattempts
      change if left = 0 then Watch.At none _ else ∃ failed, Watch.At _ _ ∧ _
      by_cases hleft : left = 0
      · rw [if_pos (by omega)] at hattempts
        rw [if_pos hleft]
        exact ⟨hopen, hattempts⟩
      · rw [if_neg (by omega)] at hattempts
        rw [if_neg hleft]
        exact ⟨failed + 1, ⟨hopen, hattempts⟩, by omega⟩
  again left := by
    intro w h
    refine wp_mono (watched_unseen (P := (· = w)) ?_ w rfl) ?_
    · exact fun _ _ => watch_unseen rfl rfl rfl fun _ => rfl
    · rintro _ _ rfl
      exact ⟨Nat.succ_pos left, h⟩
  last := watched_emitError

theorem watched_sendFrame (hn : 0 < config.maxRetries) (hlog : frame.command ≠ cmdGetLog) :
    Watched config fwSize (·.At (some 0)) (sendFrame frame label config)
      fun resp w => w.At (spoilt fwSize frame.command resp) :=
  fun w hw => (attempts_watch hlog).sendFrame w ⟨hn, 0, hw, Nat.zero_add _⟩

theorem watched_report (r : Settled α) :
    Watched config fwSize (·.At r.spoilt) r.report fun _ w => w.At (some 0) := by
  refine report_triple watched_deviceInfo ?_ ?_ ?_
  · intro a hr w hw
    rwa [Settled.spoilt, hr] at hw
  · intro message hr w hw
    rw [Settled.spoilt, hr] at hw
    exact failed_open hw.1 (by simp [hw.2]) message
  · intro message hr
    rw [Settled.spoilt, hr]
    exact watched_emitError message

/-- A step that spoils the end exactly when it reports a failure. -/
theorem watched_step (hn : 0 < config.maxRetries) {stage : UpgradeStage} {c : UInt16}
    {data : List UInt8} {settle : Frame → Settled α} (hstage : stage.terminal = false)
    (hlog : c ≠ cmdGetLog)
    (hv : ∀ resp, spoilt fwSize c resp = (checked label resp (settle resp)).spoilt) :
    Watched config fwSize (·.At (some 0)) (step stage (plainFrame c data) label config settle)
      fun _ w => w.At (some 0) := by
  refine step_triple (watched_emitStage hstage) (watched_sendFrame hn hlog) fun resp => ?_
  rw [show spoilt fwSize (plainFrame c data).command resp = _ from hv resp]
  exact watched_report _

theorem watched_cancelTransfer :
    Watched config fwSize Watch.Lost cancelTransfer fun _ _ => False :=
  cancelTransfer_triple (B := Watch.Lost) (fun _ hw _ => hw.watch _)
    fun _ hw _ => (hw.watch _).failed _

theorem watched_transferPacket (hn : 0 < config.maxRetries) {total : UInt16} {i : Nat}
    {pkt : FirmwarePacket} (hlen : pkt.data.length ≤ 65531) :
    Watched config fwSize (·.At (some 0)) (transferPacket total fwSize config i pkt)
      fun _ w => w.At (some 0) := by
  have hplain (resp : Frame) : spoilt fwSize (dataFrame total i pkt).command resp = some 0 :=
    spoilt_of_plain (show cmdTransferData ∉ _ by decide)
  refine transferPacket_triple hlen watched_isCancelled watched_cancelTransfer
    (watched_sendFrame hn (show cmdTransferData ≠ cmdGetLog by decide)) ?_ ?_
  · intro resp w _ hw message
    rw [hplain] at hw
    exact failed_open hw.1 (by simp [hw.2]) message
  · intro resp _
    rw [hplain]
    exact watched_emitProgress _ _ _

/-! ## The whole thread -/

/-- The stage announced last is `stage`, the only terminal one, and nothing is lost. -/
structure Watch.Closed (w : Watch) (stage : UpgradeStage) (errors : Nat) : Prop where
  stages : ∃ before, w.stages = stage :: before ∧ ∀ s ∈ before, s.terminal = false
  errors : w.errors = errors
  cancelled : w.cancelled = false
  attempts : w.attempts ≠ none

/-- Error was announced last, of an end that should be Cancelled or had been announced already. -/
structure Watch.Drowned (w : Watch) : Prop where
  stages : ∃ before, w.stages = .error :: before ∧
    (w.cancelled = true ∨ ∃ s ∈ before, s.terminal = true)
  attempts : w.attempts = none

theorem watched_complete : Watched config fwSize (·.At (some 0)) (emitStage .complete)
    fun _ w => w.Closed .complete 0 := by
  intro w hw _
  exact ⟨⟨w.stages, rfl, hw.1.stages⟩, hw.1.errors, (Bool.or_false _).trans hw.1.cancelled,
    ne_of_eq_of_ne ((watch_emit_attempts _).trans hw.2) (Option.some_ne_none 0)⟩

/-- **The flow.** -/
theorem walk_watch (hn : 0 < config.maxRetries) (fwData : List UInt8) (fwCrc : UInt32) :
    Walk (monitor (watch config.maxRetries (UInt32.ofNat fwData.length))) Watch.Failed config fwData
      fwCrc (·.At (some 0)) (fun _ w => w.At (some 0)) fun _ w => w.Closed .complete 0 where
  look _ := watched_failIfCancelled
  handshake := watched_step hn rfl (by decide) fun _ => spoilt_settleAny (by decide)
  getDeviceInfo := watched_step hn rfl (by decide) fun _ => spoilt_settleDeviceInfo
  startUpgrade := watched_step hn rfl (by decide) fun _ => spoilt_settleStart
  transfer _ _ hchunk := transfer_triple (T := fun _ _ w => Watch.At (some 0) w) hchunk
    (watched_emitStage rfl) (fun _ _ _ hlen => watched_transferPacket hn hlen) fun _ _ h => h
  transferComplete := watched_step hn rfl (by decide) fun _ => spoilt_settleAny (by decide)
  verifyFirmware := watched_step hn rfl (by decide) fun _ => spoilt_settleVerify
  setBootFlag := setBootFlag_triple (watched_emitStage rfl) (watched_sendFrame hn (by decide))
    (fun _ => watched_pollLogs) fun resp => by
      rw [show spoilt _ (plainFrame _ _).command resp = _ from spoilt_settleAny (by decide)]
      exact watched_report _
  finish := (watched_step hn rfl (by decide) fun _ => spoilt_settleAny (by decide)).bind
    fun _ => watched_complete

/-- What `run_upgrade` makes of a failure. -/
theorem watched_report_failure {E : Failure → Watch → Prop} (msg : String) :
    Triple (monitor (watch n fwSize)) E (fun w => w.Open ∧ w.attempts ≠ none ∨ w.Lost)
      (emitError msg) fun _ w => w.Closed .error 1 ∨ w.Drowned := by
  rintro w (⟨hw, ha⟩ | hw) _ _
  · refine Or.inl ⟨⟨w.stages, rfl, hw.stages⟩, ?_, ?_, ?_⟩
    · exact congrArg (· + 1) hw.errors
    · exact (Bool.or_false _).trans ((Bool.or_false _).trans hw.cancelled)
    · exact ne_of_eq_of_ne ((watch_emit_attempts _).trans (watch_emit_attempts _)) ha
  · refine Or.inr ⟨⟨w.stages, rfl, hw.ended.imp_left fun hcancelled => ?_⟩, ?_⟩
    · exact (Bool.or_false _).trans ((Bool.or_false _).trans hcancelled)
    · exact ((watch_emit_attempts _).trans (watch_emit_attempts _)).trans hw.attempts

theorem wp_upgradeThread_watch (crc32fastHash : List UInt8 → UInt32) (hn : 0 < config.maxRetries)
    (fwData : List UInt8) :
    wp (monitor (watch config.maxRetries (UInt32.ofNat fwData.length)))
      (fun r w => r = .ok () ∧ w.Closed .complete 0 ∨
        ∃ msg, r = .error msg ∧ (w.Closed .error 1 ∨ w.Drowned))
      (fun _ _ => False) (upgradeThread crc32fastHash (.ok fwData) config) .init := by
  have hinit : Watch.init.At (some 0) := ⟨⟨fun _ h => absurd h List.not_mem_nil, rfl, rfl⟩, rfl⟩
  have hflow := (walk_watch hn fwData (crc32fastHash fwData)).doUpgrade crc32fastHash
  refine upgradeThread_triple (F := Watch.Failed)
    (J := fun _ w => w.Open ∧ w.attempts ≠ none ∨ w.Lost) ?_ ?_ (fun msg => ?_) (fun msg => ?_) _
    hinit
  · exact hflow.mono fun _ _ h => Or.inl ⟨rfl, h⟩
  · rintro w ⟨⟨msg, he⟩, -⟩
    cases he
  · exact fun w hw => watched_pollLogs w hw.2
  · exact (watched_report_failure msg).mono fun _ _ h => Or.inr ⟨msg, rfl, h⟩

/-! ## What the monitor says of the end -/

variable {t : List (Asked Op Op.Answer)} {r : Except Failure (Except String Unit)}

/-- The stages of a transcript whose latest is `last`. -/
theorem stages_of_foldl {last : UpgradeStage} {before : List UpgradeStage}
    (h : (t.foldl (watch n fwSize) .init).stages = last :: before) :
    stages t = before.reverse ++ [last] := by
  rw [foldl_watch] at h
  have h : (stages t).reverse ++ [] = last :: before := h
  rw [List.append_nil] at h
  rw [← List.reverse_cons, ← h, List.reverse_reverse]

theorem cancelled_foldl : (t.foldl (watch n fwSize) .init).cancelled = t.any foundSet := by
  rw [foldl_watch]
  exact Bool.false_or _

theorem errors_foldl :
    (t.foldl (watch n fwSize) .init).errors = t.countP isErrorMessage := by
  rw [foldl_watch]
  exact Nat.zero_add _

theorem attempts_foldl :
    (t.foldl (watch n fwSize) .init).attempts = t.foldl (spoil n fwSize) (some 0) := by
  rw [foldl_watch]
  rfl

theorem Watch.Closed.endsOnce {last : UpgradeStage} {errors : Nat}
    (h : (t.foldl (watch n fwSize) .init).Closed last errors) (hlast : last.terminal = true)
    (hcancelled : last ≠ .cancelled) (hok : last = .complete ↔ r = .ok (.ok ()))
    (herrors : last = .error → errors = 1) : EndsOnce r t := by
  obtain ⟨before, hstages, hbefore⟩ := h.stages
  refine ⟨before.reverse, last, stages_of_foldl hstages, hlast, ?_, hok, ?_, ?_⟩
  · exact fun stage hs => hbefore stage (List.mem_reverse.1 hs)
  · rw [← cancelled_foldl, h.cancelled]
    exact iff_of_false hcancelled Bool.false_ne_true
  · intro he
    rw [← errors_foldl, h.errors]
    exact herrors he

theorem Watch.Drowned.not_endsOnce (h : (t.foldl (watch n fwSize) .init).Drowned) :
    ¬ EndsOnce r t := by
  rintro ⟨before, last, hstages, -, hbefore, -, hcancelled, -⟩
  obtain ⟨before', hstages', hend⟩ := h.stages
  rw [stages_of_foldl hstages'] at hstages
  obtain ⟨rfl, hlast⟩ := List.append_inj' hstages rfl
  obtain rfl : UpgradeStage.error = last := List.singleton_inj.1 hlast
  rcases hend with hc | ⟨stage, hmem, hs⟩
  · rw [cancelled_foldl] at hc
    cases hcancelled.2 hc
  · rw [hbefore stage (List.mem_reverse.2 hmem)] at hs
    cases hs

theorem not_endsOnce_of_stages (before : List UpgradeStage) (last : UpgradeStage)
    (h : stages t = before ++ [last])
    (hend : last.terminal = false ∨ ∃ stage ∈ before, stage.terminal = true) :
    ¬ EndsOnce r t := by
  rintro ⟨before', last', hstages, hlast, hbefore, -⟩
  rw [h] at hstages
  obtain ⟨rfl, he⟩ := List.append_inj' hstages rfl
  obtain rfl := List.singleton_inj.1 he
  rcases hend with hl | ⟨stage, hmem, hs⟩
  · rw [hl] at hlast
    cases hlast
  · rw [hbefore stage hmem] at hs
    cases hs

variable {σ : Type} (env : Env Op Op.Answer σ) (s : σ) (crc32fastHash : List UInt8 → UInt32)

/-- A file that cannot be read is reported twice. -/
theorem stages_unreadable (e : String) (config : OtaConfig) :
    stages (run env (upgradeThread crc32fastHash (.error e) config) s).2 = [.error, .error] := rfl

/-- Without an attempt the thread panics at the first request. -/
theorem stages_panic (fwData : List UInt8) (h : config.maxRetries = 0) :
    stages (run env (upgradeThread crc32fastHash (.ok fwData) config) s).2 = [.handshaking] := by
  obtain ⟨maxRetries, commandTimeoutMs⟩ := config
  obtain rfl : maxRetries = 0 := h
  rfl

/-- **The end of an upgrade thread** is reported with the right stage, once, exactly when nothing
spoiled it. -/
theorem ends_once_iff (loaded : Except String (List UInt8)) (config : OtaConfig) :
    EndsOnce (run env (upgradeThread crc32fastHash loaded config) s).1
        (run env (upgradeThread crc32fastHash loaded config) s).2 ↔
      ¬ Spoiled config loaded (run env (upgradeThread crc32fastHash loaded config) s).2 := by
  cases loaded with
  | error e =>
    refine iff_of_false ?_ (not_not.2 trivial)
    exact not_endsOnce_of_stages [.error] .error
      (stages_unreadable env s crc32fastHash e config) (Or.inr ⟨.error, List.mem_cons_self, rfl⟩)
  | ok fwData =>
    rcases Nat.eq_zero_or_pos config.maxRetries with h0 | hn
    · refine iff_of_false ?_ (not_not.2 (Or.inl h0))
      exact not_endsOnce_of_stages [] .handshaking (stages_panic env s crc32fastHash fwData h0)
        (Or.inl rfl)
    · rcases wp_run env (wp_upgradeThread_watch crc32fastHash hn fwData) s with
        ⟨r, hr, hw⟩ | ⟨_, -, hf⟩
      · generalize run env (upgradeThread crc32fastHash (.ok fwData) config) s = x at hr hw ⊢
        rw [Spoiled, ← attempts_foldl, or_iff_right (Nat.pos_iff_ne_zero.1 hn), hr]
        rcases hw with ⟨rfl, hw⟩ | ⟨msg, rfl, hw | hw⟩
        · refine iff_of_true (hw.endsOnce rfl ?_ ?_ ?_) hw.attempts <;> simp
        · refine iff_of_true (hw.endsOnce rfl ?_ ?_ ?_) hw.attempts <;> simp
        · exact iff_of_false hw.not_endsOnce (not_not.2 hw.attempts)
      · exact hf.elim

/-- A link on which nothing is answered. -/
def silentLink : Env Op Op.Answer Unit := fun _ op =>
  match op with
  | .isCancelled => (false, ())
  | .sendAndRecv _ _ => (.error "timeout", ())
  | .sendFrame _ => (.ok (), ())
  | .sleep _ => ((), ())
  | .emit _ => ((), ())

/-- The handshake fails, and Error is announced twice. -/
theorem ends_twice : ¬ ∀ (env : Env Op Op.Answer Unit) (crc32fastHash : List UInt8 → UInt32)
    (loaded : Except String (List UInt8)) (config : OtaConfig),
    let r := run env (upgradeThread crc32fastHash loaded config) ()
    EndsOnce r.1 r.2 := by
  intro h
  have hends := h silentLink Crc32.hash (.ok [0xAA, 0xBB]) {}
  exact not_endsOnce_of_stages [.handshaking, .error] .error rfl
    (Or.inr ⟨.error, by simp, rfl⟩) hends

end ZephyrStm32.Ota.Pc
