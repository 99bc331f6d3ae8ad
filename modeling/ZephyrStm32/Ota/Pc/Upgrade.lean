import ZephyrStm32.Lib.Crc32
import ZephyrStm32.Ota.Pc.Steps

/-!
# What a finished upgrade says about the device

`ok_iff_not_stopped`: an upgrade returns `Ok` exactly when no answer stops it. `upgrade_sound_iff`:
all that `Ok` says of the accepted responses beyond this is luck, since most steps let through
every response but four bytes of 0xFF.
-/

namespace ZephyrStm32.Ota.Pc

open Interact
open Engine

/-! ## The answers that stop an upgrade -/

/-- The responses on which the step that sent `command` gives up. -/
def refused (fwSize : UInt32) (command : UInt16) (resp : Frame) : Bool :=
  resp.isErrorResponse ||
    (command == cmdGetDeviceInfo && (parseDeviceInfo resp).any (fwSize > ·.flashTotalSize)) ||
    (command == cmdStartUpgrade && !(parseStartUpgradeResponse resp).any (·.1 == 0x00)) ||
    (command == cmdVerifyFirmware && (parseVerifyResponse resp).any (·.1 != 0x00))

/-- A monitor of the answers. It counts the attempts in a row that brought no response, polls of
the log apart, and is at `none` once an answer has stopped the upgrade: the cancel flag is set,
`maxRetries` attempts have failed, or a response is refused. -/
def judge (maxRetries : Nat) (fwSize : UInt32) :
    Option Nat → Asked Op Op.Answer → Option Nat
  | none, _ => none
  | some k, ⟨.isCancelled, cancelled⟩ => bif cancelled then none else some k
  | some k, ⟨.sendAndRecv frame _, .error _⟩ =>
    if frame.command = cmdGetLog then some k
    else if k + 1 = maxRetries then none else some (k + 1)
  | some k, ⟨.sendAndRecv frame _, .ok resp⟩ =>
    if frame.command = cmdGetLog then some k
    else if refused fwSize frame.command resp then none else some 0
  | some k, _ => some k

/-- The firmware cannot be read, no attempt is allowed, or an answer stops the upgrade. -/
def Stopped (config : OtaConfig) : Except String (List UInt8) → List (Asked Op Op.Answer) → Prop
  | .error _, _ => True
  | .ok fwData, t => config.maxRetries = 0 ∨
    t.foldl (judge config.maxRetries (UInt32.ofNat fwData.length)) (some 0) = none

/-- A command that was answered, with its response. -/
def answered : Asked Op Op.Answer → Option (UInt16 × Frame)
  | ⟨.sendAndRecv frame _, .ok resp⟩ => some (frame.command, resp)
  | _ => none

/-- The accepted responses of a transcript. -/
def accepted (t : List (Asked Op Op.Answer)) : List (UInt16 × Frame) := t.filterMap answered

variable {config : OtaConfig} {fwSize fwCrc : UInt32} {α : Type} {frame : Frame} {label : String}
  {resp : Frame}

/-! ## The verdict on a response -/

/-- What a response leaves the monitor at. -/
def verdict (fwSize : UInt32) (command : UInt16) (resp : Frame) : Option Nat :=
  if refused fwSize command resp then none else some 0

/-- What it should, from what the step makes of it. -/
def Engine.Settled.verdict (r : Settled α) : Option Nat :=
  match r.outcome with
  | .value _ => some 0
  | _ => none

/-- An error response stops every step. -/
theorem verdict_checked {c : UInt16} {r : Settled α}
    (h : resp.isErrorResponse = false → verdict fwSize c resp = r.verdict) :
    verdict fwSize c resp = (checked label resp r).verdict := by
  rw [checked]
  split
  · rename_i herr
    simp [Pc.verdict, Settled.verdict, refused, herr]
  · rename_i herr
    exact h (Bool.not_eq_true _ ▸ herr)

/-- Most commands are refused by an error response only. -/
theorem verdict_settleAny (label : String) {c : UInt16}
    (hc : c ∉ [cmdGetDeviceInfo, cmdStartUpgrade, cmdVerifyFirmware]) :
    verdict fwSize c resp = (checked label resp (settleAny resp)).verdict := by
  refine verdict_checked fun herr => ?_
  simp only [List.mem_cons, List.not_mem_nil, or_false, not_or] at hc
  simp [Pc.verdict, refused, herr, hc, settleAny, Settled.verdict]

theorem verdict_settleDeviceInfo : verdict fwSize cmdGetDeviceInfo resp =
    (checked label resp (settleDeviceInfo fwSize resp)).verdict := by
  refine verdict_checked fun herr => ?_
  have hv : verdict fwSize cmdGetDeviceInfo resp =
      if (parseDeviceInfo resp).any (fwSize > ·.flashTotalSize) then none else some 0 := by
    simp [Pc.verdict, refused, herr, cmdGetDeviceInfo, cmdStartUpgrade, cmdVerifyFirmware]
  rw [hv, settleDeviceInfo]
  cases parseDeviceInfo resp with
  | none => rfl
  | some info => by_cases hbig : info.flashTotalSize < fwSize <;> simp [hbig, Settled.verdict]

theorem verdict_settleStart : verdict fwSize cmdStartUpgrade resp =
    (checked label resp (settleStart resp)).verdict := by
  refine verdict_checked fun herr => ?_
  have hv : verdict fwSize cmdStartUpgrade resp =
      if (parseStartUpgradeResponse resp).any (·.1 == 0x00) then some 0 else none := by
    cases hany : (parseStartUpgradeResponse resp).any (·.1 == 0x00) <;>
      simp [Pc.verdict, refused, herr, hany, cmdGetDeviceInfo, cmdStartUpgrade, cmdVerifyFirmware]
  rw [hv, settleStart]
  rcases parseStartUpgradeResponse resp with - | ⟨status, maxPktSize, eraseProgress⟩
  · rfl
  · by_cases hs : status = 0x00 <;> simp [hs, Settled.verdict]

theorem verdict_settleVerify : verdict fwSize cmdVerifyFirmware resp =
    (checked label resp (settleVerify fwCrc resp)).verdict := by
  refine verdict_checked fun herr => ?_
  have hv : verdict fwSize cmdVerifyFirmware resp =
      if (parseVerifyResponse resp).any (·.1 != 0x00) then none else some 0 := by
    simp [Pc.verdict, refused, herr, cmdGetDeviceInfo, cmdStartUpgrade, cmdVerifyFirmware]
  rw [hv, settleVerify]
  rcases parseVerifyResponse resp with - | ⟨result, calcCrc⟩
  · rfl
  · by_cases hr : result = 0x00 <;> simp [hr, settleAny, Settled.verdict]

/-! ## The steps, judged -/

/-- The triples of the monitor: a part that fails fails at `none`. -/
def Judged (config : OtaConfig) (fwSize : UInt32) (P : Option Nat → Prop) (p : Engine α)
    (Q : α → Option Nat → Prop) : Prop :=
  Triple (monitor (judge config.maxRetries fwSize)) (fun _ v => v = none) P p Q

theorem judged_emit (event : OtaEvent) (v : Option Nat) :
    Judged config fwSize (· = v) (emit event) fun _ v' => v' = v := by
  rintro v rfl _
  cases v <;> rfl

theorem judged_emitError (message : String) (v : Option Nat) :
    Judged config fwSize (· = v) (emitError message) fun _ v' => v' = v :=
  Triple.bind (judged_emit _ v) fun _ => judged_emit _ v

theorem judged_isCancelled (k : Nat) : Judged config fwSize (· = some k) isCancelled
    fun cancelled v => if cancelled then v = none else v = some k := by
  rintro _ rfl cancelled
  cases cancelled <;> rfl

/-- The failed attempts and those left make `maxRetries`. -/
theorem attempts_judge (hlog : frame.command ≠ cmdGetLog) :
    Attempts (monitor (judge config.maxRetries fwSize)) (fun _ v => v = none) config frame
      (fun left v => 0 < left ∧ ∃ failed, v = some failed ∧ failed + left = config.maxRetries)
      (fun left v => ∃ failed, v = some failed ∧ failed + left + 1 = config.maxRetries)
      (fun left v => if left = 0 then v = none
        else ∃ failed, v = some failed ∧ failed + left = config.maxRetries)
      fun resp v => v = verdict fwSize frame.command resp where
  panic _ h := absurd h.1 (Nat.lt_irrefl 0)
  look left := by
    rintro _ ⟨-, failed, rfl, hsum⟩
    refine wp_mono (judged_isCancelled failed _ rfl) fun cancelled v hv => ?_
    cases cancelled with
    | true => exact hv
    | false => exact ⟨failed, hv, hsum⟩
  ask left := by
    rintro _ ⟨failed, rfl, hsum⟩ x
    cases x with
    | ok resp =>
      change judge _ _ _ _ = _
      rw [judge, if_neg hlog, verdict]
    | error e =>
      have hjudge : judge config.maxRetries fwSize (some failed)
          ⟨.sendAndRecv frame config.commandTimeoutMs, .error e⟩ =
          if failed + 1 = config.maxRetries then none else some (failed + 1) := by
        rw [judge, if_neg hlog]
      change if left = 0 then judge _ _ _ _ = none else ∃ failed, judge _ _ _ _ = _ ∧ _
      rw [hjudge]
      by_cases hleft : left = 0
      · rw [if_pos hleft, if_pos (by omega)]
      · rw [if_neg hleft, if_neg (by omega)]
        exact ⟨failed + 1, rfl, by omega⟩
  again left := by
    rintro _ ⟨failed, rfl, hsum⟩ _
    exact ⟨Nat.succ_pos left, failed, rfl, hsum⟩
  last message := judged_emitError message none

/-- A request ends in the verdict on its response, or fails. -/
theorem judged_sendFrame (hn : 0 < config.maxRetries) (hlog : frame.command ≠ cmdGetLog) :
    Judged config fwSize (· = some 0) (sendFrame frame label config)
      fun resp v => v = verdict fwSize frame.command resp :=
  fun v hv => (attempts_judge hlog).sendFrame v ⟨hn, 0, hv, Nat.zero_add _⟩

theorem judged_report (r : Settled α) :
    Judged config fwSize (· = r.verdict) r.report fun _ v => v = some 0 := by
  refine report_triple (fun info => judged_emit _ _) ?_ ?_ ?_
  · rintro a hr _ rfl
    rw [Settled.verdict, hr]
  · rintro message hr _ rfl
    rw [Settled.verdict, hr]
  · intro message hr
    rw [Settled.verdict, hr]
    exact judged_emitError message none

/-- A step whose response is refused exactly when the step goes no further. -/
theorem judged_step (hn : 0 < config.maxRetries) {stage : UpgradeStage} {c : UInt16}
    {data : List UInt8} {settle : Frame → Settled α} (hlog : c ≠ cmdGetLog)
    (hv : ∀ resp, verdict fwSize c resp = (checked label resp (settle resp)).verdict) :
    Judged config fwSize (· = some 0) (step stage (plainFrame c data) label config settle)
      fun _ v => v = some 0 := by
  refine step_triple (judged_emit _ (some 0)) (judged_sendFrame hn hlog) fun resp => ?_
  rw [show verdict fwSize (plainFrame c data).command resp = _ from hv resp]
  exact judged_report _

/-- Nothing is counted against a poll of the log. -/
theorem judged_pollLogs (v : Option Nat) :
    Judged config fwSize (· = v) pollLogs fun _ v' => v' = v := by
  apply pollLogs_triple
  rintro v rfl x
  cases v with
  | none => rfl
  | some k => cases x <;> rfl

theorem judged_cancelTransfer :
    Judged config fwSize (· = none) cancelTransfer fun _ _ => False := by
  refine cancelTransfer_triple (B := (· = none)) ?_ (judged_emit _ none)
  rintro _ rfl _
  rfl

theorem judged_transferPacket (hn : 0 < config.maxRetries) {total : UInt16} {i : Nat}
    {pkt : FirmwarePacket} (hlen : pkt.data.length ≤ 65531) : Judged config fwSize (· = some 0)
      (transferPacket total fwSize config i pkt) fun _ v => v = some 0 := by
  have hplain (resp : Frame) : verdict fwSize (dataFrame total i pkt).command resp = _ :=
    verdict_settleAny "" (show cmdTransferData ∉ _ by decide)
  refine transferPacket_triple (C := (· = none)) hlen (judged_isCancelled 0) judged_cancelTransfer
    (judged_sendFrame hn (show cmdTransferData ≠ cmdGetLog by decide)) ?_ ?_
  · rintro resp _ herr rfl _
    simp [verdict, refused, herr]
  · rintro resp herr
    rw [hplain, checked_of_not_error herr]
    exact judged_emit _ (some 0)

/-- **The flow.** -/
theorem walk_judge (hn : 0 < config.maxRetries) (fwData : List UInt8) (fwCrc : UInt32) :
    Walk (monitor (judge config.maxRetries (UInt32.ofNat fwData.length))) (fun _ v => v = none)
      config fwData fwCrc (· = some 0) (fun _ v => v = some 0) fun _ v => v = some 0 where
  look _ := failIfCancelled_triple (judged_isCancelled 0)
  handshake := judged_step hn (by decide) fun _ => verdict_settleAny _ (by decide)
  getDeviceInfo := judged_step hn (by decide) fun _ => verdict_settleDeviceInfo
  startUpgrade := judged_step hn (by decide) fun _ => verdict_settleStart
  transfer _ _ hchunk := transfer_triple (T := fun _ _ v => v = some 0) hchunk (judged_emit _ _)
    (fun _ _ _ hlen => judged_transferPacket hn hlen) fun _ _ h => h
  transferComplete := judged_step hn (by decide) fun _ => verdict_settleAny _ (by decide)
  verifyFirmware := judged_step hn (by decide) fun _ => verdict_settleVerify
  setBootFlag := setBootFlag_triple (judged_emit _ _) (judged_sendFrame hn (by decide))
    (fun _ => judged_pollLogs _) fun resp => by
      rw [show verdict _ (plainFrame _ _).command resp = _ from verdict_settleAny _ (by decide)]
      exact judged_report _
  finish := (judged_step hn (by decide) fun _ => verdict_settleAny _ (by decide)).bind
    fun _ => judged_emit _ _

variable (crc32fastHash : List UInt8 → UInt32)

variable {σ : Type} (env : Env Op Op.Answer σ) (s : σ)

/-- **When an upgrade returns `Ok`.** -/
theorem ok_iff_not_stopped (loaded : Except String (List UInt8)) (config : OtaConfig) :
    (run env (doUpgrade crc32fastHash loaded config) s).1 = .ok () ↔
      ¬ Stopped config loaded (run env (doUpgrade crc32fastHash loaded config) s).2 := by
  cases loaded with
  | error e =>
    have he : (run env (doUpgrade crc32fastHash (.error e) config) s).1 = .error (.err e) := rfl
    simp [he, Stopped]
  | ok fwData =>
    rcases Nat.eq_zero_or_pos config.maxRetries with h0 | hn
    · -- The handshake panics.
      have he : (run env (doUpgrade crc32fastHash (.ok fwData) config) s).1 = .error .panic := by
        obtain ⟨maxRetries, commandTimeoutMs⟩ := config
        obtain rfl : maxRetries = 0 := h0
        rfl
      simp [he, Stopped, h0]
    · obtain ⟨_, he, hv⟩ | ⟨_, he, hv⟩ :=
        wp_run env ((walk_judge hn fwData _).doUpgrade crc32fastHash _ rfl) s
      · simp [he, Stopped, hv, hn.ne']
      · simp [he, Stopped, hv]

/-! ## What the responses of a finished upgrade are -/

theorem foldl_judge_none (n : Nat) (t : List (Asked Op Op.Answer)) :
    t.foldl (judge n fwSize) none = none := by
  induction t with
  | nil => rfl
  | cons e t ih => exact ih

/-- A monitor that goes on past an answer has not seen it refused. -/
theorem not_refused_of_step {n : Nat} {v : Option Nat} {e : Asked Op Op.Answer}
    (h : judge n fwSize v e ≠ none) {a : UInt16 × Frame} (ha : answered e = some a)
    (hlog : a.1 ≠ cmdGetLog) : refused fwSize a.1 a.2 = false := by
  obtain ⟨op, answer⟩ := e
  cases op with
  | sendAndRecv frame timeoutMs =>
    cases answer with
    | error e => cases ha
    | ok resp =>
      obtain rfl := Option.some.inj ha
      cases v with
      | none => exact absurd rfl h
      | some k =>
        by_contra hr
        rw [judge, if_neg hlog, if_pos (by simpa using hr)] at h
        exact h rfl
  | _ => cases ha

/-- The same for a whole transcript. -/
theorem not_refused_of_judge {n : Nat} {t : List (Asked Op Op.Answer)} {v : Option Nat}
    (h : t.foldl (judge n fwSize) v ≠ none) {a : UInt16 × Frame} (ha : a ∈ accepted t)
    (hlog : a.1 ≠ cmdGetLog) : refused fwSize a.1 a.2 = false := by
  induction t generalizing v with
  | nil => cases ha
  | cons e t ih =>
    rw [List.foldl_cons] at h
    have hstep : judge n fwSize v e ≠ none := by
      intro hn
      rw [hn, foldl_judge_none] at h
      exact h rfl
    obtain ⟨e', he', hae⟩ := List.mem_filterMap.1 ha
    rcases List.mem_cons.1 he' with rfl | he'
    · exact not_refused_of_step hstep hae hlog
    · exact ih h (List.mem_filterMap.2 ⟨e', he', hae⟩)

/-- The commands whose acceptance an upgrade reports. -/
def reported : List UInt16 :=
  [cmdStartUpgrade, cmdTransferData, cmdTransferComplete, cmdVerifyFirmware, cmdSetBootFlag,
    cmdResetRun]

/-- No step looks at the status of such a response. -/
def Unchecked (a : UInt16 × Frame) : Prop :=
  a.1 ∈ [cmdTransferData, cmdTransferComplete, cmdSetBootFlag, cmdResetRun] ∨
    a.1 = cmdVerifyFirmware ∧ parseVerifyResponse a.2 = none

theorem isSuccess_of_parseStatusWord {resp : Frame} {w : UInt32}
    (h : parseStatusWord resp = some (0x00, w)) : resp.isSuccess = true := by
  unfold parseStatusWord at h
  split at h
  · rename_i hdata
    simp only [Option.some.injEq, Prod.mk.injEq] at h
    simp [Frame.isSuccess, hdata, h.1]
  · cases h

theorem isSuccess_of_start {resp : Frame}
    (h : (parseStartUpgradeResponse resp).any (·.1 == 0x00) = true) : resp.isSuccess = true := by
  unfold parseStartUpgradeResponse at h
  split at h
  · rename_i hdata
    simpa [Frame.isSuccess, hdata] using h
  · cases h

/-- Where the status of a response is looked at, a response that is not refused is a success. -/
theorem isSuccess_of_not_refused {a : UInt16 × Frame} (hr : refused fwSize a.1 a.2 = false)
    (hrep : a.1 ∈ reported) (hu : ¬ Unchecked a) : a.2.isSuccess = true := by
  obtain ⟨c, resp⟩ := a
  have hc : c = cmdStartUpgrade ∨ c = cmdVerifyFirmware ∧ parseVerifyResponse resp ≠ none := by
    simp only [reported, Unchecked, List.mem_cons, List.not_mem_nil, or_false] at hrep hu
    tauto
  simp only [refused, Bool.or_eq_false_iff] at hr
  obtain ⟨⟨-, hstart⟩, hverify⟩ := hr
  rcases hc with rfl | ⟨rfl, hparse⟩
  · exact isSuccess_of_start (by simpa using hstart)
  · obtain ⟨⟨result, crc⟩, hp⟩ := Option.ne_none_iff_exists'.1 hparse
    have hresult : result = 0x00 := by simpa [hp] using hverify
    exact isSuccess_of_parseStatusWord (hresult ▸ hp)

/-- **What `Ok` is worth.** That every reported command was accepted with status 0x00 holds of a
run exactly when an answer stopped it, or the responses whose status no step looks at happen to
have status 0x00. -/
theorem upgrade_sound_iff (loaded : Except String (List UInt8)) (config : OtaConfig) :
    ((run env (doUpgrade crc32fastHash loaded config) s).1 = .ok () →
      ∀ a ∈ accepted (run env (doUpgrade crc32fastHash loaded config) s).2, a.1 ∈ reported →
        a.2.isSuccess = true) ↔
    (Stopped config loaded (run env (doUpgrade crc32fastHash loaded config) s).2 ∨
      ∀ a ∈ accepted (run env (doUpgrade crc32fastHash loaded config) s).2, Unchecked a →
        a.2.isSuccess = true) := by
  have hiff := ok_iff_not_stopped crc32fastHash env s loaded config
  generalize run env (doUpgrade crc32fastHash loaded config) s = r at hiff ⊢
  have hsub : ∀ a : UInt16 × Frame, Unchecked a → a.1 ∈ reported := by
    rintro a (ha | ⟨ha, -⟩)
    · simp only [List.mem_cons, List.not_mem_nil, or_false] at ha
      rcases ha with ha | ha | ha | ha <;> rw [ha] <;> decide
    · rw [ha]
      decide
  constructor
  · intro h
    by_cases hs : Stopped config loaded r.2
    · exact Or.inl hs
    · exact Or.inr fun a ha hu => h (hiff.2 hs) a ha (hsub a hu)
  · rintro (hs | h) hok a ha hrep
    · exact absurd hs (hiff.1 hok)
    · by_cases hu : Unchecked a
      · exact h a ha hu
      · -- The run was not stopped, so the response was not refused.
        have hns := hiff.1 hok
        cases loaded with
        | error e => exact absurd trivial hns
        | ok fwData =>
          have hlog : a.1 ≠ cmdGetLog := fun hl => absurd (hl ▸ hrep) (by decide)
          exact isSuccess_of_not_refused
            (not_refused_of_judge (not_or.1 hns).2 ha hlog) hrep hu

/-- A link to a device that refuses every DATA, the way the handler does, and accepts the rest. -/
def refusingData : Env Op Op.Answer Unit := fun _ op =>
  match op with
  | .isCancelled => (false, ())
  | .sendAndRecv frame _ =>
    let data := if frame.command = cmdTransferData then List.replicate 5 0xFF
      else [0x00, 0x00, 0x04, 100, 0x00]
    (.ok { frame with srcAddr := addrDevice, dstAddr := addrPc, data := data }, ())
  | .sendFrame _ => (.ok (), ())
  | .sleep _ => ((), ())
  | .emit _ => ((), ())

/-- Five bytes of 0xFF are not the four that `is_error_response` looks for. -/
theorem upgrade_ok_refused :
    let r := run refusingData (doUpgrade Crc32.hash (.ok [0xAA, 0xBB]) {}) ()
    r.1 = .ok () ∧
      ∃ a ∈ accepted r.2, a.1 = cmdTransferData ∧ a.2.data = List.replicate 5 0xFF := by
  decide +kernel

end ZephyrStm32.Ota.Pc
