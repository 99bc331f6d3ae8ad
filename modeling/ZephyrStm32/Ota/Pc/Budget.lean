import ZephyrStm32.Lib.Cost
import ZephyrStm32.Ota.Pc.Cancel

/-!
# What an upgrade costs at most

Whatever the device and the user do, an upgrade thread makes a bounded number of attempts and waits
a bounded time. `wp_upgradeThread_spending` says so for any way of pricing its calls: a packet is
never smaller than 128 bytes, so that there are seven requests and at most one for each 128 bytes of
firmware, each attempted at most `max_retries` times.

**Theorem (`upgrade_bounded`).** The bounds on the attempts, and on the time for all timeouts and
pauses.
-/

namespace ZephyrStm32.Ota.Pc

open Interact
open Engine

variable {α : Type} {c : Op → Nat} {config : OtaConfig} {attempt pause log write : Nat}

/-- Bounds on what the calls cost. -/
structure Priced (config : OtaConfig) (c : Op → Nat) (attempt pause log write : Nat) : Prop where
  isCancelled : c .isCancelled = 0
  emit : ∀ event, c (.emit event) = 0
  attempt : ∀ frame, frame.command ≠ cmdGetLog →
    c (.sendAndRecv frame config.commandTimeoutMs) ≤ attempt
  pause : c (.sleep 200) ≤ pause
  log : ∀ frame, frame.command = cmdGetLog → c (.sendAndRecv frame 1500) ≤ log
  write : ∀ frame, c (.sendFrame frame) ≤ write

/-- All attempts of a request and the pauses between them. -/
def requestCost (attempts attempt pause : Nat) : Nat := attempts * attempt + (attempts - 1) * pause

/-- The most packets there can be. -/
def mostPackets (fwData : List UInt8) : Nat := (fwData.length + 127) / 128

/-- What the steps behind a point may cost. -/
def remaining (fwData : List UInt8) (request log write : Nat) : Station → Nat
  | .connected => (6 + mostPackets fwData) * request + write + log
  | .informed => (5 + mostPackets fwData) * request + write + log
  | .started _ => (4 + mostPackets fwData) * request + write + log
  | .transferred => 4 * request + log
  | .completed => 3 * request + log
  | .verified => 2 * request + log
  | .flagged => request

section

variable (hc : Priced config c attempt pause log write) {kept m : Nat}
  {E : Failure → Nat → Prop}

include hc

theorem emit_spending (event : OtaEvent) :
    Triple (spending c) E (m ≤ ·) (emit event) fun _ left => m ≤ left := by
  intro left h
  have hcost := hc.emit event
  exact ⟨by omega, fun _ => show m ≤ left - c _ by omega⟩

theorem emitError_spending (message : String) :
    Triple (spending c) E (m ≤ ·) (emitError message) fun _ left => m ≤ left :=
  (emit_spending hc _).bind fun _ => emit_spending hc _

theorem isCancelled_spending :
    Triple (spending c) E (m ≤ ·) isCancelled fun _ left => m ≤ left := by
  intro left h
  have hcost := hc.isCancelled
  exact ⟨by omega, fun _ => show m ≤ left - c _ by omega⟩

theorem pollLogs_spending :
    Triple (spending c) E (log + m ≤ ·) pollLogs fun _ left => m ≤ left := by
  refine pollLogs_triple fun left h => ?_
  have hcost := hc.log (plainFrame cmdGetLog []) rfl
  exact ⟨by omega, fun _ => show m ≤ left - c _ by omega⟩

/-- A look at the flag; a part that gives up leaves what is kept for its report. -/
theorem look_spending (hm : kept ≤ m) : Triple (spending c) E (m ≤ ·) isCancelled
    fun cancelled left => if cancelled then kept ≤ left else m ≤ left := by
  refine (isCancelled_spending hc).mono fun cancelled left' h' => ?_
  cases cancelled with
  | true => exact hm.trans h'
  | false => exact h'

/-- **The attempts of a request**, paid for one by one. -/
theorem sendFrame_spending {frame : Frame} {label : String} (hf : frame.command ≠ cmdGetLog)
    (hm : kept ≤ m) :
    Triple (spending c) (fun _ left => kept ≤ left)
      (requestCost config.maxRetries attempt pause + m ≤ ·) (sendFrame frame label config)
      fun _ left => m ≤ left := by
  have hattempts : Attempts (spending c) (fun _ left => kept ≤ left) config frame
      (fun n left => requestCost n attempt pause + m ≤ left)
      (fun n left => requestCost (n + 1) attempt pause + m ≤ left)
      (fun n left => n * attempt + n * pause + m ≤ left) fun _ left => m ≤ left := by
    refine ⟨fun left h => ?_, fun n => look_spending hc ?_, fun n left h => ?_, fun n left h => ?_,
      fun message left h => ?_⟩
    · exact hm.trans ((Nat.le_add_left _ _).trans h)
    · exact hm.trans (Nat.le_add_left _ _)
    · rw [requestCost, Nat.add_sub_cancel, Nat.succ_mul] at h
      have hcost := hc.attempt frame hf
      refine ⟨by omega, fun x => ?_⟩
      cases x with
      | ok resp => exact show m ≤ left - c _ by omega
      | error e => exact show n * attempt + n * pause + m ≤ left - c _ by omega
    · have hcost := hc.pause
      rw [Nat.succ_mul n pause] at h
      refine ⟨by omega, fun _ => ?_⟩
      change requestCost (n + 1) attempt pause + m ≤ left - c _
      rw [requestCost, Nat.add_sub_cancel]
      omega
    · refine wp_mono (emitError_spending hc (m := m) message left (by omega)) fun _ _ => hm.trans
  exact hattempts.sendFrame

theorem report_spending {r : Settled α} (hm : kept ≤ m) :
    Triple (spending c) (fun _ left => kept ≤ left) (m ≤ ·) r.report fun _ left => m ≤ left :=
  report_triple (fun _ => emit_spending hc _) (fun _ _ _ h => h) (fun _ _ _ h => hm.trans h)
    fun message _ => (emitError_spending hc message).mono fun _ _ => hm.trans

/-- A step costs as much as its request. -/
theorem step_spending {stage : UpgradeStage} {command : UInt16} {data : List UInt8}
    {label : String} {settle : Frame → Settled α} (hf : command ≠ cmdGetLog) (hm : kept ≤ m) :
    Triple (spending c) (fun _ left => kept ≤ left)
      (requestCost config.maxRetries attempt pause + m ≤ ·)
      (step stage (plainFrame command data) label config settle) fun _ left => m ≤ left :=
  step_triple (emit_spending hc _) (sendFrame_spending hc hf hm) fun _ => report_spending hc hm

theorem cancelTransfer_spending :
    Triple (spending c) (fun _ left => kept ≤ left) (write + kept ≤ ·) cancelTransfer
      fun _ _ => False := by
  refine cancelTransfer_triple (fun left h => ?_) (emit_spending hc _)
  have hcost := hc.write (plainFrame cmdCancelUpgrade [])
  exact ⟨by omega, fun _ => show kept ≤ left - c _ by omega⟩

/-- A packet costs a request, and a CANCEL is affordable before each. -/
theorem transferPacket_spending {total : UInt16} {fwSize : UInt32} {i : Nat}
    {pkt : FirmwarePacket} (hlen : pkt.data.length ≤ 65531) (hm : write + kept ≤ m) :
    Triple (spending c) (fun _ left => kept ≤ left)
      (requestCost config.maxRetries attempt pause + m ≤ ·)
      (transferPacket total fwSize config i pkt) fun _ left => m ≤ left := by
  have hkept : kept ≤ m := (Nat.le_add_left _ _).trans hm
  exact transferPacket_triple hlen (look_spending hc (hm.trans (Nat.le_add_left _ _)))
    (cancelTransfer_spending hc) (sendFrame_spending hc (show cmdTransferData ≠ _ by decide) hkept)
    (fun _ _ _ h _ => hkept.trans h) fun _ _ => emit_spending hc _

/-- **The transfer**: a request for each packet, and a CANCEL at the end at most. -/
theorem transfer_spending (fwData : List UInt8) (fwSize : UInt32) {chunkSize : Nat}
    (hlow : 128 ≤ chunkSize) (hhigh : chunkSize ≤ 4096) :
    Triple (spending c) (fun _ left => kept ≤ left)
      (mostPackets fwData * requestCost config.maxRetries attempt pause + (write + kept + m) ≤ ·)
      (transfer fwData fwSize chunkSize config) fun _ left => kept + m ≤ left := by
  have hlen : (splitIntoPackets fwData chunkSize).length ≤ mostPackets fwData := by
    rw [length_split_le_iff fwData chunkSize (by omega), mostPackets]
    calc fwData.length ≤ (fwData.length + 127) / 128 * 128 := by omega
      _ ≤ (fwData.length + 127) / 128 * chunkSize := Nat.mul_le_mul_left _ hlow
  refine transfer_triple (T := fun _ packets left =>
    packets.length * requestCost config.maxRetries attempt pause + (write + kept + m) ≤ left)
    hhigh (fun left h => ?_) (fun i pkt packets hpkt left h => ?_) fun _ left h => by omega
  · refine wp_mono (emit_spending hc _ left h) fun _ left' h' => ?_
    exact (Nat.add_le_add_right (Nat.mul_le_mul_right _ hlen) _).trans h'
  · rw [List.length_cons, Nat.succ_mul, Nat.add_comm (_ * _), Nat.add_assoc] at h
    exact transferPacket_spending hc hpkt (by omega) left h

/-- A step between two points. -/
theorem step_between {stage : UpgradeStage} {command : UInt16} {data : List UInt8}
    {label : String} {settle : Frame → Settled α} (hf : command ≠ cmdGetLog) {before : Nat}
    (behind : Nat) (h : before = requestCost config.maxRetries attempt pause + behind) :
    Triple (spending c) (fun _ left => kept ≤ left) (before + kept ≤ ·)
      (step stage (plainFrame command data) label config settle)
      fun _ left => behind + kept ≤ left := by
  rw [h, Nat.add_assoc]
  exact step_spending hc hf (Nat.le_add_left _ _)

/-- **The flow**: seven requests besides the packets, a CANCEL and a poll of the log. -/
theorem walk_spending (fwData : List UInt8) (fwCrc : UInt32) (kept : Nat) :
    Walk (spending c) (fun _ left => kept ≤ left) config fwData fwCrc
      ((7 + mostPackets fwData) * requestCost config.maxRetries attempt pause + write + log +
        kept ≤ ·)
      (fun station left => remaining fwData (requestCost config.maxRetries attempt pause) log write
        station + kept ≤ left)
      fun _ left => kept ≤ left where
  look _ := failIfCancelled_triple (look_spending hc (Nat.le_add_left _ _))
  handshake := step_between hc (by decide) _ (by simp only [remaining, Nat.add_mul]; omega)
  getDeviceInfo := step_between hc (by decide) _ (by simp only [remaining, Nat.add_mul]; omega)
  startUpgrade := step_between hc (show cmdStartUpgrade ≠ _ by decide)
    ((4 + mostPackets fwData) * requestCost config.maxRetries attempt pause + write + log)
    (by simp only [remaining, Nat.add_mul]; omega)
  transfer _ hlow hhigh left h := by
    rw [remaining, Nat.add_mul] at h
    refine wp_mono (transfer_spending hc (m := 4 * requestCost config.maxRetries attempt pause +
      log) fwData _ hlow hhigh left (by omega)) fun _ left' h' => ?_
    rwa [remaining, Nat.add_comm]
  transferComplete := step_between hc (show cmdTransferComplete ≠ _ by decide) _
    (by simp only [remaining]; omega)
  verifyFirmware := step_between hc (by decide) _ (by simp only [remaining]; omega)
  setBootFlag := by
    refine setBootFlag_triple (emit_spending hc _) (fun left h => ?_)
      (fun _ => pollLogs_spending hc) fun _ => report_spending hc (Nat.le_add_left _ _)
    refine sendFrame_spending hc (by decide) ?_ left ?_
    · exact (Nat.le_add_left _ _).trans (Nat.le_add_left _ _)
    · simp only [remaining] at h ⊢
      omega
  finish := by
    refine (step_between hc (by decide) 0 rfl).bind fun _ => ?_
    rw [Nat.zero_add]
    exact emit_spending hc _

/-- **The whole thread**, which polls the log once more after a failure. -/
theorem wp_upgradeThread_spending (crc32fastHash : List UInt8 → UInt32) (fwData : List UInt8) :
    wp (spending c) (fun _ _ => True) (fun _ _ => True)
      (upgradeThread crc32fastHash (.ok fwData) config)
      ((7 + mostPackets fwData) * requestCost config.maxRetries attempt pause + write + log +
        log) := by
  have hflow := (walk_spending hc fwData (crc32fastHash fwData) log).doUpgrade crc32fastHash
  refine upgradeThread_triple (F := fun _ left => log ≤ left) (J := fun _ left => 0 ≤ left) ?_
    (fun _ _ => trivial) (fun _ => pollLogs_spending hc (m := 0)) (fun e left _ => ?_) _
    (Nat.le_refl _)
  · exact hflow.mono fun _ _ _ => trivial
  · exact wp_mono (emitError_spending hc (m := 0) e left (Nat.zero_le left)) fun _ _ _ => trivial

end

/-! ## Attempts and time -/

/-- A command that is sent for its response, other than the polls of the log. -/
def Op.attempts : Op → Nat
  | .sendAndRecv frame _ => if frame.command = cmdGetLog then 0 else 1
  | _ => 0

/-- How long a call can wait, in milliseconds. -/
def Op.durationMs : Op → Nat
  | .sendAndRecv _ timeoutMs => timeoutMs
  | .sleep ms => ms
  | _ => 0

theorem priced_attempts (config : OtaConfig) : Priced config Op.attempts 1 0 0 0 where
  isCancelled := rfl
  emit _ := rfl
  attempt _ h := (if_neg h).le
  pause := le_rfl
  log _ h := (if_pos h).le
  write _ := le_rfl

theorem priced_durationMs (config : OtaConfig) :
    Priced config Op.durationMs config.commandTimeoutMs 200 1500 0 where
  isCancelled := rfl
  emit _ := rfl
  attempt _ _ := le_rfl
  pause := le_rfl
  log _ _ := le_rfl
  write _ := le_rfl

/-- **Attempts and waiting are bounded**, whatever the device answers and the user does. -/
theorem upgrade_bounded (crc32fastHash : List UInt8 → UInt32) (fwData : List UInt8)
    (config : OtaConfig) {σ : Type} (env : Env Op Op.Answer σ) (s : σ) :
    cost Op.attempts (run env (upgradeThread crc32fastHash (.ok fwData) config) s).2 ≤
        (7 + mostPackets fwData) * config.maxRetries ∧
      cost Op.durationMs (run env (upgradeThread crc32fastHash (.ok fwData) config) s).2 ≤
        (7 + mostPackets fwData) *
          (config.maxRetries * config.commandTimeoutMs + (config.maxRetries - 1) * 200) + 3000 := by
  have hattempts := cost_run env
    (wp_upgradeThread_spending (priced_attempts config) crc32fastHash fwData) s
  have hduration := cost_run env
    (wp_upgradeThread_spending (priced_durationMs config) crc32fastHash fwData) s
  simp only [requestCost, Nat.mul_one, Nat.mul_zero, Nat.add_zero] at hattempts hduration
  exact ⟨hattempts, hduration⟩

end ZephyrStm32.Ota.Pc
