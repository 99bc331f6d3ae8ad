import ZephyrStm32.Ota.Link.Filling
import ZephyrStm32.Ota.Link.Layouts
import ZephyrStm32.Ota.Pc.Requests

/-!
# What `Ok` means over a link that loses frames

**Theorem (`ok_means_stored`).** Over a lossy link, with any flash failures and any cancellation,
an upgrade that returns `Ok` has left the whole firmware in slot1 of a device that verified it: the
offsets that the device checks make up for every lost request, every lost response and every
attempt made twice, and the checksums are not needed for it. But no upgrade, whatever it returns,
changes the boot flag or reboots the device; the PC shows `Complete` all the same, since the
refusals of SET_BOOT_FLAG and RESET_RUN are one byte long and `is_error_response` looks for four.
-/

namespace ZephyrStm32.Ota.Link

open Interact
open Pc (Frame FirmwarePacket Op OtaConfig OtaEvent Engine upgradeThread_triple)
open Pc.Engine (Station Walk cancelTransfer_triple failIfCancelled_triple setBootFlag_triple
  settleStart settleVerify settleVerify_value step transferPacket_triple transfer_triple)

variable {z : Zephyr} {W : World Op Op.Answer Bench} {fw : List UInt8} {flag : UInt8} {b : Bench}
  {config : OtaConfig} {frame : Frame} {label : String}

/-! ## What the attempts of a request keep -/

/-- In the transfer. -/
def Transferring (fw : List UInt8) (flag : UInt8) (b : Bench) : Prop :=
  Unbooted flag b ∧ Filling fw b.device

/-- Behind VERIFY. -/
def Finishing (fw : List UInt8) (flag : UInt8) (b : Bench) : Prop :=
  Unbooted flag b ∧ Stored fw b.device

/-- A command that has nothing to do with booting. -/
abbrev NotBoot (c : UInt16) : Prop := c ≠ cmdSetBootFlag ∧ c ≠ cmdResetRun

theorem unbooted_exchange (hc : NotBoot frame.command) (x : Exchange) (h : Unbooted flag b) :
    Unbooted flag (b.exchange z x frame) :=
  (h.exchange (bootIdle_of_command hc.1 hc.2 _)).2

/-- Events for the user do not touch the device. -/
theorem unbooted_emit (b : Bench) (e : OtaEvent) (h : Unbooted flag b) :
    Unbooted flag (b.emit e) :=
  ⟨h.bootFlag, h.running, h.reboot⟩

theorem transferring_emit (b : Bench) (e : OtaEvent) (h : Transferring fw flag b) :
    Transferring fw flag (b.emit e) :=
  ⟨unbooted_emit b e h.1, h.2⟩

theorem finishing_emit (b : Bench) (e : OtaEvent) (h : Finishing fw flag b) :
    Finishing fw flag (b.emit e) :=
  ⟨unbooted_emit b e h.1, h.2⟩

theorem transferring_exchange (hfw : fw.length < 2 ^ 32) {x : Exchange}
    (hf : Fills fw (x.frame frame)) (h : Transferring fw flag b) :
    Transferring fw flag (b.exchange z x frame) := by
  obtain ⟨he, hu⟩ := h.1.exchange (z := z) (hf.bootIdle b.device)
  refine ⟨hu, ?_⟩
  rw [Bench.exchange_device, he]
  exact h.2.step hf hfw (handles_frame x b.device frame)

theorem finishing_exchange {x : Exchange} (hf : Refusable (x.frame frame))
    (h : Finishing fw flag b) : Finishing fw flag (b.exchange z x frame) := by
  obtain ⟨hidle, hstored⟩ := h.2.step hf (handles_frame (z := z) x b.device frame)
  obtain ⟨he, hu⟩ := h.1.exchange (z := z) hidle
  exact ⟨hu, by rw [Bench.exchange_device, he]; exact hstored⟩

/-- A response to VERIFY is a status byte and a word. -/
theorem verify_response {fl : FlashCalls} {d : Dev} {g : OtaFrame} {r : Handled}
    (hh : Handles z fl d g r) (hc : g.IsCmd cmdVerifyFirmware) :
    ∃ status w, response r.1 = some (ackBytes status w) := by
  cases hh with
  | verifyRefused => exact ⟨0xFF, 0xFFFFFFFF, rfl⟩
  | verifyReadFailed => exact ⟨0xFF, 0xFFFFFFFF, by simp; rfl⟩
  | verifyMatch => exact ⟨0x00, _, response_verifyRun _⟩
  | verifyMismatch _ _ crc => exact ⟨0x01, crc, response_verifyRun _⟩
  | inquiry _ _ hn => exact absurd hc.2 (hn _ (by simp))
  | ignored hn => exact absurd hc.1 hn
  | _ => grind

/-- SET_BOOT_FLAG(1), a poll of the log and RESET_RUN are all refused or unknown. -/
theorem refusable_frame (x : Exchange) (hc : frame.command ∈ [cmdSetBootFlag, Pc.cmdGetLog,
    cmdResetRun]) (hflag : frame.command = cmdSetBootFlag → frame.data = [1]) :
    Refusable (x.frame frame) := by
  have hcmd : (x.frame frame).cmd = frame.command := cmd_received frame x.junk
  constructor
  · rw [hcmd]
    simp only [List.mem_cons, List.not_mem_nil, or_false] at hc
    rcases hc with hc | hc | hc <;> rw [hc] <;> decide
  · intro hs
    have hdata := hflag (hcmd ▸ hs)
    have hp := payload_frame x (f := frame) (by rw [hdata]; decide)
    rw [hdata] at hp
    have hlen := dataLen_of_payload hp
    exact (Mem.slice_eq_iff hlen.symm).1 hp 0 (by rw [hlen]; decide)

/-! ## The steps -/

/-- What is known of the device at each point of an upgrade. -/
def Known (fw : List UInt8) (flag : UInt8) : Station → Bench → Prop
  | .connected | .informed => Unbooted flag
  | .started _ | .transferred | .completed => Transferring fw flag
  | .verified | .flagged => Finishing fw flag

theorem Known.unbooted (station : Station) (h : Known fw flag station b) : Unbooted flag b := by
  cases station with
  | connected | informed => exact h
  | started | transferred | completed => exact h.1
  | verified | flagged => exact h.1

section

variable (hW : Tame z W)
include hW

/-- START is accepted by the very exchange whose response is accepted. -/
theorem start_stored {fwCrc : UInt32} :
    Triple (world W) (fun _ => Unbooted flag) (Unbooted flag)
      (step .erasing (Pc.startFrame fw fwCrc) label config settleStart)
      fun _ => Transferring fw flag := by
  have hc : NotBoot Pc.cmdStartUpgrade := by decide
  refine step_tame hW unbooted_emit (fun _ _ h => h)
    (fun _ x h => unbooted_exchange hc x h) (fun _ => transferring_emit) ?_
  intro b x resp _ hb hr herr _
  obtain ⟨he, hu⟩ := hb.exchange (z := z) (x := x)
    (bootIdle_of_command (f := Pc.startFrame fw fwCrc) hc.1 hc.2 _)
  refine ⟨hu, ?_⟩
  rw [Bench.exchange_device, he]
  exact filling_of_start (handles_frame x b.device _) (isCmd_frame x rfl)
    (he ▸ response_of_firstResponse hr) (isErrorResponse_eq_false_iff.1 herr)

theorem cancelTransfer_stored {Q : Unit → Bench → Prop} :
    Triple (world W) (fun _ => Unbooted flag) (Unbooted flag) Engine.cancelTransfer Q :=
  cancelTransfer_triple
    (writeFrame_tame hW fun _ x h =>
      unbooted_exchange (show NotBoot Pc.cmdCancelUpgrade by decide) x h)
    (emit_tame hW fun b => unbooted_emit b _)

/-- The packets may come in any order, and any number of times. -/
theorem transfer_stored (hfw : fw.length < 2 ^ 32) {chunkSize : Nat} (hchunk : chunkSize ≤ 4096) :
    Triple (world W) (fun _ => Unbooted flag) (Transferring fw flag)
      (Engine.transfer fw (UInt32.ofNat fw.length) chunkSize config)
      fun _ => Transferring fw flag := by
  refine transfer_triple (T := fun _ packets b =>
    (∀ pkt ∈ packets, pkt ∈ Pc.splitIntoPackets fw chunkSize) ∧ Transferring fw flag b) hchunk
    (emit_tame hW fun b h => ⟨fun _ hpkt => hpkt, transferring_emit b _ h⟩) ?_ fun _ _ h => h.2
  intro i pkt packets hlen
  refine Triple.of_and fun hpackets => ?_
  obtain ⟨hpkt, hpackets⟩ := List.forall_mem_cons.1 hpackets
  obtain ⟨hne, pre, post, heq, hoff⟩ := Pc.piece_of_mem hpkt
  refine transferPacket_triple (C := Unbooted flag) (B := Transferring fw flag)
    (R := fun _ => Transferring fw flag) hlen (look_tame hW fun _ h => h.1)
    (cancelTransfer_stored hW) ?_ (fun _ _ _ h _ => h.1)
    fun _ _ => emit_tame hW fun b h => ⟨hpackets, transferring_emit b _ h⟩
  have hexchange (total : UInt16) (b : Bench) (x : Exchange) (h : Transferring fw flag b) :
      Transferring fw flag (b.exchange z x (Pc.dataFrame total i pkt)) :=
    transferring_exchange hfw (fills_data hfw heq hoff hne hlen) h
  exact sendFrame_tame hW transferring_emit (fun _ _ h => h.1) (hexchange _)
    fun b x _ hb _ => hexchange _ b x hb

/-- VERIFY is answered 0x00 by the very exchange whose response is accepted. -/
theorem verify_stored (hfw : fw.length < 2 ^ 32) {fwCrc : UInt32} :
    Triple (world W) (fun _ => Unbooted flag) (Transferring fw flag)
      (step .verifying (Pc.plainFrame Pc.cmdVerifyFirmware []) label config (settleVerify fwCrc))
      fun _ => Finishing fw flag := by
  have hfills (x : Exchange) : Fills fw (x.frame (Pc.plainFrame Pc.cmdVerifyFirmware [])) :=
    fills_verify rfl
  refine step_tame hW transferring_emit (fun _ _ h => h.1)
    (fun _ x h => transferring_exchange hfw (hfills x) h) (fun _ => finishing_emit) ?_
  intro b x resp _ hb hr _ hvalue
  obtain ⟨he, hu⟩ := hb.1.exchange (z := z) ((hfills x).bootIdle b.device)
  have hh := handles_frame (z := z) x b.device (Pc.plainFrame Pc.cmdVerifyFirmware [])
  have hc : (x.frame (Pc.plainFrame Pc.cmdVerifyFirmware [])).IsCmd cmdVerifyFirmware :=
    isCmd_frame x rfl
  obtain ⟨status, w, hdata⟩ := verify_response hh hc
  rw [he] at hr
  have hresp := response_of_firstResponse hr
  have hparse : Pc.parseVerifyResponse resp = some (status, w) :=
    parseStatusWord_ackBytes (Option.some.inj (hresp.symm.trans hdata))
  refine ⟨hu, ?_⟩
  rw [Bench.exchange_device, he]
  refine stored_of_verify hb.2 hh hc ?_
  rw [answer, hdata, settleVerify_value hparse hvalue]
  rfl

/-- **The steps of an upgrade**, whatever is lost. -/
theorem walk_stored (hfw : fw.length < 2 ^ 32) (config : OtaConfig) (fwCrc : UInt32) :
    Walk (world W) (fun _ => Unbooted flag) config fw fwCrc (Unbooted flag) (Known fw flag)
      fun _ => Finishing fw flag where
  look station := failIfCancelled_triple (look_tame hW fun _ => Known.unbooted station)
  handshake := step_any_tame hW unbooted_emit (fun _ _ h => h) fun _ x h =>
    unbooted_exchange (by decide) x h
  getDeviceInfo := step_tame hW unbooted_emit (fun _ _ h => h)
    (fun _ x h => unbooted_exchange (by decide) x h) (fun _ => unbooted_emit)
    fun _ x _ _ h _ _ _ => unbooted_exchange (by decide) x h
  startUpgrade := start_stored hW
  transfer _ _ hchunk := transfer_stored hW hfw hchunk
  transferComplete := step_any_tame hW transferring_emit
    (fun _ _ h => h.1) fun _ _ h => transferring_exchange hfw (fills_done hfw fwCrc) h
  verifyFirmware := verify_stored hW hfw
  setBootFlag := by
    have hflag (b : Bench) (x : Exchange) (h : Finishing fw flag b) : Finishing fw flag
        (b.exchange z x (Pc.plainFrame Pc.cmdSetBootFlag [0x01])) :=
      finishing_exchange (refusable_frame x (List.mem_cons_self ..) fun _ => rfl) h
    refine setBootFlag_triple (emit_tame hW fun b => finishing_emit b _)
      (sendFrame_tame hW finishing_emit (fun _ _ h => h.1) hflag
        fun b x _ hb _ => hflag b x hb)
      (fun _ => pollLogs_tame hW fun _ x h =>
        finishing_exchange (refusable_frame x (by decide) (by decide)) h)
      fun _ => report_tame hW finishing_emit (fun _ _ h => h.1) fun _ _ _ h => h
  finish := (step_any_tame hW finishing_emit (fun _ _ h => h.1) fun _ x h =>
    finishing_exchange (refusable_frame x (by decide) (by decide)) h).bind
      fun _ => emit_tame hW fun b => finishing_emit b _

/-! ## The whole upgrade -/

/-- What a finished thread leaves. -/
def Reported (loaded : Except String (List UInt8)) (flag : UInt8) (result : Except String Unit)
    (b : Bench) : Prop :=
  Unbooted flag b ∧ (result = .ok () → ∃ fw, loaded = .ok fw ∧ Stored fw b.device)

theorem upgradeThread_stored (crc32fastHash : List UInt8 → UInt32)
    {loaded : Except String (List UInt8)} (hfw : ∀ fw, loaded = .ok fw → fw.length < 2 ^ 32) :
    Triple (world W) (fun _ => Unbooted flag) (Unbooted flag)
      (Pc.upgradeThread crc32fastHash loaded config) (Reported loaded flag) := by
  refine upgradeThread_triple (F := fun _ => Unbooted flag) (J := fun _ => Unbooted flag) ?_
    (fun _ h => h) (fun _ => ?_) fun e => ?_
  · cases loaded with
    | error e => exact (emitError_tame hW unbooted_emit).bind fun _ _ h => h
    | ok fw =>
      refine ((walk_stored hW (hfw fw rfl) _ _).doUpgrade crc32fastHash).mono ?_
      exact fun _ b hb => ⟨hb.1, fun _ => ⟨fw, rfl, hb.2⟩⟩
  · -- A failure is reported after a last poll of the log.
    exact pollLogs_tame hW fun _ x h => unbooted_exchange (by decide) x h
  · refine (emitError_tame hW unbooted_emit).mono ?_
    exact fun _ _ h => ⟨h, fun he => nomatch he⟩

end

/-- **`Ok` means stored, and never booted.** Over a lossy link, with any flash failures and any
cancellation: the upgrade thread leaves the boot flag as it was and never reboots the device; and
if `do_upgrade` returned `Ok`, slot1 begins with the firmware and the device has verified it. -/
theorem ok_means_stored (crc32fastHash : List UInt8 → UInt32)
    {loaded : Except String (List UInt8)} (hfw : ∀ fw, loaded = .ok fw → fw.length < 2 ^ 32)
    {d : Dev} (hd : d.rebooted = false) {r : Except Pc.Failure (Except String Unit)} {b : Bench}
    (hr : Runs (Lossy z) (Pc.upgradeThread crc32fastHash loaded config) (.start d) r b) :
    b.device.ota.bootFlag = d.ota.bootFlag ∧ .reboot ∉ b.effects ∧
      (r = .ok (.ok ()) → ∃ fw, loaded = .ok fw ∧ b.device.slot1.slice 0 fw.length = fw ∧
        b.device.ota.status = .verifying) := by
  have hstart : Unbooted d.ota.bootFlag (.start d) := ⟨rfl, hd, List.not_mem_nil⟩
  obtain ⟨hok, herr⟩ := hr.of_wp (upgradeThread_stored tame_lossy crc32fastHash hfw _ hstart)
  cases r with
  | error e =>
    have hu := herr e rfl
    exact ⟨hu.bootFlag, hu.reboot, fun h => nomatch h⟩
  | ok a =>
    obtain ⟨hu, hstored⟩ := hok a rfl
    refine ⟨hu.bootFlag, hu.reboot, fun h => ?_⟩
    obtain ⟨fw, hl, hs⟩ := hstored (Except.ok.inj h)
    exact ⟨fw, hl, hs.image, hs.status⟩

/-- An upgrade of the board with three bytes, on a good day, returns `Ok`. -/
theorem ok_means_stored_board :
    ∃ b, Runs (Lossy .standard) (Pc.upgradeThread Crc32.hash (.ok [1, 2, 3]) {})
        (.start .board) (.ok (.ok ())) b ∧ b.device.slot1.slice 0 3 = [1, 2, 3] ∧
      b.device.ota.status = .verifying ∧ b.device.ota.bootFlag = 0 ∧ Event.reboot ∉ b.effects := by
  have hr := runs_env (fun b op => (lossless_goodDay (z := .standard) b op).lossy)
    (Pc.upgradeThread Crc32.hash (.ok [1, 2, 3]) {}) (.start .board)
  have hreturns : (run (goodDay .standard) (Pc.upgradeThread Crc32.hash (.ok [1, 2, 3]) {})
      (.start .board)).1 = .ok (.ok ()) := by decide +kernel
  rw [hreturns] at hr
  have hfw : ∀ fw, (.ok [1, 2, 3] : Except String (List UInt8)) = .ok fw → fw.length < 2 ^ 32 :=
    fun fw hl => by obtain rfl := Except.ok.inj hl; decide
  obtain ⟨hflag, hreboot, hstored⟩ := ok_means_stored Crc32.hash hfw (by decide) hr
  obtain ⟨fw, hl, hslot, hstatus⟩ := hstored rfl
  obtain rfl := Except.ok.inj hl
  exact ⟨_, hr, hslot, hstatus, hflag, hreboot⟩

end ZephyrStm32.Ota.Link
