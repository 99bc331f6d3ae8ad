import ZephyrStm32.Ota.Device.Flow
import ZephyrStm32.Ota.Link.Bench
import ZephyrStm32.Ota.Pc.Plan

/-!
# The device under the requests of an upgrade

`Filling` says, for each status, what slot1 holds since a START for a firmware was accepted;
`Filling.step` keeps it under every DATA, DONE and VERIFY the PC may send for that firmware, in any
order, any number of times and with any flash failures. `Stored` takes over once a VERIFY was
answered 0x00.

`Unbooted` follows the boot flag and the reboot: `Stored.step` shows the device refuse both, since
the status is VERIFYING by then.
-/

namespace ZephyrStm32.Ota.Link

open Bytes (le32)
open Interact
open Pc (Frame FirmwarePacket Op OtaConfig Engine Failure)

variable {z : Zephyr} {fl : FlashCalls} {d : Dev} {g : OtaFrame} {r : Handled} {fw : List UInt8}

/-! ## The boot flag and the reboot -/

/-- Nothing but SET_BOOT_FLAG and RESET_RUN has to do with booting, and these two only in
STATUS_COMPLETE. -/
structure BootIdle (d : Dev) (g : OtaFrame) : Prop where
  flag : g.cmd = cmdSetBootFlag → g.data 0 = 1 ∧ d.ota.status ≠ .complete
  reset : g.cmd = cmdResetRun → d.ota.status ≠ .complete

theorem reboot_not_mem_verifyRun : Event.reboot ∉ (verifyRun z fl d).1 := by
  intro h
  obtain ⟨_, _, he⟩ := verifyRun_reads _ h
  cases he

theorem handles_bootIdle (h : Handles z fl d g r) (hg : BootIdle d g) :
    r.2.ota.bootFlag = d.ota.bootFlag ∧ r.2.rebooted = d.rebooted ∧ .reboot ∉ r.1 := by
  have hread : Event.reboot ∉ (verifyRun z fl d).1 := reboot_not_mem_verifyRun
  cases h with
  | resetAccepted hc hs => exact absurd hs (hg.reset hc.2)
  | flagSet hc _ _ hs => exact absurd hs (hg.flag hc.2).2
  | flagCleared hc _ hflag =>
    rw [(hg.flag hc.2).1] at hflag
    cases hflag
  | verifyReadFailed | verifyMatch | verifyMismatch =>
    exact ⟨rfl, rfl, by simpa using hread⟩
  | _ => exact ⟨rfl, rfl, by simp⟩

/-! ## What slot1 holds -/

/-- What is known of a device since START was accepted for `fw`. -/
structure Filling (fw : List UInt8) (d : Dev) : Prop where
  busy : d.ota.status ≠ .idle
  offset : d.ota.currentOffset = d.ota.receivedSize
  le : d.ota.receivedSize.toNat ≤ fw.length
  receiving : d.ota.status = .receiving →
    d.slot1.slice 0 d.ota.receivedSize.toNat = fw.take d.ota.receivedSize.toNat
  whole : d.ota.receivedSize.toNat = fw.length → d.slot1.slice 0 fw.length = fw
  finished : d.ota.status = .complete ∨ d.ota.status = .verifying →
    d.ota.receivedSize.toNat = fw.length

/-- The request is one of those behind START: DATA with a piece of `fw` at its place, DONE with the
size of `fw`, VERIFY. -/
structure Fills (fw : List UInt8) (g : OtaFrame) : Prop where
  cmd : g.cmd ∈ [cmdTransferData, cmdTransferDone, cmdVerifyFirmware]
  data : g.cmd = cmdTransferData → g.fwData ≠ [] ∧
    ∃ pre post, fw = pre ++ g.fwData ++ post ∧ g.offset.toNat = pre.length
  done : g.cmd = cmdTransferDone → g.doneSize.toNat = fw.length

theorem Fills.bootIdle (h : Fills fw g) (d : Dev) : BootIdle d g := by
  have hc := h.cmd
  constructor <;>
  · intro he
    rw [he] at hc
    simp [cmdSetBootFlag, cmdResetRun, cmdTransferData, cmdTransferDone, cmdVerifyFirmware] at hc

/-- A START that is accepted opens the session with nothing received. -/
theorem filling_start (g : OtaFrame) (m : Mem) :
    Filling fw { d with ota := { d.ota.erasing g with status := .receiving }, slot1 := m } where
  busy := by simp
  offset := rfl
  le := Nat.zero_le _
  receiving := fun _ => rfl
  whole := by
    intro h
    have h : 0 = fw.length := h
    rw [List.eq_nil_of_length_eq_zero h.symm]
    rfl
  finished := by simp

theorem Filling.failed (h : Filling fw d) (e : ErrorCode) :
    Filling fw { d with ota := d.ota.failed e } where
  busy := by simp [OtaState.failed]
  offset := h.offset
  le := h.le
  receiving := by simp [OtaState.failed]
  whole := h.whole
  finished := by simp [OtaState.failed]

/-- A packet that was not written was not the rest of the image, so that nothing is promised of
slot1. -/
theorem Filling.spoiled (h : Filling fw d) (hlt : d.ota.receivedSize.toNat < fw.length)
    (e : ErrorCode) (m : Mem) : Filling fw { d with ota := d.ota.failed e, slot1 := m } where
  busy := by simp [OtaState.failed]
  offset := h.offset
  le := h.le
  receiving := by simp [OtaState.failed]
  whole := fun hw => absurd hw hlt.ne
  finished := by simp [OtaState.failed]

/-- A packet that passes its guards continues what slot1 holds. -/
theorem Filling.fits (h : Filling fw d) (hg : Fills fw g) (hfw : fw.length < 2 ^ 32)
    (hp : DataPasses d g) :
    d.ota.receivedSize.toNat < fw.length ∧
      (d.ota.advanced z g).receivedSize.toNat = d.ota.receivedSize.toNat + g.fwData.length ∧
      fw.take (d.ota.receivedSize.toNat + g.fwData.length) =
        fw.take d.ota.receivedSize.toNat ++ g.fwData := by
  obtain ⟨hne, pre, post, heq, hoff⟩ := hg.data hp.cmd.2
  have hpos : 0 < g.fwData.length := List.length_pos_of_ne_nil hne
  rw [hp.offset, h.offset] at hoff
  have hlen : fw.length = pre.length + g.fwData.length + post.length := by
    rw [heq, List.length_append, List.length_append]
  rw [hoff]
  refine ⟨by omega, ?_, ?_⟩
  · simp only [OtaState.advanced, UInt32.toNat_add, UInt16.toNat_toUInt32, hoff,
      ← OtaFrame.length_fwData]
    exact Nat.mod_eq_of_lt (by omega)
  · have hpre : fw.take pre.length = pre := by rw [heq, List.append_assoc, List.take_left]
    rw [hpre, heq, List.take_left' List.length_append]

theorem Filling.accept (h : Filling fw d) (hg : Fills fw g) (hfw : fw.length < 2 ^ 32)
    (hp : DataPasses d g) :
    Filling fw { d with
      ota := d.ota.advanced z g, slot1 := d.slot1.write g.offset.toNat g.fwData } := by
  obtain ⟨hlt, hsize, htake⟩ := h.fits (z := z) hg hfw hp
  have hslice : (d.slot1.write g.offset.toNat g.fwData).slice 0
      (d.ota.advanced z g).receivedSize.toNat =
      fw.take (d.ota.advanced z g).receivedSize.toNat := by
    have hw := Mem.slice_write_append d.slot1 0 d.ota.receivedSize.toNat g.fwData
    rw [Nat.zero_add, h.receiving hp.status] at hw
    rw [hsize, htake, hp.offset, h.offset]
    exact hw
  refine ⟨h.busy, ?_, ?_, fun _ => hslice, ?_, ?_⟩
  · exact congrArg (· + g.fwLen.toUInt32) h.offset
  · change (d.ota.advanced z g).receivedSize.toNat ≤ fw.length
    obtain ⟨-, pre, post, heq, hoff⟩ := hg.data hp.cmd.2
    rw [hp.offset, h.offset] at hoff
    rw [hsize, hoff, heq, List.length_append, List.length_append]
    omega
  · intro hw
    have hw : (d.ota.advanced z g).receivedSize.toNat = fw.length := hw
    rw [hw, List.take_length] at hslice
    exact hslice
  · intro hs
    have hs : d.ota.status = .complete ∨ d.ota.status = .verifying := hs
    rw [hp.status] at hs
    simp at hs

/-- **One request.** -/
theorem Filling.step (h : Filling fw d) (hg : Fills fw g) (hfw : fw.length < 2 ^ 32)
    (hh : Handles z fl d g r) : Filling fw r.2 := by
  have hother : ∀ c, g.IsCmd c → c ∉ [cmdTransferData, cmdTransferDone, cmdVerifyFirmware] →
      Filling fw r.2 := by
    intro c hc hn
    exact absurd (hc.2 ▸ hg.cmd) hn
  cases hh with
  | dataOffset => exact h.failed _
  | dataTooLarge => exact h.failed _
  | dataWriteFailed hp => exact h.spoiled (h.fits (z := z) hg hfw hp).1 _ _
  | dataAccepted hp => exact h.accept hg hfw hp
  | doneMismatch => exact h.failed _
  | doneAccepted hp =>
    refine ⟨by simp [OtaState.completed], h.offset, h.le, by simp [OtaState.completed], h.whole,
      fun _ => ?_⟩
    have hsize := hg.done hp.cmd.2
    rw [hp.size] at hsize
    exact hsize
  | verifyReadFailed => exact h.failed _
  | verifyMatch _ hs | verifyMismatch _ hs =>
    exact ⟨by simp [OtaState.verified], h.offset, h.le, by simp [OtaState.verified], h.whole,
      fun _ => h.finished (Or.inl hs)⟩
  | ignored | inquiry | dataRefused | doneRefused | verifyRefused => exact h
  | startRefused hc => exact hother _ hc (by decide)
  | startTooLarge hc => exact hother _ hc (by decide)
  | startEraseFailed hp | startAccepted hp => exact hother _ hp.cmd (by decide)
  | resetRefused hc | resetAccepted hc => exact hother _ hc (by decide)
  | cancelled hc | flagSet hc | flagCleared hc | flagRefused hc => exact hother _ hc (by decide)

/-- VERIFY was answered 0x00 after the whole firmware had come, and nothing has happened since. -/
structure Stored (fw : List UInt8) (d : Dev) : Prop where
  status : d.ota.status = .verifying
  image : d.slot1.slice 0 fw.length = fw

/-- A request that the device refuses in STATUS_VERIFYING, or only answers. -/
structure Refusable (g : OtaFrame) : Prop where
  cmd : g.cmd ∉ [cmdStartUpgrade, cmdTransferData, cmdTransferDone, cmdVerifyFirmware,
    cmdCancelUpgrade]
  flag : g.cmd = cmdSetBootFlag → g.data 0 = 1

theorem Stored.step (h : Stored fw d) (hg : Refusable g) (hh : Handles z fl d g r) :
    BootIdle d g ∧ Stored fw r.2 := by
  have hs : d.ota.status ≠ .complete := by simp [h.status]
  refine ⟨⟨fun hc => ⟨hg.flag hc, hs⟩, fun _ => hs⟩, ?_⟩
  have hother : ∀ c, g.IsCmd c → c ∈ [cmdStartUpgrade, cmdTransferData, cmdTransferDone,
      cmdVerifyFirmware, cmdCancelUpgrade] → Stored fw r.2 := by
    intro c hc hm
    exact absurd (hc.2 ▸ hm) hg.cmd
  cases hh with
  | ignored | inquiry | resetRefused | flagRefused | flagCleared => exact ⟨h.status, h.image⟩
  | resetAccepted _ hs' | flagSet _ _ _ hs' => exact absurd hs' hs
  | startRefused hc => exact hother _ hc (by decide)
  | startTooLarge hc => exact hother _ hc (by decide)
  | startEraseFailed hp | startAccepted hp => exact hother _ hp.cmd (by decide)
  | dataRefused hc => exact hother _ hc (by decide)
  | dataOffset hp | dataTooLarge hp => exact hother _ hp.cmd (by decide)
  | dataWriteFailed hp | dataAccepted hp => exact hother _ hp.cmd (by decide)
  | doneRefused hc | doneMismatch hc => exact hother _ hc (by decide)
  | doneAccepted hp => exact hother _ hp.cmd (by decide)
  | verifyRefused hc | verifyReadFailed hc | verifyMatch hc | verifyMismatch hc =>
    exact hother _ hc (by decide)
  | cancelled hc => exact hother _ hc (by decide)

/-! ## The requests of an upgrade -/

/-- The device of an upgrade that has not been booted, nor made ready for it. -/
structure Unbooted (flag : UInt8) (b : Bench) : Prop where
  bootFlag : b.device.ota.bootFlag = flag
  running : b.device.rebooted = false
  reboot : .reboot ∉ b.effects

variable {b : Bench} {flag : UInt8} {x : Exchange} {f : Frame}

/-- The device does not reboot, and is left as the handler leaves it. -/
theorem Unbooted.exchange (h : Unbooted flag b) (hg : BootIdle b.device (x.frame f)) :
    x.handle z b.device f = otaFrameProcess z x.flash b.device (x.frame f) ∧
      Unbooted flag (b.exchange z x f) := by
  obtain ⟨hflag, hrun, hreboot⟩ := handles_bootIdle (handles_frame (z := z) x b.device f) hg
  have he : x.handle z b.device f = otaFrameProcess z x.flash b.device (x.frame f) :=
    handle_eq (hrun.trans h.running)
  refine ⟨he, ?_, ?_, ?_⟩
  · rw [Bench.exchange_device, he, hflag, h.bootFlag]
  · rw [Bench.exchange_device, he, hrun, h.running]
  · rw [Bench.exchange_effects, he, List.mem_append]
    exact not_or.2 ⟨h.reboot, hreboot⟩

/-- The answer the PC gets is the device's response. -/
theorem response_of_firstResponse {es : List Event} {resp : Frame}
    (h : firstResponse es = .ok resp) : response es = some resp.data := by
  induction es with
  | nil => cases h
  | cons e es ih =>
    cases e with
    | send seq cmd data =>
      obtain rfl := Except.ok.inj h
      rfl
    | _ => exact ih h

theorem isErrorResponse_iff : f.isErrorResponse = true ↔ f.data = fail4 := by
  rw [Frame.isErrorResponse, Bool.and_eq_true, beq_iff_eq, beq_iff_eq]
  exact ⟨And.right, fun hd => ⟨congrArg List.length hd, hd⟩⟩

theorem isErrorResponse_eq_false_iff : f.isErrorResponse = false ↔ f.data ≠ fail4 := by
  rw [← Bool.not_eq_true, isErrorResponse_iff]

/-- A START whose response is no error was accepted. -/
theorem filling_of_start (hh : Handles z fl d g r) (hc : g.IsCmd cmdStartUpgrade)
    {data : List UInt8} (hr : response r.1 = some data) (hd : data ≠ fail4) : Filling fw r.2 := by
  have hrefused : ∀ es, response es = some fail4 → es = r.1 → Filling fw r.2 := by
    rintro es hes rfl
    exact absurd (Option.some.inj (hr.symm.trans hes)) hd
  cases hh with
  | startAccepted => exact filling_start g _
  | startRefused | startTooLarge | startEraseFailed => exact hrefused _ rfl rfl
  | inquiry _ _ hn => exact absurd hc.2 (hn _ (by simp))
  | ignored hn => exact absurd hc.1 hn
  | _ => grind

/-- A VERIFY whose response says 0x00 matched. -/
theorem stored_of_verify (h : Filling fw d) (hh : Handles z fl d g r)
    (hc : g.IsCmd cmdVerifyFirmware) (ha : answer r.1 = some 0x00) : Stored fw r.2 := by
  have hs := (hh.verify_answer_iff.1 ⟨hc, ha⟩).2.1
  have he := (hh.verify_after hc ha).2
  rw [he]
  exact ⟨rfl, h.whole (h.finished (Or.inl hs))⟩

/-! ## The frames of the PC, as they arrive -/

theorem payload_frame (x : Exchange) (h : f.data.length ≤ 65535) : (x.frame f).payload = f.data :=
  (frame_shows x h).payload

/-- A frame with one of the other commands. -/
theorem bootIdle_of_command (hc : f.command ≠ cmdSetBootFlag) (hr : f.command ≠ cmdResetRun)
    (d : Dev) : BootIdle d (x.frame f) where
  flag h := absurd ((cmd_received f x.junk).symm.trans h) hc
  reset h := absurd ((cmd_received f x.junk).symm.trans h) hr

theorem fills_data {pre post : List UInt8} {pkt : FirmwarePacket} {total : UInt16} {i : Nat}
    (hfw : fw.length < 2 ^ 32) (heq : fw = pre ++ pkt.data ++ post)
    (hoff : pkt.offset = UInt32.ofNat pre.length) (hne : pkt.data ≠ [])
    (hlen : pkt.data.length ≤ 65531) : Fills fw (x.frame (Pc.dataFrame total i pkt)) := by
  have hcmd : (x.frame (Pc.dataFrame total i pkt)).cmd = cmdTransferData := cmd_received _ x.junk
  have hpay : (x.frame (Pc.dataFrame total i pkt)).payload = le32 pkt.offset ++ pkt.data := by
    refine payload_frame x ?_
    rw [Pc.dataFrame, List.length_append, Bytes.length_le32]
    omega
  obtain ⟨hoffset, hdata, -⟩ := data_of_payload hpay
  refine ⟨by simp [hcmd], fun _ => ?_, fun hc => ?_⟩
  · rw [hdata, hoffset, hoff]
    refine ⟨hne, pre, post, heq, UInt32.toNat_ofNat_of_lt' ?_⟩
    have hle := congrArg List.length heq
    rw [List.length_append, List.length_append] at hle
    change pre.length < 2 ^ 32
    omega
  · rw [hcmd] at hc
    exact absurd hc (by decide)

theorem fills_done (hfw : fw.length < 2 ^ 32) (crc : UInt32) :
    Fills fw (x.frame (Pc.doneFrame fw crc)) := by
  have hcmd : (x.frame (Pc.doneFrame fw crc)).cmd = cmdTransferDone := cmd_received _ x.junk
  have hpay := payload_frame x (f := Pc.doneFrame fw crc) (by simp [Pc.doneFrame])
  refine ⟨by simp [hcmd], fun hc => ?_, fun _ => ?_⟩
  · rw [hcmd] at hc
    exact absurd hc (by decide)
  · rw [(done_of_payload hpay).2]
    exact UInt32.toNat_ofNat_of_lt' hfw

theorem fills_verify (hc : f.command = cmdVerifyFirmware) : Fills fw (x.frame f) := by
  have hcmd : (x.frame f).cmd = cmdVerifyFirmware := (cmd_received f x.junk).trans hc
  refine ⟨by simp [hcmd], fun h => ?_, fun h => ?_⟩
  · rw [hcmd] at h
    exact absurd h (by decide)
  · rw [hcmd] at h
    exact absurd h (by decide)

end ZephyrStm32.Ota.Link
