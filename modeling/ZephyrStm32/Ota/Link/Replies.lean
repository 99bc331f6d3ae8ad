import ZephyrStm32.Ota.Link.Filling
import ZephyrStm32.Ota.Link.Layouts

/-!
# What the device replies when nothing goes wrong

`Replies z d f data P`: however the junk on its stack looks, and with a working flash, the device
`d` answers the frame `f` with `data` and is in `P` afterwards, running and with its slot size. One
lemma for each request of an upgrade; `InSession`, `Completed` and `Stored` are the stations.
-/

namespace ZephyrStm32.Ota.Link

open Bytes (le32)
open Pc (Frame FirmwarePacket plainFrame)

variable {z : Zephyr} {d : Dev} {f : Frame} {fw : List UInt8}

/-- The device's answer to a frame, and what it is left in. -/
def Replies (z : Zephyr) (d : Dev) (f : Frame) (data : List UInt8) (P : Dev → Prop) : Prop :=
  ∀ x : Exchange, (∀ k, (x.flash k).err = 0) →
    response (x.handle z d f).1 = some data ∧ P (x.handle z d f).2 ∧
      (x.handle z d f).2.rebooted = false ∧ (x.handle z d f).2.ota.slotSize = d.ota.slotSize

theorem Replies.imp {data : List UInt8} {P P' : Dev → Prop} (h : Replies z d f data P)
    (hP : ∀ d, P d → P' d) : Replies z d f data P' := by
  intro x hx
  obtain ⟨hdata, hp, hrest⟩ := h x hx
  exact ⟨hdata, hP _ hp, hrest⟩

/-- It is enough to look at the handler, if that does not reboot. -/
theorem replies_of {data : List UInt8} {P : Dev → Prop}
    (h : ∀ x : Exchange, (∀ k, (x.flash k).err = 0) →
      response (otaFrameProcess z x.flash d (x.frame f)).1 = some data ∧
        P (otaFrameProcess z x.flash d (x.frame f)).2 ∧
        (otaFrameProcess z x.flash d (x.frame f)).2.rebooted = false) : Replies z d f data P := by
  intro x hx
  obtain ⟨hdata, hP, hrun⟩ := h x hx
  rw [handle_eq hrun]
  exact ⟨hdata, hP, hrun, (handles_frame x d f).slotSize⟩

/-- The request at the device, as `Dev.step` takes it. -/
theorem step_frame (hd : d.rebooted = false) (x : Exchange) :
    Dev.step z d ⟨x.frame f, x.flash⟩ = otaFrameProcess z x.flash d (x.frame f) :=
  step_running hd

/-! ## Requests that change nothing -/

theorem replies_handshake (hd : d.rebooted = false) : Replies z d (plainFrame cmdHandshake [])
    [d.ota.status.byte, protocolVersionMinor, protocolVersionMajor] (· = d) := by
  refine replies_of fun x _ => ?_
  rw [process_handshake (Or.inl (dstAddr_received _ x.junk)) (cmd_received _ x.junk)]
  exact ⟨rfl, rfl, hd⟩

theorem replies_getDevInfo (hd : d.rebooted = false) :
    Replies z d (plainFrame cmdGetDevInfo []) (devInfoBytes d.ota.slot0Offset) (· = d) := by
  refine replies_of fun x _ => ?_
  rw [process_devInfo (Or.inl (dstAddr_received _ x.junk)) (cmd_received _ x.junk)]
  exact ⟨rfl, rfl, hd⟩

/-- The device has no GET_LOG. -/
theorem replies_getLog (hd : d.rebooted = false) :
    Replies z d (plainFrame Pc.cmdGetLog []) fail4 (· = d) := by
  refine replies_of fun x _ => ?_
  have hcmd : (x.frame (plainFrame Pc.cmdGetLog [])).cmd = Pc.cmdGetLog := cmd_received _ x.junk
  rw [otaFrameProcess_addressed z _ d _ (Or.inl (dstAddr_received _ x.junk)), hcmd]
  exact ⟨rfl, rfl, hd⟩

theorem replies_cancel (hd : d.rebooted = false) :
    Replies z d (plainFrame cmdCancelUpgrade []) [0x00]
      (fun d' => d'.ota.status = .idle ∧ d'.slot1 = d.slot1) := by
  refine replies_of fun x _ => ?_
  have hcmd : (x.frame (plainFrame cmdCancelUpgrade [])).cmd = cmdCancelUpgrade :=
    cmd_received _ x.junk
  rw [otaFrameProcess_addressed z _ d _ (Or.inl (dstAddr_received _ x.junk)), hcmd]
  exact ⟨rfl, ⟨rfl, rfl⟩, hd⟩

/-! ## START -/

/-- The device takes a START. -/
def Ready (d : Dev) : Prop := d.ota.status = .idle ∨ d.ota.status = .complete

instance (d : Dev) : Decidable (Ready d) := inferInstanceAs (Decidable (_ ∨ _))

/-- The session that START opens. -/
def sessionOf (fw : List UInt8) (crc : UInt32) : Session :=
  ⟨UInt32.ofNat fw.length, crc, [], false⟩

section

variable {crc : UInt32}

theorem start_frame (x : Exchange) (fw : List UInt8) (crc : UInt32) :
    (x.frame (Pc.startFrame fw crc)).startSize = UInt32.ofNat fw.length ∧
      (x.frame (Pc.startFrame fw crc)).startCrc = crc ∧
      12 ≤ (x.frame (Pc.startFrame fw crc)).dataLen :=
  start_of_payload (payload_frame x (by simp [Pc.startFrame]))

theorem replies_start (hd : d.rebooted = false) (hready : Ready d)
    (hfit : fw.length ≤ d.ota.slotSize.toNat) : Replies z d (Pc.startFrame fw crc)
      (0x00 :: Bytes.le16 maxPacketSize ++ [100]) (InSession · (sessionOf fw crc)) := by
  refine replies_of fun x hx => ?_
  obtain ⟨hsize, hcrc, hlen⟩ := start_frame x fw crc
  have hle : UInt32.ofNat fw.length ≤ d.ota.slotSize := by
    rw [UInt32.le_iff_toNat_le, UInt32.toNat_ofNat_of_lt' (hfit.trans_lt d.ota.slotSize.toNat_lt)]
    exact hfit
  have hp : StartPasses d (x.frame (Pc.startFrame fw crc)) :=
    ⟨isCmd_frame x rfl, hlen, hready, hsize ▸ hle⟩
  have hh := handles_frame (z := z) x d (Pc.startFrame fw crc)
  obtain ⟨ha, he⟩ := hh.start_after hp (hx 0)
  have hs : Session.start (x.frame (Pc.startFrame fw crc)) = sessionOf fw crc := by
    rw [Session.start, hsize, hcrc, sessionOf]
  rw [he, ← hs]
  exact ⟨start_payload hh hp.cmd ha, ⟨receiving_start hp _, rfl, hd⟩, hd⟩

/-- A START that does not pass is refused, and leaves the status and slot1. -/
theorem replies_start_refused (hd : d.rebooted = false) (hfw : fw.length < 2 ^ 32)
    (h : ¬ (Ready d ∧ fw.length ≤ d.ota.slotSize.toNat)) :
    Replies z d (Pc.startFrame fw crc) fail4
      (fun d' => d'.ota.status = d.ota.status ∧ d'.slot1 = d.slot1) := by
  refine replies_of fun x hx => ?_
  obtain ⟨hsize, -, -⟩ := start_frame x fw crc
  have hn : ¬ StartPasses d (x.frame (Pc.startFrame fw crc)) := by
    intro hp
    have hle := UInt32.le_iff_toNat_le.1 (hsize ▸ hp.size)
    rw [UInt32.toNat_ofNat_of_lt' hfw] at hle
    exact h ⟨hp.status, hle⟩
  have hc : (x.frame (Pc.startFrame fw crc)).IsCmd cmdStartUpgrade := isCmd_frame x rfl
  generalize hr : otaFrameProcess z x.flash d (x.frame (Pc.startFrame fw crc)) = r
  have hh : Handles z x.flash d (x.frame (Pc.startFrame fw crc)) r :=
    hr ▸ handles_frame x d (Pc.startFrame fw crc)
  cases hh with
  | startRefused => exact ⟨rfl, ⟨rfl, rfl⟩, hd⟩
  | startTooLarge => exact ⟨rfl, ⟨rfl, rfl⟩, hd⟩
  | startEraseFailed hp | startAccepted hp => exact absurd hp hn
  | inquiry _ _ hc' => exact absurd hc.2 (hc' _ (by simp))
  | _ => grind

end

/-! ## DATA, DONE and VERIFY -/

theorem replies_data (hz : z.Documented) {s : Session} (h : InSession d s) {pkt : FirmwarePacket}
    {total : UInt16} {i : Nat} (hoff : pkt.offset = UInt32.ofNat s.bytes.length)
    (hfit : s.bytes.length + pkt.data.length ≤ s.size.toNat) (hlen : pkt.data.length ≤ 4096) :
    Replies z d (Pc.dataFrame total i pkt)
      (ackBytes 0x00 (UInt32.ofNat (s.bytes.length + pkt.data.length)))
      (InSession · (s.accept pkt.data)) := by
  refine replies_of fun x hx => ?_
  have hdata : (Pc.dataFrame total i pkt).data =
      le32 (UInt32.ofNat s.bytes.length) ++ pkt.data := by rw [Pc.dataFrame, hoff]
  have hshort : (Pc.dataFrame total i pkt).data.length ≤ 65535 := by
    rw [hdata, List.length_append, Bytes.length_le32]
    omega
  have hc : (x.frame (Pc.dataFrame total i pkt)).IsCmd cmdTransferData := isCmd_frame x rfl
  have hdel : Delivers ⟨x.frame (Pc.dataFrame total i pkt), x.flash⟩
      (cmdTransferData, le32 (UInt32.ofNat s.bytes.length) ++ pkt.data) :=
    ⟨hc, (payload_frame x hshort).trans hdata, hx⟩
  obtain ⟨ha, hs⟩ := h.data_step hz hdel hfit
  rw [step_frame h.running] at ha hs
  refine ⟨?_, hs, hs.running⟩
  have hlength : (s.accept pkt.data).bytes.length = s.bytes.length + pkt.data.length := by simp
  rw [data_payload (handles_frame x d _) hc ha, ← hlength, ← hs.received, UInt32.ofNat_toNat]

/-- All of `fw` is there and DONE was accepted. -/
structure Completed (fw : List UInt8) (d : Dev) : Prop where
  status : d.ota.status = .complete
  running : d.rebooted = false
  size : d.ota.firmwareSize.toNat = fw.length
  crc : d.ota.firmwareCrc = Crc32.hash fw
  image : d.slot1.slice 0 fw.length = fw

/-- All of `fw` is there, and DONE is accepted. -/
structure Filled (fw : List UInt8) (d : Dev) : Prop where
  inProgress : d.ota.inProgress = true
  received : d.ota.receivedSize = UInt32.ofNat fw.length
  image : d.slot1.slice 0 fw.length = fw

theorem filled_of_session {s : Session} (h : InSession d s) (hbytes : s.bytes = fw) :
    Filled fw d where
  inProgress := h.inProgress
  received := by rw [← hbytes, ← h.received, UInt32.ofNat_toNat]
  image := by
    have himage := h.image
    rwa [h.received, hbytes] at himage

/-- DONE may come again. -/
theorem replies_done (hfw : fw.length < 2 ^ 32) (hd : d.rebooted = false) (h : Filled fw d) :
    Replies z d (Pc.doneFrame fw (Crc32.hash fw)) (ackBytes 0x00 (UInt32.ofNat fw.length))
      (fun d' => Completed fw d' ∧ Filled fw d') := by
  refine replies_of fun x hx => ?_
  have hc : (x.frame (Pc.doneFrame fw (Crc32.hash fw))).IsCmd cmdTransferDone := isCmd_frame x rfl
  obtain ⟨hcrc, hsize⟩ := done_of_payload
    (payload_frame x (f := Pc.doneFrame fw (Crc32.hash fw)) (by simp [Pc.doneFrame]))
  have hh := handles_frame (z := z) x d (Pc.doneFrame fw (Crc32.hash fw))
  obtain ⟨ha, he⟩ := hh.done_after ⟨hc, h.inProgress, hsize.trans h.received.symm⟩
  have hresp := done_payload hh hc ha
  rw [he] at hresp ⊢
  refine ⟨h.received ▸ hresp, ⟨⟨rfl, hd, ?_, hcrc, h.image⟩, h.inProgress, h.received, h.image⟩, hd⟩
  change (x.frame (Pc.doneFrame fw (Crc32.hash fw))).doneSize.toNat = fw.length
  rw [hsize, UInt32.toNat_ofNat_of_lt' hfw]

theorem replies_verify (hz : z.Documented) (h : Completed fw d) :
    Replies z d (plainFrame cmdVerifyFirmware []) (ackBytes 0x00 (Crc32.hash fw)) (Stored fw) := by
  refine replies_of fun x hx => ?_
  have hh := handles_frame (z := z) x d (plainFrame cmdVerifyFirmware [])
  have hc : (x.frame (plainFrame cmdVerifyFirmware [])).IsCmd cmdVerifyFirmware := isCmd_frame x rfl
  have himage : imageCrc z d.slot1 d.ota.firmwareSize = d.ota.firmwareCrc := by
    rw [imageCrc_eq hz, h.size, h.image, h.crc]
  have ha := hh.verify_answer_iff.2
    ⟨hc, h.status, verifyRun_eq_some.2 ⟨fun k _ => hx k, himage⟩⟩
  obtain ⟨hresp, he⟩ := hh.verify_after hc ha.2
  rw [he]
  exact ⟨h.crc ▸ hresp, ⟨rfl, h.image⟩, h.running⟩

/-! ## SET_BOOT_FLAG and RESET_RUN -/

/-- Outside STATUS_COMPLETE both are refused with one byte of 0xFF. -/
theorem replies_refused (hd : d.rebooted = false) (hs : d.ota.status ≠ .complete)
    (ha : f.dstAddr = addrDevice)
    (hf : f.command = cmdSetBootFlag ∧ f.data = [1] ∨ f.command = cmdResetRun) :
    Replies z d f [0xFF] (· = d) := by
  refine replies_of fun x _ => ?_
  have hc : (x.frame f).IsCmd f.command := isCmd_frame x ha
  have hh := handles_frame (z := z) x d f
  generalize otaFrameProcess z x.flash d (x.frame f) = r at hh
  obtain ⟨hcmd, hdata⟩ | hcmd := hf
  · have hp := payload_frame x (f := f) (by rw [hdata]; decide)
    rw [hdata] at hp
    rw [hcmd] at hc
    have hlen := dataLen_of_payload hp
    have hflag : (x.frame f).data 0 = 1 :=
      (Mem.slice_eq_iff hlen.symm).1 hp 0 (by rw [hlen]; decide)
    cases hh with
    | flagRefused => exact ⟨rfl, rfl, hd⟩
    | flagSet _ _ _ hs' => exact absurd hs' hs
    | flagCleared _ _ hflag' =>
      rw [hflag] at hflag'
      cases hflag'
    | inquiry _ _ hn => exact absurd hc.2 (hn _ (by simp))
    | ignored hn => exact absurd hc.1 hn
    | _ => grind
  · rw [hcmd] at hc
    cases hh with
    | resetRefused => exact ⟨rfl, rfl, hd⟩
    | resetAccepted _ hs' => exact absurd hs' hs
    | inquiry _ _ hn => exact absurd hc.2 (hn _ (by simp))
    | ignored hn => exact absurd hc.1 hn
    | _ => grind

end ZephyrStm32.Ota.Link
