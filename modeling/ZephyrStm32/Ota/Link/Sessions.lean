import ZephyrStm32.Ota.Link.Replies
import ZephyrStm32.Ota.Link.Stored

/-!
# Upgrade after upgrade, when nothing goes wrong

What the user sees of a device is little: whether it takes a START, and the image it got last.
`Target` is that abstract device; an upgrade that fits succeeds once, and then every other one fails
until CANCEL.

**Theorem (`sessions_refine`).** Over a lossless link, with a working flash, whatever sequence of
upgrades and cancellations the user makes: the upgrades return what the abstract device says, with
these error texts, and the device stays in the state that it stands for.

`upgrade_lossless` is the same for one upgrade. VERIFY leaves the status VERIFYING, in which START
is refused; that is why a second upgrade fails.
-/

namespace ZephyrStm32.Ota.Link

open Interact
open Pc (Frame FirmwarePacket Op OtaConfig OtaEvent Engine UpgradeStage Failure plainFrame
  upgradeThread_triple)
open Pc.Engine (Attempts Outcome Station Settled Walk checked checked_of_not_error
  failIfCancelled_triple pollLogs_triple report_triple setBootFlag_triple settleAny settleDeviceInfo
  settleStart settleVerify step step_triple transferPacket transferPacket_triple transfer_triple)

variable {z : Zephyr} {fw : List UInt8} {b : Bench} {config : OtaConfig} {f : Frame}
  {label : String} {size : UInt32}

/-! ## Rules for a link that loses nothing -/

/-- The device is in `P`, runs and has this slot size. -/
structure At (size : UInt32) (P : Dev → Prop) (b : Bench) : Prop where
  device : P b.device
  running : b.device.rebooted = false
  slotSize : b.device.ota.slotSize = size

theorem At.emit {P : Dev → Prop} (h : At size P b) (e : OtaEvent) : At size P (b.emit e) :=
  ⟨h.device, h.running, h.slotSize⟩

theorem At.imp {P P' : Dev → Prop} (h : At size P b) (hP : P b.device → P' b.device) :
    At size P' b :=
  ⟨hP h.device, h.running, h.slotSize⟩

theorem firstResponse_of_response {es : List Event} {data : List UInt8}
    (h : response es = some data) : ∃ resp, firstResponse es = .ok resp ∧ resp.data = data := by
  induction es with
  | nil => cases h
  | cons e es ih =>
    cases e with
    | send seq cmd payload => exact ⟨_, rfl, Option.some.inj h⟩
    | _ => exact ih h

section

variable {α : Type} {data : List UInt8} {P P' : Dev → Prop} {E : Failure → Bench → Prop}
  {stage : UpgradeStage} {settle : Frame → Settled α} {Q : α → Bench → Prop}

theorem look_lossless {I C : Bench → Prop} :
    Triple (world (Lossless z)) E I Engine.isCancelled fun cancelled b =>
      if cancelled then C b else I b := by
  intro b hb cancelled b' hstep
  cases hstep
  exact hb

theorem emit_lossless {e : OtaEvent} :
    Triple (world (Lossless z)) E (At size P) (Engine.emit e) fun _ => At size P :=
  emit_tame tame_lossless fun _ h => h.emit e

theorem emitError_lossless {message : String} :
    Triple (world (Lossless z)) E (At size P) (Engine.emitError message) fun _ => At size P :=
  emitError_tame tame_lossless fun _ e h => h.emit e

variable (hrep : ∀ b, At size P b → Replies z b.device f data P')
include hrep

/-- An exchange brings the device's reply. -/
theorem sendAndRecv_replies {timeoutMs : Nat} :
    Triple (world (Lossless z)) E (At size P) (Engine.sendAndRecv f timeoutMs) fun x b =>
      ∃ resp, x = .ok resp ∧ resp.data = data ∧ At size P' b := by
  intro b hb a b' hstep
  cases hstep with
  | arrives _ _ _ x hx hflash =>
    obtain ⟨hresp, hP, hrun, hsize⟩ := hrep b hb x hflash
    obtain ⟨resp, hfirst, hdata⟩ := firstResponse_of_response hresp
    rw [← Bench.exchange_device] at hP hrun hsize
    rw [hx]
    exact ⟨resp, hfirst, hdata, hP, hrun, hsize.trans hb.slotSize⟩

variable (hn : 0 < config.maxRetries)
include hn

/-- The first attempt is enough. -/
theorem sendFrame_replies : Triple (world (Lossless z)) E (At size P)
    (Engine.sendFrame f label config) fun resp b => resp.data = data ∧ At size P' b := by
  have hattempts : Attempts (world (Lossless z)) E config f
      (fun left b => left ≠ 0 ∧ At size P b) (fun _ => At size P) (fun _ _ => False)
      fun resp b => resp.data = data ∧ At size P' b := by
    refine ⟨fun _ h => absurd rfl h.1, fun _ b hb => look_lossless b hb.2, fun _ => ?_,
      fun _ _ h => h.elim, fun _ _ h => h.elim⟩
    refine (sendAndRecv_replies hrep).mono ?_
    rintro _ b ⟨resp, rfl, hb⟩
    exact hb
  exact fun b hb => hattempts.sendFrame b ⟨hn.ne', hb⟩

/-- A step whose reply is any but four bytes of 0xFF. -/
theorem step_replies (hdata : data ≠ fail4) (hreport : ∀ resp, resp.data = data →
      Triple (world (Lossless z)) E (At size P') (settle resp).report Q) :
    Triple (world (Lossless z)) E (At size P) (step stage f label config settle) Q := by
  refine step_triple emit_lossless (sendFrame_replies hrep hn) fun resp => ?_
  refine Triple.of_and fun hd => ?_
  rw [checked_of_not_error (isErrorResponse_eq_false_iff.2 (hd ▸ hdata))]
  exact hreport resp hd

/-- A step that is done when it is answered. -/
theorem step_any_replies (hdata : data ≠ fail4) : Triple (world (Lossless z)) E (At size P)
    (step stage f label config settleAny) fun _ => At size P' :=
  step_replies hrep hn hdata fun _ _ _ h => h

end

/-- A step that is answered with four bytes of 0xFF. -/
theorem step_refused {α : Type} {P P' : Dev → Prop} {E : Failure → Bench → Prop}
    {stage : UpgradeStage} {settle : Frame → Settled α} {Q : α → Bench → Prop}
    (hrep : ∀ b, At size P b → Replies z b.device f fail4 P') (hn : 0 < config.maxRetries)
    (hE : ∀ b, At size P' b → E (.err s!"{label}: device returned error (0xFF)") b) :
    Triple (world (Lossless z)) E (At size P) (step stage f label config settle) Q := by
  refine step_triple emit_lossless (sendFrame_replies hrep hn) fun resp => ?_
  refine Triple.of_and fun hd => ?_
  rw [checked, if_pos (isErrorResponse_iff.2 hd)]
  exact hE

/-- The poll of the log changes nothing. -/
theorem pollLogs_lossless {P : Dev → Prop} {E : Failure → Bench → Prop} :
    Triple (world (Lossless z)) E (At size P) Engine.pollLogs fun _ => At size P := by
  have hrep (b : Bench) (hb : At size P b) :
      Replies z b.device (plainFrame Pc.cmdGetLog []) fail4 P :=
    (replies_getLog hb.running).imp fun _ hd => hd ▸ hb.device
  refine pollLogs_triple ((sendAndRecv_replies hrep).mono ?_)
  rintro _ b ⟨_, -, -, hb⟩
  exact hb

/-! ## The abstract device -/

/-- The flash size that the device reports. -/
def flashTotalSize : Nat := 2 * 1024 * 1024

inductive Action
  | upgrade (fw : List UInt8)
  | cancel

/-- Whether it takes a START, and the image it got last. -/
structure Target where
  ready : Bool
  image : Option (List UInt8)

def tooLarge (fw : List UInt8) : String :=
  s!"Firmware too large: {UInt32.ofNat fw.length} > {UInt32.ofNat flashTotalSize} bytes"

def startRefused : String := "start_upgrade: device returned error (0xFF)"

/-- What an upgrade returns; nothing is returned by a cancellation. -/
def Target.step (slotSize : Nat) (t : Target) : Action → Option (Except String Unit) × Target
  | .upgrade fw =>
    if flashTotalSize < fw.length then (some (.error (tooLarge fw)), t)
    else if t.ready ∧ fw.length ≤ slotSize then (some (.ok ()), ⟨false, some fw⟩)
    else (some (.error startRefused), t)
  | .cancel => (none, { t with ready := true })

/-- The device is as the abstract one says. -/
structure Represents (t : Target) (d : Dev) : Prop where
  ready : t.ready = true ↔ Ready d
  image : ∀ fw, t.image = some fw → d.slot1.slice 0 fw.length = fw

/-! ## The steps, in the session that START opens -/

section

variable {d : Dev} {t : Target} {E : Failure → Bench → Prop} {crc : UInt32}

/-- The device answers the handshake. -/
theorem handshake_lossless (hn : 0 < config.maxRetries) :
    Triple (world (Lossless z)) E (At size (· = d))
      (step .handshaking (plainFrame Pc.cmdHandshake []) label config settleAny)
      fun _ => At size (· = d) := by
  have hrep (b : Bench) (hb : At size (· = d) b) :
      Replies z b.device (plainFrame Pc.cmdHandshake [])
        [d.ota.status.byte, protocolVersionMinor, protocolVersionMajor] (· = d) := by
    obtain ⟨rfl, hrun, -⟩ := hb
    exact replies_handshake hrun
  exact step_any_replies hrep hn (by simp [fail4])

theorem devInfoBytes_ne_fail4 (slot0Offset : UInt32) : devInfoBytes slot0Offset ≠ fail4 := by
  intro hd
  have hlen := congrArg List.length hd
  simp [devInfoBytes, mcuModel, fail4] at hlen

/-- The device reports 2 MiB of flash. -/
theorem outcome_deviceInfo {slot0Offset : UInt32} {resp : Frame}
    (hd : resp.data = devInfoBytes slot0Offset) (hfw : fw.length < 2 ^ 32) :
    (settleDeviceInfo (UInt32.ofNat fw.length) resp).outcome =
      if flashTotalSize < fw.length then .reported (tooLarge fw) else .value () := by
  have hlt : UInt32.ofNat fw.length > (2 * 1024 * 1024 : UInt32) ↔ flashTotalSize < fw.length := by
    rw [gt_iff_lt, UInt32.lt_iff_toNat_lt, UInt32.toNat_ofNat_of_lt' hfw]
    exact Iff.rfl
  rw [settleDeviceInfo, parseDeviceInfo_devInfoBytes hd]
  dsimp only
  by_cases hbig : flashTotalSize < fw.length
  · rw [if_pos (hlt.2 hbig), if_pos hbig]
    rfl
  · rw [if_neg (mt hlt.1 hbig), if_neg hbig]

theorem getDeviceInfo_lossless (hn : 0 < config.maxRetries) (hfw : fw.length < 2 ^ 32) :
    Triple (world (Lossless z))
      (fun e b => flashTotalSize < fw.length ∧ e = .err (tooLarge fw) ∧ At size (· = d) b)
      (At size (· = d)) (step .gettingDeviceInfo (plainFrame Pc.cmdGetDeviceInfo []) label config
        (settleDeviceInfo (UInt32.ofNat fw.length)))
      fun _ b => fw.length ≤ flashTotalSize ∧ At size (· = d) b := by
  have hrep (b : Bench) (hb : At size (· = d) b) : Replies z b.device
      (plainFrame Pc.cmdGetDeviceInfo []) (devInfoBytes d.ota.slot0Offset) (· = d) := by
    obtain ⟨rfl, hrun, -⟩ := hb
    exact replies_getDevInfo hrun
  refine step_replies hrep hn (devInfoBytes_ne_fail4 _) fun resp hd => ?_
  have houtcome := outcome_deviceInfo hd hfw
  by_cases hbig : flashTotalSize < fw.length
  · rw [if_pos hbig] at houtcome
    refine report_triple (fun _ => emit_lossless) (fun _ h => ?_) (fun _ h => ?_) fun msg h => ?_
    · cases houtcome.symm.trans h
    · cases houtcome.symm.trans h
    · obtain rfl := Outcome.reported.inj (houtcome.symm.trans h)
      exact emitError_lossless.mono fun _ _ hb => ⟨hbig, rfl, hb⟩
  · rw [if_neg hbig] at houtcome
    refine report_triple (fun _ => emit_lossless) (fun _ _ _ hb => ⟨Nat.not_lt.1 hbig, hb⟩)
      (fun _ h => ?_) fun msg h => ?_
    · cases houtcome.symm.trans h
    · cases houtcome.symm.trans h

/-- The device at each point of an upgrade that it takes. -/
def Course (fw : List UInt8) (d : Dev) : Station → Dev → Prop
  | .connected | .informed => (· = d)
  | .started _ => (InSession · (sessionOf fw (Crc32.hash fw)))
  | .transferred => fun d' => ∃ s, InSession d' s ∧ s.bytes = fw
  | .completed => Completed fw
  | .verified | .flagged => Stored fw

/-- START of an image that fits, on a device that takes it. -/
theorem start_lossless (hn : 0 < config.maxRetries) (hready : Ready d)
    (hfit : fw.length ≤ size.toNat) :
    Triple (world (Lossless z)) E (At size (· = d))
      (step .erasing (Pc.startFrame fw crc) label config settleStart)
      fun _ => At size (InSession · (sessionOf fw crc)) := by
  have hrep (b : Bench) (hb : At size (· = d) b) : Replies z b.device (Pc.startFrame fw crc)
      (0x00 :: Bytes.le16 maxPacketSize ++ [100]) (InSession · (sessionOf fw crc)) := by
    obtain ⟨rfl, hrun, hs⟩ := hb
    exact replies_start hrun hready (hs ▸ hfit)
  refine step_replies hrep hn (by simp [fail4]) fun resp hd => ?_
  have hparse : Pc.parseStartUpgradeResponse resp = some (0x00, maxPacketSize, 100) := by
    rw [Pc.parseStartUpgradeResponse, hd]
    rfl
  rw [settleStart, hparse]
  exact fun _ h => h

/-- The packets left bring what the session lacks. -/
structure Lacks (fw : List UInt8) (packets : List FirmwarePacket) (s : Session) : Prop where
  contiguous : Pc.Contiguous s.bytes.length packets
  short : ∀ pkt ∈ packets, pkt.data.length ≤ 4096
  rest : s.bytes ++ (packets.map (·.data)).flatten = fw
  fits : fw.length ≤ s.size.toNat

theorem lacks_split (hfw : fw.length < 2 ^ 32) {chunkSize : Nat} (hchunk : chunkSize ≤ 4096) :
    Lacks fw (Pc.splitIntoPackets fw chunkSize) (sessionOf fw crc) where
  contiguous := Pc.contiguous_split fw chunkSize
  short pkt hpkt := (Pc.length_split fw chunkSize pkt hpkt).trans (max_le hchunk (by decide))
  rest := Pc.flatten_split fw chunkSize
  fits := (UInt32.toNat_ofNat_of_lt' hfw).ge

theorem Lacks.accept {pkt : FirmwarePacket} {packets : List FirmwarePacket} {s : Session}
    (h : Lacks fw (pkt :: packets) s) : Lacks fw packets (s.accept pkt.data) where
  contiguous := by
    rw [Session.bytes_accept, List.length_append]
    exact h.contiguous.2
  short := (List.forall_mem_cons.1 h.short).2
  rest := by
    rw [Session.bytes_accept, List.append_assoc]
    exact h.rest
  fits := h.fits

theorem transferPacket_lossless (hz : z.Documented) (hn : 0 < config.maxRetries) {total : UInt16}
    {fwSize : UInt32} {i : Nat} {pkt : FirmwarePacket} {packets : List FirmwarePacket}
    (hlen : pkt.data.length ≤ 65531) :
    Triple (world (Lossless z)) E
      (At size fun d => ∃ s, Lacks fw (pkt :: packets) s ∧ InSession d s)
      (transferPacket total fwSize config i pkt)
      fun _ => At size fun d => ∃ s, Lacks fw packets s ∧ InSession d s := by
  rintro b ⟨⟨s, hlacks, hs⟩, hrun, hsize⟩
  have hshort := hlacks.short pkt List.mem_cons_self
  have hfit : s.bytes.length + pkt.data.length ≤ s.size.toNat := by
    have hall := congrArg List.length hlacks.rest
    rw [List.map_cons, List.flatten_cons, List.length_append, List.length_append] at hall
    exact le_trans (by omega) hlacks.fits
  refine transferPacket_triple (P := At size (InSession · s)) (C := fun _ => False) hlen
    look_lossless (fun _ h => h.elim) (sendFrame_replies (fun b hb =>
      replies_data hz hb.device hlacks.contiguous.1 hfit hshort) hn) ?_ ?_ b ⟨hs, hrun, hsize⟩
  · -- The device's four bytes begin with 0x00.
    rintro resp b herr ⟨hd, -⟩
    rw [isErrorResponse_iff, hd] at herr
    cases herr
  · refine fun _ _ => Triple.of_and fun _ => emit_lossless.mono ?_
    exact fun _ _ h => h.imp fun hs => ⟨_, hlacks.accept, hs⟩

theorem transfer_lossless (hz : z.Documented) (hn : 0 < config.maxRetries)
    (hfw : fw.length < 2 ^ 32) {chunkSize : Nat} (hchunk : chunkSize ≤ 4096) :
    Triple (world (Lossless z)) E (At size (InSession · (sessionOf fw crc)))
      (Engine.transfer fw (UInt32.ofNat fw.length) chunkSize config)
      fun _ => At size fun d => ∃ s, InSession d s ∧ s.bytes = fw := by
  refine transfer_triple (T := fun _ packets => At size fun d =>
    ∃ s, Lacks fw packets s ∧ InSession d s) hchunk ?_
    (fun _ _ _ => transferPacket_lossless hz hn) ?_
  · refine emit_lossless.mono fun _ _ h => h.imp fun hs => ?_
    exact ⟨_, lacks_split hfw hchunk, hs⟩
  · refine fun _ b h => h.imp ?_
    rintro ⟨s, hlacks, hs⟩
    exact ⟨s, hs, (List.append_nil _).symm.trans hlacks.rest⟩

/-- VERIFYING is not the status in which SET_BOOT_FLAG and RESET_RUN are accepted. -/
theorem replies_stored (hf : f.command = cmdSetBootFlag ∧ f.data = [1] ∨ f.command = cmdResetRun)
    (ha : f.dstAddr = addrDevice) (hb : At size (Stored fw) b) :
    Replies z b.device f [0xFF] (Stored fw) := by
  have hs : b.device.ota.status ≠ .complete := by simp [hb.device.status]
  exact (replies_refused hb.running hs ha hf).imp fun _ hd => hd ▸ hb.device

/-- **An upgrade that the device takes**: no step fails. -/
theorem walk_lossless (config : OtaConfig) (hz : z.Documented) (hn : 0 < config.maxRetries)
    (hfw : fw.length < 2 ^ 32) (hsmall : fw.length ≤ flashTotalSize) (hready : Ready d)
    (hfit : fw.length ≤ size.toNat) :
    Walk (world (Lossless z)) (fun _ _ => False) config fw (Crc32.hash fw) (At size (· = d))
      (fun station => At size (Course fw d station))
      fun _ b => At size (Stored fw) b ∧ b.shown.getLast? = some (.stageChanged .complete) where
  look _ := failIfCancelled_triple look_lossless
  handshake := handshake_lossless hn
  getDeviceInfo := (getDeviceInfo_lossless hn hfw).imp (fun _ _ h => h.2)
    fun _ _ h => absurd hsmall (Nat.not_le.2 h.1)
  startUpgrade := start_lossless hn hready hfit
  transfer _ _ hchunk := transfer_lossless hz hn hfw hchunk
  transferComplete := by
    have hrep (b : Bench) (hb : At size (Course fw d .transferred) b) :
        Replies z b.device (Pc.doneFrame fw (Crc32.hash fw))
          (ackBytes 0x00 (UInt32.ofNat fw.length)) (Completed fw) := by
      obtain ⟨s, hs, hbytes⟩ := hb.device
      exact (replies_done hfw hb.running (filled_of_session hs hbytes)).imp fun _ hp => hp.1
    exact step_any_replies hrep hn (by simp [ackBytes, fail4])
  verifyFirmware := by
    refine step_replies (fun b hb => replies_verify hz hb.device) hn (by simp [ackBytes, fail4])
      fun resp hd => ?_
    rw [settleVerify, show Pc.parseVerifyResponse resp = _ from parseStatusWord_ackBytes hd]
    exact fun _ h => h
  setBootFlag := by
    refine setBootFlag_triple emit_lossless
      (sendFrame_replies (fun b => replies_stored (Or.inl ⟨rfl, rfl⟩) rfl) hn)
      (S := fun resp b => resp.data = [0xFF] ∧ At size (Stored fw) b)
      (fun _ => Triple.of_and fun hd => ?_) fun _ => Triple.of_and fun hd => ?_
    · exact pollLogs_lossless.mono fun _ _ h => ⟨hd, h⟩
    · -- One byte of 0xFF is no error response.
      rw [checked_of_not_error (isErrorResponse_eq_false_iff.2 (by simp [hd, fail4]))]
      exact fun _ h => h
  finish := by
    refine (step_any_replies (fun b => replies_stored (Or.inr rfl) rfl) hn (by simp [fail4])).bind
      fun _ => emit_tame tame_lossless fun b hb => ⟨hb.emit _, List.getLast?_concat ..⟩

/-! ## One upgrade -/

/-- What an upgrade is to leave, and to show when it succeeds. -/
structure Leaves (size : UInt32) (t : Target) (fw : List UInt8) (result : Except String Unit)
    (b : Bench) : Prop where
  returns : (t.step size.toNat (.upgrade fw)).1 = some result
  target : At size (Represents (t.step size.toNat (.upgrade fw)).2) b
  shown : result = .ok () → b.shown.getLast? = some (.stageChanged .complete)

theorem leaves_error {msg : String} (hret : (t.step size.toNat (.upgrade fw)).1 = some (.error msg))
    (h : At size (Represents (t.step size.toNat (.upgrade fw)).2) b) :
    Leaves size t fw (.error msg) b :=
  ⟨hret, h, fun he => nomatch he⟩

theorem represents_congr {d d' : Dev} (h : Represents t d) (hs : d'.ota.status = d.ota.status)
    (hm : d'.slot1 = d.slot1) : Represents t d' where
  ready := by
    unfold Ready
    rw [hs]
    exact h.ready
  image := by
    rw [hm]
    exact h.image

theorem represents_stored (h : Stored fw d) : Represents ⟨false, some fw⟩ d where
  ready := by
    rw [Ready, h.status]
    exact iff_of_false (by simp) (by decide)
  image fw' hfw' := by
    obtain rfl := Option.some.inj hfw'
    exact h.image

/-- What a step that fails leaves. -/
def Spent (size : UInt32) (t : Target) (fw : List UInt8) (e : Failure) (b : Bench) : Prop :=
  ∃ msg, e = .err msg ∧ Leaves size t fw (.error msg) b

/-- **An upgrade that the device does not take**: the size is refused, or START is. -/
theorem walk_refused (hn : 0 < config.maxRetries) (hfw : fw.length < 2 ^ 32)
    (hrep : Represents t d)
    (hno : fw.length ≤ flashTotalSize → ¬ (Ready d ∧ fw.length ≤ size.toNat)) (fwCrc : UInt32) :
    Walk (world (Lossless z)) (Spent size t fw) config fw fwCrc
      (At size (· = d))
      (fun
        | .connected, b => At size (· = d) b
        | .informed, b => fw.length ≤ flashTotalSize ∧ At size (· = d) b
        | _, _ => False)
      fun _ _ => False where
  look _ := failIfCancelled_triple look_lossless
  handshake := handshake_lossless hn
  getDeviceInfo := by
    refine (getDeviceInfo_lossless hn hfw).imp (fun _ _ h => h) ?_
    rintro _ b ⟨hbig, rfl, hb⟩
    have hstep : t.step size.toNat (.upgrade fw) = (some (.error (tooLarge fw)), t) := if_pos hbig
    refine ⟨_, rfl, leaves_error (by rw [hstep]) (hb.imp fun hd => ?_)⟩
    rw [hstep, hd]
    exact hrep
  startUpgrade := by
    refine Triple.of_and fun hsmall => ?_
    have hrefused (b : Bench) (hb : At size (· = d) b) :
        Replies z b.device (Pc.startFrame fw fwCrc) fail4
          (fun d' => d'.ota.status = d.ota.status ∧ d'.slot1 = d.slot1) := by
      obtain ⟨rfl, hrun, hs⟩ := hb
      exact replies_start_refused hrun hfw (hs ▸ hno hsmall)
    refine step_refused hrefused hn fun b hb => ?_
    have hstep : t.step size.toNat (.upgrade fw) = (some (.error startRefused), t) := by
      rw [Target.step, if_neg (Nat.not_lt.2 hsmall),
        if_neg fun hp => hno hsmall ⟨hrep.ready.1 hp.1, hp.2⟩]
    refine ⟨_, rfl, leaves_error (by rw [hstep]; rfl) (hb.imp fun hd => ?_)⟩
    rw [hstep]
    exact represents_congr hrep hd.1 hd.2
  transfer _ _ _ _ h := h.elim
  transferComplete _ h := h.elim
  verifyFirmware _ h := h.elim
  setBootFlag _ h := h.elim
  finish _ h := h.elim

variable {crc32fastHash : List UInt8 → UInt32}

/-- The ways an upgrade can go. -/
theorem doUpgrade_lossless (hz : z.Documented) (hhash : ∀ l, crc32fastHash l = Crc32.hash l)
    (hn : 0 < config.maxRetries) (hfw : fw.length < 2 ^ 32) :
    Triple (world (Lossless z)) (Spent size t fw) (At size (Represents t))
      (Engine.doUpgrade crc32fastHash (.ok fw) config) fun _ => Leaves size t fw (.ok ()) := by
  intro b hb
  have hat : At size (· = b.device) b := ⟨rfl, hb.running, hb.slotSize⟩
  by_cases hgo : fw.length ≤ flashTotalSize ∧ Ready b.device ∧ fw.length ≤ size.toNat
  · obtain ⟨hsmall, hready, hfit⟩ := hgo
    have hstep : t.step size.toNat (.upgrade fw) = (some (.ok ()), ⟨false, some fw⟩) := by
      rw [Target.step, if_neg (Nat.not_lt.2 hsmall), if_pos ⟨hb.device.ready.2 hready, hfit⟩]
    have hwalk := walk_lossless config hz hn hfw hsmall hready hfit
    rw [← show Pc.calcCrc32 crc32fastHash fw = Crc32.hash fw from hhash fw] at hwalk
    refine wp_imp (hwalk.doUpgrade crc32fastHash b hat) (fun _ b' h => ?_) fun _ _ h => h.elim
    refine ⟨by rw [hstep], ?_, fun _ => h.2⟩
    rw [hstep]
    exact h.1.imp represents_stored
  · refine wp_mono ((walk_refused hn hfw hb.device (fun hsmall hgo' => hgo ⟨hsmall, hgo'⟩)
      _).doUpgrade crc32fastHash b hat) fun _ _ h => h.elim

/-- **One upgrade over a lossless link**: what it returns, what it leaves and what it shows. -/
theorem upgradeThread_lossless (hz : z.Documented)
    (hhash : ∀ l, crc32fastHash l = Crc32.hash l) (hn : 0 < config.maxRetries)
    (hfw : fw.length < 2 ^ 32) :
    Triple (world (Lossless z)) (fun _ _ => False) (At size (Represents t))
      (Pc.upgradeThread crc32fastHash (.ok fw) config) (Leaves size t fw) := by
  refine upgradeThread_triple (F := Spent size t fw) (J := fun msg b =>
      (t.step size.toNat (.upgrade fw)).1 = some (.error msg) ∧
        At size (Represents (t.step size.toNat (.upgrade fw)).2) b)
    (doUpgrade_lossless hz hhash hn hfw) ?_ ?_ ?_
  · rintro b ⟨_, he, -⟩
    cases he
  · rintro _ b ⟨msg, he, hb⟩
    obtain rfl := Failure.err.inj he
    exact wp_mono (pollLogs_lossless b hb.target) fun _ _ h => ⟨hb.returns, h⟩
  · exact fun msg => Triple.of_and fun hret =>
      emitError_lossless.mono fun _ _ h => leaves_error hret h

theorem at_start {d : Dev} (hd : d.rebooted = false) :
    At d.ota.slotSize (Represents ⟨decide (Ready d), none⟩) (.start d) :=
  ⟨⟨decide_eq_true_iff, fun _ h => nomatch h⟩, hd, rfl⟩

/-- **When an upgrade returns `Ok`.** On a device that takes a START, with an image that fits in its
slot and in the flash it reports; then `Complete` is the last thing shown, slot1 holds the image,
and the device goes on with the old firmware. -/
theorem upgrade_lossless_iff (hz : z.Documented) (hhash : ∀ l, crc32fastHash l = Crc32.hash l)
    (hn : 0 < config.maxRetries) (hfw : fw.length < 2 ^ 32) {d : Dev} (hd : d.rebooted = false)
    {r : Except Failure (Except String Unit)}
    (hr : Runs (Lossless z) (Pc.upgradeThread crc32fastHash (.ok fw) config) (.start d) r b) :
    (r = .ok (.ok ()) ↔
      Ready d ∧ fw.length ≤ d.ota.slotSize.toNat ∧ fw.length ≤ flashTotalSize) ∧
    (r = .ok (.ok ()) → b.shown.getLast? = some (.stageChanged .complete) ∧
      b.device.slot1.slice 0 fw.length = fw ∧ b.device.ota.bootFlag = d.ota.bootFlag ∧
      .reboot ∉ b.effects) := by
  obtain ⟨hok, herr⟩ := hr.of_wp (upgradeThread_lossless hz hhash hn hfw _ (at_start hd))
  have hstart : Unbooted d.ota.bootFlag (.start d) := ⟨rfl, hd, List.not_mem_nil⟩
  obtain ⟨hreported, -⟩ := hr.of_wp (upgradeThread_stored tame_lossless crc32fastHash
    (fun fw' he => by obtain rfl := Except.ok.inj he; exact hfw) _ hstart)
  cases r with
  | error e => exact (herr e rfl).elim
  | ok result =>
    have hb := hok result rfl
    obtain ⟨hu, hstored⟩ := hreported result rfl
    refine ⟨?_, fun he => ⟨hb.shown (Except.ok.inj he), ?_, hu.bootFlag, hu.reboot⟩⟩
    · rw [Except.ok.injEq]
      have hres := hb.returns
      rw [Target.step] at hres
      by_cases hbig : flashTotalSize < fw.length
      · rw [if_pos hbig] at hres
        rw [← Option.some.inj hres]
        exact iff_of_false (fun h => nomatch h) fun h => by omega
      · rw [if_neg hbig] at hres
        by_cases hgo : decide (Ready d) = true ∧ fw.length ≤ d.ota.slotSize.toNat
        · rw [if_pos hgo] at hres
          rw [← Option.some.inj hres]
          exact iff_of_true rfl ⟨of_decide_eq_true hgo.1, hgo.2, Nat.not_lt.1 hbig⟩
        · rw [if_neg hgo] at hres
          rw [← Option.some.inj hres]
          exact iff_of_false (fun h => nomatch h) fun h => hgo ⟨decide_eq_true h.1, h.2.1⟩
    · obtain ⟨fw', he', hs⟩ := hstored (Except.ok.inj he)
      obtain rfl := Except.ok.inj he'
      exact hs.image

/-- The board takes three bytes. -/
theorem upgrade_lossless_board :
    ∃ b, Runs (Lossless .standard) (Pc.upgradeThread Crc32.hash (.ok [1, 2, 3]) {})
      (.start .board) (.ok (.ok ())) b ∧ b.device.slot1.slice 0 3 = [1, 2, 3] ∧
        b.device.ota.bootFlag = 0 := by
  obtain ⟨r, b, hr⟩ := exists_runs lossless_total
    (Pc.upgradeThread Crc32.hash (.ok [1, 2, 3]) {}) (.start .board)
  obtain ⟨hiff, hdone⟩ := upgrade_lossless_iff Zephyr.documented_standard (fun _ => rfl)
    (by decide) (by decide) (by decide) hr
  have hok : r = .ok (.ok ()) := hiff.2 (by decide)
  obtain ⟨-, himage, hflag, -⟩ := hdone hok
  subst hok
  exact ⟨b, hr, himage, hflag⟩

/-! ## Sequences of upgrades and cancellations -/

/-- The user's actions one after the other, and what the upgrades return. `cancel_upgrade` sends
CANCEL and waits for the response. -/
inductive Sessions (z : Zephyr) (crc32fastHash : List UInt8 → UInt32) (config : OtaConfig) :
    Bench → List Action → List (Option (Except String Unit)) → Bench → Prop
  | nil (b : Bench) : Sessions z crc32fastHash config b [] [] b
  | upgrade {b b' b'' : Bench} {fw : List UInt8} {result : Except String Unit}
      {actions : List Action} {results : List (Option (Except String Unit))} :
      Runs (Lossless z) (Pc.upgradeThread crc32fastHash (.ok fw) config) b (.ok result) b' →
      Sessions z crc32fastHash config b' actions results b'' →
      Sessions z crc32fastHash config b (.upgrade fw :: actions) (some result :: results) b''
  | cancel {b b' b'' : Bench} {f : Frame} {answer : Except String Frame} {actions : List Action}
      {results : List (Option (Except String Unit))} :
      Pc.buildCancelUpgrade = .ok f → Lossless z b (.sendAndRecv f 3000) answer b' →
      Sessions z crc32fastHash config b' actions results b'' →
      Sessions z crc32fastHash config b (.cancel :: actions) (none :: results) b''

theorem at_cancel {f : Frame} {answer : Except String Frame} {b' : Bench}
    (h : At size (Represents t) b) (hf : Pc.buildCancelUpgrade = .ok f)
    (hstep : Lossless z b (.sendAndRecv f 3000) answer b') :
    At size (Represents (t.step size.toNat .cancel).2) b' := by
  rw [Pc.buildCancelUpgrade, Pc.new_eq_ok (by simp)] at hf
  obtain rfl := Except.ok.inj hf
  cases hstep with
  | arrives _ _ _ x hx hflash =>
    obtain ⟨-, ⟨hs, hm⟩, hrun, hsize⟩ := replies_cancel (z := z) h.running x hflash
    rw [plainFrame, show cmdCancelUpgrade = Pc.cmdCancelUpgrade from rfl,
      ← Bench.exchange_device] at hs hm hrun hsize
    refine ⟨⟨iff_of_true rfl (Or.inl hs), ?_⟩, hrun, hsize.trans h.slotSize⟩
    rw [hm]
    exact h.device.image

/-- From any device and any abstract one that it stands for, by induction on the actions. -/
theorem Sessions.refines (hz : z.Documented) (hhash : ∀ l, crc32fastHash l = Crc32.hash l)
    (hn : 0 < config.maxRetries) {b' : Bench} {actions : List Action}
    {results : List (Option (Except String Unit))}
    (hs : Sessions z crc32fastHash config b actions results b') (h : At size (Represents t) b)
    (hfw : ∀ fw, .upgrade fw ∈ actions → fw.length < 2 ^ 32) :
    results = Machine.outputs (Target.step size.toNat) t actions ∧
      Represents (Machine.final (Target.step size.toNat) t actions) b'.device := by
  induction hs generalizing t with
  | nil b => exact ⟨rfl, h.device⟩
  | upgrade hr _ ih =>
    have hlt := hfw _ List.mem_cons_self
    have hb := (hr.of_wp (upgradeThread_lossless hz hhash hn hlt _ h)).1 _ rfl
    obtain ⟨hresults, hrep⟩ := ih hb.target fun fw hm => hfw fw (List.mem_cons_of_mem _ hm)
    rw [Machine.outputs_cons, Machine.final_cons, hb.returns, hresults]
    exact ⟨rfl, hrep⟩
  | cancel hf hstep _ ih =>
    obtain ⟨hresults, hrep⟩ :=
      ih (at_cancel h hf hstep) fun fw hm => hfw fw (List.mem_cons_of_mem _ hm)
    rw [Machine.outputs_cons, Machine.final_cons, hresults]
    exact ⟨rfl, hrep⟩

/-- **The sessions refine the abstract device.** -/
theorem sessions_refine (hz : z.Documented) (hhash : ∀ l, crc32fastHash l = Crc32.hash l)
    (hn : 0 < config.maxRetries) {d : Dev} (hd : d.rebooted = false) {actions : List Action}
    (hfw : ∀ fw, .upgrade fw ∈ actions → fw.length < 2 ^ 32)
    {results : List (Option (Except String Unit))}
    (hs : Sessions z crc32fastHash config (.start d) actions results b) :
    results =
        Machine.outputs (Target.step d.ota.slotSize.toNat) ⟨decide (Ready d), none⟩ actions ∧
      Represents
        (Machine.final (Target.step d.ota.slotSize.toNat) ⟨decide (Ready d), none⟩ actions)
        b.device :=
  hs.refines hz hhash hn (at_start hd) hfw

/-- Every sequence of actions can be carried out. -/
theorem exists_sessions (hz : z.Documented) (hhash : ∀ l, crc32fastHash l = Crc32.hash l)
    (hn : 0 < config.maxRetries) {actions : List Action}
    (hfw : ∀ fw, .upgrade fw ∈ actions → fw.length < 2 ^ 32) (h : At size (Represents t) b) :
    ∃ results b', Sessions z crc32fastHash config b actions results b' := by
  induction actions generalizing b t with
  | nil => exact ⟨_, _, .nil b⟩
  | cons a actions ih =>
    have hfw' : ∀ fw, .upgrade fw ∈ actions → fw.length < 2 ^ 32 :=
      fun fw hm => hfw fw (List.mem_cons_of_mem _ hm)
    cases a with
    | upgrade fw =>
      have hthread :=
        upgradeThread_lossless (t := t) hz hhash hn (hfw fw List.mem_cons_self) b h
      obtain ⟨r, b', hr⟩ := exists_runs lossless_total
        (Pc.upgradeThread crc32fastHash (.ok fw) config) b
      obtain ⟨hok, herr⟩ := hr.of_wp hthread
      cases r with
      | error e => exact (herr e rfl).elim
      | ok result =>
        obtain ⟨results, b'', hs⟩ := ih hfw' (hok result rfl).target
        exact ⟨_, _, .upgrade hr hs⟩
    | cancel =>
      have hf : Pc.buildCancelUpgrade = .ok _ := Pc.new_eq_ok (by simp)
      have hstep := Lossless.arrives (z := z) b (plainFrame cmdCancelUpgrade []) 3000 .lossless rfl
        fun _ => rfl
      obtain ⟨results, b'', hs⟩ := ih hfw' (at_cancel h hf hstep)
      exact ⟨_, _, .cancel hf hstep hs⟩

/-- On the board: the second upgrade fails, the one behind CANCEL does not. -/
theorem sessions_refine_board :
    ∃ b, Sessions .standard Crc32.hash {} (.start .board)
        [.upgrade [1, 2, 3], .upgrade [4, 5], .cancel, .upgrade [6]]
        [some (.ok ()), some (.error startRefused), none, some (.ok ())] b ∧
      b.device.slot1.slice 0 1 = [6] := by
  have hfw : ∀ fw, Action.upgrade fw ∈
      [.upgrade [1, 2, 3], .upgrade [4, 5], .cancel, .upgrade [6]] → fw.length < 2 ^ 32 := by
    intro fw hm
    simp only [List.mem_cons, Action.upgrade.injEq, reduceCtorEq, List.not_mem_nil, or_false,
      false_or] at hm
    rcases hm with rfl | rfl | rfl <;> decide
  obtain ⟨results, b, hs⟩ : ∃ results b, Sessions .standard Crc32.hash {} (.start .board)
      [.upgrade [1, 2, 3], .upgrade [4, 5], .cancel, .upgrade [6]] results b :=
    exists_sessions Zephyr.documented_standard (fun _ => rfl) (by decide) hfw
      (at_start (d := .board) (by decide))
  obtain ⟨hresults, hrep⟩ := sessions_refine Zephyr.documented_standard (fun _ => rfl) (by decide)
    (by decide) hfw hs
  have hout : Machine.outputs (Target.step Dev.board.ota.slotSize.toNat)
      ⟨decide (Ready .board), none⟩
      [.upgrade [1, 2, 3], .upgrade [4, 5], .cancel, .upgrade [6]] =
      [some (.ok ()), some (.error startRefused), none, some (.ok ())] := rfl
  rw [hresults, hout] at hs
  exact ⟨b, hs, hrep.image [6] rfl⟩

end

end ZephyrStm32.Ota.Link
