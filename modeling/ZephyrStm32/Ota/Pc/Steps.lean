import ZephyrStm32.Ota.Pc.Engine

/-!
# The steps of `do_upgrade`, in one form

Most steps announce their stage, send a request and settle its response: `step`. The equations
(`getDeviceInfo_eq` and the like) bring the steps of the source into this form. What is left of a
step is what it makes of a response, and that is a value (`settleDeviceInfo` and the like).

`Attempts` is the rule for a request, `step_triple` for a step, and `Walk` for the whole flow, which
has an assertion at every point between two steps, under any demand.
-/

namespace ZephyrStm32.Ota.Pc

open Bytes (le16 le32)
open Interact

/-! ## The frames -/

/-- A request that is not one of several packets. -/
def plainFrame (command : UInt16) (data : List UInt8) : Frame :=
  ⟨0, addrPc, addrDevice, 1, 0, command, data⟩

@[simp] theorem plainFrame_command (command : UInt16) (data : List UInt8) :
    (plainFrame command data).command = command := rfl

@[simp] theorem plainFrame_data (command : UInt16) (data : List UInt8) :
    (plainFrame command data).data = data := rfl

/-- The DATA frame of packet `i`. -/
def dataFrame (total : UInt16) (i : Nat) (pkt : FirmwarePacket) : Frame :=
  ⟨0, addrPc, addrDevice, total, UInt16.ofNat i, cmdTransferData, le32 pkt.offset ++ pkt.data⟩

namespace Engine

variable {α : Type} {config : OtaConfig} {fwSize fwCrc : UInt32} {total : UInt16} {i : Nat}
  {pkt : FirmwarePacket} {packets : List FirmwarePacket}

/-! ## What is made of a response -/

inductive Outcome (α : Type)
  | value (a : α)
  | failed (message : String)
  /-- The step reports the failure itself. -/
  | reported (message : String)

/-- What a response settles: what is told of the device, and how the step goes on. -/
structure Settled (α : Type) where
  info : Option DeviceInfo := none
  outcome : Outcome α

def conclude : Outcome α → Engine α
  | .value a => pure a
  | .failed message => err message
  | .reported message => do
    emitError message
    err message

def Settled.report (r : Settled α) : Engine α :=
  match r.info with
  | none => conclude r.outcome
  | some info => do
    emit (.deviceInfo info)
    conclude r.outcome

/-- `check_response` comes first. -/
def checked (label : String) (resp : Frame) (r : Settled α) : Settled α :=
  if resp.isErrorResponse then ⟨none, .failed s!"{label}: device returned error (0xFF)"⟩ else r

/-- Any other response will do. -/
def settleAny (_ : Frame) : Settled Unit := ⟨none, .value ()⟩

def settleDeviceInfo (fwSize : UInt32) (resp : Frame) : Settled Unit :=
  match parseDeviceInfo resp with
  | none => settleAny resp
  | some info =>
    if fwSize > info.flashTotalSize then
      ⟨some info, .reported s!"Firmware too large: {fwSize} > {info.flashTotalSize} bytes"⟩
    else ⟨some info, .value ()⟩

/-- The chunk size. -/
def settleStart (resp : Frame) : Settled Nat :=
  match parseStartUpgradeResponse resp with
  | none => ⟨none, .failed "Failed to parse start_upgrade response"⟩
  | some (status, maxPktSize, _) =>
    if status ≠ 0x00 then
      ⟨none, .failed ("Device refused upgrade: status=0x" ++ hexUpper 2 status.toNat)⟩
    else ⟨none, .value (min (max maxPktSize 128) 4096).toNat⟩

def settleVerify (fwCrc : UInt32) (resp : Frame) : Settled Unit :=
  match parseVerifyResponse resp with
  | none => settleAny resp
  | some (result, calcCrc) =>
    if result ≠ 0x00 then
      ⟨none, .reported ("CRC32 mismatch: expected 0x" ++ hexUpper 8 fwCrc.toNat ++ ", got 0x" ++
        hexUpper 8 calcCrc.toNat)⟩
    else settleAny resp

/-! ## The form -/

/-- A step: its stage, its request, and what it makes of the response. -/
def step (stage : UpgradeStage) (frame : Frame) (label : String) (config : OtaConfig)
    (settle : Frame → Settled α) : Engine α := do
  emitStage stage
  let resp ← sendFrame frame label config
  (checked label resp (settle resp)).report

/-- The body of the transfer loop. -/
def transferPacket (total : UInt16) (fwSize : UInt32) (config : OtaConfig) (i : Nat)
    (pkt : FirmwarePacket) : Engine Unit := do
  if ← isCancelled then
    cancelTransfer
  let frame ← built (buildTransferData pkt.offset pkt.data (UInt16.ofNat i) total)
  let resp ← sendFrame frame "transfer_data" config
  (checked s!"transfer packet {i}" resp (settleAny resp)).report
  emitProgress .transferring s!"Packet {i + 1}/{total}" (pkt.offset.toNat + pkt.data.length)
    fwSize.toNat

/-- Where a value comes out, the response was no error. -/
theorem value_of_checked {label : String} {resp : Frame} {r : Settled α} {a : α}
    (h : (checked label resp r).outcome = .value a) :
    resp.isErrorResponse = false ∧ r.outcome = .value a := by
  rw [checked] at h
  split at h
  · cases h
  · rename_i herr
    exact ⟨Bool.not_eq_true _ ▸ herr, h⟩

theorem checked_of_not_error {label : String} {resp : Frame} {r : Settled α}
    (h : resp.isErrorResponse = false) : checked label resp r = r := by
  rw [checked, if_neg (by simp [h])]

theorem checkResponse_bind {label : String} {resp : Frame} {f : Unit → Engine α} {r : Settled α}
    (h : f () = r.report) : (checkResponse resp label >>= f) = (checked label resp r).report := by
  rw [checkResponse, checked]
  split
  · rfl
  · exact h

theorem checkResponse_eq {label : String} {resp : Frame} :
    checkResponse resp label = (checked label resp (settleAny resp)).report :=
  (bind_pure _).symm.trans (checkResponse_bind rfl)

/-- A step of the source that begins with `request`. -/
theorem request_bind {stage : UpgradeStage} {command : UInt16} {data : List UInt8}
    (hdata : data.length ≤ 65535) {label : String} {f : Frame → Engine α}
    {settle : Frame → Settled α} (h : ∀ resp, f resp = (settle resp).report) :
    (request stage (Frame.new command data) label config >>= f) =
      step stage (plainFrame command data) label config settle := by
  rw [new_eq_ok hdata, request, step, bind_assoc]
  refine bind_congr fun _ => ?_
  change (sendFrame (plainFrame command data) label config >>= _) >>= f = _
  rw [bind_assoc]
  refine bind_congr fun resp => ?_
  rw [bind_assoc]
  exact checkResponse_bind (h resp)

theorem handshake_eq : handshake config =
    step .handshaking (plainFrame cmdHandshake []) "handshake" config settleAny :=
  request_bind (by simp) fun _ => rfl

theorem getDeviceInfo_eq : getDeviceInfo fwSize config =
    step .gettingDeviceInfo (plainFrame cmdGetDeviceInfo []) "get_device_info" config
      (settleDeviceInfo fwSize) := by
  refine request_bind (by simp) fun resp => ?_
  rw [settleDeviceInfo]
  cases parseDeviceInfo resp with
  | none => rfl
  | some info =>
    dsimp only
    split
    · rfl
    · rfl

theorem startUpgrade_eq : startUpgrade fwSize fwCrc config =
    step .erasing (plainFrame cmdStartUpgrade (le32 fwSize ++ le32 fwCrc ++ fwVersion.toList))
      "start_upgrade" config settleStart := by
  refine request_bind (by simp) fun resp => ?_
  rw [settleStart]
  rcases parseStartUpgradeResponse resp with - | ⟨status, maxPktSize, eraseProgress⟩
  · rfl
  · dsimp only
    split
    · rfl
    · rfl

theorem transferComplete_eq : transferComplete fwCrc fwSize config =
    step .completing (plainFrame cmdTransferComplete (le32 fwCrc ++ le32 fwSize))
      "transfer_complete" config settleAny :=
  request_bind (by simp) fun _ => rfl

theorem verifyFirmware_eq : verifyFirmware fwCrc config =
    step .verifying (plainFrame cmdVerifyFirmware []) "verify_firmware" config
      (settleVerify fwCrc) := by
  refine request_bind (by simp) fun resp => ?_
  rw [settleVerify]
  rcases parseVerifyResponse resp with - | ⟨result, calcCrc⟩
  · rfl
  · dsimp only
    split
    · rfl
    · rfl

theorem resetRun_eq : resetRun config =
    step .resetting (plainFrame cmdResetRun (le16 100)) "reset_run" config settleAny :=
  request_bind (by simp) fun _ => rfl

theorem pollLogs_eq : pollLogs = (do
    let _ ← sendAndRecv (plainFrame cmdGetLog []) 1500
    pure ()) := by
  rw [pollLogs, buildGetLog, new_eq_ok (by simp)]
  rfl

/-- The one step with a poll of the log in it. -/
theorem setBootFlag_eq : setBootFlag config = (do
    emitStage .settingBootFlag
    let resp ← sendFrame (plainFrame cmdSetBootFlag [0x01]) "set_boot_flag" config
    pollLogs
    (checked "set_boot_flag" resp (settleAny resp)).report) := by
  rw [setBootFlag, buildSetBootFlag, new_eq_ok (by simp)]
  refine bind_congr fun _ => ?_
  change sendFrame (plainFrame cmdSetBootFlag [0x01]) _ config >>= _ = _
  refine bind_congr fun resp => bind_congr fun _ => ?_
  exact checkResponse_eq

theorem cancelTransfer_eq : cancelTransfer = (do
    let _ ← writeFrame (plainFrame cmdCancelUpgrade [])
    emitStage .cancelled
    err "Cancelled") := by
  rw [cancelTransfer, buildCancelUpgrade, new_eq_ok (by simp)]
  rfl

theorem built_transferData (h : pkt.data.length ≤ 65531) :
    built (buildTransferData pkt.offset pkt.data (UInt16.ofNat i) total) =
      pure (dataFrame total i pkt) := by
  rw [buildTransferData_eq_ok h]
  rfl

theorem transferLoop_cons : transferLoop total fwSize config i (pkt :: packets) =
    transferPacket total fwSize config i pkt >>= fun _ =>
      transferLoop total fwSize config (i + 1) packets := by
  rw [transferLoop, transferPacket, bind_assoc]
  refine bind_congr fun cancelled => ?_
  cases cancelled with
  | true => simp only [if_true, bind_assoc, checkResponse_eq]
  | false => simp only [Bool.false_eq_true, if_false, bind_assoc, checkResponse_eq]

/-- The chunk size is between 128 and 4096. -/
theorem settleStart_value {resp : Frame} {c : Nat} (h : (settleStart resp).outcome = .value c) :
    128 ≤ c ∧ c ≤ 4096 := by
  unfold settleStart at h
  split at h
  · cases h
  · split at h
    · cases h
    · obtain rfl := Outcome.value.inj h
      rw [toNat_chunkSize]
      exact ⟨le_min (le_max_right _ _) (by decide), min_le_right _ _⟩

/-- A step behind VERIFY has read a 0x00. -/
theorem settleVerify_value {resp : Frame} {status : UInt8} {w : UInt32}
    (hparse : parseVerifyResponse resp = some (status, w))
    (h : (settleVerify fwCrc resp).outcome = .value ()) : status = 0x00 := by
  simp only [settleVerify, hparse] at h
  split at h
  · cases h
  · rename_i hs
    exact not_not.1 hs

/-! ## Rules for the parts -/

section

variable {σ : Type} {D : Demand Op Op.Answer σ} {E : Failure → σ → Prop} {P B : σ → Prop}
  {stage : UpgradeStage} {frame : Frame} {label : String} {left : Nat} {Q : α → σ → Prop}

/-- What holds during the attempts of a request, with so many left: `I` before one, `A` behind its
look at the flag, `F` behind one that failed; `R` holds behind the response. -/
structure Attempts (D : Demand Op Op.Answer σ) (E : Failure → σ → Prop) (config : OtaConfig)
    (frame : Frame) (I A F : Nat → σ → Prop) (R : Frame → σ → Prop) : Prop where
  panic : ∀ s, I 0 s → E .panic s
  look : ∀ left, Triple D E (I (left + 1)) isCancelled fun cancelled s =>
    if cancelled then E (.err "Upgrade cancelled") s else A left s
  ask : ∀ left, Triple D E (A left) (sendAndRecv frame config.commandTimeoutMs) fun x s =>
    match x with
    | .ok resp => R resp s
    | .error _ => F left s
  again : ∀ left, Triple D E (F (left + 1)) (sleep 200) fun _ => I (left + 1)
  last : ∀ message, Triple D E (F 0) (emitError message) fun _ s => E (.err message) s

/-- **The attempts**, by induction on those left. -/
theorem Attempts.sendFrameLoop {I A F : Nat → σ → Prop} {R : Frame → σ → Prop}
    (h : Attempts D E config frame I A F R) :
    Triple D E (I left) (sendFrameLoop frame label config left) R := by
  induction left with
  | zero => exact h.panic
  | succ left ih =>
    rw [Engine.sendFrameLoop]
    refine (h.look left).bind fun cancelled => ?_
    cases cancelled with
    | true => exact fun s hs => hs
    | false =>
      refine (h.ask left).bind fun x => ?_
      cases x with
      | ok resp => exact fun s hs => hs
      | error e =>
        cases left with
        | zero => exact (h.last _).bind fun _ s hs => hs
        | succ left => exact (h.again left).bind fun _ => ih

theorem Attempts.sendFrame {I A F : Nat → σ → Prop} {R : Frame → σ → Prop}
    (h : Attempts D E config frame I A F R) :
    Triple D E (I config.maxRetries) (sendFrame frame label config) R :=
  h.sendFrameLoop

/-- A look at the flag between two steps. -/
theorem failIfCancelled_triple {Q : Unit → σ → Prop}
    (h : Triple D E P isCancelled fun cancelled s =>
      if cancelled then E (.err "Cancelled") s else Q () s) :
    Triple D E P failIfCancelled Q := by
  refine h.bind fun cancelled => ?_
  cases cancelled with
  | true => exact fun s hs => hs
  | false => exact fun s hs => hs

/-- What was settled is told, and concluded. -/
theorem report_triple {r : Settled α}
    (hinfo : ∀ info, Triple D E P (emit (.deviceInfo info)) fun _ => P)
    (hvalue : ∀ a, r.outcome = .value a → ∀ s, P s → Q a s)
    (hfailed : ∀ message, r.outcome = .failed message → ∀ s, P s → E (.err message) s)
    (hreported : ∀ message, r.outcome = .reported message →
      Triple D E P (emitError message) fun _ s => E (.err message) s) :
    Triple D E P r.report Q := by
  have hconclude : Triple D E P (conclude r.outcome) Q := by
    cases hr : r.outcome with
    | value a => exact hvalue a hr
    | failed message => exact hfailed message hr
    | reported message => exact (hreported message hr).bind fun _ s hs => hs
  rw [Settled.report]
  split
  · exact hconclude
  · exact (hinfo _).bind fun _ => hconclude

/-- A step: its stage, the attempts of its request, and what the response settles. -/
theorem step_triple {settle : Frame → Settled α} {R : Frame → σ → Prop}
    (hstage : Triple D E P (emitStage stage) fun _ => B)
    (hsend : Triple D E B (sendFrame frame label config) R)
    (hreport : ∀ resp, Triple D E (R resp) (checked label resp (settle resp)).report Q) :
    Triple D E P (step stage frame label config settle) Q :=
  hstage.bind fun _ => hsend.bind hreport

/-- The answer to a poll of the log is dropped. -/
theorem pollLogs_triple {Q : Unit → σ → Prop}
    (h : Triple D E P (sendAndRecv (plainFrame cmdGetLog []) 1500) fun _ => Q ()) :
    Triple D E P pollLogs Q := by
  rw [pollLogs_eq]
  exact h.bind fun _ s hs => hs

theorem setBootFlag_triple {Q : Unit → σ → Prop} {R S : Frame → σ → Prop}
    (hstage : Triple D E P (emitStage .settingBootFlag) fun _ => B)
    (hsend : Triple D E B (sendFrame (plainFrame cmdSetBootFlag [0x01]) "set_boot_flag" config) R)
    (hlog : ∀ resp, Triple D E (R resp) pollLogs fun _ => S resp)
    (hreport : ∀ resp,
      Triple D E (S resp) (checked "set_boot_flag" resp (settleAny resp)).report Q) :
    Triple D E P (setBootFlag config) Q := by
  rw [setBootFlag_eq]
  exact hstage.bind fun _ => hsend.bind fun resp => (hlog resp).bind fun _ => hreport resp

/-- CANCEL is written, the stage announced, and the transfer is over. -/
theorem cancelTransfer_triple {Q : Unit → σ → Prop}
    (hwrite : Triple D E P (writeFrame (plainFrame cmdCancelUpgrade [])) fun _ => B)
    (hstage : Triple D E B (emitStage .cancelled) fun _ s => E (.err "Cancelled") s) :
    Triple D E P cancelTransfer Q := by
  rw [cancelTransfer_eq]
  exact hwrite.bind fun _ => hstage.bind fun _ s hs => hs

/-- The body of the transfer loop, for a packet of which a frame can be built. -/
theorem transferPacket_triple {C : σ → Prop} {Q : Unit → σ → Prop} {R : Frame → σ → Prop}
    (hlen : pkt.data.length ≤ 65531)
    (hlook : Triple D E P isCancelled fun cancelled s => if cancelled then C s else B s)
    (hcancel : Triple D E C cancelTransfer fun _ _ => False)
    (hsend : Triple D E B (sendFrame (dataFrame total i pkt) "transfer_data" config) R)
    (herror : ∀ resp s, resp.isErrorResponse = true → R resp s → ∀ message, E (.err message) s)
    (hprogress : ∀ resp, resp.isErrorResponse = false → Triple D E (R resp)
      (emitProgress .transferring s!"Packet {i + 1}/{total}" (pkt.offset.toNat + pkt.data.length)
        fwSize.toNat) Q) :
    Triple D E P (transferPacket total fwSize config i pkt) Q := by
  rw [transferPacket, built_transferData hlen]
  refine hlook.bind fun cancelled => ?_
  cases cancelled with
  | true => exact hcancel.bind fun _ s hs => hs.elim
  | false =>
    refine hsend.bind fun resp => ?_
    rw [checked]
    split
    · rename_i herr
      exact fun s hs => herror resp s herr hs _
    · rename_i herr
      exact hprogress resp (Bool.not_eq_true _ ▸ herr)

/-- **The transfer loop**, by induction on the packets left: `T i packets` holds before packet
`i`. -/
theorem transferLoop_triple {T : Nat → List FirmwarePacket → σ → Prop} {Q : Unit → σ → Prop}
    (hlen : ∀ pkt ∈ packets, pkt.data.length ≤ 65531)
    (hpacket : ∀ i pkt packets, pkt.data.length ≤ 65531 → Triple D E (T i (pkt :: packets))
      (transferPacket total fwSize config i pkt) fun _ => T (i + 1) packets)
    (hend : ∀ i s, T i [] s → Q () s) :
    Triple D E (T i packets) (transferLoop total fwSize config i packets) Q := by
  induction packets generalizing i with
  | nil => exact hend i
  | cons pkt packets ih =>
    obtain ⟨hpkt, hlen⟩ := List.forall_mem_cons.1 hlen
    rw [transferLoop_cons]
    exact (hpacket i pkt packets hpkt).bind fun _ => ih hlen

/-- The transfer with a chunk size that `start_upgrade` gives. -/
theorem transfer_triple {fwData : List UInt8} {chunkSize : Nat} (hchunk : chunkSize ≤ 4096)
    {T : Nat → List FirmwarePacket → σ → Prop} {Q : Unit → σ → Prop}
    (hstage : Triple D E P (emitStage .transferring) fun _ =>
      T 0 (splitIntoPackets fwData chunkSize))
    (hpacket : ∀ i pkt packets, pkt.data.length ≤ 65531 → Triple D E (T i (pkt :: packets))
      (transferPacket (UInt16.ofNat (splitIntoPackets fwData chunkSize).length) fwSize config i pkt)
      fun _ => T (i + 1) packets)
    (hend : ∀ i s, T i [] s → Q () s) :
    Triple D E P (transfer fwData fwSize chunkSize config) Q := by
  refine hstage.bind fun _ => transferLoop_triple (fun pkt hpkt => ?_) hpacket hend
  have hle := length_split fwData chunkSize pkt hpkt
  omega

end

/-! ## The whole flow -/

/-- The chunk size is between 128 and 4096. -/
theorem yields_startUpgrade :
    Yields (fun chunkSize => 128 ≤ chunkSize ∧ chunkSize ≤ 4096)
      (startUpgrade fwSize fwCrc config) := by
  have hany {β : Type} {p : Engine β} : Triple (monitor fun (_ : Unit) _ => ())
      (fun (_ : Failure) _ => True) (fun _ => True) p fun _ _ => True :=
    fun _ _ => wp_of_forall (fun _ _ => trivial) fun _ _ => trivial
  rw [startUpgrade_eq]
  refine step_triple hany hany (fun resp => ?_) () trivial
  refine report_triple (fun _ => hany) (fun c hc _ _ => ?_) (fun _ _ _ _ => trivial) fun _ _ => hany
  exact settleStart_value (value_of_checked hc).2

/-- The points between two steps, where the cancel flag is looked at. -/
inductive Station
  | connected
  | informed
  | started (chunkSize : Nat)
  | transferred
  | completed
  | verified
  | flagged

section

variable {σ : Type} {D : Demand Op Op.Answer σ} {E : Failure → σ → Prop} {P : σ → Prop}
  {I : Station → σ → Prop} {Q : Unit → σ → Prop} {fwData : List UInt8}

/-- The steps of an upgrade lead from `P` through the points `I` to `Q`. -/
structure Walk (D : Demand Op Op.Answer σ) (E : Failure → σ → Prop) (config : OtaConfig)
    (fwData : List UInt8) (fwCrc : UInt32) (P : σ → Prop) (I : Station → σ → Prop)
    (Q : Unit → σ → Prop) : Prop where
  look : ∀ station, Triple D E (I station) failIfCancelled fun _ => I station
  handshake : Triple D E P (step .handshaking (plainFrame cmdHandshake []) "handshake" config
    settleAny) fun _ => I .connected
  getDeviceInfo : Triple D E (I .connected) (step .gettingDeviceInfo
    (plainFrame cmdGetDeviceInfo []) "get_device_info" config
    (settleDeviceInfo (UInt32.ofNat fwData.length))) fun _ => I .informed
  startUpgrade : Triple D E (I .informed) (step .erasing (plainFrame cmdStartUpgrade
    (le32 (UInt32.ofNat fwData.length) ++ le32 fwCrc ++ fwVersion.toList)) "start_upgrade" config
    settleStart) fun chunkSize => I (.started chunkSize)
  transfer : ∀ chunkSize, 128 ≤ chunkSize → chunkSize ≤ 4096 → Triple D E (I (.started chunkSize))
    (transfer fwData (UInt32.ofNat fwData.length) chunkSize config) fun _ => I .transferred
  transferComplete : Triple D E (I .transferred) (step .completing (plainFrame cmdTransferComplete
    (le32 fwCrc ++ le32 (UInt32.ofNat fwData.length))) "transfer_complete" config settleAny)
    fun _ => I .completed
  verifyFirmware : Triple D E (I .completed) (step .verifying (plainFrame cmdVerifyFirmware [])
    "verify_firmware" config (settleVerify fwCrc)) fun _ => I .verified
  setBootFlag : Triple D E (I .verified) (setBootFlag config) fun _ => I .flagged
  finish : Triple D E (I .flagged) (step .resetting (plainFrame cmdResetRun (le16 100)) "reset_run"
    config settleAny >>= fun _ => emitStage .complete) Q

/-- **The flow**, step by step. -/
theorem Walk.doUpgrade (crc32fastHash : List UInt8 → UInt32)
    (h : Walk D E config fwData (calcCrc32 crc32fastHash fwData) P I Q) :
    Triple D E P (doUpgrade crc32fastHash (.ok fwData) config) Q := by
  have hhandshake := h.handshake
  have hdeviceInfo := h.getDeviceInfo
  have hstart := h.startUpgrade
  have hdone := h.transferComplete
  have hverify := h.verifyFirmware
  have hfinish := h.finish
  rw [← handshake_eq] at hhandshake
  rw [← getDeviceInfo_eq] at hdeviceInfo
  rw [← startUpgrade_eq] at hstart
  rw [← transferComplete_eq] at hdone
  rw [← verifyFirmware_eq] at hverify
  rw [← resetRun_eq] at hfinish
  change Triple D E P (Engine.handshake config >>= _) Q
  refine hhandshake.bind fun _ => (h.look _).bind fun _ => ?_
  refine hdeviceInfo.bind fun _ => (h.look _).bind fun _ => ?_
  -- The chunk size is one that a transfer can do with.
  refine Triple.bind (fun s hs => wp_yields (hstart s hs) yields_startUpgrade) fun chunkSize => ?_
  refine Triple.of_and fun hchunk => (h.look _).bind fun _ => ?_
  refine (h.transfer chunkSize hchunk.1 hchunk.2).bind fun _ => (h.look _).bind fun _ => ?_
  refine hdone.bind fun _ => (h.look _).bind fun _ => ?_
  refine hverify.bind fun _ => (h.look _).bind fun _ => ?_
  exact h.setBootFlag.bind fun _ => (h.look _).bind fun _ => hfinish

end

end Engine

end ZephyrStm32.Ota.Pc
