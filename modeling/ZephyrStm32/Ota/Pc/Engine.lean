import ZephyrStm32.Lib.Interact
import ZephyrStm32.Ota.Pc.Commands
import ZephyrStm32.Ota.Pc.Firmware

/-!
# The upgrade engine: `ota/engine.rs`

`doUpgrade` is a program that asks its environment: the answers are the frames the serial link
brings back and the readings of the cancel flag, the other questions are events for the frontend.
Log lines, which nothing reads back, are left out, and so is the percentage of a progress event.
-/

namespace ZephyrStm32.Ota.Pc

/-! ## `ota/types.rs` -/

inductive UpgradeStage
  | idle
  | handshaking
  | gettingDeviceInfo
  | erasing
  | transferring
  | completing
  | verifying
  | settingBootFlag
  | resetting
  | complete
  | cancelled
  | error
  deriving DecidableEq, Repr

inductive OtaEvent
  | progress (stage : UpgradeStage) (message : String) (bytesSent totalBytes : Nat)
  | error (message : String)
  | deviceInfo (info : DeviceInfo)
  | stageChanged (stage : UpgradeStage)
  deriving DecidableEq, Repr

structure OtaConfig where
  /-- Attempts per command. -/
  maxRetries : Nat := 3
  commandTimeoutMs : Nat := 3000
  deriving DecidableEq, Repr

/-! ## Texts -/

/-- `n` in upper-case hexadecimal, with at least `width` digits. -/
def hexUpper (width n : Nat) : String :=
  let digits := (Nat.toDigits 16 n).map Char.toUpper
  String.ofList (List.replicate (width - digits.length) '0' ++ digits)

/-- `{:02X?}` of a list of bytes. -/
def hexBytes (l : List UInt8) : String :=
  "[" ++ String.intercalate ", " (l.map fun b => hexUpper 2 b.toNat) ++ "]"

def FrameError.toString : FrameError → String
  | .dataTooLong len => s!"data too long: {len} bytes (max 65535)"
  | .bufferTooShort need got => s!"buffer too short: need at least {need} bytes, got {got}"
  | .invalidHeader expected got =>
    "invalid frame header: expected " ++ hexBytes expected ++ ", got " ++ hexBytes got
  | .invalidTail expected got =>
    "invalid frame tail: expected " ++ hexBytes expected ++ ", got " ++ hexBytes got
  | .dataLengthMismatch declared actual =>
    s!"declared data length {declared} doesn't match actual {actual}"

/-! ## What the engine asks -/

inductive Op
  /-- `cancel_flag.load` -/
  | isCancelled
  /-- `serial.with_conn(|c| c.send_and_recv(frame, timeout))` -/
  | sendAndRecv (frame : Frame) (timeoutMs : Nat)
  /-- `serial.with_conn(|c| c.send_frame(frame))` -/
  | sendFrame (frame : Frame)
  | sleep (ms : Nat)
  | emit (event : OtaEvent)

def Op.Answer : Op → Type
  | isCancelled => Bool
  | sendAndRecv _ _ => Except String Frame
  | sendFrame _ => Except String Unit
  | sleep _ => Unit
  | emit _ => Unit

/-- `Err` of a function, or a panic, which ends the thread. -/
inductive Failure
  | err (message : String)
  | panic
  deriving DecidableEq, Repr

abbrev Engine (α : Type) : Type := Interact Op Op.Answer Failure α

namespace Engine

def isCancelled : Engine Bool := .question Op.isCancelled

def sendAndRecv (frame : Frame) (timeoutMs : Nat) : Engine (Except String Frame) :=
  .question (Op.sendAndRecv frame timeoutMs)

def writeFrame (frame : Frame) : Engine (Except String Unit) := .question (Op.sendFrame frame)

def sleep (ms : Nat) : Engine Unit := .question (Op.sleep ms)

def emit (event : OtaEvent) : Engine Unit := .question (Op.emit event)

def err {α : Type} (message : String) : Engine α := .fail (.err message)

/-! ## Helpers of the flow -/

def emitStage (stage : UpgradeStage) : Engine Unit := emit (.stageChanged stage)

def emitProgress (stage : UpgradeStage) (msg : String) (sent total : Nat) : Engine Unit :=
  emit (.progress stage msg sent total)

def emitError (msg : String) : Engine Unit := do
  emitStage .error
  emit (.error msg)

def checkResponse (resp : Frame) (label : String) : Engine Unit :=
  if resp.isErrorResponse then err s!"{label}: device returned error (0xFF)" else pure ()

/-- `map_err(|e| e.to_string())?` -/
def built : Except FrameError Frame → Engine Frame
  | .ok frame => pure frame
  | .error e => err e.toString

/-- The `for` loop of `send_frame`, with so many attempts left. -/
def sendFrameLoop (frame : Frame) (label : String) (config : OtaConfig) : Nat → Engine Frame
  | 0 => .fail .panic
  | left + 1 => do
    if ← isCancelled then
      err "Upgrade cancelled"
    match ← sendAndRecv frame config.commandTimeoutMs with
    | .ok resp => return resp
    | .error e =>
      if 0 < left then
        sleep 200
        sendFrameLoop frame label config left
      else
        let msg := s!"{label} failed after {config.maxRetries} retries: {e}"
        emitError msg
        err msg

def sendFrame (frame : Frame) (label : String) (config : OtaConfig) : Engine Frame :=
  sendFrameLoop frame label config config.maxRetries

/-- The answer's text only goes to the log. -/
def pollLogs : Engine Unit :=
  match buildGetLog with
  | .error _ => pure ()
  | .ok frame => do
    let _ ← sendAndRecv frame 1500

/-- `if is_cancelled() { return Err("Cancelled".into()); }` -/
def failIfCancelled : Engine Unit := do
  if ← isCancelled then
    err "Cancelled"

/-! ## The steps of `do_upgrade` -/

/-- What most steps begin with: announce the stage, send the request, check the response. -/
def request (stage : UpgradeStage) (frame : Except FrameError Frame) (label : String)
    (config : OtaConfig) : Engine Frame := do
  emitStage stage
  let frame ← built frame
  let resp ← sendFrame frame label config
  checkResponse resp label
  return resp

/-- Step 0; `loaded` is what `load_firmware` gives. -/
def loadFirmware : Except String (List UInt8) → Engine (List UInt8)
  | .ok fwData => pure fwData
  | .error e => do
    emitError e
    err e

/-- Step 1; the parsed response only goes to the log. -/
def handshake (config : OtaConfig) : Engine Unit := do
  let _ ← request .handshaking buildHandshake "handshake" config

/-- Step 2; a response that does not parse is passed over. -/
def getDeviceInfo (fwSize : UInt32) (config : OtaConfig) : Engine Unit := do
  let resp ← request .gettingDeviceInfo buildGetDeviceInfo "get_device_info" config
  match parseDeviceInfo resp with
  | none => pure ()
  | some info => do
    emit (.deviceInfo info)
    if fwSize > info.flashTotalSize then
      let msg := s!"Firmware too large: {fwSize} > {info.flashTotalSize} bytes"
      emitError msg
      err msg

/-- The fixed version. -/
def fwVersion : Vector UInt8 4 := #v[1, 0, 1, 0]

/-- Step 3; gives the chunk size. -/
def startUpgrade (fwSize fwCrc : UInt32) (config : OtaConfig) : Engine Nat := do
  let resp ← request .erasing (buildStartUpgrade fwSize fwCrc fwVersion) "start_upgrade" config
  match parseStartUpgradeResponse resp with
  | none => err "Failed to parse start_upgrade response"
  | some (status, maxPktSize, _) =>
    if status ≠ 0x00 then
      err ("Device refused upgrade: status=0x" ++ hexUpper 2 status.toNat)
    else
      return (min (max maxPktSize 128) 4096).toNat

/-- The flag seen set in the transfer loop; whether CANCEL could be written does not matter. -/
def cancelTransfer : Engine Unit := do
  let cancelFrame ← built buildCancelUpgrade
  let _ ← writeFrame cancelFrame
  emitStage .cancelled
  err "Cancelled"

/-- The transfer loop, from packet `i` on. -/
def transferLoop (totalPackets : UInt16) (fwSize : UInt32) (config : OtaConfig) :
    Nat → List FirmwarePacket → Engine Unit
  | _, [] => pure ()
  | i, pkt :: packets => do
    if ← isCancelled then
      cancelTransfer
    let frame ← built (buildTransferData pkt.offset pkt.data (UInt16.ofNat i) totalPackets)
    let resp ← sendFrame frame "transfer_data" config
    checkResponse resp s!"transfer packet {i}"
    let sent := pkt.offset.toNat + pkt.data.length
    emitProgress .transferring s!"Packet {i + 1}/{totalPackets}" sent fwSize.toNat
    transferLoop totalPackets fwSize config (i + 1) packets

/-- Step 4; `packets.len() as u16` keeps the low 16 bits. -/
def transfer (fwData : List UInt8) (fwSize : UInt32) (chunkSize : Nat) (config : OtaConfig) :
    Engine Unit := do
  emitStage .transferring
  let packets := splitIntoPackets fwData chunkSize
  transferLoop (UInt16.ofNat packets.length) fwSize config 0 packets

/-- Step 5; the parsed response only goes to the log. -/
def transferComplete (fwCrc fwSize : UInt32) (config : OtaConfig) : Engine Unit := do
  let _ ← request .completing (buildTransferComplete fwCrc fwSize) "transfer_complete" config

/-- Step 6; a response that does not parse is passed over. -/
def verifyFirmware (fwCrc : UInt32) (config : OtaConfig) : Engine Unit := do
  let resp ← request .verifying buildVerifyFirmware "verify_firmware" config
  match parseVerifyResponse resp with
  | none => pure ()
  | some (result, calcCrc) =>
    if result ≠ 0x00 then
      let msg := "CRC32 mismatch: expected 0x" ++ hexUpper 8 fwCrc.toNat ++ ", got 0x" ++
        hexUpper 8 calcCrc.toNat
      emitError msg
      err msg

/-- Step 7: the log is polled between the response and its check. -/
def setBootFlag (config : OtaConfig) : Engine Unit := do
  emitStage .settingBootFlag
  let frame ← built (buildSetBootFlag 0x01)
  let resp ← sendFrame frame "set_boot_flag" config
  pollLogs
  checkResponse resp "set_boot_flag"

/-- Step 8 -/
def resetRun (config : OtaConfig) : Engine Unit := do
  let _ ← request .resetting (buildResetRun 100) "reset_run" config

def doUpgrade (crc32fastHash : List UInt8 → UInt32) (loaded : Except String (List UInt8))
    (config : OtaConfig) : Engine Unit := do
  let fwData ← loadFirmware loaded
  let fwSize := UInt32.ofNat fwData.length
  let fwCrc := calcCrc32 crc32fastHash fwData
  handshake config
  failIfCancelled
  getDeviceInfo fwSize config
  failIfCancelled
  let chunkSize ← startUpgrade fwSize fwCrc config
  failIfCancelled
  transfer fwData fwSize chunkSize config
  failIfCancelled
  transferComplete fwCrc fwSize config
  failIfCancelled
  verifyFirmware fwCrc config
  failIfCancelled
  setBootFlag config
  failIfCancelled
  resetRun config
  emitStage .complete

/-- The chunk size is between 128 and 4096. -/
theorem toNat_chunkSize (maxPktSize : UInt16) :
    (min (max maxPktSize 128) 4096).toNat = min (max maxPktSize.toNat 128) 4096 := by
  have hmax : (max maxPktSize 128).toNat = max maxPktSize.toNat 128 := by
    change (if maxPktSize ≤ 128 then 128 else maxPktSize).toNat = _
    split
    · rename_i h
      exact (max_eq_right (UInt16.le_iff_toNat_le.1 h)).symm
    · rename_i h
      exact (max_eq_left (UInt16.le_iff_toNat_le.1 (UInt16.le_of_lt (UInt16.not_le.1 h)))).symm
  rw [← hmax]
  change (if max maxPktSize 128 ≤ 4096 then max maxPktSize 128 else 4096).toNat = _
  split
  · rename_i h
    exact (min_eq_left (UInt16.le_iff_toNat_le.1 h)).symm
  · rename_i h
    exact (min_eq_right (UInt16.le_iff_toNat_le.1 (UInt16.le_of_lt (UInt16.not_le.1 h)))).symm

end Engine

end ZephyrStm32.Ota.Pc
