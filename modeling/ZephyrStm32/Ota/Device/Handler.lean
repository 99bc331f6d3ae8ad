import ZephyrStm32.Lib.Run
import ZephyrStm32.Ota.Device.State

/-!
# The command handlers: `ota_handler.c` and `ota_frame_process`

One definition for each handler, branch by branch as the source has it. A handler takes the
request's sequence number, the pointer to its payload and the payload's length; what it may read
past the length is part of the pointer's memory.

`Dev.step` handles one frame and is the machine whose runs the results are about.
-/

namespace ZephyrStm32.Ota

open Bytes (le16 le32)

/-- Four bytes of 0xFF. -/
def fail4 : List UInt8 := [0xFF, 0xFF, 0xFF, 0xFF]

/-- Five bytes of 0xFF. -/
def fail5 : List UInt8 := [0xFF, 0xFF, 0xFF, 0xFF, 0xFF]

/-- `"STM32H743"`. -/
def mcuModel : List UInt8 := [0x53, 0x54, 0x4D, 0x33, 0x32, 0x48, 0x37, 0x34, 0x33]

def protocolVersionMajor : UInt8 := 1
def protocolVersionMinor : UInt8 := 0

/-- The payload of a device-info response. -/
def devInfoBytes (slot0Offset : UInt32) : List UInt8 :=
  mcuModel ++ List.replicate (16 - mcuModel.length) 0 ++ le32 0x01000000 ++
    le32 (2 * 1024 * 1024) ++ le16 4096 ++ le32 0x20000 ++ le32 slot0Offset

/-- The payload of a status response. -/
def statusBytes (st : OtaState) : List UInt8 :=
  st.status.byte :: le32 st.receivedSize ++ le32 st.firmwareSize ++ [st.errorCode.byte] ++
    [0, 0, 0, 0]

/-- `0x00` and a four-byte count or checksum. -/
def ackBytes (status : UInt8) (w : UInt32) : List UInt8 := status :: le32 w

def otaCmdHandshake (d : Dev) (seq : UInt16) (_data : Mem) (_len : UInt16) : Handled :=
  ([.send seq cmdHandshake [d.ota.status.byte, protocolVersionMinor, protocolVersionMajor]], d)

def otaCmdGetDevInfo (d : Dev) (seq : UInt16) (_data : Mem) (_len : UInt16) : Handled :=
  ([.send seq cmdGetDevInfo (devInfoBytes d.ota.slot0Offset)], d)

def otaCmdStartUpgrade (fl : FlashCalls) (d : Dev) (seq : UInt16) (data : Mem) (len : UInt16) :
    Handled :=
  if len < 12 then ([.send seq cmdStartUpgrade fail4], d)
  else if d.ota.status ≠ .idle ∧ d.ota.status ≠ .complete then
    ([.send seq cmdStartUpgrade fail4], d)
  else
    let ota := { d.ota with firmwareSize := data.u32 0, firmwareCrc := data.u32 4 }
    if ota.firmwareSize > ota.slotSize then
      ([.send seq cmdStartUpgrade fail4],
        { d with ota := { ota with errorCode := .firmwareSize } })
    else
      let ota := { ota with
        status := .erasing
        receivedSize := 0
        currentOffset := 0
        inProgress := true
        calculatedCrc := 0 }
      let r := flashAreaErase (fl 0) d.slot1 0 ota.slotSize
      let op := Event.flash (.erase .slot1 0 ota.slotSize)
      if r.1 ≠ 0 then
        ([op, .send seq cmdStartUpgrade fail4],
          { d with
            ota := { ota with status := .idle, errorCode := .flashErase, inProgress := false }
            slot1 := r.2 })
      else
        ([op, .send seq cmdStartUpgrade (0x00 :: le16 maxPacketSize ++ [100])],
          { d with ota := { ota with status := .receiving }, slot1 := r.2 })

def otaCmdTransferData (z : Zephyr) (fl : FlashCalls) (d : Dev) (seq : UInt16) (data : Mem)
    (len : UInt16) : Handled :=
  if d.ota.inProgress = false ∨ d.ota.status ≠ .receiving then
    ([.send seq cmdTransferData fail5], d)
  else if len < 4 then ([.send seq cmdTransferData fail5], d)
  else
    let offset := data.u32 0
    let fwLen := len - 4
    let fwData := data.slice 4 fwLen.toNat
    if offset ≠ d.ota.currentOffset then
      ([.send seq cmdTransferData [0x01, 0xFF, 0xFF, 0xFF, 0xFF]],
        { d with ota := { d.ota with errorCode := .offsetError, status := .error } })
    else if offset + fwLen.toUInt32 > d.ota.firmwareSize then
      ([.send seq cmdTransferData fail5],
        { d with ota := { d.ota with errorCode := .firmwareSize, status := .error } })
    else
      let r := flashAreaWrite (fl 0) d.slot1 offset fwData
      let op := Event.flash (.write .slot1 offset fwData)
      if r.1 ≠ 0 then
        ([op, .send seq cmdTransferData fail5],
          { d with
            ota := { d.ota with errorCode := .flashWrite, status := .error }
            slot1 := r.2 })
      else
        let ota := { d.ota with
          calculatedCrc := z.crc32IeeeUpdate d.ota.calculatedCrc fwData
          currentOffset := d.ota.currentOffset + fwLen.toUInt32
          receivedSize := d.ota.receivedSize + fwLen.toUInt32 }
        ([op, .send seq cmdTransferData (ackBytes 0x00 ota.receivedSize)],
          { d with ota := ota, slot1 := r.2 })

/-- The payload's eight bytes are read whatever `len` is. -/
def otaCmdTransferDone (d : Dev) (seq : UInt16) (data : Mem) (_len : UInt16) : Handled :=
  if d.ota.inProgress = false then ([.send seq cmdTransferDone fail5], d)
  else
    let declaredCrc := data.u32 0
    let declaredSize := data.u32 4
    if declaredSize ≠ d.ota.receivedSize then
      ([.send seq cmdTransferDone fail5],
        { d with ota := { d.ota with errorCode := .firmwareSize, status := .error } })
    else
      ([.send seq cmdTransferDone (ackBytes 0x00 d.ota.receivedSize)],
        { d with ota := { d.ota with
          firmwareSize := declaredSize
          firmwareCrc := declaredCrc
          status := .complete } })

/-- The read loop of `ota_cmd_verify_firmware`: the reads issued, and the checksum unless a read
failed. `k` counts the flash calls. Every round consumes a byte at least, so `remaining` rounds
are enough and the first argument starts there. -/
def verifyLoop (z : Zephyr) (fl : FlashCalls) (slot1 : Mem) :
    Nat → Nat → UInt32 → UInt32 → UInt32 → List Event × Option UInt32
  | 0, _, _, _, crc => ([], some crc)
  | rounds + 1, k, offset, remaining, crc =>
    if remaining > 0 then
      let chunk := if remaining > 256 then 256 else remaining
      let r := flashAreaRead (fl k) slot1 offset chunk
      let op := Event.flash (.read .slot1 offset chunk)
      if r.1 ≠ 0 then ([op], none)
      else
        let rest := verifyLoop z fl slot1 rounds (k + 1) (offset + chunk) (remaining - chunk)
          (z.crc32IeeeUpdate crc r.2)
        (op :: rest.1, rest.2)
    else ([], some crc)

def otaCmdVerifyFirmware (z : Zephyr) (fl : FlashCalls) (d : Dev) (seq : UInt16) (_data : Mem)
    (_len : UInt16) : Handled :=
  if d.ota.status ≠ .complete then ([.send seq cmdVerifyFirmware fail5], d)
  else
    let ota := { d.ota with status := .verifying }
    let r := verifyLoop z fl d.slot1 ota.firmwareSize.toNat 0 0 ota.firmwareSize (z.crc32Ieee [])
    match r.2 with
    | none =>
      (r.1 ++ [.send seq cmdVerifyFirmware fail5],
        { d with ota := { ota with status := .error, errorCode := .flashWrite } })
    | some crc =>
      let ota := { ota with calculatedCrc := crc }
      if crc = ota.firmwareCrc then
        (r.1 ++ [.send seq cmdVerifyFirmware (ackBytes 0x00 crc)], { d with ota := ota })
      else
        (r.1 ++ [.send seq cmdVerifyFirmware (ackBytes 0x01 crc)],
          { d with ota := { ota with errorCode := .crcMismatch } })

def otaCmdResetRun (d : Dev) (seq : UInt16) (data : Mem) (len : UInt16) : Handled :=
  if d.ota.status ≠ .complete then ([.send seq cmdResetRun [0xFF]], d)
  else
    let delayMs := if len ≥ 2 then data.u16 0 else 0
    ([.send seq cmdResetRun [0x00], .msleep delayMs, .reboot], { d with rebooted := true })

def otaCmdCancelUpgrade (d : Dev) (seq : UInt16) (_data : Mem) (_len : UInt16) : Handled :=
  ([.send seq cmdCancelUpgrade [0x00]],
    { d with ota := { d.ota with
      status := .idle
      errorCode := .none
      receivedSize := 0
      currentOffset := 0
      inProgress := false
      calculatedCrc := 0 } })

def otaCmdQueryStatus (d : Dev) (seq : UInt16) (_data : Mem) (_len : UInt16) : Handled :=
  ([.send seq cmdQueryStatus (statusBytes d.ota)], d)

def otaCmdSetBootFlag (d : Dev) (seq : UInt16) (data : Mem) (len : UInt16) : Handled :=
  if len < 1 then ([.send seq cmdSetBootFlag [0xFF]], d)
  else
    let flag := data 0
    if flag = 0x01 ∧ d.ota.status = .complete then
      ([.send seq cmdSetBootFlag [0x00]], { d with ota := { d.ota with bootFlag := 1 } })
    else if flag = 0x00 then
      ([.send seq cmdSetBootFlag [0x00]], { d with ota := { d.ota with bootFlag := 0 } })
    else ([.send seq cmdSetBootFlag [0xFF]], d)

/-- `cmd_table`. -/
def cmdTable (z : Zephyr) (fl : FlashCalls) :
    List (UInt16 × (Dev → UInt16 → Mem → UInt16 → Handled)) :=
  [ (cmdHandshake, otaCmdHandshake),
    (cmdGetDevInfo, otaCmdGetDevInfo),
    (cmdStartUpgrade, otaCmdStartUpgrade fl),
    (cmdTransferData, otaCmdTransferData z fl),
    (cmdTransferDone, otaCmdTransferDone),
    (cmdVerifyFirmware, otaCmdVerifyFirmware z fl),
    (cmdResetRun, otaCmdResetRun),
    (cmdCancelUpgrade, otaCmdCancelUpgrade),
    (cmdQueryStatus, otaCmdQueryStatus),
    (cmdSetBootFlag, otaCmdSetBootFlag) ]

def otaFrameProcess (z : Zephyr) (fl : FlashCalls) (d : Dev) (frame : OtaFrame) : Handled :=
  if frame.dstAddr ≠ addrDevice ∧ frame.dstAddr ≠ 0xFF then ([], d)
  else
    match (cmdTable z fl).find? fun e => e.1 == frame.cmd with
    | some e => e.2 d frame.seq frame.data frame.dataLen
    | none => ([.send frame.seq frame.cmd fail4], d)

/-! ## The machine -/

/-- A frame to handle, and how the flash calls made for it go. -/
structure Request where
  frame : OtaFrame
  flash : FlashCalls

def Dev.step (z : Zephyr) (d : Dev) (r : Request) : Handled :=
  if d.rebooted then ([], d) else otaFrameProcess z r.flash d r.frame

/-- A step of the device. -/
abbrev DevStep := Step Dev Request (List Event)

end ZephyrStm32.Ota
