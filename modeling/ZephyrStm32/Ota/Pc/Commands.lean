import Mathlib.Data.List.DropRight
import ZephyrStm32.Ota.Pc.Frame

/-!
# The PC's commands: `protocol/commands.rs`

The builders put a request's payload together and hand it to `Frame.new`, which fails for more
than 65535 bytes only; the parsers read a response's payload, and give nothing when it is too
short. The parser of the log text, which only goes to the log, is left out, and so is the rendering
of the device information as text.
-/

namespace ZephyrStm32.Ota.Pc

open Bytes (le16 le32)

/-! ## Command codes -/

def cmdHandshake : UInt16 := 0x0001
def cmdGetDeviceInfo : UInt16 := 0x0002
def cmdStartUpgrade : UInt16 := 0x0003
def cmdTransferData : UInt16 := 0x0004
def cmdTransferComplete : UInt16 := 0x0005
def cmdVerifyFirmware : UInt16 := 0x0006
def cmdResetRun : UInt16 := 0x0007
def cmdCancelUpgrade : UInt16 := 0x0008
def cmdQueryStatus : UInt16 := 0x0009
def cmdSetBootFlag : UInt16 := 0x000A
def cmdGetLog : UInt16 := 0x000B

/-! ## Builders -/

def buildHandshake : Except FrameError Frame := Frame.new cmdHandshake []

def buildGetDeviceInfo : Except FrameError Frame := Frame.new cmdGetDeviceInfo []

def buildStartUpgrade (totalSize crc32 : UInt32) (version : Vector UInt8 4) :
    Except FrameError Frame :=
  Frame.new cmdStartUpgrade (le32 totalSize ++ le32 crc32 ++ version.toList)

def buildTransferData (offset : UInt32) (chunk : List UInt8) (packetSeq totalPackets : UInt16) :
    Except FrameError Frame := do
  let f ← Frame.new cmdTransferData (le32 offset ++ chunk)
  return { f with packetSeq := packetSeq, totalPackets := totalPackets }

def buildTransferComplete (crc32 totalSize : UInt32) : Except FrameError Frame :=
  Frame.new cmdTransferComplete (le32 crc32 ++ le32 totalSize)

def buildVerifyFirmware : Except FrameError Frame := Frame.new cmdVerifyFirmware []

def buildResetRun (delayMs : UInt16) : Except FrameError Frame :=
  Frame.new cmdResetRun (le16 delayMs)

def buildCancelUpgrade : Except FrameError Frame := Frame.new cmdCancelUpgrade []

def buildQueryStatus : Except FrameError Frame := Frame.new cmdQueryStatus []

def buildSetBootFlag (flag : UInt8) : Except FrameError Frame := Frame.new cmdSetBootFlag [flag]

def buildGetLog : Except FrameError Frame := Frame.new cmdGetLog []

/-! ## Parsers -/

/-- The status, and the two version bytes. -/
def parseHandshakeResponse (frame : Frame) : Option (UInt8 × UInt8 × UInt8) :=
  match frame.data with
  | status :: major :: minor :: _ => some (status, major, minor)
  | _ => none

structure DeviceInfo where
  /-- `d[0..16]` without the zeros at its end. -/
  mcuModel : List UInt8
  fwVersion : UInt8 × UInt8 × UInt8
  flashTotalSize : UInt32
  flashPageSize : UInt16
  flashUsedSize : UInt32
  fwStartAddr : UInt32
  deriving DecidableEq, Repr

def parseDeviceInfo (frame : Frame) : Option DeviceInfo :=
  if frame.data.length < 34 then none
  else
    let d := Mem.ofList frame.data
    some
      { mcuModel := (frame.data.take 16).rdropWhile (· == 0)
        fwVersion := (d 16, d 17, d 18)
        flashTotalSize := d.u32 20
        flashPageSize := d.u16 24
        flashUsedSize := d.u32 26
        fwStartAddr := d.u32 30 }

/-- The status, the largest packet and the progress of the erase. -/
def parseStartUpgradeResponse (frame : Frame) : Option (UInt8 × UInt16 × UInt8) :=
  match frame.data with
  | status :: b₀ :: b₁ :: eraseProgress :: _ => some (status, Bytes.u16le b₀ b₁, eraseProgress)
  | _ => none

/-- A status byte and a 32-bit word: the responses to DATA, DONE and VERIFY. -/
def parseStatusWord (frame : Frame) : Option (UInt8 × UInt32) :=
  match frame.data with
  | status :: b₀ :: b₁ :: b₂ :: b₃ :: _ => some (status, Bytes.u32le b₀ b₁ b₂ b₃)
  | _ => none

def parseTransferDataResponse : Frame → Option (UInt8 × UInt32) := parseStatusWord

def parseTransferCompleteResponse : Frame → Option (UInt8 × UInt32) := parseStatusWord

def parseVerifyResponse : Frame → Option (UInt8 × UInt32) := parseStatusWord

structure UpgradeStatus where
  stage : UInt8
  receivedBytes : UInt32
  totalSize : UInt32
  errorCode : UInt8
  deriving DecidableEq, Repr

def parseQueryStatus (frame : Frame) : Option UpgradeStatus :=
  match frame.data with
  | stage :: b₀ :: b₁ :: b₂ :: b₃ :: c₀ :: c₁ :: c₂ :: c₃ :: errorCode :: _ => some
      { stage := stage
        receivedBytes := Bytes.u32le b₀ b₁ b₂ b₃
        totalSize := Bytes.u32le c₀ c₁ c₂ c₃
        errorCode := errorCode }
  | _ => none

/-! ## What the builders build -/

/-- `Frame.new` on a payload that fits. -/
theorem new_eq_ok {command : UInt16} {data : List UInt8} (h : data.length ≤ 65535) :
    Frame.new command data = .ok ⟨0, addrPc, addrDevice, 1, 0, command, data⟩ := by
  rw [Frame.new, if_neg (Nat.not_lt.2 h)]

theorem buildTransferData_eq_ok {offset : UInt32} {chunk : List UInt8} {packetSeq total : UInt16}
    (h : chunk.length ≤ 65531) : buildTransferData offset chunk packetSeq total =
      .ok ⟨0, addrPc, addrDevice, total, packetSeq, cmdTransferData, le32 offset ++ chunk⟩ := by
  have hlen : (le32 offset ++ chunk).length ≤ 65535 := by
    simp only [List.length_append, Bytes.length_le32]
    omega
  rw [buildTransferData, new_eq_ok hlen]
  rfl

end ZephyrStm32.Ota.Pc
