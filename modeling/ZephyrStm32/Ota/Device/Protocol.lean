import ZephyrStm32.Lib.Bytes
import ZephyrStm32.Lib.Scan

/-!
# The device's frames: `ota_protocol.h` and the pure part of `ota_protocol.c`

`OtaFrame` is `ota_frame_t`, the struct both the parser fills and the responses are built in. Its
`data` array is a memory: only `data[0 .. data_len)` is ever written, the rest holds whatever the
stack held before. `otaFrameParse` and `otaFrameBuild` take that previous content as an argument.

Lengths and positions are natural numbers; the one place where the source lets a `uint16_t` wrap
(`total_frame_len`) says so with a `% 65536`.
-/

namespace ZephyrStm32.Ota

/-! ## Constants -/

def frameHeader0 : UInt8 := 0x12
def frameHeader1 : UInt8 := 0x34
def frameTail0 : UInt8 := 0xCD
def frameTail1 : UInt8 := 0xEF

def frameMinSize : Nat := 18
def frameMaxDataLen : Nat := 65535

def addrPc : UInt16 := 0x00
def addrDevice : UInt16 := 0x20

def cmdHandshake : UInt16 := 0x0001
def cmdGetDevInfo : UInt16 := 0x0002
def cmdStartUpgrade : UInt16 := 0x0003
def cmdTransferData : UInt16 := 0x0004
def cmdTransferDone : UInt16 := 0x0005
def cmdVerifyFirmware : UInt16 := 0x0006
def cmdResetRun : UInt16 := 0x0007
def cmdCancelUpgrade : UInt16 := 0x0008
def cmdQueryStatus : UInt16 := 0x0009
def cmdSetBootFlag : UInt16 := 0x000A

/-! ## `ota_frame_t` -/

structure OtaFrame where
  header0 : UInt8
  header1 : UInt8
  seq : UInt16
  srcAddr : UInt16
  dstAddr : UInt16
  totalPackets : UInt16
  packetSeq : UInt16
  cmd : UInt16
  dataLen : UInt16
  data : Mem
  reserved : UInt16
  tail0 : UInt8
  tail1 : UInt8

namespace OtaFrame

/-- `sizeof(ota_frame_header_t)`. -/
def headerSize : Nat := 16

/-- `sizeof(ota_frame_tail_t)`. -/
def tailSize : Nat := 4

def headerBytes (f : OtaFrame) : List UInt8 :=
  [f.header0, f.header1] ++ Bytes.le16 f.seq ++ Bytes.le16 f.srcAddr ++ Bytes.le16 f.dstAddr ++
    Bytes.le16 f.totalPackets ++ Bytes.le16 f.packetSeq ++ Bytes.le16 f.cmd ++ Bytes.le16 f.dataLen

/-- The bytes of the packed struct: the trailer comes after the whole `data` array. -/
def packed (f : OtaFrame) : List UInt8 :=
  f.headerBytes ++ f.data.slice 0 frameMaxDataLen ++ Bytes.le16 f.reserved ++ [f.tail0, f.tail1]

/-- A struct on the stack: zeros, with `m` in its `data`. -/
def onStack (m : Mem) : OtaFrame where
  header0 := 0
  header1 := 0
  seq := 0
  srcAddr := 0
  dstAddr := 0
  totalPackets := 0
  packetSeq := 0
  cmd := 0
  dataLen := 0
  data := m
  reserved := 0
  tail0 := 0
  tail1 := 0

@[simp] theorem length_headerBytes (f : OtaFrame) : f.headerBytes.length = headerSize := rfl

/-- `data[0 .. data_len)`. -/
def payload (f : OtaFrame) : List UInt8 := f.data.slice 0 f.dataLen.toNat

@[simp] theorem length_payload (f : OtaFrame) : f.payload.length = f.dataLen.toNat := by
  simp [payload]

end OtaFrame

/-! ## `ota_frame_parse` -/

def isFrameHeader (buf : Mem) (i : Nat) : Bool :=
  buf i == frameHeader0 && buf (i + 1) == frameHeader1

/-- `total_frame_len`, a `uint16_t`. -/
def totalFrameLen (dataLen : UInt16) : Nat :=
  (OtaFrame.headerSize + dataLen.toNat + OtaFrame.tailSize) % 65536

/-- The fields of the frame whose header is at `buf[pos]`, copied over `frame`. -/
def readFrame (buf : Mem) (pos : Nat) (frame : OtaFrame) : OtaFrame :=
  let dataLen := buf.u16 (pos + 14)
  { header0 := buf pos
    header1 := buf (pos + 1)
    seq := buf.u16 (pos + 2)
    srcAddr := buf.u16 (pos + 4)
    dstAddr := buf.u16 (pos + 6)
    totalPackets := buf.u16 (pos + 8)
    packetSeq := buf.u16 (pos + 10)
    cmd := buf.u16 (pos + 12)
    dataLen := dataLen
    data := frame.data.write 0 (buf.slice (pos + OtaFrame.headerSize) dataLen.toNat)
    reserved := buf.u16 (pos + OtaFrame.headerSize + dataLen.toNat)
    tail0 := buf (pos + OtaFrame.headerSize + dataLen.toNat + 2)
    tail1 := buf (pos + OtaFrame.headerSize + dataLen.toNat + 3) }

theorem payload_readFrame (junk : OtaFrame) (m : Mem) (p : Nat) :
    (readFrame m p junk).payload = m.slice (p + 16) (m.u16 (p + 14)).toNat := by
  apply (Mem.slice_eq_iff (by simp [readFrame])).2
  intro i hi
  exact Mem.write_apply (by simpa [readFrame] using hi)

/-- Returns the frame's length, or -1, and the frame struct as it is left. The search for the
header tries every `pos <= len - FRAME_MIN_SIZE`. The length returned is that of the frame alone:
the `pos` bytes skipped before it are not counted. -/
def otaFrameParse (buf : Mem) (len : Nat) (frame : OtaFrame) : Int × OtaFrame :=
  if len < frameMinSize then (-1, frame)
  else
    match Scan.firstFrom (isFrameHeader buf) 0 (len - frameMinSize + 1) with
    | none => (-1, frame)
    | some pos =>
      let total := totalFrameLen (buf.u16 (pos + 14))
      if pos + total > len then (-1, frame) else (total, readFrame buf pos frame)

/-! ## `ota_frame_build` and `ota_send_response` -/

/-- `data` is `none` for a null pointer. -/
def otaFrameBuild (frame : OtaFrame) (seq src dst total pktSeq cmd : UInt16) (data : Option Mem)
    (dataLen : UInt16) : Nat × OtaFrame :=
  let built : OtaFrame := { frame with
    header0 := frameHeader0
    header1 := frameHeader1
    seq := seq
    srcAddr := src
    dstAddr := dst
    totalPackets := total
    packetSeq := pktSeq
    cmd := cmd
    dataLen := dataLen
    data := match data with
      | some d => frame.data.write 0 (d.slice 0 dataLen.toNat)
      | none => frame.data
    reserved := 0
    tail0 := frameTail0
    tail1 := frameTail1 }
  (OtaFrame.headerSize + dataLen.toNat + OtaFrame.tailSize, built)

/-- The bytes `ota_send_response` hands to `uart_tx`: the first `frame_len` of the struct, where
`frame_len` is a `uint16_t`. `resp` is the uninitialised local. -/
def otaSendResponse (resp : OtaFrame) (seq cmd : UInt16) (data : Mem) (len : UInt16) :
    List UInt8 :=
  let r := otaFrameBuild resp seq addrDevice addrPc 1 0 cmd (some data) len
  r.2.packed.take (r.1 % 65536)

end ZephyrStm32.Ota
