import ZephyrStm32.Ota.Device.Answers
import ZephyrStm32.Ota.Pc.Commands

/-!
# The payloads of the responses, from the handlers to the parsers

Each handler puts its response together byte by byte, and a parser of the PC takes it apart again.

**Theorem (`layouts_agree_iff`).** The parser gives the values that the handler encoded for every
command but HANDSHAKE: there the handler puts the minor version first, and the parser, like the
documentation, expects the major one.
-/

namespace ZephyrStm32.Ota.Link

open Bytes (le16 le32)
open Pc (Frame DeviceInfo UpgradeStatus)

/-- The parser that belongs to a command reads, from a response that carries the payload, what the
device holds after the command. -/
structure ReadBack (cmd : UInt16) (d : Dev) (resp : Frame) : Prop where
  handshake : cmd = cmdHandshake → Pc.parseHandshakeResponse resp =
    some (d.ota.status.byte, protocolVersionMajor, protocolVersionMinor)
  devInfo : cmd = cmdGetDevInfo → ∃ fwVersion, Pc.parseDeviceInfo resp = some
    { mcuModel := mcuModel
      fwVersion := fwVersion
      flashTotalSize := 2 * 1024 * 1024
      flashPageSize := 4096
      flashUsedSize := 0x20000
      fwStartAddr := d.ota.slot0Offset }
  start : cmd = cmdStartUpgrade →
    Pc.parseStartUpgradeResponse resp = some (0x00, maxPacketSize, 100)
  data : cmd = cmdTransferData →
    Pc.parseTransferDataResponse resp = some (0x00, d.ota.receivedSize)
  done : cmd = cmdTransferDone →
    Pc.parseTransferCompleteResponse resp = some (0x00, d.ota.receivedSize)
  verify : cmd = cmdVerifyFirmware → Pc.parseVerifyResponse resp =
    some (if d.ota.calculatedCrc = d.ota.firmwareCrc then 0x00 else 0x01, d.ota.calculatedCrc)
  query : cmd = cmdQueryStatus → Pc.parseQueryStatus resp = some
    { stage := d.ota.status.byte
      receivedBytes := d.ota.receivedSize
      totalSize := d.ota.firmwareSize
      errorCode := d.ota.errorCode.byte }

/-- The handler did not answer with a failure. START, DATA and DONE succeed with 0x00, VERIFY ends
with a comparison unless it answers 0xFF, and the others always succeed. -/
structure Succeeds (cmd : UInt16) (es : List Event) : Prop where
  accepted : cmd ∈ [cmdStartUpgrade, cmdTransferData, cmdTransferDone] → answer es = some 0x00
  compared : cmd = cmdVerifyFirmware → answer es ≠ some 0xFF

variable {z : Zephyr} {fl : FlashCalls} {d : Dev} {f : OtaFrame} {r : Handled} {resp : Frame}

/-! ## The parsers on the handlers' payloads -/

theorem parseStatusWord_ackBytes {status : UInt8} {w : UInt32}
    (h : resp.data = ackBytes status w) : Pc.parseStatusWord resp = some (status, w) := by
  rw [Pc.parseStatusWord, h, ackBytes, le32]
  exact congrArg (fun w => some (status, w)) (Bytes.u32le_le32 w)

theorem parseQueryStatus_statusBytes {st : OtaState} (h : resp.data = statusBytes st) :
    Pc.parseQueryStatus resp =
      some ⟨st.status.byte, st.receivedSize, st.firmwareSize, st.errorCode.byte⟩ := by
  rw [Pc.parseQueryStatus, h, statusBytes, le32, le32]
  simp

theorem parseDeviceInfo_devInfoBytes {slot0Offset : UInt32}
    (h : resp.data = devInfoBytes slot0Offset) : Pc.parseDeviceInfo resp =
      some ⟨mcuModel, (0, 0, 0), 2 * 1024 * 1024, 4096, 0x20000, slot0Offset⟩ := by
  have hlen : resp.data.length = 34 := by rw [h]; rfl
  have hmodel : (resp.data.take 16).rdropWhile (· == 0) = mcuModel := by
    rw [h]
    change (mcuModel ++ List.replicate 7 0).rdropWhile (· == 0) = mcuModel
    decide
  have htotal : (Mem.ofList resp.data).u32 20 = 2 * 1024 * 1024 := by
    rw [h]
    exact Bytes.u32le_le32 _
  have hpage : (Mem.ofList resp.data).u16 24 = 4096 := by
    rw [h]
    exact Bytes.u16le_le16 _
  have hused : (Mem.ofList resp.data).u32 26 = 0x20000 := by
    rw [h]
    exact Bytes.u32le_le32 _
  have haddr : (Mem.ofList resp.data).u32 30 = slot0Offset := by
    rw [h]
    exact Bytes.u32le_le32 _
  have hversion : (Mem.ofList resp.data 16, Mem.ofList resp.data 17, Mem.ofList resp.data 18) =
      (0, 0, 0) := by
    rw [h]
    rfl
  rw [Pc.parseDeviceInfo, if_neg (by omega), hmodel]
  dsimp only
  rw [htotal, hpage, hused, haddr, hversion]

/-! ## The commands, one by one -/

theorem process_handshake (ha : f.Addressed) (hc : f.cmd = cmdHandshake) :
    otaFrameProcess z fl d f = otaCmdHandshake d f.seq f.data f.dataLen := by
  rw [otaFrameProcess_addressed z fl d f ha, hc]
  rfl

theorem process_devInfo (ha : f.Addressed) (hc : f.cmd = cmdGetDevInfo) :
    otaFrameProcess z fl d f = otaCmdGetDevInfo d f.seq f.data f.dataLen := by
  rw [otaFrameProcess_addressed z fl d f ha, hc]
  rfl

theorem process_query (ha : f.Addressed) (hc : f.cmd = cmdQueryStatus) :
    otaFrameProcess z fl d f = otaCmdQueryStatus d f.seq f.data f.dataLen := by
  rw [otaFrameProcess_addressed z fl d f ha, hc]
  rfl

theorem start_payload (h : Handles z fl d f r) (hc : f.IsCmd cmdStartUpgrade)
    (ha : answer r.1 = some 0x00) : response r.1 = some (0x00 :: le16 maxPacketSize ++ [100]) := by
  cases h with
  | startAccepted => rfl
  | startRefused | startTooLarge | startEraseFailed => exact absurd ha (by simp [fail4])
  -- the branches of the other commands
  | _ => grind

theorem data_payload (h : Handles z fl d f r) (hc : f.IsCmd cmdTransferData)
    (ha : answer r.1 = some 0x00) : response r.1 = some (ackBytes 0x00 r.2.ota.receivedSize) := by
  cases h with
  | dataAccepted => rfl
  | dataRefused | dataTooLarge | dataWriteFailed => exact absurd ha (by simp [fail5])
  | dataOffset => exact absurd ha (by simp)
  | _ => grind

theorem done_payload (h : Handles z fl d f r) (hc : f.IsCmd cmdTransferDone)
    (ha : answer r.1 = some 0x00) : response r.1 = some (ackBytes 0x00 r.2.ota.receivedSize) := by
  cases h with
  | doneAccepted => rfl
  | doneRefused | doneMismatch => exact absurd ha (by simp [fail5])
  | _ => grind

theorem verify_payload (h : Handles z fl d f r) (hc : f.IsCmd cmdVerifyFirmware)
    (ha : answer r.1 ≠ some 0xFF) : response r.1 = some (ackBytes
      (if r.2.ota.calculatedCrc = r.2.ota.firmwareCrc then 0x00 else 0x01)
      r.2.ota.calculatedCrc) := by
  cases h with
  | verifyMatch => simp [OtaState.verified]
  | verifyMismatch _ _ crc _ hcrc => simp [OtaState.verified, hcrc]
  | verifyRefused => exact absurd rfl ha
  | verifyReadFailed => exact absurd (answer_verifyRun _) ha
  | _ =>
    exfalso
    clear ha
    grind

/-- **The parsers read back what the handlers encode**, for every command but HANDSHAKE. -/
theorem layouts_agree_iff (ha : f.Addressed) (hs : Succeeds f.cmd (otaFrameProcess z fl d f).1)
    (hresp : response (otaFrameProcess z fl d f).1 = some resp.data) :
    ReadBack f.cmd (otaFrameProcess z fl d f).2 resp ↔ f.cmd ≠ cmdHandshake := by
  have hh := otaFrameProcess_handles z fl d f
  constructor
  · intro hr hc
    have hread := hr.handshake hc
    rw [process_handshake ha hc] at hread hresp
    have hdata := Option.some.inj hresp
    rw [Pc.parseHandshakeResponse, ← hdata] at hread
    simp [otaCmdHandshake, protocolVersionMajor, protocolVersionMinor] at hread
  · intro hn
    refine ⟨fun hc => absurd hc hn, fun hc => ?_, fun hc => ?_, fun hc => ?_, fun hc => ?_,
      fun hc => ?_, fun hc => ?_⟩
    · rw [process_devInfo ha hc] at hresp ⊢
      exact ⟨_, parseDeviceInfo_devInfoBytes (Option.some.inj hresp).symm⟩
    · have hp := start_payload hh ⟨ha, hc⟩ (hs.accepted (by simp [hc]))
      have hdata := Option.some.inj (hresp.symm.trans hp)
      rw [Pc.parseStartUpgradeResponse, hdata]
      decide
    · have hp := data_payload hh ⟨ha, hc⟩ (hs.accepted (by simp [hc]))
      exact parseStatusWord_ackBytes (Option.some.inj (hresp.symm.trans hp))
    · have hp := done_payload hh ⟨ha, hc⟩ (hs.accepted (by simp [hc]))
      exact parseStatusWord_ackBytes (Option.some.inj (hresp.symm.trans hp))
    · have hp := verify_payload hh ⟨ha, hc⟩ (hs.compared hc)
      exact parseStatusWord_ackBytes (Option.some.inj (hresp.symm.trans hp))
    · rw [process_query ha hc] at hresp ⊢
      exact parseQueryStatus_statusBytes (Option.some.inj hresp).symm

/-- The board has received three bytes of 258. -/
def receivingThree : Dev := Machine.final (Dev.step .standard) .board
  [⟨.request cmdStartUpgrade (le32 258 ++ le32 7 ++ [1, 0, 2, 0]), .ok⟩,
    ⟨.request cmdTransferData (le32 0 ++ [0xAA, 0xBB, 0xCC]), .ok⟩]

/-- Its answer to QUERY_STATUS. -/
theorem layouts_agree_query : ReadBack cmdQueryStatus
    (otaFrameProcess .standard .ok receivingThree (.request cmdQueryStatus [])).2
    ⟨0, 0x20, 0, 1, 0, cmdQueryStatus, [2, 3, 0, 0, 0, 2, 1, 0, 0, 0, 0, 0, 0, 0]⟩ :=
  (layouts_agree_iff (z := .standard) (d := receivingThree) (f := .request cmdQueryStatus [])
    (Or.inl rfl) ⟨by decide, by decide⟩ (by decide)).2 (by decide)

/-- The board is asked for its protocol version, 1.0; the PC reads 0.1. -/
theorem handshake_swapped : ¬ ∀ (z : Zephyr) (fl : FlashCalls) (h : List DevStep) (d : Dev)
    (f : OtaFrame) (resp : Frame), Machine.Run (Dev.step z) .board h d → f.Addressed →
      Succeeds f.cmd (otaFrameProcess z fl d f).1 →
      response (otaFrameProcess z fl d f).1 = some resp.data →
      ReadBack f.cmd (otaFrameProcess z fl d f).2 resp := by
  intro h
  have hread := h .standard .ok [] .board (.request cmdHandshake [])
    ⟨0, 0x20, 0, 1, 0, cmdHandshake, [0x00, 0x00, 0x01]⟩ .nil (Or.inl rfl)
    ⟨by decide, by decide⟩ (by decide)
  have hparse := hread.handshake rfl
  revert hparse
  decide

end ZephyrStm32.Ota.Link
