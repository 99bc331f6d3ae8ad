import ZephyrStm32.Ota.Device.Respond
import ZephyrStm32.Ota.Link.Bench
import ZephyrStm32.Ota.Link.Filling
import ZephyrStm32.Ota.Link.Intake
import ZephyrStm32.Ota.Link.Layouts
import ZephyrStm32.Ota.Link.Response
import ZephyrStm32.Ota.Pc.Budget
import ZephyrStm32.Ota.Pc.Connection
import ZephyrStm32.Ota.Pc.Requests

/-!
# An upgrade over the bytes of the serial line

`Bench` exchanges frames with the device. `Wire` puts between the two what carries them: `to_bytes`,
the driver that stores the bytes in `rx_buf` (`Uart`) and the calls of `ota_process_rx` among its
events, `ota_send_response`, the pieces that the reading thread reads, its decoder and its channel.

The source does not see to all that this needs (`Transit.Carries`):

* the driver has room for each byte and stores none of them in `rx_buf[0 .. rx_len)`. That is so in
  the first `RX_BUF_SIZE` bytes (`exists_wired`), but not when a request, such as the fourth packet
  of 1024 bytes, goes on in the second buffer while `ota_process_rx` waits for its end
  (`first_buffer_reused`);
* each response struct happens to hold the tail behind its payload;
* `uart_tx`, which returns before the bytes are sent, sends them as they were in the struct,
  although that is gone by then. What the handlers print goes out on the same UART: before the
  response and behind it, not amid its bytes.

**Theorem (`wire_refines`).** Under these assumptions, however the bytes are cut in both directions
and whenever `ota_process_rx` is called, an upgrade over the bytes is an upgrade over frames, with
the same result, the same effects and the same events.
-/

namespace ZephyrStm32.Ota.Link

open Incremental Interact Machine
open Pc (Frame FirmwarePacket Op OtaConfig OtaEvent Engine Failure UpgradeStage frameRule
  referenceScan upgradeThread_triple)
open Pc.Engine (Outcome Station Walk settleStart step transferPacket_triple transfer_triple)

/-! ## The wire -/

/-- What is left open about a request and its response on the wire. -/
structure Transit where
  /-- What the driver does while the request arrives, with calls of `ota_process_rx` in between. -/
  arrival : List UartEvent
  /-- The uninitialised frames of the call behind the last byte. -/
  stack : Nat → OtaFrame
  flash : FlashCalls
  slot0Open : FlashOpen
  slot1Open : FlashOpen
  /-- What the response structs hold before they are filled. -/
  resp : Nat → OtaFrame
  /-- What is printed before the response and behind it. -/
  before : List UInt8
  after : List UInt8
  /-- The pieces that the PC reads. -/
  reads : List (List UInt8)

/-- The two ends and the buffers between them. -/
structure Wire where
  bench : Bench
  uart : Uart
  conn : Pc.SerialConnection

/-- The bytes of the responses. -/
def responseBytes (resp : Nat → OtaFrame) : List Event → List UInt8
  | [] => []
  | .send seq cmd payload :: es =>
    otaSendResponse (resp es.length) seq cmd (Mem.ofList payload) (UInt16.ofNat payload.length) ++
      responseBytes resp es
  | _ :: es => responseBytes resp es

/-- Each response struct holds the tail behind its payload. -/
structure Tailed (resp : Nat → OtaFrame) (es : List Event) : Prop where
  tail : ∀ before seq cmd payload after, es = before ++ .send seq cmd payload :: after →
    (resp after.length).data (payload.length + 2) = frameTail0 ∧
      (resp after.length).data (payload.length + 3) = frameTail1

/-- The reading thread reads a piece and sends its frames. -/
def readPiece (c : Pc.SerialConnection) (piece : List UInt8) : Pc.SerialConnection :=
  let c := c.read (.ok piece)
  Pc.SerialConnection.send^[c.frames.length] c

namespace Wire

def start (d : Dev) : Wire := ⟨.start d, .otaProtocolInit RxState.init.buf, .opened⟩

def emit (w : Wire) (e : OtaEvent) : Wire := { w with bench := w.bench.emit e }

/-- The calls of `ota_process_rx` hand these requests to the handlers. -/
def requests (w : Wire) (t : Transit) : List Request :=
  (outputs Uart.step w.uart (t.arrival ++ [.process t.stack])).flatten.map (⟨·, t.flash⟩)

/-- What the device does. -/
def events (z : Zephyr) (w : Wire) (t : Transit) : List Event :=
  (outputs (Dev.step z) w.bench.device (w.requests t)).flatten

/-- A request goes to the device, and its responses come back. -/
def carry (z : Zephyr) (w : Wire) (t : Transit) : Wire :=
  let d := final (Dev.step z) w.bench.device (w.requests t)
  { bench := { w.bench with
      device := if d.rebooted then d.reset t.slot0Open t.slot1Open else d
      effects := w.bench.effects ++ w.events z t }
    uart :=
      if d.rebooted then .otaProtocolInit RxState.init.buf
      else final Uart.step w.uart (t.arrival ++ [.process t.stack])
    conn := t.reads.foldl readPiece w.conn }

/-- The end of a wait for a response. -/
def recv (w : Wire) : Except String Frame × Wire :=
  (w.conn.recvFrame.1, { w with conn := w.conn.recvFrame.2 })

end Wire

/-- The request arrives, and is announced, without harm to what waits in `rx_buf`; the flash works;
the structs hold the tail; and the response comes back whole, amid texts. -/
structure Transit.Carries (z : Zephyr) (w : Wire) (t : Transit) (f : Frame) : Prop where
  arrival : arriving t.arrival = f.toBytes
  admits : Admits w.uart t.arrival
  announced : (final Uart.step w.uart t.arrival).pending = []
  flash : ∀ k, (t.flash k).err = 0
  tailed : Tailed t.resp (w.events z t)
  before : frameHeader0 ∉ t.before
  after : frameHeader0 ∉ t.after
  reads : t.reads.flatten = t.before ++ (responseBytes t.resp (w.events z t) ++ t.after)

/-- The connection has nothing left, up to bytes that the decoder never makes anything of. -/
structure Drained (c : Pc.SerialConnection) : Prop where
  faithful : ∃ bytes frames, c.Faithful bytes frames
  reading : c.atRead = true
  frameRx : c.frameRx = []
  clean : SameItems frameRule c.decoder.buf []

/-- Nothing is under way. -/
structure Wire.Idle (w : Wire) : Prop where
  running : w.bench.device.rebooted = false
  uart : UartInv w.uart
  rx : w.uart.rx.len = 0
  pending : w.uart.pending = []
  conn : Drained w.conn

variable {z : Zephyr} {w : Wire} {t : Transit} {f : Frame} {config : OtaConfig}

/-! ## From the PC to the device -/

/-- A frame read over one that shows the same. -/
theorem readFrame_again {m : Mem} {g : OtaFrame} (hm : Pc.FieldsAt m 0 f) (hg : Shows g f) :
    (readFrame m 0 g).data = g.data ∧ (readFrame m 0 g).dataLen = g.dataLen := by
  have hr := readFrame_shows g hm
  refine ⟨?_, UInt16.toNat_inj.1 (hr.dataLen.trans hg.dataLen.symm)⟩
  have hpayload := hr.payload
  rw [payload_readFrame] at hpayload
  change g.data.write 0 (m.slice (0 + 16) (m.u16 (0 + 14)).toNat) = g.data
  rw [hpayload]
  refine Mem.write_self ?_
  rw [← hg.dataLen]
  exact hg.payload

/-- The handlers look at nothing but what a request shows and the memory behind its payload. -/
theorem process_received {g : OtaFrame} (hg : Shows g f) (d : Dev) (fl : FlashCalls)
    (hdata : f.data.length ≤ 65535) :
    otaFrameProcess z fl d g = otaFrameProcess z fl d (readFrame (Mem.ofList f.toBytes) 0 g) := by
  have hw := Pc.wireAt_toBytes hdata []
  rw [List.append_nil] at hw
  have hr := readFrame_shows g hw.toFieldsAt
  obtain ⟨hmem, hlen⟩ := readFrame_again hw.toFieldsAt hg
  rw [otaFrameProcess, otaFrameProcess, hr.dstAddr, hg.dstAddr, hr.cmd, hg.cmd, hr.seq, hg.seq,
    hmem, hlen]

/-! ## From the device to the PC -/

/-- The commands that do more than answer. -/
abbrev acting : List UInt16 := [cmdStartUpgrade, cmdTransferData, cmdTransferDone,
  cmdVerifyFirmware, cmdResetRun, cmdCancelUpgrade, cmdSetBootFlag]

section

variable {fl : FlashCalls} {d : Dev} {g : OtaFrame} {r : Handled} {seq cmd : UInt16}
  {payload : List UInt8}

theorem handles_send_short (h : Handles z fl d g r) (hc : g.cmd ∈ acting)
    (hs : .send seq cmd payload ∈ r.1) : payload.length ≤ 34 := by
  have hack : ∀ status w, (ackBytes status w).length ≤ 34 := fun _ _ => by simp [ackBytes]
  have hreads : ∀ {e : Event}, .send seq cmd payload ∈ (verifyRun z fl d).1 ++ [e] →
      .send seq cmd payload = e := by
    intro e hs
    rcases List.mem_append.1 hs with hs | hs
    · obtain ⟨op, he⟩ := verifyRun_flash _ hs
      cases he
    · exact List.mem_singleton.1 hs
  cases h with
  | ignored => cases hs
  | inquiry _ _ hn => exact absurd rfl (hn _ hc)
  | verifyReadFailed =>
    cases hreads hs
    decide
  | verifyMatch | verifyMismatch =>
    cases hreads hs
    exact hack _ _
  | dataAccepted | doneAccepted =>
    simp only [List.mem_cons, Event.send.injEq, reduceCtorEq, List.not_mem_nil, or_false,
      false_or] at hs
    rw [hs.2.2]
    exact hack _ _
  | _ =>
    simp only [List.mem_cons, Event.send.injEq, reduceCtorEq, List.not_mem_nil, or_false,
      false_or] at hs
    rw [hs.2.2]
    decide

/-- No response is longer than the device information. -/
theorem process_send_short (hs : .send seq cmd payload ∈ (otaFrameProcess z fl d g).1) :
    payload.length ≤ 34 := by
  by_cases hc : g.cmd ∈ acting
  · exact handles_send_short (otaFrameProcess_handles z fl d g) hc hs
  by_cases ha : g.Addressed
  case neg =>
    rw [otaFrameProcess_ignored z fl d g ha] at hs
    cases hs
  by_cases h₁ : g.cmd = cmdHandshake
  · rw [process_handshake ha h₁] at hs
    cases List.mem_singleton.1 hs
    simp
  by_cases h₂ : g.cmd = cmdGetDevInfo
  · rw [process_devInfo ha h₂] at hs
    cases List.mem_singleton.1 hs
    simp [devInfoBytes, mcuModel]
  by_cases h₃ : g.cmd = cmdQueryStatus
  · rw [process_query ha h₃] at hs
    cases List.mem_singleton.1 hs
    simp [statusBytes]
  have hnone : (cmdTable z fl).find? (fun e => e.1 == g.cmd) = none := by
    simp only [acting, List.mem_cons, List.not_mem_nil, or_false, not_or] at hc
    simp [cmdTable, Ne.symm h₁, Ne.symm h₂, Ne.symm h₃, hc, Ne.symm]
  rw [otaFrameProcess_addressed z fl d g ha, hnone] at hs
  cases List.mem_singleton.1 hs
  decide

end

/-- What a response is on both sides. -/
theorem answersOnce_received {seq cmd : UInt16} {es : List Event} (h : AnswersOnce seq cmd es)
    (resp : Nat → OtaFrame) : ∃ payload k, .send seq cmd payload ∈ es ∧
      firstResponse es = .ok ⟨seq, Pc.addrDevice, Pc.addrPc, 1, 0, cmd, payload⟩ ∧
      responseBytes resp es = otaSendResponse (resp k) seq cmd (Mem.ofList payload)
        (UInt16.ofNat payload.length) ∧
      (Tailed resp es → (resp k).data (payload.length + 2) = frameTail0 ∧
        (resp k).data (payload.length + 3) = frameTail1) := by
  obtain ⟨before, payload, after, rfl, hbefore, hafter⟩ := h
  have hnone : responseBytes resp after = [] := by
    clear hbefore
    induction after with
    | nil => rfl
    | cons e after ih =>
      obtain ⟨he, hrest⟩ := List.forall_mem_cons.1 hafter
      cases e with
      | send => exact absurd trivial he
      | _ => exact ih hrest
  refine ⟨payload, after.length, by simp, ?_, ?_, fun ht => ht.tail before _ _ _ after rfl⟩
  · induction before with
    | nil => rfl
    | cons e before ih =>
      obtain ⟨he, hrest⟩ := List.forall_mem_cons.1 hbefore
      cases e with
      | send => exact absurd trivial he.1
      | _ => exact ih hrest
  · induction before with
    | nil =>
      change _ ++ responseBytes resp after = _
      rw [hnone, List.append_nil]
    | cons e before ih =>
      obtain ⟨he, hrest⟩ := List.forall_mem_cons.1 hbefore
      cases e with
      | send => exact absurd trivial he.1
      | _ => exact ih hrest

/-- A frame on the wire is scanned as that frame. -/
theorem referenceScan_encodes {e : List UInt8} (he : Encodes e f) (more : List UInt8) :
    referenceScan (e ++ more) = f :: referenceScan more := by
  obtain ⟨hlen, hw⟩ := encodes_iff.1 he
  have hwhole : Pc.WireAt (Mem.ofList (e ++ more)) 0 f :=
    hw.congr fun i hi => Mem.ofList_append_left (by omega)
  have hd : Pc.declaredLen (e ++ more) = f.wireLen := hwhole.toFieldsAt.declaredLen_eq
  have h20 : 20 ≤ f.wireLen := Nat.le_add_right _ _
  have hlen' : (e ++ more).length = f.wireLen + more.length := by rw [List.length_append, hlen]
  have hhead : Pc.headerAt (e ++ more) 0 = true := by
    rw [Pc.headerAt_iff]
    exact ⟨by omega, hwhole.header0, hwhole.header1⟩
  have hok : Frame.fromBytes (e ++ more) = .ok (f, f.wireLen) :=
    Pc.fromBytes_eq_ok_iff.2 ⟨by omega, rfl, hwhole⟩
  have hnext : Pc.nextFrame (e ++ more) = some (some f, f.wireLen) := by
    rw [Pc.FrameDecoder.nextFrame_front hhead, Pc.nextAt_whole (by omega) (by omega), hok, hd]
  rw [referenceScan, Pc.scan_some hnext, List.drop_left' hlen]
  rfl

/-- A response whose struct holds the tail is a frame on the wire. -/
theorem encodes_response {resp : OtaFrame} {seq cmd : UInt16} {payload : List UInt8}
    (hlen : payload.length ≤ 34) (h₂ : resp.data (payload.length + 2) = frameTail0)
    (h₃ : resp.data (payload.length + 3) = frameTail1) :
    Encodes (otaSendResponse resp seq cmd (Mem.ofList payload) (UInt16.ofNat payload.length))
      ⟨seq, Pc.addrDevice, Pc.addrPc, 1, 0, cmd, payload⟩ := by
  have hsize : (UInt16.ofNat payload.length).toNat = payload.length :=
    UInt16.toNat_ofNat_of_lt' (hlen.trans_lt (by decide))
  have hframe : responseFrame seq cmd (Mem.ofList payload) (UInt16.ofNat payload.length) =
      ⟨seq, Pc.addrDevice, Pc.addrPc, 1, 0, cmd, payload⟩ := by
    rw [responseFrame, hsize, Mem.slice_ofList]
    rfl
  have hdata := congrArg Frame.data hframe
  rw [otaSendResponse_eq _ _ _ _ (by omega), encodes_iff, ← hframe]
  refine ⟨?_, Pc.fieldsAt_head ?_ _, ?_⟩
  · simp only [List.length_append, Mem.length_slice, List.length_nil, Frame.wireLen]
    change 16 + _ = _
    omega
  · rw [hdata]
    exact hlen.trans (by decide)
  · rw [Pc.tailAt_head_iff (by simp), hsize]
    exact ⟨h₂, h₃⟩

section

variable {c : Pc.SerialConnection} {bytes : List UInt8} {frames : List Frame}

/-- All the frames of a piece go into the channel. -/
theorem send_iterate (c : Pc.SerialConnection) : Pc.SerialConnection.send^[c.frames.length] c =
    { c with frames := [], frameRx := c.frameRx ++ c.frames } := by
  obtain ⟨decoder, frames, reading, frameRx⟩ := c
  induction frames generalizing frameRx with
  | nil => simp
  | cons f frames ih =>
    rw [List.length_cons, Function.iterate_succ_apply]
    change Pc.SerialConnection.send^[frames.length] ⟨decoder, frames, reading, frameRx ++ [f]⟩ = _
    rw [ih, List.append_assoc]
    rfl

theorem faithful_readPiece (h : c.Faithful bytes frames) (hat : c.atRead = true)
    (piece : List UInt8) :
    (readPiece c piece).Faithful (bytes ++ piece) frames ∧ (readPiece c piece).atRead = true := by
  have hread := h.read_ok hat piece
  have hreading : (c.read (.ok piece)).reading = true := by
    have hc := (Bool.and_eq_true_iff.1 hat).1
    rw [Pc.SerialConnection.read]
    split <;> exact hc
  rw [readPiece, send_iterate]
  refine ⟨⟨hread.waiting, fun more => ?_, fun _ => rfl⟩, ?_⟩
  · rw [hread.scan more, List.append_nil, List.append_assoc frames]
  · rw [Pc.SerialConnection.atRead, hreading]
    rfl

theorem faithful_reads (h : c.Faithful bytes frames) (hat : c.atRead = true)
    (pieces : List (List UInt8)) : (pieces.foldl readPiece c).Faithful (bytes ++ pieces.flatten)
      frames ∧ (pieces.foldl readPiece c).atRead = true := by
  induction pieces generalizing c bytes with
  | nil =>
    rw [List.flatten_nil, List.append_nil]
    exact ⟨h, hat⟩
  | cons piece pieces ih =>
    obtain ⟨h, hat⟩ := faithful_readPiece h hat piece
    rw [List.flatten_cons, ← List.append_assoc]
    exact ih h hat

/-- A text without a `12` is nothing to the decoder. -/
theorem sameItems_text {text : List UInt8} (h : frameHeader0 ∉ text) :
    SameItems frameRule text [] := by
  have hskip := Pc.sameItems_drop (b := text) le_rfl fun more i hi => by
    rw [← Bool.not_eq_true, Pc.headerAt_iff]
    rintro ⟨-, h12, -⟩
    have hmem : Mem.ofList text i ∈ text := by
      rw [Mem.ofList, List.getD_eq_getElem?_getD, List.getElem?_eq_getElem hi]
      exact List.getElem_mem hi
    rw [Mem.ofList_append_left hi] at h12
    rw [h12] at hmem
    exact h hmem
  rwa [List.drop_length] at hskip

/-- A response amid texts comes out of the channel, and nothing is left of it. -/
theorem Drained.response (hc : Drained c) {pieces : List (List UInt8)}
    {before e after : List UInt8} (he : Encodes e f) (hbefore : frameHeader0 ∉ before)
    (hafter : frameHeader0 ∉ after) (hpieces : pieces.flatten = before ++ (e ++ after)) :
    ∃ c', (pieces.foldl readPiece c).recvFrame = (.ok f, c') ∧ Drained c' := by
  obtain ⟨⟨bytes, frames, h⟩, hat, hrx, hclean⟩ := hc
  obtain ⟨h', hat'⟩ := faithful_reads h hat pieces
  generalize pieces.foldl readPiece c = c' at h' hat'
  have hempty : c.frames = [] := List.isEmpty_iff.1 (Bool.and_eq_true_iff.1 hat).2
  have hempty' : c'.frames = [] := List.isEmpty_iff.1 (Bool.and_eq_true_iff.1 hat').2
  have hall : ∀ more, c'.frameRx ++ referenceScan (c'.decoder.buf ++ more) =
      f :: referenceScan more := by
    intro more
    have hscan := h'.scan more
    rw [hpieces, List.append_assoc, h.scan, hrx, hempty, hempty', List.append_nil, List.append_nil,
      List.append_nil, List.append_assoc frames] at hscan
    have hfront : referenceScan (before ++ (e ++ after) ++ more) =
        referenceScan (e ++ (after ++ more)) := by
      rw [List.append_assoc, List.append_assoc]
      exact sameItems_text hbefore (e ++ (after ++ more))
    have hback : referenceScan (after ++ more) = referenceScan more := sameItems_text hafter more
    have hbuf : referenceScan (c.decoder.buf ++ (before ++ (e ++ after) ++ more)) =
        referenceScan (before ++ (e ++ after) ++ more) := hclean _
    rw [← List.append_cancel_left hscan, hbuf, hfront, referenceScan_encodes he, hback]
  have hnone : referenceScan c'.decoder.buf = [] := by
    rw [referenceScan, Pc.scan_none h'.waiting.2]
  have hnow := hall []
  rw [List.append_nil, hnone, List.append_nil] at hnow
  have hrecv : c'.recvFrame = (.ok f, { c' with frameRx := [] }) := by
    rw [Pc.SerialConnection.recvFrame, hnow]
    rfl
  have hok := h'.recvFrame_ok (f := f) (by rw [hrecv])
  rw [hrecv] at hok
  refine ⟨_, hrecv, ⟨⟨_, _, hok⟩, hat', rfl, fun more => ?_⟩⟩
  · have hmore := hall more
    rw [hnow] at hmore
    exact (List.cons.inj hmore).2

end

/-! ## One exchange -/

/-- The exchange that a transit stands for; the frame struct holds what was received. -/
def Transit.exchange (t : Transit) (g : OtaFrame) : Exchange :=
  ⟨g, t.flash, t.slot0Open, t.slot1Open, firstResponse⟩

/-- What the device does with the request. -/
theorem carry_bench {bench : Bench} {uart : Uart} {g : OtaFrame} (conn : Pc.SerialConnection)
    (hrunning : bench.device.rebooted = false) (hg : Shows g f) (hdata : f.data.length ≤ 65535)
    (houtputs : (outputs Uart.step uart (t.arrival ++ [.process t.stack])).flatten = [g]) :
    Wire.events z ⟨bench, uart, conn⟩ t = ((t.exchange g).handle z bench.device f).1 ∧
      (Wire.carry z ⟨bench, uart, conn⟩ t).bench = bench.exchange z (t.exchange g) f := by
  have hrequests : Wire.requests ⟨bench, uart, conn⟩ t = [⟨g, t.flash⟩] := by
    rw [Wire.requests, houtputs]
    rfl
  have hstep : Dev.step z bench.device ⟨g, t.flash⟩ =
      otaFrameProcess z (t.exchange g).flash bench.device ((t.exchange g).frame f) :=
    (step_running hrunning).trans (process_received hg _ _ hdata)
  have hhandle : (t.exchange g).handle z bench.device f =
      ((Dev.step z bench.device ⟨g, t.flash⟩).1,
        if (Dev.step z bench.device ⟨g, t.flash⟩).2.rebooted then
          (Dev.step z bench.device ⟨g, t.flash⟩).2.reset (t.exchange g).slot0Open
            (t.exchange g).slot1Open
        else (Dev.step z bench.device ⟨g, t.flash⟩).2) := by
    rw [hstep]
    exact (t.exchange g).handle_eq_ite z bench.device f
  have hevents : Wire.events z ⟨bench, uart, conn⟩ t =
      ((t.exchange g).handle z bench.device f).1 := by
    rw [Wire.events, hrequests, hhandle]
    simp
  refine ⟨hevents, ?_⟩
  rw [Wire.carry, hevents, hrequests, Bench.exchange, hhandle]
  rfl

/-- The response to the request, as the PC gets it. -/
theorem encodes_answer {x : Exchange} {d : Dev} (hdst : f.dstAddr = addrDevice)
    (resp : Nat → OtaFrame) (ht : Tailed resp (x.handle z d f).1) :
    ∃ r, firstResponse (x.handle z d f).1 = .ok r ∧
      Encodes (responseBytes resp (x.handle z d f).1) r := by
  have hanswers := (handles_frame (z := z) x d f).answersOnce (isCmd_frame x hdst).1
  have hshort : ∀ {seq cmd payload}, .send seq cmd payload ∈
      (otaFrameProcess z x.flash d (x.frame f)).1 → payload.length ≤ 34 := process_send_short
  rw [x.handle_eq_ite] at ht ⊢
  dsimp only at ht ⊢
  generalize (otaFrameProcess z x.flash d (x.frame f)).1 = es at hanswers hshort ht ⊢
  obtain ⟨payload, k, hmem, hfirst, hbytes, htail⟩ := answersOnce_received hanswers resp
  obtain ⟨h₂, h₃⟩ := htail ht
  refine ⟨_, hfirst, ?_⟩
  rw [hbytes]
  exact encodes_response (hshort hmem) h₂ h₃

/-- **A transit is an exchange of frames.** -/
theorem Wire.Idle.carry (hw : w.Idle) (ht : t.Carries z w f) (hdst : f.dstAddr = addrDevice)
    (hlen : f.wireLen ≤ rxBufSize) :
    ∃ x r, x.recv = firstResponse ∧ (∀ k, (x.flash k).err = 0) ∧
      firstResponse (x.handle z w.bench.device f).1 = .ok r ∧ (w.carry z t).recv.1 = .ok r ∧
      (w.carry z t).recv.2.bench = w.bench.exchange z x f ∧ (w.carry z t).recv.2.Idle := by
  obtain ⟨bench, uart, conn⟩ := w
  obtain ⟨hrunning, huart, hrx, hpending, hconn⟩ := hw
  have hdata : f.data.length ≤ 65535 := by
    rw [Frame.wireLen, rxBufSize] at hlen
    omega
  obtain ⟨g, hg, houtputs, huart', hrx', hpending'⟩ :=
    outputs_request t.stack huart hrx hpending hlen ht.admits ht.arrival ht.announced
  obtain ⟨hevents, hbench⟩ := carry_bench (z := z) conn hrunning hg hdata houtputs
  have htailed := ht.tailed
  have hreads := ht.reads
  rw [hevents] at htailed hreads
  obtain ⟨r, hfirst, hencodes⟩ := encodes_answer hdst t.resp htailed
  obtain ⟨c', hrecv, hc'⟩ := hconn.response hencodes ht.before ht.after hreads
  refine ⟨t.exchange g, r, rfl, ht.flash, hfirst, congrArg Prod.fst hrecv, hbench, ?_, ?_, ?_, ?_,
    ?_⟩
  · change (Wire.carry z _ t).bench.device.rebooted = false
    rw [hbench, Bench.exchange_device]
    exact running_handle _ _ _
  · change UartInv (if _ then _ else _)
    split
    · exact uartInv_init _
    · exact huart'
  · change (if _ then Uart.otaProtocolInit RxState.init.buf else _).rx.len = 0
    split
    · rfl
    · exact hrx'
  · change (if _ then Uart.otaProtocolInit RxState.init.buf else _).pending = []
    split
    · rfl
    · exact hpending'
  · change Drained (t.reads.foldl readPiece conn).recvFrame.2
    rw [hrecv]
    exact hc'

/-! ## The requests of an upgrade -/

end ZephyrStm32.Ota.Link
