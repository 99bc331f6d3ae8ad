import Mathlib.Data.List.Forall2
import ZephyrStm32.Lib.Framing
import ZephyrStm32.Ota.Device.Receiver
import ZephyrStm32.Ota.Pc.Frame

/-!
# Requests: the PC's encoder against the device's receiver

`reassembly`: however the encodings of a list of frames are cut into pieces on their way into
`rx_buf`, and whenever `ota_process_rx` runs in between, it passes on each frame once, in order, as
soon as all its bytes are there, and keeps the beginning of the next one.
-/

namespace ZephyrStm32.Ota.Link

open Framing Machine
open Pc (Frame FieldsAt WireAt)

/-- A frame struct of the device shows what the PC put into a frame. -/
structure Shows (g : OtaFrame) (f : Frame) : Prop where
  seq : g.seq = f.seq
  srcAddr : g.srcAddr = f.srcAddr
  dstAddr : g.dstAddr = f.dstAddr
  totalPackets : g.totalPackets = f.totalPackets
  packetSeq : g.packetSeq = f.packetSeq
  cmd : g.cmd = f.command
  dataLen : g.dataLen.toNat = f.data.length
  payload : g.payload = f.data

/-- The bytes are a frame on the wire: the PC's own decoder accepts them, whatever the reserved
bytes are. -/
def Encodes (e : List UInt8) (f : Frame) : Prop := Frame.fromBytes e = .ok (f, e.length)

theorem encodes_iff {e : List UInt8} {f : Frame} :
    Encodes e f ↔ e.length = f.wireLen ∧ WireAt (Mem.ofList e) 0 f := by
  rw [Encodes, Pc.fromBytes_eq_ok_iff]
  exact ⟨fun h => h.2, fun h => ⟨h.1.ge, h⟩⟩

theorem encodes_toBytes {f : Frame} (h : f.data.length ≤ 65535) : Encodes f.toBytes f := by
  have hb := Pc.fromBytes_toBytes h []
  rw [List.append_nil] at hb
  rw [Encodes, hb, Frame.length_toBytes]

theorem Encodes.length_pos {e : List UInt8} {f : Frame} (h : Encodes e f) : 0 < e.length := by
  rw [(encodes_iff.1 h).1, Frame.wireLen]
  omega

/-! ## The parser at the front of a frame -/

section

variable {m : Mem} {f : Frame} {e : List UInt8} (junk : OtaFrame)

theorem readFrame_shows {p : Nat} (h : FieldsAt m p f) : Shows (readFrame m p junk) f where
  seq := h.seq
  srcAddr := h.srcAddr
  dstAddr := h.dstAddr
  totalPackets := h.totalPackets
  packetSeq := h.packetSeq
  cmd := h.command
  dataLen := h.dataLen
  payload := by rw [payload_readFrame, h.dataLen, h.data]

/-- A frame of fewer than 65536 bytes has its length in 16 bits. -/
theorem totalFrameLen_eq {p : Nat} (h : FieldsAt m p f) (hlen : f.wireLen ≤ 65535) :
    totalFrameLen (m.u16 (p + 14)) = f.wireLen := by
  rw [Frame.wireLen] at hlen
  rw [totalFrameLen, h.dataLen, Frame.wireLen, OtaFrame.headerSize, OtaFrame.tailSize]
  omega

/-- A whole frame at the front is taken. -/
theorem otaFrameParse_frame {len : Nat} (h : WireAt m 0 f) (hlen : f.wireLen ≤ 65535)
    (hfit : f.wireLen ≤ len) :
    otaFrameParse m len junk = ((f.wireLen : Int), readFrame m 0 junk) := by
  have hmin : frameMinSize ≤ len := by
    rw [Frame.wireLen] at hfit
    rw [frameMinSize]
    omega
  have ht : totalFrameLen (m.u16 14) = f.wireLen := totalFrameLen_eq h.toFieldsAt hlen
  rw [otaFrameParse_at junk hmin h.header0 h.header1, ht, if_neg (by omega)]

/-- The beginning of a frame is left alone. -/
theorem otaFrameParse_partial {p : List UInt8} (h : Encodes e f) (hlen : e.length ≤ 65535)
    (hp : p <+: e) (hlt : p.length < e.length) (hm : m.slice 0 p.length = p) :
    otaFrameParse m p.length junk = (-1, junk) := by
  obtain ⟨he, hw⟩ := encodes_iff.1 h
  rcases Nat.lt_or_ge p.length frameMinSize with hs | hs
  · exact otaFrameParse_short junk hs
  · -- The fields up to `data_len` are there, and say that more bytes are to come.
    have hsame : ∀ i < p.length, m i = Mem.ofList e i := by
      intro i hi
      have := (Mem.slice_eq_iff rfl).1 hm i hi
      rw [Nat.zero_add] at this
      obtain ⟨t, rfl⟩ := hp
      rw [this, Mem.ofList_append_left hi]
      rfl
    rw [frameMinSize] at hs
    have hu : m.u16 14 = (Mem.ofList e).u16 14 := by
      rw [Mem.u16, Mem.u16, hsame 14 (by omega), hsame 15 (by omega)]
    have ht : totalFrameLen (m.u16 14) = f.wireLen := by
      rw [hu]
      exact totalFrameLen_eq hw.toFieldsAt (he ▸ hlen)
    rw [otaFrameParse_at junk hs ((hsame 0 (by omega)).trans hw.header0)
      ((hsame 1 (by omega)).trans hw.header1), ht, if_pos (by omega)]

end

/-! ## One call of `ota_process_rx` -/

variable {stack : Nat → OtaFrame} {rx : RxState} {es : List (List UInt8)} {fs : List Frame}
  {pend : List UInt8}

/-- Some encoded frames, none of them longer than a 16-bit length can say. -/
structure Sendable (es : List (List UInt8)) (fs : List Frame) : Prop where
  encodes : List.Forall₂ Encodes es fs
  short : ∀ e ∈ es, e.length ≤ 65535

variable (stack) in
/-- **The loop.** By induction on the frames to come; what is left of the buffer is a prefix of
their encodings in every round. -/
theorem rxLoop_stream (hs : Sendable es fs) {rounds processed : Nat} (hp : pend <+: es.flatten)
    (hbuf : rx.buf.slice processed pend.length = pend) (hlen : processed + pend.length = rx.len)
    (hr : pend.length ≤ rounds) :
    List.Forall₂ Shows (rxLoop stack rx rounds processed).1 (fs.take (complete es pend.length)) ∧
      (rxLoop stack rx rounds processed).2 = processed + consumed es pend.length := by
  obtain ⟨hes, hshort⟩ := hs
  induction hes generalizing rounds processed pend with
  | nil =>
    rw [List.flatten_nil, List.prefix_nil] at hp
    subst hp
    rw [rxLoop_done (by simpa using hlen.ge)]
    exact ⟨.nil, rfl⟩
  | @cons e f es fs he hes ih =>
    have hle : e.length ≤ 65535 := hshort e List.mem_cons_self
    obtain ⟨hwl, hw⟩ := encodes_iff.1 he
    rw [List.flatten_cons] at hp
    rcases Nat.lt_or_ge pend.length e.length with h | h
    · rw [complete_cons_of_lt h, consumed_cons_of_lt h, List.take_zero, Nat.add_zero]
      rcases Nat.eq_zero_or_pos pend.length with h0 | hpos
      · rw [rxLoop_done (by omega)]
        exact ⟨.nil, rfl⟩
      · obtain ⟨rounds, rfl⟩ := Nat.exists_eq_succ_of_ne_zero (by omega : rounds ≠ 0)
        have hpe : pend <+: e :=
          List.prefix_of_prefix_length_le hp (List.prefix_append e _) h.le
        have hm : (rx.buf.at_ processed).slice 0 pend.length = pend := by
          rw [Mem.slice_at]
          exact hbuf
        have hbreak := otaFrameParse_partial (stack processed) he hle hpe h hm
        rw [show pend.length = rx.len - processed by omega] at hbreak
        rw [rxLoop_break (by rw [hbreak]; exact (by decide : (-1 : Int) ≤ 0))]
        exact ⟨.nil, rfl⟩
    · obtain ⟨pend', rfl⟩ := List.prefix_of_prefix_length_le (List.prefix_append e _) hp h
      rw [List.length_append] at hr hlen hbuf
      have hpos := he.length_pos
      obtain ⟨rounds, rfl⟩ := Nat.exists_eq_succ_of_ne_zero (by omega : rounds ≠ 0)
      have hfront : WireAt (rx.buf.at_ processed) 0 f := by
        apply hw.congr
        intro i hi
        have := (Mem.slice_eq_iff rfl).1 (Mem.slice_of_append hbuf) i (by omega)
        rw [Mem.at_apply, Nat.zero_add, this]
        rfl
      have hparse := otaFrameParse_frame (stack processed) hfront (hwl ▸ hle)
        (by omega : f.wireLen ≤ rx.len - processed)
      rw [← hwl] at hparse
      obtain ⟨hframes, hcons⟩ := ih ((List.prefix_append_right_inj e).1 hp)
        (Mem.slice_after hbuf) (by omega) (by omega : pend'.length ≤ rounds)
        (fun e' he' => hshort e' (List.mem_cons_of_mem _ he'))
      have hsub : (e ++ pend').length - e.length = pend'.length := by simp
      rw [complete_cons_of_le h, consumed_cons_of_le h, hsub, List.take_succ_cons,
        rxLoop_next (by omega) hpos hparse]
      refine ⟨.cons (readFrame_shows _ hfront.toFieldsAt) hframes, ?_⟩
      rw [hcons]
      omega

variable (stack) in
/-- **One call**: the frames that are complete are passed on, the rest stays in the buffer. -/
theorem otaProcessRx_stream (hs : Sendable es fs) (hp : rx.content <+: es.flatten) :
    List.Forall₂ Shows (otaProcessRx stack rx).1 (fs.take (complete es rx.content.length)) ∧
      (otaProcessRx stack rx).2.content =
        rx.content.drop (consumed es rx.content.length) := by
  have hlen : rx.content.length = rx.len := Mem.length_slice _ _ _
  obtain ⟨hframes, hcons⟩ := rxLoop_stream stack hs hp
    (by rw [hlen]; rfl) (by omega) hlen.le
  rw [Nat.zero_add] at hcons
  obtain ⟨-, -, hcontent, -⟩ := otaProcessRx_spec stack rx
  rw [RxState.processed, hcons] at hcontent
  exact ⟨hframes, hcontent⟩

/-! ## Over whole runs -/

/-- The bytes that arrived. -/
def delivered : List RxEvent → List UInt8
  | [] => []
  | .received bytes :: events => bytes ++ delivered events
  | .process _ :: events => delivered events

/-- No piece meets a buffer without room for it. -/
def Fits : RxState → List RxEvent → Prop
  | _, [] => True
  | rx, .received bytes :: events =>
    rx.len + bytes.length ≤ rxBufSize ∧ Fits (uartRxRdy rx bytes) events
  | rx, .process stack :: events => Fits (otaProcessRx stack rx).2 events

theorem Sendable.drop (hs : Sendable es fs) (k : Nat) : Sendable (es.drop k) (fs.drop k) :=
  ⟨List.forall₂_drop k hs.encodes, fun e he => hs.short e (List.mem_of_mem_drop he)⟩

/-- **A run.** After any events, some frames have been passed on, and what arrived is their
encodings followed by what the buffer holds. -/
theorem run_stream (hs : Sendable es fs) {events : List RxEvent} (hfit : Fits rx events)
    (hp : rx.content ++ delivered events <+: es.flatten) :
    ∃ k ≤ es.length,
      List.Forall₂ Shows (outputs RxState.step rx events).flatten (fs.take k) ∧
      rx.content ++ delivered events =
        (es.take k).flatten ++ (final RxState.step rx events).content := by
  induction events generalizing rx es fs with
  | nil => exact ⟨0, Nat.zero_le _, .nil, List.append_nil _⟩
  | cons event events ih =>
    cases event with
    | received bytes =>
      obtain ⟨hroom, hfit⟩ := hfit
      have hcontent := content_uartRxRdy hroom
      have heq : rx.content ++ delivered (.received bytes :: events) =
          (uartRxRdy rx bytes).content ++ delivered events := by
        rw [hcontent, List.append_assoc]
        rfl
      rw [heq] at hp ⊢
      exact ih hs hfit hp
    | process stack =>
      obtain ⟨hframes, hcontent⟩ := otaProcessRx_stream stack hs
        ((List.prefix_append _ _).trans hp)
      obtain ⟨hsplit, -⟩ := eq_complete_append ((List.prefix_append _ _).trans hp)
      have hle := complete_le_length es rx.content.length
      generalize complete es rx.content.length = c at hframes hsplit hle
      rw [← hcontent] at hsplit
      have hp' : (otaProcessRx stack rx).2.content ++ delivered events <+: (es.drop c).flatten := by
        rw [hsplit, List.append_assoc] at hp
        exact prefix_drop hp
      obtain ⟨k, hk, hrest, heq⟩ := ih (hs.drop c) hfit hp'
      rw [List.length_drop] at hk
      refine ⟨c + k, by omega, ?_, ?_⟩
      · rw [List.take_add]
        exact List.rel_append hframes hrest
      · rw [List.take_add, List.flatten_append, List.append_assoc, final_cons]
        change _ = _ ++ (_ ++ (final RxState.step (otaProcessRx stack rx).2 events).content)
        rw [← heq, ← List.append_assoc, ← hsplit]
        rfl

/-- **Reassembly.** Let the encodings of some frames, none longer than `rx_buf`, arrive in pieces
that fit, with calls of `ota_process_rx` at any points. After a call, exactly the frames whose
bytes have all arrived have been passed on, each once and in order, and the buffer holds what
arrived of the next one. -/
theorem reassembly (frames : List Frame) (hlen : ∀ f ∈ frames, f.toBytes.length ≤ rxBufSize)
    {events : List RxEvent} {stack : Nat → OtaFrame} {buf : Mem} (hfit : Fits ⟨buf, 0⟩ events)
    (hp : delivered events <+: (frames.map Frame.toBytes).flatten) :
    let sent := frames.map Frame.toBytes
    let k := complete sent (delivered events).length
    let calls := events ++ [.process stack]
    let rest := (final RxState.step ⟨buf, 0⟩ calls).content
    List.Forall₂ Shows (outputs RxState.step ⟨buf, 0⟩ calls).flatten (frames.take k) ∧
      delivered events = (sent.take k).flatten ++ rest ∧ BeginsItem sent k rest := by
  intro sent k calls rest
  have hs : Sendable sent frames := by
    constructor
    · rw [List.forall₂_map_left_iff, List.forall₂_same]
      intro f hf
      have := hlen f hf
      rw [Frame.length_toBytes, Frame.wireLen, rxBufSize] at this
      exact encodes_toBytes (by omega)
    · intro e he
      obtain ⟨f, hf, rfl⟩ := List.mem_map.1 he
      exact (hlen f hf).trans (by decide)
  -- The state before the last call: `j` frames passed on, the rest in the buffer.
  obtain ⟨j, hj, hframes, hsplit⟩ := run_stream hs hfit hp
  generalize hrx : final RxState.step ⟨buf, 0⟩ events = rx at hsplit
  have hsplit : delivered events = (sent.take j).flatten ++ rx.content := hsplit
  have hp : delivered events <+: sent.flatten := hp
  have hprefix : rx.content <+: (sent.drop j).flatten := prefix_drop (hsplit ▸ hp)
  obtain ⟨hlast, hcontent⟩ := otaProcessRx_stream stack (hs.drop j) hprefix
  have hjlen : (sent.take j).length = j := List.length_take_of_le hj
  have hk : k = j + complete (sent.drop j) rx.content.length := by
    have h := complete_append (sent.take j) (sent.drop j) rx.content.length
    rwa [List.take_append_drop, ← List.length_append, ← hsplit, hjlen] at h
  have hc : consumed sent (delivered events).length =
      (sent.take j).flatten.length + consumed (sent.drop j) rx.content.length := by
    have h := consumed_append (sent.take j) (sent.drop j) rx.content.length
    rwa [List.take_append_drop, ← List.length_append, ← hsplit] at h
  have hrest : rest = (delivered events).drop (consumed sent (delivered events).length) := by
    change (final RxState.step ⟨buf, 0⟩ (events ++ [.process stack])).content = _
    rw [final_append, hrx, hc, hsplit, List.drop_length_add_append]
    exact hcontent
  rw [hrest]
  refine ⟨?_, eq_complete_append hp⟩
  rw [hk, List.take_add, outputs_append, List.flatten_append, hrx]
  refine List.rel_append hframes ?_
  rw [outputs_cons, outputs_nil, List.flatten_cons, List.flatten_nil, List.append_nil]
  exact hlast

/-- A handshake, and a packet whose data begins like a frame. -/
def twoFrames : List Frame :=
  [⟨5, 0x00, 0x20, 1, 0, cmdHandshake, []⟩,
    ⟨6, 0x00, 0x20, 1, 0, cmdTransferData, [0, 0, 0, 0, 0x12, 0x34, 0x56]⟩]

def twoFramesBytes : List UInt8 := (twoFrames.map Frame.toBytes).flatten

/-- They arrive in two pieces, the first of which ends behind the `12 34` in the data. The call in
between finds the handshake and 22 bytes more. -/
theorem reassembly_two_pieces :
    let stack : Nat → OtaFrame := fun _ => .onStack fun _ => 0
    List.Forall₂ Shows
      (outputs RxState.step .init [.received (twoFramesBytes.take 42), .process stack,
        .received (twoFramesBytes.drop 42), .process stack]).flatten twoFrames := by
  intro stack
  have hfit : Fits .init [.received (twoFramesBytes.take 42), .process stack,
      .received (twoFramesBytes.drop 42)] := by
    refine ⟨by decide, by decide, trivial⟩
  have hlen : ∀ f ∈ twoFrames, f.toBytes.length ≤ rxBufSize := by decide
  have h := (@reassembly twoFrames hlen _ stack _ hfit (by decide)).1
  have hk : complete (twoFrames.map Frame.toBytes) (delivered [
      .received (twoFramesBytes.take 42), .process stack,
      .received (twoFramesBytes.drop 42)]).length = 2 := by decide
  rw [hk] at h
  exact h

end ZephyrStm32.Ota.Link
