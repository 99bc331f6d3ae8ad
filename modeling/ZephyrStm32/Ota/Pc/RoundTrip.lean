import ZephyrStm32.Lib.Peek
import ZephyrStm32.Ota.Pc.Frame

/-!
# `to_bytes` and `from_bytes` are inverse to each other

The round trip in one direction is `fromBytes_toBytes`. In the other, a buffer that `from_bytes`
accepts begins with the encoding of the frame it gives, but for the two reserved bytes, which are
skipped (`toBytes_of_fromBytes`). `fromBytesPeek` is the decoder as a program that asks for each
byte it looks at; it never asks for one outside the buffer (`below_fromBytesPeek`).
-/

namespace ZephyrStm32.Ota.Pc

open Bytes (le16)

/-! ## The decoder, byte by byte -/

def fromBytesPeek (len : Nat) : Peek FrameError (Frame × Nat) :=
  if len < minFrameSize then .fail (.bufferTooShort minFrameSize len)
  else do
    let h₀ ← Peek.byte 0
    let h₁ ← Peek.byte 1
    if [h₀, h₁] ≠ frameHeader then .fail (.invalidHeader frameHeader [h₀, h₁])
    else
      let seq ← Peek.u16 2
      let srcAddr ← Peek.u16 4
      let dstAddr ← Peek.u16 6
      let totalPackets ← Peek.u16 8
      let packetSeq ← Peek.u16 10
      let command ← Peek.u16 12
      let dataLen ← Peek.u16 14
      let totalExpected := prefixSize + dataLen.toNat + suffixSize
      if len < totalExpected then .fail (.bufferTooShort totalExpected len)
      else
        let data ← Peek.bytes 16 dataLen.toNat
        let t₀ ← Peek.byte (16 + dataLen.toNat + 2)
        let t₁ ← Peek.byte (16 + dataLen.toNat + 3)
        if [t₀, t₁] ≠ frameTail then .fail (.invalidTail frameTail [t₀, t₁])
        else
          return ({ seq, srcAddr, dstAddr, totalPackets, packetSeq, command, data }, totalExpected)

/-- **The same decoder.** -/
theorem value_fromBytesPeek (buf : List UInt8) :
    (fromBytesPeek buf.length).value (Mem.ofList buf) = Frame.fromBytes buf := by
  generalize hm : Mem.ofList buf = m
  have htotal : prefixSize + (m.u16 14).toNat + suffixSize = 20 + (m.u16 14).toNat := by
    simp only [prefixSize, headerSize, fixedFieldSize, suffixSize]
    omega
  have htail : 16 + (m.u16 14).toNat + 2 = 20 + (m.u16 14).toNat - 2 ∧
      16 + (m.u16 14).toNat + 3 = 20 + (m.u16 14).toNat - 1 := by
    omega
  simp only [fromBytesPeek, apply_ite (Peek.value m), Peek.value_bind, Peek.value_byte,
    Peek.value_u16, Peek.value_bytes, Peek.value_fail, Peek.value_pure, Except.bind, htotal,
    htail.1, htail.2]
  rw [fromBytes_eq, hm]
  rfl

/-- No byte outside the buffer is looked at, whatever is in it. -/
theorem below_fromBytesPeek (m : Mem) (len : Nat) : (fromBytesPeek len).Below m len := by
  unfold fromBytesPeek
  split_ifs with hmin
  · exact Peek.below_fail _
  have hmin : 20 ≤ len := Nat.not_lt.1 hmin
  simp only [Peek.below_bind, Peek.below_byte, Peek.value_byte, Except.ok.injEq, forall_eq']
  refine ⟨by omega, by omega, ?_⟩
  split_ifs
  · exact Peek.below_fail _
  simp only [Peek.below_bind, Peek.below_u16, Peek.value_u16, Except.ok.injEq, forall_eq']
  refine ⟨by omega, by omega, by omega, by omega, by omega, by omega, by omega, ?_⟩
  split_ifs with hlen
  · exact Peek.below_fail _
  have hlen : 16 + (m.u16 14).toNat + 4 ≤ len := Nat.not_lt.1 hlen
  simp only [Peek.below_bind, Peek.below_bytes, Peek.value_bytes, Peek.below_byte,
    Peek.value_byte, Except.ok.injEq, forall_eq']
  refine ⟨Or.inr (by omega), by omega, by omega, ?_⟩
  split_ifs
  · exact Peek.below_fail _
  · exact Peek.below_pure _

/-! ## What is accepted is an encoding -/

/-- The bytes before the payload are those of the frame's head. -/
theorem head_of_fieldsAt {m : Mem} {f : Frame} (h : FieldsAt m 0 f) : f.head = m.slice 0 16 := by
  have hlen : UInt16.ofNat f.data.length = m.u16 14 := by
    rw [← h.dataLen, UInt16.ofNat_toNat]
  have h0 : m 0 = 0x12 := h.header0
  have h1 : m 1 = 0x34 := h.header1
  rw [Frame.head, hlen, ← h.seq, ← h.srcAddr, ← h.dstAddr, ← h.totalPackets, ← h.packetSeq,
    ← h.command]
  simp only [Mem.u16, Bytes.le16_u16le, frameHeader, ← h0, ← h1]
  rfl

/-- `buf[0 .. n)` with zeros for the reserved bytes of the frame. -/
def zeroReserved (buf : List UInt8) (n : Nat) : List UInt8 :=
  ((buf.take n).set (n - 4) 0x00).set (n - 3) 0x00

theorem zeroReserved_eq {buf a : List UInt8} {n : Nat} {r₀ r₁ t₀ t₁ : UInt8}
    (h : buf.take n = a ++ [r₀, r₁, t₀, t₁]) (hn : n = a.length + 4) :
    zeroReserved buf n = a ++ [0x00, 0x00, t₀, t₁] := by
  subst hn
  rw [zeroReserved, h]
  simp

/-- **What is accepted is an encoding**, but for the reserved bytes. -/
theorem toBytes_of_fromBytes {buf : List UInt8} {f : Frame} {n : Nat}
    (h : Frame.fromBytes buf = .ok (f, n)) :
    n ≤ buf.length ∧ f.data.length ≤ 65535 ∧ f.toBytes = zeroReserved buf n := by
  obtain ⟨hle, rfl, hw⟩ := fromBytes_eq_ok_iff.1 h
  have hdata : f.data.length ≤ 65535 := by
    rw [← hw.dataLen]
    exact Nat.le_of_lt_succ (UInt16.toNat_lt _)
  refine ⟨hle, hdata, ?_⟩
  have hfront : buf.take f.wireLen = (Mem.ofList buf).slice 0 f.wireLen := by
    rw [← take_drop_eq_slice (by omega), List.drop_zero]
  have htail : (Mem.ofList buf).slice (16 + f.data.length) 4 = [Mem.ofList buf (16 + f.data.length),
      Mem.ofList buf (16 + f.data.length + 1), 0xCD, 0xEF] := by
    rw [← hw.tail0, ← hw.tail1, show 0 + 18 + f.data.length = 16 + f.data.length + 2 by omega,
      show 0 + 19 + f.data.length = 16 + f.data.length + 3 by omega]
    rfl
  have hbuf : buf.take f.wireLen = (f.head ++ f.data) ++ [Mem.ofList buf (16 + f.data.length),
      Mem.ofList buf (16 + f.data.length + 1), 0xCD, 0xEF] := by
    rw [hfront, Frame.wireLen, show 20 + f.data.length = 16 + f.data.length + 4 by omega,
      Mem.slice_add, Mem.slice_add, ← head_of_fieldsAt hw.toFieldsAt, Nat.zero_add, Nat.zero_add,
      htail]
    exact congrArg (f.head ++ · ++ _) hw.data
  have hlen : f.wireLen = (f.head ++ f.data).length + 4 := by
    rw [List.length_append, Frame.wireLen, show f.head.length = 16 from rfl]
    omega
  rw [zeroReserved_eq hbuf hlen, toBytes_eq, List.append_assoc]

/-- **Encoder and decoder are inverse.** Every frame that 16 bits can describe is read back from
its encoding; every buffer that is accepted begins, up to the reserved bytes, with the encoding of
the frame it gives; and the decoder looks at no byte outside its buffer. -/
theorem frame_bijection :
    (∀ (f : Frame) (rest : List UInt8), f.data.length ≤ 65535 →
      Frame.fromBytes (f.toBytes ++ rest) = .ok (f, f.toBytes.length)) ∧
    (∀ (buf : List UInt8) (f : Frame) (n : Nat), Frame.fromBytes buf = .ok (f, n) →
      n ≤ buf.length ∧ f.data.length ≤ 65535 ∧ f.toBytes = zeroReserved buf n) ∧
    ∀ buf : List UInt8, (fromBytesPeek buf.length).value (Mem.ofList buf) = Frame.fromBytes buf ∧
      ∀ i ∈ (fromBytesPeek buf.length).reads (Mem.ofList buf), i < buf.length := by
  refine ⟨fun f rest h => ?_, fun buf f n => toBytes_of_fromBytes, fun buf => ⟨?_, ?_⟩⟩
  · rw [fromBytes_toBytes h rest, Frame.length_toBytes]
  · exact value_fromBytesPeek buf
  · exact below_fromBytesPeek _ _

/-- A packet whose data looks like the two ends of a frame, and with two reserved bytes that are not
zero. -/
theorem frame_bijection_data :
    let buf : List UInt8 :=
      [0x12, 0x34, 7, 0, 0, 0, 0x20, 0, 9, 0, 2, 0, 4, 0, 5, 0, 0xCD, 0xEF, 0x12, 0x34, 0x56,
        0xAA, 0xBB, 0xCD, 0xEF]
    let f : Frame := ⟨7, 0, 0x20, 9, 2, 4, [0xCD, 0xEF, 0x12, 0x34, 0x56]⟩
    Frame.fromBytes (f.toBytes ++ [0x12]) = .ok (f, 25) ∧ f.toBytes = zeroReserved buf 25 :=
  ⟨frame_bijection.1 _ _ (by decide), (frame_bijection.2.1 _ _ _ (by decide)).2.2⟩

end ZephyrStm32.Ota.Pc
