import ZephyrStm32.Ota.Device.Protocol
import ZephyrStm32.Ota.Pc.Codec

/-!
# Responses: the device's encoder against the PC's decoder

`ota_send_response` sends the first `frame_len` bytes of a struct whose trailer comes after all of
`data[]`. What stands behind the payload on the wire is therefore the four bytes that the
uninitialised struct has there (`otaSendResponse_eq`), and the PC accepts the response exactly when
the last two of them happen to be the tail (`response_accepted_iff`).
-/

namespace ZephyrStm32.Ota.Link

open Pc (Frame FrameDecoder FieldsAt TailAt WireAt)

/-- The frame that a response stands for. -/
def responseFrame (seq cmd : UInt16) (data : Mem) (len : UInt16) : Frame where
  seq := seq
  srcAddr := 0x20
  dstAddr := 0x00
  totalPackets := 1
  packetSeq := 0
  command := cmd
  data := data.slice 0 len.toNat

/-- The first bytes of the struct, up to the end of its `data`. -/
theorem take_packed (f : OtaFrame) {n : Nat} (h : n ≤ frameMaxDataLen) :
    f.packed.take (OtaFrame.headerSize + n) = f.headerBytes ++ f.data.slice 0 n := by
  obtain ⟨k, hk⟩ := Nat.exists_eq_add_of_le h
  rw [OtaFrame.packed, hk, Mem.slice_add]
  simp only [List.append_assoc]
  rw [← List.append_assoc, List.take_left' (by simp)]

section

variable (resp : OtaFrame) (seq cmd : UInt16) (data : Mem) {len : UInt16}

@[simp] theorem length_responseFrame_data :
    (responseFrame seq cmd data len).data.length = len.toNat := by
  simp [responseFrame]

/-- **The bytes sent**: the head, the payload, and four bytes of the struct's previous content. -/
theorem otaSendResponse_eq (h : len.toNat ≤ 65515) :
    otaSendResponse resp seq cmd data len =
      (responseFrame seq cmd data len).head ++
        ((responseFrame seq cmd data len).data ++ (resp.data.slice len.toNat 4 ++ [])) := by
  have hhead : (otaFrameBuild resp seq addrDevice addrPc 1 0 cmd (some data) len).2.headerBytes =
      (responseFrame seq cmd data len).head := by
    rw [Frame.head, length_responseFrame_data, UInt16.ofNat_toNat]
    rfl
  have hdata : (resp.data.write 0 (data.slice 0 len.toNat)).slice 0 (len.toNat + 4) =
      data.slice 0 len.toNat ++ resp.data.slice len.toNat 4 := by
    rw [Mem.slice_add]
    congr 1
    · exact (Mem.slice_eq_iff (by simp)).2 fun i hi => Mem.write_apply (by simpa using hi)
    · apply Mem.slice_congr
      intro i hi
      rw [Mem.write, if_neg (by simp)]
      simp
  have hlen : (OtaFrame.headerSize + len.toNat + OtaFrame.tailSize) % 65536 =
      OtaFrame.headerSize + (len.toNat + 4) := by
    simp only [OtaFrame.headerSize, OtaFrame.tailSize]
    omega
  change List.take ((OtaFrame.headerSize + len.toNat + OtaFrame.tailSize) % 65536) _ = _
  rw [hlen, take_packed _ (by simp only [frameMaxDataLen]; omega), hhead, List.append_nil]
  exact congrArg _ hdata

/-- **Responses, exactly.** For a payload of up to 65515 bytes the PC's decoders take what the
device sends for the frame it stands for, and for nothing else, if and only if the struct happened
to hold the tail two bytes behind the payload. -/
theorem response_accepted_iff (h : len.toNat ≤ 65515) :
    let bytes := otaSendResponse resp seq cmd data len
    let f := responseFrame seq cmd data len
    let tail := resp.data (len.toNat + 2) = frameTail0 ∧ resp.data (len.toNat + 3) = frameTail1
    (Frame.fromBytes bytes = .ok (f, bytes.length) ↔ tail) ∧
      ((FrameDecoder.new.feed bytes).1 = [f] ↔ tail) := by
  intro bytes f tail
  have hdata : f.data.length = len.toNat := length_responseFrame_data seq cmd data
  have hbytes : bytes = f.head ++ (f.data ++ (resp.data.slice len.toNat 4 ++ [])) :=
    otaSendResponse_eq resp seq cmd data h
  have hlen : bytes.length = f.wireLen := by
    rw [hbytes]
    simp only [List.length_append, Mem.length_slice, List.length_nil, Frame.wireLen]
    change 16 + _ = _
    omega
  have hfields : FieldsAt (Mem.ofList bytes) 0 f := by
    rw [hbytes]
    exact Pc.fieldsAt_head (by omega) _
  have htail : TailAt (Mem.ofList bytes) 0 f.data.length ↔ tail := by
    rw [hbytes, Pc.tailAt_head_iff (by simp)]
    rfl
  have hfeed : (FrameDecoder.new.feed bytes).1 =
      (FrameDecoder.feedLoop (bytes.length + 1) ⟨bytes, 0⟩).1 := rfl
  rw [← htail, hfeed]
  refine ⟨⟨fun hok => (Pc.fromBytes_eq_ok_iff.1 hok).2.2.toTailAt, fun ht => ?_⟩, fun hf => ?_,
    fun ht => ?_⟩
  · exact Pc.fromBytes_eq_ok_iff.2 ⟨hlen.ge, hlen, hfields, ht⟩
  · -- Behind the skipped header there is no room for a frame as long as `f`.
    by_contra hn
    rw [FrameDecoder.feedLoop_reject hfields hn hlen.ge] at hf
    have hle := FrameDecoder.feedLoop_wireLen bytes.length ⟨bytes.drop 2, 0⟩ f
      (hf ▸ List.mem_singleton_self f)
    simp only [List.length_drop, hlen] at hle
    rw [Frame.wireLen] at hle
    omega
  · rw [FrameDecoder.feedLoop_frame ⟨hfields, ht⟩ hlen.ge, ← hlen, List.drop_length,
      FrameDecoder.feedLoop_nil]

end

/-- The answer to a handshake, built where the stack held `CD EF` behind the three bytes. -/
theorem response_accepted_lucky :
    let bytes := otaSendResponse (.onStack (Mem.ofList [0, 0, 0, 0, 0, 0xCD, 0xEF])) 7 cmdHandshake
      (Mem.ofList [0, 0, 1]) 3
    Frame.fromBytes bytes =
      .ok (responseFrame 7 cmdHandshake (Mem.ofList [0, 0, 1]) 3, bytes.length) :=
  (response_accepted_iff _ 7 cmdHandshake (Mem.ofList [0, 0, 1]) (by decide)).1.2
    ⟨by decide, by decide⟩

/-- The same answer, built on a stack of zeros. -/
theorem response_rejected :
    let bytes := otaSendResponse (.onStack fun _ => 0) 7 cmdHandshake (Mem.ofList [0, 0, 1]) 3
    Frame.fromBytes bytes = .error (.invalidTail Pc.frameTail [0, 0]) ∧
      (FrameDecoder.new.feed bytes).1 = [] := by
  rw [otaSendResponse_eq _ _ _ _ (by decide)]
  decide +kernel

end ZephyrStm32.Ota.Link
