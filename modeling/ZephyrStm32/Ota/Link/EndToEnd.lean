import ZephyrStm32.Ota.Device.Flow
import ZephyrStm32.Ota.Link.Reassembly
import ZephyrStm32.Ota.Pc.Commands
import ZephyrStm32.Ota.Pc.Firmware

/-!
# From the firmware file to the flash

`end_to_end` composes the PC's splitter, builders and encoder with the device's parser and
handlers: the image arrives in slot1, and every answer on the way is 0x00.
-/

namespace ZephyrStm32.Ota.Link

open Bytes (le16 le32)
open Machine
open Pc (Frame FrameError FirmwarePacket)

/-! ## The requests of a transfer -/

/-- One DATA frame for each packet, numbered from `i` on. -/
def dataFrames (total : UInt16) : Nat → List FirmwarePacket → Except FrameError (List Frame)
  | _, [] => .ok []
  | i, p :: ps => do
    let frame ← Pc.buildTransferData p.offset p.data (UInt16.ofNat i) total
    let frames ← dataFrames total (i + 1) ps
    return frame :: frames

/-- The frames `do_upgrade` builds from START to VERIFY. -/
def transferFrames (crc32fastHash : List UInt8 → UInt32) (fw : List UInt8)
    (version : Vector UInt8 4) (chunkSize : Nat) : Except FrameError (List Frame) := do
  let fwSize := UInt32.ofNat fw.length
  let fwCrc := Pc.calcCrc32 crc32fastHash fw
  let packets := Pc.splitIntoPackets fw chunkSize
  let start ← Pc.buildStartUpgrade fwSize fwCrc version
  let data ← dataFrames (UInt16.ofNat packets.length) 0 packets
  let done ← Pc.buildTransferComplete fwCrc fwSize
  let verify ← Pc.buildVerifyFirmware
  return start :: data ++ [done, verify]

/-- `f`, encoded by `to_bytes`, is parsed by `ota_frame_parse` into the request `q`, whose flash
calls succeed. -/
structure Arrives (q : Request) (f : Frame) : Prop where
  parse : ∃ junk, otaFrameParse (Mem.ofList f.toBytes) f.toBytes.length junk =
    ((f.toBytes.length : Int), q.frame)
  flash : ∀ k, (q.flash k).err = 0

/-- A frame from the PC to the device that 16-bit lengths can describe. -/
structure ForDevice (f : Frame) : Prop where
  dstAddr : f.dstAddr = Pc.addrDevice
  short : f.wireLen ≤ 65535

/-- Every frame arrives, whatever the parser finds on its stack. -/
theorem otaFrameParse_toBytes {f : Frame} (h : f.wireLen ≤ 65535) (junk : OtaFrame) :
    otaFrameParse (Mem.ofList f.toBytes) f.toBytes.length junk =
      ((f.toBytes.length : Int), readFrame (Mem.ofList f.toBytes) 0 junk) := by
  have hdata : f.data.length ≤ 65535 := by
    rw [Frame.wireLen] at h
    omega
  have hw := Pc.wireAt_toBytes hdata []
  rw [List.append_nil] at hw
  have hparse := otaFrameParse_frame junk hw h (Frame.length_toBytes f).ge
  rwa [← Frame.length_toBytes] at hparse

theorem Arrives.delivers {q : Request} {f : Frame} (h : Arrives q f) (hf : ForDevice f) :
    Delivers q (f.command, f.data) := by
  obtain ⟨junk, hparse⟩ := h.parse
  rw [otaFrameParse_toBytes hf.short] at hparse
  have hdata : f.data.length ≤ 65535 := by
    have := hf.short
    rw [Frame.wireLen] at this
    omega
  have hw := Pc.wireAt_toBytes hdata []
  rw [List.append_nil] at hw
  have hs : Shows q.frame f := by
    rw [← (Prod.mk.inj hparse).2]
    exact readFrame_shows junk hw.toFieldsAt
  exact ⟨⟨Or.inl (hs.dstAddr.trans hf.dstAddr), hs.cmd⟩, hs.payload, h.flash⟩

/-! ## What the PC builds -/

/-- The DATA frames of contiguous packets are the DATA requests of their payloads. -/
theorem dataFrames_eq_ok {packets : List FirmwarePacket} {s : Nat}
    (hcont : Pc.Contiguous s packets) (hlen : ∀ p ∈ packets, p.data.length ≤ 4072)
    (total : UInt16) (i : Nat) :
    ∃ frames, dataFrames total i packets = .ok frames ∧ (∀ f ∈ frames, ForDevice f) ∧
      frames.map (fun f => (f.command, f.data)) = dataPackets s (packets.map (·.data)) := by
  induction packets generalizing s i with
  | nil => exact ⟨[], rfl, by simp, rfl⟩
  | cons p ps ih =>
    obtain ⟨hoff, hcont⟩ := hcont
    have hp : p.data.length ≤ 4072 := hlen p List.mem_cons_self
    obtain ⟨frames, hok, hdev, hmap⟩ :=
      ih hcont (fun q hq => hlen q (List.mem_cons_of_mem _ hq)) (i + 1)
    rw [dataFrames, Pc.buildTransferData_eq_ok (by omega)]
    refine ⟨_, by rw [hok]; rfl, ?_, ?_⟩
    · intro f hf
      rcases List.mem_cons.1 hf with rfl | hf
      · refine ⟨rfl, ?_⟩
        simp only [Frame.wireLen, List.length_append, Bytes.length_le32]
        omega
      · exact hdev f hf
    · rw [List.map_cons, hmap, hoff]
      rfl

/-- The frames of a transfer are the requests of the device's flow, for the payloads as pieces. -/
theorem transferFrames_eq_ok {crc32fastHash : List UInt8 → UInt32}
    (hhash : ∀ l, crc32fastHash l = Crc32.hash l) (fw : List UInt8) (version : Vector UInt8 4)
    {c : Nat} (hc : c ≤ 4072) :
    ∃ frames pieces, transferFrames crc32fastHash fw version c = .ok frames ∧
      (∀ f ∈ frames, ForDevice f) ∧ pieces.flatten = fw ∧
      frames.map (fun f => (f.command, f.data)) =
        transferRequests version (Crc32.hash fw) pieces := by
  have hlen : ∀ p ∈ Pc.splitIntoPackets fw c, p.data.length ≤ 4072 := fun p hp =>
    (Pc.length_split fw c p hp).trans (max_le hc (by decide))
  have hpieces := Pc.flatten_split fw c
  obtain ⟨data, hok, hdev, hmap⟩ := dataFrames_eq_ok (Pc.contiguous_split fw c) hlen
    (UInt16.ofNat (Pc.splitIntoPackets fw c).length) 0
  let fromPc (command : UInt16) (payload : List UInt8) : Frame :=
    ⟨0, Pc.addrPc, Pc.addrDevice, 1, 0, command, payload⟩
  let size := le32 (UInt32.ofNat fw.length)
  let crc := le32 (Pc.calcCrc32 crc32fastHash fw)
  refine ⟨fromPc Pc.cmdStartUpgrade (size ++ crc ++ version.toList) :: data ++
    [fromPc Pc.cmdTransferComplete (crc ++ size), fromPc Pc.cmdVerifyFirmware []],
    (Pc.splitIntoPackets fw c).map (·.data), ?_, ?_, hpieces, ?_⟩
  · rw [transferFrames, Pc.buildStartUpgrade, Pc.new_eq_ok (by simp), hok,
      Pc.buildTransferComplete, Pc.new_eq_ok (by simp), Pc.buildVerifyFirmware,
      Pc.new_eq_ok (by simp)]
    rfl
  · intro f hf
    simp only [List.cons_append, List.mem_cons, List.mem_append, List.not_mem_nil, or_false]
      at hf
    rcases hf with rfl | hf | rfl | rfl
    · exact ⟨rfl, by simp [fromPc, size, crc, Frame.wireLen]⟩
    · exact hdev f hf
    · exact ⟨rfl, by simp [fromPc, size, crc, Frame.wireLen]⟩
    · exact ⟨rfl, by simp [fromPc, Frame.wireLen]⟩
  · have hcrc : crc = le32 (Crc32.hash fw) := by simp only [crc, Pc.calcCrc32, hhash]
    rw [transferRequests, hpieces, ← hcrc, List.map_append, List.map_cons, hmap]
    rfl

theorem forall₂_delivers {qs : List Request} {frames : List Frame}
    (hqs : List.Forall₂ Arrives qs frames) (hdev : ∀ f ∈ frames, ForDevice f) :
    List.Forall₂ Delivers qs (frames.map (fun f => (f.command, f.data))) := by
  induction hqs with
  | nil => exact .nil
  | cons h hqs ih =>
    obtain ⟨hf, hdev⟩ := List.forall_mem_cons.1 hdev
    exact .cons (h.delivers hf) (ih hdev)

variable {z : Zephyr} {crc32fastHash : List UInt8 → UInt32}

/-- **The image arrives.** The PC builds all frames of a transfer, `ota_frame_parse` takes each as
one whole frame, and an idle device with room for the image answers each with 0x00, VERIFY with
the PC's checksum; slot1 then begins with the image. -/
theorem end_to_end (hz : z.Documented) (hhash : ∀ l, crc32fastHash l = Crc32.hash l)
    (d : Dev) (hb : d.rebooted = false) (hi : d.ota.status = .idle) (fw : List UInt8)
    (hfit : fw.length ≤ d.ota.slotSize.toNat) (version : Vector UInt8 4)
    (c : Nat) (hc : 1 ≤ c ∧ c ≤ 4072) :
    ∃ frames, transferFrames crc32fastHash fw version c = .ok frames ∧
      (∀ f ∈ frames, ∀ junk,
        (otaFrameParse (Mem.ofList f.toBytes) f.toBytes.length junk).1 = f.toBytes.length) ∧
      ∀ qs, List.Forall₂ Arrives qs frames →
        (outputs (Dev.step z) d qs).map answer = List.replicate frames.length (some 0x00) ∧
        (outputs (Dev.step z) d qs).getLast?.bind response =
          some (ackBytes 0x00 (Pc.calcCrc32 crc32fastHash fw)) ∧
        (final (Dev.step z) d qs).slot1.slice 0 fw.length = fw := by
  obtain ⟨frames, pieces, hok, hdev, hpieces, hmap⟩ :=
    transferFrames_eq_ok hhash fw version hc.2
  refine ⟨frames, hok, ?_, ?_⟩
  · intro f hf junk
    rw [otaFrameParse_toBytes (hdev f hf).short]
  · intro qs hqs
    have hdel := forall₂_delivers hqs hdev
    rw [hmap, ← hpieces] at hdel
    obtain ⟨hans, hresp, hslot, -, -⟩ :=
      transfer_flow hz hb hi (by rw [hpieces]; exact hfit) hdel
    rw [hpieces] at hresp hslot
    rw [hqs.length_eq] at hans
    refine ⟨hans, ?_, hslot⟩
    rw [hresp, Pc.calcCrc32, hhash]

/-- The requests `ota_frame_parse` makes of frames on a zeroed stack, with a working flash. -/
def arrivals (frames : List Frame) : List Request :=
  frames.map fun f =>
    ⟨(otaFrameParse (Mem.ofList f.toBytes) f.toBytes.length (.onStack fun _ => 0)).2, .ok⟩

theorem arrives_arrivals {frames : List Frame} (h : ∀ f ∈ frames, ∀ junk,
    (otaFrameParse (Mem.ofList f.toBytes) f.toBytes.length junk).1 = f.toBytes.length) :
    List.Forall₂ Arrives (arrivals frames) frames := by
  rw [arrivals, List.forall₂_map_left_iff, List.forall₂_same]
  exact fun f hf => ⟨⟨.onStack fun _ => 0, Prod.ext (h f hf _) rfl⟩, fun _ => rfl⟩

/-- Three bytes in two packets, on the board. -/
theorem end_to_end_board :
    ∃ frames, transferFrames Crc32.hash [0xAA, 0xBB, 0xCC] #v[1, 0, 2, 0] 2 = .ok frames ∧
      (final (Dev.step .standard) .board (arrivals frames)).slot1.slice 0 3 =
        [0xAA, 0xBB, 0xCC] := by
  obtain ⟨frames, hok, hparse, h⟩ := end_to_end Zephyr.documented_standard (fun _ => rfl) .board
    (by decide) (by decide) [0xAA, 0xBB, 0xCC] (by decide) #v[1, 0, 2, 0] 2 (by decide)
  exact ⟨frames, hok, (h (arrivals frames) (arrives_arrivals hparse)).2.2⟩

end ZephyrStm32.Ota.Link
