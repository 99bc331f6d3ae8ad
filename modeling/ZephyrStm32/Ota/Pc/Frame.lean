import ZephyrStm32.Lib.Bytes

/-!
# The PC's frames: `protocol/frame.rs`

`Frame.toBytes` and `Frame.fromBytes`, and the bytes of a frame in memory (`FieldsAt`, `TailAt`),
the layout that both ends of the link agree on. `fromBytes_eq_ok_iff` says that the decoder accepts
exactly this layout.
-/

namespace ZephyrStm32.Ota.Pc

open Bytes (le16)

/-! ## Constants -/

def frameHeader : List UInt8 := [0x12, 0x34]
def frameTail : List UInt8 := [0xCD, 0xEF]
def headerSize : Nat := 2
def fixedFieldSize : Nat := 14
def prefixSize : Nat := headerSize + fixedFieldSize
def suffixSize : Nat := 4
def minFrameSize : Nat := prefixSize + suffixSize

def addrPc : UInt16 := 0x0000
def addrDevice : UInt16 := 0x0020

def errorMarker : List UInt8 := [0xFF, 0xFF, 0xFF, 0xFF]

/-! ## `Frame` -/

structure Frame where
  seq : UInt16
  srcAddr : UInt16
  dstAddr : UInt16
  totalPackets : UInt16
  packetSeq : UInt16
  command : UInt16
  data : List UInt8
  deriving DecidableEq, Repr

inductive FrameError
  | dataTooLong (len : Nat)
  | bufferTooShort (need got : Nat)
  | invalidHeader (expected got : List UInt8)
  | invalidTail (expected got : List UInt8)
  | dataLengthMismatch (declared : UInt16) (actual : Nat)
  deriving DecidableEq, Repr

/-- `u16::from_le_bytes([buf[pos], buf[pos + 1]])`. -/
def u16At (buf : List UInt8) (pos : Nat) (h : pos + 1 < buf.length) : UInt16 :=
  Bytes.u16le buf[pos] buf[pos + 1]

namespace Frame

def new (command : UInt16) (data : List UInt8) : Except FrameError Frame :=
  if data.length > 65535 then .error (.dataTooLong data.length)
  else .ok
    { seq := 0
      srcAddr := addrPc
      dstAddr := addrDevice
      totalPackets := 1
      packetSeq := 0
      command := command
      data := data }

/-- `data.len() as u16` keeps the low 16 bits. -/
def toBytes (f : Frame) : List UInt8 :=
  let dataLen := UInt16.ofNat f.data.length
  frameHeader ++ le16 f.seq ++ le16 f.srcAddr ++ le16 f.dstAddr ++ le16 f.totalPackets ++
    le16 f.packetSeq ++ le16 f.command ++ le16 dataLen ++ f.data ++ [0x00, 0x00] ++ frameTail

/-- The frame at the start of `buf`, and the number of bytes it takes. Every index is below
`buf.len()`: the proofs are part of the expressions. -/
def fromBytes (buf : List UInt8) : Except FrameError (Frame × Nat) :=
  if hmin : buf.length < minFrameSize then .error (.bufferTooShort minFrameSize buf.length)
  else
    have hmin : 20 ≤ buf.length := Nat.not_lt.1 hmin
    let header := [buf[0], buf[1]]
    if header ≠ frameHeader then .error (.invalidHeader frameHeader header)
    else
      let dataLen := u16At buf 14 (by omega)
      let totalExpected := prefixSize + dataLen.toNat + suffixSize
      if htotal : buf.length < totalExpected then
        .error (.bufferTooShort totalExpected buf.length)
      else
        have htotal : 16 + dataLen.toNat + 4 ≤ buf.length := Nat.not_lt.1 htotal
        let tail := [buf[16 + dataLen.toNat + 2], buf[16 + dataLen.toNat + 3]]
        if tail ≠ frameTail then .error (.invalidTail frameTail tail)
        else .ok
          ({ seq := u16At buf 2 (by omega)
             srcAddr := u16At buf 4 (by omega)
             dstAddr := u16At buf 6 (by omega)
             totalPackets := u16At buf 8 (by omega)
             packetSeq := u16At buf 10 (by omega)
             command := u16At buf 12 (by omega)
             data := (buf.drop 16).take dataLen.toNat }, totalExpected)

/-- Four bytes of 0xFF. -/
def isErrorResponse (f : Frame) : Bool := f.data.length == 4 && f.data == errorMarker

def isSuccess (f : Frame) : Bool := !f.data.isEmpty && f.data.head? == some 0x00

/-- The length of the frame on the wire. -/
def wireLen (f : Frame) : Nat := 20 + f.data.length

@[simp] theorem length_toBytes (f : Frame) : f.toBytes.length = f.wireLen := by
  simp only [toBytes, List.length_append, Bytes.length_le16, frameHeader, frameTail,
    List.length_cons, List.length_nil, wireLen]
  omega

end Frame

/-! ## The layout of a frame in memory -/

/-- The header, the fixed fields and the payload of `f` are at `m[p]`. -/
structure FieldsAt (m : Mem) (p : Nat) (f : Frame) : Prop where
  header0 : m p = 0x12
  header1 : m (p + 1) = 0x34
  seq : m.u16 (p + 2) = f.seq
  srcAddr : m.u16 (p + 4) = f.srcAddr
  dstAddr : m.u16 (p + 6) = f.dstAddr
  totalPackets : m.u16 (p + 8) = f.totalPackets
  packetSeq : m.u16 (p + 10) = f.packetSeq
  command : m.u16 (p + 12) = f.command
  dataLen : (m.u16 (p + 14)).toNat = f.data.length
  data : m.slice (p + 16) f.data.length = f.data

/-- The tail of a frame with `n` bytes of payload is in place. -/
structure TailAt (m : Mem) (p n : Nat) : Prop where
  tail0 : m (p + 18 + n) = 0xCD
  tail1 : m (p + 19 + n) = 0xEF

/-- All of `f` is at `m[p]`. -/
structure WireAt (m : Mem) (p : Nat) (f : Frame) : Prop extends FieldsAt m p f,
  TailAt m p f.data.length

theorem FieldsAt.congr {m m' : Mem} {p p' : Nat} {f : Frame} (h : FieldsAt m p f)
    (he : ∀ i < 16 + f.data.length, m' (p' + i) = m (p + i)) : FieldsAt m' p' f := by
  have hu : ∀ i < 15, m'.u16 (p' + i) = m.u16 (p + i) := by
    intro i hi
    rw [Mem.u16, Mem.u16, he i (by omega), Nat.add_assoc, Nat.add_assoc, he (i + 1) (by omega)]
  have hs : m'.slice (p' + 16) f.data.length = m.slice (p + 16) f.data.length := by
    apply Mem.slice_congr
    intro i hi
    rw [Nat.add_assoc, Nat.add_assoc, he (16 + i) (by omega)]
  constructor
  · rw [← h.header0]
    exact he 0 (by omega)
  · rw [he 1 (by omega), h.header1]
  · rw [hu 2 (by omega), h.seq]
  · rw [hu 4 (by omega), h.srcAddr]
  · rw [hu 6 (by omega), h.dstAddr]
  · rw [hu 8 (by omega), h.totalPackets]
  · rw [hu 10 (by omega), h.packetSeq]
  · rw [hu 12 (by omega), h.command]
  · rw [hu 14 (by omega), h.dataLen]
  · rw [hs, h.data]

theorem WireAt.congr {m m' : Mem} {p p' : Nat} {f : Frame} (h : WireAt m p f)
    (he : ∀ i < f.wireLen, m' (p' + i) = m (p + i)) : WireAt m' p' f := by
  unfold Frame.wireLen at he
  refine ⟨h.toFieldsAt.congr fun i hi => he i (by omega), ⟨?_, ?_⟩⟩
  · rw [Nat.add_assoc, he (18 + f.data.length) (by omega), ← Nat.add_assoc, h.tail0]
  · rw [Nat.add_assoc, he (19 + f.data.length) (by omega), ← Nat.add_assoc, h.tail1]

/-- The frame that the fields at `m[p]` describe. -/
def fieldsOf (m : Mem) (p : Nat) : Frame where
  seq := m.u16 (p + 2)
  srcAddr := m.u16 (p + 4)
  dstAddr := m.u16 (p + 6)
  totalPackets := m.u16 (p + 8)
  packetSeq := m.u16 (p + 10)
  command := m.u16 (p + 12)
  data := m.slice (p + 16) (m.u16 (p + 14)).toNat

/-- The bytes at `m[p]` describe one frame only. -/
theorem fieldsAt_iff {m : Mem} {p : Nat} {f : Frame} :
    FieldsAt m p f ↔ m p = 0x12 ∧ m (p + 1) = 0x34 ∧ f = fieldsOf m p := by
  constructor
  · rintro ⟨h0, h1, hseq, hsrc, hdst, htot, hpkt, hcmd, hlen, hdata⟩
    refine ⟨h0, h1, ?_⟩
    rw [fieldsOf, hseq, hsrc, hdst, htot, hpkt, hcmd, hlen, hdata]
  · rintro ⟨h0, h1, rfl⟩
    exact ⟨h0, h1, rfl, rfl, rfl, rfl, rfl, rfl, by simp [fieldsOf], by simp [fieldsOf]⟩

/-! ## The decoder accepts this layout -/

theorem getElem_eq_ofList {buf : List UInt8} {i : Nat} (h : i < buf.length) :
    buf[i] = Mem.ofList buf i := by
  simp [Mem.ofList, h]

theorem u16At_eq {buf : List UInt8} {pos : Nat} (h : pos + 1 < buf.length) :
    u16At buf pos h = (Mem.ofList buf).u16 pos := by
  rw [u16At, getElem_eq_ofList, getElem_eq_ofList]
  rfl

theorem take_drop_eq_slice {buf : List UInt8} {p n : Nat} (h : p + n ≤ buf.length) :
    (buf.drop p).take n = (Mem.ofList buf).slice p n := by
  apply List.ext_getElem (by simp; omega)
  intro i h₁ h₂
  rw [Mem.getElem_slice, ← getElem_eq_ofList (by simp at h₂; omega)]
  simp

/-- `fromBytes` over the memory that holds the buffer. -/
theorem fromBytes_eq (buf : List UInt8) :
    let m := Mem.ofList buf
    let total := 20 + (m.u16 14).toNat
    Frame.fromBytes buf =
      if buf.length < 20 then .error (.bufferTooShort 20 buf.length)
      else if [m 0, m 1] ≠ frameHeader then .error (.invalidHeader frameHeader [m 0, m 1])
      else if buf.length < total then .error (.bufferTooShort total buf.length)
      else if [m (total - 2), m (total - 1)] ≠ frameTail then
        .error (.invalidTail frameTail [m (total - 2), m (total - 1)])
      else .ok (fieldsOf m 0, total) := by
  intro m total
  have htotal : prefixSize + (m.u16 14).toNat + suffixSize = total := by
    simp only [prefixSize, headerSize, fixedFieldSize, suffixSize, total]
    omega
  have htail : 16 + (m.u16 14).toNat + 2 = total - 2 ∧ 16 + (m.u16 14).toNat + 3 = total - 1 := by
    omega
  simp only [Frame.fromBytes, u16At_eq, getElem_eq_ofList, dite_eq_ite]
  rw [show Mem.ofList buf = m from rfl, show minFrameSize = 20 from rfl, htotal, htail.1, htail.2]
  split_ifs with hmin hheader hlen htail
  · rfl
  · rfl
  · rfl
  · rfl
  · rw [take_drop_eq_slice (by omega)]
    rfl

theorem pair_eq_iff {a b c d : UInt8} : [a, b] = [c, d] ↔ a = c ∧ b = d := by simp

/-- **What `from_bytes` accepts**: the layout of a frame, with its tail, inside the buffer. -/
theorem fromBytes_eq_ok_iff {buf : List UInt8} {f : Frame} {n : Nat} :
    Frame.fromBytes buf = .ok (f, n) ↔
      f.wireLen ≤ buf.length ∧ n = f.wireLen ∧ WireAt (Mem.ofList buf) 0 f := by
  have hlen : ∀ g : Frame, FieldsAt (Mem.ofList buf) 0 g →
      20 + ((Mem.ofList buf).u16 14).toNat = g.wireLen := fun g hg =>
    congrArg (20 + ·) hg.dataLen
  rw [fromBytes_eq]
  constructor
  · intro h
    split_ifs at h with hmin hheader htotal htail
    obtain ⟨hf, hn⟩ := Prod.mk.inj (Except.ok.inj h)
    obtain ⟨h0, h1⟩ := pair_eq_iff.1 (not_not.1 hheader)
    obtain ⟨ht0, ht1⟩ := pair_eq_iff.1 (not_not.1 htail)
    have hfields : FieldsAt (Mem.ofList buf) 0 f := fieldsAt_iff.2 ⟨h0, h1, hf.symm⟩
    have hw := hlen f hfields
    rw [hw, Frame.wireLen] at ht0 ht1
    refine ⟨by omega, by omega, hfields, ⟨?_, ?_⟩⟩
    · rw [← ht0]
      congr 1
      omega
    · rw [← ht1]
      congr 1
      omega
  · rintro ⟨hle, rfl, hw⟩
    obtain ⟨h0, h1, hf⟩ := fieldsAt_iff.1 hw.toFieldsAt
    have ht0 : (Mem.ofList buf) (f.wireLen - 2) = 0xCD := by
      rw [← hw.tail0]
      congr 1
      rw [Frame.wireLen]
      omega
    have ht1 : (Mem.ofList buf) (f.wireLen - 1) = 0xEF := by
      rw [← hw.tail1]
      congr 1
      rw [Frame.wireLen]
      omega
    have hheader : [Mem.ofList buf 0, Mem.ofList buf 1] = frameHeader := pair_eq_iff.2 ⟨h0, h1⟩
    have htail : [Mem.ofList buf (f.wireLen - 2), Mem.ofList buf (f.wireLen - 1)] = frameTail :=
      pair_eq_iff.2 ⟨ht0, ht1⟩
    rw [hlen f hw.toFieldsAt, if_neg (by rw [Frame.wireLen] at hle; omega),
      if_neg (not_not.2 hheader), if_neg (by omega), if_neg (not_not.2 htail), ← hf]

/-! ## The encoder produces it -/

/-- The sixteen bytes before the payload. -/
def Frame.head (f : Frame) : List UInt8 :=
  frameHeader ++ le16 f.seq ++ le16 f.srcAddr ++ le16 f.dstAddr ++ le16 f.totalPackets ++
    le16 f.packetSeq ++ le16 f.command ++ le16 (UInt16.ofNat f.data.length)

theorem toBytes_eq (f : Frame) : f.toBytes = f.head ++ (f.data ++ [0x00, 0x00, 0xCD, 0xEF]) := by
  simp only [Frame.toBytes, Frame.head, frameTail, List.append_assoc, List.cons_append,
    List.nil_append]

section

variable {f : Frame} (h : f.data.length ≤ 65535)
include h

/-- The head of a frame and its payload hold its fields, whatever follows. -/
theorem fieldsAt_head (rest : List UInt8) :
    FieldsAt (Mem.ofList (f.head ++ (f.data ++ rest))) 0 f := by
  generalize hm : Mem.ofList (f.head ++ (f.data ++ rest)) = m
  have hhead : ∀ i < 16, m i = Mem.ofList f.head i := by
    intro i hi
    rw [← hm, Mem.ofList_append_left hi]
  have hu : ∀ i < 15, m.u16 (0 + i) = (Mem.ofList f.head).u16 i := by
    intro i hi
    rw [Nat.zero_add, Mem.u16, Mem.u16, hhead i (by omega), hhead (i + 1) (by omega)]
  constructor
  · exact hhead 0 (by omega)
  · exact hhead 1 (by omega)
  · exact (hu 2 (by omega)).trans (Bytes.u16le_le16 _)
  · exact (hu 4 (by omega)).trans (Bytes.u16le_le16 _)
  · exact (hu 6 (by omega)).trans (Bytes.u16le_le16 _)
  · exact (hu 8 (by omega)).trans (Bytes.u16le_le16 _)
  · exact (hu 10 (by omega)).trans (Bytes.u16le_le16 _)
  · exact (hu 12 (by omega)).trans (Bytes.u16le_le16 _)
  · rw [(hu 14 (by omega)).trans (Bytes.u16le_le16 _)]
    exact UInt16.toNat_ofNat_of_lt' (Nat.lt_succ_of_le h)
  · rw [← hm]
    exact Mem.slice_ofList_append f.head _ _

omit h in
/-- The third and fourth byte behind the payload are the tail. -/
theorem tailAt_head_iff {t : List UInt8} (ht : t.length = 4) (rest : List UInt8) :
    TailAt (Mem.ofList (f.head ++ (f.data ++ (t ++ rest)))) 0 f.data.length ↔
      t.getD 2 0 = 0xCD ∧ t.getD 3 0 = 0xEF := by
  have htail : ∀ i < 4, Mem.ofList (f.head ++ (f.data ++ (t ++ rest)))
      (16 + (f.data.length + i)) = t.getD i 0 := by
    intro i hi
    have h16 : f.head.length = 16 := rfl
    rw [← h16, Mem.ofList_append_right, Mem.ofList_append_right, Mem.ofList_append_left (by omega)]
    rfl
  have h2 := htail 2 (by omega)
  have h3 := htail 3 (by omega)
  rw [show 16 + (f.data.length + 2) = 0 + 18 + f.data.length by omega] at h2
  rw [show 16 + (f.data.length + 3) = 0 + 19 + f.data.length by omega] at h3
  rw [← h2, ← h3]
  exact ⟨fun ⟨h₀, h₁⟩ => ⟨h₀, h₁⟩, fun ⟨h₀, h₁⟩ => ⟨h₀, h₁⟩⟩

/-- The encoding, followed by anything, holds the frame. -/
theorem wireAt_toBytes (rest : List UInt8) : WireAt (Mem.ofList (f.toBytes ++ rest)) 0 f := by
  rw [toBytes_eq, List.append_assoc, List.append_assoc]
  exact ⟨fieldsAt_head h _, (tailAt_head_iff rfl _).2 ⟨rfl, rfl⟩⟩

/-- **Round trip.** -/
theorem fromBytes_toBytes (rest : List UInt8) :
    Frame.fromBytes (f.toBytes ++ rest) = .ok (f, f.wireLen) :=
  fromBytes_eq_ok_iff.2 ⟨by simp, rfl, wireAt_toBytes h rest⟩

end

end ZephyrStm32.Ota.Pc
