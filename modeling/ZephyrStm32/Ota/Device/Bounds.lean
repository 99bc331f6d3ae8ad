import ZephyrStm32.Lib.Peek
import ZephyrStm32.Ota.Device.Receiver

/-!
# What `ota_frame_parse` reads

`otaFrameParsePeek` is the parser as a program that asks for each byte it looks at;
`value_otaFrameParsePeek` says that it computes `otaFrameParse`.

**Theorem (`parse_inside_iff`).** The parser stays inside its `len` bytes, and returns -1 or the
length of a frame that is all there, unless the header it finds declares 65516 bytes or more: then
`total_frame_len` has wrapped, and what is left of it passes the check if it fits behind the header.
-/

namespace ZephyrStm32.Ota

/-! ## The parser, byte by byte -/

namespace Parse

variable {ε : Type}

/-- The search: the second byte is looked at behind a first one that matches. -/
def findHeader : Nat → Nat → Peek ε (Option Nat)
  | _, 0 => pure none
  | pos, n + 1 => do
    let b₀ ← Peek.byte pos
    if b₀ = frameHeader0 then
      let b₁ ← Peek.byte (pos + 1)
      if b₁ = frameHeader1 then return some pos
      else findHeader (pos + 1) n
    else findHeader (pos + 1) n

/-- The copies out of the buffer, once the length is checked. -/
def copyFrame (pos : Nat) (dataLen : UInt16) (frame : OtaFrame) : Peek ε OtaFrame := do
  let header0 ← Peek.byte pos
  let header1 ← Peek.byte (pos + 1)
  let seq ← Peek.u16 (pos + 2)
  let srcAddr ← Peek.u16 (pos + 4)
  let dstAddr ← Peek.u16 (pos + 6)
  let totalPackets ← Peek.u16 (pos + 8)
  let packetSeq ← Peek.u16 (pos + 10)
  let cmd ← Peek.u16 (pos + 12)
  let payload ← Peek.bytes (pos + OtaFrame.headerSize) dataLen.toNat
  let reserved ← Peek.u16 (pos + OtaFrame.headerSize + dataLen.toNat)
  let tail0 ← Peek.byte (pos + OtaFrame.headerSize + dataLen.toNat + 2)
  let tail1 ← Peek.byte (pos + OtaFrame.headerSize + dataLen.toNat + 3)
  return { header0, header1, seq, srcAddr, dstAddr, totalPackets, packetSeq, cmd, dataLen
           data := frame.data.write 0 payload
           reserved, tail0, tail1 }

end Parse

/-- `ota_frame_parse` as a program that asks for the bytes of its buffer. -/
def otaFrameParsePeek (len : Nat) (frame : OtaFrame) : Peek Empty (Int × OtaFrame) :=
  if len < frameMinSize then pure (-1, frame)
  else do
    match ← Parse.findHeader 0 (len - frameMinSize + 1) with
    | none => return (-1, frame)
    | some pos =>
      let dataLen ← Peek.u16 (pos + 14)
      let total := totalFrameLen dataLen
      if pos + total > len then return (-1, frame)
      else
        let frame ← Parse.copyFrame pos dataLen frame
        return ((total : Int), frame)

variable {m : Mem} {len : Nat} {frame : OtaFrame} {ε : Type}

theorem value_findHeader (pos n : Nat) :
    (Parse.findHeader pos n : Peek ε (Option Nat)).value m =
      .ok (Scan.firstFrom (isFrameHeader m) pos n) := by
  induction n generalizing pos with
  | zero => rfl
  | succ n ih =>
    rw [Parse.findHeader, Scan.firstFrom, Peek.value_bind, Peek.value_byte, Except.bind]
    by_cases h₀ : m pos = frameHeader0
    · rw [if_pos h₀, Peek.value_bind, Peek.value_byte, Except.bind]
      by_cases h₁ : m (pos + 1) = frameHeader1
      · simp [isFrameHeader, h₀, h₁]
      · simp [isFrameHeader, h₁, ih]
    · simp [isFrameHeader, h₀, ih]

theorem value_copyFrame (pos : Nat) :
    (Parse.copyFrame pos (m.u16 (pos + 14)) frame : Peek ε OtaFrame).value m =
      .ok (readFrame m pos frame) := by
  simp only [Parse.copyFrame, Peek.value_bind, Peek.value_byte, Peek.value_u16, Peek.value_bytes,
    Peek.value_pure, Except.bind]
  rfl

/-- **The same parser.** -/
theorem value_otaFrameParsePeek :
    (otaFrameParsePeek len frame).value m = .ok (otaFrameParse m len frame) := by
  unfold otaFrameParsePeek otaFrameParse
  split
  · rfl
  · rw [Peek.value_bind, value_findHeader, Except.bind]
    cases Scan.firstFrom (isFrameHeader m) 0 (len - frameMinSize + 1) with
    | none => rfl
    | some pos =>
      change (Peek.u16 (pos + 14) >>= _ : Peek Empty _).value m = _
      rw [Peek.value_bind, Peek.value_u16, Except.bind]
      dsimp only
      split
      · rfl
      · rw [Peek.value_bind, value_copyFrame]
        rfl

/-! ## The reads -/

/-- The search looks at the byte behind its last candidate. -/
theorem below_findHeader {pos n : Nat} (h : pos + n < len) :
    (Parse.findHeader pos n : Peek ε (Option Nat)).Below m len := by
  induction n generalizing pos with
  | zero => exact Peek.below_pure none
  | succ n ih =>
    have hrest : (Parse.findHeader (pos + 1) n : Peek ε (Option Nat)).Below m len := ih (by omega)
    rw [Parse.findHeader, Peek.below_bind]
    refine ⟨(Peek.below_byte _).2 (by omega), fun b₀ _ => ?_⟩
    split
    · rw [Peek.below_bind]
      refine ⟨(Peek.below_byte _).2 (by omega), fun b₁ _ => ?_⟩
      split
      · exact Peek.below_pure _
      · exact hrest
    · exact hrest

/-- The copies stay inside exactly when the frame and its trailer are all there. -/
theorem below_copyFrame (pos : Nat) (dataLen : UInt16) :
    (Parse.copyFrame pos dataLen frame : Peek ε OtaFrame).Below m len ↔
      pos + 20 + dataLen.toNat ≤ len := by
  simp only [Parse.copyFrame, Peek.below_bind, Peek.below_byte, Peek.below_u16, Peek.below_bytes,
    Peek.below_pure, Peek.value_byte, Peek.value_u16, Peek.value_bytes, Except.ok.injEq,
    forall_eq', and_true, OtaFrame.headerSize]
  omega

/-- The header that the search finds. -/
def FoundAt (m : Mem) (len pos : Nat) : Prop :=
  frameMinSize ≤ len ∧
    Scan.firstFrom (isFrameHeader m) 0 (len - frameMinSize + 1) = some pos

/-- `data_len` of the header at `m[pos]`. -/
def dataLenAt (m : Mem) (pos : Nat) : Nat := (m.u16 (pos + 14)).toNat

/-- Every byte read is inside, and the length returned is -1 or that of a frame inside. -/
structure ParseInside (m : Mem) (len : Nat) (frame : OtaFrame) : Prop where
  reads : (otaFrameParsePeek len frame).Below m len
  result : (otaFrameParse m len frame).1 = -1 ∨ ∃ pos, FoundAt m len pos ∧
    (otaFrameParse m len frame).1 = ((20 + dataLenAt m pos : Nat) : Int) ∧
      pos + 20 + dataLenAt m pos ≤ len

/-- The header found declares a length that leaves 16 bits, and what is left of the frame's length
fits behind it. -/
def WrapsInto (m : Mem) (len : Nat) : Prop :=
  ∃ pos, FoundAt m len pos ∧ 65516 ≤ dataLenAt m pos ∧ pos + (dataLenAt m pos - 65516) ≤ len

/-! ## Both parts, by the place of the header -/

theorem totalFrameLen_dataLenAt (m : Mem) (pos : Nat) :
    totalFrameLen (m.u16 (pos + 14)) = (20 + dataLenAt m pos) % 65536 := by
  rw [totalFrameLen, OtaFrame.headerSize, OtaFrame.tailSize, dataLenAt]
  congr 1
  omega

/-- Without a header the search alone reads, and -1 is returned. -/
theorem parseInside_none (h : ∀ pos, ¬ FoundAt m len pos) : ParseInside m len frame := by
  by_cases hlen : len < frameMinSize
  · refine ⟨?_, Or.inl ?_⟩
    · rw [otaFrameParsePeek, if_pos hlen]
      exact Peek.below_pure _
    · rw [otaFrameParse, if_pos hlen]
  · have hnone : Scan.firstFrom (isFrameHeader m) 0 (len - frameMinSize + 1) = none := by
      apply Option.eq_none_iff_forall_ne_some.2
      intro pos hpos
      exact h pos ⟨Nat.not_lt.1 hlen, hpos⟩
    have hmin : frameMinSize = 18 := rfl
    refine ⟨?_, Or.inl ?_⟩
    · rw [otaFrameParsePeek, if_neg hlen, Peek.below_bind]
      refine ⟨below_findHeader (by omega), fun found hfound => ?_⟩
      rw [value_findHeader, hnone] at hfound
      obtain rfl := Except.ok.inj hfound
      exact Peek.below_pure _
    · rw [otaFrameParse, if_neg hlen, hnone]

/-- The header that is found lies inside. -/
theorem FoundAt.le {pos : Nat} (h : FoundAt m len pos) : pos + frameMinSize ≤ len := by
  have hmin : frameMinSize ≤ len := h.1
  have hlt := (Scan.firstFrom_eq_some.1 h.2).2.1
  omega

/-- With a header the copies are made when the check of the length lets them pass. -/
theorem below_found {pos : Nat} (h : FoundAt m len pos) :
    (otaFrameParsePeek len frame).Below m len ↔
      len < pos + (20 + dataLenAt m pos) % 65536 ∨ pos + 20 + dataLenAt m pos ≤ len := by
  have hle : pos + 18 ≤ len := h.le
  have hsearch : (Parse.findHeader 0 (len - frameMinSize + 1) : Peek Empty (Option Nat)).Below m
      len := by
    have hmin : frameMinSize = 18 := rfl
    exact below_findHeader (by omega)
  have hcopy : (Parse.copyFrame pos (m.u16 (pos + 14)) frame : Peek Empty OtaFrame).Below m len ↔
      pos + 20 + (m.u16 (pos + 14)).toNat ≤ len := below_copyFrame pos _
  rw [otaFrameParsePeek, if_neg (Nat.not_lt.2 h.1), Peek.below_bind, value_findHeader, h.2]
  simp only [hsearch, true_and, Except.ok.injEq, forall_eq', Peek.below_bind, Peek.below_u16,
    Peek.value_u16, totalFrameLen_dataLenAt]
  have h15 : pos + 14 + 1 < len := by omega
  rw [and_iff_right h15]
  split
  · rename_i hgt
    exact ⟨fun _ => Or.inl hgt, fun _ => Peek.below_pure _⟩
  · rename_i hgt
    rw [Peek.below_bind, hcopy]
    constructor
    · exact fun hb => Or.inr hb.1
    · rintro (hlt | hb)
      · exact absurd hlt hgt
      · exact ⟨hb, fun _ _ => Peek.below_pure _⟩

/-- With a header all depends on the length that it declares. -/
theorem parseInside_found {pos : Nat} (hlen : len < 65536) (h : FoundAt m len pos) :
    ParseInside m len frame ↔
      len < pos + (20 + dataLenAt m pos) % 65536 ∨ pos + 20 + dataLenAt m pos ≤ len := by
  constructor
  · exact fun hi => (below_found h).1 hi.reads
  · intro hi
    refine ⟨(below_found h).2 hi, ?_⟩
    rw [otaFrameParse_found frame h.1 h.2, totalFrameLen_dataLenAt]
    split
    · exact Or.inl rfl
    · rename_i hgt
      have hfit : pos + 20 + dataLenAt m pos ≤ len := hi.resolve_left hgt
      rw [Nat.mod_eq_of_lt (by omega)]
      exact Or.inr ⟨pos, h, rfl, hfit⟩

/-- **The parser stays inside**, but for a header whose length wraps. -/
theorem parse_inside_iff (m : Mem) (len : UInt16) (frame : OtaFrame) :
    ParseInside m len.toNat frame ↔ ¬ WrapsInto m len.toNat := by
  have hlen : len.toNat < 65536 := len.toNat_lt
  by_cases hex : ∃ pos, FoundAt m len.toNat pos
  · obtain ⟨pos, hpos⟩ := hex
    have hdata : dataLenAt m pos < 65536 := (m.u16 (pos + 14)).toNat_lt
    rw [parseInside_found hlen hpos, WrapsInto]
    constructor
    · rintro h ⟨pos', hpos', hwrap, hfit⟩
      obtain rfl : pos = pos' := Option.some.inj (hpos.2.symm.trans hpos'.2)
      omega
    · intro h
      by_contra hn
      exact h ⟨pos, hpos, by omega, by omega⟩
  · constructor
    · rintro - ⟨pos, hpos, -⟩
      exact hex ⟨pos, hpos⟩
    · intro _
      exact parseInside_none fun pos hpos => hex ⟨pos, hpos⟩

/-- A header that declares 65535 bytes, and two bytes more. -/
def wrappedHeader : List UInt8 :=
  [0x12, 0x34, 0, 0, 0, 0, 0x20, 0, 1, 0, 0, 0, 1, 0, 0xFF, 0xFF, 0, 0, 0xCD, 0xEF]

/-- Twenty bytes are taken for a frame of nineteen, and bytes far behind them are read. -/
theorem parse_leaves_buffer : ¬ ∀ (m : Mem) (len : UInt16) (frame : OtaFrame),
    ParseInside m len.toNat frame := by
  intro h
  have hfound : FoundAt (Mem.ofList wrappedHeader) 20 0 := ⟨by decide, by decide⟩
  exact (parse_inside_iff _ 20 _).1 (h (Mem.ofList wrappedHeader) 20 (.onStack fun _ => 0))
    ⟨0, hfound, by decide, by decide⟩

end ZephyrStm32.Ota
