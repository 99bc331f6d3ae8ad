import ZephyrStm32.Ota.Link.Reassembly

/-!
# Noise on the line

`ota_frame_parse` skips what stands before a header but returns the length of the frame alone, so
`ota_process_rx` goes on too early: after `n` frames it looks for the next header from the sum of
their lengths on, wherever they stood. `noise_iff` is the exact condition under which one call
passes on the frames of a noisy buffer, each once and in order.
-/

namespace ZephyrStm32.Ota.Link

open Pc (Frame FieldsAt)

/-- Noise, and frames that are each followed by noise. -/
def noisyStream (noise : List UInt8) (items : List (List UInt8 × List UInt8)) : List UInt8 :=
  noise ++ (items.map fun x => x.1 ++ x.2).flatten

/-- The first `12 34` of `m[0 .. len)` from `p` on with room for `FRAME_MIN_SIZE` bytes. -/
def headerFrom (m : Mem) (len p : Nat) : Option Nat :=
  if len - p < frameMinSize then none
  else Scan.firstFrom (isFrameHeader m) p (len - p - frameMinSize + 1)

/-- The length that the header at `h` declares. -/
def lenAt (m : Mem) (h : Nat) : Nat := totalFrameLen (m.u16 (h + 14))

/-- The header at `h` begins a frame that is all there. -/
def WholeAt (m : Mem) (len h : Nat) : Prop := 0 < lenAt m h ∧ h + lenAt m h ≤ len

/-- From `p` on the first header begins the first frame, from `p` plus its length on the first
header begins the second, and so on; and behind the lengths of all of them no complete frame
begins. -/
def ReadsAs (m : Mem) (len : Nat) : Nat → List Frame → Prop
  | p, [] => ∀ h, headerFrom m len p = some h → ¬ WholeAt m len h
  | p, f :: fs =>
    ∃ h, headerFrom m len p = some h ∧ FieldsAt m h f ∧ h + f.wireLen ≤ len ∧
      ReadsAs m len (p + f.wireLen) fs

variable {rx : RxState} {stack : Nat → OtaFrame} {f : Frame} {fs : List Frame}

/-! ## The condition looks at the buffer only -/

theorem headerFrom_eq_some {m : Mem} {len p h : Nat} : headerFrom m len p = some h ↔
    p ≤ h ∧ h + frameMinSize ≤ len ∧ isFrameHeader m h = true ∧
      ∀ k, p ≤ k → k < h → isFrameHeader m k = false := by
  unfold headerFrom
  split
  · rename_i hs
    rw [frameMinSize] at hs ⊢
    constructor
    · intro hh
      cases hh
    · intro hh
      omega
  · rename_i hs
    rw [Scan.firstFrom_eq_some]
    rw [frameMinSize] at hs ⊢
    refine and_congr_right fun _ => and_congr_left fun _ => ?_
    omega

theorem headerFrom_spec {m : Mem} {len p h : Nat} (hh : headerFrom m len p = some h) :
    p ≤ h ∧ h + frameMinSize ≤ len ∧ isFrameHeader m h = true := by
  obtain ⟨hle, hlen, hhit, -⟩ := headerFrom_eq_some.1 hh
  exact ⟨hle, hlen, hhit⟩

section

variable {m m' : Mem} {len : Nat} (hm : ∀ i < len, m i = m' i)
include hm

theorem headerFrom_congr (p : Nat) : headerFrom m len p = headerFrom m' len p := by
  unfold headerFrom
  split
  · rfl
  · rename_i hs
    rw [frameMinSize] at hs ⊢
    apply Scan.firstFrom_congr
    intro k h₁ h₂
    rw [isFrameHeader, isFrameHeader, hm k (by omega), hm (k + 1) (by omega)]

theorem wholeAt_congr {h : Nat} (hh : h + frameMinSize ≤ len) :
    WholeAt m len h ↔ WholeAt m' len h := by
  rw [frameMinSize] at hh
  have hu : m.u16 (h + 14) = m'.u16 (h + 14) := by
    rw [Mem.u16, Mem.u16, hm (h + 14) (by omega), hm (h + 15) (by omega)]
  rw [WholeAt, WholeAt, lenAt, lenAt, hu]

theorem readsAs_congr {p : Nat} {fs : List Frame} : ReadsAs m len p fs ↔ ReadsAs m' len p fs := by
  induction fs generalizing p with
  | nil =>
    rw [ReadsAs, ReadsAs, headerFrom_congr hm]
    refine forall_congr' fun h => imp_congr_right fun hh => not_congr ?_
    exact wholeAt_congr hm (headerFrom_spec hh).2.1
  | cons f fs ih =>
    rw [ReadsAs, ReadsAs, headerFrom_congr hm]
    refine exists_congr fun h => and_congr_right fun _ => ?_
    -- The fields lie in the buffer because the whole frame does.
    have hf : h + f.wireLen ≤ len → (FieldsAt m h f ↔ FieldsAt m' h f) := by
      intro hlen
      rw [Frame.wireLen] at hlen
      exact ⟨fun hf => hf.congr fun i hi => (hm _ (by omega)).symm,
        fun hf => hf.congr fun i hi => hm _ (by omega)⟩
    constructor
    · rintro ⟨hfields, hlen, hrest⟩
      exact ⟨(hf hlen).1 hfields, hlen, ih.1 hrest⟩
    · rintro ⟨hfields, hlen, hrest⟩
      exact ⟨(hf hlen).2 hfields, hlen, ih.2 hrest⟩

end

/-! ## One round -/

theorem readFrame_at (m : Mem) (p k : Nat) (junk : OtaFrame) :
    readFrame (m.at_ p) k junk = readFrame m (p + k) junk := by
  simp only [readFrame, Mem.u16, Mem.slice_at, Mem.at_apply, Nat.add_assoc]

/-- The parser at `p`, with positions counted in the whole buffer. -/
theorem otaFrameParse_from (p : Nat) (junk : OtaFrame) :
    otaFrameParse (rx.buf.at_ p) (rx.len - p) junk =
      match headerFrom rx.buf rx.len p with
      | none => (-1, junk)
      | some h =>
        if h + lenAt rx.buf h > rx.len then (-1, junk)
        else ((lenAt rx.buf h : Int), readFrame rx.buf h junk) := by
  by_cases hs : rx.len - p < frameMinSize
  · rw [headerFrom, if_pos hs]
    exact otaFrameParse_short junk hs
  · rw [headerFrom, if_neg hs]
    have hs : frameMinSize ≤ rx.len - p := Nat.not_lt.1 hs
    have hscan : (Scan.firstFrom (isFrameHeader (rx.buf.at_ p)) 0
        (rx.len - p - frameMinSize + 1)).map (p + ·) =
          Scan.firstFrom (isFrameHeader rx.buf) p (rx.len - p - frameMinSize + 1) :=
      Scan.firstFrom_add (isFrameHeader rx.buf) p 0 _
    rw [← hscan]
    cases hpos : Scan.firstFrom (isFrameHeader (rx.buf.at_ p)) 0
        (rx.len - p - frameMinSize + 1) with
    | none => exact otaFrameParse_none junk hpos
    | some k =>
      have hlen : totalFrameLen ((rx.buf.at_ p).u16 (k + 14)) = lenAt rx.buf (p + k) := by
        rw [lenAt, Nat.add_assoc]
        rfl
      rw [frameMinSize] at hs
      rw [otaFrameParse_found junk hs hpos, hlen, readFrame_at, Option.map_some]
      dsimp only
      by_cases hfit : p + k + lenAt rx.buf (p + k) > rx.len
      · rw [if_pos hfit, if_pos (by omega)]
      · rw [if_neg hfit, if_neg (by omega)]

/-- A header shows a frame exactly when its fields are there. -/
theorem shows_readFrame_iff {h : Nat} (hh : isFrameHeader rx.buf h = true) (junk : OtaFrame) :
    Shows (readFrame rx.buf h junk) f ↔ FieldsAt rx.buf h f := by
  refine ⟨fun hs => ?_, readFrame_shows junk⟩
  obtain ⟨h0, h1⟩ : rx.buf h = 0x12 ∧ rx.buf (h + 1) = 0x34 := by
    simpa [isFrameHeader, frameHeader0, frameHeader1] using hh
  have hlen : (rx.buf.u16 (h + 14)).toNat = f.data.length := hs.dataLen
  have hdata := hs.payload
  rw [payload_readFrame, hlen] at hdata
  exact ⟨h0, h1, hs.seq, hs.srcAddr, hs.dstAddr, hs.totalPackets, hs.packetSeq, hs.cmd, hlen, hdata⟩

/-- Without a whole frame at the next header the loop ends. -/
theorem rxLoop_last {rounds p : Nat}
    (hn : ∀ h, headerFrom rx.buf rx.len p = some h → ¬ WholeAt rx.buf rx.len h) :
    rxLoop stack rx rounds p = ([], p) := by
  cases rounds with
  | zero => rfl
  | succ rounds =>
    rw [rxLoop_break]
    rw [otaFrameParse_from]
    cases hh : headerFrom rx.buf rx.len p with
    | none => exact (by decide : (-1 : Int) ≤ 0)
    | some h =>
      have hn := hn h hh
      rw [WholeAt, not_and_or] at hn
      dsimp only
      split
      · exact (by decide : (-1 : Int) ≤ 0)
      · dsimp only
        omega

/-- With one it is passed on, and the loop goes on from `p` plus the frame's length. -/
theorem rxLoop_whole {rounds p h : Nat} (hh : headerFrom rx.buf rx.len p = some h)
    (hw : WholeAt rx.buf rx.len h) :
    rxLoop stack rx (rounds + 1) p =
      (readFrame rx.buf h (stack p) :: (rxLoop stack rx rounds (p + lenAt rx.buf h)).1,
        (rxLoop stack rx rounds (p + lenAt rx.buf h)).2) := by
  obtain ⟨hpos, hfit⟩ := hw
  have hle := (headerFrom_spec hh).1
  have hparse : otaFrameParse (rx.buf.at_ p) (rx.len - p) (stack p) = _ :=
    otaFrameParse_from p (stack p)
  rw [hh] at hparse
  dsimp only at hparse
  rw [if_neg (by omega)] at hparse
  exact rxLoop_next (by omega) hpos hparse

/-- The declared length of a frame that is there. -/
theorem lenAt_eq {h : Nat} (hf : FieldsAt rx.buf h f) (hlen : f.wireLen ≤ 65535) :
    lenAt rx.buf h = f.wireLen :=
  totalFrameLen_eq hf hlen

/-- **The loop.** By induction on the frames to come. -/
theorem rxLoop_reads (hfs : ∀ f ∈ fs, f.wireLen ≤ 65535) {rounds p : Nat}
    (hr : rx.len - p ≤ rounds) :
    List.Forall₂ Shows (rxLoop stack rx rounds p).1 fs ↔ ReadsAs rx.buf rx.len p fs := by
  induction fs generalizing rounds p with
  | nil =>
    rw [List.forall₂_nil_right_iff, ReadsAs]
    refine ⟨fun hl h hh hw => ?_, fun hn => by rw [rxLoop_last hn]⟩
    have hle := (headerFrom_spec hh).1
    have hpos := hw.1
    have hlen := hw.2
    obtain ⟨rounds, rfl⟩ := Nat.exists_eq_succ_of_ne_zero (by omega : rounds ≠ 0)
    rw [rxLoop_whole hh hw] at hl
    cases hl
  | cons f fs ih =>
    have hf : f.wireLen ≤ 65535 := hfs f List.mem_cons_self
    have hfpos : 0 < f.wireLen := by
      rw [Frame.wireLen]
      omega
    have hfs : ∀ g ∈ fs, g.wireLen ≤ 65535 := fun g hg => hfs g (List.mem_cons_of_mem _ hg)
    constructor
    · intro hl
      have hex : ∃ h, headerFrom rx.buf rx.len p = some h ∧ WholeAt rx.buf rx.len h := by
        by_contra hn
        rw [rxLoop_last fun h hh hw => hn ⟨h, hh, hw⟩] at hl
        cases hl
      obtain ⟨h, hh, hw⟩ := hex
      obtain ⟨hle, -, hhit⟩ := headerFrom_spec hh
      have hpos := hw.1
      have hlen := hw.2
      obtain ⟨rounds, rfl⟩ := Nat.exists_eq_succ_of_ne_zero (by omega : rounds ≠ 0)
      rw [rxLoop_whole hh hw, List.forall₂_cons, shows_readFrame_iff hhit] at hl
      obtain ⟨hfields, hrest⟩ := hl
      have hlf := lenAt_eq hfields hf
      rw [hlf] at hrest hlen
      exact ⟨h, hh, hfields, hlen, (ih hfs (by omega)).1 hrest⟩
    · rintro ⟨h, hh, hfields, hlen, hrest⟩
      have hle := (headerFrom_spec hh).1
      have hlf := lenAt_eq hfields hf
      obtain ⟨rounds, rfl⟩ := Nat.exists_eq_succ_of_ne_zero (by omega : rounds ≠ 0)
      rw [rxLoop_whole hh ⟨by omega, by omega⟩, List.forall₂_cons]
      refine ⟨readFrame_shows _ hfields, ?_⟩
      rw [hlf]
      exact (ih hfs (by omega)).2 hrest

theorem wireLen_le {es : List (List UInt8)} {n : Nat} (hes : List.Forall₂ Encodes es fs)
    (h : ∀ e ∈ es, e.length ≤ n) : ∀ f ∈ fs, f.wireLen ≤ n := by
  induction hes with
  | nil => intro f hf; cases hf
  | cons he _ ih =>
    intro f hf
    rcases List.mem_cons.1 hf with rfl | hf
    · exact (encodes_iff.1 he).1 ▸ h _ List.mem_cons_self
    · exact ih (fun e he => h e (List.mem_cons_of_mem _ he)) f hf

/-- **Noise, exactly.** For frames and noise that fit in `rx_buf` together, one call of
`ota_process_rx` passes on each frame once and in order if and only if the buffer `ReadsAs` the
frames from its start on. -/
theorem noise_iff (noise : List UInt8) (items : List (List UInt8 × List UInt8))
    (hes : List.Forall₂ Encodes (items.map Prod.fst) fs)
    (hfit : (noisyStream noise items).length ≤ rxBufSize)
    (hrx : rx.content = noisyStream noise items) :
    List.Forall₂ Shows (otaProcessRx stack rx).1 fs ↔
      ReadsAs (Mem.ofList (noisyStream noise items)) (noisyStream noise items).length 0 fs := by
  have hshort : ∀ e ∈ items.map Prod.fst, e.length ≤ rxBufSize := by
    intro e he
    obtain ⟨x, hx, rfl⟩ := List.mem_map.1 he
    have hsub : (x.1 ++ x.2).Sublist (items.map fun x => x.1 ++ x.2).flatten :=
      List.sublist_flatten_of_mem (List.mem_map_of_mem hx)
    have hle := hsub.length_le
    rw [noisyStream, List.length_append] at hfit
    rw [List.length_append] at hle
    omega
  have hlen : rx.len = (noisyStream noise items).length := by
    rw [← hrx, RxState.content, Mem.length_slice]
  have hsame : ∀ i < rx.len, rx.buf i = Mem.ofList (noisyStream noise items) i := by
    intro i hi
    have h := (Mem.slice_eq_iff hlen.symm).1 hrx i hi
    rwa [Nat.zero_add] at h
  rw [← hlen, ← readsAs_congr hsame]
  refine rxLoop_reads (fun f hf => ?_) (by omega)
  exact (wireLen_le hes hshort f hf).trans (by decide)

/-- A handshake, and the buffer that holds it behind some noise. -/
def handshake : Frame := ⟨5, 0x00, 0x20, 1, 0, 0x0001, []⟩

def behindNoise (noise : List UInt8) : RxState :=
  ⟨Mem.ofList (noisyStream noise [(handshake.toBytes, [])]),
    (noisyStream noise [(handshake.toBytes, [])]).length⟩

theorem content_behindNoise (noise : List UInt8) :
    (behindNoise noise).content = noisyStream noise [(handshake.toBytes, [])] :=
  Mem.slice_ofList _

/-- Three bytes of noise do no harm here. -/
theorem noise_short :
    List.Forall₂ Shows (otaProcessRx (fun _ => .onStack fun _ => 0) (behindNoise [7, 7, 7])).1
      [handshake] := by
  have henc : List.Forall₂ Encodes [handshake.toBytes] [handshake] :=
    .cons (encodes_toBytes (by decide)) .nil
  refine (noise_iff [7, 7, 7] [(handshake.toBytes, [])] henc (by decide)
    (content_behindNoise _)).2 ⟨3, by decide, ?_, by decide, fun h hh => ?_⟩
  · exact ⟨by decide, by decide, by decide, by decide, by decide, by decide, by decide, by decide,
      by decide, by decide⟩
  · rw [show headerFrom _ _ _ = none by decide] at hh
    cases hh

/-- Behind as many bytes of noise as it is long, the handshake is passed on twice. -/
theorem noise_duplicates :
    let noise := List.replicate 20 0x07
    (otaProcessRx (fun _ => .onStack fun _ => 0) (behindNoise noise)).1.map (·.seq) = [5, 5] ∧
      ¬ List.Forall₂ Shows
        (otaProcessRx (fun _ => .onStack fun _ => 0) (behindNoise noise)).1 [handshake] := by
  refine ⟨by decide, fun h => ?_⟩
  have hlen := h.length_eq
  revert hlen
  decide

end ZephyrStm32.Ota.Link
