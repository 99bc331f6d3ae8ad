import ZephyrStm32.Lib.Scan
import ZephyrStm32.Ota.Pc.Frame

/-!
# The PC's stream decoder: `protocol/codec.rs`

`FrameDecoder.feed` appends the bytes received and takes complete frames out of the buffer, round
by round. `feedLoop_enough`: the rounds end, since each one that does not break shortens the
buffer. `feedLoop_wireLen`: no frame is longer than the bytes it was taken from.
-/

namespace ZephyrStm32.Ota.Pc

structure FrameDecoder where
  buf : List UInt8
  /-- 0 while waiting for a header. -/
  expectedLen : Nat
  deriving DecidableEq, Repr

namespace FrameDecoder

def new : FrameDecoder := ⟨[], 0⟩

/-- `windows(2).position(|w| w == FRAME_HEADER)`. -/
def findHeader (d : FrameDecoder) : Option Nat :=
  if d.buf.length < 2 then none
  else Scan.firstFrom (fun i => (d.buf.drop i).take 2 == frameHeader) 0 (d.buf.length - 1)

/-- The first half of a round: find a header and learn the length of its frame. `true` stands for
`break`. -/
def sync (d : FrameDecoder) : Bool × FrameDecoder :=
  if d.expectedLen = 0 then
    match d.findHeader with
    | some pos =>
      let buf := d.buf.drop pos
      if h : buf.length ≥ prefixSize then
        have h : 16 ≤ buf.length := h
        (false, ⟨buf, prefixSize + (u16At buf 14 (by omega)).toNat + suffixSize⟩)
      else (true, { d with buf := buf })
    | none =>
      -- The last byte may be the first half of a header.
      let keep := if d.buf.getLast? = some 0x12 then 1 else 0
      if d.buf.length > 1 ∧ keep < d.buf.length then
        (true, { d with buf := d.buf.drop (d.buf.length - keep) })
      else (true, d)
  else (false, d)

/-- The second half: take the frame out if it is complete, or skip its header if it is invalid.
`none` stands for `break`. -/
def extract (d : FrameDecoder) : Option (Option Frame × FrameDecoder) :=
  if d.expectedLen > 0 ∧ d.buf.length ≥ d.expectedLen then
    match Frame.fromBytes (d.buf.take d.expectedLen) with
    | .ok (frame, _) => some (some frame, ⟨d.buf.drop d.expectedLen, 0⟩)
    | .error _ => some (none, ⟨d.buf.drop 2, 0⟩)
  else none

/-- The loop of `feed`, for a number of rounds. -/
def feedLoop : Nat → FrameDecoder → List Frame × FrameDecoder
  | 0, d => ([], d)
  | rounds + 1, d =>
    let s := sync d
    if s.1 then ([], s.2)
    else
      match extract s.2 with
      | none => ([], s.2)
      | some (frame, d) =>
        let rest := feedLoop rounds d
        (frame.toList ++ rest.1, rest.2)

/-- A round that does not break shortens the buffer, so that many rounds are enough. -/
def feed (d : FrameDecoder) (data : List UInt8) : List Frame × FrameDecoder :=
  let d := { d with buf := d.buf ++ data }
  feedLoop (d.buf.length + 1) d

/-! ## The rounds -/

theorem length_sync (d : FrameDecoder) : (sync d).2.buf.length ≤ d.buf.length := by
  unfold sync
  split
  · split
    · dsimp only
      split <;> simp
    · dsimp only
      split_ifs <;> simp
  · exact le_rfl

theorem extract_lt {d d' : FrameDecoder} {f : Option Frame} (h : extract d = some (f, d')) :
    d'.buf.length < d.buf.length := by
  unfold extract at h
  split at h
  · rename_i hc
    obtain ⟨hpos, hlen⟩ := hc
    split at h <;>
    · rw [← (Prod.mk.inj (Option.some.inj h)).2, List.length_drop]
      omega
  · cases h

/-- More rounds than bytes change nothing. -/
theorem feedLoop_enough {n m : Nat} {d : FrameDecoder} (hn : d.buf.length < n)
    (hm : d.buf.length < m) : feedLoop n d = feedLoop m d := by
  induction n generalizing m d with
  | zero => omega
  | succ n ih =>
    obtain ⟨m, rfl⟩ := Nat.exists_eq_succ_of_ne_zero (by omega : m ≠ 0)
    have hs := length_sync d
    simp only [feedLoop]
    split
    · rfl
    · split
      · rfl
      · rename_i f d' he
        have hlt := extract_lt he
        rw [ih (by omega) (by omega : d'.buf.length < m)]

/-- A frame that was taken out was in the buffer. -/
theorem feedLoop_wireLen (n : Nat) (d : FrameDecoder) :
    ∀ f ∈ (feedLoop n d).1, f.wireLen ≤ d.buf.length := by
  induction n generalizing d with
  | zero => intro f hf; cases hf
  | succ n ih =>
    have hs := length_sync d
    intro f hf
    simp only [feedLoop] at hf
    split at hf
    · cases hf
    · split at hf
      · cases hf
      · rename_i f' d' he
        have hlt := extract_lt he
        rcases List.mem_append.1 hf with hf | hf
        · obtain rfl := Option.mem_toList.1 hf
          unfold extract at he
          split at he
          · split at he
            · rename_i g n' hok
              have hg : g = f := Option.some.inj (Prod.mk.inj (Option.some.inj he)).1
              have hle := (fromBytes_eq_ok_iff.1 hok).1
              rw [hg, List.length_take] at hle
              omega
            · cases (Prod.mk.inj (Option.some.inj he)).1
          · cases he
        · have := ih d' f hf
          omega

/-! ## A frame at the front of the buffer -/

section

variable {b : List UInt8} {f : Frame}

theorem sync_of_fieldsAt (h : FieldsAt (Mem.ofList b) 0 f) (hlen : 16 ≤ b.length) :
    sync ⟨b, 0⟩ = (false, ⟨b, f.wireLen⟩) := by
  have hhead : b.take 2 = frameHeader := by
    have hs : (b.drop 0).take 2 = (Mem.ofList b).slice 0 2 := take_drop_eq_slice (by omega)
    rw [List.drop_zero] at hs
    rw [hs]
    exact pair_eq_iff.2 ⟨h.header0, h.header1⟩
  have hpos : findHeader ⟨b, 0⟩ = some 0 := by
    rw [findHeader, if_neg (by change ¬ b.length < 2; omega)]
    exact Scan.firstFrom_self (by change 0 < b.length - 1; omega) (by simp [hhead])
  have hw : prefixSize + ((Mem.ofList b).u16 14).toNat + suffixSize = f.wireLen := by
    have hd : ((Mem.ofList b).u16 14).toNat = f.data.length := h.dataLen
    rw [hd, Frame.wireLen, prefixSize, headerSize, fixedFieldSize, suffixSize]
    omega
  have hge : b.length ≥ prefixSize := hlen
  simp only [sync, hpos, List.drop_zero, u16At_eq, hw, if_true, dif_pos hge]

/-- The front of the buffer decodes exactly when the tail is in place. -/
theorem fromBytes_take (h : FieldsAt (Mem.ofList b) 0 f) (hlen : f.wireLen ≤ b.length) :
    (∃ e, Frame.fromBytes (b.take f.wireLen) = .error e) ∧
        ¬ TailAt (Mem.ofList b) 0 f.data.length ∨
      Frame.fromBytes (b.take f.wireLen) = .ok (f, f.wireLen) ∧
        TailAt (Mem.ofList b) 0 f.data.length := by
  have htake : ∀ i < f.wireLen, Mem.ofList (b.take f.wireLen) (0 + i) = Mem.ofList b (0 + i) :=
    fun i hi => Mem.ofList_take (by omega)
  by_cases ht : TailAt (Mem.ofList b) 0 f.data.length
  · have hw : WireAt (Mem.ofList b) 0 f := ⟨h, ht⟩
    refine Or.inr ⟨fromBytes_eq_ok_iff.2 ⟨?_, rfl, hw.congr htake⟩, ht⟩
    rw [List.length_take, min_eq_left hlen]
  · refine Or.inl ⟨?_, ht⟩
    cases he : Frame.fromBytes (b.take f.wireLen) with
    | error e => exact ⟨e, rfl⟩
    | ok r =>
      -- Only `f` can be read there, and then its tail is in place.
      exfalso
      obtain ⟨-, -, hg⟩ := fromBytes_eq_ok_iff.1 he
      have hf : FieldsAt (Mem.ofList (b.take f.wireLen)) 0 f :=
        h.congr fun i hi => htake i (by rw [Frame.wireLen]; omega)
      have hfg : r.1 = f :=
        (fieldsAt_iff.1 hg.toFieldsAt).2.2.trans (fieldsAt_iff.1 hf).2.2.symm
      rw [hfg] at hg
      exact ht (hg.congr fun i hi => (htake i hi).symm).toTailAt

/-- A complete frame is taken out. -/
theorem feedLoop_frame (h : WireAt (Mem.ofList b) 0 f) (hlen : f.wireLen ≤ b.length) (n : Nat) :
    (feedLoop (n + 1) ⟨b, 0⟩).1 = f :: (feedLoop n ⟨b.drop f.wireLen, 0⟩).1 := by
  have hpos : 0 < f.wireLen := by rw [Frame.wireLen]; omega
  have hs := sync_of_fieldsAt h.toFieldsAt (by rw [Frame.wireLen] at hlen; omega)
  obtain ⟨-, hn⟩ | ⟨hok, -⟩ := fromBytes_take h.toFieldsAt hlen
  · exact absurd h.toTailAt hn
  · have he : extract ⟨b, f.wireLen⟩ = some (some f, ⟨b.drop f.wireLen, 0⟩) := by
      rw [extract, if_pos ⟨hpos, hlen⟩]
      simp only [hok]
    simp [feedLoop, hs, he]

/-- A frame without its tail is given up: its header is skipped. -/
theorem feedLoop_reject (h : FieldsAt (Mem.ofList b) 0 f)
    (ht : ¬ TailAt (Mem.ofList b) 0 f.data.length) (hlen : f.wireLen ≤ b.length) (n : Nat) :
    (feedLoop (n + 1) ⟨b, 0⟩).1 = (feedLoop n ⟨b.drop 2, 0⟩).1 := by
  have hpos : 0 < f.wireLen := by rw [Frame.wireLen]; omega
  have hs := sync_of_fieldsAt h (by rw [Frame.wireLen] at hlen; omega)
  obtain ⟨⟨e, herr⟩, -⟩ | ⟨-, hn⟩ := fromBytes_take h hlen
  · have he : extract ⟨b, f.wireLen⟩ = some (none, ⟨b.drop 2, 0⟩) := by
      rw [extract, if_pos ⟨hpos, hlen⟩]
      simp only [herr]
    simp [feedLoop, hs, he]
  · exact absurd hn ht

end

/-- No header in no bytes. -/
theorem feedLoop_nil (n : Nat) : (feedLoop n ⟨[], 0⟩).1 = [] := by
  cases n <;> rfl

end FrameDecoder

end ZephyrStm32.Ota.Pc
