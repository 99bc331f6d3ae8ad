import ZephyrStm32.Lib.Incremental
import ZephyrStm32.Ota.Pc.Codec

/-!
# The stream decoder and one scan of the stream

`frameRule` says what to do at a position of the stream: find the next `12 34`, wait until the
declared frame is there, take it if `from_bytes` accepts it, and skip the two bytes if not. The
decoder is this scan taken up again at every `feed` (`feed_scan`): what it throws away in between,
garbage in front of a header and all but a last `12`, can begin no frame (`sameItems_drop`).

**Theorem (`recovery`).** So frames between strings of garbage without a `12 34` all come out, in
order and nothing else, wherever the stream is cut.
-/

namespace ZephyrStm32.Ota.Pc

open Incremental Machine

/-! ## The reference scan -/

/-- The bytes `12 34` are at position `i`. -/
def headerAt (b : List UInt8) (i : Nat) : Bool := (b.drop i).take 2 == frameHeader

/-- The first position of the bytes `12 34`. -/
def firstHeader (b : List UInt8) : Option Nat := Scan.firstFrom (headerAt b) 0 (b.length - 1)

/-- The length of the frame that the header at the front of `b` declares. -/
def declaredLen (b : List UInt8) : Nat := 20 + ((Mem.ofList b).u16 14).toNat

/-- What to do with a header at the front: wait for the whole frame, take it, or skip the header. -/
def nextAt (b : List UInt8) : Option (Option Frame × Nat) :=
  if b.length < 16 then none
  else if b.length < declaredLen b then none
  else
    match Frame.fromBytes b with
    | .ok (f, _) => some (some f, declaredLen b)
    | .error _ => some (none, 2)

/-- What to do with the stream from a position on; the bytes in front of the header go too. -/
def nextFrame (b : List UInt8) : Option (Option Frame × Nat) :=
  (firstHeader b).bind fun h => (nextAt (b.drop h)).map fun r => (r.1, h + r.2)

variable {b c : List UInt8} {h k n : Nat} {f : Frame} {a : Option Frame}

/-! ### Headers -/

theorem headerAt_iff : headerAt b h = true ↔
    h + 1 < b.length ∧ Mem.ofList b h = 0x12 ∧ Mem.ofList b (h + 1) = 0x34 := by
  rw [headerAt, beq_iff_eq]
  by_cases hh : h + 1 < b.length
  · have hs : (b.drop h).take 2 = (Mem.ofList b).slice h 2 := take_drop_eq_slice (by omega)
    have he : (Mem.ofList b).slice h 2 = [Mem.ofList b h, Mem.ofList b (h + 1)] := rfl
    rw [hs, he, frameHeader, pair_eq_iff]
    simp [hh]
  · have hne : (b.drop h).take 2 ≠ frameHeader := by
      intro heq
      have hl := congrArg List.length heq
      rw [List.length_take, List.length_drop, frameHeader, List.length_cons, List.length_cons,
        List.length_nil] at hl
      omega
    simp [hne, hh]

theorem headerAt_append (c : List UInt8) (hh : h + 1 < b.length) :
    headerAt (b ++ c) h = headerAt b h := by
  rw [headerAt, headerAt, List.drop_append_of_le_length (by omega),
    List.take_append_of_le_length (by rw [List.length_drop]; omega)]

theorem headerAt_drop (b : List UInt8) (k h : Nat) :
    headerAt (b.drop k) h = headerAt b (k + h) := by
  rw [headerAt, headerAt, List.drop_drop]

theorem firstHeader_eq_some : firstHeader b = some h ↔
    headerAt b h = true ∧ ∀ i < h, headerAt b i = false := by
  rw [firstHeader, Scan.firstFrom_eq_some]
  constructor
  · rintro ⟨-, -, hh, hmin⟩
    exact ⟨hh, fun i hi => hmin i (Nat.zero_le i) hi⟩
  · rintro ⟨hh, hmin⟩
    have hlt := (headerAt_iff.1 hh).1
    exact ⟨Nat.zero_le h, by omega, hh, fun i _ hi => hmin i hi⟩

theorem firstHeader_eq_none : firstHeader b = none ↔ ∀ i, headerAt b i = false := by
  rw [firstHeader, Scan.firstFrom_eq_none]
  constructor
  · intro hn i
    by_cases hi : i < b.length - 1
    · exact hn i (Nat.zero_le i) (by omega)
    · rw [← Bool.not_eq_true, headerAt_iff]
      omega
  · intro hn i _ _
    exact hn i

theorem firstHeader_append (c : List UInt8) (hh : firstHeader b = some h) :
    firstHeader (b ++ c) = some h := by
  obtain ⟨hhead, hmin⟩ := firstHeader_eq_some.1 hh
  have hlt := (headerAt_iff.1 hhead).1
  rw [firstHeader_eq_some, headerAt_append c hlt]
  refine ⟨hhead, fun i hi => ?_⟩
  rw [headerAt_append c (by omega)]
  exact hmin i hi

/-! ### The frame at the front -/

theorem ofList_append {i : Nat} (c : List UInt8) (hi : i < b.length) :
    Mem.ofList (b ++ c) i = Mem.ofList b i :=
  Mem.ofList_append_left hi

theorem declaredLen_append (c : List UInt8) (h16 : 16 ≤ b.length) :
    declaredLen (b ++ c) = declaredLen b := by
  rw [declaredLen, declaredLen, Mem.u16, Mem.u16, ofList_append c (by omega),
    ofList_append c (by omega)]

theorem FieldsAt.declaredLen_eq (hf : FieldsAt (Mem.ofList b) 0 f) :
    declaredLen b = f.wireLen :=
  congrArg (20 + ·) hf.dataLen

/-- What stands behind the declared length is not looked at. -/
theorem fromBytes_append (c : List UInt8) (h16 : 16 ≤ b.length) (hlen : declaredLen b ≤ b.length) :
    Frame.fromBytes (b ++ c) = .ok (f, n) ↔ Frame.fromBytes b = .ok (f, n) := by
  rw [fromBytes_eq_ok_iff, fromBytes_eq_ok_iff]
  constructor
  · rintro ⟨-, rfl, hw⟩
    have hle : f.wireLen ≤ b.length := by
      rw [← hw.toFieldsAt.declaredLen_eq, declaredLen_append c h16]
      exact hlen
    exact ⟨hle, rfl, hw.congr fun i hi => (ofList_append c (by omega)).symm⟩
  · rintro ⟨hle, rfl, hw⟩
    rw [List.length_append]
    exact ⟨by omega, rfl, hw.congr fun i hi => ofList_append c (by omega)⟩

theorem nextAt_whole (h16 : 16 ≤ b.length) (hlen : declaredLen b ≤ b.length) : nextAt b =
    match Frame.fromBytes b with
    | .ok (f, _) => some (some f, declaredLen b)
    | .error _ => some (none, 2) := by
  rw [nextAt, if_neg (by omega), if_neg (by omega)]

theorem nextAt_eq_none : nextAt b = none ↔ b.length < 16 ∨ b.length < declaredLen b := by
  by_cases h16 : b.length < 16
  · simp [nextAt, h16]
  · by_cases hlen : b.length < declaredLen b
    · simp [nextAt, hlen]
    · rw [nextAt_whole (by omega) (by omega)]
      cases Frame.fromBytes b <;> simp [h16, hlen]

theorem nextAt_append {r : Option Frame × Nat} (c : List UInt8) (hn : nextAt b = some r) :
    nextAt (b ++ c) = some r := by
  have hwhole : ¬ (b.length < 16 ∨ b.length < declaredLen b) := by
    rw [← nextAt_eq_none, hn]
    simp
  rw [nextAt_whole (by omega) (by omega)] at hn
  have hd := declaredLen_append c (by omega : 16 ≤ b.length)
  rw [nextAt_whole (by rw [List.length_append]; omega) (by rw [hd, List.length_append]; omega), hd]
  cases hb : Frame.fromBytes b with
  | ok r' =>
    rw [hb] at hn
    rw [(fromBytes_append c (by omega) (by omega)).2 hb]
    exact hn
  | error e =>
    rw [hb] at hn
    cases hbc : Frame.fromBytes (b ++ c) with
    | ok r' =>
      rw [(fromBytes_append c (by omega) (by omega)).1 hbc] at hb
      cases hb
    | error e' => exact hn

theorem nextAt_bounds (hn : nextAt b = some (a, n)) : 0 < n ∧ n ≤ b.length := by
  have hwhole : ¬ (b.length < 16 ∨ b.length < declaredLen b) := by
    rw [← nextAt_eq_none, hn]
    simp
  rw [nextAt_whole (by omega) (by omega)] at hn
  have hpos : 20 ≤ declaredLen b := Nat.le_add_right _ _
  split at hn
  · cases hn
    omega
  · cases hn
    omega

/-! ### The rule -/

theorem nextFrame_eq_some {r : Option Frame × Nat} : nextFrame b = some r ↔
    ∃ h r', firstHeader b = some h ∧ nextAt (b.drop h) = some r' ∧ r = (r'.1, h + r'.2) := by
  simp only [nextFrame, Option.bind_eq_some_iff, Option.map_eq_some_iff]
  constructor
  · rintro ⟨h, hh, r', hr', rfl⟩
    exact ⟨h, r', hh, hr', rfl⟩
  · rintro ⟨h, r', hh, hr', rfl⟩
    exact ⟨h, hh, r', hr', rfl⟩

/-- The rule of the reference scan. -/
def frameRule : Rule UInt8 Frame where
  next := nextFrame
  pos := by
    intro b a n hn
    obtain ⟨h, r', -, hr', heq⟩ := nextFrame_eq_some.1 hn
    have hpos := (nextAt_bounds hr').1
    rw [(Prod.mk.inj heq).2]
    omega
  le := by
    intro b a n hn
    obtain ⟨h, r', hh, hr', heq⟩ := nextFrame_eq_some.1 hn
    have hle := (nextAt_bounds hr').2
    have hlt := (headerAt_iff.1 (firstHeader_eq_some.1 hh).1).1
    rw [List.length_drop] at hle
    rw [(Prod.mk.inj heq).2]
    omega
  stable := by
    intro b r c hn
    obtain ⟨h, r', hh, hr', rfl⟩ := nextFrame_eq_some.1 hn
    have hlt := (headerAt_iff.1 (firstHeader_eq_some.1 hh).1).1
    refine nextFrame_eq_some.2 ⟨h, r', firstHeader_append c hh, ?_, rfl⟩
    rw [List.drop_append_of_le_length (by omega)]
    exact nextAt_append c hr'

theorem scan_none (hn : nextFrame b = none) : frameRule.scan b = ([], b) := Rule.scan_none hn

theorem scan_some (hn : nextFrame b = some (a, n)) : frameRule.scan b =
    (a.toList ++ (frameRule.scan (b.drop n)).1, (frameRule.scan (b.drop n)).2) :=
  Rule.scan_some hn

/-! ### Garbage -/

theorem nextFrame_of_none (hn : firstHeader b = none) : nextFrame b = none := by
  rw [nextFrame, hn]
  rfl

/-- Bytes in front of the first header change nothing. -/
theorem scan_drop (hg : ∀ i < k, headerAt b i = false) :
    (frameRule.scan b).1 = (frameRule.scan (b.drop k)).1 := by
  cases hh : firstHeader b with
  | none =>
    have hd : firstHeader (b.drop k) = none := by
      rw [firstHeader_eq_none] at hh ⊢
      intro i
      rw [headerAt_drop]
      exact hh (k + i)
    rw [scan_none (nextFrame_of_none hh), scan_none (nextFrame_of_none hd)]
  | some h =>
    obtain ⟨hhead, hmin⟩ := firstHeader_eq_some.1 hh
    have hk : k ≤ h := by
      by_contra hlt
      rw [hg h (by omega)] at hhead
      cases hhead
    obtain ⟨j, rfl⟩ := Nat.exists_eq_add_of_le hk
    have hd : firstHeader (b.drop k) = some j := by
      rw [firstHeader_eq_some, headerAt_drop]
      refine ⟨hhead, fun i hi => ?_⟩
      rw [headerAt_drop]
      exact hmin (k + i) (by omega)
    have hsame : (b.drop k).drop j = b.drop (k + j) := List.drop_drop
    cases hn : nextAt (b.drop (k + j)) with
    | none =>
      have hb : nextFrame b = none := by rw [nextFrame, hh, Option.bind_some, hn]; rfl
      have hbd : nextFrame (b.drop k) = none := by
        rw [nextFrame, hd, Option.bind_some, hsame, hn]
        rfl
      rw [scan_none hb, scan_none hbd]
    | some r =>
      have hb : nextFrame b = some (r.1, k + j + r.2) := nextFrame_eq_some.2 ⟨_, r, hh, hn, rfl⟩
      have hbd : nextFrame (b.drop k) = some (r.1, j + r.2) :=
        nextFrame_eq_some.2 ⟨_, r, hd, hsame ▸ hn, rfl⟩
      rw [scan_some hb, scan_some hbd, List.drop_drop, Nat.add_assoc]

/-- Bytes that can begin no header, whatever arrives, may be thrown away. -/
theorem sameItems_drop (hk : k ≤ b.length) (hg : ∀ c, ∀ i < k, headerAt (b ++ c) i = false) :
    SameItems frameRule b (b.drop k) := by
  intro c
  rw [scan_drop (hg c), List.drop_append_of_le_length hk]

/-! ## The decoder -/

namespace FrameDecoder

variable {d : FrameDecoder}

/-- A header is at the front of the buffer, and the length of its frame is known. -/
structure Fronted (d : FrameDecoder) : Prop where
  header : headerAt d.buf 0 = true
  len : 16 ≤ d.buf.length
  expected : d.expectedLen = declaredLen d.buf

/-- `expected_len` is 0 or that of the header at the front. -/
def Synced (d : FrameDecoder) : Prop := d.expectedLen = 0 ∨ d.Fronted

theorem findHeader_eq (d : FrameDecoder) : d.findHeader = firstHeader d.buf := by
  rw [findHeader]
  split
  · rename_i hs
    rw [firstHeader, show d.buf.length - 1 = 0 by omega]
    rfl
  · rfl

theorem firstHeader_front (hh : headerAt b 0 = true) : firstHeader b = some 0 :=
  firstHeader_eq_some.2 ⟨hh, fun i hi => absurd hi (Nat.not_lt_zero i)⟩

theorem nextFrame_front (hh : headerAt b 0 = true) : nextFrame b = nextAt b := by
  rw [nextFrame, firstHeader_front hh, Option.bind_some, List.drop_zero]
  simp

/-- What the first half of a round leaves. -/
structure SyncSpec (d : FrameDecoder) (s : Bool × FrameDecoder) : Prop where
  same : SameItems frameRule d.buf s.2.buf
  synced : s.2.Synced
  stop : s.1 = true → nextFrame s.2.buf = none
  go : s.1 = false → s.2.Fronted

theorem sync_found (he : d.expectedLen = 0) (hh : firstHeader d.buf = some h) :
    SyncSpec d (sync d) := by
  obtain ⟨hhead, hmin⟩ := firstHeader_eq_some.1 hh
  have hlt := (headerAt_iff.1 hhead).1
  have hfront : headerAt (d.buf.drop h) 0 = true := by
    rw [headerAt_drop]
    exact hhead
  have hsame : SameItems frameRule d.buf (d.buf.drop h) := by
    apply sameItems_drop (by omega)
    intro c i hi
    rw [headerAt_append c (by omega)]
    exact hmin i hi
  rw [sync, if_pos he, findHeader_eq, hh]
  dsimp only
  by_cases hlen : (d.buf.drop h).length ≥ prefixSize
  · have hf : Fronted ⟨d.buf.drop h, prefixSize + (u16At (d.buf.drop h) 14
        (by rw [prefixSize, headerSize, fixedFieldSize] at hlen; omega)).toNat + suffixSize⟩ := by
      refine ⟨hfront, hlen, ?_⟩
      dsimp only
      rw [u16At_eq, declaredLen, prefixSize, headerSize, fixedFieldSize, suffixSize]
      omega
    rw [dif_pos hlen]
    exact ⟨hsame, Or.inr hf, fun hs => absurd hs (by simp), fun _ => hf⟩
  · rw [dif_neg hlen]
    refine ⟨hsame, Or.inl he, fun _ => ?_, fun hs => absurd hs (by simp)⟩
    rw [nextFrame_front hfront, nextAt_eq_none]
    exact Or.inl (Nat.lt_of_not_le hlen)

/-- Without a header only a last `12` can begin one. -/
theorem sameItems_keep (hn : firstHeader b = none) :
    SameItems frameRule b (b.drop (b.length - if b.getLast? = some 0x12 then 1 else 0)) := by
  rw [firstHeader_eq_none] at hn
  apply sameItems_drop (Nat.sub_le _ _)
  intro c i hi
  by_cases hlt : i + 1 < b.length
  · rw [headerAt_append c hlt]
    exact hn i
  · -- The last byte goes too, so it is not `12`.
    have hlast : b.getLast? ≠ some 0x12 := by
      intro hlast
      rw [if_pos hlast] at hi
      omega
    rw [← Bool.not_eq_true, headerAt_iff]
    rintro ⟨-, h12, -⟩
    apply hlast
    rw [ofList_append c (by omega)] at h12
    rw [List.getLast?_eq_getElem?, show b.length - 1 = i by omega,
      List.getElem?_eq_getElem (by omega), getElem_eq_ofList, h12]

theorem sync_lost (he : d.expectedLen = 0) (hn : firstHeader d.buf = none) :
    SyncSpec d (sync d) := by
  have hrest : ∀ k, nextFrame (d.buf.drop k) = none := by
    intro k
    apply nextFrame_of_none
    rw [firstHeader_eq_none] at hn ⊢
    intro i
    rw [headerAt_drop]
    exact hn (k + i)
  have hkeep := sameItems_keep hn
  rw [sync, if_pos he, findHeader_eq, hn]
  dsimp only
  generalize (if d.buf.getLast? = some 0x12 then 1 else 0) = keep at hkeep
  split
  · exact ⟨hkeep, Or.inl he, fun _ => hrest _, fun hs => absurd hs (by simp)⟩
  · exact ⟨SameItems.refl _, Or.inl he, fun _ => hrest 0, fun hs => absurd hs (by simp)⟩

theorem sync_spec (hd : d.Synced) : SyncSpec d (sync d) := by
  by_cases he : d.expectedLen = 0
  · cases hh : firstHeader d.buf with
    | none => exact sync_lost he hh
    | some h => exact sync_found he hh
  · have hf : d.Fronted := hd.resolve_left he
    rw [sync, if_neg he]
    exact ⟨SameItems.refl _, Or.inr hf, fun hs => absurd hs (by simp), fun _ => hf⟩

/-- The second half of a round does what the rule says. -/
theorem extract_eq (hf : d.Fronted) :
    extract d = (nextAt d.buf).map fun r => (r.1, ⟨d.buf.drop r.2, 0⟩) := by
  have h16 := hf.len
  have hpos : 20 ≤ declaredLen d.buf := Nat.le_add_right _ _
  rw [extract, hf.expected]
  by_cases hlen : declaredLen d.buf ≤ d.buf.length
  · rw [if_pos ⟨by omega, hlen⟩, nextAt_whole h16 hlen]
    -- The frame's own bytes decide what `from_bytes` says.
    have htake : (d.buf.take (declaredLen d.buf)).length = declaredLen d.buf :=
      List.length_take_of_le hlen
    have hd : declaredLen (d.buf.take (declaredLen d.buf)) = declaredLen d.buf := by
      have := declaredLen_append (d.buf.drop (declaredLen d.buf)) (by omega :
        16 ≤ (d.buf.take (declaredLen d.buf)).length)
      rw [List.take_append_drop] at this
      exact this.symm
    have hiff : ∀ f n, Frame.fromBytes d.buf = .ok (f, n) ↔
        Frame.fromBytes (d.buf.take (declaredLen d.buf)) = .ok (f, n) := by
      intro f n
      have := fromBytes_append (f := f) (n := n) (d.buf.drop (declaredLen d.buf))
        (by omega : 16 ≤ (d.buf.take (declaredLen d.buf)).length) (by omega)
      rwa [List.take_append_drop] at this
    cases hb : Frame.fromBytes (d.buf.take (declaredLen d.buf)) with
    | ok r =>
      rw [(hiff r.1 r.2).2 hb]
      rfl
    | error e =>
      cases hb' : Frame.fromBytes d.buf with
      | ok r =>
        rw [(hiff r.1 r.2).1 hb'] at hb
        cases hb
      | error e' => rfl
  · rw [if_neg (fun h => hlen h.2), nextAt_eq_none.2 (Or.inr (by omega))]
    rfl

/-- **The loop is the scan.** What it gives and what it keeps stand for the buffer it began with,
and it ends when no frame can be had. -/
theorem feedLoop_scan {rounds : Nat} (hd : d.Synced) (hr : d.buf.length < rounds) :
    (feedLoop rounds d).2.Synced ∧ nextFrame (feedLoop rounds d).2.buf = none ∧
      ∀ c, (frameRule.scan (d.buf ++ c)).1 =
        (feedLoop rounds d).1 ++ (frameRule.scan ((feedLoop rounds d).2.buf ++ c)).1 := by
  induction rounds generalizing d with
  | zero => omega
  | succ rounds ih =>
    obtain ⟨hsame, hsynced, hstop, hgo⟩ := sync_spec hd
    have hle := length_sync d
    rw [feedLoop]
    dsimp only
    split
    · rename_i hs
      exact ⟨hsynced, hstop hs, hsame⟩
    · rename_i hs
      have hf := hgo (by simpa using hs)
      have hnext : nextFrame (sync d).2.buf = nextAt (sync d).2.buf := nextFrame_front hf.header
      split
      · rename_i hx
        rw [extract_eq hf, Option.map_eq_none_iff] at hx
        exact ⟨hsynced, hnext.trans hx, hsame⟩
      · rename_i a d' hx
        rw [extract_eq hf, Option.map_eq_some_iff] at hx
        obtain ⟨r, hr', heq⟩ := hx
        obtain ⟨rfl, rfl⟩ := Prod.mk.inj heq
        have hn : frameRule.next (sync d).2.buf = some r := hnext.trans hr'
        have hpos := frameRule.pos hn
        have hlen := frameRule.le hn
        obtain ⟨hsynced', hwaits, hitems⟩ := ih (d := ⟨(sync d).2.buf.drop r.2, 0⟩) (Or.inl rfl)
          (by change ((sync d).2.buf.drop r.2).length < _; rw [List.length_drop]; omega)
        refine ⟨hsynced', hwaits, fun c => ?_⟩
        rw [hsame c, Rule.scan_append_some hn, hitems c, List.append_assoc]

theorem Fronted.append (hf : d.Fronted) (c : List UInt8) :
    Fronted { d with buf := d.buf ++ c } where
  header := by
    have h16 := hf.len
    rw [headerAt_append c (by omega)]
    exact hf.header
  len := by
    have h16 := hf.len
    rw [List.length_append]
    omega
  expected := hf.expected.trans (declaredLen_append c hf.len).symm

/-- The decoder between two calls of `feed`. -/
def Waiting (d : FrameDecoder) : Prop := d.Synced ∧ nextFrame d.buf = none

theorem decodes : Decodes frameRule feed buf Waiting := by
  have hloop : ∀ (d : FrameDecoder) (c : List UInt8), d.Synced → _ := fun d c hd =>
    feedLoop_scan (d := { d with buf := d.buf ++ c }) (hd.imp_right fun hf => hf.append c)
      (Nat.lt_succ_self _)
  constructor
  · intro d hd c
    obtain ⟨hsynced, hwaits, -⟩ := hloop d c hd.1
    exact ⟨hsynced, hwaits⟩
  · intro d hd
    exact hd.2
  · intro d hd c
    exact (hloop d c hd.1).2.2

theorem waiting_new : Waiting new := ⟨Or.inl rfl, rfl⟩

end FrameDecoder

/-- The frames of one scan of the whole stream. -/
def referenceScan (stream : List UInt8) : List Frame := (frameRule.scan stream).1

/-- **Fragmentation does not matter.** However a stream is cut into chunks, a fresh decoder gives
the frames of one scan of it; so two ways to cut it give the same frames. -/
theorem feed_scan (chunks : List (List UInt8)) :
    (outputs FrameDecoder.feed .new chunks).flatten = referenceScan chunks.flatten ∧
      ∀ chunks' : List (List UInt8), chunks'.flatten = chunks.flatten →
        (outputs FrameDecoder.feed .new chunks').flatten =
          (outputs FrameDecoder.feed .new chunks).flatten := by
  have hscan : ∀ cs, (outputs FrameDecoder.feed .new cs).flatten = referenceScan cs.flatten :=
    FrameDecoder.decodes.flatten_outputs FrameDecoder.waiting_new
  refine ⟨hscan chunks, fun chunks' heq => ?_⟩
  rw [hscan chunks', hscan chunks, heq]

/-! ## Frames amid garbage -/

/-- The encodings of frames, with bytes before, between and behind them. -/
def garbled (garbage : List UInt8) (items : List (Frame × List UInt8)) : List UInt8 :=
  garbage ++ (items.map fun x => x.1.toBytes ++ x.2).flatten

theorem headerAt_of_clean (hb : ¬ frameHeader <:+: b) (i : Nat) : headerAt b i = false := by
  rw [← Bool.not_eq_true, headerAt, beq_iff_eq]
  intro heq
  apply hb
  rw [← heq]
  exact ((List.take_prefix 2 _).isInfix).trans (List.drop_suffix i b).isInfix

theorem referenceScan_clean (hb : ¬ frameHeader <:+: b) : referenceScan b = [] := by
  have hn := firstHeader_eq_none.2 (headerAt_of_clean hb)
  rw [referenceScan, scan_none (nextFrame_of_none hn)]

/-- Garbage in front of a frame is skipped, also when it ends in `12`. -/
theorem referenceScan_garbage {g : List UInt8} (hg : ¬ frameHeader <:+: g)
    (rest : List UInt8) :
    referenceScan (g ++ (f.toBytes ++ rest)) = referenceScan (f.toBytes ++ rest) := by
  have hskip : ∀ i < g.length, headerAt (g ++ (f.toBytes ++ rest)) i = false := by
    intro i hi
    by_cases hlt : i + 1 < g.length
    · rw [headerAt_append _ hlt]
      exact headerAt_of_clean hg i
    · -- The second byte would be the first of the frame.
      rw [← Bool.not_eq_true, headerAt_iff]
      rintro ⟨-, -, h34⟩
      rw [show i + 1 = g.length + 0 by omega, Mem.ofList_append_right] at h34
      cases h34
  rw [referenceScan, scan_drop hskip, List.drop_left']
  · rfl
  · rfl

/-- A frame comes out whatever its payload holds. -/
theorem referenceScan_frame (hf : f.data.length ≤ 65535) (rest : List UInt8) :
    referenceScan (f.toBytes ++ rest) = f :: referenceScan rest := by
  have hw := wireAt_toBytes hf rest
  have hlen : (f.toBytes ++ rest).length = f.wireLen + rest.length := by
    rw [List.length_append, Frame.length_toBytes]
  have hd : declaredLen (f.toBytes ++ rest) = f.wireLen := hw.toFieldsAt.declaredLen_eq
  have h20 : 20 ≤ f.wireLen := Nat.le_add_right _ _
  have hhead : headerAt (f.toBytes ++ rest) 0 = true := by
    rw [headerAt_iff]
    exact ⟨by omega, hw.header0, hw.header1⟩
  have hnext : nextFrame (f.toBytes ++ rest) = some (some f, f.wireLen) := by
    rw [FrameDecoder.nextFrame_front hhead, nextAt_whole (by omega) (by omega),
      fromBytes_toBytes hf rest, hd]
  rw [referenceScan, scan_some hnext, List.drop_left' (Frame.length_toBytes f)]
  rfl

theorem referenceScan_garbled {items : List (Frame × List UInt8)} {g : List UInt8}
    (hlen : ∀ x ∈ items, x.1.data.length ≤ 65535) (hg : ¬ frameHeader <:+: g)
    (hitems : ∀ x ∈ items, ¬ frameHeader <:+: x.2) :
    referenceScan (garbled g items) = items.map Prod.fst := by
  induction items generalizing g with
  | nil =>
    rw [garbled, List.map_nil, List.flatten_nil, List.append_nil]
    exact referenceScan_clean hg
  | cons x items ih =>
    have hrest := ih (fun y hy => hlen y (List.mem_cons_of_mem _ hy))
      (hitems x List.mem_cons_self) fun y hy => hitems y (List.mem_cons_of_mem _ hy)
    rw [garbled] at hrest
    rw [garbled, List.map_cons, List.flatten_cons, List.append_assoc, referenceScan_garbage hg,
      referenceScan_frame (hlen x List.mem_cons_self), hrest, List.map_cons]

/-- **Recovery.** Frames amid garbage without a `12 34` all come out, in order and nothing else,
however the stream is cut and whatever bytes the payloads hold. -/
theorem recovery {garbage : List UInt8} {items : List (Frame × List UInt8)}
    {chunks : List (List UInt8)} (hlen : ∀ x ∈ items, x.1.data.length ≤ 65535)
    (hgarbage : ¬ frameHeader <:+: garbage) (hitems : ∀ x ∈ items, ¬ frameHeader <:+: x.2)
    (hchunks : chunks.flatten = garbled garbage items) :
    (outputs FrameDecoder.feed .new chunks).flatten = items.map Prod.fst := by
  rw [FrameDecoder.decodes.flatten_outputs FrameDecoder.waiting_new]
  change referenceScan chunks.flatten = _
  rw [hchunks]
  exact referenceScan_garbled hlen hgarbage hitems

/-- A frame that carries a header and a tail, behind a `12` and in front of a `34`, in two pieces
that part its own header. -/
theorem recovery_in_two :
    let f : Frame := ⟨7, 0x20, 0x00, 1, 0, 0x0009, [0x12, 0x34, 0xCD, 0xEF]⟩
    (outputs FrameDecoder.feed .new
      [0x00 :: 0x12 :: f.toBytes.take 1, f.toBytes.drop 1 ++ [0x34]]).flatten = [f] := by
  intro f
  have hlen : ∀ x ∈ [(f, [(0x34 : UInt8)])], x.1.data.length ≤ 65535 := by decide
  exact recovery hlen (by decide : ¬ frameHeader <:+: [0x00, 0x12]) (by decide) rfl

end ZephyrStm32.Ota.Pc
