import ZephyrStm32.Ota.Link.Noise

/-!
# Copies of one frame: when the receiver wedges

What `ota_frame_parse` finds no frame in stays in `rx_buf`: noise without a header, or a header
that declares more bytes than will fit. When there is no room for a frame behind it, every copy of
the frame that arrives is dropped, and `ota_process_rx` looks at the same bytes each time.

`Reaches` reads the bytes that wait and the copies behind them as one stream, and asks of each
frame in turn, up to the first copy, whether it can ever be in the buffer whole.

**Theorem (`dispatched_iff`).** From a reachable state, one of the copies is passed on sooner or
later if and only if the parser `Reaches` a copy. Noise as long as `rx_buf`, less a few bytes,
stops it for good (`wedged_by_noise`).
-/

namespace ZephyrStm32.Ota.Link

open Machine
open Pc (Frame FieldsAt)

/-! ## Delivering copies -/

instance (m : Mem) (len h : Nat) : Decidable (WholeAt m len h) :=
  inferInstanceAs (Decidable (_ ∧ _))

/-- Where the frames that the loop passes on begin. -/
def passedOn (m : Mem) (len : Nat) : Nat → Nat → List Nat
  | 0, _ => []
  | rounds + 1, p =>
    match headerFrom m len p with
    | none => []
    | some h => if WholeAt m len h then h :: passedOn m len rounds (p + lenAt m h) else []

/-- The receiver, and where in `rx_buf` the copies delivered so far begin. -/
structure Delivery where
  rx : RxState
  copies : List Nat

/-- The copies passed on, and the state after the event. -/
def Delivery.step (d : Delivery) : RxEvent → List OtaFrame × Delivery
  | .received bytes =>
    ([], ⟨uartRxRdy d.rx bytes,
      if d.rx.len + bytes.length ≤ rxBufSize then d.copies ++ [d.rx.len] else d.copies⟩)
  | .process stack =>
    let r := otaProcessRx stack d.rx
    let n := d.rx.processed stack
    (((r.1.zip (passedOn d.rx.buf d.rx.len d.rx.len 0)).filter (·.2 ∈ d.copies)).map Prod.fst,
      ⟨r.2, (d.copies.filter (n ≤ ·)).map (· - n)⟩)

/-- Some copies, each followed by a call of `ota_process_rx`. -/
def deliveries (e : List UInt8) : (Nat → Nat → OtaFrame) → Nat → List RxEvent
  | _, 0 => []
  | junk, n + 1 => .received e :: .process (junk 0) :: deliveries e (fun i => junk (i + 1)) n

/-! ## The condition -/

/-- The bytes `c`, and copies of `e` without end. -/
def endless (c e : List UInt8) : Mem := fun i =>
  if i < c.length then c.getD i 0 else e.getD ((i - c.length) % e.length) 0

/-- In `m[0 .. q)`, the first header from `p` on is at `h` and begins a frame that is all there. -/
structure FrameFrom (m : Mem) (q p h : Nat) : Prop where
  le : p ≤ h
  header : isFrameHeader m h = true
  first : ∀ k, p ≤ k → k < h → isFrameHeader m k = false
  room : h + frameMinSize ≤ q
  whole : WholeAt m q h

/-- A copy begins, or ends, at this place of the stream. -/
def CopyAt (c e : List UInt8) (i : Nat) : Prop := ∃ k, i = c.length + k * e.length

/-- From `p` to the end of some copy; `rx_buf` has room for that. -/
structure Waits (c e : List UInt8) (p q : Nat) : Prop where
  le : p ≤ q
  room : q ≤ p + rxBufSize
  copy : CopyAt c e q

/-- From `p` on the parser reaches a copy: it begins the first frame, or it is reached from `p`
plus the length of the first frame on; and that frame can be in `rx_buf` whole. -/
inductive Reaches (c e : List UInt8) : Nat → Prop
  | copy {p q h : Nat} : Waits c e p q → FrameFrom (endless c e) q p h → CopyAt c e h →
      Reaches c e p
  | next {p q h : Nat} : Waits c e p q → FrameFrom (endless c e) q p h →
      Reaches c e (p + lenAt (endless c e) h) → Reaches c e p

variable {rx : RxState} {stack : Nat → OtaFrame} {f : Frame} {c e : List UInt8} {d : Delivery}
  {m : Mem} {p q h : Nat}

/-! ## Frames found -/

theorem frameFrom_iff : FrameFrom m q p h ↔ headerFrom m q p = some h ∧ WholeAt m q h := by
  rw [headerFrom_eq_some]
  constructor
  · intro hf
    exact ⟨⟨hf.le, hf.room, hf.header, hf.first⟩, hf.whole⟩
  · rintro ⟨⟨hle, hroom, hheader, hfirst⟩, hwhole⟩
    exact ⟨hle, hheader, hfirst, hroom, hwhole⟩

theorem FrameFrom.unique {q' h' : Nat} (hf : FrameFrom m q p h) (hf' : FrameFrom m q' p h') :
    h = h' := by
  rcases Nat.lt_trichotomy h h' with hlt | heq | hlt
  · have := hf'.first h hf.le hlt
    rw [hf.header] at this
    cases this
  · exact heq
  · have := hf.first h' hf'.le hlt
    rw [hf'.header] at this
    cases this

/-- More bytes behind the frame change nothing. -/
theorem FrameFrom.mono {q' : Nat} (hf : FrameFrom m q p h) (hq : q ≤ q') : FrameFrom m q' p h :=
  ⟨hf.le, hf.header, hf.first, hf.room.trans hq, hf.whole.1, hf.whole.2.trans hq⟩

theorem lenAt_shift {m' : Mem} {a len : Nat} (hm : ∀ i < len, m' i = m (a + i))
    (hroom : h + frameMinSize ≤ len) : lenAt m' h = lenAt m (a + h) := by
  rw [frameMinSize] at hroom
  rw [lenAt, lenAt, Mem.u16, Mem.u16, hm _ (by omega), hm _ (by omega)]
  simp only [Nat.add_assoc]

/-- A frame that is found moves with its buffer. -/
theorem frameFrom_shift {m' : Mem} {a len : Nat} (hm : ∀ i < len, m' i = m (a + i)) :
    FrameFrom m' len p h ↔ FrameFrom m (a + len) (a + p) (a + h) := by
  have hheader : ∀ k, k + 1 < len → isFrameHeader m' k = isFrameHeader m (a + k) := by
    intro k hk
    rw [isFrameHeader, isFrameHeader, hm k (by omega), hm (k + 1) hk, Nat.add_assoc]
  constructor
  · rintro ⟨hle, hhit, hfirst, hroom, hpos, hfit⟩
    have hr := hroom
    rw [frameMinSize] at hr
    rw [lenAt_shift hm hroom] at hpos hfit
    refine ⟨by omega, ?_, ?_, by omega, hpos, by omega⟩
    · rw [← hheader h (by omega)]
      exact hhit
    · intro k h₁ h₂
      obtain ⟨k, rfl⟩ := Nat.exists_eq_add_of_le (show a ≤ k by omega)
      rw [← hheader k (by omega)]
      exact hfirst k (by omega) (by omega)
  · rintro ⟨hle, hhit, hfirst, hroom, hpos, hfit⟩
    have hroom : h + frameMinSize ≤ len := by omega
    have hr := hroom
    rw [frameMinSize] at hr
    rw [← lenAt_shift hm hroom] at hpos hfit
    refine ⟨by omega, ?_, ?_, hroom, hpos, by omega⟩
    · rw [hheader h (by omega)]
      exact hhit
    · intro k h₁ h₂
      rw [hheader k (by omega)]
      exact hfirst (a + k) (by omega) (by omega)

/-! ## One call -/

/-- From `p` on the loop passes on the frames at `hs`, and stops at `p'`. -/
inductive Passes (m : Mem) (q : Nat) : Nat → List Nat → Nat → Prop
  | stop {p : Nat} : (∀ h, ¬ FrameFrom m q p h) → Passes m q p [] p
  | next {p h p' : Nat} {hs : List Nat} : FrameFrom m q p h →
      Passes m q (p + lenAt m h) hs p' → Passes m q p (h :: hs) p'

theorem Passes.le {p' : Nat} {hs : List Nat} (hp : Passes m q p hs p') (hq : p ≤ q) :
    p ≤ p' ∧ p' ≤ q ∧ ∀ h, ¬ FrameFrom m q p' h := by
  induction hp with
  | stop hn => exact ⟨le_rfl, hq, hn⟩
  | next hf _ ih =>
    have hle := hf.le
    have hfit := hf.whole.2
    obtain ⟨h₁, h₂, h₃⟩ := ih (by omega)
    exact ⟨by omega, h₂, h₃⟩

theorem Passes.lt {p' : Nat} {hs : List Nat} (hp : Passes m q p hs p') : ∀ h ∈ hs, h < q := by
  induction hp with
  | stop _ =>
    intro h hh
    cases hh
  | next hf _ ih =>
    intro h hh
    rcases List.mem_cons.1 hh with rfl | hh
    · have := hf.room
      rw [frameMinSize] at this
      omega
    · exact ih h hh

/-- The rounds of the loop, with the frames where they begin, and with `processed`. -/
theorem rxLoop_passes (stack : Nat → OtaFrame) (rx : RxState) {rounds x : Nat}
    (hr : rx.len - x ≤ rounds) :
    List.Forall₂ (fun g h => ∃ junk, g = readFrame rx.buf h junk) (rxLoop stack rx rounds x).1
        (passedOn rx.buf rx.len rounds x) ∧
      Passes rx.buf rx.len x (passedOn rx.buf rx.len rounds x) (rxLoop stack rx rounds x).2 := by
  induction rounds generalizing x with
  | zero =>
    refine ⟨.nil, .stop fun h hf => ?_⟩
    have := hf.le
    have := hf.room
    rw [frameMinSize] at this
    omega
  | succ rounds ih =>
    by_cases hex : ∃ h, FrameFrom rx.buf rx.len x h
    · obtain ⟨h, hf⟩ := hex
      obtain ⟨hh, hw⟩ := frameFrom_iff.1 hf
      have hpos := hw.1
      obtain ⟨hframes, hpasses⟩ := ih (x := x + lenAt rx.buf h) (by omega)
      rw [rxLoop_whole hh hw, passedOn, hh]
      dsimp only
      rw [if_pos hw]
      exact ⟨.cons ⟨_, rfl⟩ hframes, .next hf hpasses⟩
    · have hn : ∀ h, headerFrom rx.buf rx.len x = some h → ¬ WholeAt rx.buf rx.len h :=
        fun h hh hw => hex ⟨h, frameFrom_iff.2 ⟨hh, hw⟩⟩
      have hnil : passedOn rx.buf rx.len (rounds + 1) x = [] := by
        rw [passedOn]
        cases hh : headerFrom rx.buf rx.len x with
        | none => rfl
        | some h => exact if_neg (hn h hh)
      rw [rxLoop_last hn, hnil]
      exact ⟨.nil, .stop fun h hf => hex ⟨h, hf⟩⟩

theorem Passes.shift {m' : Mem} {a len p' : Nat} {hs : List Nat}
    (hm : ∀ i < len, m' i = m (a + i)) (hp : Passes m' len p hs p') :
    Passes m (a + len) (a + p) (hs.map (a + ·)) (a + p') := by
  induction hp with
  | @stop p hn =>
    refine .stop fun h hf => ?_
    obtain ⟨h, rfl⟩ := Nat.exists_eq_add_of_le (show a ≤ h by have := hf.le; omega)
    exact hn h ((frameFrom_shift hm).2 hf)
  | @next p h p' hs hf _ ih =>
    rw [lenAt_shift hm hf.room, ← Nat.add_assoc] at ih
    exact .next ((frameFrom_shift hm).1 hf) ih

/-! ## The stream of copies -/

theorem CopyAt.unique {i j : Nat} (he : 0 < e.length) (hi : CopyAt c e i) (hj : CopyAt c e j)
    (hle : i ≤ j) (hlt : j < i + e.length) : i = j := by
  obtain ⟨k, rfl⟩ := hi
  obtain ⟨k', rfl⟩ := hj
  have hk : k ≤ k' := Nat.le_of_mul_le_mul_right (Nat.le_of_add_le_add_left hle) he
  have hk' : k' < k + 1 := by
    apply Nat.lt_of_mul_lt_mul_right (a := e.length)
    rw [Nat.succ_mul]
    omega
  rw [show k = k' by omega]

theorem CopyAt.add {i : Nat} (hi : CopyAt c e i) : CopyAt c e (i + e.length) := by
  obtain ⟨k, rfl⟩ := hi
  exact ⟨k + 1, by rw [Nat.succ_mul, Nat.add_assoc]⟩

/-- Between two places where copies begin there is room for one. -/
theorem CopyAt.add_le {i j : Nat} (he : 0 < e.length) (hi : CopyAt c e i) (hj : CopyAt c e j)
    (hlt : i < j) : i + e.length ≤ j := by
  by_contra hgt
  have := hi.unique he hj hlt.le (Nat.not_le.1 hgt)
  omega

theorem CopyAt.endless_apply {i j : Nat} (hi : CopyAt c e i) (hj : j < e.length) :
    endless c e (i + j) = e.getD j 0 := by
  obtain ⟨k, rfl⟩ := hi
  rw [endless, if_neg (by omega), Nat.add_assoc, Nat.add_sub_cancel_left,
    Nat.mul_add_mod_self_right, Nat.mod_eq_of_lt hj]

/-- Where the window ends after one more copy. -/
def grow (e : List UInt8) (p q : Nat) : Nat :=
  if q - p + e.length ≤ rxBufSize then q + e.length else q

theorem Waits.grow (hw : Waits c e p q) : Waits c e p (grow e p q) := by
  have := hw.le
  have := hw.room
  rw [Link.grow]
  split
  · exact ⟨by omega, by omega, hw.copy.add⟩
  · exact hw

/-! ## The buffer as a window of the stream -/

/-- `rx_buf` holds the stream from `p` to `q`, and where the copies in it begin is known. -/
structure Holds (c e : List UInt8) (d : Delivery) (p q : Nat) : Prop where
  waits : Waits c e p q
  len : p + d.rx.len = q
  bytes : ∀ i < d.rx.len, d.rx.buf i = endless c e (p + i)
  copies : ∀ o, o ∈ d.copies ↔ p + o < q ∧ CopyAt c e (p + o)

theorem holds_init (hlen : rx.len ≤ rxBufSize) :
    Holds rx.content e ⟨rx, []⟩ 0 rx.content.length := by
  have hc : rx.content.length = rx.len := Mem.length_slice _ _ _
  refine ⟨⟨Nat.zero_le _, by omega, ⟨0, by omega⟩⟩, by dsimp only; omega, ?_, ?_⟩
  · intro i hi
    dsimp only at hi ⊢
    have hbyte := (Mem.slice_eq_iff hc).1 (rfl : rx.content = rx.content) i hi
    rw [Nat.zero_add] at hbyte ⊢
    rw [endless, if_pos (by omega)]
    exact hbyte
  · intro o
    constructor
    · intro ho
      cases ho
    · rintro ⟨hlt, k, hk⟩
      omega

/-- A copy arrives. -/
theorem Holds.received (hd : Holds c e d p q) (he : 0 < e.length) :
    Holds c e (d.step (.received e)).2 p (grow e p q) := by
  obtain ⟨hwaits, hlen, hbytes, hcopies⟩ := hd
  by_cases hfit : d.rx.len + e.length ≤ rxBufSize
  · have hgrow : grow e p q = q + e.length := if_pos (by omega)
    have hg := hwaits.grow
    rw [hgrow] at hg ⊢
    simp only [Delivery.step, uartRxRdy, if_pos hfit]
    refine ⟨hg, ?_, ?_, ?_⟩
    · dsimp only
      omega
    · intro i hi
      dsimp only at hi ⊢
      rcases Nat.lt_or_ge i d.rx.len with hlt | hge
      · rw [Mem.write_of_lt hlt]
        exact hbytes i hlt
      · obtain ⟨j, rfl⟩ := Nat.exists_eq_add_of_le hge
        rw [Mem.write_apply (by omega), ← Nat.add_assoc, hlen,
          hwaits.copy.endless_apply (by omega)]
    · intro o
      rw [List.mem_append, List.mem_singleton, hcopies]
      constructor
      · rintro (⟨hlt, hcopy⟩ | rfl)
        · exact ⟨by omega, hcopy⟩
        · rw [hlen]
          exact ⟨by omega, hwaits.copy⟩
      · rintro ⟨hlt, hcopy⟩
        rcases Nat.lt_or_ge (p + o) q with h | h
        · exact Or.inl ⟨h, hcopy⟩
        · have := hwaits.copy.unique he hcopy h hlt
          exact Or.inr (by omega)
  · have hgrow : grow e p q = q := if_neg (by omega)
    rw [hgrow]
    simp only [Delivery.step, uartRxRdy, if_neg hfit]
    exact ⟨hwaits, hlen, hbytes, hcopies⟩

/-- A copy in the buffer is there whole. -/
theorem Holds.fieldsAt (hd : Holds c e d p q) (he : Encodes e f) {o : Nat} (ho : o ∈ d.copies) :
    FieldsAt d.rx.buf o f := by
  obtain ⟨hlen, hw⟩ := encodes_iff.1 he
  obtain ⟨hlt, hcopy⟩ := (hd.copies o).1 ho
  have hle := hcopy.add_le he.length_pos hd.waits.copy hlt
  have hq := hd.len
  apply hw.toFieldsAt.congr
  intro i hi
  rw [Frame.wireLen] at hlen
  rw [hd.bytes _ (by omega), ← Nat.add_assoc, hcopy.endless_apply (by omega), Nat.zero_add]
  rfl

/-- A call of `ota_process_rx`: the window begins where the loop stopped. -/
theorem Holds.process (hd : Holds c e d p q) (stack : Nat → OtaFrame) :
    ∃ p', Passes (endless c e) q p ((passedOn d.rx.buf d.rx.len d.rx.len 0).map (p + ·)) p' ∧
      Holds c e (d.step (.process stack)).2 p' q := by
  obtain ⟨hn, hlen, hcontent, -⟩ := otaProcessRx_spec stack d.rx
  have hq := hd.len
  have hpasses := (rxLoop_passes stack d.rx (x := 0) le_rfl).2.shift hd.bytes
  rw [hq, Nat.add_zero] at hpasses
  obtain ⟨hle, hle', -⟩ := hpasses.le hd.waits.le
  refine ⟨_, hpasses, ?_⟩
  change Holds c e ⟨(otaProcessRx stack d.rx).2,
    (d.copies.filter (d.rx.processed stack ≤ ·)).map (· - d.rx.processed stack)⟩
    (p + d.rx.processed stack) q
  have hroom := hd.waits.room
  refine ⟨⟨hle', by omega, hd.waits.copy⟩, by dsimp only; omega, ?_, ?_⟩
  · intro i hi
    dsimp only at hi ⊢
    rw [RxState.content, RxState.content, Mem.drop_slice, hlen, Mem.slice_eq_slice_iff] at hcontent
    have hbyte := hcontent i (by omega)
    rw [Nat.zero_add, Nat.zero_add] at hbyte
    rw [hbyte, hd.bytes _ (by omega), Nat.add_assoc]
  · intro o
    rw [List.mem_map]
    simp only [List.mem_filter, hd.copies, decide_eq_true_eq]
    constructor
    · rintro ⟨x, ⟨⟨hlt, hcopy⟩, hx⟩, rfl⟩
      rw [Nat.add_assoc, Nat.add_sub_cancel' hx]
      exact ⟨hlt, hcopy⟩
    · rintro ⟨hlt, hcopy⟩
      rw [Nat.add_assoc] at hlt hcopy
      exact ⟨d.rx.processed stack + o, ⟨⟨hlt, hcopy⟩, Nat.le_add_right _ _⟩,
        Nat.add_sub_cancel_left _ _⟩

theorem exists_zip_of_mem {α β : Type} {R : α → β → Prop} {as : List α} {bs : List β} {b : β}
    (h : List.Forall₂ R as bs) (hb : b ∈ bs) : ∃ a, (a, b) ∈ as.zip bs ∧ R a b := by
  induction h with
  | nil => cases hb
  | cons hr _ ih =>
    rcases List.mem_cons.1 hb with rfl | hb
    · exact ⟨_, List.mem_cons_self, hr⟩
    · obtain ⟨a, ha, hra⟩ := ih hb
      exact ⟨a, List.mem_cons_of_mem _ ha, hra⟩

/-- A call passes on a copy when the loop passes on a frame that begins where a copy does; and
what it passes on there is the copy. -/
theorem Holds.dispatches (hd : Holds c e d p q) (he : Encodes e f) (stack : Nat → OtaFrame) :
    (∃ g ∈ (d.step (.process stack)).1, Shows g f) ↔
      ∃ h ∈ (passedOn d.rx.buf d.rx.len d.rx.len 0).map (p + ·), CopyAt c e h := by
  obtain ⟨hframes, hpasses⟩ := rxLoop_passes stack d.rx (x := 0) le_rfl
  simp only [Delivery.step, List.mem_map, List.mem_filter, decide_eq_true_eq]
  have hq := hd.len
  constructor
  · rintro ⟨g, ⟨⟨g', o⟩, ⟨hzip, hcopy⟩, rfl⟩, hshows⟩
    exact ⟨p + o, ⟨o, (List.of_mem_zip hzip).2, rfl⟩, ((hd.copies o).1 hcopy).2⟩
  · rintro ⟨h, ⟨o, ho, rfl⟩, hcopy⟩
    have hcopies : o ∈ d.copies := (hd.copies o).2 ⟨by have := hpasses.lt o ho; omega, hcopy⟩
    obtain ⟨g, hzip, junk, rfl⟩ := exists_zip_of_mem hframes ho
    exact ⟨_, ⟨(_, o), ⟨hzip, hcopies⟩, rfl⟩, readFrame_shows junk (hd.fieldsAt he hcopies)⟩

/-! ## Sooner or later -/

/-- With the loop at `p` and the window's end at `q`, a copy is passed on sooner or later: it is
the next frame, or it comes behind the next frame, or it comes after another copy arrives. -/
inductive Eventually (c e : List UInt8) : Nat → Nat → Prop
  | hit {p q h : Nat} : FrameFrom (endless c e) q p h → CopyAt c e h → Eventually c e p q
  | on {p q h : Nat} : FrameFrom (endless c e) q p h →
      Eventually c e (p + lenAt (endless c e) h) q → Eventually c e p q
  | deliver {p q : Nat} : (∀ h, ¬ FrameFrom (endless c e) q p h) →
      Eventually c e p (grow e p q) → Eventually c e p q

theorem Waits.next (hw : Waits c e p q) (hf : FrameFrom (endless c e) q p h) :
    Waits c e (p + lenAt (endless c e) h) q := by
  have := hw.room
  have := hf.le
  have := hf.whole.2
  exact ⟨by omega, by omega, hw.copy⟩

theorem Eventually.reaches (hv : Eventually c e p q) (hw : Waits c e p q) : Reaches c e p := by
  induction hv with
  | hit hf hcopy => exact .copy hw hf hcopy
  | on hf _ ih => exact .next hw hf (ih (hw.next hf))
  | deliver _ _ ih => exact ih hw.grow

/-- Copies arrive until the frame is there. -/
theorem eventually_of_whole {q₁ : Nat} (he : 0 < e.length) (hw₁ : Waits c e p q₁)
    (hf : FrameFrom (endless c e) q₁ p h)
    (hk : ∀ q, Waits c e p q → FrameFrom (endless c e) q p h → Eventually c e p q)
    (hw : Waits c e p q) : Eventually c e p q := by
  induction hn : q₁ - q using Nat.strong_induction_on generalizing q with | _ n ih =>
  by_cases hex : ∃ h', FrameFrom (endless c e) q p h'
  · obtain ⟨h', hf'⟩ := hex
    exact hk q hw (hf.unique hf' ▸ hf')
  · have hlt : q < q₁ := by
      by_contra hge
      exact hex ⟨h, hf.mono (Nat.not_lt.1 hge)⟩
    have hle := hw.copy.add_le he hw₁.copy hlt
    have hroom := hw₁.room
    have hpq := hw.le
    have hgrow : grow e p q = q + e.length := if_pos (by omega)
    refine .deliver (fun h' hf' => hex ⟨h', hf'⟩) ?_
    exact ih _ (by omega) hw.grow rfl

theorem Reaches.eventually (hr : Reaches c e p) (he : 0 < e.length) (hw : Waits c e p q) :
    Eventually c e p q := by
  induction hr generalizing q with
  | copy hw₁ hf hcopy => exact eventually_of_whole he hw₁ hf (fun _ _ hf' => .hit hf' hcopy) hw
  | next hw₁ hf _ ih =>
    exact eventually_of_whole he hw₁ hf (fun _ hw' hf' => .on hf' (ih (hw'.next hf'))) hw

theorem Passes.hit {p' : Nat} {hs : List Nat} (hp : Passes (endless c e) q p hs p')
    (hex : ∃ h ∈ hs, CopyAt c e h) : Eventually c e p q := by
  induction hp with
  | stop _ =>
    obtain ⟨h, hh, -⟩ := hex
    cases hh
  | next hf _ ih =>
    obtain ⟨h, hh, hcopy⟩ := hex
    rcases List.mem_cons.1 hh with rfl | hh
    · exact .hit hf hcopy
    · exact .on hf (ih ⟨h, hh, hcopy⟩)

theorem Passes.on {p' : Nat} {hs : List Nat} (hp : Passes (endless c e) q p hs p')
    (hv : Eventually c e p' q) : Eventually c e p q := by
  induction hp with
  | stop _ => exact hv
  | next hf _ ih => exact .on hf (ih hv)

/-- A copy is among what is passed on by some deliveries. -/
def Dispatched (f : Frame) (e : List UInt8) (junk : Nat → Nat → OtaFrame) (d : Delivery) (n : Nat) :
    Prop := ∃ g ∈ (outputs Delivery.step d (deliveries e junk n)).flatten, Shows g f

theorem dispatched_succ {junk : Nat → Nat → OtaFrame} {n : Nat} :
    Dispatched f e junk d (n + 1) ↔
      (∃ g ∈ ((d.step (.received e)).2.step (.process (junk 0))).1, Shows g f) ∨
        Dispatched f e (fun i => junk (i + 1))
          ((d.step (.received e)).2.step (.process (junk 0))).2 n := by
  simp only [Dispatched, deliveries, outputs_cons, List.flatten_cons, List.mem_append, or_and_right,
    exists_or]
  simp [Delivery.step]

theorem eventually_of_dispatched {junk : Nat → Nat → OtaFrame} {n : Nat} (he : Encodes e f)
    (hd : Holds c e d p q) (hn : Dispatched f e junk d n) :
    Eventually c e p (grow e p q) := by
  induction n generalizing d p q junk with
  | zero =>
    obtain ⟨g, hg, -⟩ := hn
    cases hg
  | succ n ih =>
    have hd₁ := hd.received he.length_pos
    obtain ⟨p', hp, hd₂⟩ := hd₁.process (junk 0)
    rcases dispatched_succ.1 hn with hnow | hlater
    · exact hp.hit ((hd₁.dispatches he (junk 0)).1 hnow)
    · exact hp.on (.deliver (hp.le hd₁.waits.le).2.2 (ih hd₂ hlater))

/-- After one more copy and a call: a copy was passed on, or one will be. -/
theorem Holds.dispatched {junk : Nat → Nat → OtaFrame} (he : Encodes e f) (hd : Holds c e d p q)
    (h : ∀ hs p', Passes (endless c e) (grow e p q) p hs p' → (∃ h ∈ hs, CopyAt c e h) ∨
      ∀ d junk, Holds c e d p' (grow e p q) → ∃ n, Dispatched f e junk d n) :
    ∃ n, Dispatched f e junk d n := by
  have hd₁ := hd.received he.length_pos
  obtain ⟨p', hp, hd₂⟩ := hd₁.process (junk 0)
  rcases h _ _ hp with hnow | hlater
  · exact ⟨1, dispatched_succ.2 (Or.inl ((hd₁.dispatches he (junk 0)).2 hnow))⟩
  · obtain ⟨n, hn⟩ := hlater _ (fun i => junk (i + 1)) hd₂
    exact ⟨n + 1, dispatched_succ.2 (Or.inr hn)⟩

/-- By induction on `Eventually`, along with the frames that the loop passes on from `p` on. -/
theorem dispatched_of_eventually (he : Encodes e f) (hv : Eventually c e p q) {p' : Nat}
    {hs : List Nat} (hp : Passes (endless c e) q p hs p') :
    (∃ h ∈ hs, CopyAt c e h) ∨
      ∀ d junk, Holds c e d p' q → ∃ n, Dispatched f e junk d n := by
  induction hv generalizing hs p' with
  | hit hf hcopy =>
    cases hp with
    | stop hn => exact absurd hf (hn _)
    | next hf' _ => exact Or.inl ⟨_, List.mem_cons_self, hf.unique hf' ▸ hcopy⟩
  | on hf _ ih =>
    cases hp with
    | stop hn => exact absurd hf (hn _)
    | next hf' hp =>
      rw [← hf.unique hf'] at hp
      rcases ih hp with ⟨h, hh, hcopy⟩ | hlater
      · exact Or.inl ⟨h, List.mem_cons_of_mem _ hh, hcopy⟩
      · exact Or.inr hlater
  | deliver hn _ ih =>
    cases hp with
    | next hf _ => exact absurd hf (hn _)
    | stop _ =>
      right
      intro d junk hd
      exact hd.dispatched he fun _ _ hp => ih hp

/-- What waits never exceeds `rx_buf`. -/
theorem run_len_le {h : List (Step RxState RxEvent (List OtaFrame))}
    (hr : Run RxState.step .init h rx) : rx.len ≤ rxBufSize := by
  apply hr.invariant (P := fun _ rx => rx.len ≤ rxBufSize) (Nat.zero_le _)
  intro _ rx event _ hlen
  cases event with
  | received bytes =>
    simp only [RxState.step, uartRxRdy]
    split
    · assumption
    · exact hlen
  | process stack =>
    have := (otaProcessRx_spec stack rx).2.1
    change (otaProcessRx stack rx).2.len ≤ rxBufSize
    omega

/-- **The receiver wedges, exactly.** From every reachable state, and for every frame: one of some
number of copies of it is passed on if and only if the parser, reading what waits and the copies
behind it from the start of the buffer on, reaches a copy. -/
theorem dispatched_iff {h : List (Step RxState RxEvent (List OtaFrame))}
    (hr : Run RxState.step .init h rx) (he : Encodes e f) (junk : Nat → Nat → OtaFrame) :
    (∃ n, Dispatched f e junk ⟨rx, []⟩ n) ↔ Reaches rx.content e 0 := by
  have hd : Holds rx.content e ⟨rx, []⟩ 0 rx.content.length := holds_init (run_len_le hr)
  constructor
  · rintro ⟨n, hn⟩
    exact (eventually_of_dispatched he hd hn).reaches hd.waits.grow
  · intro hreach
    have hv := hreach.eventually he.length_pos hd.waits.grow
    exact hd.dispatched he fun _ _ hp => dispatched_of_eventually he hv hp

/-- The first 20 bytes of a packet that says it carries 30. -/
def packetBegun : List UInt8 :=
  [0x12, 0x34, 1, 0, 0, 0, 0x20, 0, 1, 0, 0, 0, 4, 0, 30, 0, 0, 0, 0, 0]

/-- The packet swallows the first handshake behind it and half of the second one; the third is
passed on. -/
theorem dispatched_behind : ∃ n, Dispatched handshake handshake.toBytes
    (fun _ _ => .onStack fun _ => 0) ⟨uartRxRdy .init packetBegun, []⟩ n := by
  have hr : Run RxState.step .init _ (uartRxRdy .init packetBegun) :=
    .snoc (RxEvent.received packetBegun) .nil
  have hwaits : (uartRxRdy .init packetBegun).content = packetBegun := by decide
  refine (dispatched_iff hr (encodes_toBytes (by decide)) _).2 ?_
  rw [hwaits]
  refine .next (q := 60) (h := 0) ⟨by decide, by decide, 2, rfl⟩
    (frameFrom_iff.2 ⟨by decide, by decide⟩) ?_
  exact .copy (q := 80) (h := 60) ⟨by decide, by decide, 3, rfl⟩
    (frameFrom_iff.2 ⟨by decide, by decide⟩) ⟨2, rfl⟩

/-! ## Noise without a header -/

/-- The stream begins with what waits. -/
theorem endless_apply {i : Nat} (hi : i < c.length) : endless c e i = c.getD i 0 := if_pos hi

/-- Without a header in what waits, and no room for a frame behind it, no copy is reached. -/
theorem not_reaches_of_noise (hnoise : ∀ x ∈ c, x ≠ frameHeader0)
    (hlen : rxBufSize < c.length + frameMinSize) : ¬ Reaches c e 0 := by
  intro hr
  have hno : ∀ q h, Waits c e 0 q → ¬ FrameFrom (endless c e) q 0 h := by
    intro q h hw hf
    have hroom := hw.room
    have hh := hf.room
    have hlt : h < c.length := by omega
    have hbyte : endless c e h = frameHeader0 := by
      have hhit := hf.header
      rw [isFrameHeader, Bool.and_eq_true, beq_iff_eq] at hhit
      exact hhit.1
    rw [endless_apply hlt, List.getD_eq_getElem?_getD, List.getElem?_eq_getElem hlt,
      Option.getD_some] at hbyte
    exact hnoise _ (List.getElem_mem hlt) hbyte
  cases hr with
  | copy hw hf _ => exact hno _ _ hw hf
  | next hw hf _ => exact hno _ _ hw hf

/-- **Wedged.** 4090 bytes of noise arrive. However many handshakes follow, there is no room for
them, and none is passed on. -/
theorem wedged_by_noise : ¬ ∀ (h : List (Step RxState RxEvent (List OtaFrame))) (rx : RxState)
    (e : List UInt8) (f : Frame), Run RxState.step .init h rx → Encodes e f →
      f.dstAddr = addrDevice →
        ∀ junk : Nat → Nat → OtaFrame, ∃ n, Dispatched f e junk ⟨rx, []⟩ n := by
  intro hall
  have hlen : (List.replicate 4090 (7 : UInt8)).length = 4090 := List.length_replicate
  have hnoise : ∀ x ∈ List.replicate 4090 (7 : UInt8), x ≠ frameHeader0 := by
    intro x hx
    rw [List.eq_of_mem_replicate hx]
    decide
  generalize List.replicate 4090 (7 : UInt8) = noise at hlen hnoise
  have hr : Run RxState.step .init _ (uartRxRdy .init noise) :=
    Run.nil.snoc (RxEvent.received noise)
  have he : Encodes handshake.toBytes handshake := encodes_toBytes (by decide)
  have hcontent : (uartRxRdy .init noise).content = noise :=
    content_uartRxRdy (by rw [hlen]; decide)
  have hd := hall _ _ _ _ hr he rfl fun _ _ => .onStack fun _ => 0
  have hreach := (dispatched_iff hr he _).1 hd
  rw [hcontent] at hreach
  exact not_reaches_of_noise hnoise (by rw [hlen]; decide) hreach

end ZephyrStm32.Ota.Link
