import ZephyrStm32.Ota.Device.Bounds

/-!
# `ota_process_rx`, interrupted

`RxCall` is `ota_process_rx` at the grain of its accesses to `rx_len` and `rx_buf`, the bytes that
the parser reads one by one; between any two of them `uart_cb` may append bytes. Without an
interrupt a call is `otaProcessRx` (`call_uninterrupted`).

**Theorem (`interrupts_safe`).** Bytes that arrive are safe until the call has settled what it
leaves: after a return the content is the stream behind the bytes passed over, if none arrive
between there and the last store. If besides the frames stand at the front of what is left, the
content is the stream behind the frames dispatched.
-/

namespace ZephyrStm32.Ota

open Machine

/-- Where `ota_process_rx` is: its next access, with `processed` and what it has read. -/
inductive Point
  /-- It is not running. -/
  | idle
  /-- `processed < rx_len`, of the loop -/
  | loopTest (processed : Nat)
  /-- `rx_len - processed`, the parser's argument -/
  | parseArg (processed : Nat)
  /-- What the parser still has to do with `&rx_buf[processed]`. -/
  | parse (processed : Nat) (rest : Peek Empty (Int × OtaFrame))
  /-- `processed < rx_len`, behind `processed > 0` -/
  | moveTest (processed : Nat)
  /-- `rx_len - processed`, the argument of `memmove` -/
  | moveArg (processed : Nat)
  /-- `memmove(rx_buf, &rx_buf[processed], n)` -/
  | move (processed n : Nat)
  /-- The load of `rx_len -= processed`. -/
  | subLoad (processed : Nat)
  /-- Its store. -/
  | subStore (value : Nat)
  /-- `processed >= rx_len` -/
  | resetTest (processed : Nat)
  /-- `rx_len = 0` -/
  | reset

/-- The call, the buffer it shares with `uart_cb`, and what has happened so far. -/
structure RxCall where
  rx : RxState
  point : Point
  /-- The bytes appended. -/
  received : List UInt8
  /-- The frames passed on to `ota_frame_process`. -/
  dispatched : List OtaFrame
  /-- The number of bytes passed over. -/
  passed : Nat

inductive RxCallEvent
  /-- `UART_RX_RDY` -/
  | rxRdy (bytes : List UInt8)
  /-- The main loop calls `ota_process_rx`, or the call makes its next access. `frame` is what an
  uninitialised `frame` holds. -/
  | advance (frame : OtaFrame)

namespace RxCall

/-- Behind the loop: `processed > 0 && ..` reads `rx_len` only if there was a frame. -/
def afterLoop (processed : Nat) : Point :=
  if processed > 0 then .moveTest processed else .resetTest processed

/-- `uart_cb`, without interruption. -/
def rxRdy (r : RxCall) (bytes : List UInt8) : RxCall :=
  { r with
    rx := uartRxRdy r.rx bytes
    received := if r.rx.len + bytes.length ≤ rxBufSize then r.received ++ bytes else r.received }

/-- The next access of the call. -/
def advance (r : RxCall) (frame : OtaFrame) : RxCall :=
  match r.point with
  | .idle => { r with point := .loopTest 0 }
  | .loopTest processed =>
    { r with point := if processed < r.rx.len then .parseArg processed else afterLoop processed }
  | .parseArg processed =>
    { r with point := .parse processed (otaFrameParsePeek (r.rx.len - processed) frame) }
  | .parse processed (.ask i next) =>
    { r with point := .parse processed (next (r.rx.buf (processed + i))) }
  | .parse _ (.fail e) => e.elim
  | .parse processed (.done (frameLen, frame)) =>
    if frameLen ≤ 0 then { r with point := afterLoop processed }
    else { r with
      point := .loopTest (processed + frameLen.toNat)
      dispatched := r.dispatched ++ [frame]
      passed := r.passed + frameLen.toNat }
  | .moveTest processed =>
    { r with point := if processed < r.rx.len then .moveArg processed else .resetTest processed }
  | .moveArg processed => { r with point := .move processed (r.rx.len - processed) }
  | .move processed n =>
    { r with
      rx := { r.rx with buf := r.rx.buf.write 0 (r.rx.buf.slice processed n) }
      point := .subLoad processed }
  | .subLoad processed => { r with point := .subStore (r.rx.len - processed) }
  | .subStore value => { r with rx := { r.rx with len := value }, point := .idle }
  | .resetTest processed =>
    { r with point := if processed ≥ r.rx.len then .reset else .idle }
  | .reset => { r with rx := { r.rx with len := 0 }, point := .idle }

/-- After `ota_protocol_init`. -/
def init (buf : Mem) : RxCall := ⟨⟨buf, 0⟩, .idle, [], [], 0⟩

def step (r : RxCall) : RxCallEvent → Unit × RxCall
  | .rxRdy bytes => ((), r.rxRdy bytes)
  | .advance frame => ((), r.advance frame)

end RxCall

/-- A step of the call or of `uart_cb`. -/
abbrev RxCallStep := Step RxCall RxCallEvent Unit

/-! ## What is safe -/

/-- The bytes of a frame on the wire. -/
def OtaFrame.wire (f : OtaFrame) : List UInt8 :=
  f.headerBytes ++ f.payload ++ Bytes.le16 f.reserved ++ [f.tail0, f.tail1]

/-- The content is the stream behind the frames dispatched. -/
def RxCall.StreamIntact (r : RxCall) : Prop :=
  (r.dispatched.map OtaFrame.wire).flatten ++ r.rx.content = r.received

/-- The call has settled what it leaves: the length to move, the length to store, or that nothing
is left. -/
def RxCall.Settled (r : RxCall) : Prop :=
  match r.point with
  | .move _ _ | .subLoad _ | .subStore _ | .reset => True
  | .resetTest processed => 0 < processed
  | _ => False

/-- No bytes are appended while the call has settled what it leaves. -/
def KeepsClear (st : RxCallStep) : Prop :=
  ∀ bytes, st.input = .rxRdy bytes → bytes ≠ [] →
    st.before.rx.len + bytes.length ≤ rxBufSize → ¬ st.before.Settled

/-- A header found in `len` bytes that has all of its frame's length there stands at the front, and
the length does not wrap. -/
def WholeInFront (m : Mem) (len : Nat) : Prop :=
  ∀ pos, FoundAt m len pos → pos + totalFrameLen (m.u16 (pos + 14)) ≤ len →
    pos = 0 ∧ dataLenAt m 0 < 65516

/-- The parser is called on bytes with a frame at their front, or none. -/
def FrontFrames (st : RxCallStep) : Prop :=
  ∀ processed frame, st.before.point = .parseArg processed → st.input = .advance frame →
    WholeInFront (st.before.rx.buf.at_ processed) (st.before.rx.len - processed)

/-! ## The parser in progress -/

/-- Whatever bytes the parser reads, a length it returns fits in `n` bytes. -/
def Capped (n : Nat) (p : Peek Empty (Int × OtaFrame)) : Prop :=
  Interact.wp (Interact.monitor fun _ _ => ()) (fun r (_ : Unit) => r.1 ≤ (n : Int))
    (fun _ _ => True) p ()

theorem capped_otaFrameParsePeek (n : Nat) (frame : OtaFrame) :
    Capped n (otaFrameParsePeek n frame) := by
  have hneg : (-1 : Int) ≤ n := by omega
  unfold Capped otaFrameParsePeek
  split
  · exact hneg
  · rw [Interact.wp_bind]
    refine Interact.wp_of_forall (fun found _ => ?_) fun _ _ => trivial
    cases found with
    | none => exact hneg
    | some pos =>
      change Interact.wp _ _ _ (Peek.u16 (pos + 14) >>= _) ()
      rw [Interact.wp_bind]
      refine Interact.wp_of_forall (fun dataLen _ => ?_) fun _ _ => trivial
      dsimp only
      split
      · exact hneg
      · rename_i hle
        rw [Interact.wp_bind]
        refine Interact.wp_of_forall (fun frame _ => ?_) fun _ _ => trivial
        change ((totalFrameLen dataLen : Nat) : Int) ≤ n
        omega

/-- Over `m` the parser reads below `n`, and what it returns for a frame is the length of the
frame's bytes, which are at the front. -/
def Truthful (m : Mem) (n : Nat) (p : Peek Empty (Int × OtaFrame)) : Prop :=
  p.Below m n ∧ ∀ r, p.value m = .ok r → 0 < r.1 →
    r.1.toNat ≤ n ∧ r.2.wire = m.slice 0 r.1.toNat

theorem Truthful.congr {m m' : Mem} {n : Nat} {p : Peek Empty (Int × OtaFrame)}
    (h : Truthful m n p) (hm : ∀ i < n, m' i = m i) : Truthful m' n p := by
  refine ⟨Peek.below_congr hm h.1, fun r hr hpos => ?_⟩
  rw [Peek.value_congr hm h.1] at hr
  obtain ⟨hle, hwire⟩ := h.2 r hr hpos
  refine ⟨hle, hwire.trans (Mem.slice_congr fun i hi => ?_)⟩
  rw [Nat.zero_add]
  exact (hm i (by omega)).symm

theorem Truthful.next {m : Mem} {n i : Nat} {next : UInt8 → Peek Empty (Int × OtaFrame)}
    (h : Truthful m n (.ask i next)) : Truthful m n (next (m i)) :=
  ⟨(Peek.below_ask.1 h.1).2, h.2⟩

/-- A frame is read off its bytes. -/
theorem wire_readFrame (junk : OtaFrame) (m : Mem) (pos : Nat) :
    (readFrame m pos junk).wire = m.slice pos (20 + dataLenAt m pos) := by
  have hheader : (readFrame m pos junk).headerBytes = m.slice pos 16 := by
    simp only [OtaFrame.headerBytes, readFrame, Mem.u16, Bytes.le16_u16le]
    rfl
  rw [OtaFrame.wire, hheader, payload_readFrame, ← dataLenAt,
    show 20 + dataLenAt m pos = 16 + dataLenAt m pos + 4 by omega, Mem.slice_add, Mem.slice_add,
    List.append_assoc]
  simp only [readFrame, Mem.u16, Bytes.le16_u16le, dataLenAt, OtaFrame.headerSize, ← Nat.add_assoc]
  rfl

/-- The parser tells the truth about bytes with a frame at their front, or none. -/
theorem truthful_otaFrameParsePeek {m : Mem} {n : Nat} (h : WholeInFront m n) (frame : OtaFrame) :
    Truthful m n (otaFrameParsePeek n frame) := by
  rw [Truthful, value_otaFrameParsePeek]
  by_cases hex : ∃ pos, FoundAt m n pos
  · obtain ⟨pos, hpos⟩ := hex
    rw [below_found hpos, otaFrameParse_found frame hpos.1 hpos.2, totalFrameLen_dataLenAt]
    by_cases hfit : pos + (20 + dataLenAt m pos) % 65536 ≤ n
    · obtain ⟨rfl, hdata⟩ := h pos hpos (by rwa [totalFrameLen_dataLenAt])
      rw [if_neg (by omega)]
      rw [Nat.mod_eq_of_lt (by omega)] at hfit ⊢
      refine ⟨Or.inr (by omega), ?_⟩
      intro r hr _
      obtain rfl := Except.ok.inj hr
      rw [Int.toNat_natCast]
      exact ⟨by omega, wire_readFrame frame m 0⟩
    · rw [if_pos (by omega)]
      refine ⟨Or.inl (by omega), ?_⟩
      intro r hr hpos
      obtain rfl := Except.ok.inj hr
      exact absurd hpos (by decide : ¬ 0 < (-1 : Int))
  · have hinside : ParseInside m n frame := parseInside_none (not_exists.1 hex)
    refine ⟨hinside.reads, fun r hr hpos => ?_⟩
    obtain rfl := Except.ok.inj hr
    rcases hinside.result with hneg | ⟨pos, hfound, -⟩
    · rw [hneg] at hpos
      exact absurd hpos (by decide)
    · exact absurd ⟨pos, hfound⟩ hex

/-! ## What is left -/

namespace RxCall

variable {r : RxCall}

/-- The bytes of `rx_buf` that the call leaves if it goes on undisturbed, by offset and number. -/
def span (r : RxCall) : Nat × Nat :=
  match r.point with
  | .idle => (0, r.rx.len)
  | .loopTest p | .parseArg p | .parse p _ | .moveTest p | .moveArg p | .resetTest p =>
    (p, r.rx.len - p)
  | .move p n => (p, n)
  | .subLoad p => (0, r.rx.len - p)
  | .subStore value => (0, value)
  | .reset => (0, 0)

def left (r : RxCall) : List UInt8 := r.rx.buf.slice r.span.1 r.span.2

/-- `processed` against `rx_len`, by where the call is. -/
def Placed (r : RxCall) : Prop :=
  match r.point with
  | .loopTest p | .parseArg p | .moveTest p | .moveArg p => p ≤ r.rx.len
  | .parse p rest => p ≤ r.rx.len ∧ ∃ n ≤ r.rx.len - p, Capped n rest
  | .move p n => r.rx.len = p + n
  | .resetTest p => p ≤ r.rx.len ∧ (0 < p → r.rx.len = p)
  | .idle | .subLoad _ | .subStore _ | .reset => True

/-- What is left is the stream behind the bytes passed over. -/
structure Kept (r : RxCall) : Prop where
  placed : r.Placed
  passed_le : r.passed ≤ r.received.length
  left_eq : r.left = r.received.drop r.passed

/-- The bytes passed over are those of the frames dispatched, and the parser in progress will tell
the truth. -/
structure Framed (r : RxCall) : Prop where
  wire_eq : (r.dispatched.map OtaFrame.wire).flatten = r.received.take r.passed
  truthful : ∀ p rest, r.point = .parse p rest →
    ∃ n ≤ r.rx.len - p, Truthful (r.rx.buf.at_ p) n rest

/-! ## Bytes arrive -/

theorem rxRdy_of_fits {bytes : List UInt8} (h : r.rx.len + bytes.length ≤ rxBufSize) :
    r.rxRdy bytes = { r with
      rx := ⟨r.rx.buf.write r.rx.len bytes, r.rx.len + bytes.length⟩
      received := r.received ++ bytes } := by
  rw [rxRdy, uartRxRdy, if_pos h, if_pos h]

theorem rxRdy_of_not_fits {bytes : List UInt8} (h : ¬ r.rx.len + bytes.length ≤ rxBufSize) :
    r.rxRdy bytes = r := by
  rw [rxRdy, uartRxRdy, if_neg h, if_neg h]

/-- Until the call settles what it leaves, that is everything from some position on. -/
theorem span_of_not_settled (h : ¬ r.Settled) (hp : r.Placed) :
    ∃ p ≤ r.rx.len, ∀ rx received, ({ r with rx := rx, received := received }).span =
      (p, rx.len - p) := by
  obtain ⟨rx, point, received, dispatched, passed⟩ := r
  cases point with
  | idle => exact ⟨0, Nat.zero_le _, fun _ _ => rfl⟩
  | loopTest p => exact ⟨p, hp, fun _ _ => rfl⟩
  | parseArg p => exact ⟨p, hp, fun _ _ => rfl⟩
  | parse p rest => exact ⟨p, hp.1, fun _ _ => rfl⟩
  | moveTest p => exact ⟨p, hp, fun _ _ => rfl⟩
  | moveArg p => exact ⟨p, hp, fun _ _ => rfl⟩
  | resetTest p => exact ⟨p, hp.1, fun _ _ => rfl⟩
  | move p n => exact absurd trivial h
  | subLoad p => exact absurd trivial h
  | subStore value => exact absurd trivial h
  | reset => exact absurd trivial h

/-- More bytes in the buffer change nothing for a call that has not settled. -/
theorem Placed.append (hp : r.Placed) (h : ¬ r.Settled) {rx : RxState} (hle : r.rx.len ≤ rx.len)
    (received : List UInt8) : ({ r with rx := rx, received := received }).Placed := by
  obtain ⟨rx', point, received', dispatched, passed⟩ := r
  cases point with
  | idle => exact trivial
  | loopTest p => exact Nat.le_trans hp hle
  | parseArg p => exact Nat.le_trans hp hle
  | parse p rest =>
    obtain ⟨hple, n, hn, hcap⟩ := hp
    exact ⟨Nat.le_trans hple hle, n, Nat.le_trans hn (Nat.sub_le_sub_right hle p), hcap⟩
  | moveTest p => exact Nat.le_trans hp hle
  | moveArg p => exact Nat.le_trans hp hle
  | resetTest p => exact ⟨Nat.le_trans hp.1 hle, fun h0 => absurd h0 h⟩
  | move p n => exact absurd trivial h
  | subLoad p => exact absurd trivial h
  | subStore value => exact absurd trivial h
  | reset => exact absurd trivial h

/-- **Bytes that arrive in time** are left with the others. -/
theorem Kept.rxRdy (hk : r.Kept) {bytes : List UInt8}
    (hfits : r.rx.len + bytes.length ≤ rxBufSize) (h : ¬ r.Settled) : (r.rxRdy bytes).Kept := by
  obtain ⟨p, hp, hspan⟩ := span_of_not_settled h hk.placed
  rw [rxRdy_of_fits hfits]
  refine ⟨hk.placed.append h (Nat.le_add_right _ _) _, ?_, ?_⟩
  · change r.passed ≤ (r.received ++ bytes).length
    rw [List.length_append]
    exact Nat.le_add_right_of_le hk.passed_le
  · have hleft : r.left = r.rx.buf.slice p (r.rx.len - p) := by
      rw [left, show r.span = (p, r.rx.len - p) from hspan r.rx r.received]
    have hwrite := Mem.slice_write_append r.rx.buf p (r.rx.len - p) bytes
    rw [show p + (r.rx.len - p) = r.rx.len by omega, ← hleft, hk.left_eq] at hwrite
    rw [left, hspan]
    change (r.rx.buf.write r.rx.len bytes).slice p (r.rx.len + bytes.length - p) =
      (r.received ++ bytes).drop r.passed
    rw [List.drop_append_of_le_length hk.passed_le, ← hwrite,
      show r.rx.len + bytes.length - p = r.rx.len - p + bytes.length by omega]

/-- Bytes that arrive change nothing of what the parser sees. -/
theorem Framed.rxRdy (hf : r.Framed) (hle : r.passed ≤ r.received.length) (bytes : List UInt8) :
    (r.rxRdy bytes).Framed := by
  by_cases hfits : r.rx.len + bytes.length ≤ rxBufSize
  · rw [rxRdy_of_fits hfits]
    refine ⟨?_, fun p rest hpoint => ?_⟩
    · change _ = (r.received ++ bytes).take r.passed
      rw [List.take_append_of_le_length hle]
      exact hf.wire_eq
    · obtain ⟨n, hn, htrue⟩ := hf.truthful p rest hpoint
      refine ⟨n, Nat.le_trans hn (Nat.sub_le_sub_right (Nat.le_add_right _ _) p),
        htrue.congr fun i hi => ?_⟩
      exact Mem.write_of_lt (by omega)
  · rw [rxRdy_of_not_fits hfits]
    exact hf

/-! ## The call goes on -/

theorem length_left (hk : r.Kept) : r.span.2 = r.received.length - r.passed := by
  have h := congrArg List.length hk.left_eq
  rwa [left, Mem.length_slice, List.length_drop] at h

/-- A step that passes over nothing keeps the invariant if it leaves the same bytes. -/
theorem Kept.of_left (hk : r.Kept) (rx : RxState) (point : Point)
    (hplaced : ({ r with rx := rx, point := point }).Placed)
    (hleft : ({ r with rx := rx, point := point }).left = r.left) :
    ({ r with rx := rx, point := point }).Kept :=
  ⟨hplaced, hk.passed_le, hleft.trans hk.left_eq⟩

/-- Behind the loop the same bytes are left. -/
theorem Kept.afterLoop (hk : r.Kept) {p : Nat} (hp : p ≤ r.rx.len)
    (hspan : r.span = (p, r.rx.len - p)) : ({ r with point := afterLoop p }).Kept := by
  unfold RxCall.afterLoop
  split
  · refine hk.of_left r.rx (.moveTest p) hp ?_
    rw [left, left, hspan]
    rfl
  · rename_i h0
    refine hk.of_left r.rx (.resetTest p) ⟨hp, fun h => absurd h h0⟩ ?_
    rw [left, left, hspan]
    rfl

/-- A frame passed over: its bytes go from the front of what is left. -/
theorem Kept.dispatch (hk : r.Kept) {p n : Nat} (hp : p ≤ r.rx.len)
    (hspan : r.span = (p, r.rx.len - p)) (hn : n ≤ r.rx.len - p) (frames : List OtaFrame) :
    ({ r with point := .loopTest (p + n), dispatched := frames, passed := r.passed + n }).Kept := by
  have hlen : r.span.2 = r.received.length - r.passed := length_left hk
  have hpassed := hk.passed_le
  have hleft := hk.left_eq
  rw [hspan] at hlen
  rw [left, hspan] at hleft
  refine ⟨?_, ?_, ?_⟩
  · change p + n ≤ r.rx.len
    omega
  · change r.passed + n ≤ r.received.length
    dsimp only at hlen
    omega
  · change r.rx.buf.slice (p + n) (r.rx.len - (p + n)) = r.received.drop (r.passed + n)
    rw [Nat.sub_add_eq, ← Mem.drop_slice, hleft, List.drop_drop]

/-- What is left, moved to the front. -/
theorem Kept.move (hk : r.Kept) {p n : Nat} (hlen : r.rx.len = p + n) (hspan : r.span = (p, n)) :
    ({ r with
      rx := { r.rx with buf := r.rx.buf.write 0 (r.rx.buf.slice p n) }
      point := .subLoad p }).Kept := by
  refine hk.of_left _ (.subLoad p) trivial ?_
  have hmove := Mem.slice_write r.rx.buf 0 (r.rx.buf.slice p n)
  rw [Mem.length_slice] at hmove
  rw [left, left, hspan]
  change (r.rx.buf.write 0 (r.rx.buf.slice p n)).slice 0 (r.rx.len - p) = r.rx.buf.slice p n
  rw [hlen, Nat.add_sub_cancel_left, hmove]

/-- **The call goes on**, and keeps what is left. -/
theorem Kept.advance (hk : r.Kept) (frame : OtaFrame) : (r.advance frame).Kept := by
  obtain ⟨rx, point, received, dispatched, passed⟩ := r
  have hplaced := hk.placed
  cases point with
  | idle => exact hk.of_left rx _ (Nat.zero_le _) rfl
  | loopTest p =>
    simp only [RxCall.advance]
    split
    · exact hk.of_left rx _ hplaced rfl
    · exact hk.afterLoop hplaced rfl
  | parseArg p =>
    exact hk.of_left rx _ ⟨hplaced, rx.len - p, le_rfl, capped_otaFrameParsePeek _ frame⟩ rfl
  | parse p rest =>
    obtain ⟨hp, n, hn, hcap⟩ := hplaced
    cases rest with
    | ask i next => exact hk.of_left rx _ ⟨hp, n, hn, hcap _⟩ rfl
    | fail e => exact e.elim
    | done result =>
      obtain ⟨frameLen, frame⟩ := result
      simp only [RxCall.advance]
      split
      · exact hk.afterLoop hp rfl
      · have hle : frameLen ≤ (n : Int) := hcap
        have hn : n ≤ rx.len - p := hn
        exact hk.dispatch hp rfl (by omega) _
  | moveTest p =>
    simp only [RxCall.advance]
    split
    · exact hk.of_left rx _ hplaced rfl
    · rename_i hge
      have hp : p ≤ rx.len := hplaced
      have hlen : rx.len = p := by omega
      exact hk.of_left rx _ ⟨hp, fun _ => hlen⟩ rfl
  | moveArg p =>
    have hp : p ≤ rx.len := hplaced
    exact hk.of_left rx _ (show rx.len = p + (rx.len - p) by omega) rfl
  | move p n =>
    have hlen : rx.len = p + n := hplaced
    exact hk.move hlen rfl
  | subLoad p => exact hk.of_left rx _ trivial rfl
  | subStore value => exact hk.of_left _ .idle trivial rfl
  | resetTest p =>
    obtain ⟨hp, h0⟩ := hplaced
    have hp : p ≤ rx.len := hp
    have h0 : 0 < p → rx.len = p := h0
    simp only [RxCall.advance]
    split
    · refine hk.of_left _ .reset trivial ?_
      change rx.buf.slice 0 0 = rx.buf.slice p (rx.len - p)
      rw [show rx.len - p = 0 by omega, Mem.slice_zero, Mem.slice_zero]
    · obtain rfl : p = 0 := by omega
      exact hk.of_left _ .idle trivial rfl
  | reset => exact hk.of_left _ .idle trivial rfl

/-- A step that dispatches nothing and does not call the parser. -/
theorem Framed.of_point (hf : r.Framed) (rx : RxState) {point : Point}
    (h : ∀ p rest, point ≠ .parse p rest) : ({ r with rx := rx, point := point }).Framed :=
  ⟨hf.wire_eq, fun p rest hpoint => absurd hpoint (h p rest)⟩

theorem Framed.afterLoop (hf : r.Framed) (p : Nat) :
    ({ r with point := afterLoop p }).Framed := by
  refine hf.of_point r.rx fun p' rest => ?_
  unfold RxCall.afterLoop
  split
  · exact Point.noConfusion
  · exact Point.noConfusion

/-- A frame passed over: the parser told the truth about its bytes. -/
theorem Framed.dispatch (hf : r.Framed) (hk : r.Kept) {p n : Nat} {frame : OtaFrame}
    (hspan : r.span = (p, r.rx.len - p)) (hn : n ≤ r.rx.len - p)
    (hwire : frame.wire = (r.rx.buf.at_ p).slice 0 n) :
    ({ r with
      point := .loopTest (p + n)
      dispatched := r.dispatched ++ [frame]
      passed := r.passed + n }).Framed := by
  refine ⟨?_, fun _ _ hpoint => nomatch hpoint⟩
  have hleft := hk.left_eq
  rw [left, hspan] at hleft
  change ((r.dispatched ++ [frame]).map OtaFrame.wire).flatten = r.received.take (r.passed + n)
  rw [List.map_append, List.flatten_append, hf.wire_eq, List.take_add]
  congr 1
  rw [List.map_singleton, List.flatten_singleton, hwire, Mem.slice_at, ← hleft, Mem.take_slice,
    Nat.add_zero, Nat.min_eq_left hn]

/-- **The call goes on**, and the bytes that it passes over are those of a frame, if the parser is
called on bytes with a frame at their front, or none. -/
theorem Framed.advance (hf : r.Framed) (hk : r.Kept) {frame : OtaFrame}
    (h : ∀ p, r.point = .parseArg p → WholeInFront (r.rx.buf.at_ p) (r.rx.len - p)) :
    (r.advance frame).Framed := by
  obtain ⟨rx, point, received, dispatched, passed⟩ := r
  cases point with
  | idle => exact hf.of_point rx fun _ _ => Point.noConfusion
  | loopTest p =>
    simp only [RxCall.advance]
    split
    · exact hf.of_point rx fun _ _ => Point.noConfusion
    · exact hf.afterLoop p
  | parseArg p =>
    refine ⟨hf.wire_eq, fun p' rest hpoint => ?_⟩
    obtain ⟨rfl, rfl⟩ := Point.parse.inj hpoint
    exact ⟨_, le_rfl, truthful_otaFrameParsePeek (h p rfl) frame⟩
  | parse p rest =>
    obtain ⟨n, hn, htrue⟩ := hf.truthful p rest rfl
    cases rest with
    | ask i next =>
      refine ⟨hf.wire_eq, fun p' rest hpoint => ?_⟩
      obtain ⟨rfl, rfl⟩ := Point.parse.inj hpoint
      exact ⟨n, hn, htrue.next⟩
    | fail e => exact e.elim
    | done result =>
      obtain ⟨frameLen, frame⟩ := result
      simp only [RxCall.advance]
      split
      · exact hf.afterLoop p
      · rename_i hpos
        obtain ⟨hle, hwire⟩ := htrue.2 _ rfl (show 0 < frameLen by omega)
        exact hf.dispatch hk rfl (Nat.le_trans hle hn) hwire
  | moveTest p =>
    simp only [RxCall.advance]
    split
    · exact hf.of_point rx fun _ _ => Point.noConfusion
    · exact hf.of_point rx fun _ _ => Point.noConfusion
  | moveArg p => exact hf.of_point rx fun _ _ => Point.noConfusion
  | move p n => exact hf.of_point _ fun _ _ => Point.noConfusion
  | subLoad p => exact hf.of_point rx fun _ _ => Point.noConfusion
  | subStore value => exact hf.of_point _ fun _ _ => Point.noConfusion
  | resetTest p =>
    simp only [RxCall.advance]
    split
    · exact hf.of_point rx fun _ _ => Point.noConfusion
    · exact hf.of_point rx fun _ _ => Point.noConfusion
  | reset => exact hf.of_point _ fun _ _ => Point.noConfusion

end RxCall

/-! ## Every run -/

open RxCall

variable {r : RxCall} {h : List RxCallStep}

theorem rxRdy_nil (r : RxCall) : r.rxRdy [] = r := by
  by_cases hfits : r.rx.len + ([] : List UInt8).length ≤ rxBufSize
  · rw [rxRdy_of_fits hfits, List.append_nil, Mem.write_nil]
    rfl
  · exact rxRdy_of_not_fits hfits

theorem kept_step (hk : r.Kept) (e : RxCallEvent) (hclear : KeepsClear (stepOf RxCall.step r e)) :
    (RxCall.step r e).2.Kept := by
  cases e with
  | advance frame => exact hk.advance frame
  | rxRdy bytes =>
    change (r.rxRdy bytes).Kept
    by_cases hnil : bytes = []
    · rwa [hnil, rxRdy_nil]
    · by_cases hfits : r.rx.len + bytes.length ≤ rxBufSize
      · exact hk.rxRdy hfits (hclear bytes rfl hnil hfits)
      · rwa [rxRdy_of_not_fits hfits]

theorem framed_step (hf : r.Framed) (hk : r.Kept) (e : RxCallEvent)
    (hfront : FrontFrames (stepOf RxCall.step r e)) : (RxCall.step r e).2.Framed := by
  cases e with
  | advance frame => exact hf.advance hk fun p hpoint => hfront p frame hpoint rfl
  | rxRdy bytes => exact hf.rxRdy hk.passed_le bytes

theorem run_kept {buf : Mem} (hr : Run RxCall.step (.init buf) h r)
    (hclear : Always (fun _ st => KeepsClear st) h) :
    r.Kept ∧ (Always (fun _ st => FrontFrames st) h → r.Framed) := by
  refine hr.invariant_of_always hclear
    (P := fun h r => r.Kept ∧ (Always (fun _ st => FrontFrames st) h → r.Framed)) ?_ ?_
  · exact ⟨⟨trivial, Nat.zero_le _, rfl⟩, fun _ => ⟨rfl, fun _ _ hpoint => nomatch hpoint⟩⟩
  · rintro h r e - ⟨hk, hf⟩ hstep
    exact ⟨kept_step hk e hstep, fun hfront => framed_step (hf hfront.2) hk e hfront.1⟩

/-- **What arrives in time is safe**: when `ota_process_rx` has returned, the content is the stream
behind the bytes passed over, and behind the frames dispatched if these stood at the front. -/
theorem interrupts_safe {buf : Mem} (hr : Run RxCall.step (.init buf) h r)
    (hclear : Always (fun _ st => KeepsClear st) h) (hidle : r.point = .idle) :
    r.passed ≤ r.received.length ∧ r.rx.content = r.received.drop r.passed ∧
      (Always (fun _ st => FrontFrames st) h → r.StreamIntact) := by
  obtain ⟨hk, hf⟩ := run_kept hr hclear
  have hcontent : r.rx.content = r.received.drop r.passed := by
    rw [← hk.left_eq, left, span, hidle]
    rfl
  refine ⟨hk.passed_le, hcontent, fun hfront => ?_⟩
  rw [StreamIntact, (hf hfront).wire_eq, hcontent, List.take_append_drop]

/-- A byte that arrives between the two comparisons of an idle call stays. -/
theorem interrupts_safe_arrival : ∃ r : RxCall, r.received = [1] ∧ r.StreamIntact := by
  let go : RxCallEvent := .advance (.onStack fun _ => 0)
  let x := exec RxCall.step (.init fun _ => 0) [go, .rxRdy [1], go, go, go, go]
  have hgo : ∀ r : RxCall, KeepsClear (stepOf RxCall.step r go) := fun _ _ he => nomatch he
  have hclear : Always (fun _ st => KeepsClear st) x.1 :=
    ⟨hgo _, hgo _, hgo _, hgo _, fun _ _ _ _ => id, hgo _, trivial⟩
  have hfront : Always (fun _ st => FrontFrames st) x.1 := by
    refine ⟨?_, ?_, ?_, ?_, ?_, ?_, trivial⟩
    · exact fun _ _ hpoint => nomatch hpoint
    · exact fun _ _ hpoint => nomatch hpoint
    · intro p frame hpoint _
      obtain rfl := Point.parseArg.inj hpoint
      exact fun pos hfound => absurd hfound.1 (by decide)
    · exact fun _ _ hpoint => nomatch hpoint
    · exact fun _ _ hpoint => nomatch hpoint
    · exact fun _ _ hpoint => nomatch hpoint
  exact ⟨x.2, rfl, (interrupts_safe (run_exec _ _ _) hclear rfl).2.2 hfront⟩

/-- A byte that arrives between `processed >= rx_len` and `rx_len = 0` is lost. -/
theorem interrupt_loses : ¬ ∀ (buf : Mem) (h : List RxCallStep) (r : RxCall),
    Run RxCall.step (.init buf) h r → r.point = .idle → r.StreamIntact := by
  intro hall
  let go : RxCallEvent := .advance (.onStack fun _ => 0)
  have hbad := hall (fun _ => 0) _ _ (run_exec _ _ [go, go, go, .rxRdy [1], go]) rfl
  exact absurd hbad (List.cons_ne_nil 1 []).symm

/-! ## Without an interrupt -/

/-- The call goes on, and nothing arrives. -/
def Undisturbed : RxCall → RxCall → Prop :=
  Relation.ReflTransGen fun r r' => ∃ frame, r.advance frame = r'

theorem Undisturbed.step {r' : RxCall} (frame : OtaFrame) (hr : Undisturbed (r.advance frame) r') :
    Undisturbed r r' :=
  Relation.ReflTransGen.head ⟨frame, rfl⟩ hr

variable {rx : RxState} {received : List UInt8} {dispatched : List OtaFrame} {passed : Nat}
  {r' : RxCall} (stack : Nat → OtaFrame)

/-- The parser runs to its end. -/
theorem Undisturbed.parse (frame : OtaFrame) {p : Nat} {rest : Peek Empty (Int × OtaFrame)}
    {result : Int × OtaFrame} (hvalue : rest.value (rx.buf.at_ p) = .ok result)
    (hr : Undisturbed ⟨rx, .parse p (.done result), received, dispatched, passed⟩ r') :
    Undisturbed ⟨rx, .parse p rest, received, dispatched, passed⟩ r' := by
  induction rest with
  | done a =>
    obtain rfl := Except.ok.inj hvalue
    exact hr
  | fail e => exact e.elim
  | ask i next ih => exact .step frame (ih _ hvalue)

/-- The loop is `rxLoop`. -/
theorem Undisturbed.loop {p n : Nat} (hn : rx.len - p ≤ n)
    (hr : Undisturbed ⟨rx, afterLoop (rxLoop stack rx n p).2, received,
      dispatched ++ (rxLoop stack rx n p).1, passed + (rxLoop stack rx n p).2⟩ r') :
    Undisturbed ⟨rx, .loopTest p, received, dispatched, passed + p⟩ r' := by
  induction n generalizing p dispatched with
  | zero =>
    have hle : rx.len ≤ p := by omega
    rw [rxLoop_done hle, List.append_nil] at hr
    refine .step (stack p) ?_
    simp only [advance, if_neg (Nat.not_lt.2 hle)]
    exact hr
  | succ n ih =>
    refine .step (stack p) ?_
    by_cases hlt : p < rx.len
    · simp only [advance, if_pos hlt]
      refine .step (stack p) (.parse (stack p) value_otaFrameParsePeek (.step (stack p) ?_))
      generalize hparse : otaFrameParse (rx.buf.at_ p) (rx.len - p) (stack p) = result
      obtain ⟨frameLen, frame⟩ := result
      by_cases hle : frameLen ≤ 0
      · rw [rxLoop_break (by rw [hparse]; exact hle), List.append_nil] at hr
        simp only [advance, if_pos hle]
        exact hr
      · have hlen : (frameLen.toNat : Int) = frameLen := Int.toNat_of_nonneg (by omega)
        rw [rxLoop_next hlt (n := frameLen.toNat) (by omega) (by rw [hparse, hlen])] at hr
        simp only [advance, if_neg hle, Nat.add_assoc]
        refine ih (by omega) ?_
        rwa [List.append_assoc]
    · rw [rxLoop_done (Nat.not_lt.1 hlt), List.append_nil] at hr
      simp only [advance, if_neg hlt]
      exact hr

/-- **A call that is not interrupted** is `otaProcessRx`. -/
theorem call_uninterrupted : Undisturbed ⟨rx, .idle, received, dispatched, passed⟩
    ⟨(otaProcessRx stack rx).2, .idle, received, dispatched ++ (otaProcessRx stack rx).1,
      passed + rx.processed stack⟩ := by
  refine .step (stack 0) (.loop stack (n := rx.len) (Nat.sub_le _ _) ?_)
  have hle : rx.processed stack ≤ rx.len := rxLoop_le (Nat.zero_le _)
  simp only [otaProcessRx]
  rw [← RxState.processed]
  generalize rx.processed stack = p at hle
  generalize (rxLoop stack rx rx.len 0).1 = frames
  have hback : ∀ rx', Undisturbed ⟨rx', .idle, received, dispatched ++ frames, passed + p⟩
      ⟨rx', .idle, received, dispatched ++ frames, passed + p⟩ := fun _ => .refl
  by_cases h0 : 0 < p
  · rw [afterLoop, if_pos h0]
    refine .step (stack p) ?_
    by_cases hlt : p < rx.len
    · simp only [advance, h0, hlt, and_self, if_true]
      -- the argument, `memmove`, the load and the store
      refine .step (stack p) (.step (stack p) (.step (stack p) (.step (stack p) ?_)))
      exact hback _
    · have hge : p ≥ rx.len := Nat.not_lt.1 hlt
      simp only [advance, hlt, and_false, if_false, if_pos hge]
      refine .step (stack p) ?_
      simp only [advance, if_pos hge]
      exact .step (stack p) (hback _)
  · rw [afterLoop, if_neg h0]
    refine .step (stack p) ?_
    by_cases hge : p ≥ rx.len
    · simp only [advance, if_pos hge, h0, false_and, if_false]
      exact .step (stack p) (hback _)
    · simp only [advance, if_neg hge, h0, false_and, if_false]
      exact hback _

end ZephyrStm32.Ota
