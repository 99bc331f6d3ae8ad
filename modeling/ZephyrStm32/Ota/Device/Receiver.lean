import ZephyrStm32.Lib.Run
import ZephyrStm32.Ota.Device.Protocol

/-!
# The device's receiver: `rx_buf`, `uart_cb` and `ota_process_rx`

`otaProcessRx` gives the frames it passes to `ota_frame_process`, in order. The handlers touch
neither `rx_buf` nor `rx_len`; a handler that reboots the device does not return, so of the frames
behind such a request the state machine handles none.

* `otaFrameParse_at`: what the parser does when a header is at the front of its buffer.
* `rxLoop_enough`: the loop ends, since every round that goes on consumes a byte at least.
-/

namespace ZephyrStm32.Ota

def rxBufSize : Nat := 4096

/-- `rx_buf` and `rx_len`. -/
structure RxState where
  buf : Mem
  len : Nat

/-- `rx_buf[0 .. rx_len)`. -/
def RxState.content (rx : RxState) : List UInt8 := rx.buf.slice 0 rx.len

/-- After `ota_protocol_init`. -/
def RxState.init : RxState := ⟨fun _ => 0, 0⟩

/-- `UART_RX_RDY`: bytes that do not fit are dropped. -/
def uartRxRdy (rx : RxState) (bytes : List UInt8) : RxState :=
  if rx.len + bytes.length ≤ rxBufSize then
    ⟨rx.buf.write rx.len bytes, rx.len + bytes.length⟩
  else rx

/-- The loop of `ota_process_rx`, for a number of rounds: the frames passed on, and `processed`.
`stack` is what the uninitialised `frame` holds in the round that starts at a position. -/
def rxLoop (stack : Nat → OtaFrame) (rx : RxState) : Nat → Nat → List OtaFrame × Nat
  | 0, processed => ([], processed)
  | rounds + 1, processed =>
    if processed < rx.len then
      let r := otaFrameParse (rx.buf.at_ processed) (rx.len - processed) (stack processed)
      if r.1 ≤ 0 then ([], processed)
      else
        let rest := rxLoop stack rx rounds (processed + r.1.toNat)
        (r.2 :: rest.1, rest.2)
    else ([], processed)

def otaProcessRx (stack : Nat → OtaFrame) (rx : RxState) : List OtaFrame × RxState :=
  let r := rxLoop stack rx rx.len 0
  let processed := r.2
  (r.1,
    if processed > 0 ∧ processed < rx.len then
      ⟨rx.buf.write 0 (rx.buf.slice processed (rx.len - processed)), rx.len - processed⟩
    else if processed ≥ rx.len then { rx with len := 0 }
    else rx)

/-- What happens to the receiver: bytes arrive, or the main loop calls `ota_process_rx`. -/
inductive RxEvent
  | received (bytes : List UInt8)
  | process (stack : Nat → OtaFrame)

/-- The frames passed on, and the receiver after the event. -/
def RxState.step (rx : RxState) : RxEvent → List OtaFrame × RxState
  | .received bytes => ([], uartRxRdy rx bytes)
  | .process stack => otaProcessRx stack rx

/-! ## The parser -/

section

variable {m : Mem} {len : Nat} (junk : OtaFrame)

theorem otaFrameParse_short (h : len < frameMinSize) : otaFrameParse m len junk = (-1, junk) :=
  if_pos h

/-- A header found at `pos`. -/
theorem otaFrameParse_found {pos : Nat} (h : frameMinSize ≤ len)
    (hpos : Scan.firstFrom (isFrameHeader m) 0 (len - frameMinSize + 1) = some pos) :
    otaFrameParse m len junk =
      if pos + totalFrameLen (m.u16 (pos + 14)) > len then (-1, junk)
      else ((totalFrameLen (m.u16 (pos + 14)) : Int), readFrame m pos junk) := by
  rw [otaFrameParse, if_neg (Nat.not_lt.2 h), hpos]

theorem otaFrameParse_none
    (hpos : Scan.firstFrom (isFrameHeader m) 0 (len - frameMinSize + 1) = none) :
    otaFrameParse m len junk = (-1, junk) := by
  rw [otaFrameParse, hpos]
  split <;> rfl

/-- A header at the front. -/
theorem otaFrameParse_at (h : frameMinSize ≤ len) (h0 : m 0 = frameHeader0)
    (h1 : m 1 = frameHeader1) :
    otaFrameParse m len junk =
      if totalFrameLen (m.u16 14) > len then (-1, junk)
      else ((totalFrameLen (m.u16 14) : Int), readFrame m 0 junk) := by
  have hpos : Scan.firstFrom (isFrameHeader m) 0 (len - frameMinSize + 1) = some 0 :=
    Scan.firstFrom_self (Nat.succ_pos _) (by simp [isFrameHeader, h0, h1])
  rw [otaFrameParse_found junk h hpos]
  simp only [Nat.zero_add]

/-- A length that is returned fits in the bytes given. -/
theorem otaFrameParse_le : (otaFrameParse m len junk).1 ≤ len := by
  have hneg : (-1 : Int) ≤ len := by omega
  unfold otaFrameParse
  split
  · exact hneg
  · split
    · exact hneg
    · dsimp only
      split
      · exact hneg
      · dsimp only
        omega

end

/-! ## The loop -/

variable {stack : Nat → OtaFrame} {rx : RxState}

theorem rxLoop_done {rounds processed : Nat} (h : rx.len ≤ processed) :
    rxLoop stack rx rounds processed = ([], processed) := by
  cases rounds with
  | zero => rfl
  | succ rounds => rw [rxLoop, if_neg (Nat.not_lt.2 h)]

theorem rxLoop_break {rounds processed : Nat}
    (h : (otaFrameParse (rx.buf.at_ processed) (rx.len - processed) (stack processed)).1 ≤ 0) :
    rxLoop stack rx (rounds + 1) processed = ([], processed) := by
  rw [rxLoop]
  split
  · exact if_pos h
  · rfl

/-- More rounds than bytes left change nothing. -/
theorem rxLoop_enough {n k processed : Nat} (hn : rx.len - processed ≤ n) :
    rxLoop stack rx (n + k) processed = rxLoop stack rx n processed := by
  induction n generalizing processed with
  | zero =>
    rw [rxLoop_done (by omega), rxLoop_done (by omega)]
  | succ n ih =>
    rw [Nat.add_right_comm, rxLoop, rxLoop]
    split
    · dsimp only
      split
      · rfl
      · rw [ih (by omega)]
    · rfl

theorem rxLoop_next {rounds processed n : Nat} {frame : OtaFrame} (hlt : processed < rx.len)
    (hn : 0 < n)
    (h : otaFrameParse (rx.buf.at_ processed) (rx.len - processed) (stack processed) =
      ((n : Int), frame)) :
    rxLoop stack rx (rounds + 1) processed =
      (frame :: (rxLoop stack rx rounds (processed + n)).1,
        (rxLoop stack rx rounds (processed + n)).2) := by
  have hpos : ¬ (n : Int) ≤ 0 := by omega
  rw [rxLoop, if_pos hlt, h]
  simp only [hpos, if_false, Int.toNat_natCast]

/-- The loop stays in the buffer. -/
theorem rxLoop_le {rounds processed : Nat} (h : processed ≤ rx.len) :
    (rxLoop stack rx rounds processed).2 ≤ rx.len := by
  induction rounds generalizing processed with
  | zero => exact h
  | succ rounds ih =>
    rw [rxLoop]
    split
    · dsimp only
      split
      · exact h
      · rename_i hlt hpos
        have hle : (otaFrameParse (rx.buf.at_ processed) (rx.len - processed)
            (stack processed)).1 ≤ (rx.len - processed : Nat) := otaFrameParse_le _
        apply ih
        omega
    · exact h

/-! ## What an event leaves of the buffer -/

/-- Bytes that fit are put behind the content. -/
theorem content_uartRxRdy {bytes : List UInt8} (h : rx.len + bytes.length ≤ rxBufSize) :
    (uartRxRdy rx bytes).content = rx.content ++ bytes := by
  have hw := Mem.slice_write_append rx.buf 0 rx.len bytes
  rw [Nat.zero_add] at hw
  rw [uartRxRdy, if_pos h]
  exact hw

/-- The bytes that a call of `ota_process_rx` passes over. -/
def RxState.processed (rx : RxState) (stack : Nat → OtaFrame) : Nat := (rxLoop stack rx rx.len 0).2

/-- A call takes the processed bytes from the front and touches nothing behind the content. -/
theorem otaProcessRx_spec (stack : Nat → OtaFrame) (rx : RxState) :
    rx.processed stack ≤ rx.len ∧ (otaProcessRx stack rx).2.len = rx.len - rx.processed stack ∧
      (otaProcessRx stack rx).2.content = rx.content.drop (rx.processed stack) ∧
      ∀ i, rx.len ≤ i → (otaProcessRx stack rx).2.buf i = rx.buf i := by
  have hle : rx.processed stack ≤ rx.len := rxLoop_le (Nat.zero_le _)
  simp only [otaProcessRx]
  rw [← RxState.processed]
  generalize rx.processed stack = k at hle
  refine ⟨hle, ?_⟩
  split
  · have hmove := Mem.slice_write rx.buf 0 (rx.buf.slice k (rx.len - k))
    rw [Mem.length_slice] at hmove
    refine ⟨rfl, ?_, fun i hi => ?_⟩
    · rw [RxState.content, RxState.content, Mem.drop_slice, Nat.zero_add]
      exact hmove
    · exact if_neg (by rw [Mem.length_slice]; omega)
  · split
    · refine ⟨by dsimp only; omega, ?_, fun _ _ => rfl⟩
      rw [List.drop_eq_nil_of_le (by rw [RxState.content, Mem.length_slice]; omega)]
      rfl
    · rw [show k = 0 by omega, List.drop_zero]
      exact ⟨rfl, rfl, fun _ _ => rfl⟩

end ZephyrStm32.Ota
