import ZephyrStm32.Ota.Device.Receiver

/-!
# `rx_buf` under the asynchronous UART driver: `uart_cb` and `ota_protocol_init`

`rx_buf` is three things at once: the memory the driver stores bytes in, the memory it is given to
go on in when a buffer is full, and the queue of the parser. The driver follows its documentation:
it stores each byte at the next offset of its active buffer, announces stored bytes with
`UART_RX_RDY`, asks for another buffer with `UART_RX_BUF_REQUEST`, once right after
`uart_rx_enable`, and goes on in that one when the active buffer is full.

**Theorem (`stream_intact`).** As long as no byte is stored in `rx_buf[0 .. rx_len)`, what was
consumed followed by `rx_buf[0 .. rx_len)` is what was announced. Nothing keeps the driver out of
that range once the buffer it fills begins below `rx_len` (`first_buffer_reused`).
-/

namespace ZephyrStm32.Ota

open Machine

/-- A buffer of the driver: `rx_buf[base .. base + size)`. -/
structure DmaBuf where
  base : Nat
  size : Nat
  deriving DecidableEq, Repr

/-- The receiver and the driver, and what has happened to the bytes so far. -/
structure Uart where
  rx : RxState
  active : DmaBuf
  /-- The offset in the active buffer where the next byte goes. -/
  written : Nat
  /-- The offset up to which `UART_RX_RDY` was raised. -/
  announced : Nat
  /-- The answer to the last `UART_RX_BUF_REQUEST`. -/
  next : Option DmaBuf
  /-- The bytes stored but not announced yet. -/
  pending : List UInt8
  /-- The bytes announced. -/
  received : List UInt8
  /-- The bytes that calls of `ota_process_rx` passed over. -/
  consumed : List UInt8

inductive UartEvent
  /-- A byte arrives and the driver stores it. -/
  | byte (b : UInt8)
  /-- The driver raises `UART_RX_RDY` for the next `n` bytes stored. -/
  | rxRdy (n : Nat)
  | rxBufRequest
  /-- The active buffer is full and announced: it is released, and the driver goes on. -/
  | rxBufReleased
  /-- The main loop calls `ota_process_rx`. -/
  | process (stack : Nat → OtaFrame)

namespace Uart

def unconsumed (u : Uart) : Nat := u.received.length + u.pending.length - u.consumed.length

/-- There is room in the active buffer, and the bytes not consumed yet stay within
`RX_BUF_SIZE`. -/
def Stores (u : Uart) : Prop := u.written < u.active.size ∧ u.unconsumed < rxBufSize

instance (u : Uart) : Decidable u.Stores := inferInstanceAs (Decidable (_ ∧ _))

/-- `UART_RX_BUF_REQUEST`: the rest of `rx_buf` behind the content, as it is now. -/
def uartRxBufRsp (u : Uart) : Uart :=
  { u with next := some ⟨u.rx.len, rxBufSize - u.rx.len⟩ }

/-- `ota_protocol_init`: `rx_len = 0`, and `uart_rx_enable` on all of `rx_buf`, which raises the
first request. -/
def otaProtocolInit (buf : Mem) : Uart :=
  uartRxBufRsp ⟨⟨buf, 0⟩, ⟨0, rxBufSize⟩, 0, 0, none, [], [], []⟩

/-- The driver stores a byte. -/
def store (u : Uart) (b : UInt8) : Uart :=
  { u with
    rx := { u.rx with buf := u.rx.buf.write (u.active.base + u.written) [b] }
    written := u.written + 1
    pending := u.pending ++ [b] }

/-- `UART_RX_RDY` for the next `n` bytes: `uart_cb` copies them, where they are, to the end of the
content. The two ranges of the `memcpy` may overlap or be the same; it is taken to copy all the
same. -/
def announce (u : Uart) (n : Nat) : Uart :=
  { u with
    rx := uartRxRdy u.rx (u.rx.buf.slice (u.active.base + u.announced) n)
    announced := u.announced + n
    pending := u.pending.drop n
    received := u.received ++ u.pending.take n }

/-- The driver goes on in another buffer. -/
def goOn (u : Uart) (buf : DmaBuf) : Uart :=
  { u with active := buf, written := 0, announced := 0, next := none }

/-- `ota_process_rx` passes over some of the content. -/
def consume (u : Uart) (stack : Nat → OtaFrame) : Uart :=
  { u with
    rx := (otaProcessRx stack u.rx).2
    consumed := u.consumed ++ u.rx.content.take (u.rx.processed stack) }

/-- The frames passed on, and the state after the event. -/
def step (u : Uart) : UartEvent → List OtaFrame × Uart
  | .byte b => ([], if u.Stores then u.store b else u)
  | .rxRdy n => ([], if u.announced + n ≤ u.written then u.announce n else u)
  | .rxBufRequest => ([], if u.next.isNone then u.uartRxBufRsp else u)
  | .rxBufReleased =>
    match u.next with
    | some buf => ([], if u.announced = u.active.size then u.goOn buf else u)
    | none => ([], u)
  | .process stack => ((otaProcessRx stack u.rx).1, u.consume stack)

end Uart

/-- A step of the driver or of the main loop. -/
abbrev UartStep := Step Uart UartEvent (List OtaFrame)

/-- The stream is intact: what was consumed, followed by the content, is what was received. -/
def Intact (u : Uart) : Prop := u.consumed ++ u.rx.content = u.received

/-- A byte that is stored goes behind the content, not into it. -/
def Clear (st : UartStep) : Prop :=
  ∀ b, st.input = .byte b → st.before.Stores →
    st.before.rx.len ≤ st.before.active.base + st.before.written

/-! ## The invariant -/

/-- The stream is intact, and what is stored but not announced is in the active buffer behind the
content. -/
structure UartInv (u : Uart) : Prop where
  intact : Intact u
  stored : u.rx.buf.slice (u.active.base + u.announced) u.pending.length = u.pending
  written : u.written = u.announced + u.pending.length
  le_size : u.written ≤ u.active.size
  active : u.active.base + u.active.size ≤ rxBufSize
  next : ∀ buf, u.next = some buf → buf.base + buf.size ≤ rxBufSize
  len : u.rx.len ≤ rxBufSize
  behind : u.pending ≠ [] → u.rx.len ≤ u.active.base + u.announced

variable {u : Uart} {h : List UartStep}

theorem uartInv_init (buf : Mem) : UartInv (Uart.otaProtocolInit buf) where
  intact := rfl
  stored := rfl
  written := rfl
  le_size := Nat.zero_le _
  active := le_rfl
  next := by
    intro b hb
    cases hb
    exact le_rfl
  len := Nat.zero_le _
  behind := fun hn => absurd rfl hn

/-- A byte stored behind the content. -/
theorem UartInv.store (hi : UartInv u) (b : UInt8) (hs : u.Stores)
    (hc : u.rx.len ≤ u.active.base + u.written) : UartInv (u.store b) := by
  have hbase : u.active.base + u.written = u.active.base + u.announced + u.pending.length := by
    rw [hi.written, Nat.add_assoc]
  refine ⟨?_, ?_, ?_, hs.1, hi.active, hi.next, hi.len, ?_⟩
  · have hcontent : (u.store b).rx.content = u.rx.content := by
      apply Mem.slice_congr
      intro i hlt
      have hlt : i < u.rx.len := hlt
      exact Mem.write_of_lt (by omega)
    rw [Intact, hcontent]
    exact hi.intact
  · have hw := Mem.slice_write_append u.rx.buf (u.active.base + u.announced) u.pending.length [b]
    rw [hi.stored, ← hbase] at hw
    change (u.rx.buf.write (u.active.base + u.written) [b]).slice _ (u.pending ++ [b]).length = _
    rw [List.length_append]
    exact hw
  · change u.written + 1 = u.announced + (u.pending ++ [b]).length
    rw [List.length_append, List.length_singleton, hi.written, Nat.add_assoc]
  · intro _
    by_cases hp : u.pending = []
    · rw [hbase, hp] at hc
      exact hc
    · exact hi.behind hp

/-- Bytes announced: there is room for them, and they are copied down. -/
theorem UartInv.announce (hi : UartInv u) {n : Nat} (hn : u.announced + n ≤ u.written) :
    UartInv (u.announce n) := by
  have hwritten := hi.written
  have hsize := hi.le_size
  have hactive := hi.active
  have hnp : n ≤ u.pending.length := by omega
  have hbytes : u.rx.buf.slice (u.active.base + u.announced) n = u.pending.take n := by
    conv_rhs => rw [← hi.stored]
    rw [Mem.take_slice, min_eq_left hnp]
  have hlen : (u.pending.take n).length = n := List.length_take_of_le hnp
  have hbehind : n = 0 ∨ u.rx.len ≤ u.active.base + u.announced := by
    by_cases hp : u.pending = []
    · rw [hp, List.length_nil] at hnp
      omega
    · exact Or.inr (hi.behind hp)
  have hroom : u.rx.len + n ≤ rxBufSize := by
    have := hi.len
    omega
  have hrx : (u.announce n).rx = ⟨u.rx.buf.write u.rx.len (u.pending.take n), u.rx.len + n⟩ := by
    change uartRxRdy u.rx _ = _
    rw [hbytes, uartRxRdy, hlen, if_pos hroom]
  refine ⟨?_, ?_, ?_, hsize, hactive, hi.next, ?_, ?_⟩
  · have hcontent : (u.announce n).rx.content = u.rx.content ++ u.pending.take n := by
      change (uartRxRdy u.rx _).content = _
      rw [hbytes, content_uartRxRdy (by rw [hlen]; exact hroom)]
    change u.consumed ++ (u.announce n).rx.content = u.received ++ u.pending.take n
    rw [hcontent, ← List.append_assoc, hi.intact]
  · -- The copy ends before the bytes that are still to be announced.
    have hrest : u.rx.buf.slice (u.active.base + u.announced + n) (u.pending.length - n) =
        u.pending.drop n := by
      conv_rhs => rw [← hi.stored]
      rw [Mem.drop_slice]
    change (u.announce n).rx.buf.slice (u.active.base + (u.announced + n))
      (u.pending.drop n).length = u.pending.drop n
    rw [hrx, List.length_drop, ← Nat.add_assoc, ← hrest]
    apply Mem.slice_congr
    intro i _
    exact if_neg (by rw [hlen]; omega)
  · change u.written = u.announced + n + (u.pending.drop n).length
    rw [List.length_drop]
    omega
  · rw [hrx]
    exact hroom
  · intro hne
    rw [hrx]
    change u.rx.len + n ≤ u.active.base + (u.announced + n)
    have hp : u.pending ≠ [] := by
      intro hp
      apply hne
      change u.pending.drop n = []
      rw [hp, List.drop_nil]
    have := hi.behind hp
    omega

theorem UartInv.uartRxBufRsp (hi : UartInv u) : UartInv u.uartRxBufRsp := by
  refine ⟨hi.intact, hi.stored, hi.written, hi.le_size, hi.active, ?_, hi.len, hi.behind⟩
  intro buf hb
  cases hb
  have := hi.len
  change u.rx.len + (rxBufSize - u.rx.len) ≤ rxBufSize
  omega

/-- Going on in another buffer, when all of the last one was announced. -/
theorem UartInv.goOn (hi : UartInv u) {buf : DmaBuf} (hn : u.next = some buf)
    (hf : u.announced = u.active.size) : UartInv (u.goOn buf) := by
  have hp : u.pending = [] := by
    rw [← List.length_eq_zero_iff]
    have := hi.written
    have := hi.le_size
    omega
  refine ⟨hi.intact, ?_, ?_, Nat.zero_le _, hi.next buf hn, ?_, hi.len, fun hne => absurd hp hne⟩
  · change u.rx.buf.slice _ u.pending.length = u.pending
    rw [hp]
    rfl
  · change 0 = 0 + u.pending.length
    rw [hp]
    rfl
  · intro b hb
    cases hb

theorem UartInv.consume (hi : UartInv u) (stack : Nat → OtaFrame) :
    UartInv (u.consume stack) := by
  obtain ⟨hle, hlen, hcontent, hsame⟩ := otaProcessRx_spec stack u.rx
  have hsize := hi.len
  refine ⟨?_, ?_, hi.written, hi.le_size, hi.active, hi.next, ?_, ?_⟩
  · change u.consumed ++ u.rx.content.take _ ++ (otaProcessRx stack u.rx).2.content = u.received
    rw [hcontent, List.append_assoc, List.take_append_drop]
    exact hi.intact
  · by_cases hp : u.pending = []
    · change (otaProcessRx stack u.rx).2.buf.slice _ u.pending.length = u.pending
      rw [hp]
      rfl
    · have hb := hi.behind hp
      have hs : (otaProcessRx stack u.rx).2.buf.slice (u.active.base + u.announced)
          u.pending.length = u.rx.buf.slice (u.active.base + u.announced) u.pending.length := by
        apply Mem.slice_congr
        intro i _
        exact hsame _ (by omega)
      exact hs.trans hi.stored
  · change (otaProcessRx stack u.rx).2.len ≤ rxBufSize
    omega
  · intro hp
    have := hi.behind hp
    change (otaProcessRx stack u.rx).2.len ≤ u.active.base + u.announced
    omega

theorem uartInv_step (hi : UartInv u) (e : UartEvent) (hc : Clear (stepOf Uart.step u e)) :
    UartInv (u.step e).2 := by
  cases e with
  | byte b =>
    by_cases hs : u.Stores
    · rw [Uart.step, if_pos hs]
      exact hi.store b hs (hc b rfl hs)
    · rw [Uart.step, if_neg hs]
      exact hi
  | rxRdy n =>
    by_cases hn : u.announced + n ≤ u.written
    · rw [Uart.step, if_pos hn]
      exact hi.announce hn
    · rw [Uart.step, if_neg hn]
      exact hi
  | rxBufRequest =>
    rw [Uart.step]
    split
    · exact hi.uartRxBufRsp
    · exact hi
  | rxBufReleased =>
    cases hn : u.next with
    | none =>
      simp only [Uart.step, hn]
      exact hi
    | some buf =>
      simp only [Uart.step, hn]
      split
      · rename_i hf
        exact hi.goOn hn hf
      · exact hi
  | process stack => exact hi.consume stack

theorem run_uartInv {buf : Mem} (hr : Run Uart.step (.otaProtocolInit buf) h u)
    (hc : Always (fun _ => Clear) h) : UartInv u :=
  hr.invariant_of_always (P := fun _ u => UartInv u) hc (uartInv_init buf)
    fun _ _ e _ hi hclear => uartInv_step hi e hclear

/-- **The stream.** In every run of the driver and the main loop in which no byte is stored in
`rx_buf[0 .. rx_len)`, the bytes consumed followed by the content are the bytes received. -/
theorem stream_intact {buf : Mem} (hr : Run Uart.step (.otaProtocolInit buf) h u)
    (hc : Always (fun _ => Clear) h) : Intact u :=
  (run_uartInv hr hc).intact

/-- Two bytes, announced and looked at. -/
theorem stream_intact_two :
    Intact (exec Uart.step (.otaProtocolInit fun _ => 0)
      [.byte 0x12, .byte 0x34, .rxRdy 2, .process fun _ => .onStack fun _ => 0]).2 := by
  refine stream_intact (run_exec _ _ _) ⟨?_, ?_, ?_, ?_, trivial⟩
  · intro b hb
    cases hb
  · intro b hb
    cases hb
  · exact fun _ _ _ => Nat.zero_le _
  · exact fun _ _ _ => Nat.zero_le _

/-! ## When the first buffer is full -/

theorem clear_of_ne {e : UartEvent} (he : ∀ b, e ≠ .byte b) : Clear (stepOf Uart.step u e) :=
  fun b hb => absurd hb (he b)

/-- Many bytes, stored in a row. -/
theorem foldl_store (u : Uart) (bs : List UInt8) : ∃ m, bs.foldl Uart.store u =
    { u with
      rx := ⟨m, u.rx.len⟩, written := u.written + bs.length, pending := u.pending ++ bs } := by
  induction bs generalizing u with
  | nil => exact ⟨u.rx.buf, by simp⟩
  | cons b bs ih =>
    obtain ⟨m, hm⟩ := ih (u.store b)
    refine ⟨m, ?_⟩
    rw [List.foldl_cons, hm]
    simp [Uart.store, Nat.add_comm, Nat.add_left_comm]

/-- They make a run, while there is room and the first goes behind the content. -/
theorem run_bytes {u₀ : Uart} (bs : List UInt8) (hr : Run Uart.step u₀ h u)
    (hc : Always (fun _ => Clear) h) (hroom : u.written + bs.length ≤ u.active.size)
    (hcap : u.unconsumed + bs.length ≤ rxBufSize) (hb : u.rx.len ≤ u.active.base + u.written) :
    ∃ h', Run Uart.step u₀ h' (bs.foldl Uart.store u) ∧ Always (fun _ => Clear) h' := by
  induction bs generalizing u h with
  | nil => exact ⟨h, hr, hc⟩
  | cons b bs ih =>
    rw [List.length_cons] at hroom hcap
    have hs : u.Stores := ⟨by omega, by omega⟩
    have hstep : Uart.step u (.byte b) = ([], u.store b) := by rw [Uart.step, if_pos hs]
    have hr' := hr.snoc (.byte b)
    rw [hstep] at hr'
    refine ih hr' ⟨fun _ _ _ => hb, hc⟩ ?_ ?_ ?_
    · change u.written + 1 + bs.length ≤ u.active.size
      omega
    · have hu : (u.store b).unconsumed ≤ u.unconsumed + 1 := by
        simp only [Uart.unconsumed, Uart.store, List.length_append, List.length_singleton]
        omega
      omega
    · change u.rx.len ≤ u.active.base + (u.written + 1)
      omega

theorem run_rxRdy {u₀ : Uart} {n : Nat} (hr : Run Uart.step u₀ h u)
    (hc : Always (fun _ => Clear) h) (hn : u.announced + n ≤ u.written) :
    ∃ h', Run Uart.step u₀ h' (u.announce n) ∧ Always (fun _ => Clear) h' := by
  have hstep : Uart.step u (.rxRdy n) = ([], u.announce n) := by rw [Uart.step, if_pos hn]
  have hr' := hr.snoc (.rxRdy n)
  rw [hstep] at hr'
  exact ⟨_, hr', clear_of_ne (by simp), hc⟩

/-- A handshake on the wire. -/
def handshakeBytes : List UInt8 :=
  [0x12, 0x34, 0, 0, 0, 0, 0x20, 0, 1, 0, 0, 0, 1, 0, 0, 0, 0, 0, 0xCD, 0xEF]

/-- A handshake has been received and consumed. -/
def Uart.afterHandshake : Uart :=
  ((handshakeBytes.foldl Uart.store (.otaProtocolInit fun _ => 0)).announce 20).consume
    fun _ => .onStack fun _ => 0

theorem run_afterHandshake : ∃ h, Run Uart.step (.otaProtocolInit fun _ => 0) h .afterHandshake ∧
    Always (fun _ => Clear) h := by
  obtain ⟨h₁, hr₁, hc₁⟩ := run_bytes (u := .otaProtocolInit fun _ => 0) (h := []) handshakeBytes
    .nil trivial (by decide) (by decide) (by decide)
  obtain ⟨h₂, hr₂, hc₂⟩ := run_rxRdy (n := 20) hr₁ hc₁ (by decide)
  have hr₃ := hr₂.snoc (.process fun _ => .onStack fun _ => 0)
  exact ⟨_, hr₃, clear_of_ne (by simp), hc₂⟩

theorem afterHandshake_spec : ∃ buf, Uart.afterHandshake =
    ⟨⟨buf, 0⟩, ⟨0, rxBufSize⟩, 20, 20, some ⟨0, rxBufSize⟩, [], handshakeBytes,
      handshakeBytes⟩ := by
  have hnum : Uart.afterHandshake.rx.len = 0 ∧ Uart.afterHandshake.active = ⟨0, rxBufSize⟩ ∧
      Uart.afterHandshake.written = 20 ∧ Uart.afterHandshake.announced = 20 ∧
      Uart.afterHandshake.next = some ⟨0, rxBufSize⟩ ∧ Uart.afterHandshake.pending = [] ∧
      Uart.afterHandshake.received = handshakeBytes ∧
      Uart.afterHandshake.consumed = handshakeBytes := by decide
  generalize Uart.afterHandshake = u at hnum
  obtain ⟨⟨buf, len⟩, active, written, announced, next, pending, received, consumed⟩ := u
  obtain ⟨rfl, rfl, rfl, rfl, rfl, rfl, rfl, rfl⟩ := hnum
  exact ⟨buf, rfl⟩

/-- Then 4076 zeros fill the first buffer, none of them is consumed, and the driver goes on in the
buffer asked for when `rx_len` was 0, which begins where the first one did. -/
theorem run_refilled : ∃ h u, Run Uart.step (.otaProtocolInit fun _ => 0) h u ∧
    Always (fun _ => Clear) h ∧ u.active = ⟨0, rxBufSize⟩ ∧ u.written = 0 ∧ u.pending = [] ∧
      u.consumed = handshakeBytes ∧ u.received = handshakeBytes ++ List.replicate 4076 0 := by
  obtain ⟨h, hr, hc⟩ := run_afterHandshake
  obtain ⟨buf, he⟩ := afterHandshake_spec
  rw [he] at hr
  have hlen : (List.replicate 4076 (0 : UInt8)).length = 4076 := List.length_replicate
  generalize List.replicate 4076 (0 : UInt8) = zeros at hlen
  obtain ⟨h₁, hr₁, hc₁⟩ := run_bytes zeros hr hc
    (by rw [hlen]; exact (by decide : 20 + 4076 ≤ 4096))
    (by rw [hlen]; exact (by decide : 0 + 4076 ≤ 4096)) (Nat.zero_le _)
  obtain ⟨m, hm⟩ := foldl_store ⟨⟨buf, 0⟩, ⟨0, rxBufSize⟩, 20, 20, some ⟨0, rxBufSize⟩, [],
    handshakeBytes, handshakeBytes⟩ zeros
  rw [hm, hlen] at hr₁
  obtain ⟨h₂, hr₂, hc₂⟩ := run_rxRdy (n := 4076) hr₁ hc₁ (by exact le_rfl)
  have hr₃ := hr₂.snoc .rxBufReleased
  rw [show Uart.step _ .rxBufReleased = ([], Uart.goOn _ ⟨0, rxBufSize⟩) from
    congrArg (Prod.mk []) (if_pos rfl)] at hr₃
  refine ⟨_, _, hr₃, ⟨clear_of_ne (by simp), hc₂⟩, rfl, rfl, ?_, rfl, ?_⟩
  · exact List.drop_eq_nil_of_le (by rw [List.nil_append, hlen])
  · exact congrArg (handshakeBytes ++ ·) (List.take_of_length_le (by rw [List.nil_append, hlen]))

/-- **The first buffer again.** The next byte is stored over the first byte that waits in the
queue. -/
theorem first_buffer_reused : ¬ ∀ (buf : Mem) (h : List UartStep) (u : Uart),
    Run Uart.step (.otaProtocolInit buf) h u → Intact u := by
  intro hall
  obtain ⟨h, u, hr, hc, hactive, hwritten, hpending, hconsumed, hreceived⟩ := run_refilled
  have hcontent : u.rx.content = List.replicate 4076 0 := by
    have hi := (run_uartInv hr hc).intact
    rw [Intact, hconsumed, hreceived] at hi
    exact List.append_cancel_left hi
  have hlen : u.rx.len = 4076 := by
    have hl := congrArg List.length hcontent
    rwa [RxState.content, Mem.length_slice, List.length_replicate] at hl
  have hs : u.Stores := by
    refine ⟨by rw [hwritten, hactive]; decide, ?_⟩
    rw [Uart.unconsumed, hconsumed, hreceived, hpending, List.length_append,
      List.length_replicate]
    decide
  have hbyte := hall _ _ _ (hr.snoc (.byte 1))
  rw [Uart.step, if_pos hs, Intact] at hbyte
  have hcontent' : (u.store 1).rx.content = List.replicate 4076 0 := by
    have hi : u.consumed ++ (u.store 1).rx.content = u.received := hbyte
    rw [hconsumed, hreceived] at hi
    exact List.append_cancel_left hi
  have h₀ := (Mem.slice_eq_iff (by rw [List.length_replicate, ← hlen]; rfl)).1 hcontent' 0
    (by change 0 < u.rx.len; omega)
  have h₁ : (u.store 1).rx.buf (0 + 0) = 1 := by
    change u.rx.buf.write (u.active.base + u.written) [1] (0 + 0) = 1
    rw [hwritten, hactive]
    rfl
  rw [h₁] at h₀
  cases h₀

end ZephyrStm32.Ota
