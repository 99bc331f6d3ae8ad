import ZephyrStm32.Lib.Bytes
import ZephyrStm32.Lib.Run

/-!
# The DMA echo: `uart_cb`

The receiver fills one of two buffers while it holds the other as its next one; the echo of what
was announced is transmitted from the buffer it was received in. A transmission reads each byte
when it sends it, and until it is done `uart_tx` refuses another one.

**Theorem (`echoes_iff`).** In a run everything received has been transmitted, or will be, and no
buffer is handed to the receiver while it is transmitted from, exactly when nothing is announced
while a transmission is in progress, and no buffer is asked for while one is in progress from the
buffer that was left.
-/

namespace ZephyrStm32.UartEcho

open Machine

def bufSize : Nat := 64

def ebusy : Int := -16

/-- A range of a buffer, given to `uart_tx` by reference, and how much of it was sent. -/
structure Transmission where
  buf : Fin 2
  offset : Nat
  len : Nat
  sent : Nat

/-- `rx_buf` and `rx_buf_idx`, the receiver, the transmitter, and the bytes that went by. -/
structure Echo where
  rxBuf : Fin 2 → Mem
  rxBufIdx : Fin 2
  active : Fin 2
  /-- The offset in the active buffer where the next byte goes. -/
  written : Nat
  /-- The offset up to which `UART_RX_RDY` was raised. -/
  announced : Nat
  /-- The answer to the last `UART_RX_BUF_REQUEST`. -/
  next : Option (Fin 2)
  tx : Option Transmission
  transmitted : List UInt8
  received : List UInt8

inductive EchoEvent
  /-- A byte arrives and the receiver stores it. -/
  | byte (b : UInt8)
  /-- `UART_RX_RDY` for the next `n` bytes stored. -/
  | rxRdy (n : Nat)
  | rxBufRequest
  /-- The active buffer is full and announced: it is released, and the receiver goes on. -/
  | rxBufReleased
  /-- The transmitter reads and sends a byte. -/
  | txByte
  | txDone

namespace Echo

/-- `main`: `rx_buf_idx = 1`, and `uart_rx_enable` on `rx_buf[0]`. -/
def start (rxBuf : Fin 2 → Mem) : Echo := ⟨rxBuf, 1, 0, 0, 0, none, none, [], []⟩

def uartTx (s : Echo) (buf : Fin 2) (offset len : Nat) : Int × Echo :=
  match s.tx with
  | some _ => (ebusy, s)
  | none => (0, { s with tx := some ⟨buf, offset, len, 0⟩ })

/-- `UART_RX_BUF_REQUEST`: `rx_buf[rx_buf_idx]` is handed over, and the index toggled. -/
def uartRxBufRsp (s : Echo) : Echo :=
  { s with next := some s.rxBufIdx, rxBufIdx := if s.rxBufIdx ≠ 0 then 0 else 1 }

/-- `UART_RX_RDY` for `n` bytes: `uart_tx` on them, where they are. Its error is only printed. -/
def announce (s : Echo) (n : Nat) : Echo :=
  ({ s with announced := s.announced + n }.uartTx s.active s.announced n).2

/-- The receiver stores a byte. -/
def store (s : Echo) (b : UInt8) : Echo :=
  { s with
    rxBuf := Function.update s.rxBuf s.active ((s.rxBuf s.active).write s.written [b])
    written := s.written + 1
    received := s.received ++ [b] }

/-- The receiver goes on in another buffer. -/
def goOn (s : Echo) (buf : Fin 2) : Echo :=
  { s with active := buf, written := 0, announced := 0, next := none }

/-- There are `n` bytes to announce. -/
def Announces (s : Echo) (n : Nat) : Prop := 0 < n ∧ s.announced + n ≤ s.written

instance (s : Echo) (n : Nat) : Decidable (s.Announces n) := inferInstanceAs (Decidable (_ ∧ _))

/-- The buffer handed to the receiver, and the state after the event. -/
def step (s : Echo) : EchoEvent → Option (Fin 2) × Echo
  | .byte b => (none, if s.written < bufSize then s.store b else s)
  | .rxRdy n => (none, if s.Announces n then s.announce n else s)
  | .rxBufRequest => if s.next.isNone then (some s.rxBufIdx, s.uartRxBufRsp) else (none, s)
  | .rxBufReleased =>
    match s.next with
    | some buf => (none, if s.announced = bufSize then s.goOn buf else s)
    | none => (none, s)
  | .txByte =>
    match s.tx with
    | some t =>
      (none, if t.sent < t.len then
        { s with
          tx := some { t with sent := t.sent + 1 }
          transmitted := s.transmitted ++ [s.rxBuf t.buf (t.offset + t.sent)] }
      else s)
    | none => (none, s)
  | .txDone =>
    match s.tx with
    | some t => (none, if t.sent = t.len then { s with tx := none } else s)
    | none => (none, s)

/-- What the transmission in progress has still to send, as it is in memory. -/
def outstanding (s : Echo) : List UInt8 :=
  match s.tx with
  | some t => (s.rxBuf t.buf).slice (t.offset + t.sent) (t.len - t.sent)
  | none => []

/-- What was received but not announced, as it is in memory. -/
def unannounced (s : Echo) : List UInt8 :=
  (s.rxBuf s.active).slice s.announced (s.written - s.announced)

/-- The bytes transmitted, and those still to be, are the bytes received. -/
def Echoes (s : Echo) : Prop :=
  s.transmitted ++ s.outstanding ++ s.unannounced = s.received

instance (s : Echo) : Decidable s.Echoes := inferInstanceAs (Decidable (_ = _))

end Echo

abbrev EchoStep := Step Echo EchoEvent (Option (Fin 2))

/-- The echo is complete after the step, and the buffer handed over, if any, is not one that a
transmission reads from. -/
def Echoing (_ : List EchoStep) (st : EchoStep) : Prop :=
  st.after.Echoes ∧ ∀ buf, st.output = some buf → ∀ t, st.before.tx = some t → t.buf ≠ buf

/-- Nothing is announced while a transmission is in progress, and no buffer is asked for while one
is in progress from another buffer than the active one. -/
def Timely (_ : List EchoStep) (st : EchoStep) : Prop :=
  (∀ n, st.input = .rxRdy n → st.before.Announces n → st.before.tx = none) ∧
    (st.input = .rxBufRequest → st.before.next = none →
      ∀ t, st.before.tx = some t → t.buf = st.before.active)

variable {s : Echo} {h : List EchoStep} {t : Transmission} {n : Nat}

/-! ## The invariant -/

/-- What is transmitted lies behind what is written, in the active buffer or in the one that was
left; `rx_buf_idx` is the buffer that is neither active nor next, if there is one. -/
structure EchoInv (s : Echo) : Prop where
  announced : s.announced ≤ s.written
  written : s.written ≤ bufSize
  request : s.next = none → s.rxBufIdx ≠ s.active
  answered : ∀ buf, s.next = some buf → buf ≠ s.active ∧ s.rxBufIdx = s.active
  sent : ∀ t, s.tx = some t → t.sent ≤ t.len
  range : ∀ t, s.tx = some t → t.buf = s.active → t.offset + t.len ≤ s.announced
  left : ∀ t, s.tx = some t → t.buf ≠ s.active → s.next = none
  echoes : s.Echoes

theorem echoInv_start (rxBuf : Fin 2 → Mem) : EchoInv (.start rxBuf) where
  announced := le_rfl
  written := Nat.zero_le _
  request := fun _ => Fin.zero_ne_one.symm
  answered := fun _ hb => nomatch hb
  sent := fun _ ht => nomatch ht
  range := fun _ ht => nomatch ht
  left := fun _ ht => nomatch ht
  echoes := rfl

/-- A byte stored behind what is announced. -/
theorem EchoInv.store (hi : EchoInv s) (b : UInt8) (hroom : s.written < bufSize) :
    EchoInv (s.store b) := by
  have hsame : ∀ buf off n, (buf = s.active → off + n ≤ s.written) →
      ((s.store b).rxBuf buf).slice off n = (s.rxBuf buf).slice off n := by
    intro buf off n hle
    by_cases hb : buf = s.active
    · subst hb
      have hle := hle rfl
      change (Function.update s.rxBuf s.active _ s.active).slice off n = _
      rw [Function.update_self]
      exact Mem.slice_congr fun i hi => Mem.write_of_lt (by omega)
    · change (Function.update s.rxBuf s.active _ buf).slice off n = _
      rw [Function.update_of_ne hb]
  have hannounced := hi.announced
  refine ⟨Nat.le_succ_of_le hi.announced, hroom, hi.request, hi.answered, hi.sent, hi.range,
    hi.left, ?_⟩
  have houtstanding : (s.store b).outstanding = s.outstanding := by
    cases ht : s.tx with
    | none =>
      have ht' : (s.store b).tx = none := ht
      rw [Echo.outstanding, Echo.outstanding, ht, ht']
    | some t =>
      have ht' : (s.store b).tx = some t := ht
      rw [Echo.outstanding, Echo.outstanding, ht, ht']
      refine hsame _ _ _ fun hb => ?_
      have hsent := hi.sent t ht
      have hrange := hi.range t ht hb
      omega
  have hunannounced : (s.store b).unannounced = s.unannounced ++ [b] := by
    have hw := Mem.slice_write_append (s.rxBuf s.active) s.announced (s.written - s.announced) [b]
    rw [Nat.add_sub_cancel' hannounced] at hw
    change (Function.update s.rxBuf s.active _ s.active).slice s.announced
      (s.written + 1 - s.announced) = _
    rw [Function.update_self, Nat.succ_sub hannounced]
    exact hw
  have hechoes := hi.echoes
  rw [Echo.Echoes] at hechoes ⊢
  rw [houtstanding, hunannounced, ← List.append_assoc]
  exact congrArg (· ++ [b]) hechoes

/-- Bytes announced while nothing is transmitted. -/
theorem EchoInv.announce (hi : EchoInv s) (hn : s.Announces n) (htx : s.tx = none) :
    EchoInv (s.announce n) := by
  have hstate : s.announce n =
      { s with announced := s.announced + n, tx := some ⟨s.active, s.announced, n, 0⟩ } := by
    rw [Echo.announce, Echo.uartTx]
    dsimp only
    rw [htx]
  rw [hstate]
  refine ⟨hn.2, hi.written, hi.request, hi.answered, fun t ht => ?_, fun t ht _ => ?_,
    fun t ht hb => ?_, ?_⟩
  · cases ht
    exact Nat.zero_le _
  · cases ht
    exact le_rfl
  · cases ht
    exact absurd rfl hb
  · have hechoes := hi.echoes
    have hsplit : s.written - s.announced = n + (s.written - (s.announced + n)) := by
      have := hn.2
      omega
    rw [Echo.Echoes, Echo.outstanding, htx, List.append_nil, Echo.unannounced, hsplit,
      Mem.slice_add, ← List.append_assoc] at hechoes
    exact hechoes

/-- A buffer handed over: it is the one that is neither active nor transmitted from. -/
theorem EchoInv.uartRxBufRsp (hi : EchoInv s) (hnext : s.next = none)
    (htx : ∀ t, s.tx = some t → t.buf = s.active) : EchoInv s.uartRxBufRsp := by
  have htoggle : ∀ i j : Fin 2, i ≠ j → (if i ≠ 0 then 0 else 1) = j := by decide
  refine ⟨hi.announced, hi.written, fun hn => (nomatch hn), fun buf hb => ?_, hi.sent, hi.range,
    fun t ht hb => absurd (htx t ht) hb, hi.echoes⟩
  cases hb
  exact ⟨hi.request hnext, htoggle _ _ (hi.request hnext)⟩

/-- The receiver goes on when all of the active buffer is announced. -/
theorem EchoInv.goOn (hi : EchoInv s) {buf : Fin 2} (hnext : s.next = some buf)
    (hfull : s.announced = bufSize) : EchoInv (s.goOn buf) := by
  obtain ⟨hne, hidx⟩ := hi.answered buf hnext
  have htx : ∀ t, s.tx = some t → t.buf = s.active := by
    intro t ht
    by_contra hb
    have hnone := hi.left t ht hb
    rw [hnext] at hnone
    cases hnone
  refine ⟨le_rfl, Nat.zero_le _, fun _ => ?_, fun _ hb => (nomatch hb), hi.sent, fun t ht hb => ?_,
    fun _ _ _ => rfl, ?_⟩
  · rw [← hidx] at hne
    exact hne.symm
  · exact absurd (hb.symm.trans (htx t ht)) hne
  · have hechoes := hi.echoes
    have hzero : s.written - s.announced = 0 := by
      have := hi.written
      omega
    rw [Echo.Echoes, Echo.unannounced, hzero, Mem.slice_zero] at hechoes
    exact hechoes

/-- A byte read and sent. -/
theorem EchoInv.txByte (hi : EchoInv s) (ht : s.tx = some t) (hlt : t.sent < t.len) :
    EchoInv { s with
      tx := some { t with sent := t.sent + 1 }
      transmitted := s.transmitted ++ [s.rxBuf t.buf (t.offset + t.sent)] } := by
  refine ⟨hi.announced, hi.written, hi.request, hi.answered, fun t' ht' => ?_, fun t' ht' => ?_,
    fun t' ht' => ?_, ?_⟩
  · cases ht'
    exact hlt
  · cases ht'
    exact hi.range t ht
  · cases ht'
    exact hi.left t ht
  · have hechoes := hi.echoes
    have hsplit : t.len - t.sent = 1 + (t.len - (t.sent + 1)) := by omega
    rw [Echo.Echoes, Echo.outstanding, ht] at hechoes
    dsimp only at hechoes
    rw [hsplit, Mem.slice_add, ← List.append_assoc] at hechoes
    exact hechoes

theorem EchoInv.txDone (hi : EchoInv s) (ht : s.tx = some t) (hall : t.sent = t.len) :
    EchoInv { s with tx := none } := by
  refine ⟨hi.announced, hi.written, hi.request, hi.answered, fun _ ht' => (nomatch ht'),
    fun _ ht' => (nomatch ht'), fun _ ht' => (nomatch ht'), ?_⟩
  have hechoes := hi.echoes
  rw [Echo.Echoes, Echo.outstanding, ht] at hechoes
  dsimp only at hechoes
  rw [hall, Nat.sub_self, Mem.slice_zero] at hechoes
  exact hechoes

theorem echoInv_step (hi : EchoInv s) (e : EchoEvent) (ht : Timely h (stepOf Echo.step s e)) :
    EchoInv (s.step e).2 := by
  cases e with
  | byte b =>
    by_cases hroom : s.written < bufSize
    · rw [Echo.step, if_pos hroom]
      exact hi.store b hroom
    · rw [Echo.step, if_neg hroom]
      exact hi
  | rxRdy n =>
    by_cases hn : s.Announces n
    · rw [Echo.step, if_pos hn]
      exact hi.announce hn (ht.1 n rfl hn)
    · rw [Echo.step, if_neg hn]
      exact hi
  | rxBufRequest =>
    by_cases hnext : s.next.isNone
    · have hnone : s.next = none := Option.isNone_iff_eq_none.1 hnext
      rw [Echo.step, if_pos hnext]
      exact hi.uartRxBufRsp hnone (ht.2 rfl hnone)
    · rw [Echo.step, if_neg hnext]
      exact hi
  | rxBufReleased =>
    cases hnext : s.next with
    | some buf =>
      simp only [Echo.step, hnext]
      by_cases hfull : s.announced = bufSize
      · rw [if_pos hfull]
        exact hi.goOn hnext hfull
      · rw [if_neg hfull]
        exact hi
    | none =>
      simp only [Echo.step, hnext]
      exact hi
  | txByte =>
    cases htx : s.tx with
    | some t =>
      simp only [Echo.step, htx]
      by_cases hlt : t.sent < t.len
      · rw [if_pos hlt]
        exact hi.txByte htx hlt
      · rw [if_neg hlt]
        exact hi
    | none =>
      simp only [Echo.step, htx]
      exact hi
  | txDone =>
    cases htx : s.tx with
    | some t =>
      simp only [Echo.step, htx]
      by_cases hall : t.sent = t.len
      · rw [if_pos hall]
        exact hi.txDone htx hall
      · rw [if_neg hall]
        exact hi
    | none =>
      simp only [Echo.step, htx]
      exact hi

/-! ## Runs of the echo -/

/-- A buffer is handed over in answer to a request only. -/
theorem step_handed {e : EchoEvent} {buf : Fin 2} (hbuf : (s.step e).1 = some buf) :
    e = .rxBufRequest ∧ s.next = none ∧ buf = s.rxBufIdx := by
  cases e with
  | byte b => cases hbuf
  | rxRdy n => cases hbuf
  | rxBufRequest =>
    rw [Echo.step] at hbuf
    split at hbuf
    · rename_i hnext
      cases hbuf
      exact ⟨rfl, Option.isNone_iff_eq_none.1 hnext, rfl⟩
    · cases hbuf
  | rxBufReleased =>
    rw [Echo.step] at hbuf
    split at hbuf <;> cases hbuf
  | txByte =>
    rw [Echo.step] at hbuf
    split at hbuf <;> cases hbuf
  | txDone =>
    rw [Echo.step] at hbuf
    split at hbuf <;> cases hbuf

theorem echoing_of_timely (hi : EchoInv s) (e : EchoEvent)
    (ht : Timely h (stepOf Echo.step s e)) : Echoing h (stepOf Echo.step s e) := by
  refine ⟨(echoInv_step hi e ht).echoes, fun buf hbuf t htx => ?_⟩
  obtain ⟨rfl, hnone, rfl⟩ := step_handed hbuf
  rw [ht.2 rfl hnone t htx]
  exact (hi.request hnone).symm

/-- What is announced while a transmission is in progress is lost. -/
theorem not_echoes_of_busy (hi : EchoInv s) (hn : s.Announces n) (ht : s.tx = some t) :
    ¬ (s.announce n).Echoes := by
  intro hafter
  have hstate : s.announce n = { s with announced := s.announced + n } := by
    rw [Echo.announce, Echo.uartTx]
    dsimp only
    rw [ht]
  have hbefore := congrArg List.length hi.echoes
  rw [hstate] at hafter
  have hafter := congrArg List.length hafter
  rw [Echo.unannounced, List.length_append, Mem.length_slice] at hbefore hafter
  have hlost : s.written - (s.announced + n) + n = s.written - s.announced := by
    have := hn.2
    omega
  have hsame : ({ s with announced := s.announced + n } : Echo).outstanding = s.outstanding := rfl
  have hpos := hn.1
  rw [hsame] at hafter
  dsimp only at hafter
  omega

theorem timely_of_echoing (hi : EchoInv s) (e : EchoEvent)
    (he : Echoing h (stepOf Echo.step s e)) : Timely h (stepOf Echo.step s e) := by
  constructor
  · rintro n rfl hn
    by_contra hbusy
    obtain ⟨t, ht⟩ := Option.ne_none_iff_exists'.1 hbusy
    have hstep : (s.step (.rxRdy n)).2 = s.announce n := if_pos hn
    have hafter : (s.step (.rxRdy n)).2.Echoes := he.1
    rw [hstep] at hafter
    exact not_echoes_of_busy hi hn ht hafter
  · rintro rfl hnext t ht
    have hother : ∀ i j k : Fin 2, i ≠ k → j ≠ k → i = j := by decide
    have hnone : s.next = none := hnext
    have hstep : s.step .rxBufRequest = (some s.rxBufIdx, s.uartRxBufRsp) :=
      if_pos (Option.isNone_iff_eq_none.2 hnone)
    have hout : (s.step .rxBufRequest).1 = some s.rxBufIdx := congrArg Prod.fst hstep
    exact hother _ _ _ (he.2 _ hout t ht) (hi.request hnone).symm

theorem run_echoInv {rxBuf : Fin 2 → Mem} (hr : Run Echo.step (.start rxBuf) h s)
    (ht : Always Timely h) : EchoInv s :=
  hr.invariant_of_always (P := fun _ s => EchoInv s) ht (echoInv_start rxBuf)
    fun _ _ e _ hi htimely => echoInv_step hi e htimely

/-- Once all is announced and nothing is transmitted, what was received has been sent back. -/
theorem transmitted_eq_received (he : s.Echoes) (htx : s.tx = none)
    (hall : s.announced = s.written) : s.transmitted = s.received := by
  rw [Echo.Echoes, Echo.outstanding, Echo.unannounced, htx, hall, Nat.sub_self, Mem.slice_zero,
    List.append_nil, List.append_nil] at he
  exact he

/-- **The echo.** In every run, over all bytes and every order of the events of the receiver and the
transmitter: after each step the bytes transmitted or in transmission are the bytes received and
announced, and no buffer is handed over while it is transmitted from, exactly when each step is
timely. -/
theorem echoes_iff {rxBuf : Fin 2 → Mem} (hr : Run Echo.step (.start rxBuf) h s) :
    Always Echoing h ↔ Always Timely h :=
  (hr.always_iff fun _ _ e hr ht =>
    ⟨echoing_of_timely (run_echoInv hr ht) e, timely_of_echoing (run_echoInv hr ht) e⟩).symm

/-- A buffer handed over, a byte echoed, and another one announced. -/
theorem echoes_iff_two : Always Echoing (exec Echo.step (.start fun _ _ => 0)
    [.rxBufRequest, .byte 0x61, .rxRdy 1, .txByte, .txDone, .byte 0x62, .rxRdy 1]).1 := by
  have hquiet : ∀ {h : List EchoStep} {s : Echo} {e : EchoEvent},
      (∀ n, e ≠ .rxRdy n) → e ≠ .rxBufRequest → Timely h (stepOf Echo.step s e) :=
    fun hrdy hrequest => ⟨fun n he => absurd he (hrdy n), fun he => absurd he hrequest⟩
  refine (echoes_iff (run_exec _ _ _)).2 ⟨?_, ?_, ?_, ?_, ?_, ?_, ?_, trivial⟩
  · exact ⟨fun _ _ _ => rfl, fun he => nomatch he⟩
  · exact hquiet (by simp) (by simp)
  · exact hquiet (by simp) (by simp)
  · exact hquiet (by simp) (by simp)
  · exact ⟨fun _ _ _ => rfl, fun he => nomatch he⟩
  · exact hquiet (by simp) (by simp)
  · exact ⟨fun _ he => (nomatch he), fun _ _ _ ht => (nomatch ht)⟩

/-- The second of two bytes is announced before the first is sent: it is never transmitted. -/
theorem not_echoing : ∃ h s, Run Echo.step (.start fun _ _ => 0) h s ∧
    s.received = [0x61, 0x62] ∧ s.transmitted = [0x61] ∧ s.tx.isNone = true ∧
    ¬ Always Echoing h := by
  have hr := run_exec Echo.step (.start fun _ _ => 0)
    [.rxBufRequest, .byte 0x61, .rxRdy 1, .byte 0x62, .rxRdy 1, .txByte, .txDone]
  refine ⟨_, _, hr, by decide, by decide, by decide, fun he => ?_⟩
  exact absurd he.1.1 (by decide)

end ZephyrStm32.UartEcho
