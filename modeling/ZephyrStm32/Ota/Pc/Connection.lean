import ZephyrStm32.Lib.Run
import ZephyrStm32.Ota.Pc.Stream

/-!
# The connection and its reading thread: `serial/port.rs`, `serial/mod.rs` and `serial_cmd.rs`

A thread reads the port, decodes, and sends the frames one by one into a channel; `recv_frame`
takes them out. Connecting replaces the connection, with its thread, its decoder and its channel.

**Theorem (`received_is_scan`).** Whatever is read, connected and received, in any order: the frames
received since the last connect are the first ones of one scan of the bytes read since, whatever
was read before; and when the connection is found closed, they are all of them.
-/

namespace ZephyrStm32.Ota.Pc

open Machine
open FrameDecoder (Waiting)

structure SerialConnection where
  decoder : FrameDecoder
  /-- What the thread has decoded and not sent into the channel yet. -/
  frames : List Frame
  /-- The thread runs. -/
  reading : Bool
  frameRx : List Frame

/-- What `port_clone.read` gives. -/
inductive PortRead
  | ok (bytes : List UInt8)
  | timedOut
  | failed
  deriving DecidableEq, Repr

namespace SerialConnection

/-- A port that could be opened. -/
def opened : SerialConnection := ⟨.new, [], true, []⟩

/-- The thread is at its next read. -/
def atRead (c : SerialConnection) : Bool := c.reading && c.frames.isEmpty

/-- One round of the thread's loop, up to the first `send`. -/
def read (c : SerialConnection) : PortRead → SerialConnection
  | .ok bytes =>
    if 0 < bytes.length then
      let r := c.decoder.feed bytes
      { c with decoder := r.2, frames := r.1 }
    else c
  | .timedOut => c
  | .failed => { c with reading := false }

/-- `tx_clone.send(frame)`. The receiver is there as long as the connection is. -/
def send (c : SerialConnection) : SerialConnection :=
  match c.frames with
  | [] => c
  | f :: frames => { c with frames := frames, frameRx := c.frameRx ++ [f] }

/-- `recv_frame`, at the end of its wait. -/
def recvFrame (c : SerialConnection) : Except String Frame × SerialConnection :=
  match c.frameRx with
  | f :: frameRx => (.ok f, { c with frameRx := frameRx })
  | [] => (.error (if c.reading then "Receive timeout" else "Serial connection closed"), c)

end SerialConnection

/-- `conn` of the manager. -/
abbrev SerialManager := Option SerialConnection

inductive SerialEvent
  /-- `connect_serial`, with what `SerialConnection::open` gives. -/
  | connect (result : Except String Unit)
  | disconnect
  | read (r : PortRead)
  | send
  /-- `with_conn(|c| c.recv_frame(timeout))` -/
  | recvFrame

namespace SerialManager

/-- The result of a `recv_frame`, and the manager after the event. -/
def step (m : SerialManager) : SerialEvent → Option (Except String Frame) × SerialManager
  | .connect (.ok ()) => (none, some .opened)
  | .connect (.error _) => (none, none)
  | .disconnect => (none, none)
  | .read r => (none, m.map fun c => if c.atRead then c.read r else c)
  | .send => (none, m.map (·.send))
  | .recvFrame =>
    match m with
    | some c => (some c.recvFrame.1, some c.recvFrame.2)
    | none => (some (.error "Serial port not connected"), none)

end SerialManager

abbrev SerialStep := Step SerialManager SerialEvent (Option (Except String Frame))

/-- The bytes read since the last `connect_serial`; the latest step comes first. -/
def bytesRead : List SerialStep → List UInt8
  | [] => []
  | st :: h =>
    match st.input with
    | .connect _ => []
    | .read (.ok bytes) =>
      if st.before.any (·.atRead) then bytesRead h ++ bytes else bytesRead h
    | _ => bytesRead h

/-- The frames received since. -/
def received : List SerialStep → List Frame
  | [] => []
  | st :: h =>
    match st.input, st.output with
    | .connect _, _ => []
    | _, some (.ok f) => received h ++ [f]
    | _, _ => received h

/-! ## The invariant -/

variable {h : List SerialStep} {c : SerialConnection} {m : SerialManager}

/-- What was received, is in the channel, waits for it, and will be decoded, is one scan. -/
structure SerialConnection.Faithful (c : SerialConnection) (bytes : List UInt8)
    (frames : List Frame) : Prop where
  waiting : Waiting c.decoder
  scan : ∀ more, referenceScan (bytes ++ more) =
    frames ++ c.frameRx ++ c.frames ++ referenceScan (c.decoder.buf ++ more)
  ended : c.reading = false → c.frames = []

theorem faithful_opened : SerialConnection.opened.Faithful [] [] :=
  ⟨FrameDecoder.waiting_new, fun _ => rfl, fun h => by cases h⟩

namespace SerialConnection

variable {bytes : List UInt8} {frames : List Frame}

theorem Faithful.scan_now (h : c.Faithful bytes frames) :
    referenceScan bytes = frames ++ c.frameRx ++ c.frames := by
  have hscan := h.scan []
  have hnone : referenceScan c.decoder.buf = [] := by
    rw [referenceScan, scan_none h.waiting.2]
  rwa [List.append_nil, List.append_nil, hnone, List.append_nil] at hscan

theorem Faithful.begins (h : c.Faithful bytes frames) : frames <+: referenceScan bytes := by
  rw [h.scan_now, List.append_assoc]
  exact List.prefix_append _ _

/-- The bytes of a read go through the decoder. -/
theorem Faithful.read_ok (h : c.Faithful bytes frames) (hat : c.atRead = true)
    (chunk : List UInt8) : (c.read (.ok chunk)).Faithful (bytes ++ chunk) frames := by
  obtain ⟨hreading, hempty⟩ := Bool.and_eq_true_iff.1 hat
  have hframes : c.frames = [] := List.isEmpty_iff.1 hempty
  rw [SerialConnection.read]
  split
  · refine ⟨FrameDecoder.decodes.inv h.waiting chunk, fun more => ?_, fun hr => ?_⟩
    · have hscan := h.scan (chunk ++ more)
      have hfeed : referenceScan (c.decoder.buf ++ chunk ++ more) =
          (c.decoder.feed chunk).1 ++ referenceScan ((c.decoder.feed chunk).2.buf ++ more) :=
        FrameDecoder.decodes.items h.waiting chunk more
      rw [hframes, List.append_nil, ← List.append_assoc, ← List.append_assoc, hfeed] at hscan
      rw [hscan, List.append_assoc _ (c.decoder.feed chunk).1]
    · rw [hreading] at hr
      cases hr
  · rename_i hlen
    obtain rfl := List.eq_nil_of_length_eq_zero (Nat.eq_zero_of_not_pos hlen)
    rwa [List.append_nil]

theorem Faithful.failed (h : c.Faithful bytes frames) (hat : c.atRead = true) :
    (c.read .failed).Faithful bytes frames :=
  ⟨h.waiting, h.scan, fun _ => List.isEmpty_iff.1 (Bool.and_eq_true_iff.1 hat).2⟩

theorem Faithful.send (h : c.Faithful bytes frames) : c.send.Faithful bytes frames := by
  unfold SerialConnection.send
  split
  · exact h
  · rename_i f rest hframes
    refine ⟨h.waiting, fun more => ?_, fun hr => ?_⟩
    · rw [h.scan more, hframes, List.append_cons, ← List.append_assoc]
    · rw [h.ended hr] at hframes
      cases hframes

theorem Faithful.recvFrame_ok (h : c.Faithful bytes frames) {f : Frame}
    (hf : c.recvFrame.1 = .ok f) : c.recvFrame.2.Faithful bytes (frames ++ [f]) := by
  unfold SerialConnection.recvFrame at hf ⊢
  split at hf
  · rename_i f' rest hrx
    obtain rfl := Except.ok.inj hf
    refine ⟨h.waiting, fun more => ?_, h.ended⟩
    rw [h.scan more, hrx, List.append_cons]
  · cases hf

theorem recvFrame_error {e : String} (he : c.recvFrame.1 = .error e) : c.recvFrame.2 = c := by
  unfold SerialConnection.recvFrame at he ⊢
  split at he
  · cases he
  · rfl

/-- The connection is found closed when the thread has ended and the channel is empty. -/
theorem closed_of_recvFrame (he : c.recvFrame.1 = .error "Serial connection closed") :
    c.reading = false ∧ c.frameRx = [] := by
  unfold SerialConnection.recvFrame at he
  split at he
  · cases he
  · rename_i hrx
    refine ⟨?_, hrx⟩
    by_contra hr
    rw [if_pos (Bool.not_eq_false _ ▸ hr)] at he
    exact absurd (Except.error.inj he) (by decide)

end SerialConnection

/-- What every run keeps. -/
structure SerialInv (h : List SerialStep) (m : SerialManager) : Prop where
  begins : received h <+: referenceScan (bytesRead h)
  faithful : ∀ c, m = some c → c.Faithful (bytesRead h) (received h)

theorem SerialInv.of_faithful (hc : c.Faithful (bytesRead h) (received h)) :
    SerialInv h (some c) :=
  ⟨hc.begins, fun _ he => Option.some.inj he ▸ hc⟩

/-- What a round of the thread adds. -/
theorem bytesRead_read (bytes : List UInt8) :
    bytesRead (stepOf SerialManager.step (some c) (.read (.ok bytes)) :: h) =
      if c.atRead then bytesRead h ++ bytes else bytesRead h := rfl

theorem received_read (r : PortRead) :
    received (stepOf SerialManager.step (some c) (.read r) :: h) = received h := rfl

theorem received_recvFrame : received (stepOf SerialManager.step (some c) .recvFrame :: h) =
    received h ++ c.recvFrame.1.toOption.toList := by
  rw [received, stepOf_input, stepOf_output, SerialManager.step]
  cases c.recvFrame.1 <;> simp [Except.toOption]

theorem serialInv_read (hi : SerialInv h (some c)) (r : PortRead) :
    SerialInv (stepOf SerialManager.step (some c) (.read r) :: h)
      (SerialManager.step (some c) (.read r)).2 := by
  have hc := hi.faithful c rfl
  have hstep : (SerialManager.step (some c) (.read r)).2 =
      some (if c.atRead then c.read r else c) := rfl
  rw [hstep]
  apply SerialInv.of_faithful
  rw [received_read]
  cases hat : c.atRead with
  | false =>
    cases r with
    | ok bytes =>
      rw [bytesRead_read, hat]
      exact hc
    | _ => exact hc
  | true =>
    cases r with
    | ok bytes =>
      rw [bytesRead_read, hat]
      exact hc.read_ok hat bytes
    | timedOut => exact hc
    | failed => exact hc.failed hat

theorem serialInv_recvFrame (hi : SerialInv h (some c)) :
    SerialInv (stepOf SerialManager.step (some c) .recvFrame :: h)
      (SerialManager.step (some c) .recvFrame).2 := by
  have hc := hi.faithful c rfl
  have hstep : (SerialManager.step (some c) .recvFrame).2 = some c.recvFrame.2 := rfl
  rw [hstep]
  apply SerialInv.of_faithful
  rw [received_recvFrame]
  cases hr : c.recvFrame.1 with
  | ok f => exact hc.recvFrame_ok hr
  | error e =>
    rw [SerialConnection.recvFrame_error hr]
    exact (List.append_nil (received h)).symm ▸ hc

theorem serialInv_step (hi : SerialInv h m) (e : SerialEvent) :
    SerialInv (stepOf SerialManager.step m e :: h) (SerialManager.step m e).2 := by
  cases e with
  | connect result =>
    cases result with
    | ok _ => exact SerialInv.of_faithful faithful_opened
    | error e => exact ⟨List.nil_prefix, fun c hc => by cases hc⟩
  | disconnect => exact ⟨hi.begins, fun c hc => by cases hc⟩
  | send =>
    cases m with
    | none => exact ⟨hi.begins, fun c hc => by cases hc⟩
    | some c => exact SerialInv.of_faithful (hi.faithful c rfl).send
  | read r =>
    cases m with
    | none =>
      cases r with
      | ok bytes => exact ⟨hi.begins, fun c hc => by cases hc⟩
      | _ => exact ⟨hi.begins, fun c hc => by cases hc⟩
    | some c => exact serialInv_read hi r
  | recvFrame =>
    cases m with
    | none => exact ⟨hi.begins, fun c hc => by cases hc⟩
    | some c => exact serialInv_recvFrame hi

/-- When the connection is found closed, everything decoded has been received. -/
theorem received_all (hi : SerialInv h m) {e : SerialEvent}
    (hclosed : (SerialManager.step m e).1 = some (.error "Serial connection closed")) :
    received (stepOf SerialManager.step m e :: h) =
      referenceScan (bytesRead (stepOf SerialManager.step m e :: h)) := by
  cases e with
  | recvFrame =>
    cases m with
    | none => exact absurd (Except.error.inj (Option.some.inj hclosed)) (by decide)
    | some c =>
      have herror : c.recvFrame.1 = .error "Serial connection closed" := Option.some.inj hclosed
      obtain ⟨hended, hempty⟩ := SerialConnection.closed_of_recvFrame herror
      have hc := hi.faithful c rfl
      have hscan := hc.scan_now
      rw [hempty, hc.ended hended, List.append_nil, List.append_nil] at hscan
      rw [received_recvFrame, herror]
      exact (List.append_nil _).trans hscan.symm
  | connect result =>
    cases result with
    | ok _ => cases hclosed
    | error e => cases hclosed
  | _ => cases hclosed

/-- **The frames received are those of one scan**, from the first byte after the last connect on. -/
theorem received_is_scan (hr : Run SerialManager.step none h m) :
    received h <+: referenceScan (bytesRead h) ∧
      ∀ st before, h = st :: before → st.output = some (.error "Serial connection closed") →
        received h = referenceScan (bytesRead h) := by
  have hinv : SerialInv h m ∧ ∀ st before, h = st :: before →
      st.output = some (.error "Serial connection closed") →
        received h = referenceScan (bytesRead h) := by
    refine hr.invariant (P := fun h m => SerialInv h m ∧ ∀ st before, h = st :: before →
      st.output = some (.error "Serial connection closed") →
        received h = referenceScan (bytesRead h)) ?_ ?_
    · exact ⟨⟨List.nil_prefix, fun c hc => by cases hc⟩, fun st before he => by cases he⟩
    · rintro h m e - ⟨hi, -⟩
      refine ⟨serialInv_step hi e, ?_⟩
      rintro st before he hclosed
      obtain ⟨rfl, rfl⟩ := List.cons.inj he
      exact received_all hi hclosed
  exact ⟨hinv.1.begins, hinv.2⟩

/-- A frame is read in two pieces, the port fails, and the user receives twice. -/
def unplugged : List SerialEvent :=
  let bytes := (⟨7, 0x20, 0x10, 1, 0, 1, [0]⟩ : Frame).toBytes
  [.connect (.ok ()), .read (.ok (bytes.take 9)), .read (.ok (bytes.drop 9)), .send, .read .failed,
    .recvFrame, .recvFrame]

/-- The frame is received before the connection is found closed. -/
theorem received_is_scan_unplugged :
    received (exec SerialManager.step none unplugged).1 =
      referenceScan (bytesRead (exec SerialManager.step none unplugged).1) :=
  (received_is_scan (run_exec SerialManager.step none unplugged)).2 _ _ rfl rfl

end ZephyrStm32.Ota.Pc
