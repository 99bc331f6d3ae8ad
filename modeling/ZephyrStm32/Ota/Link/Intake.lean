import ZephyrStm32.Ota.Device.Dma
import ZephyrStm32.Ota.Link.Reassembly

/-!
# Requests through the driver

`Reassembly` hands `uart_cb` the bytes by value. In the source they are in `rx_buf` already, where
the driver has stored them, and a byte that comes later may have been stored over them (`Dma`).

`run_uart`: as long as the driver has room for each byte and stores none in `rx_buf[0 .. rx_len)`,
the frames still get through. After any events of the driver and any calls of `ota_process_rx`, some
frames have been passed on, and the content with the bytes not announced yet is what arrived of the
others.
-/

namespace ZephyrStm32.Ota.Link

open Framing Machine
open Pc (Frame)

/-- The bytes that arrive. -/
def arriving : List UartEvent → List UInt8
  | [] => []
  | .byte b :: events => b :: arriving events
  | _ :: events => arriving events

/-- The driver has room for each byte, and stores none of them in the content. -/
def Admits : Uart → List UartEvent → Prop
  | _, [] => True
  | u, e :: events =>
    (∀ b, e = .byte b → u.Stores) ∧ Clear (stepOf Uart.step u e) ∧ Admits (u.step e).2 events

/-- What has arrived and is not consumed. -/
def waiting (u : Uart) : List UInt8 := u.rx.content ++ u.pending

variable {u : Uart} {e : UartEvent} {events : List UartEvent} {es : List (List UInt8)}
  {fs : List Frame} {stack : Nat → OtaFrame}

theorem arriving_append (events events' : List UartEvent) :
    arriving (events ++ events') = arriving events ++ arriving events' := by
  induction events with
  | nil => rfl
  | cons e events ih =>
    cases e with
    | byte b => exact congrArg (b :: ·) ih
    | _ => exact ih

theorem admits_append {events' : List UartEvent} :
    Admits u (events ++ events') ↔ Admits u events ∧ Admits (final Uart.step u events) events' := by
  induction events generalizing u with
  | nil => exact (and_iff_right trivial).symm
  | cons e events ih =>
    change _ ∧ _ ∧ Admits _ (events ++ events') ↔ (_ ∧ _ ∧ _) ∧ _
    rw [ih, and_assoc, and_assoc]
    rfl

/-- The bytes stored so far are those consumed and those that wait. -/
theorem stored_split (hi : UartInv u) : u.consumed ++ waiting u = u.received ++ u.pending := by
  rw [waiting, ← List.append_assoc, hi.intact]

/-- What the driver does to the bytes stored. -/
theorem stored_step (u : Uart) (hroom : ∀ b, e = .byte b → u.Stores) :
    (u.step e).2.received ++ (u.step e).2.pending = u.received ++ u.pending ++ arriving [e] := by
  cases e with
  | byte b =>
    rw [Uart.step, if_pos (hroom b rfl)]
    exact (List.append_assoc _ _ _).symm
  | rxRdy n =>
    rw [Uart.step]
    change _ = _ ++ []
    split
    · change u.received ++ u.pending.take n ++ u.pending.drop n = _
      rw [List.append_assoc, List.take_append_drop, List.append_nil]
    · rw [List.append_nil]
  | rxBufRequest =>
    rw [Uart.step]
    change _ = _ ++ []
    rw [List.append_nil]
    split <;> rfl
  | rxBufReleased =>
    rw [Uart.step]
    change _ = _ ++ []
    split
    · rw [List.append_nil]
      split <;> rfl
    · rw [List.append_nil]
  | process stack => exact (List.append_nil _).symm

/-- Only `ota_process_rx` passes frames on and consumes. -/
theorem driver_step (u : Uart) (he : ∀ stack, e ≠ .process stack) :
    (u.step e).1 = [] ∧ (u.step e).2.consumed = u.consumed := by
  cases e with
  | byte b =>
    rw [Uart.step]
    split <;> exact ⟨rfl, rfl⟩
  | rxRdy n =>
    rw [Uart.step]
    split <;> exact ⟨rfl, rfl⟩
  | rxBufRequest =>
    rw [Uart.step]
    split <;> exact ⟨rfl, rfl⟩
  | rxBufReleased =>
    rw [Uart.step]
    split
    · split <;> exact ⟨rfl, rfl⟩
    · exact ⟨rfl, rfl⟩
  | process stack => exact absurd rfl (he stack)

/-- The driver only adds what arrives. -/
theorem waiting_driver (hi : UartInv u) (hroom : ∀ b, e = .byte b → u.Stores)
    (hclear : Clear (stepOf Uart.step u e)) (he : ∀ stack, e ≠ .process stack) :
    waiting (u.step e).2 = waiting u ++ arriving [e] := by
  have hafter := stored_split (uartInv_step hi e hclear)
  rw [(driver_step u he).2, stored_step u hroom, ← stored_split hi, List.append_assoc] at hafter
  exact List.append_cancel_left hafter

/-- **A run**, by induction on the events. -/
theorem run_uart (hs : Sendable es fs) (hi : UartInv u) (ht : Admits u events)
    (hp : waiting u ++ arriving events <+: es.flatten) :
    UartInv (final Uart.step u events) ∧ ∃ k ≤ es.length,
      List.Forall₂ Shows (outputs Uart.step u events).flatten (fs.take k) ∧
      waiting u ++ arriving events =
        (es.take k).flatten ++ waiting (final Uart.step u events) := by
  induction events generalizing u es fs with
  | nil => exact ⟨hi, 0, Nat.zero_le _, .nil, List.append_nil _⟩
  | cons e events ih =>
    obtain ⟨hroom, hclear, ht⟩ := ht
    have hi' := uartInv_step hi e hclear
    by_cases he : ∀ stack, e ≠ .process stack
    · have hsplit : waiting u ++ arriving (e :: events) =
          waiting (u.step e).2 ++ arriving events := by
        rw [waiting_driver hi hroom hclear he, List.append_assoc, ← arriving_append]
        rfl
      rw [hsplit] at hp ⊢
      rw [outputs_cons, (driver_step u he).1]
      exact ih hs hi' ht hp
    · obtain ⟨stack, rfl⟩ : ∃ stack, e = .process stack := by simpa using he
      have hfront : u.rx.content <+: es.flatten := by
        rw [waiting, List.append_assoc] at hp
        exact (List.prefix_append _ _).trans hp
      obtain ⟨hframes, hcontent⟩ := otaProcessRx_stream stack hs hfront
      obtain ⟨hsplit, -⟩ := eq_complete_append hfront
      have hle := complete_le_length es u.rx.content.length
      generalize complete es u.rx.content.length = c at hframes hsplit hle
      rw [← hcontent] at hsplit
      have hrest : waiting u ++ arriving (.process stack :: events) =
          (es.take c).flatten ++ (waiting (u.consume stack) ++ arriving events) := by
        rw [waiting, hsplit, List.append_assoc, List.append_assoc, waiting, List.append_assoc]
        rfl
      rw [hrest] at hp ⊢
      obtain ⟨hfinal, k, hk, hshows, heq⟩ := ih (hs.drop c) hi' ht (prefix_drop hp)
      rw [List.length_drop] at hk
      refine ⟨hfinal, c + k, by omega, ?_, ?_⟩
      · rw [List.take_add]
        exact List.rel_append hframes hshows
      · rw [List.take_add, List.flatten_append, List.append_assoc]
        exact congrArg _ heq

/-! ## A request in an empty buffer -/

/-- The calls of the driver and of `ota_process_rx` while one request arrives, and a call behind its
last byte: it is passed on, alone, and nothing is left of it. -/
theorem outputs_request {f : Frame} (stack : Nat → OtaFrame) (hi : UartInv u)
    (hlen : u.rx.len = 0) (hp : u.pending = []) (hf : f.wireLen ≤ rxBufSize)
    (ht : Admits u events) (hbytes : arriving events = f.toBytes)
    (hdone : (final Uart.step u events).pending = []) :
    ∃ g, Shows g f ∧ (outputs Uart.step u (events ++ [.process stack])).flatten = [g] ∧
      UartInv (final Uart.step u (events ++ [.process stack])) ∧
      (final Uart.step u (events ++ [.process stack])).rx.len = 0 ∧
      (final Uart.step u (events ++ [.process stack])).pending = [] := by
  have hs : Sendable [f.toBytes] [f] := by
    have hwire := Frame.length_toBytes f
    refine ⟨.cons (encodes_toBytes ?_) .nil, ?_⟩
    · rw [Frame.wireLen, rxBufSize] at hf
      omega
    · simpa [hwire] using hf.trans (by decide : rxBufSize ≤ 65535)
  have hcontent (u : Uart) : u.rx.content.length = u.rx.len := Mem.length_slice _ _ _
  have hnothing : waiting u = [] := by
    rw [waiting, hp, List.append_nil, ← List.length_eq_zero_iff, hcontent, hlen]
  -- The call behind the last byte is one more event, and all of the request has arrived.
  have hcalls : Admits u (events ++ [.process stack]) := by
    refine admits_append.2 ⟨ht, fun b hb => ?_, clear_of_ne (by simp), trivial⟩
    cases hb
  obtain ⟨hinv, j, hj, hshows, hsplit⟩ := run_uart hs hi ht (by rw [hnothing, hbytes]; simp)
  rw [hnothing, hbytes, waiting, hdone, List.append_nil, List.nil_append] at hsplit
  generalize hu : final Uart.step u events = u' at hinv hsplit hdone
  have hfinal : final Uart.step u (events ++ [.process stack]) = u'.consume stack := by
    rw [final_append, hu]
    rfl
  have hinv' : UartInv (u'.consume stack) := hinv.consume stack
  rw [hfinal, outputs_append, hu, List.flatten_append, ← hcontent]
  change ∃ g, _ ∧ _ ++ ((otaProcessRx stack u'.rx).1 ++ []) = _ ∧ _ ∧
    (otaProcessRx stack u'.rx).2.content.length = 0 ∧ u'.pending = []
  rw [List.append_nil]
  have hfirst : u'.rx.content <+: ([f.toBytes].drop j).flatten := by
    refine prefix_drop ?_
    rw [← hsplit]
    simp
  obtain ⟨hpassed, hrest⟩ := otaProcessRx_stream stack (hs.drop j) hfirst
  rw [hrest]
  obtain rfl | rfl := Nat.le_one_iff_eq_zero_or_eq_one.1 hj
  · have hrx : u'.rx.content = f.toBytes := hsplit.symm
    rw [hrx] at hpassed ⊢
    change List.Forall₂ Shows _ (List.take (complete [f.toBytes] _) [f]) at hpassed
    change ∃ g, _ ∧ _ ∧ _ ∧ (List.drop (consumed [f.toBytes] _) _).length = 0 ∧ _
    rw [complete_cons_of_le le_rfl, complete] at hpassed
    rw [consumed_cons_of_le le_rfl]
    obtain ⟨g, gs, hg, hnil, heq⟩ := List.forall₂_cons_right_iff.1 hpassed
    obtain rfl := List.forall₂_nil_right_iff.1 hnil
    have hbefore := List.forall₂_nil_right_iff.1 hshows
    refine ⟨g, hg, by rw [hbefore, heq]; rfl, hinv', ?_, hdone⟩
    simp
  · obtain ⟨g, gs, hg, hnil, heq⟩ := List.forall₂_cons_right_iff.1 hshows
    obtain rfl := List.forall₂_nil_right_iff.1 hnil
    have hrx : u'.rx.content = [] := by
      have hlength := congrArg List.length hsplit
      simpa using hlength
    obtain hpassed := List.forall₂_nil_right_iff.1 hpassed
    refine ⟨g, hg, by rw [hpassed, heq]; rfl, hinv', ?_, hdone⟩
    rw [hrx]
    simp

/-! ## While the first buffer lasts -/

end ZephyrStm32.Ota.Link
