import ZephyrStm32.Ota.Device.Answers

/-!
# One response for each addressed request

**Theorem (`one_response`).** A frame addressed to the device is answered exactly once, with its
own sequence number and command code and before any reboot; any other frame is dropped without a
trace. It holds of every branch of every handler (`Handles.answersOnce`): the only events in front
of a response are flash operations, and behind it are only the delay and the reboot.
-/

namespace ZephyrStm32.Ota

/-- A call of `ota_send_response`. -/
def Event.IsSend : Event → Prop
  | .send .. => True
  | _ => False

/-- Among the events is exactly one response, to the request `(seq, cmd)`, and no reboot is in
front of it. -/
def AnswersOnce (seq cmd : UInt16) (es : List Event) : Prop :=
  ∃ before payload after, es = before ++ .send seq cmd payload :: after ∧
    (∀ e ∈ before, ¬ e.IsSend ∧ e ≠ .reboot) ∧ ∀ e ∈ after, ¬ e.IsSend

variable {z : Zephyr} {fl : FlashCalls} {d : Dev} {f : OtaFrame} {r : Handled}

/-! ## The three shapes of a handler's events -/

section

variable (seq cmd : UInt16) (payload : List UInt8)

/-- A response alone. -/
theorem answersOnce_send : AnswersOnce seq cmd [.send seq cmd payload] := by
  refine ⟨[], payload, [], rfl, ?_, ?_⟩ <;> intro e he <;> cases he

/-- A response behind flash operations. -/
theorem answersOnce_flash {es : List Event} (h : ∀ e ∈ es, ∃ op, e = .flash op) :
    AnswersOnce seq cmd (es ++ [.send seq cmd payload]) := by
  refine ⟨es, payload, [], rfl, ?_, ?_⟩
  · intro e he
    obtain ⟨op, rfl⟩ := h e he
    exact ⟨id, by simp⟩
  · intro e he
    cases he

/-- A response in front of the delay and the reboot. -/
theorem answersOnce_reset (ms : UInt16) :
    AnswersOnce seq cmd [.send seq cmd payload, .msleep ms, .reboot] := by
  refine ⟨[], payload, [.msleep ms, .reboot], rfl, ?_, ?_⟩
  · intro e he
    cases he
  · intro e he
    simp only [List.mem_cons, List.not_mem_nil, or_false] at he
    rcases he with rfl | rfl <;> exact id

end

theorem verifyRun_flash : ∀ e ∈ (verifyRun z fl d).1, ∃ op, e = .flash op := by
  intro e he
  obtain ⟨off, len, rfl⟩ := verifyRun_reads e he
  exact ⟨_, rfl⟩

/-- A single flash operation. -/
theorem flash_of_mem_singleton (op : FlashOp) : ∀ e ∈ [Event.flash op], ∃ op, e = .flash op := by
  intro e he
  exact ⟨op, List.mem_singleton.1 he⟩

/-! ## Every branch -/

theorem Handles.answersOnce (h : Handles z fl d f r) (ha : f.Addressed) :
    AnswersOnce f.seq f.cmd r.1 := by
  cases h with
  | ignored hn => exact absurd ha hn
  | inquiry => exact answersOnce_send _ _ _
  | startEraseFailed hp | startAccepted hp =>
    rw [hp.cmd.2]
    exact answersOnce_flash _ _ _ (flash_of_mem_singleton _)
  | dataWriteFailed hp | dataAccepted hp =>
    rw [hp.cmd.2]
    exact answersOnce_flash _ _ _ (flash_of_mem_singleton _)
  | dataOffset ht | dataTooLarge ht =>
    rw [ht.cmd.2]
    exact answersOnce_send _ _ _
  | doneAccepted hp =>
    rw [hp.cmd.2]
    exact answersOnce_send _ _ _
  | verifyReadFailed hc | verifyMatch hc | verifyMismatch hc =>
    rw [hc.2]
    exact answersOnce_flash _ _ _ verifyRun_flash
  | resetAccepted hc =>
    rw [hc.2]
    exact answersOnce_reset _ _ _ _
  | startRefused hc | startTooLarge hc | dataRefused hc | doneRefused hc | doneMismatch hc
  | verifyRefused hc | resetRefused hc | cancelled hc | flagSet hc | flagCleared hc
  | flagRefused hc =>
    rw [hc.2]
    exact answersOnce_send _ _ _

/-- **One response.** A request to 0x20 or 0xFF is answered exactly once, before any reboot, with
its own sequence number and command; a frame to any other address is answered by nothing and
changes nothing. -/
theorem one_response (z : Zephyr) (fl : FlashCalls) (d : Dev) (f : OtaFrame) :
    (f.dstAddr = 0x20 ∨ f.dstAddr = 0xFF →
      AnswersOnce f.seq f.cmd (otaFrameProcess z fl d f).1) ∧
    (¬ (f.dstAddr = 0x20 ∨ f.dstAddr = 0xFF) → otaFrameProcess z fl d f = ([], d)) := by
  constructor
  · intro ha
    exact (otaFrameProcess_handles z fl d f).answersOnce ha
  · intro ha
    exact otaFrameProcess_ignored z fl d f ha

end ZephyrStm32.Ota
