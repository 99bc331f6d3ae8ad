import ZephyrStm32.Ota.Device.Session

/-!
# A refused START

A START that is refused before the erase should leave the session alone. Two of the three refusals
do. The third one, for a size that exceeds the slot, comes after `firmware_size` and `firmware_crc`
have been overwritten, and DONE, its sibling, shows the other order: it keeps what was declared in
locals until its check has passed.

**Theorem (`refused_start_iff`).** So a refused START leaves the fields of the session as they were
unless it is refused for its size and declares other values than those already stored.
-/

namespace ZephyrStm32.Ota

open Bytes (le32)
open Machine

/-- The START is answered 0xFF, and no erase was attempted. -/
structure RefusedStart (f : OtaFrame) (es : List Event) : Prop where
  cmd : f.IsCmd cmdStartUpgrade
  answer : answer es = some 0xFF
  noErase : es.any Event.touchesFlash = false

/-- All that is left as it was; `error_code` may change. -/
structure Unchanged (d d' : Dev) : Prop where
  status : d'.ota.status = d.ota.status
  inProgress : d'.ota.inProgress = d.ota.inProgress
  receivedSize : d'.ota.receivedSize = d.ota.receivedSize
  currentOffset : d'.ota.currentOffset = d.ota.currentOffset
  firmwareSize : d'.ota.firmwareSize = d.ota.firmwareSize
  firmwareCrc : d'.ota.firmwareCrc = d.ota.firmwareCrc
  calculatedCrc : d'.ota.calculatedCrc = d.ota.calculatedCrc
  bootFlag : d'.ota.bootFlag = d.ota.bootFlag
  slot1 : d'.slot1 = d.slot1

/-- After any further requests, a VERIFY, DONE, DATA or QUERY_STATUS gets the same response from
both devices. -/
def SameResponses (z : Zephyr) (d d' : Dev) : Prop :=
  ∀ (qs : List Request) (q : Request),
    q.frame.cmd ∈ [cmdVerifyFirmware, cmdTransferDone, cmdTransferData, cmdQueryStatus] →
      response (Dev.step z (final (Dev.step z) d' qs) q).1 =
        response (Dev.step z (final (Dev.step z) d qs) q).1

/-- A START that is neither too short nor untimely, and declares more than the slot holds. -/
structure TooLarge (d : Dev) (f : OtaFrame) : Prop where
  len : 12 ≤ f.dataLen
  status : d.ota.status = .idle ∨ d.ota.status = .complete
  size : d.ota.slotSize < f.startSize

/-- It declares what is already stored. -/
def SameDeclared (d : Dev) (f : OtaFrame) : Prop :=
  f.startSize = d.ota.firmwareSize ∧ f.startCrc = d.ota.firmwareCrc

variable {z : Zephyr} {fl : FlashCalls} {d d' : Dev} {f : OtaFrame} {r : Handled} {q : Request}

/-- The state after a refused START: the same, or with the declared values of one that is too
large. -/
theorem Handles.refused_after (h : Handles z fl d f r) (hr : RefusedStart f r.1) :
    ¬ TooLarge d f ∧ r.2 = d ∨ TooLarge d f ∧ r.2 = { d with ota := { d.ota with
      firmwareSize := f.startSize, firmwareCrc := f.startCrc, errorCode := .firmwareSize } } := by
  have hcmd := hr.cmd
  cases h with
  | startRefused _ hg =>
    refine Or.inl ⟨?_, rfl⟩
    rintro ⟨hlen, hs, -⟩
    rcases hg with hg | ⟨hi, hc⟩
    · exact absurd hlen (UInt16.not_le.2 hg)
    · exact hs.elim hi hc
  | startTooLarge _ hlen hs hsize => exact Or.inr ⟨⟨hlen, hs, hsize⟩, rfl⟩
  | startEraseFailed => exact absurd hr.noErase (by simp [Event.touchesFlash])
  | startAccepted => exact absurd hr.noErase (by simp [Event.touchesFlash])
  | ignored h => exact absurd hcmd.1 h
  | inquiry _ _ hn => exact absurd hcmd.2 (hn _ (by simp))
  | _ => grind

theorem Unchanged.refl (d : Dev) : Unchanged d d := ⟨rfl, rfl, rfl, rfl, rfl, rfl, rfl, rfl, rfl⟩

theorem errorCode_byte_inj {e e' : ErrorCode} (h : e.byte = e'.byte) : e = e' := by
  cases e <;> cases e' <;> first | rfl | exact absurd h (by decide)

/-- QUERY_STATUS tells the error codes of two devices apart. -/
theorem SameResponses.errorCode (h : SameResponses z d d') (hb : d.rebooted = false)
    (hb' : d'.rebooted = false) : d'.ota.errorCode = d.ota.errorCode := by
  have hq := h [] ⟨.request cmdQueryStatus [], .ok⟩ (by decide)
  rw [final_nil, final_nil, step_running hb, step_running hb'] at hq
  change some (statusBytes d'.ota) = some (statusBytes d.ota) at hq
  have hbytes := Option.some.inj hq
  simp only [statusBytes, Bytes.le32, List.cons_append, List.nil_append, List.cons.injEq] at hbytes
  exact errorCode_byte_inj (by tauto)

/-- **A refused START.** The fields of the session are as they were exactly when it was not refused
for its size, or declares what is stored; and later responses are the same as well exactly when, in
that case, the error code is stored already. -/
theorem refused_start_iff (hb : d.rebooted = false)
    (hr : RefusedStart q.frame (Dev.step z d q).1) :
    (Unchanged d (Dev.step z d q).2 ↔ ¬ TooLarge d q.frame ∨ SameDeclared d q.frame) ∧
    (Unchanged d (Dev.step z d q).2 ∧ SameResponses z d (Dev.step z d q).2 ↔
      ¬ TooLarge d q.frame ∨
        SameDeclared d q.frame ∧ d.ota.errorCode = .firmwareSize) := by
  rcases (step_handles hb).refused_after hr with ⟨hn, he⟩ | ⟨ht, he⟩
  · rw [he]
    have hsame : SameResponses z d d := fun _ _ _ => rfl
    exact ⟨iff_of_true (Unchanged.refl d) (Or.inl hn),
      iff_of_true ⟨Unchanged.refl d, hsame⟩ (Or.inl hn)⟩
  · rw [he]
    have hfields : Unchanged d { d with ota := { d.ota with
        firmwareSize := q.frame.startSize, firmwareCrc := q.frame.startCrc,
        errorCode := .firmwareSize } } ↔ SameDeclared d q.frame := by
      constructor
      · exact fun hu => ⟨hu.firmwareSize, hu.firmwareCrc⟩
      · exact fun ⟨hsize, hcrc⟩ => ⟨rfl, rfl, rfl, rfl, hsize, hcrc, rfl, rfl, rfl⟩
    rw [hfields, or_iff_right (not_not.2 ht), or_iff_right (not_not.2 ht)]
    refine ⟨Iff.rfl, and_congr_right fun ⟨hsize, hcrc⟩ => ?_⟩
    constructor
    · intro hsame
      exact (hsame.errorCode hb hb).symm
    · intro herr
      rw [hsize, hcrc, ← herr]
      exact fun _ _ _ => rfl

/-- The board in the middle of a transfer: four bytes are declared and two of them received. -/
def receivingTwo : Dev := final (Dev.step .standard) .board
  [⟨.request cmdStartUpgrade (le32 4 ++ le32 7 ++ le32 0), .ok⟩,
    ⟨.request cmdTransferData (le32 0 ++ [0xAA, 0xBB]), .ok⟩]

/-- It refuses a START, and goes on where it was. -/
theorem refused_start_busy :
    let q : Request := ⟨.request cmdStartUpgrade (le32 1 ++ le32 2 ++ le32 3), .ok⟩
    receivingTwo.ota.receivedSize = 2 ∧
      Unchanged receivingTwo (Dev.step .standard receivingTwo q).2 := by
  intro q
  have hrunning : receivingTwo.rebooted = false := by decide
  have hstatus : receivingTwo.ota.status = .receiving := by decide
  have hrefused : RefusedStart q.frame (Dev.step .standard receivingTwo q).1 :=
    ⟨by decide, by decide, by decide⟩
  refine ⟨by decide, (refused_start_iff hrunning hrefused).1.2 (Or.inl fun ht => ?_)⟩
  obtain h | h := ht.status
  · rw [hstatus] at h
    cases h
  · rw [hstatus] at h
    cases h

/-- An empty image is complete on the board; a START for one byte more than the slot holds is
refused, and QUERY_STATUS reports another size of the firmware. -/
theorem refused_start_overwrites : ¬ ∀ (z : Zephyr) (h : List DevStep) (d : Dev) (q : Request),
    Run (Dev.step z) .board h d → d.rebooted = false → RefusedStart q.frame (Dev.step z d q).1 →
      Unchanged d (Dev.step z d q).2 ∧ SameResponses z d (Dev.step z d q).2 := by
  intro h
  have hr := run_exec (Dev.step .standard) .board
    [⟨.request cmdStartUpgrade (le32 0 ++ le32 0 ++ le32 0), .ok⟩,
      ⟨.request cmdTransferDone (le32 0 ++ le32 0), .ok⟩]
  have hu := (h _ _ _ ⟨.request cmdStartUpgrade (le32 0xF0001 ++ le32 0 ++ le32 0), .ok⟩ hr
    (by decide) ⟨by decide, by decide, by decide⟩).1.firmwareSize
  revert hu
  decide

end ZephyrStm32.Ota
