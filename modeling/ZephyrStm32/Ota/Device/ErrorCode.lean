import ZephyrStm32.Ota.Device.Session

/-!
# Whose error `error_code` is

Only CANCEL clears `error_code`: START keeps the code of an earlier session, DONE completes a
session that has one, a START that declares too much writes one into a completed session, and
VERIFY notes a checksum that does not match without setting STATUS_ERROR.

**Theorem (`errorCode_sound_iff`).** A run meets `CodeSound` after every step exactly when none of
its requests is one of these four.
-/

namespace ZephyrStm32.Ota

open Bytes (le32)
open Machine

/-- A START that reaches the erase or a CANCEL: what went before is no longer the current
session. -/
def NewSession (st : DevStep) : Prop :=
  st.input.frame.IsCmd cmdStartUpgrade ∧ st.output.any Event.touchesFlash = true ∨
    st.input.frame.IsCmd cmdCancelUpgrade ∧ answer st.output = some 0x00

/-- An offset, size or write error, or a VERIFY of the completed image that was not answered
0x00: a read failed or the checksum was another one. -/
def SessionFailure (st : DevStep) : Prop :=
  SessionError st ∨
    Refused st.output ∧ st.input.frame.IsCmd cmdVerifyFirmware ∧ st.before.ota.status = .complete

/-- A failure of the current session is in the history. -/
def SessionFailed : List DevStep → Prop
  | [] => False
  | st :: h => ¬ NewSession st ∧ (SessionFailure st ∨ SessionFailed h)

/-- `error_code` belongs to the current session: there is none while the transfer is healthy, and a
session with a failure is in STATUS_ERROR. -/
structure CodeSound (h : List DevStep) (d : Dev) : Prop where
  healthy : d.ota.status = .receiving ∨ d.ota.status = .complete → d.ota.errorCode = .none
  failed : SessionFailed h → d.ota.status = .error

/-- A request that is none of the four. -/
structure KeepsCode (z : Zephyr) (d : Dev) (q : Request) : Prop where
  tooLarge : q.frame.IsCmd cmdStartUpgrade → 12 ≤ q.frame.dataLen → d.ota.status = .complete →
    q.frame.startSize ≤ d.ota.slotSize
  start : StartPasses d q.frame → (q.flash 0).err = 0 → d.ota.errorCode = .none
  done : DonePasses d q.frame → d.ota.errorCode = .none
  verify : q.frame.IsCmd cmdVerifyFirmware → d.ota.status = .complete →
    ReadsOk q.flash d.ota.firmwareSize →
      imageCrc z d.slot1 d.ota.firmwareSize = d.ota.firmwareCrc

variable {z : Zephyr} {d : Dev} {q : Request} {h : List DevStep}

/-! ## The history after one step -/

/-- A VERIFY of the completed image that finds no match. -/
def VerifyFails (z : Zephyr) (d : Dev) (q : Request) : Prop :=
  q.frame.IsCmd cmdVerifyFirmware ∧ d.ota.status = .complete ∧
    (verifyRun z q.flash d).2 ≠ some d.ota.firmwareCrc

theorem newSession_iff (hb : d.rebooted = false) : NewSession (stepOf (Dev.step z) d q) ↔
    StartPasses d q.frame ∨ q.frame.IsCmd cmdCancelUpgrade := by
  have hh : Handles z q.flash d q.frame (Dev.step z d q) := step_handles hb
  refine or_congr ?_ hh.cancel_answer_iff
  rw [stepOf_input, stepOf_output, hh.touchesFlash_iff]
  constructor
  · rintro ⟨hc, hp | hp⟩
    · exact hp
    · exact absurd hp.cmd (hc.other (by decide))
  · intro hp
    exact ⟨hp.cmd, Or.inl hp⟩

theorem verifyFails_iff (hb : d.rebooted = false) :
    Refused (Dev.step z d q).1 ∧ q.frame.IsCmd cmdVerifyFirmware ∧ d.ota.status = .complete ↔
      VerifyFails z d q := by
  have hh : Handles z q.flash d q.frame (Dev.step z d q) := step_handles hb
  rw [VerifyFails, and_comm, and_assoc]
  refine and_congr_right fun hc => and_congr_right fun hs => ?_
  rw [hh.refused_iff hc (by simp)]
  refine not_congr ⟨fun ha => ?_, fun hr => ?_⟩
  · exact (hh.verify_answer_iff.1 ⟨hc, ha⟩).2.2
  · exact (hh.verify_answer_iff.2 ⟨hc, hs, hr⟩).2

/-- What a step of a running device does to the history's failure. -/
theorem sessionFailed_iff (hb : d.rebooted = false) :
    SessionFailed (stepOf (Dev.step z) d q :: h) ↔
      ¬ (StartPasses d q.frame ∨ q.frame.IsCmd cmdCancelUpgrade) ∧
        (Errs d q ∨ VerifyFails z d q ∨ SessionFailed h) := by
  rw [SessionFailed, newSession_iff hb, SessionFailure, sessionError_iff hb, or_assoc]
  exact and_congr_right fun _ => or_congr_right (or_congr_left (verifyFails_iff hb))

theorem sessionFailed_rebooted (hb : d.rebooted = true) :
    SessionFailed (stepOf (Dev.step z) d q :: h) ↔ SessionFailed h := by
  have hout : (stepOf (Dev.step z) d q).output = [] := by
    rw [stepOf_output, step_rebooted hb]
  have hrefused : ¬ Refused (stepOf (Dev.step z) d q).output := by
    rw [hout]
    exact fun h => h.1 rfl
  have hnew : ¬ NewSession (stepOf (Dev.step z) d q) := by
    rintro (⟨-, h⟩ | ⟨-, h⟩)
    · rw [hout] at h
      cases h
    · rw [hout] at h
      cases h
  have hfail : ¬ SessionFailure (stepOf (Dev.step z) d q) :=
    fun h => h.elim (fun h => hrefused h.1) fun h => hrefused h.1
  rw [SessionFailed, and_iff_right hnew, or_iff_right hfail]

/-! ## One step -/

theorem keepsCode_iff : KeepsCode z d q ↔
    (q.frame.IsCmd cmdStartUpgrade → 12 ≤ q.frame.dataLen → d.ota.status = .complete →
      q.frame.startSize ≤ d.ota.slotSize) ∧
    (StartPasses d q.frame → (q.flash 0).err = 0 → d.ota.errorCode = .none) ∧
    (DonePasses d q.frame → d.ota.errorCode = .none) ∧
    (q.frame.IsCmd cmdVerifyFirmware → d.ota.status = .complete →
      ReadsOk q.flash d.ota.firmwareSize →
        imageCrc z d.slot1 d.ota.firmwareSize = d.ota.firmwareCrc) :=
  ⟨fun ⟨h₁, h₂, h₃, h₄⟩ => ⟨h₁, h₂, h₃, h₄⟩, fun ⟨h₁, h₂, h₃, h₄⟩ => ⟨h₁, h₂, h₃, h₄⟩⟩

/-- Of a START only the bounds and the erase matter. -/
theorem keepsCode_of_start (hc : q.frame.IsCmd cmdStartUpgrade)
    (htooLarge : 12 ≤ q.frame.dataLen → d.ota.status = .complete →
      q.frame.startSize ≤ d.ota.slotSize)
    (hstart : StartPasses d q.frame → (q.flash 0).err = 0 → d.ota.errorCode = .none) :
    KeepsCode z d q where
  tooLarge _ := htooLarge
  start := hstart
  done hp := absurd hp.cmd (hc.other (by decide))
  verify h := absurd h (hc.other (by decide))

theorem keepsCode_of_done (hc : q.frame.IsCmd cmdTransferDone)
    (hdone : DonePasses d q.frame → d.ota.errorCode = .none) : KeepsCode z d q where
  tooLarge h := absurd h (hc.other (by decide))
  start hp := absurd hp.cmd (hc.other (by decide))
  done := hdone
  verify h := absurd h (hc.other (by decide))

theorem keepsCode_of_verify (hc : q.frame.IsCmd cmdVerifyFirmware)
    (hverify : d.ota.status = .complete → ReadsOk q.flash d.ota.firmwareSize →
      imageCrc z d.slot1 d.ota.firmwareSize = d.ota.firmwareCrc) : KeepsCode z d q where
  tooLarge h := absurd h (hc.other (by decide))
  start hp := absurd hp.cmd (hc.other (by decide))
  done hp := absurd hp.cmd (hc.other (by decide))
  verify _ := hverify

/-- The other commands always keep the code. -/
theorem keepsCode_of_other (hs : ¬ q.frame.IsCmd cmdStartUpgrade)
    (hd : ¬ q.frame.IsCmd cmdTransferDone) (hv : ¬ q.frame.IsCmd cmdVerifyFirmware) :
    KeepsCode z d q where
  tooLarge h := absurd h hs
  start hp := absurd hp.cmd hs
  done hp := absurd hp.cmd hd
  verify h := absurd h hv

theorem keepsCode_of_data (hc : q.frame.IsCmd cmdTransferData) : KeepsCode z d q :=
  keepsCode_of_other (hc.other (by decide)) (hc.other (by decide)) (hc.other (by decide))

/-! Only a DATA or a DONE that was taken up can be an error of the session. -/

theorem not_errs_of_other (hdata : ¬ q.frame.IsCmd cmdTransferData)
    (hdone : ¬ q.frame.IsCmd cmdTransferDone) : ¬ Errs d q :=
  not_or.2 ⟨fun h => hdata h.1.cmd, fun h => hdone h.1⟩

theorem not_errs_of_data (hc : q.frame.IsCmd cmdTransferData)
    (h : DataTaken d q.frame → DataPasses d q.frame ∧ (q.flash 0).err = 0) : ¬ Errs d q :=
  not_or.2 ⟨fun he => he.2 (h he.1), fun he => hc.other (by decide) he.1⟩

theorem not_errs_of_done (hc : q.frame.IsCmd cmdTransferDone)
    (h : d.ota.inProgress = true → DonePasses d q.frame) : ¬ Errs d q :=
  not_or.2 ⟨fun he => hc.other (by decide) he.1.cmd, fun he => he.2.2 (h he.2.1)⟩

theorem not_verifyFails_of_other (hc : ¬ q.frame.IsCmd cmdVerifyFirmware) :
    ¬ VerifyFails z d q :=
  fun h => hc h.1

section

variable {ota : OtaState} {failed' : Prop}

/-- A status that is neither healthy nor STATUS_ERROR says nothing of the code. -/
theorem codeSound_other (hr : ota.status ≠ .receiving) (hc : ota.status ≠ .complete)
    (hf : ¬ failed') : (ota.status = .receiving ∨ ota.status = .complete →
      ota.errorCode = .none) ∧ (failed' → ota.status = .error) :=
  ⟨fun h => (h.elim hr hc).elim, fun h => absurd h hf⟩

/-- STATUS_ERROR is sound whatever the code. -/
theorem codeSound_error (hs : ota.status = .error) : (ota.status = .receiving ∨
    ota.status = .complete → ota.errorCode = .none) ∧ (failed' → ota.status = .error) := by
  refine ⟨?_, fun _ => hs⟩
  rw [hs]
  rintro (h | h) <;> cases h

/-- A healthy status without a failure is sound when there is no code. -/
theorem codeSound_healthy (hs : ota.status = .receiving ∨ ota.status = .complete)
    (hf : ota.errorCode = .none → ¬ failed') : (ota.status = .receiving ∨
      ota.status = .complete → ota.errorCode = .none) ∧ (failed' → ota.status = .error) ↔
      ota.errorCode = .none :=
  ⟨fun h => h.1 hs, fun hc => ⟨fun _ => hc, fun h => absurd h (hf hc)⟩⟩

end

/-- One step keeps `CodeSound` exactly when its request meets `KeepsCode`. `failed` and `failed'`
are the history's failure before and after the step. -/
theorem Handles.keepsCode {r : Handled} (hh : Handles z q.flash d q.frame r)
    {failed failed' : Prop}
    (hhealthy : d.ota.status = .receiving ∨ d.ota.status = .complete → d.ota.errorCode = .none)
    (hfailed : failed → d.ota.status = .error) (hcode : failed → d.ota.errorCode ≠ .none)
    (hf : failed' ↔ ¬ (StartPasses d q.frame ∨ q.frame.IsCmd cmdCancelUpgrade) ∧
      (Errs d q ∨ VerifyFails z d q ∨ failed)) :
    (r.2.ota.status = .receiving ∨ r.2.ota.status = .complete → r.2.ota.errorCode = .none) ∧
      (failed' → r.2.ota.status = .error) ↔ KeepsCode z d q := by
  -- after a step that is no failure only the failures before it are left
  have hbefore (he : ¬ Errs d q) (hv : ¬ VerifyFails z d q) (h : failed') : failed :=
    (hf.1 h).2.elim (absurd · he) fun h => h.elim (absurd · hv) id
  have hsame (he : ¬ Errs d q) (hv : ¬ VerifyFails z d q) (h : failed') : d.ota.status = .error :=
    hfailed (hbefore he hv h)
  cases hh with
  | startRefused hc hg =>
    have he : ¬ Errs d q := not_errs_of_other (hc.other (by decide)) (hc.other (by decide))
    have hv : ¬ VerifyFails z d q := not_verifyFails_of_other (hc.other (by decide))
    refine iff_of_true ⟨hhealthy, hsame he hv⟩ (keepsCode_of_start hc (fun hlen hs => ?_) ?_)
    · rcases hg with hshort | ⟨-, hbusy⟩
      · exact absurd hshort (UInt16.not_lt.2 hlen)
      · exact absurd hs hbusy
    · exact fun hp => absurd hg hp.not_refused
  | startTooLarge hc hlen hs hsize =>
    have he : ¬ Errs d q := not_errs_of_other (hc.other (by decide)) (hc.other (by decide))
    have hv : ¬ VerifyFails z d q := not_verifyFails_of_other (hc.other (by decide))
    have hbig : ¬ q.frame.startSize ≤ d.ota.slotSize := UInt32.not_le.2 hsize
    rcases hs with hidle | hcomplete
    · refine iff_of_true ⟨fun h => ?_, hsame he hv⟩ (keepsCode_of_start hc (fun _ h => ?_) ?_)
      · have h : d.ota.status = .receiving ∨ d.ota.status = .complete := h
        rw [hidle] at h
        rcases h with h | h <;> cases h
      · rw [hidle] at h
        cases h
      · exact fun hp => absurd hp.size hbig
    · refine iff_of_false (fun h => ?_) fun hk => hbig (hk.tooLarge hc hlen hcomplete)
      exact ErrorCode.noConfusion (h.1 (Or.inr hcomplete))
  | startEraseFailed hp herr =>
    have hn : ¬ failed' := fun h => (hf.1 h).1 (Or.inl hp)
    refine iff_of_true (codeSound_other Status.noConfusion Status.noConfusion hn) ?_
    exact keepsCode_of_start hp.cmd (fun _ _ => hp.size) fun _ h => absurd h herr
  | startAccepted hp herr =>
    have hn : ¬ failed' := fun h => (hf.1 h).1 (Or.inl hp)
    refine (codeSound_healthy (Or.inl rfl) fun _ => hn).trans ⟨fun hc => ?_, fun hk => ?_⟩
    · exact keepsCode_of_start hp.cmd (fun _ _ => hp.size) fun _ _ => hc
    · exact hk.start hp herr
  | dataRefused hc hg =>
    have he : ¬ Errs d q := not_errs_of_data hc fun h => absurd hg h.not_refused
    have hv : ¬ VerifyFails z d q := not_verifyFails_of_other (hc.other (by decide))
    exact iff_of_true ⟨hhealthy, hsame he hv⟩ (keepsCode_of_data hc)
  | dataOffset ht => exact iff_of_true (codeSound_error rfl) (keepsCode_of_data ht.cmd)
  | dataTooLarge ht => exact iff_of_true (codeSound_error rfl) (keepsCode_of_data ht.cmd)
  | dataWriteFailed hp => exact iff_of_true (codeSound_error rfl) (keepsCode_of_data hp.cmd)
  | dataAccepted hp herr =>
    have he : ¬ Errs d q := not_errs_of_data hp.cmd fun _ => ⟨hp, herr⟩
    have hv : ¬ VerifyFails z d q := not_verifyFails_of_other (hp.cmd.other (by decide))
    exact iff_of_true ⟨hhealthy, hsame he hv⟩ (keepsCode_of_data hp.cmd)
  | doneRefused hc hp =>
    have he : ¬ Errs d q := not_errs_of_done hc fun h => by simp [hp] at h
    have hv : ¬ VerifyFails z d q := not_verifyFails_of_other (hc.other (by decide))
    refine iff_of_true ⟨hhealthy, hsame he hv⟩ (keepsCode_of_done hc ?_)
    exact fun hd => absurd hp hd.not_refused
  | doneMismatch hc _ hsize =>
    refine iff_of_true (codeSound_error rfl) (keepsCode_of_done hc ?_)
    exact fun hd => absurd hd.size hsize
  | doneAccepted hd =>
    have he : ¬ Errs d q := not_errs_of_done hd.cmd fun _ => hd
    have hv : ¬ VerifyFails z d q := not_verifyFails_of_other (hd.cmd.other (by decide))
    refine (codeSound_healthy (Or.inr rfl) fun hc h => ?_).trans ⟨fun hc => ?_, fun hk => ?_⟩
    · exact hcode (hbefore he hv h) hc
    · exact keepsCode_of_done hd.cmd fun _ => hc
    · exact hk.done hd
  | verifyRefused hc hs =>
    have he : ¬ Errs d q := not_errs_of_other (hc.other (by decide)) (hc.other (by decide))
    have hv : ¬ VerifyFails z d q := fun h => hs h.2.1
    refine iff_of_true ⟨hhealthy, hsame he hv⟩ (keepsCode_of_verify hc ?_)
    exact fun h => absurd h hs
  | verifyReadFailed hc _ hr =>
    refine iff_of_true (codeSound_error rfl) (keepsCode_of_verify hc fun _ hok => ?_)
    rw [verifyRun_eq_some.2 ⟨hok, rfl⟩] at hr
    cases hr
  | verifyMatch hc hs hr =>
    have he : ¬ Errs d q := not_errs_of_other (hc.other (by decide)) (hc.other (by decide))
    have hv : ¬ VerifyFails z d q := fun h => h.2.2 hr
    have hn (h : failed') : False := by
      have herror := hsame he hv h
      rw [hs] at herror
      cases herror
    refine iff_of_true (codeSound_other Status.noConfusion Status.noConfusion hn) ?_
    exact keepsCode_of_verify hc fun _ _ => (verifyRun_eq_some.1 hr).2
  | verifyMismatch hc hs crc hr hcrc =>
    obtain ⟨hok, rfl⟩ := verifyRun_eq_some.1 hr
    have hv : VerifyFails z d q := by
      refine ⟨hc, hs, ?_⟩
      rw [hr]
      exact fun h => hcrc (Option.some.inj h)
    have hn : ¬ (StartPasses d q.frame ∨ q.frame.IsCmd cmdCancelUpgrade) :=
      not_or.2 ⟨fun hp => hc.other (by decide) hp.cmd, hc.other (by decide)⟩
    refine iff_of_false (fun h => ?_) fun hk => hcrc (hk.verify hc hs hok)
    exact Status.noConfusion (h.2 (hf.2 ⟨hn, Or.inr (Or.inl hv)⟩))
  | cancelled hc =>
    have hn : ¬ failed' := fun h => (hf.1 h).1 (Or.inr hc)
    refine iff_of_true (codeSound_other Status.noConfusion Status.noConfusion hn) ?_
    exact keepsCode_of_other (hc.other (by decide)) (hc.other (by decide)) (hc.other (by decide))
  -- the frame is ignored, or its command has no part in the session
  | _ =>
    have he : ¬ Errs d q := not_errs_of_other (by grind) (by grind)
    have hv : ¬ VerifyFails z d q := not_verifyFails_of_other (by grind)
    refine iff_of_true ⟨hhealthy, hsame he hv⟩ ?_
    exact keepsCode_of_other (by grind) (by grind) (by grind)

theorem Handles.sessionFailed_code {r : Handled} (hh : Handles z q.flash d q.frame r)
    {failed : Prop} (hcode : failed → d.ota.errorCode ≠ .none)
    (hn : ¬ (StartPasses d q.frame ∨ q.frame.IsCmd cmdCancelUpgrade))
    (hf : Errs d q ∨ VerifyFails z d q ∨ failed) : r.2.ota.errorCode ≠ .none := by
  -- the branches that set no code are no failures
  have hbefore (he : ¬ Errs d q) (hv : ¬ VerifyFails z d q) : d.ota.errorCode ≠ .none :=
    hcode (hf.elim (absurd · he) fun h => h.elim (absurd · hv) id)
  cases hh with
  | startEraseFailed hp | startAccepted hp => exact absurd (Or.inl hp) hn
  | cancelled hc => exact absurd (Or.inr hc) hn
  | startTooLarge | dataOffset | dataTooLarge | dataWriteFailed | doneMismatch
  | verifyReadFailed | verifyMismatch => exact ErrorCode.noConfusion
  | dataRefused hc hg =>
    refine hbefore (not_errs_of_data hc fun h => absurd hg h.not_refused) ?_
    exact not_verifyFails_of_other (hc.other (by decide))
  | dataAccepted hp herr =>
    refine hbefore (not_errs_of_data hp.cmd fun _ => ⟨hp, herr⟩) ?_
    exact not_verifyFails_of_other (hp.cmd.other (by decide))
  | doneRefused hc hp =>
    refine hbefore (not_errs_of_done hc fun h => by simp [hp] at h) ?_
    exact not_verifyFails_of_other (hc.other (by decide))
  | doneAccepted hd =>
    refine hbefore (not_errs_of_done hd.cmd fun _ => hd) ?_
    exact not_verifyFails_of_other (hd.cmd.other (by decide))
  | verifyRefused hc hs =>
    refine hbefore ?_ fun h => hs h.2.1
    exact not_errs_of_other (hc.other (by decide)) (hc.other (by decide))
  | verifyMatch hc _ hr =>
    refine hbefore ?_ fun h => h.2.2 hr
    exact not_errs_of_other (hc.other (by decide)) (hc.other (by decide))
  | _ =>
    refine hbefore (not_errs_of_other (by grind) (by grind)) ?_
    exact not_verifyFails_of_other (by grind)

/-! ## Whole runs -/

variable {slot0Open slot1Open : FlashOpen} {slot1 : Mem}

/-- The code of a failed session stays. -/
theorem sessionFailed_code (hr : Run (Dev.step z) (Dev.boot slot0Open slot1Open slot1) h d) :
    SessionFailed h → d.ota.errorCode ≠ .none := by
  refine hr.invariant (P := fun h d => SessionFailed h → d.ota.errorCode ≠ .none) False.elim ?_
  intro h d q _ ih hf
  rcases step_cases z d q with ⟨hb, he⟩ | ⟨hb, hh⟩
  · rw [he]
    exact ih ((sessionFailed_rebooted hb).1 hf)
  · obtain ⟨hn, hf⟩ := (sessionFailed_iff hb).1 hf
    exact hh.sessionFailed_code ih hn hf

theorem codeSound_boot : CodeSound [] (Dev.boot slot0Open slot1Open slot1) where
  healthy hs := by
    rw [boot_idle] at hs
    rcases hs with hs | hs <;> cases hs
  failed := False.elim

/-- The state after a run is the one its last step was asked about. -/
theorem codeSound_of_always (hr : Run (Dev.step z) (Dev.boot slot0Open slot1Open slot1) h d)
    (ha : Always (fun h st => CodeSound (st :: h) st.after) h) : CodeSound h d := by
  cases hr with
  | nil => exact codeSound_boot
  | snoc q hr => exact ha.1

/-- **The error code belongs to the current session**, in every state of a run, exactly when every
request of the run meets `KeepsCode` where it is handled. -/
theorem errorCode_sound_iff
    (hr : Run (Dev.step z) (Dev.boot slot0Open slot1Open slot1) h d) :
    Always (fun h st => CodeSound (st :: h) st.after) h ↔
      Always (fun _ st => st.before.rebooted = false → KeepsCode z st.before st.input) h := by
  refine hr.always_iff fun h d q hr ha => ?_
  have hd := codeSound_of_always hr ha
  rw [stepOf_before, stepOf_input, stepOf_after]
  rcases step_cases z d q with ⟨hb, he⟩ | ⟨hb, hh⟩
  · rw [he]
    refine iff_of_true ⟨hd.healthy, fun hf => hd.failed ((sessionFailed_rebooted hb).1 hf)⟩ ?_
    intro hrun
    rw [hb] at hrun
    cases hrun
  · rw [forall_prop_of_true hb, ← hh.keepsCode hd.healthy hd.failed (sessionFailed_code hr)
      (sessionFailed_iff hb)]
    exact ⟨fun hs => ⟨hs.healthy, hs.failed⟩, fun hs => ⟨hs.1, hs.2⟩⟩

instance (z : Zephyr) (d : Dev) (q : Request) : Decidable (KeepsCode z d q) :=
  decidable_of_iff' _ keepsCode_iff

/-- START of two bytes on the board. -/
def startTwo (fl : FlashCalls) : Request :=
  ⟨.request cmdStartUpgrade (le32 2 ++ le32 0 ++ le32 0), fl⟩

/-- The erase fails. -/
def eraseFails : FlashCalls := fun _ => ⟨-5, fun _ => 0⟩

/-- A START whose erase fails, a CANCEL, and a complete transfer. -/
theorem errorCode_sound_board :
    Always (fun h st => CodeSound (st :: h) st.after) (exec (Dev.step .standard) .board
      [startTwo eraseFails, ⟨.request cmdCancelUpgrade [], .ok⟩, startTwo .ok,
        ⟨.request cmdTransferData (le32 0 ++ [0xAA, 0xBB]), .ok⟩,
        ⟨.request cmdTransferDone (le32 0 ++ le32 2), .ok⟩]).1 :=
  (errorCode_sound_iff (run_exec _ _ _)).2 (by
    refine ⟨?_, ?_, ?_, ?_, ?_, trivial⟩
    all_goals decide)

/-- Without the CANCEL the transfer shows the code of the failed erase. -/
theorem errorCode_survives : ¬ ∀ (z : Zephyr) (slot0Open slot1Open : FlashOpen) (slot1 : Mem)
    (h : List DevStep) (d : Dev), Run (Dev.step z) (Dev.boot slot0Open slot1Open slot1) h d →
      Always (fun h st => CodeSound (st :: h) st.after) h := by
  intro h
  have hr := run_exec (Dev.step .standard) .board [startTwo eraseFails, startTwo .ok]
  have hcode := (h _ _ _ _ _ _ hr).1.healthy (by decide)
  revert hcode
  decide

end ZephyrStm32.Ota
