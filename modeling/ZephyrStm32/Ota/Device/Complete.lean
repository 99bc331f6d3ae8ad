import ZephyrStm32.Ota.Device.Session

/-!
# What COMPLETE means

DONE compares the size it carries with the bytes received, not with the size START declared, and
it looks at `in_progress` only, which an error leaves set. So a truncated transfer or a session in
STATUS_ERROR can be completed (`complete_truncated`). `complete_sound` gives the condition on the
requests under which the status COMPLETE does mean that the declared image arrived whole.
-/

namespace ZephyrStm32.Ota

open Machine

/-- After this step, COMPLETE means that the session received exactly the bytes its START declared,
without an error, and that `firmware_size` is still their number; and no DONE completes a session
in STATUS_ERROR. -/
def CompleteSound (h : List DevStep) (st : DevStep) : Prop :=
  (st.after.ota.status = .complete → ∃ s, session (st :: h) = some s ∧ s.failed = false ∧
    s.bytes.length = s.size.toNat ∧ st.after.ota.firmwareSize = s.size) ∧
  (st.input.frame.IsCmd cmdTransferDone → st.before.ota.status = .error →
    st.after.ota.status ≠ .complete)

/-- A DONE that passes finds a session without an error whose declared size was received, a START
refused for its size does not find a completed image, and no packet's end leaves 32 bits. -/
structure SoundRequest (d : Dev) (f : OtaFrame) : Prop where
  done : DonePasses d f → d.ota.status ≠ .error ∧ d.ota.receivedSize = d.ota.firmwareSize
  start : f.IsCmd cmdStartUpgrade → 12 ≤ f.dataLen → d.ota.status = .complete →
    f.startSize ≤ d.ota.slotSize
  data : DataPasses d f → NoWrap d f

theorem soundRequest_iff {d : Dev} {f : OtaFrame} : SoundRequest d f ↔
    (DonePasses d f → d.ota.status ≠ .error ∧ d.ota.receivedSize = d.ota.firmwareSize) ∧
    (f.IsCmd cmdStartUpgrade → 12 ≤ f.dataLen → d.ota.status = .complete →
      f.startSize ≤ d.ota.slotSize) ∧ (DataPasses d f → NoWrap d f) :=
  ⟨fun ⟨h₁, h₂, h₃⟩ => ⟨h₁, h₂, h₃⟩, fun ⟨h₁, h₂, h₃⟩ => ⟨h₁, h₂, h₃⟩⟩

instance (d : Dev) (f : OtaFrame) : Decidable (SoundRequest d f) :=
  decidable_of_iff' _ soundRequest_iff

/-- What each status says about the session. -/
def StatusSound (ses : Option Session) (d : Dev) : Prop :=
  match d.ota.status with
  | .idle => d.ota.inProgress = false
  | .erasing => False
  | .receiving => ∃ s, ses = some s ∧ Counted d s
  | .verifying | .complete =>
    ∃ s, ses = some s ∧ Counted d s ∧ d.ota.receivedSize = d.ota.firmwareSize
  | .error => True

variable {z : Zephyr} {fl : FlashCalls} {d : Dev} {f : OtaFrame} {r : Handled}

/-- `StatusSound` looks at the status and the counters only. -/
theorem StatusSound.congr {ses : Option Session} {d' : Dev} (h : StatusSound ses d)
    (b : UInt8) (he : d'.ota = { d.ota with bootFlag := b }) : StatusSound ses d' := by
  have hc : ∀ s, Counted d s → Counted d' s := by
    rintro s ⟨h₁, h₂, h₃, h₄, h₅, h₆⟩
    constructor <;> simpa only [he]
  unfold StatusSound at h ⊢
  rw [show d'.ota.status = d.ota.status by rw [he]]
  split at h
  · simpa only [he] using h
  · exact h
  · exact h.imp fun s hs => ⟨hs.1, hc s hs.2⟩
  · exact h.imp fun s hs => ⟨hs.1, hc s hs.2.1, by simpa only [he] using hs.2.2⟩
  · exact h.imp fun s hs => ⟨hs.1, hc s hs.2.1, by simpa only [he] using hs.2.2⟩
  · trivial

/-- A completed or verified image, from the status alone. -/
theorem StatusSound.of_complete {ses : Option Session} (h : StatusSound ses d)
    (hs : d.ota.status = .complete) :
    ∃ s, ses = some s ∧ Counted d s ∧ d.ota.receivedSize = d.ota.firmwareSize := by
  simpa only [StatusSound, hs] using h

/-- A session in progress without an error has its counters right. -/
theorem StatusSound.counted {ses : Option Session} (h : StatusSound ses d)
    (hp : d.ota.inProgress = true) (he : d.ota.status ≠ .error) :
    ∃ s, ses = some s ∧ Counted d s := by
  unfold StatusSound at h
  split at h
  · rw [hp] at h
    cases h
  · exact h.elim
  · exact h
  · exact h.imp fun s hs => ⟨hs.1, hs.2.1⟩
  · exact h.imp fun s hs => ⟨hs.1, hs.2.1⟩
  · rename_i hs
    exact absurd hs he

/-- **One step.** A frame that meets `SoundRequest` keeps `StatusSound`. `ses'` is the session
after the step. -/
theorem Handles.statusSound {ses ses' : Option Session} (h : Handles z fl d f r)
    (hses : StatusSound ses d) (hreq : SoundRequest d f)
    (hq : Quiet d f → ses' = ses)
    (hs : StartPasses d f → (fl 0).err = 0 → ses' = some (.start f))
    (hd : DataPasses d f → (fl 0).err = 0 → ses' = ses.map (·.accept f.fwData)) :
    StatusSound ses' r.2 := by
  cases h with
  | ignored | inquiry | startRefused | dataRefused | doneRefused | verifyRefused | resetRefused
  | resetAccepted | flagRefused =>
    rw [hq (by grind)]
    exact hses.congr d.ota.bootFlag rfl
  | flagSet =>
    rw [hq (by grind)]
    exact hses.congr 1 rfl
  | flagCleared =>
    rw [hq (by grind)]
    exact hses.congr 0 rfl
  | dataOffset | dataTooLarge | dataWriteFailed | doneMismatch | verifyReadFailed => trivial
  | startEraseFailed | cancelled => rfl
  | startTooLarge hc hlen hst hsize =>
    -- The status must be IDLE: a completed image would be lost.
    rcases hst with hi | hi
    · simp only [StatusSound, hi] at hses ⊢
      exact hses
    · exact absurd (hreq.start hc hlen hi) (UInt32.not_le.2 hsize)
  | startAccepted hp herr =>
    rw [hs hp herr]
    exact ⟨_, rfl, counted_start d f _⟩
  | dataAccepted hp herr =>
    obtain ⟨s, hse, hc⟩ := hses.counted hp.inProgress (by rw [hp.status]; simp)
    rw [hd hp herr, hse]
    have hrec : (d.ota.advanced z f).status = .receiving := hp.status
    simp only [StatusSound, hrec]
    exact ⟨_, rfl, hc.accept hp (hreq.data hp) _⟩
  | doneAccepted hp =>
    obtain ⟨hne, hsize⟩ := hreq.done hp
    obtain ⟨s, hse, hc⟩ := hses.counted hp.inProgress hne
    rw [hq (by grind), hse]
    have hfs : f.doneSize = d.ota.firmwareSize := hp.size.trans hsize
    have hle : d.ota.receivedSize ≤ f.doneSize := by
      rw [hfs]
      exact hc.le
    exact ⟨s, rfl, ⟨hc.inProgress, hc.offset, hc.received, hle, hfs.trans hc.size, hc.sound⟩,
      hp.size.symm⟩
  | verifyMatch _ hst =>
    obtain ⟨s, hse, hc, hfull⟩ := hses.of_complete hst
    rw [hq (by grind), hse]
    exact ⟨s, rfl, ⟨hc.inProgress, hc.offset, hc.received, hc.le, hc.size, hc.sound⟩, hfull⟩
  | verifyMismatch _ hst =>
    obtain ⟨s, hse, hc, hfull⟩ := hses.of_complete hst
    rw [hq (by grind), hse]
    exact ⟨s, rfl, ⟨hc.inProgress, hc.offset, hc.received, hc.le, hc.size, hc.sound⟩, hfull⟩

/-- Under the condition a DONE leaves a session in STATUS_ERROR where it is. -/
theorem Handles.done_error (h : Handles z fl d f r) (hreq : SoundRequest d f)
    (hc : f.IsCmd cmdTransferDone) (he : d.ota.status = .error) :
    r.2.ota.status ≠ .complete := by
  have hn : ¬ DonePasses d f := fun hp => (hreq.done hp).1 he
  cases h with
  | doneRefused => simp [he]
  | doneMismatch => simp [OtaState.failed]
  | doneAccepted hp => exact absurd hp hn
  | _ => grind

/-! ## Over whole runs -/

/-- Every frame of the run meets `SoundRequest` where it is handled. -/
def SoundRequests : List DevStep → Prop :=
  Always fun _ st => st.before.rebooted = false → SoundRequest st.before st.input.frame

/-- What `StatusSound` says of a completed state is the first half of `CompleteSound`. -/
theorem StatusSound.complete {ses : Option Session} (h : StatusSound ses d)
    (hs : d.ota.status = .complete) : ∃ s, ses = some s ∧ s.failed = false ∧
      s.bytes.length = s.size.toNat ∧ d.ota.firmwareSize = s.size := by
  obtain ⟨s, hse, hc, hfull⟩ := h.of_complete hs
  refine ⟨s, hse, hc.sound, ?_, hc.size⟩
  rw [← hc.received, hfull, hc.size]

theorem statusSound_boot (slot0Open slot1Open : FlashOpen) (slot1 : Mem) :
    StatusSound none (Dev.boot slot0Open slot1Open slot1) := by
  obtain ⟨_, _, _, _, h⟩ := boot_ota slot0Open slot1Open slot1
  unfold StatusSound
  rw [h]
  rfl

/-- One step of a run. -/
theorem statusSound_step {q : Request} {h : List DevStep} (hses : StatusSound (session h) d)
    (hreq : d.rebooted = false → SoundRequest d q.frame) :
    StatusSound (session (stepOf (Dev.step z) d q :: h)) (Dev.step z d q).2 := by
  rcases step_cases z d q with ⟨hb, he⟩ | ⟨hb, hh⟩
  · rw [session_rebooted hb, he]
    exact hses
  · exact hh.statusSound hses (hreq hb) (session_of_quiet hb) (session_of_start hb)
      (session_of_data hb)

/-- **COMPLETE means the whole declared image arrived.** In every run from start-up, with any flash
outcomes, whose frames meet `SoundRequest`. -/
theorem complete_sound (slot0Open slot1Open : FlashOpen) (slot1 : Mem) {h : List DevStep}
    (hr : Run (Dev.step z) (Dev.boot slot0Open slot1Open slot1) h d) (hreq : SoundRequests h) :
    Always CompleteSound h := by
  have key : StatusSound (session h) d ∧ Always CompleteSound h := by
    refine hr.invariant_of_always
      (P := fun h d => StatusSound (session h) d ∧ Always CompleteSound h)
      hreq ⟨statusSound_boot .., trivial⟩ ?_
    rintro h d q - ⟨hses, ih⟩ hq
    have hnext := statusSound_step (z := z) hses hq
    refine ⟨hnext, ⟨hnext.complete, fun hc he => ?_⟩, ih⟩
    rcases step_cases z d q with ⟨-, hstep⟩ | ⟨hb, hh⟩
    · rw [stepOf_after, hstep]
      rw [stepOf_before] at he
      rw [he]
      simp
    · exact hh.done_error (hq hb) hc he
  exact key.2

/-- START of two bytes, both of them, DONE, on the board. -/
theorem complete_sound_board :
    let r := exec (Dev.step .standard) .board
      [⟨.request cmdStartUpgrade [2, 0, 0, 0, 0, 0, 0, 0, 1, 0, 1, 0], .ok⟩,
        ⟨.request cmdTransferData [0, 0, 0, 0, 0xAA, 0xBB], .ok⟩,
        ⟨.request cmdTransferDone [0, 0, 0, 0, 2, 0, 0, 0], .ok⟩]
    r.2.ota.status = .complete ∧ Always CompleteSound r.1 := by
  refine ⟨by decide, complete_sound _ _ _ (run_exec _ _ _) ⟨?_, ?_, ?_, trivial⟩⟩
  all_goals decide

/-- A session of four bytes is completed after two of them. -/
theorem complete_truncated :
    let r := exec (Dev.step .standard) .board
      [⟨.request cmdStartUpgrade [4, 0, 0, 0, 0, 0, 0, 0, 1, 0, 1, 0], .ok⟩,
        ⟨.request cmdTransferData [0, 0, 0, 0, 0xAA, 0xBB], .ok⟩,
        ⟨.request cmdTransferDone [0, 0, 0, 0, 2, 0, 0, 0], .ok⟩]
    r.2.ota.status = .complete ∧ ¬ Always CompleteSound r.1 := by
  refine ⟨by decide, fun h => ?_⟩
  obtain ⟨s, hs, -, hlen, -⟩ := h.1.1 (by decide)
  have hs' : some s = some ⟨4, 0, [[0xAA, 0xBB]], false⟩ := hs.symm.trans (by decide)
  rw [Option.some.inj hs'] at hlen
  exact absurd hlen (by decide)

end ZephyrStm32.Ota
