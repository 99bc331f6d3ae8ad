import ZephyrStm32.Ota.Device.Session

/-!
# Boot safety

The boot flag and RESET_RUN are guarded by the status COMPLETE, which DONE sets: the image need
not have been verified (`boot_unverified`), and a START after a SET_BOOT_FLAG(1) erases the image
and leaves the flag. `bootSafe_iff` gives the exact condition on the requests: the runs that are
safe are those in which SET_BOOT_FLAG(1) and RESET_RUN, where their guard lets them through, find
an image verified since the flash was last touched, and in which no START passes while the flag
is set.
-/

namespace ZephyrStm32.Ota

open Machine

/-! ## What is known of slot1 from outside -/

/-- `firmware_size` and `firmware_crc` at the last VERIFY answered 0x00, if slot1 was not erased
or written since. -/
def lastVerified : List DevStep → Option (UInt32 × UInt32)
  | [] => none
  | st :: h =>
    if st.output.any Event.touchesFlash then none
    else if st.input.frame.IsCmd cmdVerifyFirmware ∧ answer st.output = some 0x00 then
      some (st.before.ota.firmwareSize, st.before.ota.firmwareCrc)
    else lastVerified h

/-- `m` holds an image for which a VERIFY was answered 0x00 after the last erase or write. -/
def HoldsVerified (z : Zephyr) (h : List DevStep) (m : Mem) : Prop :=
  ∃ n c, lastVerified h = some (n, c) ∧ imageCrc z m n = c

/-- After this step slot1 holds a verified image if the flag is set; and it held one if this is a
RESET_RUN answered 0x00. -/
def BootSafe (z : Zephyr) (h : List DevStep) (st : DevStep) : Prop :=
  (st.after.ota.bootFlag = 1 → HoldsVerified z (st :: h) st.after.slot1) ∧
  (st.input.frame.IsCmd cmdResetRun → answer st.output = some 0x00 →
    HoldsVerified z h st.before.slot1)

/-! ## The condition, from the requests and the states they find -/

/-- A VERIFY that finds a completed image of the declared checksum and whose reads succeed. -/
structure VerifyMatches (z : Zephyr) (d : Dev) (q : Request) : Prop where
  cmd : q.frame.IsCmd cmdVerifyFirmware
  status : d.ota.status = .complete
  reads : ReadsOk q.flash d.ota.firmwareSize
  crc : imageCrc z d.slot1 d.ota.firmwareSize = d.ota.firmwareCrc

/-- A frame that reaches an erase or a write. -/
def ReachesFlash (d : Dev) (f : OtaFrame) : Prop := StartPasses d f ∨ DataPasses d f

/-- A VERIFY matched, and no frame reached the flash since. -/
def Vouched (z : Zephyr) : List DevStep → Prop
  | [] => False
  | st :: h =>
    if st.before.rebooted then Vouched z h
    else ¬ ReachesFlash st.before st.input.frame ∧
      (VerifyMatches z st.before st.input ∨ Vouched z h)

/-- A SET_BOOT_FLAG(1) that its guard lets through. -/
structure FlagPasses (d : Dev) (f : OtaFrame) : Prop where
  cmd : f.IsCmd cmdSetBootFlag
  len : 1 ≤ f.dataLen
  flag : f.data 0 = 0x01
  status : d.ota.status = .complete

/-- What boot safety asks of a request. -/
structure BootRequest (z : Zephyr) (h : List DevStep) (d : Dev) (f : OtaFrame) : Prop where
  flag : FlagPasses d f → Vouched z h
  reset : f.IsCmd cmdResetRun → d.ota.status = .complete → Vouched z h
  flash : ReachesFlash d f → d.ota.bootFlag ≠ 1

/-- Every request of a running device meets `BootRequest`. -/
def BootRequests (z : Zephyr) : List DevStep → Prop :=
  Always fun h st => st.before.rebooted = false → BootRequest z h st.before st.input.frame

@[grind =]
theorem flagPasses_iff {d : Dev} {f : OtaFrame} : FlagPasses d f ↔ f.IsCmd cmdSetBootFlag ∧
    1 ≤ f.dataLen ∧ f.data 0 = 0x01 ∧ d.ota.status = .complete :=
  ⟨fun ⟨h₁, h₂, h₃, h₄⟩ => ⟨h₁, h₂, h₃, h₄⟩, fun ⟨h₁, h₂, h₃, h₄⟩ => ⟨h₁, h₂, h₃, h₄⟩⟩

instance (d : Dev) (f : OtaFrame) : Decidable (FlagPasses d f) :=
  decidable_of_iff' _ flagPasses_iff

instance (d : Dev) (f : OtaFrame) : Decidable (ReachesFlash d f) :=
  inferInstanceAs (Decidable (_ ∨ _))

variable {z : Zephyr} {fl : FlashCalls} {d : Dev} {f : OtaFrame} {r : Handled} {q : Request}
  {h : List DevStep}

/-! ## One step -/

theorem FlagPasses.not_refused (h : FlagPasses d f) :
    ¬ (f.dataLen < 1 ∨ f.data 0 ≠ 0x00 ∧ (f.data 0 = 0x01 → d.ota.status ≠ .complete)) := by
  intro hg
  rcases hg with hshort | ⟨-, hset⟩
  · exact UInt16.not_lt.2 h.len hshort
  · exact hset h.flag h.status

/-- The flag after a frame. -/
theorem Handles.bootFlag_iff (hh : Handles z fl d f r) : r.2.ota.bootFlag = 1 ↔
    FlagPasses d f ∨ d.ota.bootFlag = 1 ∧
      ¬ (f.IsCmd cmdSetBootFlag ∧ 1 ≤ f.dataLen ∧ f.data 0 = 0x00) := by
  -- a frame of another command leaves the flag
  have hother (hn : ¬ f.IsCmd cmdSetBootFlag) : d.ota.bootFlag = 1 ↔
      FlagPasses d f ∨ d.ota.bootFlag = 1 ∧
        ¬ (f.IsCmd cmdSetBootFlag ∧ 1 ≤ f.dataLen ∧ f.data 0 = 0x00) := by
    rw [or_iff_right fun hp => hn hp.cmd, and_iff_left fun hc => hn hc.1]
  cases hh with
  | flagSet hc hlen hf hs => exact iff_of_true rfl (Or.inl ⟨hc, hlen, hf, hs⟩)
  | flagCleared hc hlen hf =>
    have hne : f.data 0 ≠ 0x01 := by
      rw [hf]
      decide
    exact iff_of_false (by simp) (not_or.2 ⟨fun hp => hne hp.flag, fun hk => hk.2 ⟨hc, hlen, hf⟩⟩)
  | flagRefused hc hg =>
    rw [or_iff_right fun hp => hp.not_refused hg, and_iff_left]
    rintro ⟨-, hlen, hf⟩
    rcases hg with hshort | ⟨hf', -⟩
    · exact UInt16.not_lt.2 hlen hshort
    · exact hf' hf
  | _ => exact hother (by grind)

theorem verifyMatches_iff (hb : d.rebooted = false) : VerifyMatches z d q ↔
    q.frame.IsCmd cmdVerifyFirmware ∧ answer (Dev.step z d q).1 = some 0x00 := by
  rw [(step_handles hb).verify_answer_iff, verifyRun_eq_some]
  exact ⟨fun ⟨h₁, h₂, h₃, h₄⟩ => ⟨h₁, h₂, h₃, h₄⟩, fun ⟨h₁, h₂, h₃, h₄⟩ => ⟨h₁, h₂, h₃, h₄⟩⟩

theorem lastVerified_rebooted (hb : d.rebooted = true) :
    lastVerified (stepOf (Dev.step z) d q :: h) = lastVerified h := by
  simp [lastVerified, step_rebooted hb]

theorem lastVerified_step :
    lastVerified (stepOf (Dev.step z) d q :: h) =
      if (Dev.step z d q).1.any Event.touchesFlash then none
      else if q.frame.IsCmd cmdVerifyFirmware ∧ answer (Dev.step z d q).1 = some 0x00 then
        some (d.ota.firmwareSize, d.ota.firmwareCrc)
      else lastVerified h := rfl

theorem vouched_rebooted (hb : d.rebooted = true) :
    Vouched z (stepOf (Dev.step z) d q :: h) ↔ Vouched z h := by
  simp [Vouched, hb]

theorem vouched_running (hb : d.rebooted = false) :
    Vouched z (stepOf (Dev.step z) d q :: h) ↔
      ¬ ReachesFlash d q.frame ∧ (VerifyMatches z d q ∨ Vouched z h) := by
  simp [Vouched, hb]

/-! ## Over whole runs -/

/-- What was verified last is still in slot1. -/
theorem run_lastVerified {d₀ : Dev} (hr : Run (Dev.step z) d₀ h d) :
    ∀ n c, lastVerified h = some (n, c) → imageCrc z d.slot1 n = c := by
  refine hr.invariant
    (P := fun h d => ∀ n c, lastVerified h = some (n, c) → imageCrc z d.slot1 n = c)
    (fun n c hl => by cases hl) ?_
  intro h d q _ ih n c hl
  rcases step_cases z d q with ⟨hb, he⟩ | ⟨hb, hh⟩
  · rw [lastVerified_rebooted hb] at hl
    rw [he]
    exact ih n c hl
  rw [lastVerified_step] at hl
  split at hl
  · cases hl
  · rename_i ht
    rw [hh.slot1_eq (hh.touchesFlash_iff.not.1 ht)]
    split at hl
    · rename_i hv
      obtain ⟨rfl, rfl⟩ := Prod.mk.inj (Option.some.inj hl)
      exact ((verifyMatches_iff hb).2 hv).crc
    · exact ih n c hl

/-- An image counts as verified exactly when a request vouched for it. -/
theorem run_vouched {d₀ : Dev} (hr : Run (Dev.step z) d₀ h d) :
    lastVerified h ≠ none ↔ Vouched z h := by
  refine hr.invariant (P := fun h _ => lastVerified h ≠ none ↔ Vouched z h)
    ⟨fun hn => hn rfl, fun hv => hv.elim⟩ ?_
  intro h d q _ ih
  rcases step_cases z d q with ⟨hb, -⟩ | ⟨hb, hh⟩
  · rw [lastVerified_rebooted hb, vouched_rebooted hb, ih]
  rw [lastVerified_step, vouched_running hb, ← ih, verifyMatches_iff hb, ReachesFlash,
    ← hh.touchesFlash_iff]
  split
  · rename_i ht
    exact ⟨fun hn => absurd rfl hn, fun hv => absurd ht hv.1⟩
  · rename_i ht
    split
    · rename_i hv
      exact ⟨fun _ => ⟨ht, Or.inl hv⟩, fun _ => by simp⟩
    · rename_i hv
      exact ⟨fun hn => ⟨ht, Or.inr hn⟩, fun hn => hn.2.resolve_left hv⟩

theorem holdsVerified_iff {d₀ : Dev} (hr : Run (Dev.step z) d₀ h d) :
    HoldsVerified z h d.slot1 ↔ Vouched z h := by
  rw [← run_vouched hr, Option.ne_none_iff_exists']
  exact ⟨fun ⟨n, c, hl, _⟩ => ⟨(n, c), hl⟩,
    fun ⟨⟨n, c⟩, hl⟩ => ⟨n, c, hl, run_lastVerified hr n c hl⟩⟩

theorem boot_bootFlag (slot0Open slot1Open : FlashOpen) (slot1 : Mem) :
    (Dev.boot slot0Open slot1Open slot1).ota.bootFlag = 0 := by
  obtain ⟨_, _, _, _, h⟩ := boot_ota slot0Open slot1Open slot1
  rw [h]
  rfl

/-- In a run that was safe so far, a set flag comes with a verified image. -/
theorem run_bootFlag {d₀ : Dev} (h₀ : d₀.ota.bootFlag = 0) (hr : Run (Dev.step z) d₀ h d)
    (hs : Always (BootSafe z) h) (hf : d.ota.bootFlag = 1) : Vouched z h := by
  rw [← holdsVerified_iff hr]
  cases hr with
  | nil =>
    rw [h₀] at hf
    cases hf
  | snoc q hr => exact hs.1.1 hf

/-- One step of a run that was safe so far. -/
theorem bootSafe_step {d₀ : Dev} (h₀ : d₀.ota.bootFlag = 0) (hr : Run (Dev.step z) d₀ h d)
    (hs : Always (BootSafe z) h) (q : Request) :
    BootSafe z h (stepOf (Dev.step z) d q) ↔
      (d.rebooted = false → BootRequest z h d q.frame) := by
  have hnow : HoldsVerified z h d.slot1 ↔ Vouched z h := holdsVerified_iff hr
  have hnext : HoldsVerified z (stepOf (Dev.step z) d q :: h) (Dev.step z d q).2.slot1 ↔
      Vouched z (stepOf (Dev.step z) d q :: h) := holdsVerified_iff (hr.snoc q)
  have hflag : d.ota.bootFlag = 1 → Vouched z h := run_bootFlag h₀ hr hs
  simp only [BootSafe, stepOf_before, stepOf_input, stepOf_output, stepOf_after, hnow, hnext]
  rcases step_cases z d q with ⟨hb, he⟩ | ⟨hb, hh⟩
  · simpa [he, vouched_rebooted hb, hb] using hflag
  rw [vouched_running hb]
  constructor
  · rintro ⟨hboot, hreset⟩ -
    refine ⟨fun hp => ?_, fun hc hst => hreset hc (hh.reset_answer_iff.2 ⟨hc, hst⟩).2, ?_⟩
    · apply (hboot (hh.bootFlag_iff.2 (Or.inl hp))).2.resolve_left
      intro hv
      exact absurd (hp.cmd.2.symm.trans hv.cmd.2) (by decide)
    · -- A frame that reaches the flash leaves the flag.
      intro hp hf
      refine (hboot (hh.bootFlag_iff.2 (Or.inr ⟨hf, fun hc => ?_⟩))).1 hp
      rcases hp with hp | hp <;> exact absurd (hp.cmd.2.symm.trans hc.1.2) (by decide)
  · intro hreq
    obtain ⟨hpass, hreset, hflash⟩ := hreq hb
    refine ⟨fun hf => ?_, fun hc ha => hreset hc (hh.reset_answer_iff.1 ⟨hc, ha⟩).2⟩
    rcases hh.bootFlag_iff.1 hf with hp | ⟨hf, -⟩
    · refine ⟨fun ht => ?_, Or.inr (hpass hp)⟩
      rcases ht with ht | ht <;> exact absurd (hp.cmd.2.symm.trans ht.cmd.2) (by decide)
    · exact ⟨fun ht => hflash ht hf, Or.inr (hflag hf)⟩

/-- **Boot safety, exactly.** A run from start-up, with any flash outcomes, is safe throughout if
and only if its requests meet `BootRequest`. -/
theorem bootSafe_iff (slot0Open slot1Open : FlashOpen) (slot1 : Mem)
    (hr : Run (Dev.step z) (Dev.boot slot0Open slot1Open slot1) h d) :
    Always (BootSafe z) h ↔ BootRequests z h :=
  hr.always_iff fun _ _ q hr hs => bootSafe_step (boot_bootFlag ..) hr hs q

set_option maxRecDepth 4000 in
/-- An image of two bytes is verified, completed once more and then marked as bootable. -/
theorem bootSafe_board :
    let r := exec (Dev.step .standard) .board
      [⟨.request cmdStartUpgrade [2, 0, 0, 0, 0, 0, 0, 0, 1, 0, 1, 0], .ok⟩,
        ⟨.request cmdTransferData [0, 0, 0, 0, 0xAA, 0xBB], .ok⟩,
        ⟨.request cmdTransferDone [0x98, 0x2C, 0x82, 0x49, 2, 0, 0, 0], .ok⟩,
        ⟨.request cmdVerifyFirmware [], .ok⟩,
        ⟨.request cmdTransferDone [0x98, 0x2C, 0x82, 0x49, 2, 0, 0, 0], .ok⟩,
        ⟨.request cmdSetBootFlag [1], .ok⟩]
    r.2.ota.bootFlag = 1 ∧ Always (BootSafe .standard) r.1 := by
  refine ⟨by decide +kernel, (bootSafe_iff _ _ _ (run_exec _ _ _)).2 ⟨fun _ => ?flag, fun _ => ?_,
    fun _ => ?_, fun _ => ?_, fun _ => ?_, fun _ => ?_, trivial⟩⟩
  case flag =>
    refine ⟨fun _ => ⟨by decide +kernel, Or.inr ⟨by decide +kernel, Or.inl ?_⟩⟩,
      fun hc => absurd hc (by decide +kernel), fun hp => absurd hp (by decide +kernel)⟩
    refine ⟨by decide, by decide +kernel, by decide +kernel, ?_⟩
    rw [imageCrc_eq Zephyr.documented_standard]
    decide +kernel
  all_goals
    exact ⟨fun hp => absurd hp (by decide +kernel), fun hc => absurd hc (by decide +kernel),
      fun hp => by decide +kernel⟩

/-- A SET_BOOT_FLAG(1) right after DONE marks an image that nothing has verified. -/
theorem boot_unverified :
    let r := exec (Dev.step .standard) .board
      [⟨.request cmdStartUpgrade [2, 0, 0, 0, 0, 0, 0, 0, 1, 0, 1, 0], .ok⟩,
        ⟨.request cmdTransferData [0, 0, 0, 0, 0xAA, 0xBB], .ok⟩,
        ⟨.request cmdTransferDone [0, 0, 0, 0, 2, 0, 0, 0], .ok⟩,
        ⟨.request cmdSetBootFlag [1], .ok⟩]
    r.2.ota.bootFlag = 1 ∧ ¬ Always (BootSafe .standard) r.1 := by
  refine ⟨by decide, fun h => ?_⟩
  obtain ⟨n, c, hl, -⟩ := h.1.1 (by decide)
  have hn : some (n, c) = none := hl.symm.trans (by decide)
  cases hn

end ZephyrStm32.Ota
