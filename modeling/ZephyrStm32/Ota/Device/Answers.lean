import ZephyrStm32.Ota.Device.Verify

/-!
# When a command is answered 0x00, and when it touches the flash

For each command the answer 0x00 is equivalent to the guards of its successful branch. Together
with the branches themselves this is all the results use of the handlers.
-/

namespace ZephyrStm32.Ota

attribute [grind =] OtaFrame.IsCmd
attribute [grind] cmdStartUpgrade cmdTransferData cmdTransferDone cmdVerifyFirmware cmdResetRun
  cmdCancelUpgrade cmdSetBootFlag fail4 fail5 ackBytes Event.touchesFlash

@[simp] theorem response_send (seq cmd : UInt16) (data : List UInt8) (es : List Event) :
    response (.send seq cmd data :: es) = some data := rfl

@[simp, grind =] theorem answer_nil : answer [] = none := rfl

@[simp, grind =] theorem answer_send (seq cmd : UInt16) (data : List UInt8) (es : List Event) :
    answer (.send seq cmd data :: es) = data.head? := rfl

@[simp, grind =] theorem answer_flash (op : FlashOp) (es : List Event) :
    answer (.flash op :: es) = answer es := rfl

@[grind =]
theorem startPasses_iff {d : Dev} {f : OtaFrame} : StartPasses d f ↔ f.IsCmd cmdStartUpgrade ∧
    12 ≤ f.dataLen ∧ (d.ota.status = .idle ∨ d.ota.status = .complete) ∧
      f.startSize ≤ d.ota.slotSize :=
  ⟨fun ⟨h₁, h₂, h₃, h₄⟩ => ⟨h₁, h₂, h₃, h₄⟩, fun ⟨h₁, h₂, h₃, h₄⟩ => ⟨h₁, h₂, h₃, h₄⟩⟩

@[grind =]
theorem dataTaken_iff {d : Dev} {f : OtaFrame} : DataTaken d f ↔ f.IsCmd cmdTransferData ∧
    d.ota.inProgress = true ∧ d.ota.status = .receiving ∧ 4 ≤ f.dataLen :=
  ⟨fun ⟨h₁, h₂, h₃, h₄⟩ => ⟨h₁, h₂, h₃, h₄⟩, fun ⟨h₁, h₂, h₃, h₄⟩ => ⟨h₁, h₂, h₃, h₄⟩⟩

@[grind =]
theorem dataPasses_iff {d : Dev} {f : OtaFrame} : DataPasses d f ↔ DataTaken d f ∧
    f.offset = d.ota.currentOffset ∧ f.offset + f.fwLen.toUInt32 ≤ d.ota.firmwareSize :=
  ⟨fun ⟨h₁, h₂, h₃⟩ => ⟨h₁, h₂, h₃⟩, fun ⟨h₁, h₂, h₃⟩ => ⟨h₁, h₂, h₃⟩⟩

@[grind =]
theorem donePasses_iff {d : Dev} {f : OtaFrame} : DonePasses d f ↔ f.IsCmd cmdTransferDone ∧
    d.ota.inProgress = true ∧ f.doneSize = d.ota.receivedSize :=
  ⟨fun ⟨h₁, h₂, h₃⟩ => ⟨h₁, h₂, h₃⟩, fun ⟨h₁, h₂, h₃⟩ => ⟨h₁, h₂, h₃⟩⟩

instance (d : Dev) (f : OtaFrame) : Decidable (StartPasses d f) :=
  decidable_of_iff' _ startPasses_iff

instance (d : Dev) (f : OtaFrame) : Decidable (DataTaken d f) := decidable_of_iff' _ dataTaken_iff

instance (d : Dev) (f : OtaFrame) : Decidable (DataPasses d f) :=
  decidable_of_iff' _ dataPasses_iff

instance (d : Dev) (f : OtaFrame) : Decidable (DonePasses d f) :=
  decidable_of_iff' _ donePasses_iff

variable {z : Zephyr} {fl : FlashCalls} {d : Dev} {f : OtaFrame} {r : Handled}

/-! ## Behind the reads of VERIFY -/

theorem response_append_of_reads {es : List Event}
    (h : ∀ e ∈ es, ∃ off len, e = .flash (.read .slot1 off len)) (es' : List Event) :
    response (es ++ es') = response es' := by
  induction es with
  | nil => rfl
  | cons e es ih =>
    obtain ⟨off, len, rfl⟩ := h e List.mem_cons_self
    exact ih fun e' he' => h e' (List.mem_cons_of_mem _ he')

@[simp] theorem response_verifyRun (es : List Event) :
    response ((verifyRun z fl d).1 ++ es) = response es :=
  response_append_of_reads verifyRun_reads es

@[simp, grind =] theorem answer_verifyRun (es : List Event) :
    answer ((verifyRun z fl d).1 ++ es) = answer es :=
  congrArg (·.bind List.head?) (response_verifyRun es)

@[simp, grind =] theorem any_touchesFlash_verifyRun :
    (verifyRun z fl d).1.any Event.touchesFlash = false := by
  rw [List.any_eq_false]
  intro e he
  obtain ⟨off, len, rfl⟩ := verifyRun_reads e he
  simp [Event.touchesFlash]

/-! ## What a refusal contradicts -/

/-- A frame is a request of one command. -/
theorem OtaFrame.IsCmd.other {c c' : UInt16} (h : f.IsCmd c) (hne : c ≠ c') : ¬ f.IsCmd c' :=
  fun h' => hne (h.2.symm.trans h'.2)

theorem StartPasses.not_refused (h : StartPasses d f) :
    ¬ (f.dataLen < 12 ∨ d.ota.status ≠ .idle ∧ d.ota.status ≠ .complete) := by
  intro hg
  rcases hg with hlen | ⟨hidle, hcomplete⟩
  · exact UInt16.not_lt.2 h.len hlen
  · exact h.status.elim hidle hcomplete

theorem DataTaken.not_refused (h : DataTaken d f) :
    ¬ (d.ota.inProgress = false ∨ d.ota.status ≠ .receiving ∨ f.dataLen < 4) := by
  intro hg
  rcases hg with hp | hs | hlen
  · exact Bool.noConfusion (hp.symm.trans h.inProgress)
  · exact hs h.status
  · exact UInt16.not_lt.2 h.len hlen

theorem DonePasses.not_refused (h : DonePasses d f) : ¬ d.ota.inProgress = false := by
  intro hp
  exact Bool.noConfusion (hp.symm.trans h.inProgress)

/-! ## The flash -/

/-- An erase or a write is issued exactly by a START or a DATA that passes its guards. -/
theorem Handles.touchesFlash_iff (h : Handles z fl d f r) :
    r.1.any Event.touchesFlash = true ↔ StartPasses d f ∨ DataPasses d f := by
  cases h with
  | startRefused hc hg =>
    have hd : ¬ DataPasses d f := fun hp => hc.other (by decide) hp.cmd
    exact iff_of_false Bool.false_ne_true (not_or.2 ⟨fun hp => hp.not_refused hg, hd⟩)
  | startTooLarge hc _ _ hsize =>
    have hs : ¬ StartPasses d f := fun hp => UInt32.not_lt.2 hp.size hsize
    have hd : ¬ DataPasses d f := fun hp => hc.other (by decide) hp.cmd
    exact iff_of_false Bool.false_ne_true (not_or.2 ⟨hs, hd⟩)
  | startEraseFailed hp => exact iff_of_true rfl (Or.inl hp)
  | startAccepted hp => exact iff_of_true rfl (Or.inl hp)
  | dataRefused hc hg =>
    have hs : ¬ StartPasses d f := fun hp => hc.other (by decide) hp.cmd
    exact iff_of_false Bool.false_ne_true (not_or.2 ⟨hs, fun hp => hp.not_refused hg⟩)
  | dataOffset ht ho =>
    have hs : ¬ StartPasses d f := fun hp => ht.cmd.other (by decide) hp.cmd
    exact iff_of_false Bool.false_ne_true (not_or.2 ⟨hs, fun hp => ho hp.offset⟩)
  | dataTooLarge ht _ hsize =>
    have hs : ¬ StartPasses d f := fun hp => ht.cmd.other (by decide) hp.cmd
    have hd : ¬ DataPasses d f := fun hp => UInt32.not_lt.2 hp.fits hsize
    exact iff_of_false Bool.false_ne_true (not_or.2 ⟨hs, hd⟩)
  | dataWriteFailed hp => exact iff_of_true rfl (Or.inr hp)
  | dataAccepted hp => exact iff_of_true rfl (Or.inr hp)
  -- the branches of the other commands
  | _ => grind

/-- Otherwise slot1 stays as it is. -/
theorem Handles.slot1_eq (h : Handles z fl d f r) (hn : ¬ (StartPasses d f ∨ DataPasses d f)) :
    r.2.slot1 = d.slot1 := by
  cases h with
  | startEraseFailed hp => exact absurd (Or.inl hp) hn
  | startAccepted hp => exact absurd (Or.inl hp) hn
  | dataWriteFailed hp => exact absurd (Or.inr hp) hn
  | dataAccepted hp => exact absurd (Or.inr hp) hn
  | _ => rfl

/-! ## The answers

In each equivalence the branches of its own command are named: a refusal is answered by another
byte and contradicts a guard. In the other branches the frame is another command. -/

theorem Handles.start_answer_iff (h : Handles z fl d f r) :
    f.IsCmd cmdStartUpgrade ∧ answer r.1 = some 0x00 ↔ StartPasses d f ∧ (fl 0).err = 0 := by
  cases h with
  | startRefused _ hg => exact iff_of_false (by simp [fail4]) fun hp => hp.1.not_refused hg
  | startTooLarge _ _ _ hsize =>
    exact iff_of_false (by simp [fail4]) fun hp => UInt32.not_lt.2 hp.1.size hsize
  | startEraseFailed _ herr => exact iff_of_false (by simp [fail4]) fun hp => herr hp.2
  | startAccepted hp herr => exact iff_of_true ⟨hp.cmd, rfl⟩ ⟨hp, herr⟩
  | _ => grind

theorem Handles.data_answer_iff (h : Handles z fl d f r) :
    f.IsCmd cmdTransferData ∧ answer r.1 = some 0x00 ↔ DataPasses d f ∧ (fl 0).err = 0 := by
  cases h with
  | dataRefused _ hg => exact iff_of_false (by simp [fail5]) fun hp => hp.1.not_refused hg
  | dataOffset _ ho => exact iff_of_false (by simp) fun hp => ho hp.1.offset
  | dataTooLarge _ _ hsize =>
    exact iff_of_false (by simp [fail5]) fun hp => UInt32.not_lt.2 hp.1.fits hsize
  | dataWriteFailed _ herr => exact iff_of_false (by simp [fail5]) fun hp => herr hp.2
  | dataAccepted hp herr => exact iff_of_true ⟨hp.cmd, rfl⟩ ⟨hp, herr⟩
  | _ => grind

theorem Handles.done_answer_iff (h : Handles z fl d f r) :
    f.IsCmd cmdTransferDone ∧ answer r.1 = some 0x00 ↔ DonePasses d f := by
  cases h with
  | doneRefused _ hp => exact iff_of_false (by simp [fail5]) fun hd => hd.not_refused hp
  | doneMismatch _ _ hsize => exact iff_of_false (by simp [fail5]) fun hd => hsize hd.size
  | doneAccepted hd => exact iff_of_true ⟨hd.cmd, rfl⟩ hd
  | _ => grind

theorem Handles.verify_answer_iff (h : Handles z fl d f r) :
    f.IsCmd cmdVerifyFirmware ∧ answer r.1 = some 0x00 ↔
      f.IsCmd cmdVerifyFirmware ∧ d.ota.status = .complete ∧
        (verifyRun z fl d).2 = some d.ota.firmwareCrc := by
  cases h with
  | verifyRefused _ hs => exact iff_of_false (by simp [fail5]) fun hv => hs hv.2.1
  | verifyReadFailed _ _ hr =>
    refine iff_of_false (by simp [fail5]) fun hv => ?_
    exact Option.some_ne_none _ (hv.2.2.symm.trans hr)
  | verifyMatch hc hs hr => exact iff_of_true ⟨hc, by simp [ackBytes]⟩ ⟨hc, hs, hr⟩
  | verifyMismatch _ _ crc hr hcrc =>
    refine iff_of_false (by simp [ackBytes]) fun hv => ?_
    exact hcrc (Option.some.inj (hr.symm.trans hv.2.2))
  | _ => grind

theorem Handles.reset_answer_iff (h : Handles z fl d f r) :
    f.IsCmd cmdResetRun ∧ answer r.1 = some 0x00 ↔
      f.IsCmd cmdResetRun ∧ d.ota.status = .complete := by
  cases h with
  | resetRefused _ hs => exact iff_of_false (by simp) fun hr => hs hr.2
  | resetAccepted hc hs => exact iff_of_true ⟨hc, rfl⟩ ⟨hc, hs⟩
  | _ => grind

theorem Handles.cancel_answer_iff (h : Handles z fl d f r) :
    f.IsCmd cmdCancelUpgrade ∧ answer r.1 = some 0x00 ↔ f.IsCmd cmdCancelUpgrade := by
  cases h with
  | cancelled hc => exact iff_of_true ⟨hc, rfl⟩ hc
  | _ => grind

theorem Handles.flag_answer_iff (h : Handles z fl d f r) :
    f.IsCmd cmdSetBootFlag ∧ answer r.1 = some 0x00 ↔ f.IsCmd cmdSetBootFlag ∧ 1 ≤ f.dataLen ∧
      (f.data 0 = 0x01 ∧ d.ota.status = .complete ∨ f.data 0 = 0x00) := by
  cases h with
  | flagSet hc hlen hflag hs => exact iff_of_true ⟨hc, rfl⟩ ⟨hc, hlen, Or.inl ⟨hflag, hs⟩⟩
  | flagCleared hc hlen hflag => exact iff_of_true ⟨hc, rfl⟩ ⟨hc, hlen, Or.inr hflag⟩
  | flagRefused _ hg =>
    refine iff_of_false (by simp) ?_
    rintro ⟨-, hlen, hflag⟩
    rcases hg with hshort | ⟨hne, hset⟩
    · exact UInt16.not_lt.2 hlen hshort
    · exact hflag.elim (fun hf => hset hf.1 hf.2) hne
  | _ => grind

/-- A command of the upgrade is always answered. -/
theorem Handles.answered (h : Handles z fl d f r) {c : UInt16} (hc : f.IsCmd c)
    (hmem : c ∈ [cmdStartUpgrade, cmdTransferData, cmdTransferDone, cmdVerifyFirmware, cmdResetRun,
      cmdCancelUpgrade, cmdSetBootFlag]) : answer r.1 ≠ none := by
  cases h with
  | ignored hn => exact absurd hc.1 hn
  | inquiry _ _ hn => exact absurd hc.2 (hn c hmem)
  | verifyRefused | verifyReadFailed | verifyMatch | verifyMismatch => simp [fail5, ackBytes]
  | _ => exact Option.some_ne_none _

end ZephyrStm32.Ota
