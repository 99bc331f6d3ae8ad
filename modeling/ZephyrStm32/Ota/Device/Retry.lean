import ZephyrStm32.Ota.Device.Flow

/-!
# Handling a request twice

The PC resends a request whose response is late. `retry_safe_iff` says when the second handling of
a request that was answered 0x00 is answered 0x00 again and changes nothing: for SET_BOOT_FLAG, for
DONE and for a DATA without firmware bytes. A second START, VERIFY or DATA meets a status or an
offset that the first one has moved on.
-/

namespace ZephyrStm32.Ota

open Machine

/-- The same request on the wire, in all that the handlers decide on. What the stack holds behind
`data[0 .. data_len)` may differ. -/
structure SameRequest (f f' : OtaFrame) : Prop where
  dstAddr : f'.dstAddr = f.dstAddr
  cmd : f'.cmd = f.cmd
  dataLen : f'.dataLen = f.dataLen
  payload : f'.payload = f.payload

/-- A request of the upgrade flow. -/
def OtaFrame.OfUpgrade (f : OtaFrame) : Prop :=
  f.cmd = cmdStartUpgrade ∨ f.cmd = cmdTransferData ∨ f.cmd = cmdTransferDone ∨
    f.cmd = cmdVerifyFirmware ∨ f.cmd = cmdSetBootFlag

/-- The second handling is answered 0x00 too, and leaves `ota_state` and slot1 as the first one
left them. -/
def Repeats (z : Zephyr) (d : Dev) (q q' : Request) : Prop :=
  let d₁ := (Dev.step z d q).2
  let r := Dev.step z d₁ q'
  answer r.1 = some 0x00 ∧ r.2.ota = d₁.ota ∧ r.2.slot1 = d₁.slot1

instance (f : OtaFrame) : Decidable f.OfUpgrade := inferInstanceAs (Decidable (_ ∨ _))

/-- When the second handling of `q` repeats the first: SET_BOOT_FLAG; a DONE whose eight bytes are
the same (they are when the payload has them); a DATA without firmware bytes, if its empty write
succeeds again. -/
def RetrySafe (q q' : Request) : Prop :=
  q.frame.cmd = cmdSetBootFlag ∨
    (q.frame.cmd = cmdTransferDone ∧ q'.frame.doneCrc = q.frame.doneCrc ∧
      q'.frame.doneSize = q.frame.doneSize) ∨
    (q.frame.cmd = cmdTransferData ∧ q.frame.dataLen = 4 ∧ (q'.flash 0).err = 0)

variable {z : Zephyr} {fl : FlashCalls} {d : Dev} {f f' : OtaFrame} {r : Handled} {q q' : Request}

theorem SameRequest.isCmd (h : SameRequest f f') {c : UInt16} (hc : f.IsCmd c) : f'.IsCmd c := by
  refine ⟨?_, h.cmd.trans hc.2⟩
  rw [OtaFrame.Addressed, h.dstAddr]
  exact hc.1

/-- A word inside the payload is the same. -/
theorem SameRequest.u32 (h : SameRequest f f') {off : Nat} (ho : off + 4 ≤ f.dataLen.toNat) :
    f'.data.u32 off = f.data.u32 off := by
  have hp := h.payload
  rw [OtaFrame.payload, OtaFrame.payload, h.dataLen, Mem.slice_eq_slice_iff] at hp
  simp only [Nat.zero_add] at hp
  rw [Mem.u32, Mem.u32, hp off (by omega), hp (off + 1) (by omega), hp (off + 2) (by omega),
    hp (off + 3) (by omega)]

theorem Handles.addressed (h : Handles z fl d f r) {b : UInt8} (ha : answer r.1 = some b) :
    f.Addressed := by
  by_contra hn
  cases h with
  | ignored => cases ha
  | _ => grind

theorem Handles.flag_after (h : Handles z fl d f r) (hc : f.IsCmd cmdSetBootFlag)
    (ha : answer r.1 = some 0x00) :
    r.2 = { d with ota := { d.ota with bootFlag := f.data 0 } } := by
  cases h with
  | flagSet _ _ hf => rw [hf]
  | flagCleared _ _ hf => rw [hf]
  | flagRefused => cases ha
  | inquiry _ _ hn => exact absurd hc.2 (hn _ (by simp))
  | _ => grind

/-- A DATA without firmware bytes changes nothing. -/
theorem advanced_empty (hz : z.Documented) (h : f.fwLen = 0) :
    ({ d with ota := d.ota.advanced z f, slot1 := d.slot1.write f.offset.toNat f.fwData } : Dev) =
      d := by
  have hdata : f.fwData = [] := by rw [OtaFrame.fwData, h]; rfl
  have hota : d.ota.advanced z f = d.ota := by
    rw [OtaState.advanced, hdata, h, hz.crc32IeeeUpdate, Crc32.streaming_update.nil]
    simp
  rw [hota, hdata, Mem.write_nil]

/-! ## The five commands, a second time -/

section

variable (hb : d.rebooted = false)
include hb

/-- START leaves the status RECEIVING, and then refuses. -/
theorem start_again (hc : q.frame.IsCmd cmdStartUpgrade) (hs : SameRequest q.frame q'.frame)
    (ha : answer (Dev.step z d q).1 = some 0x00) :
    ¬ Repeats z d q q' := by
  obtain ⟨hp, herr⟩ := (step_handles hb).start_answer_iff.1 ⟨hc, ha⟩
  obtain ⟨-, he⟩ := (step_handles (z := z) hb).start_after hp herr
  unfold Repeats
  rw [he]
  rintro ⟨ha', -⟩
  have hp' := ((step_handles (by exact hb)).start_answer_iff.1 ⟨hs.isCmd hc, ha'⟩).1.status
  rcases hp' with h | h <;> cases h

/-- VERIFY leaves the status VERIFYING, and then refuses. -/
theorem verify_again (hc : q.frame.IsCmd cmdVerifyFirmware) (hs : SameRequest q.frame q'.frame)
    (ha : answer (Dev.step z d q).1 = some 0x00) :
    ¬ Repeats z d q q' := by
  obtain ⟨-, he⟩ := (step_handles hb).verify_after hc ha
  unfold Repeats
  rw [he]
  rintro ⟨ha', -⟩
  have hst := ((step_handles (by exact hb)).verify_answer_iff.1 ⟨hs.isCmd hc, ha'⟩).2.1
  cases hst

/-- DATA moves the expected offset by the bytes it brought. -/
theorem data_again (hz : z.Documented) (hc : q.frame.IsCmd cmdTransferData)
    (hs : SameRequest q.frame q'.frame) (ha : answer (Dev.step z d q).1 = some 0x00) :
    Repeats z d q q' ↔
      q.frame.dataLen = 4 ∧ (q'.flash 0).err = 0 := by
  obtain ⟨hp, herr⟩ := (step_handles hb).data_answer_iff.1 ⟨hc, ha⟩
  obtain ⟨-, he⟩ := (step_handles (z := z) hb).data_after hp herr
  unfold Repeats
  generalize (Dev.step z d q).2 = d₁ at he
  have hb₁ : d₁.rebooted = false := by rw [he]; exact hb
  have hlen : q'.frame.fwLen = q.frame.fwLen := by rw [OtaFrame.fwLen, hs.dataLen]; rfl
  have h4 : 4 ≤ q.frame.dataLen.toNat := UInt16.le_iff_toNat_le.1 hp.len
  have hoff : q'.frame.offset = q.frame.offset := hs.u32 (by omega)
  have hfw : q.frame.fwLen = 0 ↔ q.frame.dataLen = 4 := by
    rw [OtaFrame.fwLen]
    grind
  constructor
  · rintro ⟨ha', -⟩
    obtain ⟨hp', herr'⟩ := (step_handles hb₁).data_answer_iff.1 ⟨hs.isCmd hc, ha'⟩
    have ho : d.ota.currentOffset = d.ota.currentOffset + q.frame.fwLen.toUInt32 := by
      have ho := hp'.offset
      rw [hoff, hp.offset, he] at ho
      exact ho
    refine ⟨hfw.1 (UInt16.toNat_inj.1 ?_), herr'⟩
    have ho := congrArg UInt32.toNat ho
    have hlt := q.frame.fwLen.toNat_lt
    rw [UInt32.toNat_add, UInt16.toNat_toUInt32] at ho
    change q.frame.fwLen.toNat = 0
    omega
  · rintro ⟨hl, herr'⟩
    have h0 : q.frame.fwLen = 0 := hfw.2 hl
    rw [advanced_empty hz h0] at he
    have hp' : DataPasses d₁ q'.frame := by
      rw [he]
      refine ⟨⟨hs.isCmd hc, hp.inProgress, hp.status, hs.dataLen ▸ hp.len⟩, hoff ▸ hp.offset, ?_⟩
      rw [hoff, hlen]
      exact hp.fits
    obtain ⟨ha', he'⟩ := (step_handles (z := z) hb₁).data_after hp' herr'
    rw [advanced_empty hz (hlen.trans h0)] at he'
    exact ⟨ha', congrArg Dev.ota he', congrArg Dev.slot1 he'⟩

/-- DONE is answered again when it carries the same size, and sets the same values. -/
theorem done_again (hc : q.frame.IsCmd cmdTransferDone) (hs : SameRequest q.frame q'.frame)
    (ha : answer (Dev.step z d q).1 = some 0x00) :
    Repeats z d q q' ↔
      q'.frame.doneCrc = q.frame.doneCrc ∧ q'.frame.doneSize = q.frame.doneSize := by
  have hp := (step_handles hb).done_answer_iff.1 ⟨hc, ha⟩
  obtain ⟨-, he⟩ := (step_handles (z := z) hb).done_after hp
  unfold Repeats
  generalize (Dev.step z d q).2 = d₁ at he
  have hb₁ : d₁.rebooted = false := by rw [he]; exact hb
  constructor
  · rintro ⟨ha', hota, -⟩
    have hp' := (step_handles hb₁).done_answer_iff.1 ⟨hs.isCmd hc, ha'⟩
    obtain ⟨-, he'⟩ := (step_handles (z := z) hb₁).done_after hp'
    rw [he', he] at hota
    exact ⟨congrArg OtaState.firmwareCrc hota, congrArg OtaState.firmwareSize hota⟩
  · rintro ⟨hcrc, hsize⟩
    have hp' : DonePasses d₁ q'.frame := by
      rw [he]
      exact ⟨hs.isCmd hc, hp.inProgress, hsize.trans hp.size⟩
    obtain ⟨ha', he'⟩ := (step_handles (z := z) hb₁).done_after hp'
    refine ⟨ha', ?_, by rw [he']⟩
    rw [he', he, OtaState.completed, OtaState.completed, hcrc, hsize]

/-- SET_BOOT_FLAG leaves the status and sets the same flag. -/
theorem flag_again (hc : q.frame.IsCmd cmdSetBootFlag) (hs : SameRequest q.frame q'.frame)
    (ha : answer (Dev.step z d q).1 = some 0x00) :
    Repeats z d q q' := by
  obtain ⟨-, hlen, hg⟩ := (step_handles hb).flag_answer_iff.1 ⟨hc, ha⟩
  have he := (step_handles hb).flag_after hc ha
  unfold Repeats
  generalize (Dev.step z d q).2 = d₁ at he
  have hb₁ : d₁.rebooted = false := by rw [he]; exact hb
  have hflag : q'.frame.data 0 = q.frame.data 0 := by
    have hp := hs.payload
    rw [OtaFrame.payload, OtaFrame.payload, hs.dataLen, Mem.slice_eq_slice_iff] at hp
    exact hp 0 (UInt16.le_iff_toNat_le.1 hlen)
  have ha' := (step_handles (z := z) (q := q') hb₁).flag_answer_iff.2
    ⟨hs.isCmd hc, hs.dataLen ▸ hlen, by rw [hflag, he]; exact hg⟩
  have he' := (step_handles hb₁).flag_after (hs.isCmd hc) ha'.2
  refine ⟨ha'.2, ?_, by rw [he']⟩
  rw [he', hflag, he]

end

/-- **Retries, exactly.** When a request of the upgrade flow was answered 0x00, the same request is
answered 0x00 again and leaves the state and slot1 alone if and only if it is `RetrySafe`. -/
theorem retry_safe_iff (hz : z.Documented) (hcmd : q.frame.OfUpgrade)
    (hs : SameRequest q.frame q'.frame) (ha : answer (Dev.step z d q).1 = some 0x00) :
    Repeats z d q q' ↔ RetrySafe q q' := by
  have hb := running_of_answer ha
  have haddr := (step_handles hb).addressed ha
  rcases hcmd with hc | hc | hc | hc | hc
  · have hn := start_again (z := z) hb ⟨haddr, hc⟩ hs ha
    simp [hn, RetrySafe, hc, cmdStartUpgrade, cmdSetBootFlag, cmdTransferDone, cmdTransferData]
  · rw [data_again hb hz ⟨haddr, hc⟩ hs ha]
    simp [RetrySafe, hc, cmdTransferData, cmdSetBootFlag, cmdTransferDone]
  · rw [done_again hb ⟨haddr, hc⟩ hs ha]
    simp [RetrySafe, hc, cmdTransferData, cmdSetBootFlag, cmdTransferDone]
  · have hn := verify_again (z := z) hb ⟨haddr, hc⟩ hs ha
    simp [hn, RetrySafe, hc, cmdTransferData, cmdSetBootFlag, cmdTransferDone, cmdVerifyFirmware]
  · have hy := flag_again (z := z) hb ⟨haddr, hc⟩ hs ha
    simp [hy, RetrySafe, hc]

/-- DONE after the two bytes of an image, twice. -/
theorem retry_safe_board :
    let d := final (Dev.step .standard) .board
      [.of (cmdStartUpgrade, [2, 0, 0, 0, 0, 0, 0, 0, 1, 0, 1, 0]),
        .of (cmdTransferData, [0, 0, 0, 0, 0xAA, 0xBB])]
    let q := Request.of (cmdTransferDone, [0, 0, 0, 0, 2, 0, 0, 0])
    Repeats .standard d q q :=
  (retry_safe_iff Zephyr.documented_standard (by decide) ⟨rfl, rfl, rfl, rfl⟩ (by decide)).2
    (Or.inr (Or.inl ⟨rfl, rfl, rfl⟩))

/-- A DATA packet that arrives twice ends the session. -/
theorem data_not_repeated :
    let d := final (Dev.step .standard) .board
      [.of (cmdStartUpgrade, [2, 0, 0, 0, 0, 0, 0, 0, 1, 0, 1, 0])]
    let q := Request.of (cmdTransferData, [0, 0, 0, 0, 0xAA, 0xBB])
    answer (Dev.step .standard d q).1 = some 0x00 ∧ ¬ Repeats .standard d q q ∧
      (final (Dev.step .standard) d [q, q]).ota.status = .error := by
  refine ⟨by decide, fun h => absurd h.1 (by decide), by decide⟩

end ZephyrStm32.Ota
