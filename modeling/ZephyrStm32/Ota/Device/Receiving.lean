import ZephyrStm32.Ota.Device.Session

/-!
# While the device receives

`receiving_invariant`: in every reachable state with the status RECEIVING, the device's counters,
its running checksum and the content of slot1 are those of the session opened by the last accepted
START, and every flash write ever issued lay inside the declared image.

Only the size of the slot is assumed: the sum `offset + fw_len` of a packet must fit 32 bits.
-/

namespace ZephyrStm32.Ota

open Machine

/-- The state of a session in progress. -/
structure Receiving (d : Dev) (s : Session) : Prop extends Counted d s where
  crc : d.ota.firmwareCrc = s.crc
  fits : d.ota.firmwareSize ≤ d.ota.slotSize
  image : d.slot1.slice 0 d.ota.receivedSize.toNat = s.bytes
  checksum : d.ota.calculatedCrc = Crc32.hash s.bytes

variable {z : Zephyr} {fl : FlashCalls} {d : Dev} {f : OtaFrame} {r : Handled}

/-- How a frame can leave the device receiving: an accepted START, an accepted DATA, or a frame
that changes nothing but, at most, the boot flag. -/
theorem Handles.receiving_cases (h : Handles z fl d f r) (hs : r.2.ota.status = .receiving) :
    (StartPasses d f ∧ (fl 0).err = 0 ∧
      r.2 = { d with
        ota := { d.ota.erasing f with status := .receiving }
        slot1 := d.slot1.fill 0 d.ota.slotSize.toNat 0xFF }) ∨
    (DataPasses d f ∧ (fl 0).err = 0 ∧
      r.2 = { d with
        ota := d.ota.advanced z f, slot1 := d.slot1.write f.offset.toNat f.fwData }) ∨
    (d.ota.status = .receiving ∧ Quiet d f ∧
      ∃ b, r.2 = { d with ota := { d.ota with bootFlag := b } }) := by
  cases h with
  | startAccepted hp herr => exact Or.inl ⟨hp, herr, rfl⟩
  | dataAccepted hp herr => exact Or.inr (Or.inl ⟨hp, herr, rfl⟩)
  | startEraseFailed | dataOffset | dataTooLarge | dataWriteFailed | doneMismatch | doneAccepted
  | verifyReadFailed | verifyMatch | verifyMismatch | cancelled => cases hs
  | flagCleared hc =>
    have hs : d.ota.status = .receiving := hs
    exact Or.inr (Or.inr ⟨hs, by grind, 0, rfl⟩)
  | startTooLarge _ _ hi =>
    have hs : d.ota.status = .receiving := hs
    rw [hs] at hi
    rcases hi with hi | hi <;> cases hi
  | resetAccepted _ hi | flagSet _ _ _ hi =>
    have hs : d.ota.status = .receiving := hs
    rw [hs] at hi
    cases hi
  | ignored | inquiry | startRefused | dataRefused | doneRefused | verifyRefused | resetRefused
  | flagRefused =>
    have hs : d.ota.status = .receiving := hs
    exact Or.inr (Or.inr ⟨hs, by grind, d.ota.bootFlag, rfl⟩)

/-- The size of the slot is set at start-up and never changes. -/
theorem Handles.slotSize (h : Handles z fl d f r) : r.2.ota.slotSize = d.ota.slotSize := by
  cases h <;> rfl

/-! ## The parts of the invariant -/

theorem receiving_start (hp : StartPasses d f) (m : Mem) :
    Receiving { d with ota := { d.ota.erasing f with status := .receiving }, slot1 := m }
      (.start f) where
  toCounted := counted_start d f m
  crc := rfl
  fits := hp.size
  image := rfl
  checksum := Crc32.hash_nil.symm

theorem Receiving.accept (hz : z.Documented) {s : Session} (h : Receiving d s)
    (hp : DataPasses d f) (hw : NoWrap d f) :
    Receiving { d with
      ota := d.ota.advanced z f
      slot1 := d.slot1.write f.offset.toNat f.fwData } (s.accept f.fwData) where
  toCounted := h.toCounted.accept hp hw _
  crc := h.crc
  fits := h.fits
  image := by
    have hoff : f.offset.toNat = d.ota.receivedSize.toNat := by rw [hp.offset, h.offset]
    have hlen := (h.toCounted.accept (z := z) hp hw d.slot1).received
    rw [Session.bytes_accept, List.length_append, ← h.received] at hlen
    have hw := Mem.slice_write_append d.slot1 0 d.ota.receivedSize.toNat f.fwData
    rw [Nat.zero_add, h.image] at hw
    rw [Session.bytes_accept, hlen, hoff]
    exact hw
  checksum := by
    change z.crc32IeeeUpdate d.ota.calculatedCrc f.fwData = _
    rw [hz.crc32IeeeUpdate, h.checksum, Crc32.update_hash, Session.bytes_accept]

/-- In a slot of less than `2^32 - 65535` bytes no packet's end leaves 32 bits. -/
theorem Receiving.noWrap {s : Session} (h : Receiving d s)
    (hslot : d.ota.slotSize.toNat + 65535 < 2 ^ 32) (f : OtaFrame) : NoWrap d f := by
  have h₁ := UInt32.le_iff_toNat_le.1 h.le
  have h₂ := UInt32.le_iff_toNat_le.1 h.fits
  have h₃ := f.fwLen.toNat_lt
  unfold NoWrap
  rw [h.offset]
  omega

/-! ## Over whole runs -/

/-- A run's status RECEIVING comes with a session and the device's record of it. -/
theorem run_receiving (hz : z.Documented) {d₀ : Dev}
    (hslot : d₀.ota.slotSize.toNat + 65535 < 2 ^ 32) (h₀ : d₀.ota.status = .idle)
    {h : List DevStep} {d : Dev} (hr : Run (Dev.step z) d₀ h d) :
    d.ota.slotSize = d₀.ota.slotSize ∧
      (d.ota.status = .receiving → ∃ s, session h = some s ∧ Receiving d s) := by
  refine hr.invariant (P := fun h d => d.ota.slotSize = d₀.ota.slotSize ∧
    (d.ota.status = .receiving → ∃ s, session h = some s ∧ Receiving d s))
    ⟨rfl, fun hs => by rw [h₀] at hs; cases hs⟩ ?_
  rintro h d q - ⟨hsize, ih⟩
  rcases step_cases z d q with ⟨hb, he⟩ | ⟨hb, hh⟩
  · rw [session_rebooted hb, he]
    exact ⟨hsize, ih⟩
  refine ⟨hh.slotSize.trans hsize, fun hs => ?_⟩
  rcases hh.receiving_cases hs with ⟨hp, herr, he⟩ | ⟨hp, herr, he⟩ | ⟨hrec, hq, b, he⟩
  · rw [session_of_start hb hp herr, he]
    exact ⟨_, rfl, receiving_start hp _⟩
  · obtain ⟨s, hses, hs⟩ := ih hp.status
    rw [session_of_data hb hp herr, hses, he]
    exact ⟨_, rfl, hs.accept hz hp (hs.noWrap (hsize ▸ hslot) q.frame)⟩
  · obtain ⟨s, hses, hs⟩ := ih hrec
    rw [session_of_quiet hb hq, hses, he]
    exact ⟨s, rfl, hs.toCounted.bootFlag b, hs.crc, hs.fits, hs.image, hs.checksum⟩

/-- What may be done to the flash: erases and writes of slot1 only, and writes inside the image
that the session declared. -/
def FlashInside (st : DevStep) : FlashOp → Prop
  | .erase area off len =>
    area = .slot1 ∧ off.toNat + len.toNat ≤ st.before.ota.slotSize.toNat
  | .write area off data =>
    area = .slot1 ∧ off.toNat + data.length ≤ st.before.ota.firmwareSize.toNat ∧
      st.before.ota.firmwareSize ≤ st.before.ota.slotSize
  | .read area _ _ => area = .slot1

theorem Handles.flash_cases (h : Handles z fl d f r) {op : FlashOp} (ho : .flash op ∈ r.1) :
    (StartPasses d f ∧ op = .erase .slot1 0 d.ota.slotSize) ∨
      (DataPasses d f ∧ op = .write .slot1 f.offset f.fwData) ∨
      ∃ off len, op = .read .slot1 off len := by
  have hreads : ∀ seq cmd data, .flash op ∈ (verifyRun z fl d).1 ++ [.send seq cmd data] →
      ∃ off len, op = .read .slot1 off len := by
    intro seq cmd data ho
    rcases List.mem_append.1 ho with ho | ho
    · obtain ⟨off, len, he⟩ := verifyRun_reads _ ho
      exact ⟨off, len, Event.flash.inj he⟩
    · simp at ho
  cases h with
  | startEraseFailed hp | startAccepted hp => exact Or.inl ⟨hp, by simpa using ho⟩
  | dataWriteFailed hp | dataAccepted hp => exact Or.inr (Or.inl ⟨hp, by simpa using ho⟩)
  | verifyReadFailed | verifyMatch | verifyMismatch =>
    exact Or.inr (Or.inr (hreads _ _ _ ho))
  | _ => simp at ho

theorem run_flashInside (hz : z.Documented) {d₀ : Dev}
    (hslot : d₀.ota.slotSize.toNat + 65535 < 2 ^ 32) (h₀ : d₀.ota.status = .idle)
    {h : List DevStep} {d : Dev} (hr : Run (Dev.step z) d₀ h d) :
    ∀ st ∈ h, ∀ op, .flash op ∈ st.output → FlashInside st op := by
  refine hr.invariant (P := fun h _ => ∀ st ∈ h, ∀ op, .flash op ∈ st.output → FlashInside st op)
    (fun st hst => by cases hst) ?_
  intro h d q hr ih st hst op ho
  rcases List.mem_cons.1 hst with rfl | hst
  case inr => exact ih st hst op ho
  have ho : .flash op ∈ (Dev.step z d q).1 := ho
  rcases step_cases z d q with ⟨-, he⟩ | ⟨-, hh⟩
  · rw [he] at ho
    cases ho
  obtain ⟨hsize, hrec⟩ := run_receiving hz hslot h₀ hr
  rcases hh.flash_cases ho with ⟨-, rfl⟩ | ⟨hp, rfl⟩ | ⟨off, len, rfl⟩
  · exact ⟨rfl, by simp⟩
  · obtain ⟨s, -, hs⟩ := hrec hp.status
    have hw : d.ota.currentOffset.toNat + q.frame.fwLen.toNat < 2 ^ 32 :=
      hs.noWrap (hsize ▸ hslot) q.frame
    have hf := UInt32.le_iff_toNat_le.1 hp.fits
    rw [UInt32.toNat_add, UInt16.toNat_toUInt32, hp.offset, Nat.mod_eq_of_lt hw] at hf
    refine ⟨rfl, ?_, hs.fits⟩
    rw [OtaFrame.length_fwData, hp.offset]
    exact hf
  · rfl

/-- **The receiving invariant.** In every state reached from start-up by any frames and any flash
outcomes: if the status is RECEIVING, the device holds the session of the last accepted START; and
every flash operation issued so far lay inside slot1, the writes inside the declared image. -/
theorem receiving_invariant (hz : z.Documented) (slot0Open slot1Open : FlashOpen) (slot1 : Mem)
    (hslot : (Dev.boot slot0Open slot1Open slot1).ota.slotSize.toNat + 65535 < 2 ^ 32)
    {h : List DevStep} {d : Dev}
    (hr : Run (Dev.step z) (Dev.boot slot0Open slot1Open slot1) h d) :
    (d.ota.status = .receiving → ∃ s, session h = some s ∧ Receiving d s) ∧
      ∀ st ∈ h, ∀ op, .flash op ∈ st.output → FlashInside st op :=
  ⟨(run_receiving hz hslot (boot_idle ..) hr).2, run_flashInside hz hslot (boot_idle ..) hr⟩

/-- A START of three bytes and the first two of them, on the board. -/
theorem receiving_invariant_board :
    let r := exec (Dev.step .standard) .board
      [⟨.request cmdStartUpgrade [3, 0, 0, 0, 0, 0, 0, 0, 1, 0, 1, 0], .ok⟩,
        ⟨.request cmdTransferData [0, 0, 0, 0, 0xAA, 0xBB], .ok⟩]
    r.2.ota.status = .receiving ∧ ∃ s, session r.1 = some s ∧ Receiving r.2 s :=
  ⟨by decide, (receiving_invariant Zephyr.documented_standard _ _ _ (by decide)
    (run_exec _ _ _)).1 (by decide)⟩

end ZephyrStm32.Ota
