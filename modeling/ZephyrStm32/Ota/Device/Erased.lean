import ZephyrStm32.Ota.Device.Receiving

/-!
# The flash is programmed where it is erased

NOR flash is programmed once between two erases. A START erases the whole slot, the packets follow
one another from its front, and whatever interrupts them ends the status RECEIVING, without which
nothing is written.

**Theorem (`writes_erased`).** In every run from start-up, each write that the device issues goes
to bytes of slot1 that are erased.
-/

namespace ZephyrStm32.Ota

open Machine

/-- Every byte behind the packets received so far is erased. -/
def ErasedAhead (d : Dev) : Prop :=
  ∀ i, d.ota.currentOffset.toNat ≤ i → i < d.ota.slotSize.toNat → d.slot1 i = 0xFF

variable {z : Zephyr} {d : Dev} {f : OtaFrame}

theorem erasedAhead_start (f : OtaFrame) : ErasedAhead { d with
    ota := { d.ota.erasing f with status := .receiving }
    slot1 := d.slot1.fill 0 d.ota.slotSize.toNat 0xFF } := by
  intro i _ hi
  exact if_pos ⟨Nat.zero_le i, by rwa [Nat.zero_add]⟩

/-- A packet is written at the offset, and the offset moves behind it. -/
theorem ErasedAhead.accept (h : ErasedAhead d) (hp : DataPasses d f) (hw : NoWrap d f) :
    ErasedAhead { d with
      ota := d.ota.advanced z f
      slot1 := d.slot1.write f.offset.toNat f.fwData } := by
  intro i hge hlt
  have hoffset : (d.ota.advanced z f).currentOffset.toNat =
      d.ota.currentOffset.toNat + f.fwLen.toNat := by
    change (d.ota.currentOffset + f.fwLen.toUInt32).toNat = _
    rw [UInt32.toNat_add, UInt16.toNat_toUInt32, Nat.mod_eq_of_lt hw]
  have hge : d.ota.currentOffset.toNat + f.fwLen.toNat ≤ i := hoffset ▸ hge
  have hbehind : d.slot1.write f.offset.toNat f.fwData i = d.slot1 i := by
    rw [Mem.write, if_neg]
    rw [hp.offset, OtaFrame.length_fwData]
    omega
  change d.slot1.write f.offset.toNat f.fwData i = 0xFF
  rw [hbehind]
  exact h i (by omega) hlt

theorem run_erasedAhead (hz : z.Documented) {d₀ : Dev}
    (hslot : d₀.ota.slotSize.toNat + 65535 < 2 ^ 32) (h₀ : d₀.ota.status = .idle)
    {h : List DevStep} (hr : Run (Dev.step z) d₀ h d) :
    d.ota.status = .receiving → ErasedAhead d := by
  refine hr.invariant (P := fun _ d => d.ota.status = .receiving → ErasedAhead d)
    (fun hs => by rw [h₀] at hs; cases hs) ?_
  intro h d q hr ih hs
  rcases step_cases z d q with ⟨-, he⟩ | ⟨-, hh⟩
  · rw [he] at hs ⊢
    exact ih hs
  rcases hh.receiving_cases hs with ⟨hp, -, he⟩ | ⟨hp, -, he⟩ | ⟨hrec, -, b, he⟩
  · rw [he]
    exact erasedAhead_start q.frame
  · obtain ⟨hsize, hsession⟩ := run_receiving hz hslot h₀ hr
    obtain ⟨s, -, hreceiving⟩ := hsession hp.status
    rw [he]
    exact (ih hp.status).accept hp (hreceiving.noWrap (hsize ▸ hslot) q.frame)
  · rw [he]
    exact ih hrec

/-- The bytes that an accepted packet is written to. -/
theorem ErasedAhead.slice (h : ErasedAhead d) (hp : DataPasses d f)
    (hfits : f.offset.toNat + f.fwData.length ≤ d.ota.slotSize.toNat) :
    d.slot1.slice f.offset.toNat f.fwData.length = List.replicate f.fwData.length 0xFF := by
  rw [Mem.slice_eq_iff List.length_replicate]
  intro i hi
  have hrep : (List.replicate f.fwData.length (0xFF : UInt8)).getD i 0 = 0xFF := by
    rw [List.getD, List.getElem?_replicate_of_lt hi, Option.getD_some]
  rw [hrep, hp.offset]
  rw [hp.offset] at hfits
  exact h _ (Nat.le_add_right ..) (by omega)

/-- **Nothing is programmed twice.** Every byte that a write goes to is erased. -/
theorem writes_erased (hz : z.Documented) (slot0Open slot1Open : FlashOpen) (slot1 : Mem)
    (hslot : (Dev.boot slot0Open slot1Open slot1).ota.slotSize.toNat + 65535 < 2 ^ 32)
    {h : List DevStep} (hr : Run (Dev.step z) (Dev.boot slot0Open slot1Open slot1) h d) :
    ∀ st ∈ h, ∀ off data, .flash (.write .slot1 off data) ∈ st.output →
      st.before.slot1.slice off.toNat data.length = List.replicate data.length 0xFF := by
  have hboot := boot_idle slot0Open slot1Open slot1
  refine hr.invariant (P := fun h _ => ∀ st ∈ h, ∀ off data,
    .flash (.write .slot1 off data) ∈ st.output →
      st.before.slot1.slice off.toNat data.length = List.replicate data.length 0xFF)
    (fun st hst => by cases hst) ?_
  intro h d q hr ih st hst off data ho
  rcases List.mem_cons.1 hst with rfl | hst
  case inr => exact ih st hst off data ho
  have hinside := run_flashInside hz hslot hboot (.snoc q hr) _ List.mem_cons_self _ ho
  have ho : .flash (.write .slot1 off data) ∈ (Dev.step z d q).1 := ho
  rcases step_cases z d q with ⟨-, he⟩ | ⟨-, hh⟩
  · rw [he] at ho
    cases ho
  rcases hh.flash_cases ho with ⟨-, he⟩ | ⟨hp, he⟩ | ⟨_, _, he⟩
  · cases he
  · cases he
    have hsize := UInt32.le_iff_toNat_le.1 hinside.2.2
    exact (run_erasedAhead hz hslot hboot hr hp.status).slice hp (hinside.2.1.trans hsize)
  · cases he

/-- A START of three bytes and two packets, on the board. -/
theorem writes_erased_board :
    let h := (exec (Dev.step .standard) .board
      [⟨.request cmdStartUpgrade [3, 0, 0, 0, 0, 0, 0, 0, 1, 0, 1, 0], .ok⟩,
        ⟨.request cmdTransferData [0, 0, 0, 0, 0xAA, 0xBB], .ok⟩,
        ⟨.request cmdTransferData [2, 0, 0, 0, 0xCC], .ok⟩]).1
    (∃ st ∈ h, .flash (.write .slot1 2 [0xCC]) ∈ st.output) ∧
      ∀ st ∈ h, ∀ off data, .flash (.write .slot1 off data) ∈ st.output →
        st.before.slot1.slice off.toNat data.length = List.replicate data.length 0xFF :=
  ⟨by decide, writes_erased Zephyr.documented_standard _ _ _ (by decide) (run_exec _ _ _)⟩

end ZephyrStm32.Ota
