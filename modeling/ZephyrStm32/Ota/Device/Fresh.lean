import ZephyrStm32.Ota.Device.Reset

/-!
# After CANCEL, and after a start

CANCEL resets most of `ota_state`, and `ota_handler_init` what it leaves out: `firmware_size` and
`firmware_crc`; the boot flag is cleared by the start alone.

**Theorem (`cancel_fresh_iff`).** So after a CANCEL the session's fields are those of a fresh device
exactly when these three were zero. Of the three only the size shows: `firmware_crc` is read in a
complete transfer only, which a START and a DONE have overwritten it for, and nothing reads the
flag.
-/

namespace ZephyrStm32.Ota

open Bytes (le32)
open Machine

/-- The fields of a session. -/
structure SameSession (st st' : OtaState) : Prop where
  status : st'.status = st.status
  errorCode : st'.errorCode = st.errorCode
  receivedSize : st'.receivedSize = st.receivedSize
  firmwareSize : st'.firmwareSize = st.firmwareSize
  firmwareCrc : st'.firmwareCrc = st.firmwareCrc
  calculatedCrc : st'.calculatedCrc = st.calculatedCrc
  currentOffset : st'.currentOffset = st.currentOffset
  inProgress : st'.inProgress = st.inProgress
  bootFlag : st'.bootFlag = st.bootFlag

/-- The responses to any sequence of requests. -/
def responses (z : Zephyr) (d : Dev) (qs : List Request) : List (Option (List UInt8)) :=
  (outputs (Dev.step z) d qs).map response

/-- What start-up sets and no command changes. -/
structure SameConfig (st st' : OtaState) : Prop where
  maxPacketSize : st'.maxPacketSize = st.maxPacketSize
  slot0Offset : st'.slot0Offset = st.slot0Offset
  slot1Offset : st'.slot1Offset = st.slot1Offset
  slotSize : st'.slotSize = st.slotSize

variable {z : Zephyr} {fl : FlashCalls} {d d₀ : Dev} {f : OtaFrame} {r : Handled} {q : Request}
  {h : List DevStep}

theorem Handles.config (hh : Handles z fl d f r) : SameConfig d.ota r.2.ota := by
  cases hh <;> exact ⟨rfl, rfl, rfl, rfl⟩

theorem run_config (hr : Run (Dev.step z) d₀ h d) : SameConfig d₀.ota d.ota := by
  refine hr.invariant (P := fun _ d => SameConfig d₀.ota d.ota) ⟨rfl, rfl, rfl, rfl⟩ ?_
  intro _ d q _ ih
  rcases step_cases z d q with ⟨-, he⟩ | ⟨-, hh⟩
  · rwa [he]
  · have hc := hh.config
    exact ⟨hc.1.trans ih.1, hc.2.trans ih.2, hc.3.trans ih.3, hc.4.trans ih.4⟩

/-! ## `firmware_crc` of an idle device -/

/-- `d` with another `firmware_crc`. -/
def Dev.withCrc (d : Dev) (c : UInt32) : Dev := { d with ota := { d.ota with firmwareCrc := c } }

/-- No transfer is under way. -/
def AtRest (d : Dev) : Prop := d.ota.status = .idle ∧ d.ota.inProgress = false

/-- Two results that agree, or still differ in the `firmware_crc` of a device at rest. -/
structure SameButCrc (c : UInt32) (r r' : Handled) : Prop where
  events : r'.1 = r.1
  state : r'.2 = r.2 ∨ AtRest r.2 ∧ r'.2 = r.2.withCrc c

theorem SameButCrc.refl (c : UInt32) (r : Handled) : SameButCrc c r r := ⟨rfl, Or.inl rfl⟩

/-- An answer that leaves the device at rest. -/
theorem sameButCrc_rest {c : UInt32} {d : Dev} (hd : AtRest d) (es : List Event) :
    SameButCrc c (es, d) (es, d.withCrc c) := ⟨rfl, Or.inr ⟨hd, rfl⟩⟩

/-- Every handler gives a device at rest the same outcome whatever its `firmware_crc` is: a START
overwrites it, and DATA, DONE, VERIFY and RESET_RUN are refused. -/
theorem sameButCrc_of_mem_cmdTable {e : UInt16 × (Dev → UInt16 → Mem → UInt16 → Handled)}
    (he : e ∈ cmdTable z fl) (hd : AtRest d) (c : UInt32) (seq : UInt16) (data : Mem)
    (len : UInt16) : SameButCrc c (e.2 d seq data len) (e.2 (d.withCrc c) seq data len) := by
  have hrest := sameButCrc_rest (c := c) hd
  have hp : d.ota.inProgress = false := hd.2
  have hp' : (d.withCrc c).ota.inProgress = false := hd.2
  have hs : d.ota.status ≠ .complete := by
    rw [hd.1]
    decide
  have hs' : (d.withCrc c).ota.status ≠ .complete := hs
  simp only [cmdTable, List.mem_cons, List.not_mem_nil, or_false] at he
  rcases he with rfl | rfl | rfl | rfl | rfl | rfl | rfl | rfl | rfl | rfl
  · exact hrest _
  · exact hrest _
  · exact ite_related (hrest _) (ite_related (hrest _) (SameButCrc.refl c _))
  · dsimp only [otaCmdTransferData]
    rw [if_pos (Or.inl hp), if_pos (Or.inl hp')]
    exact hrest _
  · dsimp only [otaCmdTransferDone]
    rw [if_pos hp, if_pos hp']
    exact hrest _
  · dsimp only [otaCmdVerifyFirmware]
    rw [if_pos hs, if_pos hs']
    exact hrest _
  · dsimp only [otaCmdResetRun]
    rw [if_pos hs, if_pos hs']
    exact hrest _
  · exact ⟨rfl, Or.inr ⟨⟨rfl, rfl⟩, rfl⟩⟩
  · exact hrest _
  · refine ite_related (hrest _) (ite_related ?_ (ite_related ?_ (hrest _)))
    · exact ⟨rfl, Or.inr ⟨hd, rfl⟩⟩
    · exact ⟨rfl, Or.inr ⟨hd, rfl⟩⟩

theorem step_withCrc (hd : AtRest d) (c : UInt32) :
    SameButCrc c (Dev.step z d q) (Dev.step z (d.withCrc c) q) :=
  step_related rfl (sameButCrc_rest hd) fun _ he => sameButCrc_of_mem_cmdTable he hd c _ _ _

/-- **`firmware_crc` of an idle device never shows.** -/
theorem outputs_withCrc (hd : AtRest d) (c : UInt32) (qs : List Request) :
    outputs (Dev.step z) (d.withCrc c) qs = outputs (Dev.step z) d qs := by
  refine (outputs_of_sim (S := fun d d' => d' = d ∨ AtRest d ∧ d' = d.withCrc c)
    (fun d d' q h => ?_) (Or.inr ⟨hd, rfl⟩) qs).1
  rcases h with rfl | ⟨hrest, rfl⟩
  · exact ⟨rfl, Or.inl rfl⟩
  · have hq : SameButCrc c (Dev.step z d q) (Dev.step z (d.withCrc c) q) := step_withCrc hrest c
    exact ⟨hq.events, hq.state⟩

/-! ## The device after CANCEL -/

theorem step_cancel (hb : d.rebooted = false) (hc : q.frame.IsCmd cmdCancelUpgrade) :
    (Dev.step z d q).2 = { d with ota := d.ota.cancelled } := by
  rw [step_running hb, otaFrameProcess_addressed _ _ _ _ hc.1, hc.2]
  rfl

theorem boot_atRest (slot0Open slot1Open : FlashOpen) (m : Mem) :
    AtRest (Dev.boot slot0Open slot1Open m) := by
  obtain ⟨_, _, _, _, h⟩ := boot_ota slot0Open slot1Open m
  rw [AtRest, h]
  exact ⟨rfl, rfl⟩

/-- A cancelled device that had no size differs from a fresh one in `firmware_crc` and the boot
flag. -/
theorem cancelled_eq {slot0Open slot1Open : FlashOpen} {m : Mem}
    (hconfig : SameConfig (Dev.boot slot0Open slot1Open m).ota d.ota) (hb : d.rebooted = false)
    (hsize : d.ota.firmwareSize = 0) :
    ({ d with ota := d.ota.cancelled } : Dev) =
      ((Dev.boot slot0Open slot1Open d.slot1).withCrc d.ota.firmwareCrc).withFlag
        d.ota.bootFlag := by
  obtain ⟨packet, off₀, off₁, size, hboot⟩ := boot_ota slot0Open slot1Open m
  have hboot' : (Dev.boot slot0Open slot1Open d.slot1).ota = _ := hboot
  have hrun : (Dev.boot slot0Open slot1Open d.slot1).rebooted = false := rfl
  obtain ⟨h₁, h₂, h₃, h₄⟩ := hconfig
  rw [hboot] at h₁ h₂ h₃ h₄
  simp only [Dev.withFlag, Dev.withCrc, hboot', hrun, OtaState.cancelled, OtaState.zeroed, hb,
    hsize, h₁, h₂, h₃, h₄]
  rfl

/-- QUERY_STATUS shows the size. -/
theorem response_query (hb : d.rebooted = false) (hc : q.frame.IsCmd cmdQueryStatus) :
    response (Dev.step z d q).1 = some (statusBytes d.ota) := by
  rw [step_running hb, otaFrameProcess_addressed _ _ _ _ hc.1, hc.2]
  rfl

theorem firmwareSize_of_statusBytes {st st' : OtaState} (h : statusBytes st = statusBytes st') :
    st.firmwareSize = st'.firmwareSize := by
  simp only [statusBytes, List.cons_append, List.cons.injEq, List.append_assoc] at h
  have hrest := (List.append_inj h.2 rfl).2
  exact Bytes.le32_injective (List.append_inj hrest rfl).1

/-- **CANCEL and a fresh session.** After a CANCEL the session is that of a fresh device, and all
later sequences of commands get a fresh device's responses, exactly when `firmware_size`,
`firmware_crc` and the boot flag were zero before it; the responses alone are a fresh device's
exactly when `firmware_size` was zero. -/
theorem cancel_fresh_iff {slot0Open slot1Open : FlashOpen} {m : Mem}
    (hr : Run (Dev.step z) (Dev.boot slot0Open slot1Open m) h d) (hb : d.rebooted = false)
    (hc : q.frame.IsCmd cmdCancelUpgrade) :
    ((SameSession ((Dev.step z d q).2.reset slot0Open slot1Open).ota (Dev.step z d q).2.ota ∧
        ∀ qs, responses z (Dev.step z d q).2 qs =
          responses z ((Dev.step z d q).2.reset slot0Open slot1Open) qs) ↔
      d.ota.firmwareSize = 0 ∧ d.ota.firmwareCrc = 0 ∧ d.ota.bootFlag = 0) ∧
    ((∀ qs, responses z (Dev.step z d q).2 qs =
        responses z ((Dev.step z d q).2.reset slot0Open slot1Open) qs) ↔
      d.ota.firmwareSize = 0) := by
  rw [step_cancel hb hc, Dev.reset]
  dsimp only
  set fresh : Dev := Dev.boot slot0Open slot1Open d.slot1 with hfresh
  obtain ⟨packet, off₀, off₁, size, hboot⟩ := boot_ota slot0Open slot1Open d.slot1
  have hresponses : (∀ qs, responses z { d with ota := d.ota.cancelled } qs =
      responses z fresh qs) ↔ d.ota.firmwareSize = 0 := by
    constructor
    · intro hall
      have hq := hall [⟨.request cmdQueryStatus [], .ok⟩]
      simp only [responses, outputs_cons, outputs_nil, List.map_cons, List.map_nil,
        List.cons.injEq, and_true] at hq
      rw [response_query (d := { d with ota := d.ota.cancelled }) hb (by decide),
        response_query (d := fresh) rfl (by decide), Option.some.injEq] at hq
      have hsize := firmwareSize_of_statusBytes hq
      rwa [hfresh, hboot] at hsize
    · intro hsize qs
      rw [cancelled_eq (run_config hr) hb hsize, responses, responses]
      have hflag := (run_flag (z := z) qs
        (⟨d.ota.bootFlag, rfl⟩ : SameButFlag (fresh.withCrc d.ota.firmwareCrc) _)).1
      rw [hflag, outputs_withCrc (boot_atRest slot0Open slot1Open d.slot1)]
  refine ⟨?_, hresponses⟩
  rw [hresponses]
  constructor
  · rintro ⟨hsession, hsize⟩
    have hcrc := hsession.firmwareCrc
    have hflag := hsession.bootFlag
    rw [hfresh, hboot] at hcrc hflag
    exact ⟨hsize, hcrc, hflag⟩
  · rintro ⟨hsize, hcrc, hflag⟩
    rw [hfresh, hboot]
    exact ⟨⟨rfl, rfl, rfl, hsize, hcrc, rfl, rfl, rfl, hflag⟩, hsize⟩

/-- The transfer of an empty image leaves nothing behind: cancelled, the board answers like a fresh
one. -/
theorem cancel_fresh_empty :
    (exec (Dev.step .standard) .board emptyTransfer).2.ota.firmwareSize = 0 ∧ ∀ qs,
      responses .standard (Dev.step .standard (exec (Dev.step .standard) .board emptyTransfer).2
          ⟨.request cmdCancelUpgrade [], .ok⟩).2 qs =
        responses .standard ((Dev.step .standard
          (exec (Dev.step .standard) .board emptyTransfer).2
            ⟨.request cmdCancelUpgrade [], .ok⟩).2.reset
              ⟨0, some ⟨0x20000, 0xF0000⟩⟩ ⟨0, some ⟨0x110000, 0xF0000⟩⟩) qs := by
  refine ⟨by decide, ?_⟩
  exact (cancel_fresh_iff (run_exec (Dev.step .standard) .board emptyTransfer) (by decide)
    (by decide)).2.2 (by decide)

/-- A transfer of three bytes is started and cancelled: QUERY_STATUS still reports the three
bytes. -/
theorem cancel_keeps_size : ¬ ∀ (z : Zephyr) (slot0Open slot1Open : FlashOpen) (m : Mem)
    (h : List DevStep) (d : Dev) (q : Request),
    Run (Dev.step z) (Dev.boot slot0Open slot1Open m) h d → d.rebooted = false →
      q.frame.IsCmd cmdCancelUpgrade →
      SameSession ((Dev.step z d q).2.reset slot0Open slot1Open).ota (Dev.step z d q).2.ota ∧
        ∀ qs, responses z (Dev.step z d q).2 qs =
          responses z ((Dev.step z d q).2.reset slot0Open slot1Open) qs := by
  intro h
  have hr := run_exec (Dev.step .standard) .board
    [⟨.request cmdStartUpgrade (le32 3 ++ le32 0 ++ le32 0), .ok⟩]
  have hall := (h .standard _ _ _ _ _ ⟨.request cmdCancelUpgrade [], .ok⟩ hr (by decide)
    (by decide)).2 [⟨.request cmdQueryStatus [], .ok⟩]
  revert hall
  decide

end ZephyrStm32.Ota
