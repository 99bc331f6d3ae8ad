import ZephyrStm32.Ota.Device.Answers

/-!
# What a handler reads behind the payload

`ota_process_rx` parses into a struct on the stack and fills `data[0 .. data_len)` only. Every
handler but one compares `len` with its layout before it reads (`reads_of_mem_cmdTable`);
`ota_cmd_transfer_done` reads eight bytes whatever `len` is.

**Theorem (`payload_decides_iff`).** What the device does with a frame is decided by the header and
by `data[0 .. data_len)` unless the frame is a DONE of fewer than eight bytes, in a session, whose
payload agrees with the received size as far as it goes: then the stack decides whether the
transfer completes.
-/

namespace ZephyrStm32.Ota

open Bytes (le32)

/-- The handling of `f` does not depend on what is behind `data[0 .. data_len)`: responses, flash
operations and the next state are the same for every `data` that holds the same payload. -/
def PayloadDecides (z : Zephyr) (fl : FlashCalls) (d : Dev) (f : OtaFrame) : Prop :=
  ∀ m : Mem, (∀ i < f.dataLen.toNat, m i = f.data i) →
    otaFrameProcess z fl d { f with data := m } = otaFrameProcess z fl d f

/-- A DONE in a session whose payload ends before the declared size does, and agrees with the
received size up to there. -/
structure DoneCutShort (d : Dev) (f : OtaFrame) : Prop where
  cmd : f.IsCmd cmdTransferDone
  inProgress : d.ota.inProgress = true
  short : f.dataLen.toNat < 8
  agrees : ∀ i < f.dataLen.toNat, 4 ≤ i → f.data i = (le32 d.ota.receivedSize).getD (i - 4) 0

/-! ## The handlers -/

/-- With a payload of `n` bytes or more, the handler reads nothing behind the payload. -/
def ReadsPayload (n : Nat) (handler : Dev → UInt16 → Mem → UInt16 → Handled) : Prop :=
  ∀ (d : Dev) (seq len : UInt16) (m m' : Mem), n ≤ len.toNat →
    (∀ i < len.toNat, m i = m' i) → handler d seq m len = handler d seq m' len

section

variable {len : UInt16} {m m' : Mem}

/-- A word inside the payload. -/
theorem u32_of_payload {off : Nat} (h : ∀ i < len.toNat, m i = m' i)
    (ho : off + 4 ≤ len.toNat) : m.u32 off = m'.u32 off :=
  Mem.u32_eq_u32_iff.2 (Mem.slice_congr fun i hi => h (off + i) (by omega))

end

theorem reads_of_const {handler : Dev → UInt16 → Mem → UInt16 → Handled}
    (h : ∀ d seq len m m', handler d seq m len = handler d seq m' len) :
    ReadsPayload 0 handler :=
  fun d seq len m m' _ _ => h d seq len m m'

theorem reads_startUpgrade (fl : FlashCalls) : ReadsPayload 0 (otaCmdStartUpgrade fl) := by
  intro d seq len m m' _ h
  by_cases hlen : len < 12
  · rw [otaCmdStartUpgrade, otaCmdStartUpgrade, if_pos hlen, if_pos hlen]
  · have hlen : 12 ≤ len.toNat := UInt16.le_iff_toNat_le.1 (UInt16.not_lt.1 hlen)
    rw [otaCmdStartUpgrade, otaCmdStartUpgrade, u32_of_payload h (by omega : 0 + 4 ≤ _),
      u32_of_payload h (by omega : 4 + 4 ≤ _)]

theorem reads_transferData (z : Zephyr) (fl : FlashCalls) :
    ReadsPayload 0 (otaCmdTransferData z fl) := by
  intro d seq len m m' _ h
  by_cases hlen : len < 4
  · rw [otaCmdTransferData, otaCmdTransferData, if_pos hlen, if_pos hlen]
  · have hlen : 4 ≤ len := UInt16.not_lt.1 hlen
    have hn : 4 ≤ len.toNat := UInt16.le_iff_toNat_le.1 hlen
    have hfw : (len - 4).toNat = len.toNat - 4 := UInt16.toNat_sub_of_le _ _ hlen
    have hs : m.slice 4 (len - 4).toNat = m'.slice 4 (len - 4).toNat :=
      Mem.slice_congr fun i hi => h (4 + i) (by omega)
    rw [otaCmdTransferData, otaCmdTransferData, u32_of_payload h (by omega : 0 + 4 ≤ _)]
    dsimp only
    rw [hs]

theorem reads_transferDone : ReadsPayload 8 otaCmdTransferDone := by
  intro d seq len m m' hlen h
  rw [otaCmdTransferDone, otaCmdTransferDone, u32_of_payload h (by omega : 0 + 4 ≤ _),
    u32_of_payload h (by omega : 4 + 4 ≤ _)]

theorem reads_resetRun : ReadsPayload 0 otaCmdResetRun := by
  intro d seq len m m' _ h
  by_cases hlen : len ≥ 2
  · have hn : 2 ≤ len.toNat := UInt16.le_iff_toNat_le.1 hlen
    have hu : m.u16 0 = m'.u16 0 := by
      rw [Mem.u16, Mem.u16, h 0 (by omega), h (0 + 1) (by omega)]
    rw [otaCmdResetRun, otaCmdResetRun, hu]
  · rw [otaCmdResetRun, otaCmdResetRun, if_neg hlen, if_neg hlen]

theorem reads_setBootFlag : ReadsPayload 0 otaCmdSetBootFlag := by
  intro d seq len m m' _ h
  by_cases hlen : len < 1
  · rw [otaCmdSetBootFlag, otaCmdSetBootFlag, if_pos hlen, if_pos hlen]
  · have hn : 1 ≤ len.toNat := UInt16.le_iff_toNat_le.1 (UInt16.not_lt.1 hlen)
    rw [otaCmdSetBootFlag, otaCmdSetBootFlag, h 0 (by omega)]

/-- Every handler of the table reads its payload only; DONE does so from eight bytes on. -/
theorem reads_of_mem_cmdTable {z : Zephyr} {fl : FlashCalls}
    {e : UInt16 × (Dev → UInt16 → Mem → UInt16 → Handled)} (he : e ∈ cmdTable z fl) :
    ReadsPayload (if e.1 = cmdTransferDone then 8 else 0) e.2 := by
  simp only [cmdTable, List.mem_cons, List.not_mem_nil, or_false] at he
  rcases he with rfl | rfl | rfl | rfl | rfl | rfl | rfl | rfl | rfl | rfl
  · exact reads_of_const fun _ _ _ _ _ => rfl
  · exact reads_of_const fun _ _ _ _ _ => rfl
  · exact reads_startUpgrade fl
  · exact reads_transferData z fl
  · exact reads_transferDone
  · exact reads_of_const fun _ _ _ _ _ => rfl
  · exact reads_resetRun
  · exact reads_of_const fun _ _ _ _ _ => rfl
  · exact reads_of_const fun _ _ _ _ _ => rfl
  · exact reads_setBootFlag

/-! ## Every frame -/

variable {z : Zephyr} {fl : FlashCalls} {d : Dev} {f : OtaFrame}

/-- A frame that is no DONE, or has DONE's eight bytes. -/
theorem payloadDecides_of_len (h : f.cmd = cmdTransferDone → 8 ≤ f.dataLen.toNat) :
    PayloadDecides z fl d f := by
  intro m hm
  by_cases ha : f.Addressed
  · rw [otaFrameProcess_addressed z fl d f ha,
      otaFrameProcess_addressed z fl d { f with data := m } ha]
    dsimp only
    cases he : (cmdTable z fl).find? fun e => e.1 == f.cmd with
    | none => rfl
    | some e =>
      have hcmd : e.1 = f.cmd := by simpa using List.find?_some he
      apply reads_of_mem_cmdTable (List.mem_of_find?_eq_some he) _ _ _ _ _ _ hm
      split
      · rename_i hdone
        exact h (hcmd.symm.trans hdone)
      · exact Nat.zero_le _
  · rw [otaFrameProcess_ignored z fl d f ha,
      otaFrameProcess_ignored z fl d { f with data := m } ha]

theorem otaFrameProcess_done (h : f.IsCmd cmdTransferDone) :
    otaFrameProcess z fl d f = otaCmdTransferDone d f.seq f.data f.dataLen := by
  rw [otaFrameProcess_addressed z fl d f h.1, h.2]
  rfl

/-- The payload followed by the bytes `rest i` at the positions `i` behind it. -/
def OtaFrame.behind (f : OtaFrame) (rest : Mem) : Mem :=
  fun i => if i < f.dataLen.toNat then f.data i else rest i

theorem OtaFrame.behind_payload (f : OtaFrame) (rest : Mem) {i : Nat} (h : i < f.dataLen.toNat) :
    f.behind rest i = f.data i :=
  if_pos h

theorem OtaFrame.behind_rest (f : OtaFrame) (rest : Mem) {i : Nat} (h : f.dataLen.toNat ≤ i) :
    f.behind rest i = rest i :=
  if_neg (by omega)

/-- A memory that completes the payload to the received size. -/
def sizeMem (st : OtaState) : Mem := fun i => (le32 st.receivedSize).getD (i - 4) 0

theorem sizeMem_u32 (st : OtaState) : (sizeMem st).u32 4 = st.receivedSize := by
  apply Mem.u32_of_slice (n := 4) (r := [])
  rw [List.append_nil, Mem.slice_eq_iff (Bytes.length_le32 _)]
  intro i _
  rw [sizeMem, Nat.add_sub_cancel_left]

/-- The declared size is the received one when the bytes behind the payload complete it. -/
theorem DoneCutShort.completes (h : DoneCutShort d f) :
    (f.behind (sizeMem d.ota)).u32 4 = d.ota.receivedSize := by
  rw [← sizeMem_u32 d.ota, Mem.u32_eq_u32_iff]
  apply Mem.slice_congr
  intro i _
  by_cases hi : 4 + i < f.dataLen.toNat
  · rw [f.behind_payload _ hi, h.agrees _ hi (by omega)]
    rfl
  · rw [f.behind_rest _ (by omega)]

/-- And it is another one when the last byte, which is not in the payload, is. -/
theorem DoneCutShort.differs (h : DoneCutShort d f) :
    (f.behind fun i => sizeMem d.ota i + 1).u32 4 ≠ d.ota.receivedSize := by
  have hs := h.short
  rw [← sizeMem_u32 d.ota, Ne, Mem.u32_eq_u32_iff, Mem.slice_eq_slice_iff]
  intro heq
  have h₇ := heq 3 (by decide)
  rw [f.behind_rest _ (by omega)] at h₇
  simp at h₇

/-- Two DONEs in a session that both declare another size than the received one are handled
alike. -/
theorem otaCmdTransferDone_mismatch {seq len : UInt16} {m m' : Mem}
    (hm : m.u32 4 ≠ d.ota.receivedSize) (hm' : m'.u32 4 ≠ d.ota.receivedSize) :
    otaCmdTransferDone d seq m len = otaCmdTransferDone d seq m' len := by
  rw [otaCmdTransferDone, otaCmdTransferDone]
  split
  · rfl
  · rw [if_pos hm, if_pos hm']

/-- In a session DONE is answered 0x00 when it declares the received size. -/
theorem otaCmdTransferDone_answer {seq len : UInt16} {m : Mem} (hp : d.ota.inProgress = true) :
    answer (otaCmdTransferDone d seq m len).1 = some 0x00 ↔ m.u32 4 = d.ota.receivedSize := by
  rw [otaCmdTransferDone, if_neg (by simp [hp])]
  by_cases hm : m.u32 4 = d.ota.receivedSize
  · simp [hm, ackBytes]
  · simp [hm, fail5]

theorem not_payloadDecides_of_cutShort (h : DoneCutShort d f) : ¬ PayloadDecides z fl d f := by
  intro hp
  have hanswer : ∀ m, answer (otaFrameProcess z fl d { f with data := m }).1 = some 0x00 ↔
      m.u32 4 = d.ota.receivedSize := by
    intro m
    rw [otaFrameProcess_done (f := { f with data := m }) h.cmd]
    exact otaCmdTransferDone_answer h.inProgress
  have heq := (hp _ fun _ => f.behind_payload (sizeMem d.ota)).trans
    (hp _ fun _ => f.behind_payload fun i => sizeMem d.ota i + 1).symm
  apply h.differs
  exact (hanswer _).1 (heq ▸ (hanswer _).2 h.completes)

/-- A DONE whose payload contradicts the received size before it ends. -/
theorem payloadDecides_of_contradiction (hc : f.IsCmd cmdTransferDone)
    {i : Nat} (hi : i < f.dataLen.toNat) (h₄ : 4 ≤ i) (h₈ : i < 8)
    (hne : f.data i ≠ (le32 d.ota.receivedSize).getD (i - 4) 0) : PayloadDecides z fl d f := by
  have hu : ∀ m : Mem, m i = f.data i → m.u32 4 ≠ d.ota.receivedSize := by
    intro m hm heq
    rw [← sizeMem_u32 d.ota, Mem.u32_eq_u32_iff, Mem.slice_eq_slice_iff] at heq
    have h := heq (i - 4) (by omega)
    rw [Nat.add_sub_cancel' h₄, hm] at h
    exact hne h
  intro m hm
  rw [otaFrameProcess_done hc, otaFrameProcess_done (f := { f with data := m }) hc]
  exact otaCmdTransferDone_mismatch (hu m (hm i hi)) (hu f.data rfl)

/-- **What the payload decides.** -/
theorem payload_decides_iff (z : Zephyr) (fl : FlashCalls) (d : Dev) (f : OtaFrame) :
    PayloadDecides z fl d f ↔ ¬ DoneCutShort d f := by
  constructor
  · intro hp h
    exact not_payloadDecides_of_cutShort h hp
  · intro h
    by_cases hc : f.IsCmd cmdTransferDone
    · by_cases h₈ : 8 ≤ f.dataLen.toNat
      · exact payloadDecides_of_len fun _ => h₈
      · by_cases hp : d.ota.inProgress = true
        · by_contra hn
          apply h
          refine ⟨hc, hp, by omega, ?_⟩
          intro i hi h₄
          by_contra hne
          exact hn (payloadDecides_of_contradiction hc hi h₄ (by omega) hne)
        · intro m _
          rw [otaFrameProcess_done hc, otaFrameProcess_done (f := { f with data := m }) hc,
            otaCmdTransferDone, otaCmdTransferDone, if_pos (by simpa using hp),
            if_pos (by simpa using hp)]
    · by_cases ha : f.Addressed
      · exact payloadDecides_of_len fun h => absurd ⟨ha, h⟩ hc
      · intro m _
        rw [otaFrameProcess_ignored z fl d f ha,
          otaFrameProcess_ignored z fl d { f with data := m } ha]

/-- The board in a session of no bytes yet. -/
def Dev.inSession : Dev :=
  (otaFrameProcess .standard .ok .board
    (.request cmdStartUpgrade (le32 8 ++ le32 0 ++ le32 0))).2

/-- A DONE without payload completes the session over a zeroed stack and fails over any other. -/
theorem done_reads_the_stack : ¬ ∀ (z : Zephyr) (fl : FlashCalls) (d : Dev) (f : OtaFrame),
    PayloadDecides z fl d f := by
  intro h
  have h := h .standard .ok .inSession (.request cmdTransferDone []) (fun _ => 0xFF)
    fun i hi => absurd hi (Nat.not_lt_zero i)
  have h := congrArg (fun r => r.2.ota.status) h
  revert h
  decide

end ZephyrStm32.Ota
