import ZephyrStm32.Ota.Device.Handler

/-!
# What one frame can do to the device

`Handles z fl d f r` has one constructor for each branch of each handler, with the branch's guards
and its result; `otaFrameProcess_handles` says that every frame takes one of them. The invariants
are proved by cases on it and never unfold a handler.

The guards that decide whether a command reaches the flash are predicates of their own
(`StartPasses`, `DataPasses`, `DonePasses`), over the request's fields as the handlers read them.
-/

namespace ZephyrStm32.Ota

open Bytes (le16 le32)

/-- Two results that are chosen by the same guard. -/
theorem ite_related {R : Handled → Handled → Prop} {c : Prop} [Decidable c]
    {r₁ r₂ r₁' r₂' : Handled} (h₁ : R r₁ r₁') (h₂ : R r₂ r₂') :
    R (if c then r₁ else r₂) (if c then r₁' else r₂') := by
  split
  · exact h₁
  · exact h₂

/-! ## The fields of a request -/

namespace OtaFrame

def Addressed (f : OtaFrame) : Prop := f.dstAddr = addrDevice ∨ f.dstAddr = 0xFF

/-- `f` is a request with command code `c` that the device does not ignore. -/
def IsCmd (f : OtaFrame) (c : UInt16) : Prop := f.Addressed ∧ f.cmd = c

instance (f : OtaFrame) : Decidable f.Addressed := inferInstanceAs (Decidable (_ ∨ _))

instance (f : OtaFrame) (c : UInt16) : Decidable (f.IsCmd c) := inferInstanceAs (Decidable (_ ∧ _))

def startSize (f : OtaFrame) : UInt32 := f.data.u32 0

def startCrc (f : OtaFrame) : UInt32 := f.data.u32 4

def offset (f : OtaFrame) : UInt32 := f.data.u32 0

def fwLen (f : OtaFrame) : UInt16 := f.dataLen - 4

def fwData (f : OtaFrame) : List UInt8 := f.data.slice 4 f.fwLen.toNat

def doneCrc (f : OtaFrame) : UInt32 := f.data.u32 0

def doneSize (f : OtaFrame) : UInt32 := f.data.u32 4

/-- A request addressed to the device, with nothing behind its payload. -/
def request (cmd : UInt16) (payload : List UInt8) : OtaFrame where
  header0 := frameHeader0
  header1 := frameHeader1
  seq := 0
  srcAddr := addrPc
  dstAddr := addrDevice
  totalPackets := 1
  packetSeq := 0
  cmd := cmd
  dataLen := UInt16.ofNat payload.length
  data := Mem.ofList payload
  reserved := 0
  tail0 := frameTail0
  tail1 := frameTail1

@[simp] theorem length_fwData (f : OtaFrame) : f.fwData.length = f.fwLen.toNat := by simp [fwData]

end OtaFrame

/-! ## The guards -/

/-- A START that reaches the erase. -/
structure StartPasses (d : Dev) (f : OtaFrame) : Prop where
  cmd : f.IsCmd cmdStartUpgrade
  len : 12 ≤ f.dataLen
  status : d.ota.status = .idle ∨ d.ota.status = .complete
  size : f.startSize ≤ d.ota.slotSize

/-- A DATA that the handler takes up: it is not refused out of hand. -/
structure DataTaken (d : Dev) (f : OtaFrame) : Prop where
  cmd : f.IsCmd cmdTransferData
  inProgress : d.ota.inProgress = true
  status : d.ota.status = .receiving
  len : 4 ≤ f.dataLen

/-- A DATA that reaches the write. -/
structure DataPasses (d : Dev) (f : OtaFrame) : Prop extends DataTaken d f where
  offset : f.offset = d.ota.currentOffset
  fits : f.offset + f.fwLen.toUInt32 ≤ d.ota.firmwareSize

/-- A DONE that completes the transfer. -/
structure DonePasses (d : Dev) (f : OtaFrame) : Prop where
  cmd : f.IsCmd cmdTransferDone
  inProgress : d.ota.inProgress = true
  size : f.doneSize = d.ota.receivedSize

/-- The read loop as `ota_cmd_verify_firmware` starts it. -/
def verifyRun (z : Zephyr) (fl : FlashCalls) (d : Dev) : List Event × Option UInt32 :=
  verifyLoop z fl d.slot1 d.ota.firmwareSize.toNat 0 0 d.ota.firmwareSize (z.crc32Ieee [])

/-! ## The states the handlers leave -/

namespace OtaState

/-- START's assignments up to the erase. -/
def erasing (st : OtaState) (f : OtaFrame) : OtaState :=
  { st with
    firmwareSize := f.startSize
    firmwareCrc := f.startCrc
    status := .erasing
    receivedSize := 0
    currentOffset := 0
    inProgress := true
    calculatedCrc := 0 }

/-- A failure of the session: the code is noted and the status is `STATUS_ERROR`. -/
def failed (st : OtaState) (e : ErrorCode) : OtaState :=
  { st with errorCode := e, status := .error }

def advanced (st : OtaState) (z : Zephyr) (f : OtaFrame) : OtaState :=
  { st with
    calculatedCrc := z.crc32IeeeUpdate st.calculatedCrc f.fwData
    currentOffset := st.currentOffset + f.fwLen.toUInt32
    receivedSize := st.receivedSize + f.fwLen.toUInt32 }

def completed (st : OtaState) (f : OtaFrame) : OtaState :=
  { st with firmwareSize := f.doneSize, firmwareCrc := f.doneCrc, status := .complete }

def verified (st : OtaState) (crc : UInt32) : OtaState :=
  { st with status := .verifying, calculatedCrc := crc }

def cancelled (st : OtaState) : OtaState :=
  { st with
    status := .idle
    errorCode := .none
    receivedSize := 0
    currentOffset := 0
    inProgress := false
    calculatedCrc := 0 }

end OtaState

/-! ## The branches -/

/-- The branches of `ota_frame_process` on a frame `f` in the state `d`. -/
inductive Handles (z : Zephyr) (fl : FlashCalls) (d : Dev) (f : OtaFrame) : Handled → Prop
  | ignored (h : ¬ f.Addressed) : Handles z fl d f ([], d)
  /-- HANDSHAKE, GET_DEV_INFO and QUERY_STATUS only answer, unknown commands fail. -/
  | inquiry (h : f.Addressed) (payload : List UInt8)
      (hc : ∀ c ∈ [cmdStartUpgrade, cmdTransferData, cmdTransferDone, cmdVerifyFirmware,
        cmdResetRun, cmdCancelUpgrade, cmdSetBootFlag], f.cmd ≠ c) :
      Handles z fl d f ([.send f.seq f.cmd payload], d)
  | startRefused (h : f.IsCmd cmdStartUpgrade)
      (hg : f.dataLen < 12 ∨ d.ota.status ≠ .idle ∧ d.ota.status ≠ .complete) :
      Handles z fl d f ([.send f.seq cmdStartUpgrade fail4], d)
  | startTooLarge (h : f.IsCmd cmdStartUpgrade) (hlen : 12 ≤ f.dataLen)
      (hs : d.ota.status = .idle ∨ d.ota.status = .complete)
      (hsize : d.ota.slotSize < f.startSize) :
      Handles z fl d f ([.send f.seq cmdStartUpgrade fail4],
        { d with ota := { d.ota with
          firmwareSize := f.startSize, firmwareCrc := f.startCrc, errorCode := .firmwareSize } })
  | startEraseFailed (h : StartPasses d f) (herr : (fl 0).err ≠ 0) :
      Handles z fl d f
        ([.flash (.erase .slot1 0 d.ota.slotSize), .send f.seq cmdStartUpgrade fail4],
          { d with
            ota := { d.ota.erasing f with
              status := .idle, errorCode := .flashErase, inProgress := false }
            slot1 := (fl 0).left })
  | startAccepted (h : StartPasses d f) (herr : (fl 0).err = 0) :
      Handles z fl d f
        ([.flash (.erase .slot1 0 d.ota.slotSize),
            .send f.seq cmdStartUpgrade (0x00 :: le16 maxPacketSize ++ [100])],
          { d with
            ota := { d.ota.erasing f with status := .receiving }
            slot1 := d.slot1.fill 0 d.ota.slotSize.toNat 0xFF })
  | dataRefused (h : f.IsCmd cmdTransferData)
      (hg : d.ota.inProgress = false ∨ d.ota.status ≠ .receiving ∨ f.dataLen < 4) :
      Handles z fl d f ([.send f.seq cmdTransferData fail5], d)
  | dataOffset (h : DataTaken d f) (ho : f.offset ≠ d.ota.currentOffset) :
      Handles z fl d f ([.send f.seq cmdTransferData [0x01, 0xFF, 0xFF, 0xFF, 0xFF]],
        { d with ota := d.ota.failed .offsetError })
  | dataTooLarge (h : DataTaken d f) (ho : f.offset = d.ota.currentOffset)
      (hsize : d.ota.firmwareSize < f.offset + f.fwLen.toUInt32) :
      Handles z fl d f ([.send f.seq cmdTransferData fail5],
        { d with ota := d.ota.failed .firmwareSize })
  | dataWriteFailed (h : DataPasses d f) (herr : (fl 0).err ≠ 0) :
      Handles z fl d f
        ([.flash (.write .slot1 f.offset f.fwData), .send f.seq cmdTransferData fail5],
          { d with ota := d.ota.failed .flashWrite, slot1 := (fl 0).left })
  | dataAccepted (h : DataPasses d f) (herr : (fl 0).err = 0) :
      Handles z fl d f
        ([.flash (.write .slot1 f.offset f.fwData),
            .send f.seq cmdTransferData (ackBytes 0x00 (d.ota.advanced z f).receivedSize)],
          { d with ota := d.ota.advanced z f, slot1 := d.slot1.write f.offset.toNat f.fwData })
  | doneRefused (h : f.IsCmd cmdTransferDone) (hp : d.ota.inProgress = false) :
      Handles z fl d f ([.send f.seq cmdTransferDone fail5], d)
  | doneMismatch (h : f.IsCmd cmdTransferDone) (hp : d.ota.inProgress = true)
      (hsize : f.doneSize ≠ d.ota.receivedSize) :
      Handles z fl d f ([.send f.seq cmdTransferDone fail5],
        { d with ota := d.ota.failed .firmwareSize })
  | doneAccepted (h : DonePasses d f) :
      Handles z fl d f ([.send f.seq cmdTransferDone (ackBytes 0x00 d.ota.receivedSize)],
        { d with ota := d.ota.completed f })
  | verifyRefused (h : f.IsCmd cmdVerifyFirmware) (hs : d.ota.status ≠ .complete) :
      Handles z fl d f ([.send f.seq cmdVerifyFirmware fail5], d)
  | verifyReadFailed (h : f.IsCmd cmdVerifyFirmware) (hs : d.ota.status = .complete)
      (hr : (verifyRun z fl d).2 = none) :
      Handles z fl d f
        ((verifyRun z fl d).1 ++ [.send f.seq cmdVerifyFirmware fail5],
          { d with ota := d.ota.failed .flashWrite })
  | verifyMatch (h : f.IsCmd cmdVerifyFirmware) (hs : d.ota.status = .complete)
      (hr : (verifyRun z fl d).2 = some d.ota.firmwareCrc) :
      Handles z fl d f
        ((verifyRun z fl d).1 ++
            [.send f.seq cmdVerifyFirmware (ackBytes 0x00 d.ota.firmwareCrc)],
          { d with ota := d.ota.verified d.ota.firmwareCrc })
  | verifyMismatch (h : f.IsCmd cmdVerifyFirmware) (hs : d.ota.status = .complete) (crc : UInt32)
      (hr : (verifyRun z fl d).2 = some crc) (hcrc : crc ≠ d.ota.firmwareCrc) :
      Handles z fl d f
        ((verifyRun z fl d).1 ++ [.send f.seq cmdVerifyFirmware (ackBytes 0x01 crc)],
          { d with ota := { d.ota.verified crc with errorCode := .crcMismatch } })
  | resetRefused (h : f.IsCmd cmdResetRun) (hs : d.ota.status ≠ .complete) :
      Handles z fl d f ([.send f.seq cmdResetRun [0xFF]], d)
  | resetAccepted (h : f.IsCmd cmdResetRun) (hs : d.ota.status = .complete) :
      Handles z fl d f
        ([.send f.seq cmdResetRun [0x00],
            .msleep (if f.dataLen ≥ 2 then f.data.u16 0 else 0), .reboot],
          { d with rebooted := true })
  | cancelled (h : f.IsCmd cmdCancelUpgrade) :
      Handles z fl d f ([.send f.seq cmdCancelUpgrade [0x00]], { d with ota := d.ota.cancelled })
  | flagSet (h : f.IsCmd cmdSetBootFlag) (hlen : 1 ≤ f.dataLen) (hflag : f.data 0 = 0x01)
      (hs : d.ota.status = .complete) :
      Handles z fl d f ([.send f.seq cmdSetBootFlag [0x00]],
        { d with ota := { d.ota with bootFlag := 1 } })
  | flagCleared (h : f.IsCmd cmdSetBootFlag) (hlen : 1 ≤ f.dataLen) (hflag : f.data 0 = 0x00) :
      Handles z fl d f ([.send f.seq cmdSetBootFlag [0x00]],
        { d with ota := { d.ota with bootFlag := 0 } })
  | flagRefused (h : f.IsCmd cmdSetBootFlag)
      (hg : f.dataLen < 1 ∨ f.data 0 ≠ 0x00 ∧ (f.data 0 = 0x01 → d.ota.status ≠ .complete)) :
      Handles z fl d f ([.send f.seq cmdSetBootFlag [0xFF]], d)

/-! ## Every frame takes one of the branches -/

section

variable (z : Zephyr) (fl : FlashCalls) (d : Dev) (f : OtaFrame)

theorem otaCmdStartUpgrade_handles (h : f.IsCmd cmdStartUpgrade) :
    Handles z fl d f (otaCmdStartUpgrade fl d f.seq f.data f.dataLen) := by
  unfold otaCmdStartUpgrade
  split
  · rename_i hlen
    exact .startRefused h (Or.inl hlen)
  · rename_i hlen
    have hlen : 12 ≤ f.dataLen := UInt16.not_lt.1 hlen
    split
    · rename_i hbusy
      exact .startRefused h (Or.inr hbusy)
    · rename_i hbusy
      have hs : d.ota.status = .idle ∨ d.ota.status = .complete := by
        by_cases hi : d.ota.status = .idle
        · exact Or.inl hi
        · exact Or.inr (by simpa [hi] using hbusy)
      dsimp only
      split
      · rename_i hsize
        exact .startTooLarge h hlen hs hsize
      · rename_i hsize
        have hp : StartPasses d f := ⟨h, hlen, hs, UInt32.not_lt.1 hsize⟩
        by_cases herr : (fl 0).err = 0
        · rw [flashAreaErase, if_pos herr, if_neg (by simp)]
          exact .startAccepted hp herr
        · rw [flashAreaErase, if_neg herr, if_pos herr]
          exact .startEraseFailed hp herr

theorem otaCmdTransferData_handles (h : f.IsCmd cmdTransferData) :
    Handles z fl d f (otaCmdTransferData z fl d f.seq f.data f.dataLen) := by
  unfold otaCmdTransferData
  split
  · rename_i hg
    exact .dataRefused h (hg.imp_right Or.inl)
  · rename_i hg
    rw [not_or, not_not, Bool.not_eq_false] at hg
    split
    · rename_i hlen
      exact .dataRefused h (Or.inr (Or.inr hlen))
    · rename_i hlen
      have ht : DataTaken d f := ⟨h, hg.1, hg.2, UInt16.not_lt.1 hlen⟩
      dsimp only
      split
      · rename_i ho
        exact .dataOffset ht ho
      · rename_i ho
        rw [not_not] at ho
        split
        · rename_i hsize
          exact .dataTooLarge ht ho hsize
        · rename_i hsize
          have hp : DataPasses d f := ⟨ht, ho, UInt32.not_lt.1 hsize⟩
          by_cases herr : (fl 0).err = 0
          · rw [flashAreaWrite, if_pos herr, if_neg (by simp)]
            exact .dataAccepted hp herr
          · rw [flashAreaWrite, if_neg herr, if_pos herr]
            exact .dataWriteFailed hp herr

theorem otaCmdTransferDone_handles (h : f.IsCmd cmdTransferDone) :
    Handles z fl d f (otaCmdTransferDone d f.seq f.data f.dataLen) := by
  unfold otaCmdTransferDone
  split
  · rename_i hp
    exact .doneRefused h hp
  · rename_i hp
    rw [Bool.not_eq_false] at hp
    dsimp only
    split
    · rename_i hsize
      exact .doneMismatch h hp hsize
    · rename_i hsize
      exact .doneAccepted ⟨h, hp, not_not.1 hsize⟩

theorem otaCmdVerifyFirmware_handles (h : f.IsCmd cmdVerifyFirmware) :
    Handles z fl d f (otaCmdVerifyFirmware z fl d f.seq f.data f.dataLen) := by
  unfold otaCmdVerifyFirmware
  split
  · rename_i hs
    exact .verifyRefused h hs
  · rename_i hs
    have hs : d.ota.status = .complete := not_not.1 hs
    dsimp only
    rw [← verifyRun]
    cases hr : (verifyRun z fl d).2 with
    | none => exact .verifyReadFailed h hs hr
    | some crc =>
      dsimp only
      split
      · rename_i hcrc
        subst hcrc
        exact .verifyMatch h hs hr
      · rename_i hcrc
        exact .verifyMismatch h hs crc hr hcrc

theorem otaCmdResetRun_handles (h : f.IsCmd cmdResetRun) :
    Handles z fl d f (otaCmdResetRun d f.seq f.data f.dataLen) := by
  unfold otaCmdResetRun
  split
  · rename_i hs
    exact .resetRefused h hs
  · rename_i hs
    exact .resetAccepted h (not_not.1 hs)

theorem otaCmdSetBootFlag_handles (h : f.IsCmd cmdSetBootFlag) :
    Handles z fl d f (otaCmdSetBootFlag d f.seq f.data f.dataLen) := by
  unfold otaCmdSetBootFlag
  split
  · rename_i hlen
    exact .flagRefused h (Or.inl hlen)
  · rename_i hlen
    have hlen : 1 ≤ f.dataLen := UInt16.not_lt.1 hlen
    dsimp only
    split
    · rename_i hg
      exact .flagSet h hlen hg.1 hg.2
    · rename_i hg
      split
      · rename_i hflag
        exact .flagCleared h hlen hflag
      · rename_i hflag
        exact .flagRefused h (Or.inr ⟨hflag, fun h₁ hs => hg ⟨h₁, hs⟩⟩)

theorem otaFrameProcess_ignored (h : ¬ f.Addressed) : otaFrameProcess z fl d f = ([], d) :=
  if_pos (not_or.1 h)

theorem otaFrameProcess_addressed (h : f.Addressed) : otaFrameProcess z fl d f =
    match (cmdTable z fl).find? fun e => e.1 == f.cmd with
    | some e => e.2 d f.seq f.data f.dataLen
    | none => ([.send f.seq f.cmd fail4], d) :=
  if_neg fun hn => h.elim hn.1 hn.2

/-- Two devices whose handlers give related results give related results. -/
theorem otaFrameProcess_related {R : Handled → Handled → Prop} {d d' : Dev}
    (hsend : ∀ es, R (es, d) (es, d')) (htable : ∀ e ∈ cmdTable z fl,
      R (e.2 d f.seq f.data f.dataLen) (e.2 d' f.seq f.data f.dataLen)) :
    R (otaFrameProcess z fl d f) (otaFrameProcess z fl d' f) := by
  by_cases ha : f.Addressed
  · rw [otaFrameProcess_addressed z fl d f ha, otaFrameProcess_addressed z fl d' f ha]
    cases he : (cmdTable z fl).find? fun e => e.1 == f.cmd with
    | none => exact hsend _
    | some e => exact htable e (List.mem_of_find?_eq_some he)
  · rw [otaFrameProcess_ignored z fl d f ha, otaFrameProcess_ignored z fl d' f ha]
    exact hsend _

/-- The three commands that only answer, and the miss at the end of the table. -/
theorem otaFrameProcess_inquiry (h : f.Addressed) (hn : ∀ c ∈ [cmdStartUpgrade, cmdTransferData,
      cmdTransferDone, cmdVerifyFirmware, cmdResetRun, cmdCancelUpgrade, cmdSetBootFlag],
      f.cmd ≠ c) :
    ∃ payload, otaFrameProcess z fl d f = ([.send f.seq f.cmd payload], d) := by
  rw [otaFrameProcess_addressed z fl d f h]
  by_cases h₁ : f.cmd = cmdHandshake
  · exact ⟨_, by rw [h₁]; rfl⟩
  by_cases h₂ : f.cmd = cmdGetDevInfo
  · exact ⟨_, by rw [h₂]; rfl⟩
  by_cases h₃ : f.cmd = cmdQueryStatus
  · exact ⟨_, by rw [h₃]; rfl⟩
  refine ⟨fail4, ?_⟩
  have hnone : (cmdTable z fl).find? (fun e => e.1 == f.cmd) = none := by
    simp only [List.mem_cons, List.not_mem_nil, or_false, forall_eq_or_imp, forall_eq] at hn
    simp [cmdTable, Ne.symm h₁, Ne.symm h₂, Ne.symm h₃, hn, Ne.symm]
  rw [hnone]

/-- **Every frame takes one of the branches.** -/
theorem otaFrameProcess_handles : Handles z fl d f (otaFrameProcess z fl d f) := by
  by_cases ha : f.Addressed
  case neg =>
    rw [otaFrameProcess_ignored z fl d f ha]
    exact .ignored ha
  case pos =>
    by_cases hc : f.cmd ∈ [cmdStartUpgrade, cmdTransferData, cmdTransferDone, cmdVerifyFirmware,
        cmdResetRun, cmdCancelUpgrade, cmdSetBootFlag]
    · rw [otaFrameProcess_addressed z fl d f ha]
      simp only [List.mem_cons, List.not_mem_nil, or_false] at hc
      rcases hc with hc | hc | hc | hc | hc | hc | hc <;> rw [hc]
      · exact otaCmdStartUpgrade_handles z fl d f ⟨ha, hc⟩
      · exact otaCmdTransferData_handles z fl d f ⟨ha, hc⟩
      · exact otaCmdTransferDone_handles z fl d f ⟨ha, hc⟩
      · exact otaCmdVerifyFirmware_handles z fl d f ⟨ha, hc⟩
      · exact otaCmdResetRun_handles z fl d f ⟨ha, hc⟩
      · exact .cancelled ⟨ha, hc⟩
      · exact otaCmdSetBootFlag_handles z fl d f ⟨ha, hc⟩
    · have hn : ∀ c ∈ [cmdStartUpgrade, cmdTransferData, cmdTransferDone, cmdVerifyFirmware,
          cmdResetRun, cmdCancelUpgrade, cmdSetBootFlag], f.cmd ≠ c := by
        rintro c hmem rfl
        exact hc hmem
      obtain ⟨payload, hp⟩ := otaFrameProcess_inquiry z fl d f ha hn
      rw [hp]
      exact .inquiry ha payload hn

end

end ZephyrStm32.Ota
