import ZephyrStm32.Ota.Device.Answers

/-!
# Sessions, as the outside sees them

A session is opened by an accepted START. What it declared, what DATA packets the device accepted
since and whether an error was reported are read off the history of requests and responses
(`session`), without looking at the device's counters.

* `session_of_start`, `session_of_data`, `session_of_quiet`: what one step does to the session.
* `Counted`: the counters are those of the session; an accepted DATA keeps it (`Counted.accept`).
-/

namespace ZephyrStm32.Ota

open Machine

/-- What is known of a session from outside: the values its START declared, the payloads of the
accepted DATA packets, and whether an offset, size or write error was reported. -/
structure Session where
  size : UInt32
  crc : UInt32
  payloads : List (List UInt8)
  failed : Bool
  deriving DecidableEq

namespace Session

def start (f : OtaFrame) : Session := ⟨f.startSize, f.startCrc, [], false⟩

def bytes (s : Session) : List UInt8 := s.payloads.flatten

def accept (s : Session) (payload : List UInt8) : Session :=
  { s with payloads := s.payloads ++ [payload] }

def fail (s : Session) : Session := { s with failed := true }

@[simp] theorem bytes_accept (s : Session) (payload : List UInt8) :
    (s.accept payload).bytes = s.bytes ++ payload := by
  simp [bytes, accept]

end Session

/-- A response was sent, and it does not begin with 0x00. -/
@[grind]
def Refused (es : List Event) : Prop := answer es ≠ none ∧ answer es ≠ some 0x00

instance (es : List Event) : Decidable (Refused es) := inferInstanceAs (Decidable (_ ∧ _))

/-- An offset, size or write error: the device took up a DATA or a DONE and refused it. -/
def SessionError (st : DevStep) : Prop :=
  Refused st.output ∧
    (DataTaken st.before st.input.frame ∨
      st.input.frame.IsCmd cmdTransferDone ∧ st.before.ota.inProgress = true)

instance (st : DevStep) : Decidable (SessionError st) := inferInstanceAs (Decidable (_ ∧ _))

/-- The session opened by the last accepted START of a history (the latest step first). -/
def session : List DevStep → Option Session
  | [] => none
  | st :: h =>
    let f := st.input.frame
    if f.IsCmd cmdStartUpgrade ∧ answer st.output = some 0x00 then some (.start f)
    else if f.IsCmd cmdTransferData ∧ answer st.output = some 0x00 then
      (session h).map (·.accept f.fwData)
    else if SessionError st then (session h).map (·.fail)
    else session h

/-! ## One step -/

section

variable {st : DevStep} {h : List DevStep}

theorem session_start
    (h₁ : st.input.frame.IsCmd cmdStartUpgrade ∧ answer st.output = some 0x00) :
    session (st :: h) = some (.start st.input.frame) :=
  if_pos h₁

theorem session_data
    (h₁ : ¬ (st.input.frame.IsCmd cmdStartUpgrade ∧ answer st.output = some 0x00))
    (h₂ : st.input.frame.IsCmd cmdTransferData ∧ answer st.output = some 0x00) :
    session (st :: h) = (session h).map (·.accept st.input.frame.fwData) :=
  (if_neg h₁).trans (if_pos h₂)

theorem session_other
    (h₁ : ¬ (st.input.frame.IsCmd cmdStartUpgrade ∧ answer st.output = some 0x00))
    (h₂ : ¬ (st.input.frame.IsCmd cmdTransferData ∧ answer st.output = some 0x00))
    (h₃ : ¬ SessionError st) : session (st :: h) = session h :=
  (if_neg h₁).trans ((if_neg h₂).trans (if_neg h₃))

end

variable {z : Zephyr} {d : Dev} {q : Request} {h : List DevStep}

/-- A rebooted device does nothing. -/
theorem step_rebooted (hb : d.rebooted = true) : Dev.step z d q = ([], d) := if_pos hb

theorem step_running (hb : d.rebooted = false) :
    Dev.step z d q = otaFrameProcess z q.flash d q.frame :=
  if_neg (by simp [hb])

/-- A step of a running device takes one of the branches of its frame. -/
theorem step_handles (hb : d.rebooted = false) :
    Handles z q.flash d q.frame (Dev.step z d q) := by
  rw [step_running hb]
  exact otaFrameProcess_handles z q.flash d q.frame

/-- Two devices that differ in nothing that stops a step. -/
theorem step_related {R : Handled → Handled → Prop} {d' : Dev} (hb : d'.rebooted = d.rebooted)
    (hsend : ∀ es, R (es, d) (es, d')) (htable : ∀ e ∈ cmdTable z q.flash,
      R (e.2 d q.frame.seq q.frame.data q.frame.dataLen)
        (e.2 d' q.frame.seq q.frame.data q.frame.dataLen)) :
    R (Dev.step z d q) (Dev.step z d' q) := by
  rw [Dev.step, Dev.step, hb]
  exact ite_related (hsend []) (otaFrameProcess_related z q.flash q.frame hsend htable)

variable (z d q) in
/-- After the reboot a step does nothing; before it, it takes one of the branches of its frame. -/
theorem step_cases : d.rebooted = true ∧ Dev.step z d q = ([], d) ∨
    d.rebooted = false ∧ Handles z q.flash d q.frame (Dev.step z d q) := by
  cases hb : d.rebooted with
  | true => exact Or.inl ⟨rfl, step_rebooted hb⟩
  | false => exact Or.inr ⟨rfl, step_handles hb⟩

theorem session_rebooted (hb : d.rebooted = true) :
    session (stepOf (Dev.step z) d q :: h) = session h := by
  have hn : answer (stepOf (Dev.step z) d q).output = none := by
    simp [step_rebooted hb]
  have hn0 : answer (stepOf (Dev.step z) d q).output ≠ some 0x00 := by
    rw [hn]
    simp
  exact session_other (fun h => hn0 h.2) (fun h => hn0 h.2) fun he => he.1.1 hn

/-- A DATA or a DONE taken up that does not pass, or whose write fails. -/
def Errs (d : Dev) (q : Request) : Prop :=
  (DataTaken d q.frame ∧ ¬ (DataPasses d q.frame ∧ (q.flash 0).err = 0)) ∨
    (q.frame.IsCmd cmdTransferDone ∧ d.ota.inProgress = true ∧ ¬ DonePasses d q.frame)

/-- A command of the upgrade that is not answered 0x00 is refused. -/
theorem Handles.refused_iff {fl : FlashCalls} {f : OtaFrame} {r : Handled}
    (hh : Handles z fl d f r) {c : UInt16} (hc : f.IsCmd c)
    (hmem : c ∈ [cmdStartUpgrade, cmdTransferData, cmdTransferDone, cmdVerifyFirmware, cmdResetRun,
      cmdCancelUpgrade, cmdSetBootFlag]) : Refused r.1 ↔ answer r.1 ≠ some 0x00 :=
  and_iff_right (hh.answered hc hmem)

theorem sessionError_iff (hb : d.rebooted = false) :
    SessionError (stepOf (Dev.step z) d q) ↔ Errs d q := by
  have hh : Handles z q.flash d q.frame (Dev.step z d q) := step_handles hb
  rw [SessionError, and_or_left, Errs]
  refine or_congr ?_ ?_
  · refine and_comm.trans (and_congr_right fun (ht : DataTaken d q.frame) => ?_)
    rw [stepOf_output, hh.refused_iff ht.cmd (by simp), ← hh.data_answer_iff, and_iff_right ht.cmd]
  · refine and_comm.trans (and_assoc.trans (and_congr_right fun hc => and_congr_right fun _ => ?_))
    rw [stepOf_output, hh.refused_iff hc (by simp), ← hh.done_answer_iff]
    exact not_congr (iff_and_self.2 fun _ => hc)

/-- An accepted START opens a session. -/
theorem session_of_start (hb : d.rebooted = false) (hp : StartPasses d q.frame)
    (herr : (q.flash 0).err = 0) :
    session (stepOf (Dev.step z) d q :: h) = some (.start q.frame) :=
  session_start ((step_handles hb).start_answer_iff.2 ⟨hp, herr⟩)

/-- An accepted DATA adds its payload. -/
theorem session_of_data (hb : d.rebooted = false) (hp : DataPasses d q.frame)
    (herr : (q.flash 0).err = 0) :
    session (stepOf (Dev.step z) d q :: h) = (session h).map (·.accept q.frame.fwData) := by
  refine session_data (fun hs => ?_) ((step_handles hb).data_answer_iff.2 ⟨hp, herr⟩)
  exact absurd (hs.1.2.symm.trans hp.cmd.2) (by decide)

/-- A request that neither opens a session, nor delivers data, nor errs leaves the session. -/
theorem session_of_other (hb : d.rebooted = false)
    (hs : ¬ (StartPasses d q.frame ∧ (q.flash 0).err = 0))
    (hd : ¬ (DataPasses d q.frame ∧ (q.flash 0).err = 0)) (he : ¬ Errs d q) :
    session (stepOf (Dev.step z) d q :: h) = session h :=
  session_other (fun h => hs ((step_handles hb).start_answer_iff.1 h))
    (fun h => hd ((step_handles hb).data_answer_iff.1 h))
    fun h => he ((sessionError_iff hb).1 h)

/-- A request that opens no session, is not taken up as data and reports no error. -/
structure Quiet (d : Dev) (f : OtaFrame) : Prop where
  start : ¬ StartPasses d f
  data : ¬ DataTaken d f
  done : f.IsCmd cmdTransferDone → d.ota.inProgress = true → DonePasses d f

@[grind =]
theorem quiet_iff {f : OtaFrame} : Quiet d f ↔ ¬ StartPasses d f ∧ ¬ DataTaken d f ∧
    (f.IsCmd cmdTransferDone → d.ota.inProgress = true → DonePasses d f) :=
  ⟨fun ⟨h₁, h₂, h₃⟩ => ⟨h₁, h₂, h₃⟩, fun ⟨h₁, h₂, h₃⟩ => ⟨h₁, h₂, h₃⟩⟩

theorem session_of_quiet (hb : d.rebooted = false) (hq : Quiet d q.frame) :
    session (stepOf (Dev.step z) d q :: h) = session h :=
  session_of_other hb (fun h => hq.start h.1) (fun h => hq.data h.1.1) fun he =>
    he.elim (fun h => hq.data h.1) fun h => h.2.2 (hq.done h.1 h.2.1)

/-! ## The counters of a session -/

/-- The counters are those of the session, and no error was reported in it. -/
structure Counted (d : Dev) (s : Session) : Prop where
  inProgress : d.ota.inProgress = true
  offset : d.ota.currentOffset = d.ota.receivedSize
  received : d.ota.receivedSize.toNat = s.bytes.length
  le : d.ota.receivedSize ≤ d.ota.firmwareSize
  size : d.ota.firmwareSize = s.size
  sound : s.failed = false

/-- The sum `offset + fw_len` of a DATA does not leave 32 bits. -/
def NoWrap (d : Dev) (f : OtaFrame) : Prop := d.ota.currentOffset.toNat + f.fwLen.toNat < 2 ^ 32

instance (d : Dev) (f : OtaFrame) : Decidable (NoWrap d f) := inferInstanceAs (Decidable (_ < _))

/-- Changing the boot flag changes no counter. -/
theorem Counted.bootFlag {s : Session} (h : Counted d s) (b : UInt8) :
    Counted { d with ota := { d.ota with bootFlag := b } } s :=
  ⟨h.inProgress, h.offset, h.received, h.le, h.size, h.sound⟩

theorem counted_start (d : Dev) (f : OtaFrame) (m : Mem) :
    Counted { d with ota := { d.ota.erasing f with status := .receiving }, slot1 := m }
      (.start f) where
  inProgress := rfl
  offset := rfl
  received := rfl
  le := UInt32.le_iff_toNat_le.2 (Nat.zero_le _)
  size := rfl
  sound := rfl

theorem Counted.accept {s : Session} {f : OtaFrame} (h : Counted d s) (hp : DataPasses d f)
    (hw : NoWrap d f) (m : Mem) :
    Counted { d with ota := d.ota.advanced z f, slot1 := m } (s.accept f.fwData) where
  inProgress := h.inProgress
  offset := congrArg (· + f.fwLen.toUInt32) h.offset
  received := by
    have hw : d.ota.receivedSize.toNat + f.fwLen.toNat < 2 ^ 32 := h.offset ▸ hw
    simp only [OtaState.advanced, UInt32.toNat_add, UInt16.toNat_toUInt32, Session.bytes_accept,
      List.length_append, OtaFrame.length_fwData, ← h.received]
    exact Nat.mod_eq_of_lt hw
  le := by
    have hf := hp.fits
    rw [hp.offset, h.offset] at hf
    exact hf
  size := h.size
  sound := h.sound

end ZephyrStm32.Ota
