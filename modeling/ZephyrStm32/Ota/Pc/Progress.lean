import ZephyrStm32.Ota.Pc.Requests

/-!
# The progress that is reported

A packet *passes* when its response is not rejected by `check_response`, which rejects nothing but
the four bytes FF. It is *acknowledged* when the response begins with the status 00. The refusals of
the device's DATA handler, `FF FF FF FF FF` and `01 FF FF FF FF`, pass and acknowledge nothing.

**Theorem (`progress_truthful`).** Whatever the device answers, a progress event gives the number
of bytes of firmware in the packets that have passed before it, more than the one before, out of the
size of the file; at the end of the thread nothing that passed is left unreported, and in an upgrade
that succeeds the whole file has passed. All the events give the bytes acknowledged exactly when
nothing has passed that is not acknowledged.
-/

namespace ZephyrStm32.Ota.Pc

open Interact
open Engine

/-! ## What a transcript shows -/

/-- The bytes of firmware in a packet whose response is not rejected. -/
def passedReply (frame : Frame) : Except String Frame → Nat
  | .ok resp =>
    if frame.command = cmdTransferData ∧ resp.isErrorResponse = false then frame.fwBytes.length
    else 0
  | .error _ => 0

def passedBy : Asked Op Op.Answer → Nat
  | ⟨.sendAndRecv frame _, x⟩ => passedReply frame x
  | _ => 0

/-- The bytes passed. -/
def passed (t : List (Asked Op Op.Answer)) : Nat := (t.map passedBy).sum

/-- The bytes of firmware in a packet that the device has taken. -/
def ackedReply (frame : Frame) : Except String Frame → Nat
  | .ok resp =>
    if frame.command = cmdTransferData ∧ resp.isSuccess = true then frame.fwBytes.length else 0
  | .error _ => 0

def ackedBy : Asked Op Op.Answer → Nat
  | ⟨.sendAndRecv frame _, x⟩ => ackedReply frame x
  | _ => 0

/-- The bytes acknowledged. -/
def acked (t : List (Asked Op Op.Answer)) : Nat := (t.map ackedBy).sum

/-- `bytes_sent` of a progress event. -/
def sentIn : Asked Op Op.Answer → Option Nat
  | ⟨.emit (.progress _ _ bytesSent _), _⟩ => some bytesSent
  | _ => none

/-- What was reported last. -/
def lastSent (t : List (Asked Op Op.Answer)) : Nat := (t.filterMap sentIn).getLast?.getD 0

/-- A progress event is right, after what came before it. -/
def Reports (fwSize : Nat) (before : List (Asked Op Op.Answer)) : Asked Op Op.Answer → Prop
  | ⟨.emit (.progress stage _ bytesSent totalBytes), _⟩ =>
    stage = .transferring ∧ bytesSent = passed before ∧ lastSent before < bytesSent ∧
      totalBytes = fwSize
  | _ => True

/-- All progress events are right, and nothing is left to report. -/
structure Truthful (fwSize : Nat) (t : List (Asked Op Op.Answer)) : Prop where
  each : ∀ before a after, t = before ++ a :: after → Reports fwSize before a
  last : lastSent t = passed t
  bounded : passed t ≤ fwSize

/-- All progress events give the bytes acknowledged before them. -/
def ReportsAcked (t : List (Asked Op Op.Answer)) : Prop :=
  ∀ before a after sent, t = before ++ a :: after → sentIn a = some sent → sent = acked before

/-- A call that neither reports progress nor sends DATA for an answer. -/
def Op.Calm : Op → Prop
  | .emit (.progress ..) => False
  | .sendAndRecv frame _ => frame.command ≠ cmdTransferData
  | _ => True

variable {t : List (Asked Op Op.Answer)} {a : Asked Op Op.Answer} {n : Nat} {config : OtaConfig}

@[simp] theorem passed_snoc : passed (t ++ [a]) = passed t + passedBy a := by
  simp [passed]

theorem lastSent_snoc_none (h : sentIn a = none) : lastSent (t ++ [a]) = lastSent t := by
  simp [lastSent, List.filterMap_append, h]

theorem lastSent_snoc_some (h : sentIn a = some n) : lastSent (t ++ [a]) = n := by
  simp [lastSent, List.filterMap_append, h]

theorem Op.Calm.unseen (h : a.op.Calm) : passedBy a = 0 ∧ sentIn a = none := by
  obtain ⟨op, x⟩ := a
  cases op with
  | emit event =>
    cases event with
    | progress => exact h.elim
    | _ => exact ⟨rfl, rfl⟩
  | sendAndRecv frame timeoutMs =>
    refine ⟨?_, rfl⟩
    change passedReply frame x = 0
    cases x with
    | ok resp => exact if_neg fun hc => h hc.1
    | error e => rfl
  | _ => exact ⟨rfl, rfl⟩

/-- Nothing is to be said of an event that is no progress event. -/
theorem reports_of_none (h : sentIn a = none) : Reports n t a := by
  obtain ⟨op, x⟩ := a
  cases op with
  | emit event =>
    cases event with
    | progress => cases h
    | _ => trivial
  | _ => trivial

theorem Truthful.snoc (h : Truthful n t) (hpassed : passedBy a = 0) (hsent : sentIn a = none) :
    Truthful n (t ++ [a]) where
  each := forall_split_snoc h.each (reports_of_none hsent)
  last := by rw [lastSent_snoc_none hsent, h.last, passed_snoc, hpassed, Nat.add_zero]
  bounded := by
    rw [passed_snoc, hpassed, Nat.add_zero]
    exact h.bounded

/-- A packet passes, and then it is reported. -/
theorem Truthful.packet (h : Truthful n t) (msg : String) {sent : Nat} (hnone : sentIn a = none)
    (hpos : 0 < passedBy a) (hle : passed t + passedBy a ≤ n)
    (hsent : sent = passed t + passedBy a) :
    Truthful n (t ++ [a] ++ [⟨.emit (.progress .transferring msg sent n), ()⟩]) ∧
      passed (t ++ [a] ++ [⟨.emit (.progress .transferring msg sent n), ()⟩]) = sent := by
  have hlast : lastSent (t ++ [a]) = passed t := by rw [lastSent_snoc_none hnone, h.last]
  have hpassed :
      passed (t ++ [a] ++ [⟨.emit (.progress .transferring msg sent n), ()⟩]) = sent := by
    rw [passed_snoc, passed_snoc, hsent]
    rfl
  refine ⟨⟨?_, ?_, ?_⟩, hpassed⟩
  · refine forall_split_snoc (forall_split_snoc h.each (reports_of_none hnone)) ⟨rfl, ?_, ?_, rfl⟩
    · rw [passed_snoc, hsent]
    · rw [hlast, hsent]
      exact Nat.lt_add_of_pos_right hpos
  · rw [lastSent_snoc_some rfl, hpassed]
  · rw [hpassed, hsent]
    exact hle

/-! ## Passed and acknowledged -/

theorem isErrorResponse_of_isSuccess {resp : Frame} (h : resp.isSuccess = true) :
    resp.isErrorResponse = false := by
  by_contra herr
  obtain ⟨-, hdata⟩ := Bool.and_eq_true_iff.1 (Bool.not_eq_false _ ▸ herr)
  rw [Frame.isSuccess, eq_of_beq hdata] at h
  exact absurd h (by decide)

theorem ackedBy_le (a : Asked Op Op.Answer) : ackedBy a ≤ passedBy a := by
  obtain ⟨op, x⟩ := a
  cases op with
  | sendAndRecv frame timeoutMs =>
    change ackedReply frame x ≤ passedReply frame x
    cases x with
    | error e => exact le_rfl
    | ok resp =>
      by_cases h : frame.command = cmdTransferData ∧ resp.isSuccess = true
      · rw [ackedReply, passedReply, if_pos h, if_pos ⟨h.1, isErrorResponse_of_isSuccess h.2⟩]
      · rw [ackedReply, if_neg h]
        exact Nat.zero_le _
  | _ => exact le_rfl

theorem acked_le (t : List (Asked Op Op.Answer)) : acked t ≤ passed t :=
  List.sum_le_sum fun a _ => ackedBy_le a

/-- What is acknowledged before a call, and from it on. -/
theorem acked_split {before after : List (Asked Op Op.Answer)} (h : t = before ++ a :: after) :
    acked t = acked before + acked (a :: after) ∧
      passed t = passed before + passed (a :: after) := by
  subst h
  exact ⟨by simp [acked], by simp [passed]⟩

/-- What was reported last, if anything was. -/
theorem lastSent_cases (t : List (Asked Op Op.Answer)) : lastSent t = 0 ∨
    ∃ before a after, t = before ++ a :: after ∧ sentIn a = some (lastSent t) := by
  cases hlast : (t.filterMap sentIn).getLast? with
  | none =>
    left
    rw [lastSent, hlast]
    rfl
  | some sent =>
    right
    obtain ⟨a, ha, hsent⟩ := List.mem_filterMap.1 (List.mem_of_getLast? hlast)
    obtain ⟨before, after, hsplit⟩ := List.append_of_mem ha
    refine ⟨before, a, after, hsplit, ?_⟩
    rw [hsent, lastSent, hlast]
    rfl

/-- The last event counts everything that passed, so it is right about what is acknowledged only if
all of that is. -/
theorem Truthful.reportsAcked_iff (h : Truthful n t) : ReportsAcked t ↔ acked t = passed t := by
  constructor
  · intro hacked
    refine le_antisymm (acked_le t) ?_
    rw [← h.last]
    rcases lastSent_cases t with hzero | ⟨before, a, after, hsplit, hsent⟩
    · rw [hzero]
      exact Nat.zero_le _
    · rw [hacked before a after _ hsplit hsent, (acked_split hsplit).1]
      exact Nat.le_add_right _ _
  · intro hall before a after sent hsplit hsent
    have hreports := h.each before a after hsplit
    obtain ⟨hacked, hpassed⟩ := acked_split hsplit
    have hbefore := acked_le before
    have hafter := acked_le (a :: after)
    have hsum : sent = passed before := by
      obtain ⟨op, x⟩ := a
      cases op with
      | emit event =>
        cases event with
        | progress stage msg bytesSent totalBytes =>
          obtain rfl := Option.some.inj hsent
          exact hreports.2.1
        | _ => cases hsent
      | _ => cases hsent
    omega

/-! ## Around the transfer -/

theorem covers_calm : Covers Op.Calm fun command _ => command ≠ cmdTransferData :=
  ⟨trivial, fun _ => trivial, fun _ => trivial, fun _ => trivial, fun _ => trivial,
    fun _ _ _ h _ => h⟩

/-- The books are right, and `k` bytes have passed. -/
structure Books (n k : Nat) (t : List (Asked Op Op.Answer)) : Prop where
  truthful : Truthful n t
  passed : passed t = k

variable {k : Nat}

theorem Books.snoc (h : Books n k t) (hpassed : passedBy a = 0) (hsent : sentIn a = none) :
    Books n k (t ++ [a]) where
  truthful := h.truthful.snoc hpassed hsent
  passed := by rw [passed_snoc, hpassed, Nat.add_zero, h.passed]

/-- A calm part keeps the books right. -/
theorem calm {α : Type} {p : Engine α} (hp : Asks Op.Calm p) :
    Triple (monitor snoc) (fun _ => Truthful n) (Books n k) p fun _ => Books n k := by
  have hkeeps : Triple (monitor snoc) (fun _ => Books n k) (Books n k) p fun _ => Books n k :=
    hp.keeps fun op t hop h x =>
      have ⟨hpassed, hsent⟩ := Op.Calm.unseen (a := ⟨op, x⟩) hop
      h.snoc hpassed hsent
  exact fun t h => wp_imp (hkeeps t h) (fun _ _ h => h) fun _ _ h => h.truthful

/-! ## The transfer -/

/-- These packets are left of a transfer. -/
structure Reporting (n : Nat) (packets : List FirmwarePacket) (t : List (Asked Op Op.Answer)) :
    Prop where
  truthful : Truthful n t
  contiguous : Contiguous (passed t) packets
  nonempty : ∀ pkt ∈ packets, 1 ≤ pkt.data.length
  rest : passed t + (packets.map (·.data)).flatten.length = n

variable {packets : List FirmwarePacket} {pkt : FirmwarePacket}

theorem Reporting.calm (h : Reporting n packets t) (hpassed : passedBy a = 0)
    (hsent : sentIn a = none) : Reporting n packets (t ++ [a]) := by
  have hsame : passed (t ++ [a]) = passed t := by rw [passed_snoc, hpassed, Nat.add_zero]
  exact ⟨h.truthful.snoc hpassed hsent, hsame.symm ▸ h.contiguous, h.nonempty, hsame.symm ▸ h.rest⟩

/-- A call that is not seen. -/
theorem reporting_calm (op : Op) (h : op.Calm) :
    Triple (monitor snoc) (fun (_ : Failure) => Truthful n) (Reporting n packets)
      (question op : Engine op.Answer) fun _ => Reporting n packets := by
  intro t ht x
  obtain ⟨hpassed, hsent⟩ := Op.Calm.unseen (a := ⟨op, x⟩) h
  exact ht.calm hpassed hsent

theorem reporting_look : Triple (monitor snoc) (fun (_ : Failure) => Truthful n)
    (Reporting n packets) isCancelled
    fun cancelled t => if cancelled then Truthful n t else Reporting n packets t := by
  intro t ht cancelled
  have ht' := ht.calm (a := ⟨.isCancelled, cancelled⟩) rfl rfl
  cases cancelled with
  | true => exact ht'.truthful
  | false => exact ht'

/-- The answer to a packet is in the transcript, and nothing is made of it yet. -/
def Replied (n : Nat) (packets : List FirmwarePacket) (frame : Frame) (resp : Frame)
    (t : List (Asked Op Op.Answer)) : Prop :=
  ∃ before a, t = before ++ [a] ∧ Reporting n packets before ∧ sentIn a = none ∧
    passedBy a = passedReply frame (.ok resp)

theorem attempts_progress (frame : Frame) :
    Attempts (monitor snoc) (fun _ => Truthful n) config frame (fun _ => Reporting n packets)
      (fun _ => Reporting n packets) (fun _ => Reporting n packets)
      (Replied n packets frame) where
  panic _ h := h.truthful
  look _ := reporting_look
  ask _ t h x := by
    cases x with
    | ok resp => exact ⟨t, _, rfl, h, rfl, rfl⟩
    | error e => exact h.calm rfl rfl
  again _ := reporting_calm (.sleep 200) trivial
  last _ t h _ _ := ((h.calm rfl rfl).calm rfl rfl).truthful

theorem cancelTransfer_progress : Triple (monitor snoc) (fun _ => Truthful n) (Truthful n)
    cancelTransfer fun _ _ => False :=
  cancelTransfer_triple (B := Truthful n) (fun _ h _ => h.snoc rfl rfl) fun _ h _ => h.snoc rfl rfl

/-- A packet that passes is reported. -/
theorem Replied.reported {fwSize : UInt32} {total : UInt16} {i : Nat} {resp : Frame}
    (h : Replied fwSize.toNat (pkt :: packets) (dataFrame total i pkt) resp t)
    (herr : resp.isErrorResponse = false) (msg : String) :
    Reporting fwSize.toNat packets (t ++ [⟨.emit (.progress .transferring msg
      (pkt.offset.toNat + pkt.data.length) fwSize.toNat), ()⟩]) := by
  obtain ⟨before, a, rfl, h, hnone, ha⟩ := h
  have hbytes : passedBy a = pkt.data.length := ha.trans (if_pos ⟨rfl, herr⟩)
  obtain ⟨hpkt, hne⟩ := List.forall_mem_cons.1 h.nonempty
  obtain ⟨hoffset, hcont⟩ := h.contiguous
  have hrest := h.rest
  rw [List.map_cons, List.flatten_cons, List.length_append] at hrest
  have hsmall : passed before < 2 ^ 32 := by
    have hlt := fwSize.toNat_lt
    omega
  have hsent : pkt.offset.toNat + pkt.data.length = passed before + passedBy a := by
    rw [hoffset, UInt32.toNat_ofNat_of_lt' hsmall, hbytes]
  obtain ⟨htruthful, hnow⟩ := h.truthful.packet msg hnone (by omega) (by omega) hsent
  rw [hsent, hbytes] at hnow
  rw [hsent, hbytes] at htruthful ⊢
  refine ⟨htruthful, hnow.symm ▸ hcont, hne, ?_⟩
  rw [hnow]
  omega

theorem transferPacket_progress {fwSize : UInt32} {total : UInt16} {i : Nat}
    (hlen : pkt.data.length ≤ 65531) :
    Triple (monitor snoc) (fun _ => Truthful fwSize.toNat)
      (Reporting fwSize.toNat (pkt :: packets)) (transferPacket total fwSize config i pkt)
      fun _ => Reporting fwSize.toNat packets := by
  refine transferPacket_triple hlen reporting_look cancelTransfer_progress
    (attempts_progress _).sendFrame ?_ ?_
  · rintro resp _ herr ⟨before, a, rfl, h, hnone, ha⟩ _
    refine h.truthful.snoc (ha.trans (if_neg fun hc => ?_)) hnone
    rw [herr] at hc
    exact Bool.noConfusion hc.2
  · exact fun resp herr t h _ => h.reported herr _

theorem transfer_progress {fwData : List UInt8} (hlen : fwData.length < 2 ^ 32) {chunkSize : Nat}
    (hchunk : chunkSize ≤ 4096) :
    Triple (monitor snoc) (fun _ => Truthful fwData.length) (Books fwData.length 0)
      (transfer fwData (UInt32.ofNat fwData.length) chunkSize config)
      fun _ => Books fwData.length fwData.length := by
  have hsize : (UInt32.ofNat fwData.length).toNat = fwData.length :=
    UInt32.toNat_ofNat_of_lt' hlen
  suffices h : Triple (monitor snoc) (fun _ => Truthful (UInt32.ofNat fwData.length).toNat)
      (Books fwData.length 0) (transfer fwData (UInt32.ofNat fwData.length) chunkSize config)
      fun _ => Books (UInt32.ofNat fwData.length).toNat (UInt32.ofNat fwData.length).toNat by
    rwa [hsize] at h
  refine transfer_triple (T := fun _ => Reporting (UInt32.ofNat fwData.length).toNat) hchunk ?_
    (fun _ _ _ => transferPacket_progress) ?_
  · rintro t h ⟨⟩
    have hstage := h.snoc (a := ⟨.emit (.stageChanged .transferring), ()⟩) rfl rfl
    rw [hsize]
    refine ⟨hstage.truthful, hstage.passed.symm ▸ contiguous_split fwData chunkSize,
      nonempty_split fwData chunkSize, ?_⟩
    rw [snoc, hstage.passed, flatten_split, Nat.zero_add]
  · exact fun _ t h => ⟨h.truthful, h.rest⟩

/-! ## The whole thread -/

theorem truthful_nil (n : Nat) : Truthful n [] where
  each before a after h := absurd h (by simp)
  last := rfl
  bounded := Nat.zero_le n

/-- The bytes that have passed at each point. -/
def passedAt (n : Nat) : Station → Nat
  | .connected | .informed | .started _ => 0
  | _ => n

theorem walk_progress (config : OtaConfig) {fwData : List UInt8} (hlen : fwData.length < 2 ^ 32)
    (fwCrc : UInt32) :
    Walk (monitor snoc) (fun _ => Truthful fwData.length) config fwData fwCrc
      (Books fwData.length 0) (fun station => Books fwData.length (passedAt fwData.length station))
      fun _ => Books fwData.length fwData.length where
  look _ := calm (asks_failIfCancelled covers_calm)
  handshake := calm (asks_step covers_calm (by decide) (by simp))
  getDeviceInfo := calm (asks_step covers_calm (by decide) (by simp))
  startUpgrade := calm (asks_step covers_calm (by decide) (by simp))
  transfer _ _ hchunk := transfer_progress hlen hchunk
  transferComplete := calm (asks_step covers_calm (by decide) (by simp))
  verifyFirmware := calm (asks_step covers_calm (by decide) (by simp))
  setBootFlag := calm (asks_setBootFlag covers_calm (by decide) (by decide))
  finish := calm (asks_finish covers_calm (by decide))

theorem wp_upgradeThread_progress (crc32fastHash : List UInt8 → UInt32) {fwData : List UInt8}
    (hlen : fwData.length < 2 ^ 32) :
    wp (monitor snoc)
      (fun r t' => Truthful fwData.length t' ∧ (r = .ok () → passed t' = fwData.length))
      (fun _ t' => Truthful fwData.length t')
      (upgradeThread crc32fastHash (.ok fwData) config) [] := by
  have hflow := (walk_progress config hlen (crc32fastHash fwData)).doUpgrade crc32fastHash
  have hcalm {α : Type} {p : Engine α} (hp : Asks Op.Calm p) : Triple (monitor snoc)
      (fun _ => Truthful fwData.length) (Truthful fwData.length) p
      fun _ => Truthful fwData.length :=
    fun t h => wp_mono (calm hp t ⟨h, rfl⟩) fun _ _ h => h.truthful
  refine upgradeThread_triple (P := Books fwData.length 0) (F := fun _ => Truthful fwData.length)
    (J := fun _ => Truthful fwData.length) ?_ (fun _ h => h) (fun _ => hcalm ?_) (fun e t h => ?_) _
    ⟨truthful_nil _, rfl⟩
  · exact hflow.mono fun _ _ h => ⟨h.truthful, fun _ => h.passed⟩
  · exact asks_pollLogs covers_calm (by decide)
  · exact wp_mono (hcalm (asks_emitError covers_calm e) t h) fun _ _ h => ⟨h, fun he => nomatch he⟩

/-- **Progress is truthful.** Each progress event gives the bytes passed so far out of those of the
file, nothing that passed stays unreported, and success means that all of it has passed. These are
the bytes acknowledged if and only if everything that passed is. -/
theorem progress_truthful (crc32fastHash : List UInt8 → UInt32) (fwData : List UInt8)
    (config : OtaConfig) (hlen : fwData.length < 2 ^ 32) {σ : Type} (env : Env Op Op.Answer σ)
    (s : σ) :
    let r := run env (upgradeThread crc32fastHash (.ok fwData) config) s
    Truthful fwData.length r.2 ∧ (r.1 = .ok (.ok ()) → passed r.2 = fwData.length) ∧
      (ReportsAcked r.2 ↔ acked r.2 = passed r.2) := by
  intro r
  have h := wp_run env (@wp_upgradeThread_progress config crc32fastHash _ hlen) s
  rw [foldl_snoc, List.nil_append] at h
  rcases h with ⟨e, hr, htruthful, hok⟩ | ⟨e, he, htruthful⟩
  · refine ⟨htruthful, fun hsuccess => hok ?_, htruthful.reportsAcked_iff⟩
    exact Except.ok.inj (hr.symm.trans hsuccess)
  · refine ⟨htruthful, fun hsuccess => ?_, htruthful.reportsAcked_iff⟩
    cases he.symm.trans hsuccess

/-- On the link of small packets: two bytes pass, and are reported. They are acknowledged too. -/
theorem progress_truthful_small :
    let r := run smallPackets (upgradeThread Crc32.hash (.ok [0xAA, 0xBB]) {}) ()
    Truthful 2 r.2 ∧ passed r.2 = 2 ∧ ReportsAcked r.2 := by
  intro r
  obtain ⟨htruthful, hok, hacked⟩ := progress_truthful Crc32.hash [0xAA, 0xBB] {} (by decide)
    smallPackets ()
  exact ⟨htruthful, hok (by decide +kernel), hacked.2 (by decide +kernel)⟩

end ZephyrStm32.Ota.Pc
