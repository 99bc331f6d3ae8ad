import ZephyrStm32.Lib.Crc32
import ZephyrStm32.Ota.Pc.Steps

/-!
# The transfer plan

The START, DATA and DONE requests that an upgrade sends are settled by the firmware and by the
packet size in the answer to START (`transferPlan`).

**Theorem (`plan_respects_iff`).** A run sends the requests of its plan in order, all of them if it
returns `Ok`; and the plan respects the device's limits exactly when the packet size is at least
128, or takes the firmware in one packet, and there are at most 65535 packets.
-/

namespace ZephyrStm32.Ota.Pc

open Bytes (le32)
open Interact
open Engine

/-! ## The plan -/

/-- The bytes of firmware in a packet, from the packet size in the answer to START. -/
def chunkSizeOf (maxPktSize : UInt16) : Nat := (min (max maxPktSize 128) 4096).toNat

/-- The DATA frames of packets numbered from `i` on. -/
def numbered (total : UInt16) (i : Nat) (packets : List FirmwarePacket) : List Frame :=
  packets.mapIdx fun k => dataFrame total (i + k)

def startFrame (fwData : List UInt8) (fwCrc : UInt32) : Frame :=
  plainFrame cmdStartUpgrade
    (le32 (UInt32.ofNat fwData.length) ++ le32 fwCrc ++ fwVersion.toList)

def doneFrame (fwData : List UInt8) (fwCrc : UInt32) : Frame :=
  plainFrame cmdTransferComplete (le32 fwCrc ++ le32 (UInt32.ofNat fwData.length))

/-- START, the packets, DONE. -/
def transferPlan (fwData : List UInt8) (fwCrc : UInt32) (maxPktSize : UInt16) : List Frame :=
  let packets := splitIntoPackets fwData (chunkSizeOf maxPktSize)
  startFrame fwData fwCrc :: numbered (UInt16.ofNat packets.length) 0 packets ++
    [doneFrame fwData fwCrc]

/-! ## The device's limits -/

namespace Frame

/-- The size in a START or a DONE. -/
def declaredSize (f : Frame) : UInt32 :=
  (Mem.ofList f.data).u32 (if f.command = cmdStartUpgrade then 0 else 4)

/-- The offset in a DATA. -/
def fwOffset (f : Frame) : UInt32 := (Mem.ofList f.data).u32 0

/-- The firmware in a DATA. -/
def fwBytes (f : Frame) : List UInt8 := f.data.drop 4

end Frame

/-- The DATA requests. -/
def dataRequests (requests : List Frame) : List Frame :=
  requests.filter (·.command == cmdTransferData)

/-- START and DONE declare the length of the file; the DATA requests carry 1 to `maxPktSize` bytes
each, the file together, and say where in it they are, which packet they are and of how many. -/
structure RespectsLimits (fwData : List UInt8) (maxPktSize : UInt16) (requests : List Frame) :
    Prop where
  size : ∀ f ∈ requests, f.command ≠ cmdTransferData → f.declaredSize.toNat = fwData.length
  bounded : ∀ f ∈ dataRequests requests,
    1 ≤ f.fwBytes.length ∧ f.fwBytes.length ≤ maxPktSize.toNat
  contiguous : ∀ i (h : i < (dataRequests requests).length),
    (dataRequests requests)[i].fwOffset.toNat =
      (((dataRequests requests).take i).map (·.fwBytes)).flatten.length
  payloads : ((dataRequests requests).map (·.fwBytes)).flatten = fwData
  seq : ∀ i (h : i < (dataRequests requests).length),
    (dataRequests requests)[i].packetSeq.toNat = i
  total : ∀ f ∈ dataRequests requests, f.totalPackets.toNat = (dataRequests requests).length

/-- The packet size is at least the least that `do_upgrade` uses, or one packet is enough; and the
number of packets fits in 16 bits. -/
def WithinLimits (fwData : List UInt8) (maxPktSize : UInt16) : Prop :=
  (128 ≤ maxPktSize ∨ fwData.length ≤ maxPktSize.toNat) ∧
    fwData.length ≤ 65535 * chunkSizeOf maxPktSize

variable {fwData : List UInt8} {fwCrc : UInt32} {maxPktSize total : UInt16} {i : Nat}
  {packets : List FirmwarePacket}

theorem toNat_chunkSizeOf (m : UInt16) : chunkSizeOf m = min (max m.toNat 128) 4096 :=
  toNat_chunkSize m

/-! ## The packets of a plan -/

@[simp] theorem numbered_cons (pkt : FirmwarePacket) : numbered total i (pkt :: packets) =
    dataFrame total i pkt :: numbered total (i + 1) packets := by
  simp [numbered, List.mapIdx_cons, Nat.add_right_comm, Nat.add_assoc]

@[simp] theorem length_numbered : (numbered total i packets).length = packets.length := by
  simp [numbered]

theorem fwOffset_dataFrame (pkt : FirmwarePacket) :
    (dataFrame total i pkt).fwOffset = pkt.offset :=
  Mem.u32_of_slice (Mem.slice_ofList _)

theorem fwBytes_dataFrame (pkt : FirmwarePacket) :
    (dataFrame total i pkt).fwBytes = pkt.data := rfl

theorem map_fwBytes_numbered :
    (numbered total i packets).map (·.fwBytes) = packets.map (·.data) := by
  induction packets generalizing i with
  | nil => rfl
  | cons pkt packets ih => rw [numbered_cons, List.map_cons, List.map_cons, ih, fwBytes_dataFrame]

theorem dataRequests_numbered :
    dataRequests (numbered total i packets) = numbered total i packets := by
  refine List.filter_eq_self.2 fun f hf => ?_
  obtain ⟨k, hk, rfl⟩ := List.mem_mapIdx.1 hf
  rfl

theorem dataRequests_plan : dataRequests (transferPlan fwData fwCrc maxPktSize) =
    numbered (UInt16.ofNat (splitIntoPackets fwData (chunkSizeOf maxPktSize)).length) 0
      (splitIntoPackets fwData (chunkSizeOf maxPktSize)) := by
  rw [transferPlan, dataRequests, List.filter_append]
  change dataRequests (numbered _ 0 _) ++ [] = _
  rw [dataRequests_numbered, List.append_nil]

theorem declaredSize_startFrame :
    (startFrame fwData fwCrc).declaredSize = UInt32.ofNat fwData.length :=
  Mem.u32_of_slice (Mem.slice_ofList _)

theorem declaredSize_doneFrame :
    (doneFrame fwData fwCrc).declaredSize = UInt32.ofNat fwData.length := by
  have h := Mem.slice_ofList_append (le32 fwCrc) (le32 (UInt32.ofNat fwData.length)) []
  rw [List.append_nil] at h
  exact Mem.u32_of_slice (h.trans (List.append_nil _).symm)

theorem dataFrame_mem_numbered {k : Nat} (hk : k < packets.length) :
    dataFrame total k packets[k] ∈ numbered total 0 packets :=
  List.mem_mapIdx.2 ⟨k, hk, by rw [Nat.zero_add]⟩

theorem getElem_numbered {k : Nat} (hk : k < (numbered total 0 packets).length)
    (hk' : k < packets.length) :
    (numbered total 0 packets)[k] = dataFrame total k packets[k] := by
  simp [numbered]

/-! ## When the plan respects the limits -/

theorem RespectsLimits.within
    (h : RespectsLimits fwData maxPktSize (transferPlan fwData fwCrc maxPktSize)) :
    WithinLimits fwData maxPktSize := by
  have hchunk := toNat_chunkSizeOf maxPktSize
  have hbounded := h.bounded
  have htotal := h.total
  rw [dataRequests_plan] at hbounded htotal
  have hle := length_split_le_iff fwData (c := chunkSizeOf maxPktSize) (by omega)
  rcases Nat.eq_zero_or_pos (splitIntoPackets fwData (chunkSizeOf maxPktSize)).length with h0 | hpos
  · have hempty := (hle 0).1 h0.le
    rw [Nat.zero_mul] at hempty
    exact ⟨Or.inr (by omega), by omega⟩
  · -- The first packet is as long as the chunk size or the image; it holds the whole number.
    have hfirst := (hbounded _ (dataFrame_mem_numbered hpos)).2
    have hnumber := htotal _ (dataFrame_mem_numbered hpos)
    rw [fwBytes_dataFrame, head_split _ _ hpos, List.length_take] at hfirst
    rw [length_numbered] at hnumber
    constructor
    · rw [UInt16.le_iff_toNat_le]
      change 128 ≤ maxPktSize.toNat ∨ _
      omega
    · have hlt := (UInt16.ofNat (splitIntoPackets fwData (chunkSizeOf maxPktSize)).length).toNat_lt
      apply (hle 65535).1
      change (UInt16.ofNat _).toNat = _ at hnumber
      omega

theorem WithinLimits.respects (h : WithinLimits fwData maxPktSize) :
    RespectsLimits fwData maxPktSize (transferPlan fwData fwCrc maxPktSize) := by
  have hchunk := toNat_chunkSizeOf maxPktSize
  obtain ⟨hsize, hcount⟩ := h
  rw [UInt16.le_iff_toNat_le] at hsize
  change 128 ≤ maxPktSize.toNat ∨ _ at hsize
  have hle := (length_split_le_iff fwData (c := chunkSizeOf maxPktSize) (by omega) 65535).2 hcount
  have hlen : fwData.length < 2 ^ 32 := by
    have hmul : 65535 * chunkSizeOf maxPktSize ≤ 65535 * 4096 := Nat.mul_le_mul_left _ (by omega)
    omega
  refine ⟨?_, ?_, ?_, ?_, ?_, ?_⟩
  · intro f hf hcommand
    rw [transferPlan, List.cons_append, List.mem_cons, List.mem_append, List.mem_singleton] at hf
    rcases hf with rfl | hf | rfl
    · rw [declaredSize_startFrame, UInt32.toNat_ofNat_of_lt' hlen]
    · obtain ⟨k, hk, rfl⟩ := List.mem_mapIdx.1 hf
      exact absurd rfl hcommand
    · rw [declaredSize_doneFrame, UInt32.toNat_ofNat_of_lt' hlen]
  all_goals rw [dataRequests_plan]
  · intro f hf
    obtain ⟨k, hk, rfl⟩ := List.mem_mapIdx.1 hf
    have hmem := List.getElem_mem hk
    have hchunked := length_split _ _ _ hmem
    have hshort := length_le_of_mem_split _ _ _ hmem
    rw [fwBytes_dataFrame]
    exact ⟨nonempty_split _ _ _ hmem, by omega⟩
  · intro k hk
    have hk' := hk
    rw [length_numbered] at hk'
    have hoffset := (contiguous_split fwData (chunkSizeOf maxPktSize)).offset k hk'
    have hbefore := lt_of_le_of_lt (length_before_le fwData (chunkSizeOf maxPktSize) k) hlen
    rw [getElem_numbered hk hk', fwOffset_dataFrame, hoffset, Nat.zero_add,
      UInt32.toNat_ofNat_of_lt' hbefore, List.map_take, List.map_take, map_fwBytes_numbered]
  · rw [map_fwBytes_numbered, flatten_split]
  · intro k hk
    have hk' := hk
    rw [length_numbered] at hk'
    rw [getElem_numbered hk hk']
    exact UInt16.toNat_ofNat_of_lt' (show _ < 65536 by omega)
  · intro f hf
    obtain ⟨k, hk, rfl⟩ := List.mem_mapIdx.1 hf
    rw [length_numbered]
    exact UInt16.toNat_ofNat_of_lt' (show _ < 65536 by omega)

/-! ## What a transcript shows -/

/-- The packet size in an answer to START that accepts it. -/
def acceptedSize (x : Except String Frame) : Option UInt16 :=
  match x with
  | .error _ => none
  | .ok resp =>
    match parseStartUpgradeResponse resp with
    | none => none
    | some (status, maxPktSize, _) => if status = 0x00 then some maxPktSize else none

/-- The packet size in the answer to START, and the START, DATA and DONE requests, the latest
first. A request that is sent again right away is noted once. -/
structure Noted where
  maxPktSize : Option UInt16
  requests : List Frame

def planCommands : List UInt16 := [cmdStartUpgrade, cmdTransferData, cmdTransferComplete]

/-- A request and what came of it. -/
def Noted.reply (s : Noted) (frame : Frame) (x : Except String Frame) : Noted :=
  if frame.command ∈ planCommands then
    { maxPktSize := if frame.command = cmdStartUpgrade then acceptedSize x else s.maxPktSize
      requests := if s.requests.head? = some frame then s.requests else frame :: s.requests }
  else s

/-- A monitor of the transfer. -/
def note : Noted → Asked Op Op.Answer → Noted
  | s, ⟨.sendAndRecv frame _, x⟩ => s.reply frame x
  | s, _ => s

/-- What the transcript of an upgrade shows. -/
def noted (t : List (Asked Op Op.Answer)) : Noted := t.foldl note ⟨none, []⟩

/-- The requests so far are a beginning of the plan. -/
def OnPlan (fwData : List UInt8) (fwCrc : UInt32) (s : Noted) : Prop :=
  ∀ m, s.maxPktSize = some m → s.requests.reverse <+: transferPlan fwData fwCrc m

/-- A request that was not sent before, with an answer. -/
def Noted.add (s : Noted) (frame : Frame) (x : Except String Frame) : Noted where
  maxPktSize := if frame.command = cmdStartUpgrade then acceptedSize x else s.maxPktSize
  requests := frame :: s.requests

/-- What is noted between the steps of an upgrade. -/
def Reached (fwData : List UInt8) (fwCrc : UInt32) : Station → Noted → Prop
  | .connected, s => s = ⟨none, []⟩
  | .informed, s => s = ⟨none, []⟩
  | .started chunkSize, s =>
    ∃ m, chunkSize = chunkSizeOf m ∧ s = ⟨some m, [startFrame fwData fwCrc]⟩
  | .transferred, s => ∃ m, s.maxPktSize = some m ∧
    transferPlan fwData fwCrc m = s.requests.reverse ++ [doneFrame fwData fwCrc]
  | _, s => ∃ m, s.maxPktSize = some m ∧ s.requests.reverse = transferPlan fwData fwCrc m

/-! ## The attempts of a request -/

variable {α : Type} {config : OtaConfig} {frame : Frame} {label : String} {s : Noted}

theorem reply_first (hc : frame.command ∈ planCommands) (hfresh : s.requests.head? ≠ some frame)
    (x : Except String Frame) : s.reply frame x = s.add frame x := by
  rw [Noted.reply, if_pos hc, if_neg hfresh, Noted.add]

/-- Sending it again only brings another answer. -/
theorem reply_again (hc : frame.command ∈ planCommands) (e : String) (x : Except String Frame) :
    (s.add frame (.error e)).reply frame x = s.add frame x := by
  have hhead : (s.add frame (.error e)).requests.head? = some frame := rfl
  rw [Noted.reply, if_pos hc, if_pos hhead]
  by_cases hs : frame.command = cmdStartUpgrade <;> simp [Noted.add, hs]

theorem reply_other (hc : frame.command ∉ planCommands) (x : Except String Frame) :
    s.reply frame x = s := if_neg hc

/-- A request of the plan that is sent for the first time. -/
theorem sendFrame_note (hc : frame.command ∈ planCommands) (hs : OnPlan fwData fwCrc s)
    (hfresh : s.requests.head? ≠ some frame)
    (hadd : ∀ e, OnPlan fwData fwCrc (s.add frame (.error e))) :
    Triple (monitor note) (fun _ => OnPlan fwData fwCrc) (· = s) (sendFrame frame label config)
      fun resp s' => s' = s.add frame (.ok resp) := by
  -- Another attempt is noted as the first one would have been.
  let J (s' : Noted) : Prop := OnPlan fwData fwCrc s' ∧ ∀ x, s'.reply frame x = s.add frame x
  have hattempts : Attempts (monitor note) (fun _ => OnPlan fwData fwCrc) config frame (fun _ => J)
      (fun _ => J) (fun _ => J) fun resp s' => s' = s.add frame (.ok resp) := by
    refine ⟨fun s' h => h.1, fun _ s' h x => ?_, fun _ s' h x => ?_, fun _ s' h _ => h,
      fun _ s' h _ _ => h.1⟩
    · cases x with
      | true => exact h.1
      | false => exact h
    · cases x with
      | ok resp => exact h.2 _
      | error e =>
        change J (s'.reply frame (.error e))
        rw [h.2]
        exact ⟨hadd e, reply_again hc e⟩
  intro s' hs'
  obtain rfl : s' = s := hs'
  exact hattempts.sendFrame s' ⟨hs, reply_first hc hfresh⟩

/-! ## The steps that send no request of the plan -/

section

variable {P : Noted → Prop}

/-- A call that is not noted. -/
theorem unnoted {E : Failure → Noted → Prop} {op : Op} (h : ∀ s x, note s ⟨op, x⟩ = s) :
    Triple (monitor note) E P (question op : Engine op.Answer) fun _ => P := by
  intro s hs x
  change P (note s ⟨op, x⟩)
  rwa [h s x]

theorem emit_note {E : Failure → Noted → Prop} (event : OtaEvent) :
    Triple (monitor note) E P (emit event) fun _ => P := unnoted fun _ _ => rfl

theorem emitError_note {E : Failure → Noted → Prop} (message : String) :
    Triple (monitor note) E P (emitError message) fun _ => P :=
  (emit_note _).bind fun _ => emit_note _

variable (hP : ∀ s, P s → OnPlan fwData fwCrc s)
include hP

theorem look_note : Triple (monitor note) (fun _ => OnPlan fwData fwCrc) P isCancelled
    fun cancelled s => if cancelled then OnPlan fwData fwCrc s else P s := by
  intro s hs cancelled
  cases cancelled with
  | true => exact hP s hs
  | false => exact hs

theorem sendFrame_unnoted (hc : frame.command ∉ planCommands) :
    Triple (monitor note) (fun _ => OnPlan fwData fwCrc) P (sendFrame frame label config)
      fun _ => P := by
  have hattempts : Attempts (monitor note) (fun _ => OnPlan fwData fwCrc) config frame (fun _ => P)
      (fun _ => P) (fun _ => P) fun _ => P := by
    refine ⟨hP, fun _ => look_note hP, fun _ s hs x => ?_, fun _ => unnoted fun _ _ => rfl,
      fun message => (emitError_note message).mono fun _ => hP⟩
    have hsame (x : Except String Frame) : P (s.reply frame x) := by rwa [reply_other hc]
    cases x <;> exact hsame _
  exact hattempts.sendFrame

/-- A response that is settled with a value, or not. -/
theorem report_note {r : Settled α} {Q : α → Noted → Prop}
    (hvalue : ∀ a, r.outcome = .value a → ∀ s, P s → Q a s) :
    Triple (monitor note) (fun _ => OnPlan fwData fwCrc) P r.report Q :=
  report_triple (fun _ => emit_note _) hvalue (fun _ _ s hs => hP s hs)
    fun message _ => (emitError_note message).mono fun _ => hP

theorem step_unnoted {stage : UpgradeStage} {c : UInt16} {data : List UInt8}
    {settle : Frame → Settled α} (hc : c ∉ planCommands) :
    Triple (monitor note) (fun _ => OnPlan fwData fwCrc) P
      (step stage (plainFrame c data) label config settle) fun _ => P :=
  step_triple (emit_note _) (sendFrame_unnoted hP hc) fun _ => report_note hP fun _ _ _ hs => hs

end

/-! ## The steps that do -/

/-- At every point the requests so far are a beginning of the plan. -/
theorem Reached.onPlan (station : Station) (h : Reached fwData fwCrc station s) :
    OnPlan fwData fwCrc s := by
  intro m hm
  have hfull (h : ∃ m, s.maxPktSize = some m ∧ s.requests.reverse = transferPlan fwData fwCrc m) :
      s.requests.reverse <+: transferPlan fwData fwCrc m := by
    obtain ⟨m', hm', hr⟩ := h
    obtain rfl := Option.some.inj (hm.symm.trans hm')
    exact hr ▸ List.prefix_refl _
  cases station with
  | connected =>
    obtain rfl : s = _ := h
    cases hm
  | informed =>
    obtain rfl : s = _ := h
    cases hm
  | started chunkSize =>
    obtain ⟨m', -, rfl⟩ := h
    exact ⟨_, rfl⟩
  | transferred =>
    obtain ⟨m', hm', hr⟩ := h
    obtain rfl := Option.some.inj (hm.symm.trans hm')
    exact ⟨_, hr.symm⟩
  | completed => exact hfull h
  | verified => exact hfull h
  | flagged => exact hfull h

theorem acceptedSize_of_value {resp : Frame} {c : Nat}
    (h : (settleStart resp).outcome = .value c) :
    ∃ m, acceptedSize (.ok resp) = some m ∧ c = chunkSizeOf m := by
  unfold settleStart at h
  rcases hparse : parseStartUpgradeResponse resp with - | ⟨status, m, eraseProgress⟩
  · rw [hparse] at h
    cases h
  · have hsize : acceptedSize (.ok resp) = if status = 0x00 then some m else none := by
      simp only [acceptedSize, hparse]
    rw [hparse] at h
    dsimp only at h
    by_cases hs : status = 0x00
    · rw [if_neg (not_not.2 hs)] at h
      exact ⟨m, hsize.trans (if_pos hs), (Outcome.value.inj h).symm⟩
    · rw [if_pos hs] at h
      cases h

/-- START is the beginning of every plan. -/
theorem start_note :
    Triple (monitor note) (fun _ => OnPlan fwData fwCrc) (Reached fwData fwCrc .informed)
      (step .erasing (startFrame fwData fwCrc) "start_upgrade" config settleStart)
      fun chunkSize => Reached fwData fwCrc (.started chunkSize) := by
  have hadd (x : Except String Frame) : OnPlan fwData fwCrc
      ((⟨none, []⟩ : Noted).add (startFrame fwData fwCrc) x) :=
    fun _ _ => ⟨_, rfl⟩
  refine step_triple (emit_note _) (sendFrame_note (s := ⟨none, []⟩)
    (show cmdStartUpgrade ∈ planCommands by decide) (Reached.onPlan .informed rfl)
    (by simp) fun e => hadd _) fun resp => ?_
  refine report_note ?_ fun c hc => ?_
  · rintro _ rfl
    exact hadd _
  · rintro _ rfl
    obtain ⟨m, hm, hchunk⟩ := acceptedSize_of_value (value_of_checked hc).2
    exact ⟨m, hchunk, congrArg (Noted.mk · _) hm⟩

/-- What is noted before packet `i` of a transfer. -/
structure Sending (fwData : List UInt8) (fwCrc : UInt32) (m total : UInt16) (i : Nat)
    (packets : List FirmwarePacket) (s : Noted) : Prop where
  size : s.maxPktSize = some m
  fresh : ∀ pkt, s.requests.head? ≠ some (dataFrame total i pkt)
  plan : transferPlan fwData fwCrc m =
    s.requests.reverse ++ numbered total i packets ++ [doneFrame fwData fwCrc]

theorem Sending.onPlan {m : UInt16} (h : Sending fwData fwCrc m total i packets s) :
    OnPlan fwData fwCrc s := by
  intro m' hm'
  obtain rfl := Option.some.inj (hm'.symm.trans h.size)
  rw [h.plan, List.append_assoc]
  exact List.prefix_append _ _

theorem Sending.add {m : UInt16} {pkt : FirmwarePacket}
    (h : Sending fwData fwCrc m total i (pkt :: packets) s) (x : Except String Frame) :
    Sending fwData fwCrc m total (i + 1) packets (s.add (dataFrame total i pkt) x) where
  size := h.size
  fresh pkt' hpkt' := by
    -- The next packet has another number, also modulo 2^16.
    have hseq := congrArg Frame.packetSeq (Option.some.inj hpkt')
    have hseq := congrArg UInt16.toNat hseq
    change (UInt16.ofNat i).toNat = (UInt16.ofNat (i + 1)).toNat at hseq
    rw [UInt16.toNat_ofNat', UInt16.toNat_ofNat'] at hseq
    omega
  plan := by
    change _ = (dataFrame total i pkt :: s.requests).reverse ++ _ ++ _
    rw [h.plan, numbered_cons, List.reverse_cons, List.append_cons s.requests.reverse]

theorem transferPacket_note {m : UInt16} {fwSize : UInt32} {pkt : FirmwarePacket}
    (hlen : pkt.data.length ≤ 65531) :
    Triple (monitor note) (fun _ => OnPlan fwData fwCrc)
      (Sending fwData fwCrc m total i (pkt :: packets))
      (transferPacket total fwSize config i pkt)
      fun _ => Sending fwData fwCrc m total (i + 1) packets := by
  intro s hs
  have hon : ∀ s', s' = s → OnPlan fwData fwCrc s' := fun _ h => h ▸ hs.onPlan
  refine transferPacket_triple hlen (look_note hon) ?_ (sendFrame_note
    (show cmdTransferData ∈ planCommands by decide) hs.onPlan (hs.fresh pkt)
    fun e => (hs.add _).onPlan) ?_ ?_ s rfl
  · exact cancelTransfer_triple (unnoted fun _ _ => rfl) (emit_note _)
  · rintro resp _ - rfl _
    exact (hs.add _).onPlan
  · rintro resp - _ rfl _
    exact hs.add _

theorem transfer_note {chunkSize : Nat} (hchunk : chunkSize ≤ 4096) (fwSize : UInt32) :
    Triple (monitor note) (fun _ => OnPlan fwData fwCrc) (Reached fwData fwCrc (.started chunkSize))
      (transfer fwData fwSize chunkSize config) fun _ => Reached fwData fwCrc .transferred := by
  rintro _ ⟨m, rfl, rfl⟩
  refine transfer_triple (P := (· = ⟨some m, [startFrame fwData fwCrc]⟩))
    (T := Sending fwData fwCrc m _) hchunk ?_ (fun _ _ _ => transferPacket_note) ?_ _ rfl
  · rintro _ rfl _
    refine ⟨rfl, fun pkt hpkt => ?_, rfl⟩
    have hcommand := congrArg Frame.command (Option.some.inj hpkt)
    exact absurd hcommand (show cmdStartUpgrade ≠ cmdTransferData by decide)
  · intro _ s hs
    refine ⟨m, hs.size, ?_⟩
    rw [hs.plan]
    exact congrArg (· ++ _) (List.append_nil _)

/-- No request before DONE is the DONE. -/
theorem head_ne_done {m : UInt16} (hr : transferPlan fwData fwCrc m =
      s.requests.reverse ++ [doneFrame fwData fwCrc]) :
    s.requests.head? ≠ some (doneFrame fwData fwCrc) := by
  intro hhead
  have hmem := List.mem_reverse.2 (List.mem_of_head? hhead)
  rw [← List.append_cancel_right hr, List.mem_cons] at hmem
  rcases hmem with hstart | hdata
  · exact absurd (congrArg Frame.command hstart)
      (show cmdTransferComplete ≠ cmdStartUpgrade by decide)
  · obtain ⟨k, hk, hk'⟩ := List.mem_mapIdx.1 hdata
    exact absurd (congrArg Frame.command hk')
      (show cmdTransferData ≠ cmdTransferComplete by decide)

theorem done_note :
    Triple (monitor note) (fun _ => OnPlan fwData fwCrc) (Reached fwData fwCrc .transferred)
      (step .completing (doneFrame fwData fwCrc) "transfer_complete" config settleAny)
      fun _ => Reached fwData fwCrc .completed := by
  rintro s ⟨m, hm, hr⟩
  have hadd (x : Except String Frame) :
      Reached fwData fwCrc .completed (s.add (doneFrame fwData fwCrc) x) := by
    refine ⟨m, hm, ?_⟩
    change (doneFrame fwData fwCrc :: s.requests).reverse = _
    rw [List.reverse_cons, hr]
  have hon : OnPlan fwData fwCrc s := Reached.onPlan .transferred ⟨m, hm, hr⟩
  refine step_triple (P := (· = s)) (emit_note _) (sendFrame_note
    (show cmdTransferComplete ∈ planCommands by decide) hon (head_ne_done hr)
    fun _ => Reached.onPlan .completed (hadd _)) (fun resp => report_note ?_ ?_) s rfl
  · rintro _ rfl
    exact Reached.onPlan .completed (hadd _)
  · rintro _ _ _ rfl
    exact hadd _

/-! ## The whole upgrade -/

theorem walk_note (config : OtaConfig) (fwData : List UInt8) (fwCrc : UInt32) :
    Walk (monitor note) (fun _ => OnPlan fwData fwCrc) config fwData fwCrc
      (· = ⟨none, []⟩) (Reached fwData fwCrc)
      fun _ => Reached fwData fwCrc .flagged where
  look _ := failIfCancelled_triple (look_note fun _ => Reached.onPlan _)
  handshake := step_unnoted (fun _ => Reached.onPlan .connected) (by decide)
  getDeviceInfo := step_unnoted (fun _ => Reached.onPlan .connected) (by decide)
  startUpgrade := start_note
  transfer _ _ hchunk := transfer_note hchunk _
  transferComplete := done_note
  verifyFirmware := step_unnoted (fun _ => Reached.onPlan .completed) (by decide)
  setBootFlag := setBootFlag_triple (emit_note _)
    (sendFrame_unnoted (fun _ => Reached.onPlan .verified) (by decide))
    (fun _ => pollLogs_triple (unnoted fun s x =>
      reply_other (show cmdGetLog ∉ planCommands by decide) x))
    fun _ => report_note (fun _ => Reached.onPlan .verified) fun _ _ _ hs => hs
  finish := (step_unnoted (fun _ => Reached.onPlan .flagged) (by decide)).bind
    fun _ => emit_note _

/-- **The transfer plan.** Once START is accepted, a run sends the requests of the plan in order,
all of them when it returns `Ok`; and the plan respects the device's limits exactly when the image
is within them. -/
theorem plan_respects_iff {σ : Type} (env : Env Op Op.Answer σ) (s : σ)
    (crc32fastHash : List UInt8 → UInt32) (fwData : List UInt8) (config : OtaConfig) {m : UInt16}
    (hm : (noted (run env (doUpgrade crc32fastHash (.ok fwData) config) s).2).maxPktSize = some m) :
    let r := run env (doUpgrade crc32fastHash (.ok fwData) config) s
    let plan := transferPlan fwData (calcCrc32 crc32fastHash fwData) m
    (noted r.2).requests.reverse <+: plan ∧
      (r.1 = .ok () → (noted r.2).requests.reverse = plan) ∧
      (RespectsLimits fwData m plan ↔ WithinLimits fwData m) := by
  intro r plan
  have hlimits : RespectsLimits fwData m plan ↔ WithinLimits fwData m :=
    ⟨RespectsLimits.within, WithinLimits.respects⟩
  rcases wp_run env ((walk_note config fwData _).doUpgrade crc32fastHash _ rfl) s with
    ⟨_, -, m', hm', hr⟩ | ⟨e, he, hon⟩
  · obtain rfl : m = m' := Option.some.inj (hm.symm.trans hm')
    have hall : (noted r.2).requests.reverse = plan := hr
    exact ⟨hall ▸ List.prefix_refl _, fun _ => hall, hlimits⟩
  · refine ⟨hon m hm, fun hok => ?_, hlimits⟩
    rw [he] at hok
    cases hok

/-- A link to a device that answers every request with success and the packet size 64. -/
def smallPackets : Env Op Op.Answer Unit := fun _ op =>
  match op with
  | .isCancelled => (false, ())
  | .sendAndRecv frame _ =>
    (.ok { frame with srcAddr := addrDevice, dstAddr := addrPc, data := [0x00, 64, 0, 100] }, ())
  | .sendFrame _ => (.ok (), ())
  | .sleep _ => ((), ())
  | .emit _ => ((), ())

/-- Two bytes fit in one packet. -/
theorem plan_respects_small :
    let r := run smallPackets (doUpgrade Crc32.hash (.ok [0xAA, 0xBB]) {}) ()
    RespectsLimits [0xAA, 0xBB] 64 (noted r.2).requests.reverse := by
  intro r
  obtain ⟨-, hall, hlimits⟩ := plan_respects_iff smallPackets () Crc32.hash [0xAA, 0xBB] {}
    (m := 64) (by decide +kernel)
  rw [hall (by decide +kernel)]
  exact hlimits.2 ⟨Or.inr (by decide), by decide⟩

/-- 65 bytes are sent in one packet of 65. -/
theorem packet_too_long : ¬ ∀ (env : Env Op Op.Answer Unit) (crc32fastHash : List UInt8 → UInt32)
    (fwData : List UInt8) (config : OtaConfig) (m : UInt16),
    let r := run env (doUpgrade crc32fastHash (.ok fwData) config) ()
    r.1 = .ok () → (noted r.2).maxPktSize = some m → 1 ≤ m →
      RespectsLimits fwData m (noted r.2).requests.reverse := by
  intro h
  have hbounded := (h smallPackets Crc32.hash (List.replicate 65 0xAA) {} 64 (by decide +kernel)
    (by decide +kernel) (by decide)).bounded
  revert hbounded
  decide +kernel

end ZephyrStm32.Ota.Pc
