import Mathlib.Data.List.Forall2
import ZephyrStm32.Ota.Device.Receiving

/-!
# The upgrade flow on the device

`transfer_flow`: from an idle device, START, the DATA packets of an image in any split, DONE and
VERIFY are all answered 0x00, slot1 then begins with the image, and VERIFY returns its checksum.
`flow_stuck`: what the flow continues with is refused after every VERIFY answered 0x00, since the
handler leaves the status VERIFYING and the guards ask for COMPLETE.
-/

namespace ZephyrStm32.Ota

open Bytes (le16 le32)
open Machine

/-! ## Requests by command and payload -/

/-- The request has this command and payload, is addressed to the device, and the flash calls made
for it succeed. -/
structure Delivers (q : Request) (r : UInt16 × List UInt8) : Prop where
  cmd : q.frame.IsCmd r.1
  payload : q.frame.payload = r.2
  flash : ∀ k, (q.flash k).err = 0

/-- A request with nothing behind its payload, handled with a working flash. -/
def Request.of (r : UInt16 × List UInt8) : Request := ⟨.request r.1 r.2, .ok⟩

theorem delivers_of {r : UInt16 × List UInt8} (h : r.2.length < 65536) :
    Delivers (.of r) r where
  cmd := ⟨Or.inl rfl, rfl⟩
  payload := by
    change (Mem.ofList r.2).slice 0 (UInt16.ofNat r.2.length).toNat = r.2
    rw [UInt16.toNat_ofNat_of_lt' h, Mem.slice_ofList]
  flash _ := rfl

theorem delivers_map_of {rs : List (UInt16 × List UInt8)} (h : ∀ r ∈ rs, r.2.length < 65536) :
    List.Forall₂ Delivers (rs.map .of) rs := by
  rw [List.forall₂_map_left_iff, List.forall₂_same]
  exact fun r hr => delivers_of (h r hr)

/-- The DATA requests for the pieces of an image, from an offset on. -/
def dataPackets : Nat → List (List UInt8) → List (UInt16 × List UInt8)
  | _, [] => []
  | off, p :: ps =>
    (cmdTransferData, le32 (UInt32.ofNat off) ++ p) :: dataPackets (off + p.length) ps

/-- START, DATA for every piece, DONE and VERIFY. -/
def transferRequests (version : Vector UInt8 4) (crc : UInt32) (pieces : List (List UInt8)) :
    List (UInt16 × List UInt8) :=
  let size := UInt32.ofNat pieces.flatten.length
  (cmdStartUpgrade, le32 size ++ le32 crc ++ version.toList) :: dataPackets 0 pieces ++
    [(cmdTransferDone, le32 crc ++ le32 size), (cmdVerifyFirmware, [])]

section

variable {f : OtaFrame} {l : List UInt8}

theorem dataLen_of_payload (h : f.payload = l) : f.dataLen.toNat = l.length := by
  rw [← h, OtaFrame.length_payload]

theorem start_of_payload {size crc : UInt32} {version : Vector UInt8 4}
    (h : f.payload = le32 size ++ le32 crc ++ version.toList) :
    f.startSize = size ∧ f.startCrc = crc ∧ 12 ≤ f.dataLen := by
  have hlen : f.dataLen.toNat = 12 := by simpa using dataLen_of_payload h
  rw [List.append_assoc] at h
  refine ⟨Mem.u32_of_slice h, Mem.u32_of_slice (Mem.slice_after h), ?_⟩
  exact UInt16.le_iff_toNat_le.2 (by rw [hlen]; decide)

theorem data_of_payload {off : UInt32} {p : List UInt8} (h : f.payload = le32 off ++ p) :
    f.offset = off ∧ f.fwData = p ∧ f.fwLen.toNat = p.length ∧ 4 ≤ f.dataLen := by
  have hlen : f.dataLen.toNat = 4 + p.length := by simpa using dataLen_of_payload h
  have h4 : 4 ≤ f.dataLen := UInt16.le_iff_toNat_le.2 (by rw [hlen]; simp)
  have hfw : f.fwLen.toNat = p.length := by
    rw [OtaFrame.fwLen, UInt16.toNat_sub_of_le _ _ h4, hlen]
    simp
  refine ⟨Mem.u32_of_slice h, ?_, hfw, h4⟩
  rw [OtaFrame.fwData, hfw]
  have := Mem.slice_after h
  simpa using this

theorem done_of_payload {crc size : UInt32} (h : f.payload = le32 crc ++ le32 size) :
    f.doneCrc = crc ∧ f.doneSize = size := by
  have hs : f.data.slice (0 + (le32 crc).length) (le32 size).length = le32 size ++ [] :=
    (Mem.slice_after h).trans (List.append_nil _).symm
  exact ⟨Mem.u32_of_slice h, Mem.u32_of_slice hs⟩

end

/-! ## One request -/

variable {z : Zephyr} {fl : FlashCalls} {d : Dev} {f : OtaFrame} {r : Handled} {q : Request}

theorem Handles.start_after (h : Handles z fl d f r) (hp : StartPasses d f)
    (herr : (fl 0).err = 0) : answer r.1 = some 0x00 ∧ r.2 = { d with
      ota := { d.ota.erasing f with status := .receiving }
      slot1 := d.slot1.fill 0 d.ota.slotSize.toNat 0xFF } := by
  have ha := (h.start_answer_iff.2 ⟨hp, herr⟩).2
  cases h with
  | startAccepted => exact ⟨ha, rfl⟩
  | startRefused _ hg => exact absurd hg hp.not_refused
  | startTooLarge _ _ _ hsize => exact absurd hp.size (UInt32.not_le.2 hsize)
  | startEraseFailed _ herr' => exact absurd herr herr'
  -- the branches of the other commands
  | _ => grind

theorem Handles.data_after (h : Handles z fl d f r) (hp : DataPasses d f)
    (herr : (fl 0).err = 0) : answer r.1 = some 0x00 ∧ r.2 = { d with
      ota := d.ota.advanced z f, slot1 := d.slot1.write f.offset.toNat f.fwData } := by
  have ha := (h.data_answer_iff.2 ⟨hp, herr⟩).2
  cases h with
  | dataAccepted => exact ⟨ha, rfl⟩
  | dataRefused _ hg => exact absurd hg hp.not_refused
  | dataOffset _ ho => exact absurd hp.offset ho
  | dataTooLarge _ _ hsize => exact absurd hp.fits (UInt32.not_le.2 hsize)
  | dataWriteFailed _ herr' => exact absurd herr herr'
  | _ => grind

theorem Handles.done_after (h : Handles z fl d f r) (hp : DonePasses d f) :
    answer r.1 = some 0x00 ∧ r.2 = { d with ota := d.ota.completed f } := by
  have ha := (h.done_answer_iff.2 hp).2
  cases h with
  | doneAccepted => exact ⟨ha, rfl⟩
  | doneRefused _ hn => exact absurd hn hp.not_refused
  | doneMismatch _ _ hsize => exact absurd hp.size hsize
  | _ => grind

theorem Handles.verify_after (h : Handles z fl d f r) (hc : f.IsCmd cmdVerifyFirmware)
    (ha : answer r.1 = some 0x00) : response r.1 = some (ackBytes 0x00 d.ota.firmwareCrc) ∧
      r.2 = { d with ota := d.ota.verified d.ota.firmwareCrc } := by
  obtain ⟨-, hs, hr⟩ := h.verify_answer_iff.1 ⟨hc, ha⟩
  cases h with
  | verifyMatch => simp
  | verifyRefused _ hs' => exact absurd hs hs'
  | verifyReadFailed _ _ hr' => exact absurd (hr.symm.trans hr') (Option.some_ne_none _)
  | verifyMismatch _ _ crc hr' hcrc => exact absurd (Option.some.inj (hr'.symm.trans hr)) hcrc
  | _ => grind

/-- A running device in a session, ready for its next packet. -/
structure InSession (d : Dev) (s : Session) : Prop extends Receiving d s where
  status : d.ota.status = .receiving
  running : d.rebooted = false

theorem start_step (hb : d.rebooted = false) (hi : d.ota.status = .idle)
    {size crc : UInt32} {version : Vector UInt8 4}
    (hq : Delivers q (cmdStartUpgrade, le32 size ++ le32 crc ++ version.toList))
    (hfit : size ≤ d.ota.slotSize) :
    answer (Dev.step z d q).1 = some 0x00 ∧
      InSession (Dev.step z d q).2 ⟨size, crc, [], false⟩ := by
  obtain ⟨hsize, hcrc, hlen⟩ := start_of_payload hq.payload
  have hp : StartPasses d q.frame := ⟨hq.cmd, hlen, Or.inl hi, hsize ▸ hfit⟩
  obtain ⟨ha, he⟩ := (step_handles (z := z) hb).start_after hp (hq.flash 0)
  refine ⟨ha, ?_⟩
  have hs : Session.start q.frame = ⟨size, crc, [], false⟩ := by rw [Session.start, hsize, hcrc]
  rw [he, ← hs]
  exact ⟨receiving_start hp _, rfl, hb⟩

theorem InSession.data_step (hz : z.Documented) {s : Session} (h : InSession d s) {p : List UInt8}
    (hq : Delivers q (cmdTransferData, le32 (UInt32.ofNat s.bytes.length) ++ p))
    (hfit : s.bytes.length + p.length ≤ s.size.toNat) :
    answer (Dev.step z d q).1 = some 0x00 ∧ InSession (Dev.step z d q).2 (s.accept p) := by
  obtain ⟨hoff, hdata, hlen, h4⟩ := data_of_payload hq.payload
  have hsize := s.size.toNat_lt
  have hcur : d.ota.currentOffset.toNat = s.bytes.length := by rw [h.offset, h.received]
  have hoffset : q.frame.offset = d.ota.currentOffset := by
    rw [hoff, ← hcur, UInt32.ofNat_toNat]
  have hw : NoWrap d q.frame := by
    unfold NoWrap
    omega
  have hp : DataPasses d q.frame := by
    refine ⟨⟨hq.cmd, h.inProgress, h.status, h4⟩, hoffset, ?_⟩
    rw [UInt32.le_iff_toNat_le, UInt32.toNat_add, UInt16.toNat_toUInt32, hoffset, h.size, hcur,
      hlen]
    omega
  obtain ⟨ha, he⟩ := (step_handles h.running).data_after hp (hq.flash 0)
  rw [he, ← hdata]
  exact ⟨ha, h.toReceiving.accept hz hp hw, h.status, h.running⟩

/-! ## The whole transfer -/

/-- **The DATA phase.** By induction on the pieces; the session is what carries it. -/
theorem InSession.data_phase (hz : z.Documented) {pieces : List (List UInt8)} {s : Session}
    (h : InSession d s) {qs : List Request}
    (hqs : List.Forall₂ Delivers qs (dataPackets s.bytes.length pieces))
    (hfit : s.bytes.length + pieces.flatten.length ≤ s.size.toNat) :
    (outputs (Dev.step z) d qs).map answer = List.replicate qs.length (some 0x00) ∧
      ∃ s', InSession (final (Dev.step z) d qs) s' ∧ s'.size = s.size ∧ s'.crc = s.crc ∧
        s'.bytes = s.bytes ++ pieces.flatten := by
  induction pieces generalizing d s qs with
  | nil =>
    cases hqs
    exact ⟨rfl, s, h, rfl, rfl, by simp⟩
  | cons p ps ih =>
    rw [List.flatten_cons, List.length_append] at hfit
    obtain - | ⟨hq, hqs⟩ := hqs
    obtain ⟨ha, hnext⟩ := h.data_step hz hq (by omega)
    have hlen : (s.accept p).bytes.length = s.bytes.length + p.length := by simp
    rw [← hlen] at hqs
    have hfit' : (s.accept p).bytes.length + ps.flatten.length ≤ (s.accept p).size.toNat := by
      rw [hlen]
      change _ ≤ s.size.toNat
      omega
    obtain ⟨hans, s', hs', hsize, hcrc, hbytes⟩ := ih hnext hqs hfit'
    refine ⟨?_, s', hs', hsize, hcrc, ?_⟩
    · rw [outputs_cons, List.map_cons, ha, hans, List.length_cons, List.replicate_succ]
    · rw [hbytes, Session.bytes_accept, List.flatten_cons, List.append_assoc]

/-- DONE and VERIFY after the whole image. -/
theorem InSession.finish (hz : z.Documented) {s : Session} (h : InSession d s)
    (hfull : s.bytes.length = s.size.toNat) (hcrc : s.crc = Crc32.hash s.bytes)
    {done verify : Request} (hd : Delivers done (cmdTransferDone, le32 s.crc ++ le32 s.size))
    (hv : Delivers verify (cmdVerifyFirmware, [])) :
    (∃ o₁ o₂, outputs (Dev.step z) d [done, verify] = [o₁, o₂] ∧ answer o₁ = some 0x00 ∧
        answer o₂ = some 0x00 ∧ response o₂ = some (ackBytes 0x00 s.crc)) ∧
      (final (Dev.step z) d [done, verify]).slot1 = d.slot1 ∧
      (final (Dev.step z) d [done, verify]).ota.status = .verifying ∧
      (final (Dev.step z) d [done, verify]).rebooted = false := by
  obtain ⟨hdcrc, hdsize⟩ := done_of_payload hd.payload
  have hrec : d.ota.receivedSize = s.size := by
    rw [← UInt32.toNat_inj, h.received, hfull]
  have hp : DonePasses d done.frame := ⟨hd.cmd, h.inProgress, hdsize.trans hrec.symm⟩
  obtain ⟨ha₁, he⟩ := (step_handles (z := z) h.running).done_after hp
  -- The device after DONE, with the declared values in place.
  generalize hd₁ : (Dev.step z d done).2 = d₁ at he
  have hfs : d₁.ota.firmwareSize = s.size := by rw [he]; exact hdsize
  have hfc : d₁.ota.firmwareCrc = s.crc := by rw [he]; exact hdcrc
  have hslot : d₁.slot1 = d.slot1 := by rw [he]
  have hb₁ : d₁.rebooted = false := by rw [he]; exact h.running
  have hst : d₁.ota.status = .complete := by rw [he]; rfl
  have himage : imageCrc z d₁.slot1 d₁.ota.firmwareSize = d₁.ota.firmwareCrc := by
    rw [imageCrc_eq hz, hslot, hfs, ← hrec, h.image, hfc, hcrc]
  have hh : Handles z verify.flash d₁ verify.frame (Dev.step z d₁ verify) := step_handles hb₁
  have ha₂ := hh.verify_answer_iff.2
    ⟨hv.cmd, hst, verifyRun_eq_some.2 ⟨fun k _ => hv.flash k, himage⟩⟩
  obtain ⟨hresp, he₂⟩ := hh.verify_after hv.cmd ha₂.2
  simp only [outputs_cons, outputs_nil, final_cons, final_nil, hd₁]
  refine ⟨⟨_, _, rfl, ha₁, ha₂.2, hfc ▸ hresp⟩, ?_, ?_, ?_⟩
  · rw [he₂, hslot]
  · rw [he₂]
    rfl
  · rw [he₂]
    exact hb₁

theorem forall₂_append_split {α β : Type} {R : α → β → Prop} {l : List α} {l₁ l₂ : List β}
    (h : List.Forall₂ R l (l₁ ++ l₂)) :
    ∃ a b, l = a ++ b ∧ List.Forall₂ R a l₁ ∧ List.Forall₂ R b l₂ :=
  ⟨_, _, (List.take_append_drop l₁.length l).symm, List.forall₂_take_append _ _ _ h,
    List.forall₂_drop_append _ _ _ h⟩

/-- **The transfer succeeds.** From an idle device with room for the image, the requests of the
flow up to VERIFY are answered 0x00 one by one, for every split; slot1 then begins with the image
and VERIFY returns its checksum. -/
theorem transfer_flow (hz : z.Documented) (hb : d.rebooted = false) (hi : d.ota.status = .idle)
    {version : Vector UInt8 4} {pieces : List (List UInt8)}
    (hfit : pieces.flatten.length ≤ d.ota.slotSize.toNat) {qs : List Request}
    (hqs : List.Forall₂ Delivers qs
      (transferRequests version (Crc32.hash pieces.flatten) pieces)) :
    (outputs (Dev.step z) d qs).map answer = List.replicate qs.length (some 0x00) ∧
      (outputs (Dev.step z) d qs).getLast?.bind response =
        some (ackBytes 0x00 (Crc32.hash pieces.flatten)) ∧
      (final (Dev.step z) d qs).slot1.slice 0 pieces.flatten.length = pieces.flatten ∧
      (final (Dev.step z) d qs).ota.status = .verifying ∧
      (final (Dev.step z) d qs).rebooted = false := by
  have hsize : (UInt32.ofNat pieces.flatten.length).toNat = pieces.flatten.length :=
    UInt32.toNat_ofNat_of_lt' (hfit.trans_lt d.ota.slotSize.toNat_lt)
  rw [transferRequests, List.cons_append] at hqs
  obtain - | ⟨hstart, hqs⟩ := hqs
  rename_i start qs
  obtain ⟨ha, hs⟩ := start_step (z := z) hb hi hstart
    (UInt32.le_iff_toNat_le.2 (by rw [hsize]; exact hfit))
  obtain ⟨data, rest, rfl, hdata, hrest⟩ := forall₂_append_split hqs
  obtain - | ⟨hdone, - | ⟨hverify, - | _⟩⟩ := hrest
  rename_i done verify
  obtain ⟨hans, s, hs, hssize, hscrc, hbytes⟩ := hs.data_phase hz hdata (by
    rw [hsize]
    exact (Nat.zero_add _).le)
  have hbytes : s.bytes = pieces.flatten := by simpa [Session.bytes] using hbytes
  have hscrc : s.crc = Crc32.hash pieces.flatten := hscrc
  have hssize : s.size = UInt32.ofNat pieces.flatten.length := hssize
  have hfull : s.bytes.length = s.size.toNat := by rw [hbytes, hssize, hsize]
  rw [← hscrc, ← hssize] at hdone
  obtain ⟨⟨o₁, o₂, hout, ha₁, ha₂, hresp⟩, hslot, hst, hb'⟩ :=
    hs.finish hz hfull (by rw [hscrc, hbytes]) hdone hverify
  have himage := hs.image
  rw [hs.received, hbytes] at himage
  rw [outputs_cons, final_cons, outputs_append, final_append, hout]
  refine ⟨?_, ?_, ?_, hst, hb'⟩
  · rw [List.map_cons, List.map_append, ha, hans, List.length_cons, List.length_append,
      List.replicate_succ, List.replicate_add, List.map_cons, List.map_singleton, ha₁, ha₂]
    rfl
  · rw [← hscrc, ← hresp, show ∀ (o : List Event) (os : List (List Event)),
      o :: (os ++ [o₁, o₂]) = (o :: os ++ [o₁]) ++ [o₂] by simp, List.getLast?_concat]
    rfl
  · rw [hslot]
    exact himage

/-! ## What the flow continues with -/

theorem Handles.flag_refused (h : Handles z fl d f r) (hc : f.IsCmd cmdSetBootFlag)
    (hp : f.payload = [1]) (hs : d.ota.status ≠ .complete) :
    answer r.1 = some 0xFF ∧ r.2 = d := by
  have hlen : f.dataLen.toNat = 1 := dataLen_of_payload hp
  have hflag : f.data 0 = 1 := (Mem.slice_eq_iff (dataLen_of_payload hp).symm).1 hp 0 (by omega)
  cases h with
  | flagRefused => exact ⟨rfl, rfl⟩
  | inquiry _ _ hn => exact absurd hc.2 (hn _ (by simp))
  | flagSet _ _ _ hs' => exact absurd hs' hs
  | flagCleared _ _ hf =>
    rw [hflag] at hf
    cases hf
  | _ => grind

theorem Handles.reset_refused (h : Handles z fl d f r) (hc : f.IsCmd cmdResetRun)
    (hs : d.ota.status ≠ .complete) : answer r.1 = some 0xFF ∧ r.2 = d := by
  cases h with
  | resetRefused => exact ⟨rfl, rfl⟩
  | inquiry _ _ hn => exact absurd hc.2 (hn _ (by simp))
  | resetAccepted _ hs' => exact absurd hs' hs
  | _ => grind

/-- SET_BOOT_FLAG(1) and RESET_RUN on a device that is not in STATUS_COMPLETE. -/
theorem finish_refused (hb : d.rebooted = false) (hs : d.ota.status ≠ .complete)
    {flag reset : Request} (hf : flag.frame.IsCmd cmdSetBootFlag) (hp : flag.frame.payload = [1])
    (hr : reset.frame.IsCmd cmdResetRun) :
    (outputs (Dev.step z) d [flag, reset]).map answer = [some 0xFF, some 0xFF] ∧
      final (Dev.step z) d [flag, reset] = d := by
  obtain ⟨ha₁, he₁⟩ := (step_handles (z := z) (q := flag) hb).flag_refused hf hp hs
  obtain ⟨ha₂, he₂⟩ := (step_handles (z := z) (q := reset) hb).reset_refused hr hs
  simp only [outputs_cons, outputs_nil, final_cons, final_nil, List.map_cons, List.map_nil, he₁,
    he₂, ha₁, ha₂, and_self]

/-- Only a running device answers. -/
theorem running_of_answer {b : UInt8} (ha : answer (Dev.step z d q).1 = some b) :
    d.rebooted = false := by
  by_contra hb
  rw [step_rebooted (by simpa using hb)] at ha
  cases ha

/-- **The upgrade flow cannot be finished.** In every state in which a VERIFY is answered 0x00, the
SET_BOOT_FLAG(1) and the RESET_RUN that follow are refused and change nothing. So for every image
that fits and every split of it, the whole flow from an idle device ends in two refusals. -/
theorem flow_stuck (hz : z.Documented) :
    (∀ (d : Dev) (verify flag reset : Request), verify.frame.IsCmd cmdVerifyFirmware →
      answer (Dev.step z d verify).1 = some 0x00 → flag.frame.IsCmd cmdSetBootFlag →
      flag.frame.payload = [1] → reset.frame.IsCmd cmdResetRun →
      (outputs (Dev.step z) d [verify, flag, reset]).map answer =
          [some 0x00, some 0xFF, some 0xFF] ∧
        final (Dev.step z) d [verify, flag, reset] = (Dev.step z d verify).2 ∧
        (Dev.step z d verify).2.ota.bootFlag = d.ota.bootFlag ∧
        (Dev.step z d verify).2.rebooted = false) ∧
    (∀ (d : Dev) (version : Vector UInt8 4) (pieces : List (List UInt8)) (delay : List UInt8)
      (qs : List Request), d.rebooted = false → d.ota.status = .idle →
      pieces.flatten.length ≤ d.ota.slotSize.toNat →
      List.Forall₂ Delivers qs (transferRequests version (Crc32.hash pieces.flatten) pieces ++
        [(cmdSetBootFlag, [1]), (cmdResetRun, delay)]) →
      (outputs (Dev.step z) d qs).map answer =
          List.replicate (qs.length - 2) (some 0x00) ++ [some 0xFF, some 0xFF] ∧
        (final (Dev.step z) d qs).rebooted = false) := by
  constructor
  · intro d verify flag reset hv ha hf hp hr
    have hb := running_of_answer ha
    obtain ⟨-, he⟩ := (step_handles hb).verify_after hv ha
    obtain ⟨hans, hfin⟩ := finish_refused (z := z) (d := (Dev.step z d verify).2)
      (by rw [he]; exact hb) (by rw [he]; simp [OtaState.verified]) hf hp hr
    rw [outputs_cons, final_cons, List.map_cons, ha, hans, hfin]
    exact ⟨rfl, rfl, by rw [he]; rfl, by rw [he]; exact hb⟩
  · intro d version pieces delay qs hb hi hfit hqs
    obtain ⟨transfer, rest, rfl, htransfer, hrest⟩ := forall₂_append_split hqs
    obtain - | ⟨hflag, - | ⟨hreset, - | _⟩⟩ := hrest
    obtain ⟨hans, -, -, hst, hb'⟩ := transfer_flow hz hb hi hfit htransfer
    obtain ⟨hans', hfin⟩ := finish_refused (z := z) hb' (by rw [hst]; simp) hflag.cmd
      hflag.payload hreset.cmd
    rw [outputs_append, final_append, List.map_append, hans, hans', hfin]
    exact ⟨by simp, hb'⟩

/-- The requests of the whole flow for an image of two bytes. -/
def boardFlow : List (UInt16 × List UInt8) :=
  transferRequests #v[1, 0, 2, 0] (Crc32.hash [0xAA, 0xBB]) [[0xAA], [0xBB]] ++
    [(cmdSetBootFlag, [1]), (cmdResetRun, [0xE8, 0x03])]

theorem flow_stuck_board :
    (final (Dev.step .standard) .board (boardFlow.map .of)).rebooted = false :=
  ((flow_stuck Zephyr.documented_standard).2 .board #v[1, 0, 2, 0] [[0xAA], [0xBB]] [0xE8, 0x03]
    (boardFlow.map .of) (by decide) (by decide) (by decide)
    (delivers_map_of (by decide +kernel))).2

/-- On the board the flag and the reset are refused. -/
theorem flow_refused :
    (outputs (Dev.step .standard) .board (boardFlow.map .of)).map answer =
      [some 0x00, some 0x00, some 0x00, some 0x00, some 0x00, some 0xFF, some 0xFF] := by
  decide +kernel

end ZephyrStm32.Ota
