import ZephyrStm32.Lib.Cost
import ZephyrStm32.Ota.Pc.Cancel
import ZephyrStm32.Ota.Pc.Plan

/-!
# The frames that an upgrade sends

`asks_step` and its kind: what the parts of an upgrade ask is in any set that has their frames, with
the calls that send none (`Covers`). `asks_upgradeThread`: whatever the device answers, an upgrade
of a file sends only frames of a set that holds the START and the DONE of the file, every DATA with
a piece of the file at its place, and the commands without firmware (`Utters`).
-/

namespace ZephyrStm32.Ota.Pc

open Bytes (le16 le32)
open Interact
open Engine

/-! ## What the steps ask -/

/-- A set that holds the questions of an upgrade but the packets and what goes with them, if its
commands are in `C`, with their data. -/
structure Covers (S : Op → Prop) (C : UInt16 → List UInt8 → Prop) : Prop where
  isCancelled : S .isCancelled
  sleep : ∀ ms, S (.sleep ms)
  stage : ∀ stage, S (.emit (.stageChanged stage))
  error : ∀ message, S (.emit (.error message))
  deviceInfo : ∀ info, S (.emit (.deviceInfo info))
  request : ∀ command data timeoutMs, C command data → data.length ≤ 12 →
    S (.sendAndRecv (plainFrame command data) timeoutMs)

section

variable {S : Op → Prop} {C : UInt16 → List UInt8 → Prop} (hS : Covers S C) {α : Type}
  {config : OtaConfig}
include hS

theorem asks_emitStage (stage : UpgradeStage) : Asks S (emitStage stage) :=
  asks_question (hS.stage stage)

theorem asks_emitError (msg : String) : Asks S (emitError msg) :=
  (asks_emitStage hS _).bind fun _ => asks_question (hS.error msg)

theorem asks_look : Triple (within S) (fun (_ : Failure) _ => True) (fun _ => True) isCancelled
    fun cancelled _ => if cancelled then True else True :=
  fun _ _ => ⟨hS.isCancelled, fun cancelled => by cases cancelled <;> trivial⟩

theorem asks_failIfCancelled : Asks S failIfCancelled :=
  failIfCancelled_triple (asks_look hS) () trivial

theorem asks_sendFrame {frame : Frame} (hf : ∀ timeoutMs, S (.sendAndRecv frame timeoutMs))
    (label : String) : Asks S (sendFrame frame label config) := by
  have hattempts : Attempts (within S) (fun _ _ => True) config frame (fun _ _ => True)
      (fun _ _ => True) (fun _ _ => True) fun _ _ => True := by
    refine ⟨fun _ _ => trivial, fun _ => asks_look hS, fun _ _ _ => ⟨hf _, fun x => ?_⟩,
      fun _ _ _ => ⟨hS.sleep 200, fun _ => trivial⟩, fun message _ _ => asks_emitError hS message⟩
    cases x <;> trivial
  exact hattempts.sendFrame () trivial

theorem asks_report (r : Settled α) : Asks S r.report :=
  report_triple (P := fun _ => True) (fun info _ _ => asks_question (hS.deviceInfo info))
    (fun _ _ _ _ => trivial) (fun _ _ _ _ => trivial)
    (fun message _ _ _ => asks_emitError hS message) () trivial

theorem asks_step {command : UInt16} {data : List UInt8} {stage : UpgradeStage} {label : String}
    {settle : Frame → Settled α} (hcmd : C command data) (hdata : data.length ≤ 12) :
    Asks S (step stage (plainFrame command data) label config settle) :=
  (asks_emitStage hS stage).bind fun _ =>
    (asks_sendFrame hS (fun t => hS.request command data t hcmd hdata) label).bind fun _ =>
      asks_report hS _

theorem asks_pollLogs (hC : C cmdGetLog []) : Asks S pollLogs := by
  rw [pollLogs_eq]
  exact Asks.bind (asks_question (hS.request _ _ _ hC (by simp))) fun _ => asks_pure _

theorem asks_setBootFlag (hC : C cmdSetBootFlag [0x01]) (hlog : C cmdGetLog []) :
    Asks S (setBootFlag config) := by
  rw [setBootFlag_eq]
  refine (asks_emitStage hS _).bind fun _ => ?_
  refine (asks_sendFrame hS (fun t => hS.request _ _ t hC (by simp)) _).bind fun resp => ?_
  exact (asks_pollLogs hS hlog).bind fun _ => asks_report hS _

/-- The last step. -/
theorem asks_finish (hC : C cmdResetRun (le16 100)) :
    Asks S (step .resetting (plainFrame cmdResetRun (le16 100)) "reset_run" config settleAny >>=
      fun _ => emitStage .complete) :=
  Asks.bind (asks_step hS hC (by simp)) fun _ => asks_emitStage hS _

end

/-! ## Frames -/

/-- A call that sends a frame of `F`, or none. -/
def Sends (F : Frame → Prop) (op : Op) : Prop := ∀ f, op.frame? = some f → F f

/-- The frames an upgrade of a file may need. -/
structure Utters (fwData : List UInt8) (fwCrc : UInt32) (F : Frame → Prop) : Prop where
  plain : ∀ command data, command ∉ planCommands → data.length ≤ 12 → F (plainFrame command data)
  start : F (startFrame fwData fwCrc)
  done : F (doneFrame fwData fwCrc)
  data : ∀ total i pkt pre post, fwData = pre ++ pkt.data ++ post →
    pkt.offset = UInt32.ofNat pre.length → pkt.data ≠ [] → pkt.data.length ≤ 65531 →
    F (dataFrame total i pkt)

variable {F : Frame → Prop} {fwData : List UInt8} {fwCrc : UInt32} {config : OtaConfig}

theorem sends_of_frame {f : Frame} (hf : F f) (timeoutMs : Nat) :
    Sends F (.sendAndRecv f timeoutMs) := by
  intro g hg
  obtain rfl := Option.some.inj hg
  exact hf

theorem covers_sends : Covers (Sends F) fun command data => F (plainFrame command data) where
  isCancelled _ hf := by cases hf
  sleep _ _ hf := by cases hf
  stage _ _ hf := by cases hf
  error _ _ hf := by cases hf
  deviceInfo _ _ hf := by cases hf
  request _ _ timeoutMs hc _ := sends_of_frame hc timeoutMs

theorem asks_cancelTransfer (hcancel : F (plainFrame cmdCancelUpgrade [])) :
    Asks (Sends F) cancelTransfer := by
  rw [cancelTransfer_eq]
  refine ⟨fun f hf => ?_, fun _ => ⟨covers_sends.stage .cancelled, fun _ => trivial⟩⟩
  obtain rfl := Option.some.inj hf
  exact hcancel

/-- The packets of a transfer. -/
theorem asks_transfer {fwSize : UInt32} {chunkSize : Nat} (hchunk : chunkSize ≤ 4096)
    (hcancel : F (plainFrame cmdCancelUpgrade []))
    (hdata : ∀ pkt ∈ splitIntoPackets fwData chunkSize, ∀ total i, F (dataFrame total i pkt)) :
    Asks (Sends F) (transfer fwData fwSize chunkSize config) := by
  refine transfer_triple (P := fun _ => True)
    (T := fun _ packets _ => ∀ pkt ∈ packets, ∀ total i, F (dataFrame total i pkt)) hchunk
    ?_ (fun i pkt packets hlen _ hpackets => ?_) (fun _ _ _ => trivial) () trivial
  · exact fun _ _ => ⟨covers_sends.stage _, fun _ => hdata⟩
  obtain ⟨hpkt, hpackets⟩ := List.forall_mem_cons.1 hpackets
  refine transferPacket_triple (P := fun _ => True) (R := fun _ _ => True) hlen
    (asks_look covers_sends) ?_ ?_ (fun _ _ _ _ _ => trivial) ?_ () trivial
  · exact fun _ _ => asks_cancelTransfer hcancel
  · exact fun _ _ => asks_sendFrame covers_sends (sends_of_frame (hpkt _ _)) _
  · exact fun _ _ _ _ => ⟨fun _ hf => (nomatch hf), fun _ => hpackets⟩

theorem piece_of_contiguous {packets : List FirmwarePacket} {l : List UInt8}
    (heq : fwData = l ++ (packets.map (·.data)).flatten) (hcont : Contiguous l.length packets)
    {pkt : FirmwarePacket} (hmem : pkt ∈ packets) :
    ∃ pre post, fwData = pre ++ pkt.data ++ post ∧ pkt.offset = UInt32.ofNat pre.length := by
  induction packets generalizing l with
  | nil => cases hmem
  | cons p packets ih =>
    obtain ⟨hoff, hcont⟩ := hcont
    rw [List.map_cons, List.flatten_cons, ← List.append_assoc] at heq
    obtain rfl | hmem := List.mem_cons.1 hmem
    · exact ⟨l, _, heq, hoff⟩
    · refine ih heq ?_ hmem
      rwa [List.length_append]

/-- Every packet of a transfer is a piece of the file at its place. -/
theorem piece_of_mem {chunkSize : Nat} {pkt : FirmwarePacket}
    (hmem : pkt ∈ splitIntoPackets fwData chunkSize) :
    pkt.data ≠ [] ∧
      ∃ pre post, fwData = pre ++ pkt.data ++ post ∧ pkt.offset = UInt32.ofNat pre.length :=
  ⟨List.ne_nil_of_length_pos (nonempty_split fwData chunkSize pkt hmem),
    piece_of_contiguous (l := []) (flatten_split fwData chunkSize).symm
      (contiguous_split fwData chunkSize) hmem⟩

/-- The packets of a file are among the frames it needs. -/
theorem Utters.packet (h : Utters fwData fwCrc F) {chunkSize : Nat} (hchunk : chunkSize ≤ 4096) :
    ∀ pkt ∈ splitIntoPackets fwData chunkSize, ∀ total i, F (dataFrame total i pkt) := by
  intro pkt hpkt total i
  obtain ⟨hne, pre, post, heq, hoff⟩ := piece_of_mem hpkt
  have hlen := length_split fwData chunkSize pkt hpkt
  exact h.data total i pkt pre post heq hoff hne (by omega)

theorem walk_within (h : Utters fwData fwCrc F) (config : OtaConfig) :
    Walk (within (Sends F)) (fun _ _ => True) config fwData fwCrc (fun _ => True)
      (fun _ _ => True) fun _ _ => True where
  look _ _ _ := asks_failIfCancelled covers_sends
  handshake _ _ := asks_step covers_sends (h.plain _ _ (by decide) (by simp)) (by simp)
  getDeviceInfo _ _ := asks_step covers_sends (h.plain _ _ (by decide) (by simp)) (by simp)
  startUpgrade _ _ := asks_step covers_sends h.start (by simp)
  transfer _ _ hchunk _ _ :=
    asks_transfer hchunk (h.plain _ _ (by decide) (by simp)) (h.packet hchunk)
  transferComplete _ _ := asks_step covers_sends h.done (by simp)
  verifyFirmware _ _ := asks_step covers_sends (h.plain _ _ (by decide) (by simp)) (by simp)
  setBootFlag _ _ := asks_setBootFlag covers_sends (h.plain _ _ (by decide) (by simp))
    (h.plain _ _ (by decide) (by simp))
  finish _ _ := asks_finish covers_sends (h.plain _ _ (by decide) (by simp))

/-- **What an upgrade sends.** -/
theorem asks_upgradeThread (crc32fastHash : List UInt8 → UInt32)
    (h : Utters fwData (crc32fastHash fwData) F) :
    Asks (Sends F) (upgradeThread crc32fastHash (.ok fwData) config) := by
  have hlog : F (plainFrame cmdGetLog []) := h.plain _ _ (by decide) (by simp)
  exact upgradeThread_triple (Q := fun _ _ => True) ((walk_within h config).doUpgrade crc32fastHash)
    (fun _ _ => trivial) (fun _ _ _ => asks_pollLogs covers_sends hlog)
    (fun e _ _ => asks_emitError covers_sends e) () trivial

end ZephyrStm32.Ota.Pc
