import ZephyrStm32.Ota.Device.BootSafety
import ZephyrStm32.Ota.Link.Filling
import ZephyrStm32.Ota.Pc.Requests

/-!
# The whole tool: upgrades, and the user's commands among them

`Turns` of the upgrade threads: one runs at a time, and between any two of its calls the user may
give any of the other commands of `ota_cmd.rs`. Requests and responses may get lost, the flash may
fail, and the cancel flag may be read as anything. A late response counts as lost: `recv_frame`
would take it for the next request's.

**Theorem (`never_flagged`).** The boot flag is never set. An upgrade sends SET_BOOT_FLAG only after
a response to VERIFY, which the device does not leave in STATUS_COMPLETE; and nothing but an upgrade
sends DONE, which is the way there.
-/

namespace ZephyrStm32.Ota.Link

open Interact
open Relation (ReflTransGen)
open Pc (Frame FirmwarePacket Op OtaConfig OtaEvent Engine UpgradeThread upgradeThread_triple)
open Pc.Engine (Attempts Station Walk step_triple)

/-! ## The user's commands -/

/-- The frames of `handshake`, `get_device_info`, `query_status`, `verify_firmware`,
`cancel_upgrade` and `reset_device`. -/
def UserFrame (f : Frame) : Prop :=
  .ok f ∈ [Pc.buildHandshake, Pc.buildGetDeviceInfo, Pc.buildQueryStatus, Pc.buildVerifyFirmware,
    Pc.buildCancelUpgrade] ∨ ∃ delayMs, Pc.buildResetRun delayMs = .ok f

/-- The user gives a command, which arrives. -/
def Meddles (z : Zephyr) (b b' : Bench) : Prop :=
  ∃ f x, UserFrame f ∧ b' = b.exchange z x f

/-- `start_upgrade` spawns one of these. -/
def Starts (crc32fastHash : List UInt8 → UInt32) (config : OtaConfig) (p : UpgradeThread) : Prop :=
  ∃ loaded, p = Pc.upgradeThread crc32fastHash loaded config

variable {z : Zephyr} {fl : FlashCalls} {d : Dev} {g : OtaFrame} {r : Handled} {b b' : Bench}
  {f : Frame} {config : OtaConfig}

/-- The user sends neither DONE nor SET_BOOT_FLAG. -/
theorem UserFrame.command (h : UserFrame f) :
    f.command ≠ cmdTransferDone ∧ f.command ≠ cmdSetBootFlag := by
  obtain h | ⟨delayMs, h⟩ := h
  · simp only [Pc.buildHandshake, Pc.buildGetDeviceInfo, Pc.buildQueryStatus,
      Pc.buildVerifyFirmware, Pc.buildCancelUpgrade, List.mem_cons, List.not_mem_nil, or_false,
      Pc.new_eq_ok (show ([] : List UInt8).length ≤ 65535 by decide), Except.ok.injEq] at h
    rcases h with rfl | rfl | rfl | rfl | rfl <;> exact ⟨by decide, by decide⟩
  · rw [Pc.buildResetRun, Pc.new_eq_ok (by simp)] at h
    obtain rfl := Except.ok.inj h
    exact ⟨show Pc.cmdResetRun ≠ _ by decide, show Pc.cmdResetRun ≠ _ by decide⟩

/-! ## The boot flag under a request -/

/-- The boot flag is not set. -/
structure Unflagged (b : Bench) : Prop where
  bootFlag : b.device.ota.bootFlag = 0
  running : b.device.rebooted = false

/-- And it cannot be set as things are. -/
structure Barred (b : Bench) : Prop extends Unflagged b where
  status : b.device.ota.status ≠ .complete

theorem handles_bootFlag (h : Handles z fl d g r) (hg : g.cmd ≠ cmdSetBootFlag)
    (hd : d.ota.bootFlag = 0) : r.2.ota.bootFlag = 0 := by
  cases h with
  | flagSet hc | flagCleared hc => exact absurd hc.2 hg
  | _ => exact hd

/-- Only DONE leads to STATUS_COMPLETE, and outside it the flag is not set. -/
theorem handles_barred (h : Handles z fl d g r) (hg : g.cmd ≠ cmdTransferDone)
    (hd : d.ota.bootFlag = 0) (hs : d.ota.status ≠ .complete) :
    r.2.ota.bootFlag = 0 ∧ r.2.ota.status ≠ .complete := by
  cases h with
  | doneAccepted hp => exact absurd hp.cmd.2 hg
  | flagSet _ _ _ hc => exact absurd hc hs
  | flagCleared => exact ⟨rfl, hs⟩
  | startEraseFailed | startAccepted | dataOffset | dataTooLarge | dataWriteFailed
  | doneMismatch | verifyReadFailed | verifyMatch | verifyMismatch | cancelled =>
    exact ⟨hd, by simp [OtaState.failed, OtaState.verified, OtaState.cancelled]⟩
  | _ => exact ⟨hd, hs⟩

/-- VERIFY never leaves the device in STATUS_COMPLETE. -/
theorem handles_verify_barred (h : Handles z fl d g r) (hc : g.IsCmd cmdVerifyFirmware) :
    r.2.ota.status ≠ .complete := by
  cases h with
  | verifyRefused _ hs => exact hs
  | verifyReadFailed | verifyMatch | verifyMismatch =>
    simp [OtaState.failed, OtaState.verified]
  | inquiry _ _ hn => exact absurd hc.2 (hn _ (by simp))
  | ignored hn => exact absurd hc.1 hn
  | _ => grind

theorem exchange_cases {I : Dev → Prop} {x : Exchange}
    (hreset : ∀ d : Dev, I (d.reset x.slot0Open x.slot1Open))
    (h : I (otaFrameProcess z x.flash b.device (x.frame f)).2) :
    I (b.exchange z x f).device := by
  rw [Bench.exchange_device]
  exact handle_cases hreset h

theorem Unflagged.exchange (h : Unflagged b) (x : Exchange) (hf : f.command ≠ cmdSetBootFlag) :
    Unflagged (b.exchange z x f) where
  bootFlag := by
    have hg : (x.frame f).cmd ≠ cmdSetBootFlag :=
      fun hc => hf ((cmd_received f x.junk).symm.trans hc)
    refine exchange_cases (I := fun d => d.ota.bootFlag = 0) (fun d => boot_bootFlag ..) ?_
    exact handles_bootFlag (handles_frame x b.device f) hg h.bootFlag
  running := by
    rw [Bench.exchange_device]
    exact running_handle x b.device f

theorem boot_status (slot0Open slot1Open : FlashOpen) (slot1 : Mem) :
    (Dev.boot slot0Open slot1Open slot1).ota.status ≠ .complete := by
  obtain ⟨_, _, _, _, h⟩ := boot_ota slot0Open slot1Open slot1
  rw [h]
  exact fun he => by cases he

theorem Barred.exchange (h : Barred b) (x : Exchange) (hf : f.command ≠ cmdTransferDone) :
    Barred (b.exchange z x f) := by
  have hg : (x.frame f).cmd ≠ cmdTransferDone :=
    fun hc => hf ((cmd_received f x.junk).symm.trans hc)
  have hboth := exchange_cases (z := z) (b := b) (f := f) (x := x)
    (I := fun d => d.ota.bootFlag = 0 ∧ d.ota.status ≠ .complete)
    (fun d => ⟨boot_bootFlag .., boot_status _ _ _⟩)
    (handles_barred (handles_frame x b.device f) hg h.bootFlag h.status)
  refine ⟨⟨hboth.1, ?_⟩, hboth.2⟩
  rw [Bench.exchange_device]
  exact running_handle x b.device f

/-- A VERIFY bars it. -/
theorem Unflagged.verify (h : Unflagged b) (x : Exchange) (hf : f.command = cmdVerifyFirmware)
    (hd : f.dstAddr = addrDevice) : Barred (b.exchange z x f) where
  toUnflagged := h.exchange x (by rw [hf]; decide)
  status := by
    refine exchange_cases (I := fun d => d.ota.status ≠ .complete) (fun d => boot_status _ _ _) ?_
    exact handles_verify_barred (handles_frame x b.device f) (hf ▸ isCmd_frame x hd)

/-! ## Among the user's commands -/

theorem Unflagged.meddle (hm : Meddles z b b') (h : Unflagged b) : Unflagged b' := by
  obtain ⟨f, x, hf, rfl⟩ := hm
  exact h.exchange x hf.command.2

theorem Barred.meddle (hm : Meddles z b b') (h : Barred b) : Barred b' := by
  obtain ⟨f, x, hf, rfl⟩ := hm
  exact h.exchange x hf.command.1

/-- What the calls of a thread keep, if their requests do. -/
theorem lossy_keeps {I : Bench → Prop} {S : Op → Prop} (hemit : ∀ b e, I b → I (b.emit e))
    (hkeep : ∀ b x op f, S op → op.frame? = some f → I b → I (b.exchange z x f))
    (b : Bench) (op : Op) (a : op.Answer) (b' : Bench) (hop : S op) (hstep : Lossy z b op a b')
    (h : I b) : I b' := by
  cases hstep with
  | isCancelled | lost | sendLost | sleep => exact h
  | arrives _ f _ x => exact hkeep b x _ f hop rfl h
  | sendArrives _ f _ x => exact hkeep b x _ f hop rfl h
  | emit _ e => exact hemit b e h

/-- A call that sends no SET_BOOT_FLAG. -/
abbrev Harmless : Op → Prop := Pc.Sends fun f => f.command ≠ cmdSetBootFlag

/-- A call that sends no DONE. -/
abbrev Final : Op → Prop := Pc.Sends fun f => f.command ≠ cmdTransferDone

theorem covers_harmless : Pc.Covers Harmless fun command _ => command ≠ cmdSetBootFlag :=
  Pc.covers_sends

theorem covers_final : Pc.Covers Final fun command _ => command ≠ cmdTransferDone :=
  Pc.covers_sends

section

variable {α : Type} {p : Engine α} {label : String}

/-- What sends no SET_BOOT_FLAG, among the user's commands. -/
theorem asks_unflagged (hp : Asks Harmless p) :
    Triple (among (Lossy z) (Meddles z) Unflagged) (fun _ => Unflagged) Unflagged p
      fun _ => Unflagged :=
  hp.among (fun _ _ hm hb => hb.meddle hm) (lossy_keeps (fun _ _ hb => ⟨hb.bootFlag, hb.running⟩)
    fun _ x _ f hop hf hb => hb.exchange x (hop f hf))

/-- What sends no DONE, once the flag is barred. -/
theorem asks_barred (hp : Asks Final p) :
    Triple (among (Lossy z) (Meddles z) Unflagged) (fun _ => Unflagged) Barred p
      fun _ => Barred := by
  have hkeeps := hp.among (M := Meddles z) (I := Barred) (fun _ _ hm hb => hb.meddle hm)
    (lossy_keeps (z := z) (fun _ _ hb => ⟨⟨hb.bootFlag, hb.running⟩, hb.status⟩)
      fun _ x _ f hop hf hb => hb.exchange x (hop f hf))
  intro b hb
  exact wp_imp (wp_among_imp (hkeeps b hb) fun _ h => h.toUnflagged) (fun _ _ h => h)
    fun _ _ h => h.toUnflagged

/-- The attempts of VERIFY: a response bars the flag, whatever it says. -/
theorem sendFrame_verify (hf : f.command = cmdVerifyFirmware) (hd : f.dstAddr = addrDevice) :
    Triple (among (Lossy z) (Meddles z) Unflagged) (fun _ => Unflagged) Unflagged
      (Engine.sendFrame f label config) fun _ => Barred := by
  have hattempts : Attempts (among (Lossy z) (Meddles z) Unflagged) (fun _ => Unflagged) config f
      (fun _ => Unflagged) (fun _ => Unflagged) (fun _ => Unflagged) fun _ => Barred := by
    refine ⟨fun _ h => h, fun _ => ?_, fun _ b hb b₁ hs => ?_,
      fun _ => asks_unflagged (asks_question (covers_harmless.sleep 200)),
      fun message => asks_unflagged (Pc.asks_emitError covers_harmless message)⟩
    · refine (asks_unflagged (asks_question covers_harmless.isCancelled)).mono fun c b hb => ?_
      cases c <;> exact hb
    · have hb₁ := stable_star (fun _ _ hm hb => hb.meddle hm) hs hb
      refine ⟨hb₁, fun x b₂ hstep => ?_⟩
      cases hstep with
      | lost => exact hb₁
      | arrives _ _ _ x =>
        have hb₂ := hb₁.verify (z := z) x hf hd
        generalize x.recv (x.handle z b₁.device f).1 = a
        cases a with
        | ok resp => exact hb₂
        | error e => exact hb₂.toUnflagged
  exact hattempts.sendFrame

end

/-! ## One upgrade -/

/-- Behind VERIFY the flag is barred. -/
def FlagAt : Station → Bench → Prop
  | .verified | .flagged => Barred
  | _ => Unflagged

/-- The steps of an upgrade, among the user's commands. -/
theorem walk_flag (config : OtaConfig) (fwData : List UInt8) (fwCrc : UInt32) :
    Walk (among (Lossy z) (Meddles z) Unflagged) (fun _ => Unflagged) config fwData fwCrc Unflagged
      FlagAt fun _ => Barred where
  look station := by
    cases station with
    | verified | flagged => exact asks_barred (Pc.asks_failIfCancelled covers_final)
    | _ => exact asks_unflagged (Pc.asks_failIfCancelled covers_harmless)
  handshake := asks_unflagged (Pc.asks_step covers_harmless (by decide) (by simp))
  getDeviceInfo := asks_unflagged (Pc.asks_step covers_harmless (by decide) (by simp))
  startUpgrade := asks_unflagged (Pc.asks_step covers_harmless (by decide) (by simp))
  transfer _ _ hchunk := asks_unflagged (Pc.asks_transfer hchunk
    (show Pc.cmdCancelUpgrade ≠ _ by decide) fun _ _ _ _ => show Pc.cmdTransferData ≠ _ by decide)
  transferComplete := asks_unflagged (Pc.asks_step covers_harmless (by decide) (by simp))
  verifyFirmware := step_triple (asks_unflagged (Pc.asks_emitStage covers_harmless _))
    (sendFrame_verify rfl rfl) fun _ => asks_barred (Pc.asks_report covers_final _)
  setBootFlag := asks_barred (Pc.asks_setBootFlag covers_final (by decide) (by decide))
  finish := asks_barred (Pc.asks_finish covers_final (by decide))

/-- **One upgrade**, among the user's commands. -/
theorem upgradeThread_unflagged (crc32fastHash : List UInt8 → UInt32)
    (loaded : Except String (List UInt8)) :
    Triple (among (Lossy z) (Meddles z) Unflagged) (fun _ => Unflagged) Unflagged
      (Pc.upgradeThread crc32fastHash loaded config) fun _ => Unflagged := by
  refine upgradeThread_triple (F := fun _ => Unflagged) (J := fun _ => Unflagged) ?_
    (fun _ h => h) (fun _ => ?_) fun e => ?_
  · cases loaded with
    | error e =>
      exact (asks_unflagged (Pc.asks_emitError covers_harmless e)).bind fun _ _ h => h
    | ok fwData =>
      exact ((walk_flag config fwData _).doUpgrade crc32fastHash).imp
        (fun _ _ h => h.toUnflagged) fun _ _ h => h
  · exact asks_unflagged (Pc.asks_pollLogs covers_harmless (by decide))
  · exact asks_unflagged (Pc.asks_emitError covers_harmless e)

/-- **The boot flag is never set**, in any run of the tool with one upgrade at a time. -/
theorem never_flagged (crc32fastHash : List UInt8 → UInt32) (config : OtaConfig) {d : Dev}
    (hd : d.ota.bootFlag = 0) (hr : d.rebooted = false) {c : Bench × Option UpgradeThread}
    (hc : ReflTransGen (Turns (Lossy z) (Meddles z) (Starts crc32fastHash config))
      (.start d, none) c) : c.1.device.ota.bootFlag = 0 := by
  refine (Turns.invariant (I := Unflagged) (fun _ _ hm hb => hb.meddle hm) ?_ hc
    ⟨hd, hr⟩).bootFlag
  rintro _ ⟨loaded, rfl⟩ b hb
  exact upgradeThread_unflagged crc32fastHash loaded b hb

/-- The request of `verify_firmware`. -/
def verifyFrame : Frame := ⟨0, Pc.addrPc, Pc.addrDevice, 1, 0, Pc.cmdVerifyFirmware, []⟩

theorem meddles_verify (b : Bench) : Meddles z b (b.exchange z .lossless verifyFrame) := by
  refine ⟨verifyFrame, .lossless, .inl ?_, rfl⟩
  rw [Pc.buildVerifyFirmware, Pc.new_eq_ok (by simp)]
  simp [verifyFrame]

/-- On the board an upgrade of three bytes runs to its end on a good day, and then the user asks
for a VERIFY. The upgrade has sent SET_BOOT_FLAG behind its VERIFY, and the device has refused
it. -/
theorem never_flagged_board : ∃ b b' : Bench,
    Runs (Lossy .standard) (Pc.upgradeThread Crc32.hash (.ok [1, 2, 3]) {}) (.start .board)
      (.ok (.ok ())) b ∧ Event.send 0 cmdSetBootFlag [0xFF] ∈ b.effects ∧
    Meddles .standard b b' ∧ b'.device.ota.bootFlag = 0 := by
  have hr := runs_env (fun b op => (lossless_goodDay (z := .standard) b op).lossy)
    (Pc.upgradeThread Crc32.hash (.ok [1, 2, 3]) {}) (.start .board)
  have hreturns : (run (goodDay .standard) (Pc.upgradeThread Crc32.hash (.ok [1, 2, 3]) {})
      (.start .board)).1 = .ok (.ok ()) := by decide +kernel
  have hrefused : Event.send 0 cmdSetBootFlag [0xFF] ∈ (after (goodDay .standard)
      (Pc.upgradeThread Crc32.hash (.ok [1, 2, 3]) {}) (.start .board)).effects := by
    decide +kernel
  rw [hreturns] at hr
  generalize after (goodDay .standard) (Pc.upgradeThread Crc32.hash (.ok [1, 2, 3]) {})
    (.start .board) = b at hr hrefused
  have hbegin : Turns (Lossy .standard) (Meddles .standard) (Starts Crc32.hash {})
      (.start .board, none)
      (.start .board, some (Pc.upgradeThread Crc32.hash (.ok [1, 2, 3]) {})) := .begin _ ⟨_, rfl⟩
  have hverify := meddles_verify (z := .standard) b
  generalize b.exchange .standard .lossless verifyFrame = b' at hverify
  have hrun := (ReflTransGen.head hbegin hr.turns).tail (.others none hverify)
  exact ⟨b, b', hr, hrefused, hverify,
    never_flagged Crc32.hash {} (d := .board) (by decide) rfl hrun⟩

end ZephyrStm32.Ota.Link
