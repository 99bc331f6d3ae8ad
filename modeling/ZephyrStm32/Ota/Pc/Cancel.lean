import ZephyrStm32.Ota.Pc.Steps

/-!
# The cancel flag in an upgrade thread

`upgradeThread` is the closure that `run_upgrade` spawns. It tests the flag before each request
and between the steps; `heedful_upgradeThread` sums up all these tests: once a load has found the
flag set, the thread sends none of the commands that drive an upgrade on, and returns `Err`.

Before the load nothing of that kind holds. `ChecksFirst` says of what a thread has left to do that
a load stands before the next of these commands; it fails between the load in `send_frame` and the
request behind it.
-/

namespace ZephyrStm32.Ota.Pc

open Interact
open Engine

/-- What a thread has left to do. Its value is what `do_upgrade` returned. -/
abbrev UpgradeThread := Engine (Except String Unit)

/-- The closure that `run_upgrade` spawns. -/
def upgradeThread (crc32fastHash : List UInt8 → UInt32) (loaded : Except String (List UInt8))
    (config : OtaConfig) : UpgradeThread := do
  match ← attempt (doUpgrade crc32fastHash loaded config) with
  | .ok () => return .ok ()
  | .error .panic => .fail .panic
  | .error (.err e) =>
    pollLogs
    emitError e
    return .error e

/-- The frame that a call sends. -/
def Op.frame? : Op → Option Frame
  | .sendAndRecv frame _ => some frame
  | .sendFrame frame => some frame
  | _ => none

/-- START, DATA, DONE, SET_BOOT_FLAG and RESET_RUN. -/
def upgradeCommands : List UInt16 :=
  [cmdStartUpgrade, cmdTransferData, cmdTransferComplete, cmdSetBootFlag, cmdResetRun]

/-- The call sends one of these. -/
def Op.upgrades (op : Op) : Bool := op.frame?.any (upgradeCommands.contains ·.command)

/-- Whatever the answers, none of these commands is sent, and `Err` is returned. -/
def GivesUp : UpgradeThread → Prop
  | .done r => ∃ e, r = .error e
  | .fail _ => False
  | .ask op next => op.upgrades = false ∧ ∀ x, GivesUp (next x)

/-- Whatever the answers, the flag is loaded before one of these commands is sent and before
anything but `Err` is returned. -/
def ChecksFirst : UpgradeThread → Prop
  | .done r => ∃ e, r = .error e
  | .fail _ => False
  | .ask op next => op = .isCancelled ∨ op.upgrades = false ∧ ∀ x, ChecksFirst (next x)

/-- A load that found the flag set. -/
def foundSet : Asked Op Op.Answer → Bool
  | ⟨.isCancelled, cancelled⟩ => cancelled
  | _ => false

/-- A monitor of the flag: has a load found it set? At `none` one of the commands was sent after
that. -/
def heed : Option Bool → Asked Op Op.Answer → Option Bool
  | none, _ => none
  | some seen, a => if seen && a.op.upgrades then none else some (seen || foundSet a)

/-- How a thread may end: with `Err` once a load has found the flag set. -/
def Ends (r : Except String Unit) (m : Option Bool) : Prop :=
  m = some false ∨ m = some true ∧ ∃ e, r = .error e

/-- What a thread has left to do heeds the flag. -/
def Heedful (p : UpgradeThread) : Prop :=
  ∃ seen, wp (monitor heed) Ends (fun _ m => m = some false) p (some seen)

/-- A failure of `do_upgrade`: no panic once a load has found the flag set. -/
def Fails (e : Failure) (m : Option Bool) : Prop :=
  m = some false ∨ m = some true ∧ ∃ msg, e = .err msg

/-- A part of `do_upgrade` heeds the flag: it goes on only while no load has found it set. -/
def Heeds {α : Type} (p : Engine α) : Prop :=
  Triple (monitor heed) Fails (· = some false) p fun _ m => m = some false

variable {α β : Type} {op : Op} {frame : Frame} {config : OtaConfig}

instance (op : Op) : Nonempty op.Answer := by
  cases op with
  | isCancelled => exact ⟨false⟩
  | sendAndRecv frame timeoutMs => exact ⟨.error ""⟩
  | sendFrame frame => exact ⟨.ok ()⟩
  | sleep ms => exact ⟨()⟩
  | emit event => exact ⟨()⟩

/-! ## The monitor -/

theorem foundSet_eq_false (h : op ≠ .isCancelled) (x : op.Answer) :
    foundSet ⟨op, x⟩ = false := by
  cases op with
  | isCancelled => exact absurd rfl h
  | _ => rfl

/-- While no load has found the flag set, anything may be sent. -/
theorem heed_false (h : op ≠ .isCancelled) (x : op.Answer) :
    heed (some false) ⟨op, x⟩ = some false := by
  rw [heed, foundSet_eq_false h]
  rfl

/-- Afterwards only what is none of the commands. -/
theorem heed_true (x : op.Answer) :
    heed (some true) ⟨op, x⟩ = if op.upgrades then none else some true := by
  rw [heed, Bool.true_and, Bool.true_or]

/-- No end is good once one of the commands was sent too late. -/
theorem not_wp_none {p : UpgradeThread} :
    ¬ wp (monitor heed) Ends (fun _ m => m = some false) p none := by
  apply not_wp (fun _ => rfl)
  · rintro r (h | ⟨h, -⟩) <;> cases h
  · intro e h
    cases h

/-! ## What a thread has left to do -/

theorem givesUp_of_wp {p : UpgradeThread}
    (h : wp (monitor heed) Ends (fun _ m => m = some false) p (some true)) : GivesUp p := by
  induction p with
  | done r =>
    rcases h with h | ⟨-, h⟩
    · cases h
    · exact h
  | fail e => cases h
  | ask op next ih =>
    cases hop : op.upgrades with
    | true =>
      obtain ⟨x⟩ := (inferInstance : Nonempty op.Answer)
      have hx := h x
      rw [heed_true, if_pos hop] at hx
      exact absurd hx not_wp_none
    | false =>
      refine ⟨hop, fun x => ih x ?_⟩
      have hx := h x
      rwa [heed_true, hop, if_neg Bool.false_ne_true] at hx

theorem Heedful.next {next : op.Answer → UpgradeThread} (h : Heedful (.ask op next))
    (x : op.Answer) : Heedful (next x) := by
  obtain ⟨seen, h⟩ := h
  have hx := h x
  rw [heed] at hx
  split at hx
  · exact absurd hx not_wp_none
  · exact ⟨_, hx⟩

/-- **The load.** A thread that finds the flag set gives up. -/
theorem Heedful.givesUp {next : Bool → UpgradeThread} (h : Heedful (.ask .isCancelled next)) :
    GivesUp (next true) := by
  obtain ⟨seen, h⟩ := h
  apply givesUp_of_wp
  have hx := h true
  cases seen <;> exact hx

theorem GivesUp.checksFirst {p : UpgradeThread} (h : GivesUp p) : ChecksFirst p := by
  induction p with
  | done r => exact h
  | fail e => exact h
  | ask op next ih => exact Or.inr ⟨h.1, fun x => ih x (h.2 x)⟩

/-! ## The parts of `do_upgrade` -/

theorem heeds_question (op : Op) (h : op ≠ .isCancelled) :
    Heeds (question op : Engine op.Answer) := by
  rintro _ rfl x
  exact heed_false h x

theorem heeds_emitStage (stage : UpgradeStage) : Heeds (emitStage stage) :=
  heeds_question (.emit _) (by simp)

/-- An error that is reported before a load has found the flag set. -/
theorem fails_emitError (message : String) : Triple (monitor heed) Fails (· = some false)
    (emitError message) fun _ m => Fails (.err message) m := by
  refine Triple.bind (heeds_emitStage _) fun _ => ?_
  rintro _ rfl _
  exact Or.inl rfl

/-- A load, with what is to hold if it finds the flag set. -/
theorem heeds_isCancelled {C : Option Bool → Prop} (hC : C (some true)) :
    Triple (monitor heed) Fails (· = some false) isCancelled fun cancelled m =>
      if cancelled then C m else m = some false := by
  rintro _ rfl cancelled
  cases cancelled with
  | true => exact hC
  | false => rfl

/-- The attempts of a request: each is behind a load. -/
theorem attempts_heed (frame : Frame) (config : OtaConfig) :
    Attempts (monitor heed) Fails config frame (fun _ m => m = some false)
      (fun _ m => m = some false) (fun _ m => m = some false) (fun _ m => m = some false) where
  panic _ h := Or.inl h
  look _ := heeds_isCancelled (Or.inr ⟨rfl, _, rfl⟩)
  ask _ := by
    rintro _ rfl x
    cases x <;> rfl
  again _ := heeds_question (.sleep 200) (by simp)
  last := fails_emitError

theorem heeds_sendFrame (frame : Frame) (label : String) (config : OtaConfig) :
    Heeds (sendFrame frame label config) :=
  (attempts_heed frame config).sendFrame

theorem heeds_report (r : Settled α) : Heeds r.report :=
  report_triple (fun _ => heeds_question (.emit _) (by simp)) (fun _ _ _ h => h)
    (fun _ _ _ h => Or.inl h) fun message _ => fails_emitError message

theorem heeds_step {stage : UpgradeStage} {frame : Frame} {label : String}
    {settle : Frame → Settled α} : Heeds (step stage frame label config settle) :=
  step_triple (heeds_emitStage stage) (heeds_sendFrame frame label config) fun _ => heeds_report _

/-- A poll of the log is allowed at any time. -/
theorem pollLogs_heed {E : Failure → Option Bool → Prop} (seen : Bool) :
    Triple (monitor heed) E (· = some seen) pollLogs fun _ m => m = some seen := by
  apply pollLogs_triple
  rintro _ rfl _
  cases seen <;> rfl

/-- The CANCEL of the transfer loop is none of the commands. -/
theorem cancelTransfer_heed : Triple (monitor heed) Fails (· = some true) cancelTransfer
    fun _ _ => False := by
  refine cancelTransfer_triple (B := (· = some true)) ?_ ?_
  · rintro _ rfl _
    rfl
  · rintro _ rfl _
    exact Or.inr ⟨rfl, _, rfl⟩

theorem heeds_transferPacket {total : UInt16} {fwSize : UInt32} {i : Nat} {pkt : FirmwarePacket}
    (hlen : pkt.data.length ≤ 65531) : Heeds (transferPacket total fwSize config i pkt) :=
  transferPacket_triple hlen (heeds_isCancelled (C := (· = some true)) rfl) cancelTransfer_heed
    (heeds_sendFrame _ _ config) (fun _ _ _ h _ => Or.inl h)
    fun _ _ => heeds_question (.emit _) (by simp)

/-- **The flow.** -/
theorem walk_heed (config : OtaConfig) (fwData : List UInt8) (fwCrc : UInt32) :
    Walk (monitor heed) Fails config fwData fwCrc (· = some false) (fun _ m => m = some false)
      fun _ m => m = some false where
  look _ := failIfCancelled_triple (heeds_isCancelled (Or.inr ⟨rfl, _, rfl⟩))
  handshake := heeds_step
  getDeviceInfo := heeds_step
  startUpgrade := heeds_step
  transfer _ _ hchunk := transfer_triple (T := fun _ _ m => m = some false) hchunk
    (heeds_emitStage _) (fun _ _ _ hlen => heeds_transferPacket hlen) fun _ _ h => h
  transferComplete := heeds_step
  verifyFirmware := heeds_step
  setBootFlag := setBootFlag_triple (heeds_emitStage _) (heeds_sendFrame _ _ config)
    (fun _ => pollLogs_heed false) fun _ => heeds_report _
  finish := Triple.bind heeds_step fun _ => heeds_emitStage _

theorem heeds_doUpgrade (crc32fastHash : List UInt8 → UInt32) (loaded : Except String (List UInt8))
    (config : OtaConfig) : Heeds (doUpgrade crc32fastHash loaded config) := by
  cases loaded with
  | error e => exact (fails_emitError e).bind fun _ _ h => h
  | ok fwData => exact (walk_heed config fwData _).doUpgrade crc32fastHash

/-! ## The whole thread -/

/-- **The closure**: a failure of `do_upgrade` is reported, a panic is not. -/
theorem upgradeThread_triple {σ : Type} {D : Demand Op Op.Answer σ} {E F : Failure → σ → Prop}
    {P : σ → Prop} {J : String → σ → Prop} {Q : Except String Unit → σ → Prop}
    {crc32fastHash : List UInt8 → UInt32} {loaded : Except String (List UInt8)}
    (h : Triple D F P (doUpgrade crc32fastHash loaded config) fun _ s => Q (.ok ()) s)
    (hpanic : ∀ s, F .panic s → E .panic s)
    (hlog : ∀ e, Triple D E (F (.err e)) pollLogs fun _ => J e)
    (herror : ∀ e, Triple D E (J e) (emitError e) fun _ => Q (.error e)) :
    Triple D E P (upgradeThread crc32fastHash loaded config) Q := by
  intro s hs
  rw [upgradeThread, wp_bind, wp_attempt]
  refine wp_imp (h s hs) (fun _ _ hQ => hQ) fun e s' he => ?_
  cases e with
  | panic => exact hpanic s' he
  | err e => exact wp_seq (hlog e s' he) fun _ s'' hJ => wp_seq (herror e s'' hJ) fun _ _ hQ => hQ

/-- **The flag is heeded.** Once a load has found it set, a thread sends none of the commands and
returns `Err`, whatever answers it gets. -/
theorem heedful_upgradeThread (crc32fastHash : List UInt8 → UInt32)
    (loaded : Except String (List UInt8)) (config : OtaConfig) :
    Heedful (upgradeThread crc32fastHash loaded config) := by
  have hflow : Triple (monitor heed) Fails (· = some false)
      (doUpgrade crc32fastHash loaded config) fun _ m => Ends (.ok ()) m :=
    (heeds_doUpgrade crc32fastHash loaded config).mono fun _ _ h => Or.inl h
  refine ⟨false, upgradeThread_triple (J := fun _ m => ∃ seen, m = some seen) hflow
    ?_ ?_ ?_ _ rfl⟩
  · rintro m (h | ⟨-, msg, h⟩)
    · exact h
    · cases h
  · -- GET_LOG is none of the commands.
    rintro e m (rfl | ⟨rfl, -⟩)
    · exact wp_mono (pollLogs_heed false _ rfl) fun _ _ h => ⟨_, h⟩
    · exact wp_mono (pollLogs_heed true _ rfl) fun _ _ h => ⟨_, h⟩
  · rintro e _ ⟨seen, rfl⟩ _ _
    cases seen
    · exact Or.inl rfl
    · exact Or.inr ⟨rfl, e, rfl⟩

end ZephyrStm32.Ota.Pc
