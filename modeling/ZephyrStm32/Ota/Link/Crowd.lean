import ZephyrStm32.Ota.Link.Console
import ZephyrStm32.Ota.Link.Stored

/-!
# Many upgrades at once

Nothing in the tool keeps a second upgrade from being started while one is under way: `Crowd` of the
upgrade threads, over one serial port, with the user's commands among them. Nothing is assumed of
what the threads are answered: responses may be lost, late, or meant for another thread.

**Theorem (`crowd_verified`).** When a VERIFY is answered 0x00, slot1 begins with the checksum of
one of the files, at its length; and if the flash works, each byte of it is in its place in one of
them.

**Theorem (`crowd_same_file`).** If it is the same file in all threads, then in STATUS_COMPLETE and
STATUS_VERIFYING slot1 begins with the file, whatever the flash does.
-/

namespace ZephyrStm32.Ota.Link

open Interact
open Relation (ReflTransGen)
open Pc (Frame FirmwarePacket Op OtaConfig UpgradeThread)

/-! ## The tool -/

/-- The device handles what arrives, with a flash that does as `F` allows; the tool may be told
anything. -/
inductive Heard (z : Zephyr) (F : FlashCalls → Prop) : World Op Op.Answer Dev
  | lost (d : Dev) (op : Op) (a : op.Answer) : Heard z F d op a d
  | arrives (d : Dev) (op : Op) (f : Frame) (a : op.Answer) (x : Exchange)
      (hf : op.frame? = some f) (hx : F x.flash) : Heard z F d op a (x.handle z d f).2

/-- The user gives a command, which arrives. -/
def Commands (z : Zephyr) (F : FlashCalls → Prop) (d d' : Dev) : Prop :=
  ∃ f, ∃ x : Exchange, UserFrame f ∧ F x.flash ∧ d' = (x.handle z d f).2

/-- An upgrade of one of the files. -/
def Uploads (crc32fastHash : List UInt8 → UInt32) (files : List UInt8 → Prop) (p : UpgradeThread) :
    Prop :=
  ∃ fw config, files fw ∧ p = Pc.upgradeThread crc32fastHash (.ok fw) config

/-- START, DATA and DONE are about files. -/
structure Told (files : List UInt8 → Prop) (g : OtaFrame) : Prop where
  start : g.cmd = cmdStartUpgrade → ∃ fw, files fw ∧ g.startSize.toNat = fw.length ∧
    g.startCrc = Crc32.hash fw
  data : g.cmd = cmdTransferData → ∃ fw, files fw ∧ g.fwData ≠ [] ∧
    ∃ pre post, fw = pre ++ g.fwData ++ post ∧ g.offset.toNat = pre.length
  done : g.cmd = cmdTransferDone → ∃ fw, files fw ∧ g.doneSize.toNat = fw.length ∧
    g.doneCrc = Crc32.hash fw

variable {z : Zephyr} {F : FlashCalls → Prop} {fl : FlashCalls} {d : Dev} {g : OtaFrame}
  {r : Handled} {files : List UInt8 → Prop} {fw : List UInt8}
  {crc32fastHash : List UInt8 → UInt32} {f : Frame} {x : Exchange}

/-! ## What is sent -/

theorem told_of_command (h : f.command ∉ Pc.planCommands) : Told files (x.frame f) := by
  have hcmd : (x.frame f).cmd = f.command := cmd_received f x.junk
  have hne : ∀ c ∈ Pc.planCommands, (x.frame f).cmd = c → False := fun c hc he =>
    h (hcmd ▸ he ▸ hc)
  exact ⟨fun he => (hne _ (by decide) he).elim, fun he => (hne _ (by decide) he).elim,
    fun he => (hne _ (by decide) he).elim⟩

theorem told_user (h : UserFrame f) : Told files (x.frame f) := by
  refine told_of_command ?_
  obtain h | ⟨delayMs, h⟩ := h
  · simp only [Pc.buildHandshake, Pc.buildGetDeviceInfo, Pc.buildQueryStatus,
      Pc.buildVerifyFirmware, Pc.buildCancelUpgrade, List.mem_cons, List.not_mem_nil, or_false,
      Pc.new_eq_ok (show ([] : List UInt8).length ≤ 65535 by decide), Except.ok.injEq] at h
    rcases h with rfl | rfl | rfl | rfl | rfl <;> decide
  · rw [Pc.buildResetRun, Pc.new_eq_ok (by simp)] at h
    obtain rfl := Except.ok.inj h
    exact show Pc.cmdResetRun ∉ Pc.planCommands by decide

theorem told_start (hfile : files fw) (hfw : fw.length < 2 ^ 32) :
    Told files (x.frame (Pc.startFrame fw (Crc32.hash fw))) := by
  have hcmd : (x.frame (Pc.startFrame fw (Crc32.hash fw))).cmd = cmdStartUpgrade :=
    cmd_received _ x.junk
  obtain ⟨hsize, hcrc, -⟩ := start_of_payload
    (payload_frame x (f := Pc.startFrame fw (Crc32.hash fw)) (by simp [Pc.startFrame]))
  refine ⟨fun _ => ⟨fw, hfile, ?_, hcrc⟩, fun h => ?_, fun h => ?_⟩
  · rw [hsize, UInt32.toNat_ofNat_of_lt' hfw]
  · exact absurd (hcmd.symm.trans h) (by decide)
  · exact absurd (hcmd.symm.trans h) (by decide)

theorem told_done (hfile : files fw) (hfw : fw.length < 2 ^ 32) :
    Told files (x.frame (Pc.doneFrame fw (Crc32.hash fw))) := by
  have hcmd : (x.frame (Pc.doneFrame fw (Crc32.hash fw))).cmd = cmdTransferDone :=
    cmd_received _ x.junk
  obtain ⟨hcrc, -⟩ := done_of_payload
    (payload_frame x (f := Pc.doneFrame fw (Crc32.hash fw)) (by simp [Pc.doneFrame]))
  have hsize := (fills_done (x := x) hfw (Crc32.hash fw)).done hcmd
  refine ⟨fun h => ?_, fun h => ?_, fun _ => ⟨fw, hfile, hsize, hcrc⟩⟩
  · exact absurd (hcmd.symm.trans h) (by decide)
  · exact absurd (hcmd.symm.trans h) (by decide)

/-- **What an upgrade sends is about its file.** -/
theorem utters_told (hfile : files fw) (hfw : fw.length < 2 ^ 32) :
    Pc.Utters fw (Crc32.hash fw) fun f => ∀ x : Exchange, Told files (x.frame f) where
  plain command data hc _ x := told_of_command hc
  start x := told_start hfile hfw
  done x := told_done hfile hfw
  data total i pkt pre post heq hoff hne hlen x := by
    have hfills : Fills fw (x.frame (Pc.dataFrame total i pkt)) :=
      fills_data hfw heq hoff hne hlen
    have hcmd : (x.frame (Pc.dataFrame total i pkt)).cmd = cmdTransferData :=
      cmd_received _ x.junk
    refine ⟨fun h => ?_, fun h => ⟨fw, hfile, hfills.data h⟩, fun h => ?_⟩
    · exact absurd (hcmd.symm.trans h) (by decide)
    · exact absurd (hcmd.symm.trans h) (by decide)

/-- **Invariants of the crowd** are those that requests about files keep. -/
theorem crowd_invariant {I : Dev → Prop} (hhash : ∀ data, crc32fastHash data = Crc32.hash data)
    (hfiles : ∀ fw, files fw → fw.length < 2 ^ 32)
    (hreset : ∀ (d : Dev) (o₀ o₁ : FlashOpen), I (d.reset o₀ o₁))
    (hstep : ∀ {fl d g r}, F fl → Told files g → Handles z fl d g r → I d → I r.2)
    {c : Dev × List UpgradeThread}
    (hc : ReflTransGen (Crowd (Heard z F) (Commands z F) (Uploads crc32fastHash files)) (d, []) c)
    (h : I d) : I c.1 := by
  have hhandle : ∀ {d : Dev} {f : Frame} (x : Exchange), F x.flash → Told files (x.frame f) →
      I d → I (x.handle z d f).2 := fun {d f} x hx hf hd =>
    handle_cases (fun d => hreset d _ _) (hstep hx hf (handles_frame x d f) hd)
  refine Crowd.invariant (S := Pc.Sends fun f => ∀ x : Exchange, Told files (x.frame f))
    (fun p hp => ?_) (fun d op a d' hop ha hd => ?_) (fun d d' hd' hd => ?_) hc h
  · obtain ⟨fw, config, hfile, rfl⟩ := hp
    refine Pc.asks_upgradeThread crc32fastHash ?_
    rw [hhash]
    exact utters_told hfile (hfiles fw hfile)
  · cases ha with
    | lost => exact hd
    | arrives _ _ f _ x hf hx => exact hhandle x hx (hop f hf x) hd
  · obtain ⟨f, x, hf, hx, he⟩ := hd'
    rw [he]
    exact hhandle x hx (told_user hf) hd

/-! ## The file that is declared -/

/-- In STATUS_COMPLETE the size and the checksum are those of a file. A START that is too large
replaces them. -/
def Declared (files : List UInt8 → Prop) (d : Dev) : Prop :=
  d.ota.status = .complete → ∃ fw, files fw ∧ d.ota.firmwareSize.toNat = fw.length ∧
    d.ota.firmwareCrc = Crc32.hash fw ∧
    (d.ota.firmwareSize = d.ota.receivedSize ∨ d.ota.slotSize < d.ota.firmwareSize)

theorem Declared.step (hg : Told files g) (hh : Handles z fl d g r) (h : Declared files d) :
    Declared files r.2 := by
  intro hs
  cases hh with
  | startTooLarge hc _ _ hsize =>
    obtain ⟨fw, hfile, hlen, hcrc⟩ := hg.start hc.2
    exact ⟨fw, hfile, hlen, hcrc, Or.inr hsize⟩
  | doneAccepted hp =>
    obtain ⟨fw, hfile, hlen, hcrc⟩ := hg.done hp.cmd.2
    exact ⟨fw, hfile, hlen, hcrc, Or.inl hp.size⟩
  | startEraseFailed | startAccepted | dataOffset | dataTooLarge | dataWriteFailed | doneMismatch
  | verifyReadFailed | verifyMatch | verifyMismatch | cancelled => cases hs
  | dataAccepted hp =>
    have hs : d.ota.status = .complete := hs
    rw [hp.status] at hs
    cases hs
  | _ => exact h hs

/-! ## The bytes that are written -/

/-- Each byte received is in its place in a file. -/
structure Pieced (files : List UInt8 → Prop) (d : Dev) : Prop where
  offset : d.ota.currentOffset = d.ota.receivedSize
  bytes : ∀ i < d.ota.receivedSize.toNat, ∃ fw, files fw ∧ fw[i]? = some (d.slot1 i)

theorem pieced_nothing (ho : d.ota.currentOffset = 0) (hr : d.ota.receivedSize = 0) :
    Pieced files d where
  offset := ho.trans hr.symm
  bytes i hi := by
    rw [hr] at hi
    exact absurd hi (Nat.not_lt_zero i)

/-- A packet of one of the files, behind what the others left. -/
theorem Pieced.accept (h : Pieced files d) (hfiles : ∀ fw, files fw → fw.length < 2 ^ 32)
    (hg : Told files g) (hp : DataPasses d g) : Pieced files { d with
      ota := d.ota.advanced z g, slot1 := d.slot1.write g.offset.toNat g.fwData } where
  offset := congrArg (· + g.fwLen.toUInt32) h.offset
  bytes i hi := by
    obtain ⟨fw, hfile, -, pre, post, heq, hoff⟩ := hg.data hp.cmd.2
    have hlen := hfiles fw hfile
    have htotal := congrArg List.length heq
    rw [List.length_append, List.length_append] at htotal
    have hreceived : d.ota.receivedSize.toNat = pre.length := by
      rw [← h.offset, ← hp.offset, hoff]
    have hadvanced : (d.ota.advanced z g).receivedSize.toNat = pre.length + g.fwData.length := by
      change (d.ota.receivedSize + g.fwLen.toUInt32).toNat = _
      rw [UInt32.toNat_add, UInt16.toNat_toUInt32, hreceived, ← OtaFrame.length_fwData]
      exact Nat.mod_eq_of_lt (by omega)
    have hi : i < (d.ota.advanced z g).receivedSize.toNat := hi
    rw [hadvanced] at hi
    change ∃ fw, files fw ∧ fw[i]? = some (d.slot1.write g.offset.toNat g.fwData i)
    rw [Mem.write, hoff]
    by_cases hnew : pre.length ≤ i
    · refine ⟨fw, hfile, ?_⟩
      have hpiece : i - pre.length < g.fwData.length := by omega
      rw [if_pos ⟨hnew, hi⟩, heq, List.append_assoc, List.getElem?_append_right hnew,
        List.getElem?_append_left hpiece, List.getD_eq_getElem?_getD,
        List.getElem?_eq_getElem hpiece, Option.getD_some]
    · rw [if_neg fun hin => hnew hin.1]
      exact h.bytes i (by omega)

theorem Pieced.step (hfiles : ∀ fw, files fw → fw.length < 2 ^ 32) (hfl : ∀ k, (fl k).err = 0)
    (hg : Told files g) (hh : Handles z fl d g r) (h : Pieced files d) : Pieced files r.2 := by
  cases hh with
  | startEraseFailed | startAccepted | cancelled => exact pieced_nothing rfl rfl
  | dataWriteFailed _ herr => exact absurd (hfl 0) herr
  | dataAccepted hp => exact h.accept hfiles hg hp
  | _ => exact ⟨h.offset, h.bytes⟩

/-- **What a successful VERIFY says**, with any number of upgrades at once. -/
theorem crowd_verified (hz : z.Documented) (hhash : ∀ data, crc32fastHash data = Crc32.hash data)
    (hfiles : ∀ fw, files fw → fw.length < 2 ^ 32) (o₀ o₁ : FlashOpen) (m : Mem)
    {c : Dev × List UpgradeThread}
    (hc : ReflTransGen (Crowd (Heard z F) (Commands z F) (Uploads crc32fastHash files))
      (.boot o₀ o₁ m, []) c)
    (hverify : f.command = cmdVerifyFirmware) (hdst : f.dstAddr = addrDevice)
    (ha : answer (x.handle z c.1 f).1 = some 0x00) :
    ∃ fw, files fw ∧ Crc32.hash (c.1.slot1.slice 0 fw.length) = Crc32.hash fw ∧
      ((∀ fl, F fl → ∀ k, (fl k).err = 0) → fw.length ≤ c.1.ota.slotSize.toNat →
        ∀ i < fw.length, ∃ fw', files fw' ∧ fw'[i]? = some (c.1.slot1 i)) := by
  obtain ⟨_, _, _, _, hboot⟩ := boot_ota o₀ o₁ m
  have hdeclared : Declared files c.1 :=
    crowd_invariant hhash hfiles (fun d o₀ o₁ hs => (boot_status o₀ o₁ _ hs).elim)
      (fun _ hg hh h => h.step hg hh) hc fun hs => (boot_status o₀ o₁ m hs).elim
  have hh := handles_frame (z := z) x c.1 f
  have hcmd : (x.frame f).IsCmd cmdVerifyFirmware := hverify ▸ isCmd_frame x hdst
  rw [x.handle_eq_ite] at ha
  dsimp only at ha
  have hmatch := hh.verify_answer_iff.1 ⟨hcmd, ha⟩
  obtain ⟨-, hs, hrun⟩ := hmatch
  obtain ⟨fw, hfile, hlen, hcrc, hsize⟩ := hdeclared hs
  refine ⟨fw, hfile, ?_, fun hworks hfit i hi => ?_⟩
  · rw [← hlen, ← imageCrc_eq hz, (verifyRun_eq_some.1 hrun).2, hcrc]
  · have hpieced : Pieced files c.1 :=
      crowd_invariant hhash hfiles
        (fun d o₀ o₁ => by
          obtain ⟨_, _, _, _, hreset⟩ := boot_ota o₀ o₁ d.slot1
          exact pieced_nothing (congrArg OtaState.currentOffset hreset)
            (congrArg OtaState.receivedSize hreset))
        (fun hfl hg hh h => h.step hfiles (hworks _ hfl) hg hh) hc
        (pieced_nothing (congrArg OtaState.currentOffset hboot)
          (congrArg OtaState.receivedSize hboot))
    refine hpieced.bytes i ?_
    obtain hsize | hlarge := hsize
    · rwa [← hsize, hlen]
    · exact absurd (UInt32.lt_iff_toNat_lt.1 hlarge) (by omega)

/-- A device that VERIFY does not reach. -/
def noVerify : Env Op Op.Answer Dev := fun d op =>
  match op with
  | .isCancelled => (false, d)
  | .sendAndRecv f _ =>
    if f.command = cmdVerifyFirmware then (.error "Timeout", d)
    else
      let r := Exchange.lossless.handle .standard d f
      (firstResponse r.1, r.2)
  | .sendFrame _ => (.ok (), d)
  | .sleep _ => ((), d)
  | .emit _ => ((), d)

/-- The device after an upgrade of three bytes without VERIFY, with a second one begun. -/
theorem exists_crowd_board (F : FlashCalls → Prop) (files : List UInt8 → Prop) (hF : F .ok)
    (hfile : files [1, 2, 3]) :
    ∃ c, ReflTransGen (Crowd (Heard .standard F) (Commands .standard F) (Uploads Crc32.hash files))
        (.board, []) c ∧
      c.1 = after noVerify (Pc.upgradeThread Crc32.hash (.ok [1, 2, 3]) {}) .board := by
  have hworld : ∀ d op, Heard .standard F d op (noVerify d op).1 (noVerify d op).2 := by
    intro d op
    cases op with
    | sendAndRecv f timeoutMs =>
      rw [noVerify]
      dsimp only
      split
      · exact .lost d _ _
      · dsimp only
        exact .arrives d _ f _ .lossless rfl hF
    | _ => exact .lost d _ _
  let p := Pc.upgradeThread Crc32.hash (.ok [1, 2, 3]) {}
  have hbegin : ∀ ps, Crowd (Heard .standard F) (Commands .standard F) (Uploads Crc32.hash files)
      (.board, ps) (.board, p :: ps) := fun ps => .begin _ ps ⟨_, {}, hfile, rfl⟩
  have hr := runs_env hworld p .board
  obtain ⟨q, hq⟩ : ∃ q, ReflTransGen
      (Crowd (Heard .standard F) (Commands .standard F) (Uploads Crc32.hash files))
      (.board, [p, p]) (after noVerify p .board, [p, q]) := hr.crowd [p] []
  exact ⟨_, .head (hbegin []) (.head (hbegin [p]) hq), rfl⟩

/-- On the board, with three bytes: VERIFY matches. -/
theorem crowd_verified_board :
    ∃ d : Dev, answer (Exchange.lossless.handle .standard d
        ⟨0, Pc.addrPc, Pc.addrDevice, 1, 0, Pc.cmdVerifyFirmware, []⟩).1 = some 0x00 ∧
      ∃ fw, fw = [1, 2, 3] ∧ Crc32.hash (d.slot1.slice 0 fw.length) = Crc32.hash fw := by
  obtain ⟨c, hc, hd⟩ := exists_crowd_board (fun fl => ∀ k, (fl k).err = 0) (· = [1, 2, 3])
    (fun _ => rfl) rfl
  let f : Frame := ⟨0, Pc.addrPc, Pc.addrDevice, 1, 0, Pc.cmdVerifyFirmware, []⟩
  have ha : answer (Exchange.lossless.handle .standard c.1 f).1 = some 0x00 := by
    rw [hd]
    decide +kernel
  have hhash : ∀ data, Crc32.hash data = Crc32.hash data := fun _ => rfl
  have hfiles : ∀ fw : List UInt8, fw = [1, 2, 3] → fw.length < 2 ^ 32 := by
    rintro _ rfl
    decide
  have hfw := crowd_verified Zephyr.documented_standard hhash hfiles _ _ _ hc (f := f) rfl rfl ha
  obtain ⟨fw, hfile, hcrc, -⟩ := hfw
  exact ⟨c.1, ha, fw, hfile, hcrc⟩

/-! ## The same file in all threads -/

/-- No session, or one that fills slot1 with `fw`. -/
def Upheld (fw : List UInt8) (d : Dev) : Prop :=
  d.ota.status = .idle ∧ d.ota.inProgress = false ∨ Filling fw d

theorem Filling.congr {d' : Dev} (h : Filling fw d) (hs : d'.ota.status = d.ota.status)
    (ho : d'.ota.currentOffset = d.ota.currentOffset)
    (hr : d'.ota.receivedSize = d.ota.receivedSize) (hm : d'.slot1 = d.slot1) :
    Filling fw d' := by
  constructor
  · rw [hs]
    exact h.busy
  · rw [ho, hr]
    exact h.offset
  · rw [hr]
    exact h.le
  · rw [hs, hr, hm]
    exact h.receiving
  · rw [hr, hm]
    exact h.whole
  · rw [hs, hr]
    exact h.finished

/-- DATA, DONE and VERIFY among the requests about `fw`. -/
theorem Told.fills (hg : Told (· = fw) g)
    (hc : g.cmd ∈ [cmdTransferData, cmdTransferDone, cmdVerifyFirmware]) : Fills fw g where
  cmd := hc
  data h := by
    obtain ⟨_, rfl, hdata⟩ := hg.data h
    exact hdata
  done h := by
    obtain ⟨_, rfl, hsize, -⟩ := hg.done h
    exact hsize

/-- **One request.** A START opens a session, a CANCEL closes it, and in between the device is
filled. -/
theorem Upheld.step (hfw : fw.length < 2 ^ 32) (hg : Told (· = fw) g) (hh : Handles z fl d g r)
    (h : Upheld fw d) : Upheld fw r.2 := by
  have hkeep : ∀ d' : Dev, d'.ota.status = d.ota.status → d'.ota.inProgress = d.ota.inProgress →
      d'.ota.currentOffset = d.ota.currentOffset → d'.ota.receivedSize = d.ota.receivedSize →
      d'.slot1 = d.slot1 → Upheld fw d' := fun d' hs hp ho hr hm =>
    h.imp (fun hi => ⟨hs.trans hi.1, hp.trans hi.2⟩) fun hf => hf.congr hs ho hr hm
  have hfill : g.cmd ∈ [cmdTransferData, cmdTransferDone, cmdVerifyFirmware] →
      ¬ (d.ota.status = .idle ∧ d.ota.inProgress = false) → Upheld fw r.2 := fun hc hbusy =>
    Or.inr ((h.resolve_left hbusy).step (hg.fills hc) hfw hh)
  cases hh with
  | startEraseFailed | cancelled => exact Or.inl ⟨rfl, rfl⟩
  | startAccepted => exact Or.inr (filling_start g _)
  | dataOffset hp | dataTooLarge hp =>
    exact hfill (by simp [hp.cmd.2]) fun hi => by simp [hp.inProgress] at hi
  | dataWriteFailed hp | dataAccepted hp =>
    exact hfill (by simp [hp.cmd.2]) fun hi => by simp [hp.inProgress] at hi
  | doneMismatch hc hp => exact hfill (by simp [hc.2]) fun hi => by simp [hp] at hi
  | doneAccepted hp =>
    exact hfill (by simp [hp.cmd.2]) fun hi => by simp [hp.inProgress] at hi
  | verifyReadFailed hc hs | verifyMatch hc hs | verifyMismatch hc hs =>
    exact hfill (by simp [hc.2]) fun hi => by simp [hs] at hi
  | _ => exact hkeep _ rfl rfl rfl rfl rfl

/-- **Starting the same upgrade again and again** does no harm. -/
theorem crowd_same_file (hhash : ∀ data, crc32fastHash data = Crc32.hash data)
    (hfw : fw.length < 2 ^ 32) (o₀ o₁ : FlashOpen) (m : Mem) {c : Dev × List UpgradeThread}
    (hc : ReflTransGen (Crowd (Heard z F) (Commands z F) (Uploads crc32fastHash (· = fw)))
      (.boot o₀ o₁ m, []) c)
    (hs : c.1.ota.status = .complete ∨ c.1.ota.status = .verifying) :
    c.1.slot1.slice 0 fw.length = fw := by
  have hidle : ∀ (o₀ o₁ : FlashOpen) (m : Mem), Upheld fw (.boot o₀ o₁ m) := by
    intro o₀ o₁ m
    obtain ⟨_, _, _, _, hboot⟩ := boot_ota o₀ o₁ m
    exact Or.inl ⟨congrArg OtaState.status hboot, congrArg OtaState.inProgress hboot⟩
  have hupheld : Upheld fw c.1 :=
    crowd_invariant hhash (fun fw' he => by rwa [he]) (fun d o₀ o₁ => hidle o₀ o₁ d.slot1)
      (fun _ hg hh h => h.step hfw hg hh) hc (hidle o₀ o₁ m)
  obtain ⟨hi, -⟩ | hf := hupheld
  · rw [hi] at hs
    simp at hs
  · exact hf.whole (hf.finished hs)

theorem crowd_same_file_board : (after noVerify (Pc.upgradeThread Crc32.hash (.ok [1, 2, 3]) {})
    .board).slot1.slice 0 3 = [1, 2, 3] := by
  obtain ⟨c, hc, hd⟩ := exists_crowd_board (fun _ => True) (· = [1, 2, 3]) trivial rfl
  rw [← hd]
  have hs : c.1.ota.status = .complete := by
    rw [hd]
    decide +kernel
  have hhash : ∀ data, Crc32.hash data = Crc32.hash data := fun _ => rfl
  have hslot := crowd_same_file hhash (by decide) _ _ _ hc (Or.inl hs)
  exact hslot

end ZephyrStm32.Ota.Link
