import ZephyrStm32.Ota.Device.Session

/-!
# What a reset keeps

A reset zeroes the memory of `ota_state`, runs `ota_handler_init` and keeps the flash
(`Dev.reset`). The boot flag is a field of `ota_state` that no command writes to the flash and that
only SET_BOOT_FLAG looks at: two runs that agree but for flags give the same responses and flash
operations, and end in states that agree but for the flag (`run_flag`).

**Theorem (`flag_lost`).** So the acknowledged flag is gone after the reset it was set for: whether
its value was 0x01 or 0x00, the device comes up in the same state.
-/

namespace ZephyrStm32.Ota

open Bytes (le32)
open Machine

namespace Dev

/-- `d` with the boot flag `b`. -/
def withFlag (d : Dev) (b : UInt8) : Dev := { d with ota := { d.ota with bootFlag := b } }

/-- The device after `sys_reboot`: the flash is kept, the memory is set up as at start-up. -/
def reset (slot0Open slot1Open : FlashOpen) (d : Dev) : Dev := .boot slot0Open slot1Open d.slot1

end Dev

/-- Two states that agree but for the boot flag. -/
def SameButFlag (d d' : Dev) : Prop := ∃ b, d' = d.withFlag b

/-- Two results that agree but for the boot flag. -/
structure SameOutcome (r r' : Handled) : Prop where
  events : r'.1 = r.1
  state : SameButFlag r.2 r'.2

/-- The same request with the value 0x00 in its first byte. -/
def Request.clearing (q : Request) : Request :=
  { q with frame := { q.frame with data := q.frame.data.write 0 [0x00] } }

/-- Two runs that differ only in the value of an acknowledged SET_BOOT_FLAG, the last one that is
acknowledged before the device reboots: `q` sets the flag in one run, and clears it in the other. -/
structure FlagRuns (z : Zephyr) (d : Dev) (before : List Request) (q : Request)
    (after : List Request) : Prop where
  cmd : q.frame.IsCmd cmdSetBootFlag
  value : q.frame.data 0 = 0x01
  set : answer (Dev.step z (final (Dev.step z) d before) q).1 = some 0x00
  cleared : answer (Dev.step z (final (Dev.step z) d before) q.clearing).1 = some 0x00
  last : ∀ p ∈ after.zip (outputs (Dev.step z) (final (Dev.step z) d (before ++ [q])) after),
    p.1.frame.IsCmd cmdSetBootFlag → answer p.2 ≠ some 0x00
  reboots : (final (Dev.step z) d (before ++ q :: after)).rebooted = true
  reboots' : (final (Dev.step z) d (before ++ q.clearing :: after)).rebooted = true

theorem SameButFlag.refl (d : Dev) : SameButFlag d d := ⟨d.ota.bootFlag, rfl⟩

/-! ## No handler but SET_BOOT_FLAG looks at the flag -/

/-- A result with another flag. -/
def Handled.withFlag (r : Handled) (b : UInt8) : Handled := (r.1, r.2.withFlag b)

theorem withFlag_ite {c : Prop} [Decidable c] (r r' : Handled) (b : UInt8) :
    (if c then r else r').withFlag b = if c then r.withFlag b else r'.withFlag b :=
  apply_ite (Handled.withFlag · b) c r r'

/-- The handler passes the flag through. -/
def KeepsFlag (handler : Dev → UInt16 → Mem → UInt16 → Handled) : Prop :=
  ∀ d b seq data len, handler (d.withFlag b) seq data len = (handler d seq data len).withFlag b

theorem keepsFlag_startUpgrade (fl : FlashCalls) : KeepsFlag (otaCmdStartUpgrade fl) := by
  intro d b seq data len
  unfold otaCmdStartUpgrade
  simp only [withFlag_ite]
  rfl

theorem keepsFlag_transferData (z : Zephyr) (fl : FlashCalls) :
    KeepsFlag (otaCmdTransferData z fl) := by
  intro d b seq data len
  unfold otaCmdTransferData
  simp only [withFlag_ite]
  rfl

theorem keepsFlag_transferDone : KeepsFlag otaCmdTransferDone := by
  intro d b seq data len
  unfold otaCmdTransferDone
  simp only [withFlag_ite]
  rfl

theorem keepsFlag_verifyFirmware (z : Zephyr) (fl : FlashCalls) :
    KeepsFlag (otaCmdVerifyFirmware z fl) := by
  intro d b seq data len
  unfold otaCmdVerifyFirmware
  rw [withFlag_ite]
  dsimp only
  rw [← verifyRun, ← verifyRun, show verifyRun z fl (d.withFlag b) = verifyRun z fl d from rfl]
  cases (verifyRun z fl d).2 with
  | none => rfl
  | some crc =>
    dsimp only
    rw [withFlag_ite]
    rfl

theorem keepsFlag_resetRun : KeepsFlag otaCmdResetRun := by
  intro d b seq data len
  unfold otaCmdResetRun
  simp only [withFlag_ite]
  rfl

/-- SET_BOOT_FLAG gives the same answer whatever the flag was, and sets it whatever it was. -/
theorem setBootFlag_withFlag (d : Dev) (b : UInt8) (seq : UInt16) (data : Mem) (len : UInt16) :
    SameOutcome (otaCmdSetBootFlag d seq data len)
      (otaCmdSetBootFlag (d.withFlag b) seq data len) := by
  unfold otaCmdSetBootFlag
  refine ite_related ?_ (ite_related ?_ (ite_related ?_ ?_))
  · exact ⟨rfl, b, rfl⟩
  · exact ⟨rfl, SameButFlag.refl _⟩
  · exact ⟨rfl, SameButFlag.refl _⟩
  · exact ⟨rfl, b, rfl⟩

theorem KeepsFlag.sameOutcome {handler : Dev → UInt16 → Mem → UInt16 → Handled}
    (h : KeepsFlag handler) (d : Dev) (b : UInt8) (seq : UInt16) (data : Mem) (len : UInt16) :
    SameOutcome (handler d seq data len) (handler (d.withFlag b) seq data len) := by
  rw [h d b seq data len]
  exact ⟨rfl, b, rfl⟩

/-- Every handler of the table gives the same outcome whatever the flag is. -/
theorem sameOutcome_of_mem_cmdTable {z : Zephyr} {fl : FlashCalls}
    {e : UInt16 × (Dev → UInt16 → Mem → UInt16 → Handled)} (he : e ∈ cmdTable z fl)
    (d : Dev) (b : UInt8) (seq : UInt16) (data : Mem) (len : UInt16) :
    SameOutcome (e.2 d seq data len) (e.2 (d.withFlag b) seq data len) := by
  have hconst : ∀ es, SameOutcome (es, d) (es, d.withFlag b) := fun _ => ⟨rfl, b, rfl⟩
  simp only [cmdTable, List.mem_cons, List.not_mem_nil, or_false] at he
  rcases he with rfl | rfl | rfl | rfl | rfl | rfl | rfl | rfl | rfl | rfl
  · exact hconst _
  · exact hconst _
  · exact (keepsFlag_startUpgrade fl).sameOutcome d b seq data len
  · exact (keepsFlag_transferData z fl).sameOutcome d b seq data len
  · exact keepsFlag_transferDone.sameOutcome d b seq data len
  · exact (keepsFlag_verifyFirmware z fl).sameOutcome d b seq data len
  · exact keepsFlag_resetRun.sameOutcome d b seq data len
  · exact ⟨rfl, _, rfl⟩
  · exact hconst _
  · exact setBootFlag_withFlag d b seq data len

/-! ## One step -/

variable {z : Zephyr} {d d' : Dev}

theorem step_withFlag (q : Request) (b : UInt8) :
    SameOutcome (Dev.step z d q) (Dev.step z (d.withFlag b) q) :=
  step_related rfl (fun _ => ⟨rfl, b, rfl⟩) fun _ he => sameOutcome_of_mem_cmdTable he d b _ _ _

/-- **Runs that agree but for flags.** The same requests to states that agree but for the flag get
the same responses, issue the same flash operations and end in states that agree but for it. -/
theorem run_flag (qs : List Request) (h : SameButFlag d d') :
    outputs (Dev.step z) d' qs = outputs (Dev.step z) d qs ∧
      SameButFlag (final (Dev.step z) d qs) (final (Dev.step z) d' qs) := by
  refine outputs_of_sim (fun d d' q hd => ?_) h qs
  obtain ⟨b, rfl⟩ := hd
  exact ⟨(step_withFlag q b).events, (step_withFlag q b).state⟩

/-! ## The two values of a flag -/

theorem SameButFlag.symm {d d' : Dev} (h : SameButFlag d d') : SameButFlag d' d := by
  obtain ⟨b, rfl⟩ := h
  exact ⟨d.ota.bootFlag, rfl⟩

theorem SameButFlag.trans {d₁ d₂ d₃ : Dev} (h : SameButFlag d₁ d₂) (h' : SameButFlag d₂ d₃) :
    SameButFlag d₁ d₃ := by
  obtain ⟨b, rfl⟩ := h
  obtain ⟨b', rfl⟩ := h'
  exact ⟨b', rfl⟩

/-- SET_BOOT_FLAG changes nothing but the flag. -/
theorem otaCmdSetBootFlag_state (d : Dev) (seq : UInt16) (data : Mem) (len : UInt16) :
    SameButFlag d (otaCmdSetBootFlag d seq data len).2 := by
  unfold otaCmdSetBootFlag
  split
  · exact SameButFlag.refl d
  · dsimp only
    split
    · exact ⟨1, rfl⟩
    · split
      · exact ⟨0, rfl⟩
      · exact SameButFlag.refl d

theorem step_setBootFlag {q : Request} (h : q.frame.IsCmd cmdSetBootFlag) :
    SameButFlag d (Dev.step z d q).2 := by
  cases hb : d.rebooted with
  | true =>
    rw [step_rebooted hb]
    exact SameButFlag.refl d
  | false =>
    rw [step_running hb, otaFrameProcess_addressed _ _ _ _ h.1, h.2]
    exact otaCmdSetBootFlag_state d _ _ _

/-- Whatever two SET_BOOT_FLAGs set, the runs after them agree but for the flag. -/
theorem final_setBootFlag {q q' : Request} (h : q.frame.IsCmd cmdSetBootFlag)
    (h' : q'.frame.IsCmd cmdSetBootFlag) (before after : List Request) :
    SameButFlag (final (Dev.step z) d (before ++ q :: after))
      (final (Dev.step z) d (before ++ q' :: after)) := by
  rw [final_append, final_append, final_cons, final_cons]
  exact (run_flag after ((step_setBootFlag h).symm.trans (step_setBootFlag h'))).2

theorem SameButFlag.reset_eq (h : SameButFlag d d') (slot0Open slot1Open : FlashOpen) :
    d.reset slot0Open slot1Open = d'.reset slot0Open slot1Open := by
  obtain ⟨b, rfl⟩ := h
  rfl

/-- **The flag is lost.** Two runs that differ only in the value of an acknowledged SET_BOOT_FLAG
come up from the reset in the same state, in memory and in flash. -/
theorem flag_lost {before after : List Request} {q : Request} (h : FlagRuns z d before q after)
    (slot0Open slot1Open : FlashOpen) :
    (final (Dev.step z) d (before ++ q :: after)).reset slot0Open slot1Open =
      (final (Dev.step z) d (before ++ q.clearing :: after)).reset slot0Open slot1Open := by
  have hc : q.clearing.frame.IsCmd cmdSetBootFlag := h.cmd
  exact (final_setBootFlag h.cmd hc before after).reset_eq slot0Open slot1Open

/-! ### On the board -/

/-- A complete transfer of an empty image. -/
def emptyTransfer : List Request :=
  [⟨.request cmdStartUpgrade (le32 0 ++ le32 0 ++ le32 0), .ok⟩,
    ⟨.request cmdTransferDone (le32 0 ++ le32 0), .ok⟩]

/-- The board is told to boot the new image and to restart. -/
theorem flagRuns_board : FlagRuns .standard .board emptyTransfer
    ⟨.request cmdSetBootFlag [0x01], .ok⟩ [⟨.request cmdResetRun [], .ok⟩] where
  cmd := by decide
  value := by decide
  set := by decide
  cleared := by decide
  last := by decide
  reboots := by decide
  reboots' := by decide

theorem flag_lost_board :
    (final (Dev.step .standard) .board (emptyTransfer ++
      ⟨.request cmdSetBootFlag [0x01], .ok⟩ :: [⟨.request cmdResetRun [], .ok⟩])).reset
        ⟨0, some ⟨0x20000, 0xF0000⟩⟩ ⟨0, some ⟨0x110000, 0xF0000⟩⟩ =
    (final (Dev.step .standard) .board (emptyTransfer ++
      (Request.clearing ⟨.request cmdSetBootFlag [0x01], .ok⟩) ::
        [⟨.request cmdResetRun [], .ok⟩])).reset
        ⟨0, some ⟨0x20000, 0xF0000⟩⟩ ⟨0, some ⟨0x110000, 0xF0000⟩⟩ :=
  flag_lost flagRuns_board _ _

/-- The acknowledged value does not decide the state after the reset. -/
theorem flag_does_not_survive : ¬ ∀ (z : Zephyr) (d : Dev) (before after : List Request)
    (q : Request) (slot0Open slot1Open : FlashOpen), FlagRuns z d before q after →
      (final (Dev.step z) d (before ++ q :: after)).reset slot0Open slot1Open ≠
        (final (Dev.step z) d (before ++ q.clearing :: after)).reset slot0Open slot1Open := by
  intro h
  apply h _ _ _ _ _ ⟨0, none⟩ ⟨0, none⟩ flagRuns_board
  apply SameButFlag.reset_eq
  exact final_setBootFlag (by decide) (by decide) _ _

end ZephyrStm32.Ota
