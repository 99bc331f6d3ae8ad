import ZephyrStm32.Lib.World
import ZephyrStm32.Ota.Link.Cancellation

/-!
# An upgrade with the device at the other end of its link

`Lossy` is the world an upgrade runs in: the device handles the requests that arrive, with whatever
its flash does; requests and responses may get lost, but none is changed or comes late; the cancel
flag may be set and taken back at any time. `Lossless` is the same world on a good day.

The rules here carry a property of the device through the attempts of one request.
-/

namespace ZephyrStm32.Ota.Link

open Interact
open Pc (Frame Op OtaConfig OtaEvent Engine Failure UpgradeStage plainFrame)
open Pc.Engine (Attempts Settled checked pollLogs_triple report_triple settleAny step step_triple
  value_of_checked)

/-! ## The worlds -/

/-- The device, what it did to the outside and the events shown to the user. -/
structure Bench where
  device : Dev
  effects : List Event
  shown : List OtaEvent

namespace Bench

def start (d : Dev) : Bench := ⟨d, [], []⟩

/-- The device handles a frame. -/
def exchange (z : Zephyr) (b : Bench) (x : Exchange) (f : Frame) : Bench :=
  let r := x.handle z b.device f
  { b with device := r.2, effects := b.effects ++ r.1 }

def emit (b : Bench) (e : OtaEvent) : Bench := { b with shown := b.shown ++ [e] }

@[simp] theorem exchange_device (z : Zephyr) (b : Bench) (x : Exchange) (f : Frame) :
    (b.exchange z x f).device = (x.handle z b.device f).2 := by
  rw [exchange]

@[simp] theorem exchange_effects (z : Zephyr) (b : Bench) (x : Exchange) (f : Frame) :
    (b.exchange z x f).effects = b.effects ++ (x.handle z b.device f).1 := by
  rw [exchange]

@[simp] theorem exchange_shown (z : Zephyr) (b : Bench) (x : Exchange) (f : Frame) :
    (b.exchange z x f).shown = b.shown := by
  rw [exchange]

@[simp] theorem emit_device (b : Bench) (e : OtaEvent) : (b.emit e).device = b.device := rfl

@[simp] theorem emit_effects (b : Bench) (e : OtaEvent) : (b.emit e).effects = b.effects := rfl

end Bench

/-- What the PC receives is the device's response, or it is an error. -/
def Exchange.Honest (x : Exchange) : Prop :=
  x.recv = firstResponse ∨ ∃ e, x.recv = fun _ => .error e

/-- A link that may lose requests and responses. -/
inductive Lossy (z : Zephyr) : World Op Op.Answer Bench
  | isCancelled (b : Bench) (cancelled : Bool) : Lossy z b .isCancelled cancelled b
  | lost (b : Bench) (f : Frame) (timeoutMs : Nat) (e : String) :
      Lossy z b (.sendAndRecv f timeoutMs) (.error e) b
  | arrives (b : Bench) (f : Frame) (timeoutMs : Nat) (x : Exchange) (hx : x.Honest) :
      Lossy z b (.sendAndRecv f timeoutMs) (x.recv (x.handle z b.device f).1) (b.exchange z x f)
  | sendLost (b : Bench) (f : Frame) (answer : Except String Unit) :
      Lossy z b (.sendFrame f) answer b
  | sendArrives (b : Bench) (f : Frame) (answer : Except String Unit) (x : Exchange) :
      Lossy z b (.sendFrame f) answer (b.exchange z x f)
  | sleep (b : Bench) (ms : Nat) : Lossy z b (.sleep ms) () b
  | emit (b : Bench) (e : OtaEvent) : Lossy z b (.emit e) () (b.emit e)

/-- Nothing is lost, the flash works and nobody cancels. -/
inductive Lossless (z : Zephyr) : World Op Op.Answer Bench
  | isCancelled (b : Bench) : Lossless z b .isCancelled false b
  | arrives (b : Bench) (f : Frame) (timeoutMs : Nat) (x : Exchange) (hx : x.recv = firstResponse)
      (hflash : ∀ k, (x.flash k).err = 0) :
      Lossless z b (.sendAndRecv f timeoutMs) (x.recv (x.handle z b.device f).1)
        (b.exchange z x f)
  | sendArrives (b : Bench) (f : Frame) (x : Exchange) (hflash : ∀ k, (x.flash k).err = 0) :
      Lossless z b (.sendFrame f) (.ok ()) (b.exchange z x f)
  | sleep (b : Bench) (ms : Nat) : Lossless z b (.sleep ms) () b
  | emit (b : Bench) (e : OtaEvent) : Lossless z b (.emit e) () (b.emit e)

variable {z : Zephyr}

theorem Lossless.lossy {b b' : Bench} {op : Op} {a : op.Answer} (h : Lossless z b op a b') :
    Lossy z b op a b' := by
  cases h with
  | isCancelled => exact .isCancelled b false
  | arrives _ f timeoutMs x hx => exact .arrives b f timeoutMs x (Or.inl hx)
  | sendArrives _ f x => exact .sendArrives b f _ x
  | sleep _ ms => exact .sleep b ms
  | emit _ e => exact .emit b e

/-- A good day, as an environment. -/
def goodDay (z : Zephyr) : Env Op Op.Answer Bench := fun b op =>
  match op with
  | .isCancelled => (false, b)
  | .sendAndRecv f _ =>
    (firstResponse (Exchange.lossless.handle z b.device f).1, b.exchange z .lossless f)
  | .sendFrame f => (.ok (), b.exchange z .lossless f)
  | .sleep _ => ((), b)
  | .emit e => ((), b.emit e)

theorem lossless_goodDay (b : Bench) (op : Op) :
    Lossless z b op (goodDay z b op).1 (goodDay z b op).2 := by
  cases op with
  | isCancelled => exact .isCancelled b
  | sendAndRecv f timeoutMs => exact .arrives b f timeoutMs .lossless rfl fun _ => rfl
  | sendFrame f => exact .sendArrives b f .lossless fun _ => rfl
  | sleep ms => exact .sleep b ms
  | emit e => exact .emit b e

/-- The world always goes on. -/
theorem lossless_total (b : Bench) (op : Op) : ∃ a b', Lossless z b op a b' :=
  ⟨_, _, lossless_goodDay b op⟩

/-! ## The frame at the device -/

/-- The frame struct that `ota_frame_process` gets. -/
def Exchange.frame (x : Exchange) (f : Frame) : OtaFrame :=
  readFrame (Mem.ofList f.toBytes) 0 x.junk

theorem frame_shows (x : Exchange) {f : Frame} (h : f.data.length ≤ 65535) :
    Shows (x.frame f) f := by
  have hw := Pc.wireAt_toBytes h []
  rw [List.append_nil] at hw
  exact readFrame_shows x.junk hw.toFieldsAt

/-- A request of the PC arrives as that request. -/
theorem isCmd_frame (x : Exchange) {f : Frame} (hd : f.dstAddr = addrDevice) :
    (x.frame f).IsCmd f.command :=
  ⟨Or.inl ((dstAddr_received f x.junk).trans hd), cmd_received f x.junk⟩

/-- The branch that a frame takes. -/
theorem handles_frame (x : Exchange) (d : Dev) (f : Frame) :
    Handles z x.flash d (x.frame f) (otaFrameProcess z x.flash d (x.frame f)) :=
  otaFrameProcess_handles z x.flash d (x.frame f)

theorem Exchange.handle_eq_ite (z : Zephyr) (x : Exchange) (d : Dev) (f : Frame) : x.handle z d f =
    ((otaFrameProcess z x.flash d (x.frame f)).1,
      if (otaFrameProcess z x.flash d (x.frame f)).2.rebooted then
        (otaFrameProcess z x.flash d (x.frame f)).2.reset x.slot0Open x.slot1Open
      else (otaFrameProcess z x.flash d (x.frame f)).2) := by
  rw [Exchange.handle, ← Exchange.frame]
  generalize otaFrameProcess z x.flash d (x.frame f) = r
  obtain ⟨es, d'⟩ := r
  dsimp only
  split <;> rfl

/-- A device that does not reboot is left as the handler leaves it. -/
theorem handle_eq {x : Exchange} {d : Dev} {f : Frame}
    (h : (otaFrameProcess z x.flash d (x.frame f)).2.rebooted = false) :
    x.handle z d f = otaFrameProcess z x.flash d (x.frame f) := by
  rw [x.handle_eq_ite, if_neg (by simp [h])]

/-- The device is left running. -/
theorem running_handle (x : Exchange) (d : Dev) (f : Frame) :
    (x.handle z d f).2.rebooted = false := by
  rw [x.handle_eq_ite]
  dsimp only
  split
  · rfl
  · rename_i hno
    exact Bool.not_eq_true _ ▸ hno

/-- What becomes of a device that a request may reboot. -/
theorem handle_cases {I : Dev → Prop} {x : Exchange} {d : Dev} {f : Frame}
    (hreset : ∀ d : Dev, I (d.reset x.slot0Open x.slot1Open))
    (h : I (otaFrameProcess z x.flash d (x.frame f)).2) : I (x.handle z d f).2 := by
  rw [x.handle_eq_ite]
  dsimp only
  split
  · exact hreset _
  · exact h

/-! ## Rules for the engine's steps -/

/-- A world that does at most what the lossy one does. -/
def Tame (z : Zephyr) (W : World Op Op.Answer Bench) : Prop :=
  ∀ b op a b', W b op a b' → Lossy z b op a b'

theorem tame_lossy : Tame z (Lossy z) := fun _ _ _ _ h => h

theorem tame_lossless : Tame z (Lossless z) := fun _ _ _ _ h => h.lossy

section

variable {W : World Op Op.Answer Bench} (hW : Tame z W) {α : Type} {E : Failure → Bench → Prop}
  {P : Bench → Prop} {frame : Frame} {label : String} {config : OtaConfig}
include hW

theorem emit_tame {e : OtaEvent} {Q : Unit → Bench → Prop}
    (h : ∀ b, P b → Q () (b.emit e)) : Triple (world W) E P (Engine.emit e) Q := by
  intro b hb a b' hstep
  cases hW _ _ _ _ hstep
  exact h b hb

theorem look_tame {C : Bench → Prop} (hC : ∀ b, P b → C b) :
    Triple (world W) E P Engine.isCancelled fun cancelled b => if cancelled then C b else P b := by
  intro b hb cancelled b' hstep
  cases hW _ _ _ _ hstep
  cases cancelled with
  | true => exact hC b hb
  | false => exact hb

/-- What one attempt of a request may bring. -/
theorem sendAndRecv_tame {timeoutMs : Nat} {Q : Except String Frame → Bench → Prop}
    (hlost : ∀ b e, P b → Q (.error e) b)
    (hfail : ∀ b x e, P b → Q (.error e) (b.exchange z x frame))
    (hok : ∀ b x resp, P b → firstResponse (x.handle z b.device frame).1 = .ok resp →
      Q (.ok resp) (b.exchange z x frame)) :
    Triple (world W) E P (Engine.sendAndRecv frame timeoutMs) Q := by
  intro b hb a b' hstep
  cases hW _ _ _ _ hstep with
  | lost _ _ _ e => exact hlost b e hb
  | arrives _ _ _ x hx =>
    obtain hx | ⟨e, hx⟩ := hx
    · rw [hx]
      cases hr : firstResponse (x.handle z b.device frame).1 with
      | error e => exact hfail b x e hb
      | ok resp => exact hok b x resp hb hr
    · rw [hx]
      exact hfail b x e hb

/-- A frame that nobody waits for an answer to. -/
theorem writeFrame_tame (hkeep : ∀ b x, P b → P (b.exchange z x frame)) :
    Triple (world W) E P (Engine.writeFrame frame) fun _ => P := by
  intro b hb a b' hstep
  cases hW _ _ _ _ hstep with
  | sendLost => exact hb
  | sendArrives _ _ _ x => exact hkeep b x hb

/-- An answer that is dropped. -/
theorem pollLogs_tame (hkeep : ∀ b x, P b → P (b.exchange z x (plainFrame Pc.cmdGetLog []))) :
    Triple (world W) E P Engine.pollLogs fun _ => P :=
  pollLogs_triple (sendAndRecv_tame hW (fun _ _ hb => hb) (fun b x _ => hkeep b x)
    fun b x _ hb _ => hkeep b x hb)

variable {I : Bench → Prop} (hemit : ∀ b e, I b → I (b.emit e))
include hemit

theorem emitError_tame {message : String} :
    Triple (world W) E I (Engine.emitError message) fun _ => I :=
  (emit_tame hW fun b => hemit b _).bind fun _ => emit_tame hW fun b => hemit b _

variable (hE : ∀ e b, I b → E e b)
include hE

theorem report_tame {r : Settled α} {Q : α → Bench → Prop}
    (hvalue : ∀ a, r.outcome = .value a → ∀ b, I b → Q a b) :
    Triple (world W) E I r.report Q :=
  report_triple (fun _ => emit_tame hW fun b => hemit b _) hvalue (fun _ _ => hE _)
    fun _ _ => (emitError_tame hW hemit).mono fun _ => hE _

variable (hkeep : ∀ b x, I b → I (b.exchange z x frame))
include hkeep

/-- **The attempts of a request.** `I` is kept by every attempt, and whatever response is accepted
comes from a device in `I`. -/
theorem sendFrame_tame {R : Frame → Bench → Prop}
    (hok : ∀ b x resp, I b → firstResponse (x.handle z b.device frame).1 = .ok resp →
      R resp (b.exchange z x frame)) :
    Triple (world W) E I (Engine.sendFrame frame label config) R := by
  have hattempts : Attempts (world W) E config frame (fun _ => I) (fun _ => I) (fun _ => I) R := by
    refine ⟨hE _, fun _ => look_tame hW (hE _), fun _ => ?_, fun _ b hb _ b' hstep => ?_,
      fun _ => (emitError_tame hW hemit).mono fun _ => hE _⟩
    · exact sendAndRecv_tame hW (fun _ _ hb => hb) (fun b x _ => hkeep b x) hok
    · cases hW _ _ _ _ hstep
      exact hb
  exact hattempts.sendFrame

/-- A step whose value says more than `I`. -/
theorem step_tame {stage : UpgradeStage} {settle : Frame → Settled α} {Q : α → Bench → Prop}
    (hQ : ∀ a b e, Q a b → Q a (b.emit e))
    (hvalue : ∀ b x resp a, I b → firstResponse (x.handle z b.device frame).1 = .ok resp →
      resp.isErrorResponse = false → (settle resp).outcome = .value a →
        Q a (b.exchange z x frame)) :
    Triple (world W) E I (step stage frame label config settle) Q := by
  refine step_triple (R := fun resp b => I b ∧
    ∀ a, (checked label resp (settle resp)).outcome = .value a → Q a b)
    (emit_tame hW fun b => hemit b _) (sendFrame_tame hW hemit hE hkeep ?_) fun resp => ?_
  · intro b x resp hb hr
    refine ⟨hkeep b x hb, fun a ha => ?_⟩
    obtain ⟨herr, ha⟩ := value_of_checked ha
    exact hvalue b x resp a hb hr herr ha
  · exact report_tame hW (fun b e hb => ⟨hemit b e hb.1, fun a ha => hQ a b e (hb.2 a ha)⟩)
      (fun e b hb => hE e b hb.1) fun a ha b hb => hb.2 a ha

/-- A step that is done when it is answered. -/
theorem step_any_tame {stage : UpgradeStage} :
    Triple (world W) E I (step stage frame label config settleAny) fun _ => I :=
  step_tame hW hemit hE hkeep (fun _ b e => hemit b e) fun b x _ _ hb _ _ _ => hkeep b x hb

end

end ZephyrStm32.Ota.Link
