import ZephyrStm32.Ota.Link.Sessions

/-!
# Which losses an upgrade survives

`Losing` is the world of an upgrade whose requests and responses may get lost, with a working flash
and no cancellation; it keeps a record of what became of each attempt.

**Theorem (`survives_iff`).** An upgrade that the device can take returns `Ok` if and only if no
request failed in all its attempts, and no response to START, to VERIFY or to a packet that was not
the last was lost: the device does not take any of these a second time. DONE is taken again, and a
repeated last packet brings the device into STATUS_ERROR, out of which DONE brings it back.
-/

namespace ZephyrStm32.Ota.Link

open Interact
open Pc (Frame FirmwarePacket Op OtaConfig OtaEvent Engine UpgradeStage Failure plainFrame
  upgradeThread_triple)
open Pc.Engine (Attempts Station Settled Walk checked checked_of_not_error failIfCancelled_triple
  pollLogs_triple report_triple setBootFlag_triple settleAny settleDeviceInfo settleStart
  settleVerify step step_triple transferPacket transferPacket_triple transfer_triple)

/-! ## Failures in a row -/

section

variable {ε : Type} {bad : ε → Prop} {n : Nat} {l m : List ε} {e : ε}

/-- There are `n` bad entries in a row. -/
def Streak (bad : ε → Prop) (n : Nat) (l : List ε) : Prop :=
  ∃ i, i + n ≤ l.length ∧ ∀ j < n, ∃ e, l[i + j]? = some e ∧ bad e

instance [DecidablePred bad] : Decidable (Streak bad n l) :=
  decidable_of_iff (∃ i < l.length + 1, i + n ≤ l.length ∧
    ∀ j < n, (l[i + j]?).any (fun e => decide (bad e)) = true) <| by
    simp only [Option.any_eq_true, decide_eq_true_eq, Streak]
    refine exists_congr fun i => ⟨fun h => h.2, fun h => ⟨?_, h⟩⟩
    exact Nat.lt_succ_of_le (Nat.le_of_add_right_le h.1)

/-- The last entry, if any, is a good one. -/
def EndsWell (bad : ε → Prop) (l : List ε) : Prop := ∀ e, l.getLast? = some e → ¬ bad e

theorem Streak.append (h : Streak bad n l) (m : List ε) : Streak bad n (l ++ m) := by
  obtain ⟨i, hi, hbad⟩ := h
  refine ⟨i, hi.trans (by simp), fun j hj => ?_⟩
  obtain ⟨e, he, hb⟩ := hbad j hj
  exact ⟨e, by rw [List.getElem?_append_left (by omega), he], hb⟩

theorem streak_of_forall (hlen : m.length = n) (hm : ∀ e ∈ m, bad e) : Streak bad n (l ++ m) := by
  refine ⟨l.length, by simp [hlen], fun j hj => ?_⟩
  have hj' : j < m.length := hlen ▸ hj
  refine ⟨m[j], ?_, hm _ (List.getElem_mem hj')⟩
  rw [List.getElem?_append_right (by omega), Nat.add_sub_cancel_left]
  exact List.getElem?_eq_getElem hj'

/-- Fewer than `n` bad entries between two good ones make no streak. -/
theorem not_streak_snoc (h : ¬ Streak bad n l) (hl : EndsWell bad l) (hm : m.length < n)
    (he : ¬ bad e) : ¬ Streak bad n (l ++ m ++ [e]) := by
  rintro ⟨i, hi, hbad⟩
  have hlen : i + n ≤ l.length + m.length + 1 := by simpa [Nat.add_assoc] using hi
  -- The entries of a streak are none of the two good ones.
  have hlast : i + n ≤ l.length + m.length := by
    by_contra hno
    obtain ⟨e', he', hb⟩ := hbad (n - 1) (by omega)
    rw [List.getElem?_append_right (by simp; omega),
      show i + (n - 1) - (l ++ m).length = 0 by simp; omega] at he'
    exact he (Option.some.inj he' ▸ hb)
  by_cases hin : i + n ≤ l.length
  · refine h ⟨i, hin, fun j hj => ?_⟩
    obtain ⟨e', he', hb⟩ := hbad j hj
    rw [List.append_assoc, List.getElem?_append_left (by omega)] at he'
    exact ⟨e', he', hb⟩
  · have hpos : 0 < l.length := by omega
    obtain ⟨e', he', hb⟩ := hbad (l.length - 1 - i) (by omega)
    rw [List.append_assoc, List.getElem?_append_left (by omega),
      show i + (l.length - 1 - i) = l.length - 1 by omega, ← List.getLast?_eq_getElem?] at he'
    exact hl e' he' hb

end

/-! ## The world -/

/-- What became of an attempt: the request did not arrive, the response did not come back, or it
did. -/
inductive Fate
  | lost
  | unanswered
  | answered
  deriving DecidableEq

/-- The bench, with what became of the attempts so far. A poll of the log does not count. -/
structure Ledger where
  bench : Bench
  fates : List (Frame × Fate)

namespace Ledger

def start (d : Dev) : Ledger := ⟨.start d, []⟩

def record (a : Ledger) (f : Frame) (fate : Fate) (b : Bench) : Ledger :=
  ⟨b, if f.command = Pc.cmdGetLog then a.fates else a.fates ++ [(f, fate)]⟩

def emit (a : Ledger) (e : OtaEvent) : Ledger := { a with bench := a.bench.emit e }

end Ledger

/-- Requests and responses may get lost; the flash works and nobody cancels. -/
inductive Losing (z : Zephyr) : World Op Op.Answer Ledger
  | isCancelled (a : Ledger) : Losing z a .isCancelled false a
  | lost (a : Ledger) (f : Frame) (timeoutMs : Nat) (e : String) :
      Losing z a (.sendAndRecv f timeoutMs) (.error e) (a.record f .lost a.bench)
  | unanswered (a : Ledger) (f : Frame) (timeoutMs : Nat) (e : String) (x : Exchange)
      (hflash : ∀ k, (x.flash k).err = 0) :
      Losing z a (.sendAndRecv f timeoutMs) (.error e)
        (a.record f .unanswered (a.bench.exchange z x f))
  | answered (a : Ledger) (f : Frame) (timeoutMs : Nat) (x : Exchange)
      (hflash : ∀ k, (x.flash k).err = 0) :
      Losing z a (.sendAndRecv f timeoutMs) (firstResponse (x.handle z a.bench.device f).1)
        (a.record f .answered (a.bench.exchange z x f))
  | sendLost (a : Ledger) (f : Frame) (answer : Except String Unit) :
      Losing z a (.sendFrame f) answer a
  | sendArrives (a : Ledger) (f : Frame) (x : Exchange) (hflash : ∀ k, (x.flash k).err = 0) :
      Losing z a (.sendFrame f) (.ok ()) { a with bench := a.bench.exchange z x f }
  | sleep (a : Ledger) (ms : Nat) : Losing z a (.sleep ms) () a
  | emit (a : Ledger) (e : OtaEvent) : Losing z a (.emit e) () (a.emit e)

/-- The attempt brought no response. -/
def Failed (e : Frame × Fate) : Prop := e.2 ≠ .answered

/-- A request that the device does not take a second time. -/
def Once (f : Frame) : Prop :=
  f.command = Pc.cmdStartUpgrade ∨ f.command = Pc.cmdVerifyFirmware ∨
    f.command = Pc.cmdTransferData ∧ f.packetSeq.toNat + 1 < f.totalPackets.toNat

instance (f : Frame) : Decidable (Once f) := inferInstanceAs (Decidable (_ ∨ _ ∨ _))

/-- The losses are such that an upgrade with `n` attempts for each request survives them. -/
structure Survived (n : Nat) (fates : List (Frame × Fate)) : Prop where
  attempts : ¬ Streak Failed n fates
  once : ∀ f, (f, .unanswered) ∈ fates → ¬ Once f

instance : DecidablePred Failed := fun e => inferInstanceAs (Decidable (e.2 ≠ .answered))

instance (n : Nat) (fates : List (Frame × Fate)) : Decidable (Survived n fates) :=
  decidable_of_iff
    (¬ Streak Failed n fates ∧ ∀ e ∈ fates, e.2 = .unanswered → ¬ Once e.1)
    ⟨fun h => ⟨h.1, fun _ hf => h.2 _ hf rfl⟩, fun h => ⟨h.attempts, fun e he hu =>
      h.once e.1 (hu ▸ he)⟩⟩

variable {z : Zephyr} {fw : List UInt8} {a : Ledger} {config : OtaConfig} {f : Frame}
  {label : String} {size : UInt32} {n : Nat} {fates m : List (Frame × Fate)}

/-- What is not survived never is. -/
theorem Survived.of_append (h : Survived n (fates ++ m)) : Survived n fates where
  attempts hs := h.attempts (hs.append m)
  once f hf := h.once f (List.mem_append_left m hf)

/-- Failed attempts of one request. -/
def Tried (f : Frame) (m : List (Frame × Fate)) : Prop := ∀ e ∈ m, e.1 = f ∧ Failed e

/-- Survived so far, and nothing is under way. -/
structure Clear (n : Nat) (fates : List (Frame × Fate)) : Prop where
  survived : Survived n fates
  last : EndsWell Failed fates

theorem Clear.snoc (h : Clear n fates) (hm : Tried f m) (hlen : m.length < n)
    (honce : (f, .unanswered) ∈ m → ¬ Once f) : Clear n (fates ++ m ++ [(f, .answered)]) where
  survived := by
    refine ⟨not_streak_snoc h.survived.attempts h.last hlen fun hbad => hbad rfl, fun g hg => ?_⟩
    simp only [List.mem_append, List.mem_singleton, Prod.mk.injEq, reduceCtorEq, and_false,
      or_false] at hg
    obtain hg | hg := hg
    · exact h.survived.once g hg
    · obtain rfl : g = f := (hm _ hg).1
      exact honce hg
  last e he := by
    rw [List.getLast?_concat] at he
    obtain rfl := Option.some.inj he
    exact fun hbad => hbad rfl

theorem not_survived_of_tried (hm : Tried f m) (hlen : m.length = n) :
    ¬ Survived n (fates ++ m) :=
  fun h => h.attempts (streak_of_forall hlen fun e he => (hm e he).2)

theorem not_survived_of_once {l : List (Frame × Fate)} (hf : (f, .unanswered) ∈ m)
    (honce : Once f) : ¬ Survived n (fates ++ m ++ l) :=
  fun h => h.once f (by simp [hf]) honce

/-! ## The attempts of a request -/

/-- From `P`, the device answers `f` with some data in `D`, and is in `P'` afterwards. -/
def Takes (z : Zephyr) (size : UInt32) (P : Dev → Prop) (f : Frame) (D : List UInt8 → Prop)
    (P' : Dev → Prop) : Prop :=
  ∀ d, P d → d.rebooted = false → d.ota.slotSize = size → ∃ data, D data ∧ Replies z d f data P'

theorem Takes.or {P N P' : Dev → Prop} {D : List UInt8 → Prop} (hP : Takes z size P f D P')
    (hN : Takes z size N f D P') : Takes z size (fun d => P d ∨ N d) f D P' := by
  rintro d (hd | hd) hrun hsize
  · exact hP d hd hrun hsize
  · exact hN d hd hrun hsize

theorem Takes.of_imp {P N P' : Dev → Prop} {D : List UInt8 → Prop} (hP : Takes z size P f D P')
    (h : ∀ d, N d → P d) : Takes z size N f D P' :=
  fun d hd hrun hsize => hP d (h d hd) hrun hsize

section

variable {α : Type} {P P₁ N N₁ K : Dev → Prop} {D D₁ D₂ : List UInt8 → Prop}
  {E : Failure → Ledger → Prop}

/-- What one attempt of a request brings. -/
theorem wp_attempt_losing {timeoutMs : Nat} (hlog : f.command ≠ Pc.cmdGetLog)
    (hP : Takes z size P f D P₁) (h : At size P a.bench)
    {Q : Except String Frame → Ledger → Prop}
    (hlost : ∀ e, Q (.error e) ⟨a.bench, a.fates ++ [(f, .lost)]⟩)
    (hunanswered : ∀ e b, At size P₁ b → Q (.error e) ⟨b, a.fates ++ [(f, .unanswered)]⟩)
    (hanswered : ∀ resp b, D resp.data → At size P₁ b →
      Q (.ok resp) ⟨b, a.fates ++ [(f, .answered)]⟩) :
    wp (world (Losing z)) Q E (Engine.sendAndRecv f timeoutMs) a := by
  obtain ⟨data, hD, hrep⟩ := hP _ h.device h.running h.slotSize
  have hafter : ∀ x : Exchange, (∀ k, (x.flash k).err = 0) →
      At size P₁ (a.bench.exchange z x f) := by
    intro x hx
    obtain ⟨-, hP₁, hrun, hsize⟩ := hrep x hx
    rw [← Bench.exchange_device] at hP₁ hrun hsize
    exact ⟨hP₁, hrun, hsize.trans h.slotSize⟩
  intro r a' hstep
  cases hstep with
  | lost _ _ _ e =>
    rw [Ledger.record, if_neg hlog]
    exact hlost e
  | unanswered _ _ _ e x hx =>
    rw [Ledger.record, if_neg hlog]
    exact hunanswered e _ (hafter x hx)
  | answered _ _ _ x hx =>
    obtain ⟨resp, hfirst, hdata⟩ := firstResponse_of_response (hrep x hx).1
    rw [Ledger.record, if_neg hlog, hfirst]
    exact hanswered resp _ (hdata.symm ▸ hD) (hafter x hx)

theorem look_losing {I C : Ledger → Prop} :
    Triple (world (Losing z)) E I Engine.isCancelled fun cancelled a =>
      if cancelled then C a else I a := by
  intro a ha cancelled a' hstep
  cases hstep
  exact ha

theorem emit_losing {I : Ledger → Prop} {e : OtaEvent} {Q : Unit → Ledger → Prop}
    (h : ∀ a, I a → Q () (a.emit e)) : Triple (world (Losing z)) E I (Engine.emit e) Q := by
  intro a ha x a' hstep
  cases hstep
  exact h a ha

/-- A property of the record alone. -/
theorem emitError_losing {C : List (Frame × Fate) → Prop} {message : String} :
    Triple (world (Losing z)) E (fun a => C a.fates) (Engine.emitError message)
      fun _ a => C a.fates :=
  (emit_losing (Q := fun _ a => C a.fates) fun _ h => h).bind fun _ => emit_losing fun _ h => h

/-- The record has a property that is never lost again, and the device is in `K`. -/
structure Kept (C : List (Frame × Fate) → Prop) (size : UInt32) (K : Dev → Prop) (a : Ledger) :
    Prop where
  record : C a.fates
  dev : At size K a.bench

theorem Kept.emit {C : List (Frame × Fate) → Prop} (h : Kept C size K a) (e : OtaEvent) :
    Kept C size K (a.emit e) :=
  ⟨h.record, h.dev.emit e⟩

/-- The attempts of a request that leaves the device in `K`. -/
theorem sendFrame_kept {C : List (Frame × Fate) → Prop} (hC : ∀ l m, C l → C (l ++ m))
    (hE : ∀ e a, C a.fates → E e a) (hlog : f.command ≠ Pc.cmdGetLog) (hK : Takes z size K f D K) :
    Triple (world (Losing z)) E (Kept C size K) (Engine.sendFrame f label config)
      fun resp a => D resp.data ∧ Kept C size K a := by
  have hattempts : Attempts (world (Losing z)) E config f (fun _ => Kept C size K)
      (fun _ => Kept C size K) (fun _ => Kept C size K)
      fun resp a => D resp.data ∧ Kept C size K a := by
    refine ⟨fun a ha => hE _ a ha.record, fun _ => look_losing, fun _ a ha => ?_,
      fun _ a ha _ _ hstep => ?_,
      fun _ a ha => wp_mono (emitError_losing a ha.record) fun _ => hE _⟩
    · exact wp_attempt_losing hlog hK ha.dev (fun _ => ⟨hC _ _ ha.record, ha.dev⟩)
        (fun _ _ hb => ⟨hC _ _ ha.record, hb⟩) fun _ _ hD hb => ⟨hD, hC _ _ ha.record, hb⟩
    · cases hstep
      exact ha
  exact hattempts.sendFrame

/-- `m` are the failed attempts of `f`, and so many are left. The first time that the request
arrives it finds the device in `P`, afterwards in `N`. -/
structure Trying (n : Nat) (size : UInt32) (P N : Dev → Prop) (f : Frame)
    (fates m : List (Frame × Fate)) (left : Nat) (a : Ledger) : Prop where
  record : a.fates = fates ++ m
  clear : Clear n fates
  tried : Tried f m
  count : m.length + left = n
  dev : (f, .unanswered) ∉ m ∧ At size P a.bench ∨ (f, .unanswered) ∈ m ∧ At size N a.bench

theorem Trying.spent (h : Trying n size P N f fates m 0 a) : ¬ Survived n a.fates := by
  rw [h.record]
  exact not_survived_of_tried h.tried h.count

theorem Trying.snoc {left : Nat} {fate : Fate} {b : Bench}
    (h : Trying n size P N f fates m (left + 1) a) (hfate : fate ≠ .answered)
    (hdev : (f, .unanswered) ∉ m ++ [(f, fate)] ∧ At size P b ∨
      (f, .unanswered) ∈ m ++ [(f, fate)] ∧ At size N b) :
    Trying n size P N f fates (m ++ [(f, fate)]) left ⟨b, a.fates ++ [(f, fate)]⟩ where
  record := by rw [h.record, List.append_assoc]
  clear := h.clear
  tried := by
    intro e he
    obtain he | he := List.mem_append.1 he
    · exact h.tried e he
    · obtain rfl := List.mem_singleton.1 he
      exact ⟨rfl, hfate⟩
  count := by
    have hcount := h.count
    rw [List.length_append, List.length_singleton]
    omega
  dev := hdev

/-- Survived so far, with the device in `P`. -/
structure Doing (n : Nat) (size : UInt32) (P : Dev → Prop) (a : Ledger) : Prop where
  clear : Clear n a.fates
  dev : At size P a.bench

theorem Doing.emit (h : Doing n size P a) (e : OtaEvent) : Doing n size P (a.emit e) :=
  ⟨h.clear, h.dev.emit e⟩

theorem Doing.imp (h : Doing n size P a) (hP : ∀ d, P d → N d) : Doing n size N a :=
  ⟨h.clear, h.dev.imp (hP _)⟩

/-- Not survived, with the device in `K`. -/
abbrev Hopeless (n : Nat) (size : UInt32) (K : Dev → Prop) (a : Ledger) : Prop :=
  Kept (fun fates => ¬ Survived n fates) size K a

theorem sendFrame_hopeless (hlog : f.command ≠ Pc.cmdGetLog) (hK : Takes z size K f D K) :
    Triple (world (Losing z)) (fun _ a => ¬ Survived n a.fates) (Hopeless n size K)
      (Engine.sendFrame f label config) fun resp a => D resp.data ∧ Hopeless n size K a :=
  sendFrame_kept (fun _ _ hl hs => hl hs.of_append) (fun _ _ h => h) hlog hK

/-- The response comes to the first request that arrives. -/
theorem Trying.first {left : Nat} {b : Bench} (h : Trying n size P N f fates m (left + 1) a)
    (hno : (f, .unanswered) ∉ m) (hb : At size P₁ b) :
    Doing n size P₁ ⟨b, a.fates ++ [(f, .answered)]⟩ := by
  refine ⟨?_, hb⟩
  have hcount := h.count
  rw [h.record]
  exact h.clear.snoc h.tried (by omega) fun hyes => absurd hyes hno

/-- The response comes to a request that the device had before. -/
theorem Trying.again {left : Nat} {b : Bench} (h : Trying n size P N f fates m (left + 1) a)
    (hyes : (f, .unanswered) ∈ m) (hb : At size N₁ b) :
    ¬ Once f ∧ Doing n size N₁ ⟨b, a.fates ++ [(f, .answered)]⟩ ∨
      Once f ∧ Hopeless n size N₁ ⟨b, a.fates ++ [(f, .answered)]⟩ := by
  have hcount := h.count
  by_cases honce : Once f
  · refine Or.inr ⟨honce, ?_, hb⟩
    change ¬ Survived n (a.fates ++ _)
    rw [h.record]
    exact not_survived_of_once hyes honce
  · refine Or.inl ⟨honce, ?_, hb⟩
    rw [h.record]
    exact h.clear.snoc h.tried (by omega) fun _ => honce

/-- **The attempts of a request**, if all has been well before it. -/
theorem sendFrame_doing (hlog : f.command ≠ Pc.cmdGetLog) (hP : Takes z size P f D₁ P₁)
    (hN : Takes z size N f D₂ N₁) (hP₁ : ∀ d, P₁ d → N d) (hN₁ : ∀ d, N₁ d → N d) :
    Triple (world (Losing z)) (fun _ a => ¬ Survived config.maxRetries a.fates)
      (Doing config.maxRetries size P) (Engine.sendFrame f label config) fun resp a =>
        D₁ resp.data ∧ Doing config.maxRetries size P₁ a ∨
          D₂ resp.data ∧ (¬ Once f ∧ Doing config.maxRetries size N₁ a ∨
            Once f ∧ Hopeless config.maxRetries size N₁ a) := by
  let I (left : Nat) (a : Ledger) : Prop :=
    ∃ fates m, Trying config.maxRetries size P N f fates m left a
  have hattempts : Attempts (world (Losing z)) (fun _ a => ¬ Survived config.maxRetries a.fates)
      config f I (fun left => I (left + 1)) I fun resp a =>
        D₁ resp.data ∧ Doing config.maxRetries size P₁ a ∨
          D₂ resp.data ∧ (¬ Once f ∧ Doing config.maxRetries size N₁ a ∨
            Once f ∧ Hopeless config.maxRetries size N₁ a) := by
    refine ⟨fun a ⟨_, _, ha⟩ => ha.spent, fun _ => look_losing, ?_, fun left a ha _ _ hstep => ?_,
      fun _ a ⟨_, _, ha⟩ => emitError_losing (C := fun l => ¬ Survived _ l) a ha.spent⟩
    · rintro left a ⟨fates, m, ha⟩
      obtain ⟨hno, hb⟩ | ⟨hyes, hb⟩ := ha.dev
      · refine wp_attempt_losing hlog hP hb (fun _ => ⟨fates, _, ha.snoc (by decide) ?_⟩)
          (fun _ _ hb' => ⟨fates, _, ha.snoc (by decide) ?_⟩)
          fun _ _ hD hb' => Or.inl ⟨hD, ha.first hno hb'⟩
        · exact Or.inl ⟨by simp [hno], hb⟩
        · exact Or.inr ⟨by simp, hb'.imp (hP₁ _)⟩
      · refine wp_attempt_losing hlog hN hb (fun _ => ⟨fates, _, ha.snoc (by decide) ?_⟩)
          (fun _ _ hb' => ⟨fates, _, ha.snoc (by decide) ?_⟩)
          fun _ _ hD hb' => Or.inr ⟨hD, ha.again hyes hb'⟩
        · exact Or.inr ⟨by simp [hyes], hb⟩
        · exact Or.inr ⟨by simp, hb'.imp (hN₁ _)⟩
    · cases hstep
      exact ha
  refine fun a ha => hattempts.sendFrame a ⟨a.fates, [], ?_⟩
  exact ⟨(List.append_nil _).symm, ha.clear, fun _ he => absurd he List.not_mem_nil,
    Nat.zero_add _, Or.inl ⟨List.not_mem_nil, ha.dev⟩⟩

/-- A request that may come again, and is taken in the same way. -/
theorem sendFrame_again (hlog : f.command ≠ Pc.cmdGetLog) (honce : ¬ Once f)
    (hP : Takes z size P f D P₁) (hP₁ : Takes z size P₁ f D P₁) :
    Triple (world (Losing z)) (fun _ a => ¬ Survived config.maxRetries a.fates)
      (Doing config.maxRetries size P) (Engine.sendFrame f label config)
      fun resp a => D resp.data ∧ Doing config.maxRetries size P₁ a := by
  refine (sendFrame_doing hlog hP hP₁ (fun _ hd => hd) fun _ hd => hd).mono ?_
  rintro resp a (h | ⟨hD, ⟨-, ha⟩ | ⟨ho, -⟩⟩)
  · exact h
  · exact ⟨hD, ha⟩
  · exact absurd ho honce

/-- A step whose response is no error. -/
theorem report_losing {resp : Frame} {settle : Frame → Settled α} {I : Ledger → Prop}
    {Q : α → Ledger → Prop} (hD : resp.data ≠ fail4)
    (h : Triple (world (Losing z)) E I (settle resp).report Q) :
    Triple (world (Losing z)) E I (checked label resp (settle resp)).report Q := by
  rw [checked_of_not_error (isErrorResponse_eq_false_iff.2 hD)]
  exact h

/-- A step that may be repeated, and is done when it is answered. -/
theorem step_again {stage : UpgradeStage} (hlog : f.command ≠ Pc.cmdGetLog) (honce : ¬ Once f)
    (hD : ∀ l, D l → l ≠ fail4) (hP : Takes z size P f D P₁) (hP₁ : Takes z size P₁ f D P₁) :
    Triple (world (Losing z)) (fun _ a => ¬ Survived config.maxRetries a.fates)
      (Doing config.maxRetries size P) (step stage f label config settleAny)
      fun _ => Doing config.maxRetries size P₁ :=
  step_triple (emit_losing fun _ h => h.emit _) (sendFrame_again hlog honce hP hP₁) fun _ =>
    Triple.of_and fun hd => report_losing (hD _ hd) fun _ h => h

theorem step_hopeless {stage : UpgradeStage} (hlog : f.command ≠ Pc.cmdGetLog)
    (hD : ∀ l, D l → l ≠ fail4) (hK : Takes z size K f D K) :
    Triple (world (Losing z)) (fun _ a => ¬ Survived n a.fates) (Hopeless n size K)
      (step stage f label config settleAny) fun _ => Hopeless n size K :=
  step_triple (emit_losing fun _ h => h.emit _) (sendFrame_hopeless hlog hK) fun _ =>
    Triple.of_and fun hd => report_losing (hD _ hd) fun _ h => h

/-- The poll of the log leaves the device and the record alone. -/
theorem pollLogs_losing :
    Triple (world (Losing z)) E (Doing n size P) Engine.pollLogs fun _ => Doing n size P := by
  refine pollLogs_triple fun a ha => ?_
  have hafter (x : Exchange) (hx : ∀ k, (x.flash k).err = 0) :
      At size P (a.bench.exchange z x (plainFrame Pc.cmdGetLog [])) := by
    obtain ⟨-, hd, hrun, hsize⟩ := replies_getLog (z := z) ha.dev.running x hx
    rw [← Bench.exchange_device] at hd hrun hsize
    exact ⟨hd ▸ ha.dev.device, hrun, hsize.trans ha.dev.slotSize⟩
  intro r a' hstep
  cases hstep with
  | lost => exact ha
  | unanswered _ _ _ _ x hx => exact ⟨ha.clear, hafter x hx⟩
  | answered _ _ _ x hx => exact ⟨ha.clear, hafter x hx⟩

theorem pollLogs_fates {C : List (Frame × Fate) → Prop} :
    Triple (world (Losing z)) E (fun a => C a.fates) Engine.pollLogs fun _ a => C a.fates := by
  refine pollLogs_triple fun a ha r a' hstep => ?_
  cases hstep <;> exact ha

end

/-! ## What the device takes, and takes again -/

section

variable {d : Dev} {s : Session} {pkt : FirmwarePacket} {total : UInt16} {i : Nat}
  {K : Dev → Prop}

/-- Part of `fw` is missing. -/
structure Missing (fw : List UInt8) (d : Dev) : Prop where
  inProgress : d.ota.inProgress = true
  received : d.ota.receivedSize.toNat < fw.length

/-- And the device takes no more of it. -/
abbrev Doomed (fw : List UInt8) (d : Dev) : Prop := d.ota.status = .error ∧ Missing fw d

theorem takes_start (size : UInt32) (fw : List UInt8) (crc : UInt32) : Takes z size
    (fun d => Ready d ∧ fw.length ≤ size.toNat) (Pc.startFrame fw crc)
    (· = 0x00 :: Bytes.le16 maxPacketSize ++ [100]) (InSession · (sessionOf fw crc)) := by
  rintro d ⟨hready, hfit⟩ hrun rfl
  exact ⟨_, rfl, replies_start hrun hready hfit⟩

/-- START is refused as long as the device is not ready for it. -/
theorem takes_start_refused (size : UInt32) (hfw : fw.length < 2 ^ 32) (crc : UInt32) : Takes z size
    (fun d => ¬ (Ready d ∧ fw.length ≤ size.toNat)) (Pc.startFrame fw crc) (· = fail4)
    (fun d => ¬ (Ready d ∧ fw.length ≤ size.toNat)) := by
  rintro d hno hrun rfl
  refine ⟨_, rfl, (replies_start_refused hrun hfw hno).imp fun d' hd' => ?_⟩
  rwa [Ready, hd'.1]

theorem takes_data (size : UInt32) (total : UInt16) (i : Nat) (hz : z.Documented)
    (hoff : pkt.offset = UInt32.ofNat s.bytes.length)
    (hfit : s.bytes.length + pkt.data.length ≤ s.size.toNat) (hlen : pkt.data.length ≤ 4096) :
    Takes z size (InSession · s) (Pc.dataFrame total i pkt) (· ≠ fail4)
      (InSession · (s.accept pkt.data)) := by
  intro d hs _ _
  exact ⟨_, by simp [ackBytes, fail4], replies_data hz hs hoff hfit hlen⟩

theorem frame_data (total : UInt16) (i : Nat) (hlen : pkt.data.length ≤ 4096) (x : Exchange) :
    (x.frame (Pc.dataFrame total i pkt)).IsCmd cmdTransferData ∧
      (x.frame (Pc.dataFrame total i pkt)).offset = pkt.offset ∧
      4 ≤ (x.frame (Pc.dataFrame total i pkt)).dataLen := by
  have hshort : (Pc.dataFrame total i pkt).data.length ≤ 65535 := by
    rw [Pc.dataFrame, List.length_append, Bytes.length_le32]
    omega
  obtain ⟨hoffset, -, -, hle⟩ := data_of_payload (payload_frame x hshort)
  exact ⟨isCmd_frame x rfl, hoffset, hle⟩

/-- DATA at another place than the next one. -/
theorem takes_data_elsewhere (size : UInt32) (total : UInt16) (i : Nat)
    (hlen : pkt.data.length ≤ 4096)
    (hoff : pkt.offset ≠ UInt32.ofNat s.bytes.length)
    (hK : ∀ d, InSession d s → K { d with ota := d.ota.failed .offsetError }) :
    Takes z size (InSession · s) (Pc.dataFrame total i pkt) (· ≠ fail4)
      (fun d => d.ota.status = .error ∧ K d) := by
  intro d hs hrun _
  refine ⟨[0x01, 0xFF, 0xFF, 0xFF, 0xFF], by decide, replies_of fun x _ => ?_⟩
  obtain ⟨hc, hoffset, hle⟩ := frame_data total i hlen x
  have hcur : (x.frame (Pc.dataFrame total i pkt)).offset ≠ d.ota.currentOffset := by
    rw [hoffset, hs.offset, ← UInt32.ofNat_toNat (x := d.ota.receivedSize), hs.received]
    exact hoff
  have hh := handles_frame (z := z) x d (Pc.dataFrame total i pkt)
  generalize otaFrameProcess z x.flash d (x.frame (Pc.dataFrame total i pkt)) = r at hh
  cases hh with
  | dataOffset => exact ⟨rfl, ⟨rfl, hK d hs⟩, hrun⟩
  | dataRefused _ hg =>
    obtain hp | hst | hl := hg
    · exact absurd hs.inProgress (by simp [hp])
    · exact absurd hs.status hst
    · exact absurd hle (UInt16.not_le.2 hl)
  | dataTooLarge _ ho => exact absurd ho hcur
  | dataWriteFailed hp | dataAccepted hp => exact absurd hp.offset hcur
  | inquiry _ _ hn => exact absurd hc.2 (hn _ (by simp))
  | ignored hn => exact absurd hc.1 hn
  | _ => grind

/-- DATA outside STATUS_RECEIVING. -/
theorem takes_data_error : Takes z size (fun d => d.ota.status = .error ∧ K d)
    (Pc.dataFrame total i pkt) (· ≠ fail4) (fun d => d.ota.status = .error ∧ K d) := by
  rintro d ⟨hs, hk⟩ hrun -
  refine ⟨fail5, by decide, replies_of fun x _ => ?_⟩
  have hcmd : (x.frame (Pc.dataFrame total i pkt)).cmd = cmdTransferData := cmd_received _ x.junk
  have hproc : otaFrameProcess z x.flash d (x.frame (Pc.dataFrame total i pkt)) =
      ([.send (x.frame (Pc.dataFrame total i pkt)).seq cmdTransferData fail5], d) := by
    rw [otaFrameProcess_addressed z _ d _ (Or.inl (dstAddr_received _ x.junk)), hcmd]
    exact if_pos (Or.inr (by simp [hs]))
  rw [hproc]
  exact ⟨rfl, ⟨hs, hk⟩, hrun⟩

theorem takes_done (hfw : fw.length < 2 ^ 32) : Takes z size (Filled fw)
    (Pc.doneFrame fw (Crc32.hash fw)) (· ≠ fail4) (fun d => Completed fw d ∧ Filled fw d) := by
  intro d hd hrun _
  exact ⟨_, by simp [ackBytes, fail4], replies_done hfw hrun hd⟩

/-- DONE for a part of the image. -/
theorem takes_done_doomed (hfw : fw.length < 2 ^ 32) (crc : UInt32) :
    Takes z size (Doomed fw) (Pc.doneFrame fw crc) (· ≠ fail4) (Doomed fw) := by
  intro d hd hrun _
  refine ⟨fail5, by decide, replies_of fun x _ => ?_⟩
  have hc : (x.frame (Pc.doneFrame fw crc)).IsCmd cmdTransferDone := isCmd_frame x rfl
  have hsize : (x.frame (Pc.doneFrame fw crc)).doneSize ≠ d.ota.receivedSize := by
    rw [(done_of_payload (payload_frame x (f := Pc.doneFrame fw crc)
      (by simp [Pc.doneFrame]))).2]
    intro he
    have hlt := hd.2.received
    rw [← he, UInt32.toNat_ofNat_of_lt' hfw] at hlt
    exact lt_irrefl _ hlt
  have hh := handles_frame (z := z) x d (Pc.doneFrame fw crc)
  generalize otaFrameProcess z x.flash d (x.frame (Pc.doneFrame fw crc)) = r at hh
  cases hh with
  | doneRefused _ hp => exact absurd hd.2.inProgress (by simp [hp])
  | doneMismatch => exact ⟨rfl, ⟨rfl, hd.2.inProgress, hd.2.received⟩, hrun⟩
  | doneAccepted hp => exact absurd hp.size hsize
  | inquiry _ _ hn => exact absurd hc.2 (hn _ (by simp))
  | ignored hn => exact absurd hc.1 hn
  | _ => grind

theorem takes_verify (hz : z.Documented) : Takes z size (fun d => Completed fw d ∧ Filled fw d)
    (plainFrame cmdVerifyFirmware []) (· = ackBytes 0x00 (Crc32.hash fw)) (Stored fw) :=
  fun _ hd _ _ => ⟨_, rfl, replies_verify hz hd.1⟩

/-- VERIFY outside STATUS_COMPLETE. -/
theorem takes_verify_refused (hK : ∀ d, K d → d.ota.status ≠ .complete) :
    Takes z size K (plainFrame cmdVerifyFirmware []) (· = fail5) K := by
  intro d hk hrun _
  refine ⟨_, rfl, replies_of fun x _ => ?_⟩
  have hcmd : (x.frame (plainFrame cmdVerifyFirmware [])).cmd = cmdVerifyFirmware :=
    cmd_received _ x.junk
  have hproc : otaFrameProcess z x.flash d (x.frame (plainFrame cmdVerifyFirmware [])) =
      ([.send (x.frame (plainFrame cmdVerifyFirmware [])).seq cmdVerifyFirmware fail5], d) := by
    rw [otaFrameProcess_addressed z _ d _ (Or.inl (dstAddr_received _ x.junk)), hcmd]
    exact if_pos (hK d hk)
  rw [hproc]
  exact ⟨rfl, hk, hrun⟩

end

section

variable {d : Dev} {crc : UInt32} {s : Session}

theorem takes_handshake (size : UInt32) (d : Dev) :
    Takes z size (· = d) (plainFrame cmdHandshake [])
      (· = [d.ota.status.byte, protocolVersionMinor, protocolVersionMajor]) (· = d) := by
  rintro _ rfl hrun _
  exact ⟨_, rfl, replies_handshake hrun⟩

theorem takes_getDevInfo (size : UInt32) (d : Dev) :
    Takes z size (· = d) (plainFrame cmdGetDevInfo []) (· = devInfoBytes d.ota.slot0Offset)
      (· = d) := by
  rintro _ rfl hrun _
  exact ⟨_, rfl, replies_getDevInfo hrun⟩

/-- The last two requests are refused, which no one notices. -/
theorem takes_refused (size : UInt32) (fw : List UInt8) (ha : f.dstAddr = addrDevice)
    (hf : f.command = cmdSetBootFlag ∧ f.data = [1] ∨ f.command = cmdResetRun) :
    Takes z size (Stored fw) f (· = [0xFF]) (Stored fw) := by
  intro d hd hrun _
  have hs : d.ota.status ≠ .complete := by simp [hd.status]
  exact ⟨_, rfl, (replies_refused hrun hs ha hf).imp fun _ he => he ▸ hd⟩

/-- Five bytes of 0xFF are no error response, but no match either. -/
theorem parseVerifyResponse_fail5 {resp : Frame} (h : resp.data = fail5) :
    Pc.parseVerifyResponse resp = some (0xFF, 0xFFFFFFFF) := by
  rw [Pc.parseVerifyResponse, Pc.parseStatusWord, h]
  rfl

theorem once_dataFrame {pkt : FirmwarePacket} {total : UInt16} {i : Nat} (hi : i < total.toNat) :
    Once (Pc.dataFrame total i pkt) ↔ i + 1 < total.toNat := by
  have hseq : (UInt16.ofNat i).toNat = i :=
    UInt16.toNat_ofNat_of_lt' (hi.trans total.toNat_lt)
  constructor
  · rintro (h | h | ⟨-, h⟩)
    · cases h
    · cases h
    · rwa [Pc.dataFrame, hseq] at h
  · refine fun h => Or.inr (Or.inr ⟨rfl, ?_⟩)
    rwa [Pc.dataFrame, hseq]

/-- The device expects the next packet, not this one again. -/
theorem offset_ne_accept {pkt : FirmwarePacket}
    (hoff : pkt.offset = UInt32.ofNat s.bytes.length) (hpos : 1 ≤ pkt.data.length)
    (hlt : s.bytes.length + pkt.data.length < 2 ^ 32) :
    pkt.offset ≠ UInt32.ofNat (s.accept pkt.data).bytes.length := by
  rw [Session.bytes_accept, List.length_append]
  intro he
  have hnat := congrArg UInt32.toNat (hoff.symm.trans he)
  rw [UInt32.toNat_ofNat_of_lt' (Nat.lt_of_le_of_lt (Nat.le_add_right _ _) hlt),
    UInt32.toNat_ofNat_of_lt' hlt] at hnat
  omega

end

/-! ## The steps of an upgrade -/

section

variable {d : Dev} {crc : UInt32} {s : Session}

theorem report_deviceInfo {I : Ledger → Prop} {E : Failure → Ledger → Prop} {resp : Frame}
    (hI : ∀ a e, I a → I (a.emit e)) (hd : resp.data = devInfoBytes d.ota.slot0Offset)
    (hfw : fw.length < 2 ^ 32) (hE : flashTotalSize < fw.length → ∀ e a, I a → E e a) :
    Triple (world (Losing z)) E I
      (checked label resp (settleDeviceInfo (UInt32.ofNat fw.length) resp)).report
      fun _ a => fw.length ≤ flashTotalSize ∧ I a := by
  refine report_losing (hd ▸ devInfoBytes_ne_fail4 _) ?_
  have houtcome := outcome_deviceInfo hd hfw
  have hemit {e : OtaEvent} : Triple (world (Losing z)) E I (Engine.emit e) fun _ => I :=
    emit_losing fun a => hI a e
  by_cases hbig : flashTotalSize < fw.length
  · rw [if_pos hbig] at houtcome
    refine report_triple (fun _ => hemit) (fun _ h => ?_) (fun _ h => ?_) fun _ _ => ?_
    · cases houtcome.symm.trans h
    · cases houtcome.symm.trans h
    · exact hemit.bind fun _ => hemit.mono fun _ => hE hbig _
  · rw [if_neg hbig] at houtcome
    refine report_triple (fun _ => hemit) (fun _ _ _ ha => ⟨Nat.not_lt.1 hbig, ha⟩)
      (fun _ h => ?_) fun _ h => ?_
    · cases houtcome.symm.trans h
    · cases houtcome.symm.trans h

/-- START of an image that fits, on a device that takes it. -/
theorem start_losing (hfw : fw.length < 2 ^ 32) (hready : Ready d) (hfit : fw.length ≤ size.toNat) :
    Triple (world (Losing z)) (fun _ a => ¬ Survived config.maxRetries a.fates)
      (Doing config.maxRetries size (· = d))
      (step .erasing (Pc.startFrame fw crc) label config settleStart) fun chunkSize a =>
        chunkSize = 1024 ∧ Doing config.maxRetries size (InSession · (sessionOf fw crc)) a := by
  have hlog : (Pc.startFrame fw crc).command ≠ Pc.cmdGetLog :=
    show Pc.cmdStartUpgrade ≠ Pc.cmdGetLog by decide
  have hbusy : ∀ d, InSession d (sessionOf fw crc) → ¬ (Ready d ∧ fw.length ≤ size.toNat) := by
    rintro d hs ⟨hr | hr, -⟩ <;> simp [hs.status] at hr
  have hP := (takes_start (z := z) size fw crc).of_imp
    (N := (· = d)) fun _ hd => ⟨hd ▸ hready, hfit⟩
  refine step_triple (emit_losing fun _ h => h.emit _)
    (sendFrame_doing hlog hP (takes_start_refused size hfw crc) hbusy fun _ hd => hd) ?_
  rintro resp a (⟨hd, ha⟩ | ⟨hd, ⟨hno, -⟩ | ⟨-, hbad⟩⟩)
  · refine report_losing (hd ▸ by simp [fail4]) (I := (· = a)) ?_ a rfl
    have hparse : Pc.parseStartUpgradeResponse resp = some (0x00, maxPacketSize, 100) := by
      rw [Pc.parseStartUpgradeResponse, hd]
      rfl
    rw [settleStart, hparse]
    rintro _ rfl
    exact ⟨by decide, ha⟩
  · exact absurd (Or.inl rfl) hno
  · -- The device refuses what it had accepted.
    rw [checked, if_pos (isErrorResponse_iff.2 hd)]
    exact hbad.record

/-- Survived so far, with the device in `P`; or not, with part of `fw` missing for good. -/
def Undecided (n : Nat) (size : UInt32) (fw : List UInt8) (P : Dev → Prop) (a : Ledger) : Prop :=
  Doing n size P a ∨ Hopeless n size (Doomed fw) a

theorem Undecided.emit {P : Dev → Prop} (h : Undecided n size fw P a) (e : OtaEvent) :
    Undecided n size fw P (a.emit e) :=
  h.imp (fun h => h.emit e) fun h => h.emit e

theorem Undecided.imp {P N : Dev → Prop} (h : Undecided n size fw P a) (hP : ∀ d, P d → N d) :
    Undecided n size fw N a :=
  h.imp_left fun h => h.imp hP

/-- What the device has before packet `i`: the packets left bring the rest, or the last came
twice. -/
def Awaits (fw : List UInt8) (total i : Nat) (packets : List FirmwarePacket) (d : Dev) : Prop :=
  (∃ s, InSession d s ∧ Lacks fw packets s ∧ i + packets.length = total ∧
    ∀ pkt ∈ packets, 1 ≤ pkt.data.length) ∨ packets = [] ∧ Filled fw d

theorem Awaits.filled {total i : Nat} (h : Awaits fw total i [] d) : Filled fw d := by
  obtain ⟨s, hs, hlacks, -⟩ | ⟨-, hfilled⟩ := h
  · exact filled_of_session hs ((List.append_nil _).symm.trans hlacks.rest)
  · exact hfilled

/-- **One packet.** Without the response to it, the next attempt is at the wrong place; what is left
in `slot1` is then all of the image, or never will be. -/
theorem sendFrame_packet (hz : z.Documented) (hfw : fw.length < 2 ^ 32) {total : UInt16} {i : Nat}
    {pkt : FirmwarePacket} {packets : List FirmwarePacket} (hlacks : Lacks fw (pkt :: packets) s)
    (hcount : i + (pkt :: packets).length = total.toNat)
    (hne : ∀ p ∈ pkt :: packets, 1 ≤ p.data.length) :
    Triple (world (Losing z)) (fun _ a => ¬ Survived config.maxRetries a.fates)
      (Doing config.maxRetries size (InSession · s))
      (Engine.sendFrame (Pc.dataFrame total i pkt) label config) fun resp a =>
        resp.data ≠ fail4 ∧
          Undecided config.maxRetries size fw (Awaits fw total.toNat (i + 1) packets) a := by
  obtain ⟨hpos, hne⟩ := List.forall_mem_cons.1 hne
  have hshort := hlacks.short pkt List.mem_cons_self
  have hoff := hlacks.contiguous.1
  have hsum : s.bytes.length + pkt.data.length + (packets.map (·.data)).flatten.length =
      fw.length := by
    rw [← hlacks.rest, List.map_cons, List.flatten_cons, List.length_append, List.length_append,
      Nat.add_assoc]
  have hother := offset_ne_accept hoff hpos (by omega)
  have hlog : (Pc.dataFrame total i pkt).command ≠ Pc.cmdGetLog :=
    show cmdTransferData ≠ Pc.cmdGetLog by decide
  have hfit : s.bytes.length + pkt.data.length ≤ s.size.toNat := le_trans (by omega) hlacks.fits
  have hP := takes_data (z := z) size total i hz hoff hfit hshort
  rw [List.length_cons] at hcount
  have hnext (a : Ledger) (ha : Doing config.maxRetries size (InSession · (s.accept pkt.data)) a) :
      Doing config.maxRetries size (Awaits fw total.toNat (i + 1) packets) a :=
    ha.imp fun _ hs => Or.inl ⟨_, hs, hlacks.accept, by omega, hne⟩
  by_cases hlast : packets = []
  · subst hlast
    have honce : ¬ Once (Pc.dataFrame total i pkt) := by
      rw [List.length_nil] at hcount
      rw [once_dataFrame (by omega)]
      omega
    have hN := (takes_data_elsewhere (z := z) size total i (K := Filled fw) hshort hother
      fun d hs => by
        have hawaits : Awaits fw total.toNat (i + 1) [] d :=
          Or.inl ⟨_, hs, hlacks.accept, hcount, hne⟩
        have hf := hawaits.filled
        exact ⟨hf.inProgress, hf.received, hf.image⟩).or takes_data_error
    refine (sendFrame_doing hlog hP hN (fun _ => Or.inl) fun _ => Or.inr).mono ?_
    rintro resp a (⟨hD, ha⟩ | ⟨hD, ⟨-, ha⟩ | ⟨ho, -⟩⟩)
    · exact ⟨hD, Or.inl (hnext a ha)⟩
    · exact ⟨hD, Or.inl (ha.imp fun _ hd => Or.inr ⟨rfl, hd.2⟩)⟩
    · exact absurd ho honce
  · have hmore := List.length_pos_of_ne_nil hlast
    have honce : Once (Pc.dataFrame total i pkt) := by
      rw [once_dataFrame (by omega)]
      omega
    have hrest : (s.accept pkt.data).bytes.length < fw.length := by
      obtain ⟨p, ps, rfl⟩ := List.exists_cons_of_ne_nil hlast
      have hp := hne p List.mem_cons_self
      rw [List.map_cons, List.flatten_cons, List.length_append] at hsum
      rw [Session.bytes_accept, List.length_append]
      omega
    have hN := (takes_data_elsewhere (z := z) size total i (K := Missing fw) hshort hother
      fun d hs => ⟨hs.inProgress, hs.received.trans_lt hrest⟩).or takes_data_error
    refine (sendFrame_doing hlog hP hN (fun _ => Or.inl) fun _ => Or.inr).mono ?_
    rintro resp a (⟨hD, ha⟩ | ⟨hD, ⟨hno, -⟩ | ⟨-, hbad⟩⟩)
    · exact ⟨hD, Or.inl (hnext a ha)⟩
    · exact absurd honce hno
    · exact ⟨hD, Or.inr hbad⟩

/-- The body of the transfer loop, also when all is lost already. -/
theorem transferPacket_losing (hz : z.Documented) (hfw : fw.length < 2 ^ 32) {total : UInt16}
    {fwSize : UInt32} {i : Nat} {pkt : FirmwarePacket} {packets : List FirmwarePacket}
    (hlen : pkt.data.length ≤ 65531) :
    Triple (world (Losing z)) (fun _ a => ¬ Survived config.maxRetries a.fates)
      (Undecided config.maxRetries size fw (Awaits fw total.toNat i (pkt :: packets)))
      (transferPacket total fwSize config i pkt)
      fun _ => Undecided config.maxRetries size fw (Awaits fw total.toNat (i + 1) packets) := by
  refine transferPacket_triple (C := fun _ => False) hlen look_losing (fun _ h => h.elim)
    (R := fun resp a => resp.data ≠ fail4 ∧
      Undecided config.maxRetries size fw (Awaits fw total.toNat (i + 1) packets) a)
    ?_ ?_ fun _ _ => ?_
  · rintro a (⟨hclear, ⟨⟨s, hs, hlacks, hcount, hne⟩ | ⟨hnil, -⟩, hrun, hsize⟩⟩ | hbad)
    · exact sendFrame_packet hz hfw hlacks hcount hne a ⟨hclear, hs, hrun, hsize⟩
    · cases hnil
    · refine wp_mono (sendFrame_hopeless (show cmdTransferData ≠ Pc.cmdGetLog by decide)
        takes_data_error a hbad) ?_
      exact fun _ _ ⟨hD, hb⟩ => ⟨hD, Or.inr hb⟩
  · exact fun resp a herr ha => absurd (isErrorResponse_iff.1 herr) ha.1
  · exact Triple.of_and fun _ => emit_losing fun a ha => ha.emit _

theorem transfer_losing (hz : z.Documented) (hsmall : fw.length ≤ flashTotalSize) :
    Triple (world (Losing z)) (fun _ a => ¬ Survived config.maxRetries a.fates)
      (Doing config.maxRetries size (InSession · (sessionOf fw crc)))
      (Engine.transfer fw (UInt32.ofNat fw.length) 1024 config)
      fun _ => Undecided config.maxRetries size fw (Filled fw) := by
  have hfw : fw.length < 2 ^ 32 := hsmall.trans_lt (by decide)
  have hcount : (Pc.splitIntoPackets fw 1024).length ≤ 2048 :=
    (Pc.length_split_le_iff fw 1024 (by decide) 2048).2 hsmall
  refine transfer_triple (by decide) (T := fun i packets =>
      Undecided config.maxRetries size fw
        (Awaits fw (UInt16.ofNat (Pc.splitIntoPackets fw 1024).length).toNat i packets))
    (emit_losing fun a ha => Or.inl ((ha.emit _).imp fun _ hs => Or.inl ⟨_, hs, ?_, ?_, ?_⟩))
    (fun _ _ _ => transferPacket_losing hz hfw) fun _ a ha => ?_
  · exact lacks_split hfw (by decide)
  · rw [UInt16.toNat_ofNat_of_lt' (hcount.trans_lt (by decide)), Nat.zero_add]
  · exact Pc.nonempty_split fw 1024
  · exact ha.imp fun _ => Awaits.filled

/-- DONE is taken again. -/
theorem done_losing (hfw : fw.length < 2 ^ 32) :
    Triple (world (Losing z)) (fun _ a => ¬ Survived config.maxRetries a.fates)
      (Undecided config.maxRetries size fw (Filled fw))
      (step .completing (Pc.doneFrame fw (Crc32.hash fw)) label config settleAny)
      fun _ => Undecided config.maxRetries size fw fun d => Completed fw d ∧ Filled fw d := by
  have hlog : (Pc.doneFrame fw (Crc32.hash fw)).command ≠ Pc.cmdGetLog :=
    show Pc.cmdTransferComplete ≠ Pc.cmdGetLog by decide
  have honce : ¬ Once (Pc.doneFrame fw (Crc32.hash fw)) := by
    rintro (hc | hc | ⟨hc, -⟩) <;> cases hc
  rintro a (ha | hbad)
  · exact wp_mono (step_again hlog honce (fun _ hD => hD) (takes_done hfw)
      ((takes_done hfw).of_imp fun _ hd => hd.2) a ha) fun _ _ => Or.inl
  · exact wp_mono (step_hopeless hlog (fun _ hD => hD) (takes_done_doomed hfw _) a hbad)
      fun _ _ => Or.inr

/-- VERIFY is refused where part of the image is missing, and where it was answered before. -/
theorem verify_losing (hz : z.Documented) :
    Triple (world (Losing z)) (fun _ a => ¬ Survived config.maxRetries a.fates)
      (Undecided config.maxRetries size fw fun d => Completed fw d ∧ Filled fw d)
      (step .verifying (plainFrame Pc.cmdVerifyFirmware []) label config (settleVerify crc))
      fun _ => Doing config.maxRetries size (Stored fw) := by
  have hlog : (plainFrame cmdVerifyFirmware []).command ≠ Pc.cmdGetLog := by decide
  refine step_triple (emit_losing fun a ha => ha.emit _)
    (R := fun resp a => resp.data = ackBytes 0x00 (Crc32.hash fw) ∧
        Doing config.maxRetries size (Stored fw) a ∨
      resp.data = fail5 ∧ ¬ Survived config.maxRetries a.fates) ?_ ?_
  · rintro a (ha | hbad)
    · refine wp_mono (sendFrame_doing hlog (takes_verify hz)
        (takes_verify_refused (K := fun d => d.ota.status = .verifying) fun d hd => by simp [hd])
        (fun d hd => hd.status) (fun _ hd => hd) a ha) ?_
      rintro resp a' (h | ⟨hd, ⟨hno, -⟩ | ⟨-, hbad⟩⟩)
      · exact Or.inl h
      · exact absurd (Or.inr (Or.inl rfl)) hno
      · exact Or.inr ⟨hd, hbad.record⟩
    · refine wp_mono (sendFrame_hopeless hlog
        (takes_verify_refused (K := Doomed fw) fun d hd => by simp [hd.1]) a hbad) ?_
      exact fun _ _ ⟨hd, h⟩ => Or.inr ⟨hd, h.record⟩
  · rintro resp a (⟨hd, ha⟩ | ⟨hd, hbad⟩)
    · refine report_losing (hd ▸ by simp [ackBytes, fail4]) (I := (· = a)) ?_ a rfl
      rw [settleVerify, show Pc.parseVerifyResponse resp = _ from parseStatusWord_ackBytes hd]
      rintro _ rfl
      exact ha
    · -- Five bytes of 0xFF are no error response, but no match either.
      refine report_losing (hd ▸ by decide) (I := fun a => ¬ Survived config.maxRetries a.fates)
        ?_ a hbad
      rw [settleVerify, parseVerifyResponse_fail5 hd]
      exact (emitError_losing (C := fun l => ¬ Survived _ l)).bind fun _ _ h => h

/-- The stations of an upgrade that the device takes. -/
def Standing (n : Nat) (size : UInt32) (fw : List UInt8) (d : Dev) : Station → Ledger → Prop
  | .connected | .informed => Doing n size (· = d)
  | .started chunkSize => fun a =>
    chunkSize = 1024 ∧ Doing n size (InSession · (sessionOf fw (Crc32.hash fw))) a
  | .transferred => Undecided n size fw (Filled fw)
  | .completed => Undecided n size fw fun d => Completed fw d ∧ Filled fw d
  | .verified | .flagged => Doing n size (Stored fw)

/-- **An upgrade that the device takes**: it fails if its losses are not survived. -/
theorem walk_losing (config : OtaConfig) (hz : z.Documented)
    (hsmall : fw.length ≤ flashTotalSize) (hready : Ready d) (hfit : fw.length ≤ size.toNat) :
    Walk (world (Losing z)) (fun _ a => ¬ Survived config.maxRetries a.fates) config fw
      (Crc32.hash fw) (Doing config.maxRetries size (· = d)) (Standing config.maxRetries size fw d)
      fun _ a => Survived config.maxRetries a.fates where
  look _ := failIfCancelled_triple look_losing
  handshake := step_again (by decide) (by decide) (by rintro _ rfl; simp [fail4])
    (takes_handshake size d) (takes_handshake size d)
  getDeviceInfo := by
    have hfw : fw.length < 2 ^ 32 := hsmall.trans_lt (by decide)
    refine step_triple (emit_losing fun _ h => h.emit _) (sendFrame_again (by decide) (by decide)
      (takes_getDevInfo size d) (takes_getDevInfo size d)) fun resp => Triple.of_and fun hd => ?_
    refine (report_deviceInfo (fun a e h => h.emit e) hd hfw fun hbig => ?_).mono fun _ _ h => h.2
    exact absurd hsmall (Nat.not_le.2 hbig)
  startUpgrade := start_losing (hsmall.trans_lt (by decide)) hready hfit
  transfer _ _ _ := Triple.of_and fun hchunk => hchunk ▸ transfer_losing hz hsmall
  transferComplete := done_losing (hsmall.trans_lt (by decide))
  verifyFirmware := verify_losing hz
  setBootFlag := by
    have hP := takes_refused (z := z) size fw (f := plainFrame Pc.cmdSetBootFlag [0x01]) rfl
      (Or.inl ⟨rfl, rfl⟩)
    refine setBootFlag_triple (emit_losing fun _ h => h.emit _)
      (sendFrame_again (by decide) (by decide) hP hP)
      (S := fun resp a => resp.data = [0xFF] ∧ Doing config.maxRetries size (Stored fw) a)
      (fun _ => Triple.of_and fun hd => ?_) fun _ => Triple.of_and fun hd => ?_
    · exact pollLogs_losing.mono fun _ _ h => ⟨hd, h⟩
    · exact report_losing (hd ▸ by decide) fun _ h => h
  finish := by
    have hP := takes_refused (z := z) size fw (f := plainFrame Pc.cmdResetRun (Bytes.le16 100)) rfl
      (Or.inr rfl)
    refine (step_again (by decide) (by decide) (by rintro _ rfl; decide) hP hP).bind fun _ => ?_
    exact emit_losing fun _ h => h.clear.survived

/-- **An upgrade that the device does not take** fails whatever is lost. -/
theorem walk_unsuited (config : OtaConfig) (hfw : fw.length < 2 ^ 32) (fwCrc : UInt32)
    (hno : fw.length ≤ flashTotalSize → ¬ (Ready d ∧ fw.length ≤ size.toNat)) :
    Walk (world (Losing z)) (fun _ _ => True) config fw fwCrc (Kept (fun _ => True) size (· = d))
      (fun
        | .connected, a => Kept (fun _ => True) size (· = d) a
        | .informed, a => fw.length ≤ flashTotalSize ∧ Kept (fun _ => True) size (· = d) a
        | _, _ => False)
      fun _ _ => False where
  look _ := failIfCancelled_triple look_losing
  handshake := step_triple (emit_losing fun _ h => h.emit _)
    (sendFrame_kept (fun _ _ h => h) (fun _ _ _ => trivial) (by decide) (takes_handshake size d))
    fun _ => Triple.of_and fun hd => report_losing (hd ▸ by simp [fail4]) fun _ h => h
  getDeviceInfo := step_triple (emit_losing fun _ h => h.emit _)
    (sendFrame_kept (fun _ _ h => h) (fun _ _ _ => trivial) (by decide) (takes_getDevInfo size d))
    fun _ => Triple.of_and fun hd =>
      report_deviceInfo (fun _ e h => h.emit e) hd hfw fun _ _ _ _ => trivial
  startUpgrade := by
    refine Triple.of_and fun hsmall => step_triple (B := Kept (fun _ => True) size
      fun d => ¬ (Ready d ∧ fw.length ≤ size.toNat)) (emit_losing fun a h => ?_)
      (sendFrame_kept (fun _ _ h => h) (fun _ _ _ => trivial)
        (show Pc.cmdStartUpgrade ≠ Pc.cmdGetLog by decide) (takes_start_refused size hfw fwCrc))
      fun _ => Triple.of_and fun hd => ?_
    · exact ⟨trivial, (h.dev.emit _).imp fun hd => hd ▸ hno hsmall⟩
    · rw [checked, if_pos (isErrorResponse_iff.2 hd)]
      exact fun _ _ => trivial
  transfer _ _ _ _ h := h.elim
  transferComplete _ h := h.elim
  verifyFirmware _ h := h.elim
  setBootFlag _ h := h.elim
  finish _ h := h.elim

end

/-! ## One upgrade -/

section

variable {crc32fastHash : List UInt8 → UInt32} {d : Dev}

/-- The device takes an image of this size. -/
def Suits (fw : List UInt8) (d : Dev) : Prop :=
  Ready d ∧ fw.length ≤ d.ota.slotSize.toNat ∧ fw.length ≤ flashTotalSize

instance (fw : List UInt8) (d : Dev) : Decidable (Suits fw d) :=
  inferInstanceAs (Decidable (_ ∧ _ ∧ _))

theorem doUpgrade_losing (hz : z.Documented) (hhash : ∀ l, crc32fastHash l = Crc32.hash l)
    (hfw : fw.length < 2 ^ 32) :
    Triple (world (Losing z)) (fun _ a => ¬ (Suits fw d ∧ Survived config.maxRetries a.fates))
      (Doing config.maxRetries d.ota.slotSize (· = d))
      (Engine.doUpgrade crc32fastHash (.ok fw) config)
      fun _ a => Suits fw d ∧ Survived config.maxRetries a.fates := by
  by_cases hgo : Suits fw d
  · obtain ⟨hready, hfit, hsmall⟩ := hgo
    have hwalk := walk_losing config hz hsmall hready hfit
    rw [← show Pc.calcCrc32 crc32fastHash fw = Crc32.hash fw from hhash fw] at hwalk
    exact (hwalk.doUpgrade crc32fastHash).imp (fun _ _ h => ⟨⟨hready, hfit, hsmall⟩, h⟩)
      fun _ _ hbad hs => hbad hs.2
  · intro a ha
    have hwalk := walk_unsuited (z := z) config (d := d) hfw (Pc.calcCrc32 crc32fastHash fw)
      fun hsmall hr => hgo ⟨hr.1, hr.2, hsmall⟩
    exact wp_imp (hwalk.doUpgrade crc32fastHash a ⟨trivial, ha.dev⟩) (fun _ _ h => h.elim)
      fun _ _ _ hs => hgo hs.1

theorem upgradeThread_losing (hz : z.Documented) (hhash : ∀ l, crc32fastHash l = Crc32.hash l)
    (hfw : fw.length < 2 ^ 32) :
    Triple (world (Losing z)) (fun _ a => ¬ (Suits fw d ∧ Survived config.maxRetries a.fates))
      (Doing config.maxRetries d.ota.slotSize (· = d))
      (Pc.upgradeThread crc32fastHash (.ok fw) config)
      fun r a => r = .ok () ↔ Suits fw d ∧ Survived config.maxRetries a.fates := by
  refine upgradeThread_triple
    (F := fun _ a => ¬ (Suits fw d ∧ Survived config.maxRetries a.fates))
    (J := fun _ a => ¬ (Suits fw d ∧ Survived config.maxRetries a.fates))
    ((doUpgrade_losing hz hhash hfw).mono (fun _ _ h => iff_of_true rfl h))
    (fun _ h => h) (fun _ => ?_) fun _ => ?_
  · exact pollLogs_fates (C := fun fates => ¬ (Suits fw d ∧ Survived config.maxRetries fates))
  · refine (emitError_losing (C := fun fates =>
      ¬ (Suits fw d ∧ Survived config.maxRetries fates))).mono fun _ _ h => ?_
    exact iff_of_false (fun he => nomatch he) h

/-- **Which losses an upgrade survives.** It returns `Ok` if and only if the device takes an image
of this size, no request failed in all its attempts, and the device was never asked again for
something that it does only once. -/
theorem survives_iff (hz : z.Documented) (hhash : ∀ l, crc32fastHash l = Crc32.hash l)
    (hn : 0 < config.maxRetries) (hfw : fw.length < 2 ^ 32) (hd : d.rebooted = false)
    {r : Except Failure (Except String Unit)}
    (hr : Runs (Losing z) (Pc.upgradeThread crc32fastHash (.ok fw) config) (.start d) r a) :
    r = .ok (.ok ()) ↔ Suits fw d ∧ Survived config.maxRetries a.fates := by
  have hclear : Clear config.maxRetries [] := by
    refine ⟨⟨?_, fun _ hf => absurd hf List.not_mem_nil⟩, fun _ he => by cases he⟩
    rintro ⟨i, hi, -⟩
    rw [List.length_nil] at hi
    omega
  have hstart : Doing config.maxRetries d.ota.slotSize (· = d) (.start d) :=
    ⟨hclear, rfl, hd, rfl⟩
  obtain ⟨hok, herr⟩ := hr.of_wp (upgradeThread_losing hz hhash hfw _ hstart)
  cases r with
  | ok result =>
    rw [Except.ok.injEq]
    exact hok result rfl
  | error e =>
    refine iff_of_false (fun he => ?_) (herr e rfl)
    cases he

/-- A link that loses the first response to each packet and to DONE. -/
def lateDone (z : Zephyr) : Env Op Op.Answer Ledger := fun a op =>
  match op with
  | .isCancelled => (false, a)
  | .sendAndRecv f _ =>
    if f.command ∈ [Pc.cmdTransferData, Pc.cmdTransferComplete] ∧ (f, .unanswered) ∉ a.fates then
      (.error "Timeout", a.record f .unanswered (a.bench.exchange z .lossless f))
    else (firstResponse (Exchange.lossless.handle z a.bench.device f).1,
      a.record f .answered (a.bench.exchange z .lossless f))
  | .sendFrame _ => (.ok (), a)
  | .sleep _ => ((), a)
  | .emit e => ((), a.emit e)

theorem losing_lateDone {a a' : Ledger} {op : Op} {x : op.Answer}
    (h : lateDone z a op = (x, a')) : Losing z a op x a' := by
  cases op with
  | isCancelled =>
    obtain ⟨rfl, rfl⟩ := Prod.mk.inj h
    exact .isCancelled a
  | sendAndRecv f timeoutMs =>
    by_cases hfirst : f.command ∈ [Pc.cmdTransferData, Pc.cmdTransferComplete] ∧
        (f, .unanswered) ∉ a.fates
    · obtain ⟨rfl, rfl⟩ := Prod.mk.inj ((if_pos hfirst).symm.trans h)
      exact .unanswered a f timeoutMs "Timeout" .lossless fun _ => rfl
    · obtain ⟨rfl, rfl⟩ := Prod.mk.inj ((if_neg hfirst).symm.trans h)
      exact .answered a f timeoutMs .lossless fun _ => rfl
  | sendFrame f =>
    obtain ⟨rfl, rfl⟩ := Prod.mk.inj h
    exact .sendLost a f _
  | sleep ms =>
    obtain ⟨rfl, rfl⟩ := Prod.mk.inj h
    exact .sleep a ms
  | emit e =>
    obtain ⟨rfl, rfl⟩ := Prod.mk.inj h
    exact .emit a e

/-- On the board, with three bytes in one packet: the losses on this link are survived. -/
theorem survives_iff_board : ∃ a, Runs (Losing .standard)
      (Pc.upgradeThread Crc32.hash (.ok [1, 2, 3]) {}) (.start .board) (.ok (.ok ())) a ∧
    (a.fates.filter fun e => e.2 = .unanswered).map (·.1.command) =
      [Pc.cmdTransferData, Pc.cmdTransferComplete] := by
  let p := Pc.upgradeThread Crc32.hash (.ok [1, 2, 3]) {}
  have hworld : ∀ a op, Losing .standard a op (lateDone .standard a op).1
      (lateDone .standard a op).2 := fun a op => losing_lateDone rfl
  have hr := runs_env hworld p (.start .board)
  have hsurvived : Survived 3 (after (lateDone .standard) p (.start .board)).fates := by
    decide +kernel
  have hok := (survives_iff Zephyr.documented_standard (fun _ => rfl) (by decide) (by decide)
    (by decide) hr).2 ⟨by decide, hsurvived⟩
  rw [hok] at hr
  exact ⟨_, hr, by decide +kernel⟩

end

end ZephyrStm32.Ota.Link
