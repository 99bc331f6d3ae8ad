import ZephyrStm32.Ota.Pc.Stream

/-!
# What the decoder keeps between two calls of `feed`

`syncChecked` and `extractChecked` are the two halves of an iteration with the index and range
checks that Rust makes; `Loop` is the loop made of them, with no bound on its iterations.

**Theorem (`feed_rests`).** Whatever is fed, the loop ends without a panic, each of its iterations
but the last shortens the buffer, and what is kept is at most one byte, the beginning of a header,
or an incomplete frame: 65554 bytes at most.
-/

namespace ZephyrStm32.Ota.Pc.FrameDecoder

open Machine

/-! ## The loop, with its checks -/

/-- `buf.drain(..n)`, where `none` stands for the panic. -/
def drain (buf : List UInt8) (n : Nat) : Option (List UInt8) :=
  if n ≤ buf.length then some (buf.drop n) else none

/-- `&buf[..n]`. -/
def sliceTo (buf : List UInt8) (n : Nat) : Option (List UInt8) :=
  if n ≤ buf.length then some (buf.take n) else none

/-- `sync`, checked. -/
def syncChecked (d : FrameDecoder) : Option (Bool × FrameDecoder) :=
  if d.expectedLen = 0 then
    match d.findHeader with
    | some pos => do
      let buf ← (if pos > 0 then drain d.buf pos else some d.buf)
      if buf.length ≥ prefixSize then
        let b₀ ← buf[14]?
        let b₁ ← buf[15]?
        return (false, ⟨buf, prefixSize + (Bytes.u16le b₀ b₁).toNat + suffixSize⟩)
      else return (true, { d with buf := buf })
    | none =>
      if d.buf.length > 1 then do
        let last ← d.buf[d.buf.length - 1]?
        let keep := if last = 0x12 then 1 else 0
        if keep < d.buf.length then
          let buf ← drain d.buf (d.buf.length - keep)
          return (true, { d with buf := buf })
        else return (true, d)
      else return (true, d)
  else return (false, d)

/-- `extract`, checked. -/
def extractChecked (d : FrameDecoder) : Option (Option (Option Frame × FrameDecoder)) :=
  if d.expectedLen > 0 ∧ d.buf.length ≥ d.expectedLen then do
    let frameBytes ← sliceTo d.buf d.expectedLen
    match Frame.fromBytes frameBytes with
    | .ok (frame, _) =>
      let buf ← drain d.buf d.expectedLen
      return some (some frame, ⟨buf, 0⟩)
    | .error _ =>
      let buf ← drain d.buf 2
      return some (none, ⟨buf, 0⟩)
  else return none

/-- `Loop d frames e`: from `d` the loop of `feed` ends at `e` with `frames`, and makes no check
that fails; an iteration that does not break leaves a shorter buffer. -/
inductive Loop : FrameDecoder → List Frame → FrameDecoder → Prop
  | noHeader {d d' : FrameDecoder} : syncChecked d = some (true, d') → Loop d [] d'
  | incomplete {d d' : FrameDecoder} : syncChecked d = some (false, d') →
      extractChecked d' = some none → Loop d [] d'
  | next {d d' d'' e : FrameDecoder} {frame : Option Frame} {frames : List Frame} :
      syncChecked d = some (false, d') → extractChecked d' = some (some (frame, d'')) →
      d''.buf.length < d.buf.length → Loop d'' frames e → Loop d (frame.toList ++ frames) e

/-- What is kept: at most one byte, a header without its length, or a frame that is not complete. -/
def Rests (d : FrameDecoder) : Prop :=
  d.expectedLen = 0 ∧ (d.buf.length ≤ 1 ∨ d.buf.take 2 = frameHeader ∧ d.buf.length < 16) ∨
    d.expectedLen = declaredLen d.buf ∧ d.buf.take 2 = frameHeader ∧ 16 ≤ d.buf.length ∧
      d.buf.length < d.expectedLen

def pending (d : FrameDecoder) : Nat := d.buf.length

variable {d : FrameDecoder}

/-! ## No check fails -/

theorem syncChecked_eq (d : FrameDecoder) : syncChecked d = some (sync d) := by
  rw [syncChecked, sync]
  split
  · cases hpos : d.findHeader with
    | some pos =>
      rw [findHeader_eq] at hpos
      have hlt := (headerAt_iff.1 (firstHeader_eq_some.1 hpos).1).1
      have hdrain : (if pos > 0 then drain d.buf pos else some d.buf) = some (d.buf.drop pos) := by
        split
        · exact if_pos (by omega)
        · rw [show pos = 0 by omega, List.drop_zero]
      dsimp only
      rw [hdrain, Option.bind_eq_bind, Option.bind_some]
      split
      · rename_i h
        have h16 : 16 ≤ (d.buf.drop pos).length := h
        rw [List.getElem?_eq_getElem (by omega), List.getElem?_eq_getElem (by omega)]
        rfl
      · rfl
    | none =>
      dsimp only
      by_cases hlen : d.buf.length > 1
      · obtain ⟨last, hlast⟩ : ∃ last, d.buf[d.buf.length - 1]? = some last :=
          ⟨_, List.getElem?_eq_getElem (by omega)⟩
        rw [if_pos hlen, List.getLast?_eq_getElem?, hlast, Option.bind_eq_bind, Option.bind_some]
        simp only [Option.some.injEq]
        generalize (if last = 0x12 then 1 else 0) = keep
        by_cases hkeep : keep < d.buf.length
        · rw [if_pos hkeep, if_pos ⟨hlen, hkeep⟩, drain, if_pos (Nat.sub_le _ _)]
          rfl
        · rw [if_neg hkeep, if_neg fun h => hkeep h.2]
          rfl
      · rw [if_neg hlen, if_neg fun h => hlen h.1]
        rfl
  · rfl

/-- The header that is skipped is there, since the whole frame is. -/
theorem extractChecked_eq (hf : d.Fronted) : extractChecked d = some (extract d) := by
  rw [extractChecked, extract]
  split
  · rename_i h
    have h16 := hf.len
    rw [sliceTo, if_pos h.2, Option.bind_eq_bind, Option.bind_some]
    cases Frame.fromBytes (d.buf.take d.expectedLen) with
    | ok r =>
      dsimp only
      rw [drain, if_pos h.2]
      rfl
    | error e =>
      dsimp only
      rw [drain, if_pos (by omega)]
      rfl
  · rfl

/-! ## What is left behind a break -/

theorem take_two_of_headerAt {b : List UInt8} (h : headerAt b 0 = true) :
    b.take 2 = frameHeader := by
  rw [headerAt, beq_iff_eq, List.drop_zero] at h
  exact h

/-- The search breaks with no header, or with too little behind one. -/
theorem rests_of_sync (hs : (sync d).1 = true) : (sync d).2.Rests := by
  unfold sync at hs ⊢
  split at hs
  · rename_i he
    rw [if_pos he]
    cases hpos : d.findHeader with
    | some pos =>
      rw [hpos] at hs
      dsimp only at hs ⊢
      split at hs
      · cases hs
      · rename_i hlen
        rw [dif_neg hlen]
        rw [findHeader_eq] at hpos
        refine Or.inl ⟨he, Or.inr ⟨?_, Nat.lt_of_not_le hlen⟩⟩
        apply take_two_of_headerAt
        rw [headerAt_drop]
        exact (firstHeader_eq_some.1 hpos).1
    | none =>
      dsimp only
      have hle : (if d.buf.getLast? = some 0x12 then 1 else 0) ≤ 1 := by split <;> decide
      generalize (if d.buf.getLast? = some 0x12 then 1 else 0) = keep at hle
      split
      · refine Or.inl ⟨he, Or.inl ?_⟩
        rw [List.length_drop]
        omega
      · refine Or.inl ⟨he, Or.inl ?_⟩
        change d.buf.length ≤ 1
        omega
  · cases hs

/-- The second half breaks when the frame is not complete. -/
theorem rests_of_extract (hf : d.Fronted) (hx : extract d = none) : d.Rests := by
  rw [extract_eq hf, Option.map_eq_none_iff, nextAt_eq_none] at hx
  have h16 := hf.len
  refine Or.inr ⟨hf.expected, take_two_of_headerAt hf.header, h16, ?_⟩
  rw [hf.expected]
  omega

theorem Rests.synced (h : d.Rests) : d.Synced := by
  rcases h with ⟨he, -⟩ | ⟨he, hheader, hlen, -⟩
  · exact Or.inl he
  · refine Or.inr ⟨?_, hlen, he⟩
    rw [headerAt, beq_iff_eq]
    exact hheader

/-! ## The whole loop -/

/-- By induction on the rounds: what `feedLoop` computes is a loop, and ends at rest. -/
theorem feedLoop_rests {rounds : Nat} (hd : d.Synced) (hr : d.buf.length < rounds) :
    Loop d (feedLoop rounds d).1 (feedLoop rounds d).2 ∧ (feedLoop rounds d).2.Rests := by
  induction rounds generalizing d with
  | zero => omega
  | succ rounds ih =>
    have hchecked := syncChecked_eq d
    have hle := length_sync d
    have hgo := (sync_spec hd).go
    have hstop := rests_of_sync (d := d)
    rw [feedLoop]
    generalize sync d = s at hchecked hle hgo hstop
    obtain ⟨stop, d'⟩ := s
    cases stop with
    | true => exact ⟨.noHeader hchecked, hstop rfl⟩
    | false =>
      have hf : d'.Fronted := hgo rfl
      have hx := extractChecked_eq hf
      dsimp only
      cases hex : extract d' with
      | none =>
        rw [hex] at hx
        exact ⟨.incomplete hchecked hx, rests_of_extract hf hex⟩
      | some r =>
        obtain ⟨frame, d''⟩ := r
        rw [hex] at hx
        have hlt : d''.buf.length < d.buf.length := Nat.lt_of_lt_of_le (extract_lt hex) hle
        have hd'' : d''.Synced := by
          rw [extract_eq hf, Option.map_eq_some_iff] at hex
          obtain ⟨r, -, he⟩ := hex
          obtain ⟨-, rfl⟩ := Prod.mk.inj he
          exact Or.inl rfl
        obtain ⟨hloop, hrests⟩ := ih hd'' (by omega)
        exact ⟨.next hchecked hx hlt hloop, hrests⟩

theorem feed_rests_of_rests (h : d.Rests) (data : List UInt8) :
    Loop { d with buf := d.buf ++ data } (d.feed data).1 (d.feed data).2 ∧
      (d.feed data).2.Rests :=
  feedLoop_rests (d := { d with buf := d.buf ++ data })
    (h.synced.imp_right fun hf => hf.append data) (Nat.lt_succ_self _)

theorem rests_new : new.Rests := Or.inl ⟨rfl, Or.inl (Nat.zero_le 1)⟩

theorem rests_final (chunks : List (List UInt8)) : (final feed new chunks).Rests := by
  suffices h : ∀ d : FrameDecoder, d.Rests → (final feed d chunks).Rests from h new rests_new
  induction chunks with
  | nil => exact fun d hd => hd
  | cons data chunks ih => exact fun d hd => ih _ (feed_rests_of_rests hd data).2

/-- A frame is never longer than 65555 bytes. -/
theorem Rests.pending_le (h : d.Rests) : d.pending ≤ 65554 := by
  rw [pending]
  rcases h with ⟨-, h | ⟨-, h⟩⟩ | ⟨he, -, -, hlt⟩
  · omega
  · omega
  · have hdata := ((Mem.ofList d.buf).u16 14).toNat_lt
    rw [he, declaredLen] at hlt
    omega

/-- **The decoder between two calls.** -/
theorem feed_rests (chunks : List (List UInt8)) (data : List UInt8) :
    (final feed new chunks).Rests ∧ (final feed new chunks).pending ≤ 65554 ∧
      Loop { final feed new chunks with buf := (final feed new chunks).buf ++ data }
        ((final feed new chunks).feed data).1 ((final feed new chunks).feed data).2 := by
  have h := rests_final chunks
  exact ⟨h, h.pending_le, (feed_rests_of_rests h data).1⟩

end ZephyrStm32.Ota.Pc.FrameDecoder
