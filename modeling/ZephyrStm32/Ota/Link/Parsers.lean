import ZephyrStm32.Ota.Link.Reassembly

/-!
# The two parsers on one buffer

**Theorem (`parsers_agree_iff`).** On a buffer that begins with a header, `ota_frame_parse` and
`Frame::from_bytes` take the same frame or none, except in two cases: the declared frame is all
there but does not end in `CD EF`, which the device never checks; or the sum of the declared length
and the sizes of header and trailer leaves 16 bits and what is left of it fits in the buffer. In
both the device takes a frame that the PC refuses.
-/

namespace ZephyrStm32.Ota.Link

open Pc (Frame FieldsAt TailAt WireAt fieldsOf)

/-- Both parsers take the frame at the front of `m[0 .. len)` or neither does, and then they give
the same length and the same fields. -/
structure ParsersAgree (m : Mem) (len : Nat) (junk : OtaFrame) : Prop where
  accept : 0 < (otaFrameParse m len junk).1 ↔ ∃ r, Frame.fromBytes (m.slice 0 len) = .ok r
  same : ∀ f n, 0 < (otaFrameParse m len junk).1 → Frame.fromBytes (m.slice 0 len) = .ok (f, n) →
    (otaFrameParse m len junk).1 = n ∧ Shows (otaFrameParse m len junk).2 f

/-- `data_len` of a header at the front. -/
def declaredLen (m : Mem) : Nat := (m.u16 14).toNat

/-- The declared frame is in the buffer, with another tail than `CD EF`. -/
def WrongTail (m : Mem) (len : Nat) : Prop :=
  20 + declaredLen m ≤ len ∧ ¬ TailAt m 0 (declaredLen m)

/-- `total_frame_len` wraps to a length that is not zero and fits in the buffer. -/
def WrappedLen (m : Mem) (len : Nat) : Prop :=
  frameMinSize ≤ len ∧ 65516 < declaredLen m ∧ declaredLen m - 65516 ≤ len

/-- The frame in front of a buffer that begins with a header. -/
structure FrontHeader (m : Mem) (len : Nat) : Prop where
  header0 : m 0 = 0x12
  header1 : m 1 = 0x34
  two_le : 2 ≤ len
  le : len ≤ 65535

variable {m : Mem} {len : Nat} {junk : OtaFrame} {f : Frame} {n : Nat}

/-! ## The device -/

theorem totalFrameLen_declaredLen (m : Mem) :
    totalFrameLen (m.u16 14) = (20 + declaredLen m) % 65536 := by
  rw [totalFrameLen, OtaFrame.headerSize, OtaFrame.tailSize, declaredLen]
  congr 1
  omega

theorem otaFrameParse_front (h : FrontHeader m len) :
    otaFrameParse m len junk =
      if len < frameMinSize then (-1, junk)
      else if (20 + declaredLen m) % 65536 > len then (-1, junk)
      else ((((20 + declaredLen m) % 65536 : Nat) : Int), readFrame m 0 junk) := by
  by_cases hs : len < frameMinSize
  · rw [if_pos hs]
    exact otaFrameParse_short junk hs
  · rw [if_neg hs, otaFrameParse_at junk (Nat.not_lt.1 hs) h.header0 h.header1,
      totalFrameLen_declaredLen]

/-- The device takes a frame that is all there, whatever its tail, and a wrapped one. -/
theorem otaFrameParse_pos_iff (h : FrontHeader m len) :
    0 < (otaFrameParse m len junk).1 ↔ 20 + declaredLen m ≤ len ∨ WrappedLen m len := by
  have hlt : declaredLen m < 65536 := (m.u16 14).toNat_lt
  have hle := h.le
  rw [otaFrameParse_front h, WrappedLen, frameMinSize]
  split
  · simp only [Int.reduceNeg, Int.reduceLT, false_iff]
    omega
  · split
    · simp only [Int.reduceNeg, Int.reduceLT, false_iff]
      omega
    · dsimp only
      omega

/-! ## The PC -/

/-- The slice in a memory of its own holds a frame exactly where `m` does. -/
theorem wireAt_slice_iff (hf : f.wireLen ≤ len) :
    WireAt (Mem.ofList (m.slice 0 len)) 0 f ↔ WireAt m 0 f := by
  have hsame : ∀ i < f.wireLen, Mem.ofList (m.slice 0 len) (0 + i) = m (0 + i) := by
    intro i hi
    rw [Nat.zero_add, Mem.ofList_slice m 0 (by omega), Nat.zero_add]
  constructor
  · intro h
    exact h.congr fun i hi => (hsame i hi).symm
  · intro h
    exact h.congr hsame

theorem fromBytes_slice_iff : Frame.fromBytes (m.slice 0 len) = .ok (f, n) ↔
    f.wireLen ≤ len ∧ n = f.wireLen ∧ WireAt m 0 f := by
  rw [Pc.fromBytes_eq_ok_iff, Mem.length_slice]
  refine and_congr_right fun hf => and_congr_right fun _ => wireAt_slice_iff hf

/-- The PC takes a frame that is all there, with its tail. -/
theorem fromBytes_isOk_iff (h : FrontHeader m len) :
    (∃ r, Frame.fromBytes (m.slice 0 len) = .ok r) ↔
      20 + declaredLen m ≤ len ∧ TailAt m 0 (declaredLen m) := by
  have hfields : FieldsAt m 0 (fieldsOf m 0) := Pc.fieldsAt_iff.2 ⟨h.header0, h.header1, rfl⟩
  have hlen : (fieldsOf m 0).data.length = declaredLen m := Mem.length_slice _ _ _
  constructor
  · rintro ⟨⟨f, n⟩, hr⟩
    obtain ⟨hle, -, hw⟩ := fromBytes_slice_iff.1 hr
    obtain ⟨-, -, rfl⟩ := Pc.fieldsAt_iff.1 hw.toFieldsAt
    rw [Frame.wireLen, hlen] at hle
    exact ⟨hle, hlen ▸ hw.toTailAt⟩
  · rintro ⟨hle, ht⟩
    refine ⟨(fieldsOf m 0, (fieldsOf m 0).wireLen), fromBytes_slice_iff.2 ⟨?_, rfl, hfields, ?_⟩⟩
    · rw [Frame.wireLen, hlen]
      exact hle
    · rw [hlen]
      exact ht

/-! ## Both -/

/-- Where both take a frame, it is the same one. -/
theorem parsers_same (h : FrontHeader m len) (hr : Frame.fromBytes (m.slice 0 len) = .ok (f, n)) :
    (otaFrameParse m len junk).1 = n ∧ Shows (otaFrameParse m len junk).2 f := by
  obtain ⟨hle, rfl, hw⟩ := fromBytes_slice_iff.1 hr
  rw [otaFrameParse_frame junk hw (hle.trans h.le) hle]
  exact ⟨rfl, readFrame_shows junk hw.toFieldsAt⟩

/-- **The two parsers.** They agree on a buffer that begins with a header unless the declared frame
has a wrong tail or a length that wraps into the buffer. -/
theorem parsers_agree_iff (h : FrontHeader m len) (junk : OtaFrame) :
    ParsersAgree m len junk ↔ ¬ WrongTail m len ∧ ¬ WrappedLen m len := by
  have hpos : 0 < (otaFrameParse m len junk).1 ↔ _ := otaFrameParse_pos_iff h
  have hok := fromBytes_isOk_iff h
  have hdisjoint : WrappedLen m len → ¬ 20 + declaredLen m ≤ len := by
    rintro ⟨-, hw, -⟩
    have := h.le
    omega
  constructor
  · rintro ⟨haccept, -⟩
    rw [hpos, hok] at haccept
    constructor
    · rintro ⟨hle, htail⟩
      exact htail (haccept.1 (Or.inl hle)).2
    · intro hw
      exact hdisjoint hw (haccept.1 (Or.inr hw)).1
  · rintro ⟨htail, hwrap⟩
    refine ⟨?_, fun f n _ hr => parsers_same h hr⟩
    rw [hpos, hok]
    constructor
    · rintro (hle | hw)
      · by_contra hn
        exact htail ⟨hle, fun ht => hn ⟨hle, ht⟩⟩
      · exact absurd hw hwrap
    · rintro ⟨hle, -⟩
      exact Or.inl hle

/-- A handshake with another tail. -/
def badTail : List UInt8 :=
  [0x12, 0x34, 0, 0, 0, 0, 0x20, 0, 1, 0, 0, 0, 1, 0, 0, 0, 0, 0, 0xAB, 0xEF]

/-- They agree on a handshake. -/
theorem parsers_agree_handshake : ParsersAgree
    (Mem.ofList [0x12, 0x34, 0, 0, 0, 0, 0x20, 0, 1, 0, 0, 0, 1, 0, 0, 0, 0, 0, 0xCD, 0xEF]) 20
    (.onStack fun _ => 0) := by
  refine (parsers_agree_iff ⟨by decide, by decide, by decide, by decide⟩ _).2 ⟨?_, ?_⟩
  · rintro ⟨-, ht⟩
    exact ht ⟨by decide, by decide⟩
  · rintro ⟨-, hw, -⟩
    revert hw
    decide

/-- Only the device takes a handshake with another tail. -/
theorem parsers_disagree : ¬ ∀ (m : Mem) (len : Nat) (junk : OtaFrame), FrontHeader m len →
    ParsersAgree m len junk := by
  intro h
  have hfront : FrontHeader (Mem.ofList badTail) 20 :=
    ⟨by decide, by decide, by decide, by decide⟩
  obtain ⟨r, hr⟩ := (h _ _ (.onStack fun _ => 0) hfront).accept.1 (by decide)
  have herr : Frame.fromBytes ((Mem.ofList badTail).slice 0 20) =
      .error (.invalidTail [0xCD, 0xEF] [0xAB, 0xEF]) := by decide
  rw [herr] at hr
  cases hr

end ZephyrStm32.Ota.Link
