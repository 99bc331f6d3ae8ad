import ZephyrStm32.Ota.Device.Verify

/-!
# VERIFY decides the checksum of the image

**Theorem (`verify_decides`).** When the status is COMPLETE and no read fails, VERIFY reads
`slot1[0 .. firmware_size)` in consecutive pieces of at most 256 bytes and answers with the CRC-32
of these bytes, 0x00 before it if it is `firmware_crc` and 0x01 if it is not. The first read that
fails is the last one; then the answer is 0xFF and the status is ERROR.
-/

namespace ZephyrStm32.Ota

/-- The reads cover the bytes of slot1 from one offset to another, in order and without gaps, at
most `sizeof(buf)` at a time. -/
def Tiles : Nat → List FlashOp → Nat → Prop
  | a, [], b => a = b
  | a, .read area off len :: ops, b =>
    area = .slot1 ∧ off.toNat = a ∧ 0 < len.toNat ∧ len.toNat ≤ 256 ∧ Tiles (a + len.toNat) ops b
  | _, _ :: _, _ => False

/-- The reads `ops`, which begin with flash call `k`, and whether one of them failed: then it is
the last. -/
def StopsAtFailure (fl : FlashCalls) (k : Nat) (ops : List FlashOp) (failed : Prop) : Prop :=
  (¬ failed ∧ ∀ j < ops.length, (fl (k + j)).err = 0) ∨
    failed ∧ ∃ n, ops.length = n + 1 ∧ (∀ j < n, (fl (k + j)).err = 0) ∧ (fl (k + n)).err ≠ 0

variable {z : Zephyr} {fl : FlashCalls} {slot1 : Mem} {d : Dev} {f : OtaFrame}

/-! ## The reads of the loop -/

/-- A read that succeeds, and the rest. -/
theorem StopsAtFailure.cons {k : Nat} {op : FlashOp} {ops : List FlashOp} {failed : Prop}
    (h : StopsAtFailure fl (k + 1) ops failed) (herr : (fl k).err = 0) :
    StopsAtFailure fl k (op :: ops) failed := by
  have hcons {n : Nat} (hn : ∀ j < n, (fl (k + 1 + j)).err = 0) :
      ∀ j < n + 1, (fl (k + j)).err = 0 := by
    rintro (_ | j) hj
    · exact herr
    · rw [← Nat.add_assoc, Nat.add_right_comm]
      exact hn j (by omega)
  rcases h with ⟨hf, hok⟩ | ⟨hf, n, hlen, hok, hfail⟩
  · exact Or.inl ⟨hf, hcons hok⟩
  · refine Or.inr ⟨hf, n + 1, by rw [List.length_cons, hlen], hcons hok, ?_⟩
    rwa [← Nat.add_assoc, Nat.add_right_comm]

/-- **The loop.** By induction on the rounds, along with the counters of the loop. -/
theorem verifyLoop_tiles {rounds k : Nat} {offset remaining crc : UInt32}
    (hr : remaining.toNat ≤ rounds) (hov : offset.toNat + remaining.toNat < 2 ^ 32) :
    ∃ ops e, (verifyLoop z fl slot1 rounds k offset remaining crc).1 = ops.map .flash ∧
      StopsAtFailure fl k ops ((verifyLoop z fl slot1 rounds k offset remaining crc).2 = none) ∧
      Tiles offset.toNat ops e ∧ e ≤ offset.toNat + remaining.toNat ∧
      ((verifyLoop z fl slot1 rounds k offset remaining crc).2 ≠ none →
        e = offset.toNat + remaining.toNat) := by
  induction rounds generalizing k offset remaining crc with
  | zero =>
    have hz : remaining.toNat = 0 := by omega
    refine ⟨[], offset.toNat, rfl, Or.inl ⟨Option.some_ne_none _, ?_⟩, rfl, ?_, fun _ => ?_⟩
    · intro j hj
      cases hj
    · omega
    · omega
  | succ rounds ih =>
    by_cases hpos : 0 < remaining
    · obtain ⟨hoff, hrem, hle, hchunk⟩ := verifyChunk_step hpos hov
      have h256 := toNat_verifyChunk remaining
      rw [verifyLoop_succ hpos]
      by_cases herr : (fl k).err = 0
      · rw [if_neg (not_not.2 herr)]
        dsimp only
        obtain ⟨ops, e, hops, hstop, htiles, hend, hall⟩ := @ih (k + 1)
          (offset + verifyChunk remaining) (remaining - verifyChunk remaining)
          (z.crc32IeeeUpdate crc (slot1.slice offset.toNat (verifyChunk remaining).toNat))
          (by omega) (by omega)
        rw [hoff] at htiles hend hall
        refine ⟨.read .slot1 offset (verifyChunk remaining) :: ops, e, ?_, hstop.cons herr,
          ⟨rfl, rfl, hchunk, by omega, htiles⟩, by omega, fun hn => ?_⟩
        · rw [hops, List.map_cons]
        · rw [hall hn, hrem]
          omega
      · rw [if_pos herr]
        refine ⟨[.read .slot1 offset (verifyChunk remaining)], _, rfl,
          Or.inr ⟨rfl, 0, rfl, fun j hj => by omega, herr⟩,
          ⟨rfl, rfl, hchunk, by omega, rfl⟩, by omega, fun hn => absurd rfl hn⟩
    · have hz := toNat_of_not_pos hpos
      rw [verifyLoop, if_neg hpos]
      refine ⟨[], offset.toNat, rfl, Or.inl ⟨Option.some_ne_none _, fun j hj => ?_⟩, rfl, ?_,
        fun _ => ?_⟩
      · cases hj
      · omega
      · omega

theorem verifyRun_tiles (z : Zephyr) (fl : FlashCalls) (d : Dev) :
    ∃ ops e, (verifyRun z fl d).1 = ops.map .flash ∧
      StopsAtFailure fl 0 ops ((verifyRun z fl d).2 = none) ∧ Tiles 0 ops e ∧
      e ≤ d.ota.firmwareSize.toNat ∧
      ((verifyRun z fl d).2 ≠ none → e = d.ota.firmwareSize.toNat) := by
  have hov : (0 : UInt32).toNat + d.ota.firmwareSize.toNat < 2 ^ 32 := by
    simpa using d.ota.firmwareSize.toNat_lt
  have h := @verifyLoop_tiles z fl d.slot1 _ 0 _ _ (z.crc32Ieee []) le_rfl hov
  rw [← verifyRun, UInt32.toNat_zero, Nat.zero_add] at h
  exact h

/-! ## The whole command -/

/-- A VERIFY in the status COMPLETE is decided by the loop. -/
theorem otaFrameProcess_verify (h : f.IsCmd cmdVerifyFirmware) (hs : d.ota.status = .complete) :
    otaFrameProcess z fl d f =
      match (verifyRun z fl d).2 with
      | none => ((verifyRun z fl d).1 ++ [.send f.seq cmdVerifyFirmware fail5],
          { d with ota := d.ota.failed .flashWrite })
      | some crc =>
        ((verifyRun z fl d).1 ++ [.send f.seq cmdVerifyFirmware
            (ackBytes (if crc = d.ota.firmwareCrc then 0x00 else 0x01) crc)],
          { d with ota := { d.ota.verified crc with
            errorCode :=
              if crc = d.ota.firmwareCrc then d.ota.errorCode else .crcMismatch } }) := by
  rw [otaFrameProcess_addressed z fl d f h.1, h.2]
  change otaCmdVerifyFirmware z fl d f.seq f.data f.dataLen = _
  unfold otaCmdVerifyFirmware
  rw [if_neg (not_not.2 hs)]
  dsimp only
  rw [← verifyRun]
  cases (verifyRun z fl d).2 with
  | none => rfl
  | some crc =>
    dsimp only
    split
    · rfl
    · rfl

/-- **VERIFY decides the checksum of the image.** -/
theorem verify_decides (hz : z.Documented) (h : f.IsCmd cmdVerifyFirmware)
    (hs : d.ota.status = .complete) :
    let r := otaFrameProcess z fl d f
    let crc := Crc32.hash (d.slot1.slice 0 d.ota.firmwareSize.toNat)
    ∃ ops payload, r.1 = ops.map .flash ++ [.send f.seq cmdVerifyFirmware payload] ∧
      ((∀ k < ops.length, (fl k).err = 0) →
        Tiles 0 ops d.ota.firmwareSize.toNat ∧
          payload = ackBytes (if crc = d.ota.firmwareCrc then 0x00 else 0x01) crc) ∧
      ((∃ k < ops.length, (fl k).err ≠ 0) →
        payload.head? = some 0xFF ∧ r.2.ota.status = .error ∧
          (∀ k, k + 1 < ops.length → (fl k).err = 0) ∧
          ∃ e ≤ d.ota.firmwareSize.toNat, Tiles 0 ops e) := by
  intro r crc
  obtain ⟨ops, e, hops, hstop, htiles, hend, hall⟩ := verifyRun_tiles z fl d
  have hr : r = _ := otaFrameProcess_verify h hs
  simp only [StopsAtFailure, Nat.zero_add] at hstop
  cases hc : (verifyRun z fl d).2 with
  | none =>
    rw [hc] at hr hstop
    obtain ⟨-, n, hlen, hok, hfail⟩ := hstop.resolve_left fun h => h.1 rfl
    refine ⟨ops, fail5, by rw [hr, hops], fun hall => ?_, fun _ => ?_⟩
    · exact absurd (hall n (by omega)) hfail
    · refine ⟨rfl, by rw [hr]; rfl, fun k hk => hok k (by omega), e, hend, htiles⟩
  | some c =>
    rw [hc] at hr hstop
    obtain ⟨-, hok⟩ := hstop.resolve_right fun h => Option.some_ne_none _ h.1
    have hcrc : c = crc := by
      have himage := (verifyRun_eq_some.1 hc).2
      rw [imageCrc_eq hz] at himage
      exact himage.symm
    refine ⟨ops, _, by rw [hr, hops], fun _ => ⟨?_, by rw [hcrc]⟩, fun hex => ?_⟩
    · rwa [← hall (by simp [hc])]
    · obtain ⟨k, hk, herr⟩ := hex
      exact absurd (hok k hk) herr

/-- Two bytes of an erased slot, all reads succeed. -/
theorem verify_decides_board :
    let d : Dev := { Dev.board with ota := { Dev.board.ota with
      status := .complete, firmwareSize := 2, firmwareCrc := Crc32.hash [0xFF, 0xFF] } }
    ∃ ops payload, (otaFrameProcess .standard .ok d (.request cmdVerifyFirmware [])).1 =
      ops.map .flash ++ [.send 0 cmdVerifyFirmware payload] ∧
        Tiles 0 ops 2 ∧ payload.head? = some 0x00 := by
  intro d
  have hv : OtaFrame.IsCmd (.request cmdVerifyFirmware []) cmdVerifyFirmware := by decide
  obtain ⟨ops, payload, hr, hok, -⟩ :=
    @verify_decides .standard .ok d _ Zephyr.documented_standard hv rfl
  obtain ⟨htiles, hpayload⟩ := hok fun _ _ => rfl
  refine ⟨ops, payload, hr, htiles, ?_⟩
  rw [hpayload, ackBytes, List.head?_cons, if_pos (by decide +kernel)]

end ZephyrStm32.Ota
