import ZephyrStm32.Ota.Device.Branches

/-!
# The read loop of VERIFY

The loop issues reads only, and when none of them fails its checksum is `imageCrc`, the update
function fed with `slot1[0 .. firmware_size)` in pieces of 256 bytes; under the documented CRC that
is the standard CRC-32 of these bytes (`imageCrc_eq`).
-/

namespace ZephyrStm32.Ota

variable {z : Zephyr} {fl : FlashCalls} {slot1 : Mem}

/-- The checksum of `m[0 .. n)`, computed in pieces of `sizeof(buf)`. -/
def imageCrc (z : Zephyr) (m : Mem) (n : UInt32) : UInt32 :=
  Crc32.inPieces z.crc32IeeeUpdate 256 (z.crc32Ieee []) (m.slice 0 n.toNat)

/-- The size of the next read. -/
def verifyChunk (remaining : UInt32) : UInt32 := if remaining > 256 then 256 else remaining

theorem toNat_verifyChunk (remaining : UInt32) :
    (verifyChunk remaining).toNat = min remaining.toNat 256 := by
  unfold verifyChunk
  split
  · rename_i h
    have h : 256 < remaining.toNat := UInt32.lt_iff_toNat_lt.1 h
    rw [min_eq_right h.le]
    rfl
  · rename_i h
    have h : remaining.toNat ≤ 256 := UInt32.le_iff_toNat_le.1 (UInt32.not_lt.1 h)
    rw [min_eq_left h]

theorem verifyLoop_succ {rounds k : Nat} {offset remaining crc : UInt32} (h : 0 < remaining) :
    verifyLoop z fl slot1 (rounds + 1) k offset remaining crc =
      if (fl k).err ≠ 0 then ([.flash (.read .slot1 offset (verifyChunk remaining))], none)
      else
        let rest := verifyLoop z fl slot1 rounds (k + 1) (offset + verifyChunk remaining)
          (remaining - verifyChunk remaining)
          (z.crc32IeeeUpdate crc (slot1.slice offset.toNat (verifyChunk remaining).toNat))
        (.flash (.read .slot1 offset (verifyChunk remaining)) :: rest.1, rest.2) := by
  rw [verifyLoop, if_pos h]
  rfl

/-- The loop only reads. -/
theorem verifyLoop_reads (rounds k : Nat) (offset remaining crc : UInt32) :
    ∀ e ∈ (verifyLoop z fl slot1 rounds k offset remaining crc).1,
      ∃ off len, e = .flash (.read .slot1 off len) := by
  induction rounds generalizing k offset remaining crc with
  | zero => intro e he; cases he
  | succ rounds ih =>
    by_cases hpos : 0 < remaining
    · rw [verifyLoop_succ hpos]
      split
      · intro e he
        rw [List.mem_singleton.1 he]
        exact ⟨_, _, rfl⟩
      · intro e he
        rcases List.mem_cons.1 he with rfl | he
        · exact ⟨_, _, rfl⟩
        · exact ih _ _ _ _ e he
    · rw [verifyLoop, if_neg hpos]
      intro e he
      cases he

/-- The bytes still to read are the next piece and the bytes after it, and the counters do not
wrap: the arithmetic of one round. -/
theorem verifyChunk_step {offset remaining : UInt32} (hpos : 0 < remaining)
    (hov : offset.toNat + remaining.toNat < 2 ^ 32) :
    (offset + verifyChunk remaining).toNat = offset.toNat + (verifyChunk remaining).toNat ∧
      (remaining - verifyChunk remaining).toNat =
        remaining.toNat - (verifyChunk remaining).toNat ∧
      (verifyChunk remaining).toNat ≤ remaining.toNat ∧ 0 < (verifyChunk remaining).toNat := by
  have hpos : 0 < remaining.toNat := by simpa using UInt32.lt_iff_toNat_lt.1 hpos
  have hc := toNat_verifyChunk remaining
  have hle : verifyChunk remaining ≤ remaining := UInt32.le_iff_toNat_le.2 (by omega)
  refine ⟨?_, UInt32.toNat_sub_of_le _ _ hle, by omega, by omega⟩
  rw [UInt32.toNat_add, Nat.mod_eq_of_lt (by omega)]

theorem toNat_of_not_pos {remaining : UInt32} (h : ¬ 0 < remaining) : remaining.toNat = 0 := by
  simpa using UInt32.le_iff_toNat_le.1 (UInt32.not_lt.1 h)

/-- The loop ends with a checksum exactly when none of its reads fails. -/
theorem verifyLoop_isSome_iff {rounds k : Nat} {offset remaining crc : UInt32}
    (hr : remaining.toNat ≤ rounds) (hov : offset.toNat + remaining.toNat < 2 ^ 32) :
    (verifyLoop z fl slot1 rounds k offset remaining crc).2.isSome = true ↔
      ∀ j < (remaining.toNat + 255) / 256, (fl (k + j)).err = 0 := by
  induction rounds generalizing k offset remaining crc with
  | zero =>
    have hz : remaining.toNat = 0 := by omega
    simp [verifyLoop, hz]
  | succ rounds ih =>
    by_cases hpos : 0 < remaining
    · obtain ⟨hoff, hrem, hle, hchunk⟩ := verifyChunk_step hpos hov
      have hc := toNat_verifyChunk remaining
      have hcount : (remaining.toNat + 255) / 256 =
          ((remaining - verifyChunk remaining).toNat + 255) / 256 + 1 := by omega
      rw [verifyLoop_succ hpos, hcount]
      by_cases herr : (fl k).err = 0
      · rw [if_neg (not_not.2 herr), ih (by omega) (by omega)]
        constructor
        · rintro h (_ | j) hj
          · exact herr
          · rw [← Nat.add_assoc, Nat.add_right_comm]
            exact h j (by omega)
        · intro h j hj
          rw [Nat.add_right_comm]
          exact h (j + 1) (by omega)
      · rw [if_pos herr]
        exact ⟨fun h => by simp at h, fun h => absurd (h 0 (by omega)) herr⟩
    · have hz := toNat_of_not_pos hpos
      rw [verifyLoop, if_neg hpos]
      simp [hz]

/-- A piece of 256 bytes, or all that is left, is what the next read brings. -/
theorem take_chunk (off : Nat) (remaining : UInt32) :
    (slot1.slice off remaining.toNat).take 256 =
      slot1.slice off (verifyChunk remaining).toNat := by
  rw [Mem.take_slice, toNat_verifyChunk, min_comm]

theorem drop_chunk (off : Nat) (remaining : UInt32) :
    (slot1.slice off remaining.toNat).drop 256 =
      slot1.slice (off + (verifyChunk remaining).toNat)
        (remaining.toNat - (verifyChunk remaining).toNat) := by
  rw [Mem.drop_slice, toNat_verifyChunk]
  rcases le_total remaining.toNat 256 with h | h
  · rw [min_eq_left h, Nat.sub_eq_zero_of_le h, Nat.sub_self, Mem.slice_zero, Mem.slice_zero]
  · rw [min_eq_right h]

/-- **The checksum of the loop**: the remaining bytes, in pieces of 256. -/
theorem verifyLoop_crc {rounds k : Nat} {offset remaining crc c : UInt32}
    (hr : remaining.toNat ≤ rounds) (hov : offset.toNat + remaining.toNat < 2 ^ 32)
    (h : (verifyLoop z fl slot1 rounds k offset remaining crc).2 = some c) :
    c = Crc32.inPieces z.crc32IeeeUpdate 256 crc
      (slot1.slice offset.toNat remaining.toNat) := by
  induction rounds generalizing k offset remaining crc with
  | zero =>
    have hz : remaining.toNat = 0 := by omega
    rw [hz, Mem.slice_zero, Crc32.inPieces_nil]
    exact (Option.some.inj h).symm
  | succ rounds ih =>
    by_cases hpos : 0 < remaining
    · rw [verifyLoop_succ hpos] at h
      split at h
      · exact absurd h (by simp)
      · obtain ⟨hoff, hrem, hle, hchunk⟩ := verifyChunk_step hpos hov
        have ih := ih (by omega) (by omega) h
        have hne : slot1.slice offset.toNat remaining.toNat ≠ [] := by
          rw [← List.length_pos_iff, Mem.length_slice]
          omega
        rw [ih, Crc32.inPieces_cons (by decide) hne, take_chunk, drop_chunk, hoff, hrem]
    · have hz := toNat_of_not_pos hpos
      rw [verifyLoop, if_neg hpos] at h
      rw [hz, Mem.slice_zero, Crc32.inPieces_nil]
      exact (Option.some.inj h).symm

/-! ## The loop as VERIFY starts it -/

variable {d : Dev}

theorem verifyRun_reads :
    ∀ e ∈ (verifyRun z fl d).1, ∃ off len, e = .flash (.read .slot1 off len) :=
  verifyLoop_reads _ _ _ _ _

/-- None of the reads of `n` bytes in pieces of `sizeof(buf)` fails. -/
def ReadsOk (fl : FlashCalls) (n : UInt32) : Prop := ∀ k < (n.toNat + 255) / 256, (fl k).err = 0

instance (fl : FlashCalls) (n : UInt32) : Decidable (ReadsOk fl n) :=
  inferInstanceAs (Decidable (∀ k < _, _))

/-- The loop gives a checksum when no read fails, and then it is that of the image. -/
theorem verifyRun_eq_some {c : UInt32} : (verifyRun z fl d).2 = some c ↔
    ReadsOk fl d.ota.firmwareSize ∧ imageCrc z d.slot1 d.ota.firmwareSize = c := by
  have hov : (0 : UInt32).toNat + d.ota.firmwareSize.toNat < 2 ^ 32 := by
    simpa using d.ota.firmwareSize.toNat_lt
  have hsome : (verifyRun z fl d).2.isSome = true ↔ ReadsOk fl d.ota.firmwareSize := by
    have h : (verifyRun z fl d).2.isSome = true ↔
        ∀ j < (d.ota.firmwareSize.toNat + 255) / 256, (fl (0 + j)).err = 0 :=
      verifyLoop_isSome_iff le_rfl hov
    simpa only [ReadsOk, Nat.zero_add] using h
  have hcrc : ∀ {c}, (verifyRun z fl d).2 = some c →
      c = imageCrc z d.slot1 d.ota.firmwareSize := fun h => verifyLoop_crc le_rfl hov h
  constructor
  · exact fun h => ⟨hsome.1 (Option.isSome_of_eq_some h), (hcrc h).symm⟩
  · rintro ⟨hr, rfl⟩
    obtain ⟨c, hc⟩ := Option.isSome_iff_exists.1 (hsome.2 hr)
    rw [hc, ← hcrc hc]

/-- Under the documented CRC the loop computes the CRC-32 of the image. -/
theorem imageCrc_eq (hz : z.Documented) (m : Mem) (n : UInt32) :
    imageCrc z m n = Crc32.hash (m.slice 0 n.toNat) := by
  have hs : Crc32.Streaming z.crc32IeeeUpdate := by
    have h : z.crc32IeeeUpdate = Crc32.update := funext₂ hz.crc32IeeeUpdate
    rw [h]
    exact Crc32.streaming_update
  rw [imageCrc, hs.inPieces_eq (by decide), hz.crc32IeeeUpdate, hz.crc32Ieee]
  rfl

end ZephyrStm32.Ota
