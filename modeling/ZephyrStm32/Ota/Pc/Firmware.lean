import ZephyrStm32.Lib.Bytes

/-!
# The firmware file: `ota/firmware.rs`

`flatten_split` and `contiguous_split`: the packets are the image, cut without gaps, each with its
offset. `length_split_le_iff`: there are no more of them than needed.

**Theorem (`split_partition`).** An image whose length fits in 32 bits is cut into non-empty
packets, all but the last of the chunk size, each with the number of bytes before it as its offset.
-/

namespace ZephyrStm32.Ota.Pc

structure FirmwarePacket where
  offset : UInt32
  data : List UInt8
  deriving DecidableEq, Repr

/-- `crc32fastHash` is `crc32fast::hash`. -/
def calcCrc32 (crc32fastHash : List UInt8 → UInt32) (data : List UInt8) : UInt32 :=
  crc32fastHash data

/-- The packet that starts at `offset`. -/
def packetAt (data : List UInt8) (chunkSize offset : Nat) : FirmwarePacket where
  offset := UInt32.ofNat offset
  data := (data.take (min (offset + chunkSize) data.length)).drop offset

/-- `(0..total).step_by(chunk_size)` gives the multiples of `chunk_size` below `total`. -/
def splitIntoPackets (data : List UInt8) (chunkSize : Nat) : List FirmwarePacket :=
  let total := data.length
  let chunkSize := max chunkSize 1
  (List.range' 0 ((total + chunkSize - 1) / chunkSize) chunkSize).map (packetAt data chunkSize)

/-! ## The packets are the image -/

/-- Each packet's offset is the number of bytes before it, counted from `s`. -/
def Contiguous : Nat → List FirmwarePacket → Prop
  | _, [] => True
  | s, p :: ps => p.offset = UInt32.ofNat s ∧ Contiguous (s + p.data.length) ps

variable {data : List UInt8} {c : Nat}

theorem packetAt_data (s : Nat) : (packetAt data c s).data = (data.drop s).take c := by
  rw [packetAt, List.drop_take]
  rcases le_total (s + c) data.length with h | h
  · rw [min_eq_left h, Nat.add_sub_cancel_left]
  · rw [min_eq_right h, List.take_of_length_le (by simp), List.take_of_length_le (by simp; omega)]

/-- Enough packets from `s` on hold all bytes from `s` on. -/
theorem flatten_from {n s : Nat} (hn : data.length - s ≤ n * c) :
    (((List.range' s n c).map (packetAt data c)).map (·.data)).flatten = data.drop s := by
  induction n generalizing s with
  | zero =>
    rw [List.drop_eq_nil_of_le (by omega)]
    rfl
  | succ n ih =>
    rw [Nat.succ_mul] at hn
    rw [List.range'_succ, List.map_cons, List.map_cons, List.flatten_cons, packetAt_data,
      ih (by omega), ← List.drop_drop, List.take_append_drop]

/-- No more packets than needed: all but the last are full. -/
theorem contiguous_from (hc : 0 < c) {n s : Nat} (hn : n * c < data.length - s + c) :
    Contiguous s ((List.range' s n c).map (packetAt data c)) := by
  induction n generalizing s with
  | zero => trivial
  | succ n ih =>
    rw [Nat.succ_mul] at hn
    rw [List.range'_succ, List.map_cons]
    refine ⟨rfl, ?_⟩
    cases n with
    | zero => trivial
    | succ n =>
      rw [Nat.succ_mul] at hn
      have hlen : (packetAt data c s).data.length = c := by
        rw [packetAt_data, List.length_take, List.length_drop]
        omega
      rw [hlen]
      refine ih ?_
      rw [Nat.succ_mul]
      omega

theorem le_ceil_mul (hc : 0 < c) (n : Nat) : n ≤ (n + c - 1) / c * c := by
  have h := Nat.lt_div_mul_add (a := n + c - 1) hc
  omega

theorem ceil_mul_lt (hc : 0 < c) (n : Nat) : (n + c - 1) / c * c < n + c := by
  have h := Nat.div_mul_le_self (n + c - 1) c
  omega

variable (data c)

/-- The packets hold the image. -/
theorem flatten_split : ((splitIntoPackets data c).map (·.data)).flatten = data :=
  flatten_from (le_ceil_mul (Nat.lt_of_lt_of_le Nat.one_pos (le_max_right c 1)) _)

/-- Their offsets are right. -/
theorem contiguous_split : Contiguous 0 (splitIntoPackets data c) :=
  contiguous_from (Nat.lt_of_lt_of_le Nat.one_pos (le_max_right c 1))
    (ceil_mul_lt (Nat.lt_of_lt_of_le Nat.one_pos (le_max_right c 1)) _)

/-- The bytes before a packet are bytes of the image. -/
theorem length_before_le (k : Nat) :
    (((splitIntoPackets data c).take k).map (·.data)).flatten.length ≤ data.length := by
  have h := congrArg List.length (flatten_split data c)
  rw [← List.take_append_drop k (splitIntoPackets data c), List.map_append, List.flatten_append,
    List.length_append] at h
  omega

/-- No packet is longer than the chunk size. -/
theorem length_split : ∀ p ∈ splitIntoPackets data c, p.data.length ≤ max c 1 := by
  intro p hp
  obtain ⟨s, -, rfl⟩ := List.mem_map.1 hp
  rw [packetAt_data]
  exact List.length_take_le _ _

theorem length_le_of_mem_split : ∀ p ∈ splitIntoPackets data c, p.data.length ≤ data.length := by
  intro p hp
  obtain ⟨s, -, rfl⟩ := List.mem_map.1 hp
  rw [packetAt_data, List.length_take, List.length_drop]
  omega

/-- No packet is empty. -/
theorem nonempty_split : ∀ p ∈ splitIntoPackets data c, 1 ≤ p.data.length := by
  intro p hp
  obtain ⟨s, hs, rfl⟩ := List.mem_map.1 hp
  obtain ⟨k, hk, rfl⟩ := List.mem_range'.1 hs
  have hc : 0 < max c 1 := Nat.lt_of_lt_of_le Nat.one_pos (le_max_right c 1)
  have hlt := ceil_mul_lt hc data.length
  have hle : (k + 1) * max c 1 ≤ (data.length + max c 1 - 1) / max c 1 * max c 1 :=
    Nat.mul_le_mul_right _ hk
  rw [Nat.succ_mul, Nat.mul_comm k] at hle
  rw [packetAt_data, List.length_take, List.length_drop]
  omega

/-- All packets but the last are full. -/
theorem length_getElem_split {k : Nat} (hk : k + 1 < (splitIntoPackets data c).length) :
    (splitIntoPackets data c)[k].data.length = max c 1 := by
  have hc : 0 < max c 1 := Nat.lt_of_lt_of_le Nat.one_pos (le_max_right c 1)
  have hlt := ceil_mul_lt hc data.length
  have hpacket : (splitIntoPackets data c)[k] = packetAt data (max c 1) (0 + max c 1 * k) := by
    simp [splitIntoPackets]
  rw [splitIntoPackets, List.length_map, List.length_range'] at hk
  have hle := Nat.mul_le_mul_right (max c 1) hk
  rw [Nat.succ_mul, Nat.succ_mul, Nat.mul_comm k] at hle
  rw [hpacket, packetAt_data, List.length_take, List.length_drop]
  omega

/-- The first packet is the front of the image. -/
theorem head_split (h : 0 < (splitIntoPackets data c).length) :
    (splitIntoPackets data c)[0].data = data.take (max c 1) := by
  simp [splitIntoPackets, packetAt_data]

/-- `n` packets are enough for an image of `n` chunks, and no longer one. -/
theorem length_split_le_iff (hc : 0 < c) (n : Nat) :
    (splitIntoPackets data c).length ≤ n ↔ data.length ≤ n * c := by
  rw [splitIntoPackets, List.length_map, List.length_range', max_eq_left hc,
    Nat.div_le_iff_le_mul_add_pred hc, Nat.mul_comm c n]
  omega

variable {data c}

/-- The offset of a packet is the number of bytes before it. -/
theorem Contiguous.offset {packets : List FirmwarePacket} {s : Nat} (h : Contiguous s packets)
    (i : Nat) (hi : i < packets.length) : packets[i].offset =
      UInt32.ofNat (s + ((packets.take i).map (·.data)).flatten.length) := by
  induction packets generalizing s i with
  | nil => cases hi
  | cons p packets ih =>
    cases i with
    | zero => exact h.1
    | succ i =>
      rw [List.getElem_cons_succ, ih h.2, List.take_succ_cons, List.map_cons, List.flatten_cons,
        List.length_append, Nat.add_assoc]

/-- **A lossless partition.** -/
theorem split_partition (h : data.length < 2 ^ 32) :
    ((splitIntoPackets data c).map (·.data)).flatten = data ∧
      (∀ k (hk : k < (splitIntoPackets data c).length),
        (splitIntoPackets data c)[k].offset.toNat =
          (((splitIntoPackets data c).take k).map (·.data.length)).sum) ∧
      (∀ p ∈ splitIntoPackets data c, p.data ≠ []) ∧
      ∀ k (_ : k + 1 < (splitIntoPackets data c).length),
        (splitIntoPackets data c)[k].data.length = max c 1 := by
  refine ⟨flatten_split data c, fun k hk => ?_, fun p hp => ?_,
    fun k hk => length_getElem_split data c hk⟩
  · have hbefore := length_before_le data c k
    rw [(contiguous_split data c).offset k hk, Nat.zero_add,
      UInt32.toNat_ofNat_of_lt' (lt_of_le_of_lt hbefore h), List.length_flatten, List.map_map]
    rfl
  · exact List.ne_nil_of_length_pos (nonempty_split data c p hp)

/-- Five bytes in chunks of two. -/
theorem split_partition_five : (splitIntoPackets [1, 2, 3, 4, 5] 2)[1].data.length = max 2 1 :=
  (@split_partition [1, 2, 3, 4, 5] 2 (by decide)).2.2.2 1 (by decide)

end ZephyrStm32.Ota.Pc
