import ZephyrStm32.Lib.Bytes

/-!
# The SD card test: `test_write_speed` and `test_read_speed`

Chunk `i` of the test file holds the bytes `k + i`. Both loops make one call for each chunk and
take any count it returns: a short write moves the chunks behind it, and a short read moves the
verification away from the chunks.

**Theorem (`sound_iff`).** If both tests return 0, the file is the test file exactly when it has
its length and what the short writes moved, and the old bytes they left, have the right values.

It always is if all writes are full and the old file is not longer (`holds_of_writes`), or if it
has its length and all reads are full (`holds_of_reads`).
-/

namespace ZephyrStm32.SdSpeed

def chunkSize : Nat := 32 * 1024

def totalTestSize : Nat := 2 * 1024 * 1024

def chunkCount : Nat := totalTestSize / chunkSize

def enomem : Int := -12

def eio : Int := -5

/-! ## The file system -/

/-- The test file, with the position of the handle it is open by. -/
structure File where
  bytes : Mem
  size : Nat
  pos : Nat

/-- `fs_write`: an error, or a count; no more is written than was given. -/
def fsWrite (ret : Int) (f : File) (buf : List UInt8) : Except Int File :=
  if ret < 0 then .error ret
  else
    let n := min ret.toNat buf.length
    .ok ⟨f.bytes.write f.pos (buf.take n), max f.size (f.pos + n), f.pos + n⟩

/-- `fs_read`: an error, or the bytes read; no more than were asked for, or than there are. -/
def fsRead (ret : Int) (f : File) (size : Nat) : Except Int (List UInt8 × File) :=
  if ret < 0 then .error ret
  else
    let n := min ret.toNat (min size (f.size - f.pos))
    .ok (f.bytes.slice f.pos n, { f with pos := f.pos + n })

/-- What the calls of a test return: whether `k_malloc` gives a buffer, the result of `fs_open`,
and that of the `fs_write` or `fs_read` for each chunk. -/
structure Outcomes where
  buf : Bool
  opened : Int
  counts : Nat → Int

/-! ## The tests -/

/-- `(uint8_t)((i + seed) & 0xFF)`. -/
def testByte (i seed : Nat) : UInt8 := UInt8.ofNat ((i + seed) % 256)

def fillTestBuffer (size seed : Nat) : List UInt8 := (List.range size).map fun i => testByte i seed

def verifyBuffer (buf : List UInt8) (seed : Nat) : Bool :=
  (List.range buf.length).all fun i => buf.getD i 0 == testByte i seed

/-- The first `n` turns of the loop of `test_write_speed`. -/
def writeChunks (counts : Nat → Int) (n : Nat) (f : File) : Except Int File :=
  (List.range n).foldlM (fun f i => fsWrite (counts i) f (fillTestBuffer chunkSize i)) f

/-- `.ok` is the result 0, with the file as it is then. `FS_O_CREATE` keeps the file there is. -/
def testWriteSpeed (o : Outcomes) (f : File) : Except Int File :=
  if !o.buf then .error enomem
  else if o.opened < 0 then .error o.opened
  else writeChunks o.counts chunkCount { f with pos := 0 }

/-- The first `n` turns of the loop of `test_read_speed`, with `verify_ok`; a failed read ends the
loop. -/
def readChunks (counts : Nat → Int) (n : Nat) (f : File) : Except Int (Bool × File) :=
  (List.range n).foldlM (fun s i => do
    let r ← fsRead (counts i) s.2 chunkSize
    return (s.1 && verifyBuffer r.1 i, r.2)) (true, f)

def testReadSpeed (o : Outcomes) (f : File) : Int :=
  if !o.buf then enomem
  else if o.opened < 0 then o.opened
  else
    match readChunks o.counts chunkCount { f with pos := 0 } with
    | .ok (true, _) => 0
    | _ => eio

/-- No call of the test fails. -/
def Outcomes.Succeed (o : Outcomes) : Prop :=
  o.buf = true ∧ 0 ≤ o.opened ∧ ∀ i < chunkCount, 0 ≤ o.counts i

/-- The test file: byte `k` of chunk `i` is `(k + i) mod 256`. -/
def Holds (f : File) : Prop :=
  f.size = totalTestSize ∧
    ∀ i < chunkCount, ∀ k < chunkSize, f.bytes (i * chunkSize + k) = testByte k i

/-- Both tests return 0, one after the other. -/
def Passed (w r : Outcomes) (f f' : File) : Prop :=
  testWriteSpeed w f = .ok f' ∧ testReadSpeed r f' = 0

/-- The verdict is sound: what passes is the test file. -/
def Sound (w r : Outcomes) (f : File) : Prop := ∀ f', Passed w r f f' → Holds f'

/-- Where chunk `i` is written, after the counts of the chunks before it. -/
def writePos (counts : Nat → Int) : Nat → Nat
  | 0 => 0
  | i + 1 => writePos counts i + min (counts i).toNat chunkSize

/-- The lengths add up, each chunk is written where its bytes are right, and so are the old bytes
that stay. -/
structure Matches (counts : Nat → Int) (f : File) : Prop where
  size : max f.size (writePos counts chunkCount) = totalTestSize
  chunks : ∀ i < chunkCount, ∀ q, writePos counts i ≤ q → q < writePos counts (i + 1) →
    (q - writePos counts i + i) % 256 = (q % chunkSize + q / chunkSize) % 256
  rest : ∀ q, writePos counts chunkCount ≤ q → q < totalTestSize →
    f.bytes q = testByte (q % chunkSize) (q / chunkSize)

variable {counts : Nat → Int} {w r : Outcomes} {f f' : File} {n : Nat}

@[simp] theorem length_fillTestBuffer (size seed : Nat) :
    (fillTestBuffer size seed).length = size := by
  rw [fillTestBuffer, List.length_map, List.length_range]

theorem getD_fillTestBuffer {size k : Nat} (h : k < size) (seed : Nat) :
    (fillTestBuffer size seed).getD k 0 = testByte k seed := by
  simp [fillTestBuffer, List.getD_eq_getElem?_getD, List.getElem?_range h]

theorem testByte_inj {i j a b : Nat} : testByte i a = testByte j b ↔
    (i + a) % 256 = (j + b) % 256 := by
  rw [testByte, testByte, ← UInt8.toNat_inj]
  simp

/-! ## What the writes leave -/

theorem writePos_mono (counts : Nat → Int) : Monotone (writePos counts) :=
  monotone_nat_of_le_succ fun _ => Nat.le_add_right _ _

theorem writePos_le (counts : Nat → Int) (n : Nat) : writePos counts n ≤ n * chunkSize := by
  induction n with
  | zero => exact Nat.zero_le _
  | succ n ih =>
    rw [writePos, Nat.succ_mul]
    exact Nat.add_le_add ih (min_le_right _ _)

/-- Every byte before the position is in one of the chunks. -/
theorem exists_chunk {q : Nat} (h : q < writePos counts n) :
    ∃ i < n, writePos counts i ≤ q ∧ q < writePos counts (i + 1) := by
  induction n with
  | zero => exact absurd h (Nat.not_lt_zero q)
  | succ n ih =>
    rcases Nat.lt_or_ge q (writePos counts n) with hlt | hge
    · obtain ⟨i, hi, hq⟩ := ih hlt
      exact ⟨i, Nat.lt_succ_of_lt hi, hq⟩
    · exact ⟨n, Nat.lt_succ_self n, hge, h⟩

/-- The file after the first `n` chunks: they are written in turn, the rest is old. -/
structure Written (counts : Nat → Int) (n : Nat) (f f' : File) : Prop where
  pos : f'.pos = writePos counts n
  size : f'.size = max f.size (writePos counts n)
  chunks : ∀ i < n, ∀ q, writePos counts i ≤ q → q < writePos counts (i + 1) →
    f'.bytes q = testByte (q - writePos counts i) i
  rest : ∀ q, writePos counts n ≤ q → f'.bytes q = f.bytes q

theorem fsWrite_ok {ret : Int} {buf : List UInt8} (h : fsWrite ret f buf = .ok f') :
    f' = ⟨f.bytes.write f.pos (buf.take (min ret.toNat buf.length)),
      max f.size (f.pos + min ret.toNat buf.length), f.pos + min ret.toNat buf.length⟩ := by
  rw [fsWrite] at h
  split at h
  · cases h
  · exact (Except.ok.inj h).symm

/-- One more turn of a loop over the chunks. -/
theorem loop_succ {σ : Type} {turn : σ → Nat → Except Int σ} {s s' : σ} :
    (List.range (n + 1)).foldlM turn s = .ok s' ↔
      ∃ s₁, (List.range n).foldlM turn s = .ok s₁ ∧ turn s₁ n = .ok s' := by
  rw [List.range_succ, List.foldlM_append]
  simp only [List.foldlM_cons, List.foldlM_nil, bind_pure]
  cases (List.range n).foldlM turn s with
  | error ret => exact ⟨fun h => (nomatch h), fun ⟨_, h, _⟩ => (nomatch h)⟩
  | ok s₁ =>
    constructor
    · exact fun h => ⟨s₁, rfl, h⟩
    · rintro ⟨_, h₁, h⟩
      cases h₁
      exact h

/-- One more chunk. -/
theorem Written.succ {f₁ : File} (hw : Written counts n f f₁)
    (h : fsWrite (counts n) f₁ (fillTestBuffer chunkSize n) = .ok f') :
    Written counts (n + 1) f f' := by
  have hlen : (fillTestBuffer chunkSize n).length = chunkSize := length_fillTestBuffer _ _
  have hcount : ((fillTestBuffer chunkSize n).take (min (counts n).toNat chunkSize)).length =
      min (counts n).toNat chunkSize := by
    rw [List.length_take, hlen, min_eq_left (min_le_right _ _)]
  rw [fsWrite_ok h, hlen, hw.pos]
  refine ⟨rfl, ?_, ?_, ?_⟩
  · rw [hw.size, writePos]
    dsimp only
    omega
  · intro i hi q hle hlt
    rcases Nat.lt_succ_iff_lt_or_eq.1 hi with hi | rfl
    · have hlt' : q < writePos counts n := Nat.lt_of_lt_of_le hlt (writePos_mono counts hi)
      rw [← hw.chunks i hi q hle hlt]
      exact Mem.write_of_lt hlt'
    · obtain ⟨k, rfl⟩ := Nat.exists_eq_add_of_le hle
      rw [writePos, Nat.add_lt_add_iff_left] at hlt
      dsimp only
      rw [Mem.write_apply (by rwa [hcount]), Nat.add_sub_cancel_left, List.getD_eq_getElem?_getD,
        List.getElem?_take_of_lt hlt, ← List.getD_eq_getElem?_getD]
      exact getD_fillTestBuffer (by omega) _
  · intro q hle
    rw [writePos] at hle
    rw [← hw.rest q (by omega)]
    exact if_neg (by rw [hcount]; omega)

theorem written_of_writeChunks (hf : f.pos = 0) (h : writeChunks counts n f = .ok f') :
    Written counts n f f' := by
  induction n generalizing f' with
  | zero =>
    cases h
    exact ⟨hf, (max_eq_left (Nat.zero_le _)).symm, fun i hi => absurd hi (Nat.not_lt_zero i),
      fun _ _ => rfl⟩
  | succ n ih =>
    obtain ⟨f₁, h₁, hn⟩ := loop_succ.1 h
    exact (ih h₁).succ hn

theorem written_of_testWriteSpeed (h : testWriteSpeed w f = .ok f') :
    Written w.counts chunkCount { f with pos := 0 } f' := by
  rw [testWriteSpeed] at h
  split at h
  · cases h
  · split at h
    · cases h
    · exact written_of_writeChunks rfl h

/-! ## The test file -/

theorem total_eq : chunkCount * chunkSize = totalTestSize := by decide

/-- The test file by its offsets. -/
theorem holds_iff : Holds f ↔ f.size = totalTestSize ∧
    ∀ q < totalTestSize, f.bytes q = testByte (q % chunkSize) (q / chunkSize) := by
  refine and_congr_right fun _ => ⟨fun h q hq => ?_, fun h i hi k hk => ?_⟩
  · have hi : q / chunkSize < chunkCount := Nat.div_lt_of_lt_mul (by rwa [Nat.mul_comm, total_eq])
    rw [← h _ hi _ (Nat.mod_lt q (by decide)), Nat.mul_comm, Nat.div_add_mod]
  · have hq : i * chunkSize + k < totalTestSize := by
      have hle : (i + 1) * chunkSize ≤ chunkCount * chunkSize := Nat.mul_le_mul_right _ hi
      rw [Nat.succ_mul, total_eq] at hle
      omega
    have hmod : (i * chunkSize + k) % chunkSize = k := by
      rw [Nat.mul_comm, Nat.mul_add_mod, Nat.mod_eq_of_lt hk]
    have hdiv : (i * chunkSize + k) / chunkSize = i := by
      rw [Nat.mul_comm, Nat.mul_add_div (by decide), Nat.div_eq_of_lt hk, Nat.add_zero]
    rw [h _ hq, hmod, hdiv]

/-- What the writes leave is the test file exactly when lengths, chunks and old bytes match. -/
theorem Written.holds_iff_matches (hw : Written counts chunkCount { f with pos := 0 } f') :
    Holds f' ↔ Matches counts f := by
  have hlast := writePos_le counts chunkCount
  rw [total_eq] at hlast
  rw [holds_iff, hw.size]
  constructor
  · rintro ⟨hsize, hbytes⟩
    refine ⟨hsize, fun i hi q hle hlt => ?_, fun q hle hlt => ?_⟩
    · have hend := writePos_mono counts (Nat.succ_le_of_lt hi)
      rw [← testByte_inj, ← hw.chunks i hi q hle hlt]
      exact hbytes q (Nat.lt_of_lt_of_le hlt (hend.trans hlast))
    · rw [← hbytes q hlt]
      exact (hw.rest q hle).symm
  · intro hm
    refine ⟨hm.size, fun q hq => ?_⟩
    rcases Nat.lt_or_ge q (writePos counts chunkCount) with hlt | hge
    · obtain ⟨i, hi, hle, hlt⟩ := exists_chunk hlt
      rw [hw.chunks i hi q hle hlt, testByte_inj]
      exact hm.chunks i hi q hle hlt
    · rw [← hm.rest q hge hq]
      exact hw.rest q hge

/-! ## Full writes, full reads -/

theorem writePos_of_full (hfull : ∀ i < n, chunkSize ≤ (counts i).toNat) {i : Nat} (hi : i ≤ n) :
    writePos counts i = i * chunkSize := by
  induction i with
  | zero => rw [writePos, Nat.zero_mul]
  | succ i ih => rw [writePos, ih (Nat.le_of_succ_le hi), min_eq_right (hfull i hi), Nat.succ_mul]

/-- Full writes over a file that is not longer. -/
theorem holds_of_writes (h : testWriteSpeed w f = .ok f')
    (hfull : ∀ i < chunkCount, chunkSize ≤ (w.counts i).toNat) (hsize : f.size ≤ totalTestSize) :
    Holds f' := by
  have hpos := fun i (hi : i ≤ chunkCount) => writePos_of_full hfull hi
  have hlast : writePos w.counts chunkCount = totalTestSize := (hpos _ le_rfl).trans total_eq
  refine (written_of_testWriteSpeed h).holds_iff_matches.2 ⟨?_, fun i hi q hle hlt => ?_, ?_⟩
  · rw [hlast, max_eq_right hsize]
  · rw [hpos i hi.le] at hle ⊢
    rw [hpos (i + 1) hi, Nat.succ_mul] at hlt
    obtain ⟨k, rfl⟩ := Nat.exists_eq_add_of_le hle
    rw [Nat.add_lt_add_iff_left] at hlt
    rw [Nat.add_sub_cancel_left, Nat.mul_comm, Nat.mul_add_mod, Nat.mod_eq_of_lt hlt,
      Nat.mul_add_div (by decide), Nat.div_eq_of_lt hlt, Nat.add_zero]
  · intro q hle hlt
    rw [hlast] at hle
    exact absurd hlt (Nat.not_lt.2 hle)

theorem verifyBuffer_iff {buf : List UInt8} {seed : Nat} :
    verifyBuffer buf seed = true ↔ ∀ k < buf.length, buf.getD k 0 = testByte k seed := by
  simp [verifyBuffer]

theorem fsRead_ok {ret : Int} {size : Nat} {bytes : List UInt8}
    (h : fsRead ret f size = .ok (bytes, f')) :
    bytes = f.bytes.slice f.pos (min ret.toNat (min size (f.size - f.pos))) ∧
      f' = { f with pos := f.pos + min ret.toNat (min size (f.size - f.pos)) } := by
  rw [fsRead] at h
  split at h
  · cases h
  · obtain ⟨hbytes, hf⟩ := Prod.mk.inj (Except.ok.inj h)
    exact ⟨hbytes.symm, hf.symm⟩

theorem readChunks_succ {ok : Bool} (h : readChunks counts (n + 1) f = .ok (ok, f')) :
    ∃ ok₁ f₁ bytes, readChunks counts n f = .ok (ok₁, f₁) ∧
      fsRead (counts n) f₁ chunkSize = .ok (bytes, f') ∧ ok = (ok₁ && verifyBuffer bytes n) := by
  obtain ⟨⟨ok₁, f₁⟩, h₁, hturn⟩ := loop_succ.1 h
  refine ⟨ok₁, f₁, ?_⟩
  cases hread : fsRead (counts n) f₁ chunkSize with
  | error ret =>
    rw [hread] at hturn
    cases hturn
  | ok r =>
    rw [hread] at hturn
    obtain ⟨hok, rfl⟩ := Prod.mk.inj (Except.ok.inj hturn)
    exact ⟨r.1, h₁, rfl, hok.symm⟩

/-- Full reads verify chunk after chunk. -/
theorem readChunks_of_full (hf : f.pos = 0) (hn : n ≤ chunkCount) (hsize : f.size = totalTestSize)
    (hfull : ∀ i < n, chunkSize ≤ (counts i).toNat)
    (h : readChunks counts n f = .ok (true, f')) :
    f' = { f with pos := n * chunkSize } ∧
      ∀ i < n, ∀ k < chunkSize, f.bytes (i * chunkSize + k) = testByte k i := by
  induction n generalizing f' with
  | zero =>
    cases h
    refine ⟨?_, fun i hi => absurd hi (Nat.not_lt_zero i)⟩
    rw [Nat.zero_mul, ← hf]
  | succ n ih =>
    obtain ⟨ok₁, f₁, bytes, h₁, hread, hok⟩ := readChunks_succ h
    obtain ⟨rfl, hverify⟩ : ok₁ = true ∧ verifyBuffer bytes n = true := by simpa using hok.symm
    have hfull₁ : ∀ i < n, chunkSize ≤ (counts i).toNat := fun i hi =>
      hfull i (Nat.lt_succ_of_lt hi)
    obtain ⟨rfl, hbefore⟩ := ih (Nat.le_of_succ_le hn) hfull₁ h₁
    obtain ⟨rfl, rfl⟩ := fsRead_ok hread
    have hroom : chunkSize ≤ f.size - n * chunkSize := by
      have hle : (n + 1) * chunkSize ≤ chunkCount * chunkSize := Nat.mul_le_mul_right _ hn
      rw [Nat.succ_mul, total_eq, ← hsize] at hle
      omega
    have hcount : min (counts n).toNat (min chunkSize (f.size - n * chunkSize)) = chunkSize := by
      rw [min_eq_left hroom, min_eq_right (hfull n (Nat.lt_succ_self n))]
    dsimp only at hverify ⊢
    rw [hcount] at hverify ⊢
    refine ⟨by rw [Nat.succ_mul], fun i hi k hk => ?_⟩
    rcases Nat.lt_succ_iff_lt_or_eq.1 hi with hi | rfl
    · exact hbefore i hi k hk
    · rw [verifyBuffer_iff, Mem.length_slice] at hverify
      rw [← hverify k hk, List.getD_eq_getElem?_getD, Mem.getElem?_slice _ hk, Option.getD_some]

/-- Full reads of a file of the right length. -/
theorem holds_of_reads (h : testReadSpeed r f = 0)
    (hfull : ∀ i < chunkCount, chunkSize ≤ (r.counts i).toNat) (hsize : f.size = totalTestSize) :
    Holds f := by
  rw [testReadSpeed] at h
  split at h
  · cases h
  · split at h
    · omega
    · split at h
      · rename_i hread
        have hopen : ({ f with pos := 0 } : File).pos = 0 := rfl
        exact ⟨hsize, (readChunks_of_full hopen le_rfl hsize hfull hread).2⟩
      · cases h

/-! ## Nothing written, nothing read -/

theorem writeChunks_none (f : File) (hf : f.pos ≤ f.size) (n : Nat) :
    writeChunks (fun _ => 0) n f = .ok f := by
  have hwrite : ∀ buf, fsWrite 0 f buf = .ok f := by
    intro buf
    have hcount : min (0 : Int).toNat buf.length = 0 := Nat.zero_min _
    rw [fsWrite, if_neg (by decide)]
    simp only [hcount, List.take_zero, Mem.write_nil, Nat.add_zero, max_eq_left hf]
  rw [writeChunks]
  induction n with
  | zero => rfl
  | succ n ih =>
    exact loop_succ.2 ⟨f, ih, hwrite _⟩

/-- Reads that give nothing are verified, whatever the file is. -/
theorem readChunks_none (f : File) (n : Nat) :
    readChunks (fun _ => 0) n f = .ok (true, f) := by
  rw [readChunks]
  induction n with
  | zero => rfl
  | succ n ih =>
    have hread : fsRead 0 f chunkSize = .ok ([], f) := by
      have hcount : min (0 : Int).toNat (min chunkSize (f.size - f.pos)) = 0 := Nat.zero_min _
      rw [fsRead, if_neg (by decide)]
      simp only [hcount, Mem.slice_zero, Nat.add_zero]
    refine loop_succ.2 ⟨(true, f), ih, ?_⟩
    rw [hread]
    rfl

theorem testReadSpeed_none (f : File) : testReadSpeed ⟨true, 0, fun _ => 0⟩ f = 0 := by
  simp [testReadSpeed, readChunks_none]

/-! ## The verdict on every file system -/

theorem exists_fsWrite_iff {ret : Int} {buf : List UInt8} :
    (∃ f', fsWrite ret f buf = .ok f') ↔ 0 ≤ ret := by
  rw [fsWrite]
  by_cases h : ret < 0
  · rw [if_pos h]
    exact ⟨fun ⟨_, he⟩ => (nomatch he), fun hret => absurd h (Int.not_lt.2 hret)⟩
  · rw [if_neg h]
    exact ⟨fun _ => Int.not_lt.1 h, fun _ => ⟨_, rfl⟩⟩

/-- The loop ends unless a write fails. -/
theorem exists_writeChunks_iff :
    (∃ f', writeChunks counts n f = .ok f') ↔ ∀ i < n, 0 ≤ counts i := by
  induction n with
  | zero => exact ⟨fun _ i hi => absurd hi (Nat.not_lt_zero i), fun _ => ⟨f, rfl⟩⟩
  | succ n ih =>
    rw [Nat.forall_lt_succ_right, ← ih, writeChunks]
    simp only [loop_succ]
    constructor
    · rintro ⟨f', f₁, h₁, hn⟩
      exact ⟨⟨f₁, h₁⟩, exists_fsWrite_iff.1 ⟨f', hn⟩⟩
    · rintro ⟨⟨f₁, h₁⟩, hn⟩
      obtain ⟨f', hf'⟩ := exists_fsWrite_iff.2 hn
      exact ⟨f', f₁, h₁, hf'⟩

/-- A short count is no error: the write test returns 0 unless a call fails. -/
theorem testWriteSpeed_ok_iff : (∃ f', testWriteSpeed w f = .ok f') ↔ w.Succeed := by
  rw [testWriteSpeed, Outcomes.Succeed, ← exists_writeChunks_iff (f := { f with pos := 0 })]
  cases hbuf : w.buf with
  | false => exact ⟨fun ⟨_, h⟩ => (nomatch h), fun h => (nomatch h.1)⟩
  | true =>
    by_cases hopen : w.opened < 0
    · simp [hopen]
    · simp [hopen, Int.not_lt.1 hopen]

/-- **The verdict.** For every old file and all results of the calls, what passes both tests is the
test file exactly when the lengths add up, the chunks were written where their bytes are right,
and so are the old bytes behind them. No less will do for all results of the reads. -/
theorem sound_iff (w : Outcomes) (f : File) :
    ((∀ r, Sound w r f) ↔ (w.Succeed → Matches w.counts f)) ∧
      ∀ r, Sound w r f ↔ ((∃ f', Passed w r f f') → Matches w.counts f) := by
  have hpassed : ∀ r, Sound w r f ↔ ((∃ f', Passed w r f f') → Matches w.counts f) := by
    intro r
    constructor
    · rintro h ⟨f', hp⟩
      exact (written_of_testWriteSpeed hp.1).holds_iff_matches.1 (h f' hp)
    · intro h f' hp
      exact (written_of_testWriteSpeed hp.1).holds_iff_matches.2 (h ⟨f', hp⟩)
  refine ⟨⟨fun h hw => ?_, fun h r => (hpassed r).2 fun ⟨f', hp⟩ => ?_⟩, hpassed⟩
  · obtain ⟨f', hf'⟩ := testWriteSpeed_ok_iff.2 hw
    exact (hpassed _).1 (h ⟨true, 0, fun _ => 0⟩) ⟨f', hf', testReadSpeed_none f'⟩
  · exact h (testWriteSpeed_ok_iff.1 ⟨f', hp.1⟩)

/-- A card with no room: every write and every read returns 0, and so do both tests. -/
theorem not_sound :
    ¬ Sound ⟨true, 0, fun _ => 0⟩ ⟨true, 0, fun _ => 0⟩ ⟨fun _ => 0, 0, 0⟩ := by
  intro h
  have hwrite : testWriteSpeed ⟨true, 0, fun _ => 0⟩ ⟨fun _ => 0, 0, 0⟩ = .ok ⟨fun _ => 0, 0, 0⟩ :=
    writeChunks_none _ le_rfl _
  exact absurd (h _ ⟨hwrite, testReadSpeed_none _⟩).1 (by decide)

end ZephyrStm32.SdSpeed
