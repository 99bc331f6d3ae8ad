import ZephyrStm32.Lib.Paged

/-!
# `eeprom_write`, `eeprom_read` and the test of `main`

The AT24C02 takes a write in one page of eight cells and reads on through all of them.
`eeprom_write` knows nothing of pages: it sends up to 16 bytes in one transfer.

**Theorem (`roundTrip_iff`).** Data come back, and all other cells are as before, exactly when what
goes astray in the page finds its place filled already. For all cells this is so only if the data
end in the page they begin in.

The test of `main` writes 16 bytes and never passes (`main_ne_zero`).
-/

namespace ZephyrStm32.Eeprom

def testDataSize : Nat := 16

def testOffset : UInt8 := 0x00

/-- `size` and `pagesize` of `eeprom0` in the device tree. -/
def eepromSize : Nat := 256

def pageSize : Nat := 8

/-! ## The device and the bus -/

/-- The cells, and the address the next access begins at. -/
structure At24 where
  cells : Mem
  addr : Nat

namespace At24

/-- A write transfer: the first byte is the address, the others are stored. -/
def receive (e : At24) : List UInt8 → At24
  | [] => e
  | a :: l => ⟨Paged.write pageSize e.cells a.toNat l, Paged.cell pageSize a.toNat l.length⟩

/-- A sequential read: the address counts up through all cells. -/
def send (e : At24) (n : Nat) : List UInt8 × At24 :=
  ((List.range n).map fun i => e.cells ((e.addr + i) % eepromSize),
    { e with addr := (e.addr + n) % eepromSize })

end At24

/-- What happens to a transfer: its result, and what a failed one leaves of the device. -/
structure Transfer where
  ret : Int
  left : At24

def i2cWriteDt (t : Transfer) (e : At24) (buf : List UInt8) : Except Int Unit × At24 :=
  if t.ret < 0 then (.error t.ret, t.left) else (.ok (), e.receive buf)

def i2cReadDt (t : Transfer) (e : At24) (len : Nat) : Except Int (List UInt8) × At24 :=
  if t.ret < 0 then (.error t.ret, t.left) else (.ok (e.send len).1, (e.send len).2)

theorem i2cWriteDt_cases (t : Transfer) (e : At24) (buf : List UInt8) :
    i2cWriteDt t e buf = (.ok (), e.receive buf) ∨
      ∃ ret < 0, i2cWriteDt t e buf = (.error ret, t.left) := by
  rw [i2cWriteDt]
  by_cases h : t.ret < 0
  · exact Or.inr ⟨t.ret, h, if_pos h⟩
  · exact Or.inl (if_neg h)

theorem i2cReadDt_cases (t : Transfer) (e : At24) (len : Nat) :
    i2cReadDt t e len = (.ok (e.send len).1, (e.send len).2) ∨
      ∃ ret < 0, i2cReadDt t e len = (.error ret, t.left) := by
  rw [i2cReadDt]
  by_cases h : t.ret < 0
  · exact Or.inr ⟨t.ret, h, if_pos h⟩
  · exact Or.inl (if_neg h)

/-! ## `eeprom_write`, `eeprom_read`, `main` -/

/-- `-EINVAL`. -/
def einval : Int := -22

/-- `data` are the `len` bytes at `data`; `.ok ()` is the result 0. -/
def eepromWrite (t : Transfer) (e : At24) (offset : UInt8) (data : List UInt8) :
    Except Int Unit × At24 :=
  if data.length > testDataSize then (.error einval, e) else i2cWriteDt t e (offset :: data)

/-- The bytes read into `data`, or the error. -/
def eepromRead (t t' : Transfer) (e : At24) (offset : UInt8) (len : Nat) :
    Except Int (List UInt8) × At24 :=
  if len > testDataSize then (.error einval, e)
  else
    match i2cWriteDt t e [offset] with
    | (.error ret, e) => (.error ret, e)
    | (.ok (), e) => i2cReadDt t' e len

def writeData : List UInt8 := (List.range testDataSize).map UInt8.ofNat

/-- What `main` returns, with the device ready or not. The single byte it reads at the end is
only printed. -/
def main (ready : Bool) (t t' t'' : Transfer) (e : At24) : Int :=
  if !ready then -1
  else
    match eepromWrite t e testOffset writeData with
    | (.error ret, _) => ret
    | (.ok (), e) =>
      match (eepromRead t' t'' e testOffset testDataSize).1 with
      | .error ret => ret
      | .ok readData => if writeData = readData then 0 else -1

variable {e : At24} {offset : UInt8} {data : List UInt8} {len : Nat}

/-- A write stores the data, or returns an error. -/
theorem eepromWrite_cases (t : Transfer) (e : At24) (offset : UInt8) (data : List UInt8) :
    eepromWrite t e offset data = (.ok (), e.receive (offset :: data)) ∨
      ∃ ret < 0, ∃ e', eepromWrite t e offset data = (.error ret, e') := by
  rw [eepromWrite]
  by_cases h : data.length > testDataSize
  · exact Or.inr ⟨einval, by decide, e, if_pos h⟩
  · rw [if_neg h]
    rcases i2cWriteDt_cases t e (offset :: data) with hok | ⟨ret, hret, herr⟩
    · exact Or.inl hok
    · exact Or.inr ⟨ret, hret, _, herr⟩

/-- What is read are the cells from `offset` on. -/
theorem send_receive (h : offset.toNat + len ≤ eepromSize) :
    ((e.receive [offset]).send len).1 = e.cells.slice offset.toNat len := by
  refine List.map_congr_left fun i hi => ?_
  have hlt : offset.toNat + i < eepromSize :=
    Nat.lt_of_lt_of_le (Nat.add_lt_add_left (List.mem_range.1 hi) _) h
  simp only [At24.receive, Paged.write, List.length_nil, Paged.cell_zero, Nat.mod_eq_of_lt hlt]

/-- A read gives the cells from `offset` on, or returns an error. -/
theorem eepromRead_cases (t t' : Transfer) (e : At24) (h : offset.toNat + len ≤ eepromSize) :
    (eepromRead t t' e offset len).1 = .ok (e.cells.slice offset.toNat len) ∨
      ∃ ret < 0, (eepromRead t t' e offset len).1 = .error ret := by
  rw [eepromRead]
  by_cases hlen : len > testDataSize
  · rw [if_pos hlen]
    exact Or.inr ⟨einval, by decide, rfl⟩
  · rw [if_neg hlen, ← send_receive h]
    rcases i2cWriteDt_cases t e [offset] with haddr | ⟨ret, hret, herr⟩
    · rw [haddr]
      dsimp only
      rcases i2cReadDt_cases t' (e.receive [offset]) len with hok | ⟨ret, hret, herr⟩
      · rw [hok]
        exact Or.inl rfl
      · rw [herr]
        exact Or.inr ⟨ret, hret, rfl⟩
    · rw [herr]
      exact Or.inr ⟨ret, hret, rfl⟩

/-! ## The round trip -/

/-- If the write succeeds, all other cells are as before, and a read that succeeds gives the data
back. -/
def RoundTrip (e : At24) (offset : UInt8) (data : List UInt8) : Prop :=
  ∀ (t t' t'' : Transfer) (e' : At24), eepromWrite t e offset data = (.ok (), e') →
    (∀ i < eepromSize, ¬ (offset.toNat ≤ i ∧ i < offset.toNat + data.length) →
      e'.cells i = e.cells i) ∧
    ∀ bytes, (eepromRead t' t'' e' offset data.length).1 = .ok bytes → bytes = data

/-- What goes astray in the page finds its place filled already: the cells behind the page hold
the bytes that should go there, and the cells these go to instead end up with what they should
have. -/
def Absorbed (e : At24) (offset : UInt8) (data : List UInt8) : Prop :=
  ∀ k < data.length, pageSize ≤ offset.toNat % pageSize + k →
    e.cells (offset.toNat + k) = data.getD k 0 ∧
      (data.length ≤ k + pageSize →
        e.cells.write offset.toNat data (Paged.cell pageSize offset.toNat k) = data.getD k 0)

/-- The round trip is that the write is an ordinary one. -/
theorem roundTrip_iff_write (hlen : data.length ≤ testDataSize)
    (hfit : offset.toNat + data.length ≤ eepromSize) : RoundTrip e offset data ↔
      Paged.write pageSize e.cells offset.toNat data = e.cells.write offset.toNat data := by
  constructor
  · intro h
    have hwrite : eepromWrite ⟨0, e⟩ e offset data = (.ok (), e.receive (offset :: data)) :=
      if_neg (Nat.not_lt.2 hlen)
    have hread : (eepromRead ⟨0, e⟩ ⟨0, e⟩ (e.receive (offset :: data)) offset data.length).1 =
        .ok ((e.receive (offset :: data)).cells.slice offset.toNat data.length) := by
      rw [← send_receive hfit, eepromRead, if_neg (Nat.not_lt.2 hlen)]
      rfl
    obtain ⟨hout, hback⟩ := h _ _ _ _ hwrite
    have hin := (Mem.slice_eq_iff rfl).1 (hback _ hread)
    funext i
    by_cases hi : offset.toNat ≤ i ∧ i < offset.toNat + data.length
    · obtain ⟨k, rfl⟩ := Nat.exists_eq_add_of_le hi.1
      have hk : k < data.length := Nat.lt_of_add_lt_add_left hi.2
      rw [Mem.write_apply hk]
      exact hin k hk
    · rw [Mem.write, if_neg hi]
      rcases Nat.lt_or_ge i eepromSize with hlt | hge
      · exact hout i hlt hi
      · refine Paged.write_apply_of_ne (by decide) fun k _ hk => ?_
        have hcell := (Paged.cell_bounds (p := pageSize) (by decide) offset.toNat k).2
        have hoff := offset.toNat_lt
        simp only [eepromSize, pageSize] at *
        omega
  · intro h t t' t'' e' hw
    rcases eepromWrite_cases t e offset data with hok | ⟨ret, -, e'', herr⟩
    · obtain ⟨-, rfl⟩ := Prod.mk.inj (hok.symm.trans hw)
      have hcells : (e.receive (offset :: data)).cells = e.cells.write offset.toNat data := h
      constructor
      · intro i _ hi
        rw [hcells, Mem.write, if_neg hi]
      · intro bytes hr
        rcases eepromRead_cases t' t'' (e.receive (offset :: data)) hfit with hok | ⟨_, -, herr⟩
        · rw [← Except.ok.inj (hok.symm.trans hr), hcells, Mem.slice_write]
        · cases herr.symm.trans hr
    · cases herr.symm.trans hw

/-- Some cells always show that data leave their page. -/
theorem fits_of_roundTrip (hlen : data.length ≤ testDataSize)
    (hfit : offset.toNat + data.length ≤ eepromSize) (h : ∀ e, RoundTrip e offset data) :
    offset.toNat % pageSize + data.length ≤ pageSize := by
  by_contra hpage
  have hmod := Nat.mod_lt offset.toNat (y := pageSize) (by decide)
  obtain ⟨k, hk⟩ := Nat.exists_eq_add_of_lt hmod
  have hlt : k + 1 < data.length := by omega
  have hne : data.getD (k + 1) 0 + 1 ≠ data.getD (k + 1) 0 := by simp
  have hw := (roundTrip_iff_write hlen hfit).1 (h ⟨fun _ => data.getD (k + 1) 0 + 1, 0⟩)
  exact hne (((Paged.write_eq_iff (by decide)).1 hw (k + 1) hlt (by omega)).1)

/-- **The round trip.** Whatever the bus does, data come back and leave the other cells alone
exactly when nothing goes astray in the page, or what does finds its place filled; whatever the
cells hold, exactly when the data end in the page they begin in. -/
theorem roundTrip_iff (e : At24) (offset : UInt8) (data : List UInt8)
    (hlen : data.length ≤ testDataSize) (hfit : offset.toNat + data.length ≤ eepromSize) :
    (RoundTrip e offset data ↔ Absorbed e offset data) ∧
      ((∀ e, RoundTrip e offset data) ↔
        offset.toNat % pageSize + data.length ≤ pageSize) := by
  constructor
  · rw [roundTrip_iff_write hlen hfit]
    exact Paged.write_eq_iff (by decide)
  · refine ⟨fits_of_roundTrip hlen hfit, fun hpage e => ?_⟩
    exact (roundTrip_iff_write hlen hfit).2 (Paged.write_of_fits (by decide) hpage)

theorem roundTrip_iff_three : ([1, 2, 3] : List UInt8).length ≤ testDataSize ∧
    (5 : UInt8).toNat + 3 ≤ eepromSize ∧ ∀ e, RoundTrip e 5 [1, 2, 3] :=
  ⟨by decide, by decide,
    (roundTrip_iff ⟨fun _ => 0, 0⟩ 5 [1, 2, 3] (by decide) (by decide)).2.2 (by decide)⟩

/-- The test of `main` on an erased memory: the bytes 8 to 15 are stored over 0 to 7. -/
theorem not_roundTrip : writeData.length ≤ testDataSize ∧
    testOffset.toNat + writeData.length ≤ eepromSize ∧
    ¬ RoundTrip ⟨fun _ => 0xff, 0⟩ testOffset writeData := by
  refine ⟨by decide, by decide, fun h => ?_⟩
  have hback := (h ⟨0, ⟨fun _ => 0, 0⟩⟩ ⟨0, ⟨fun _ => 0, 0⟩⟩ ⟨0, ⟨fun _ => 0, 0⟩⟩ _ rfl).2 _ rfl
  exact absurd hback (by decide)

/-- **The test of `main`.** It writes two pages in one transfer, and does not return 0 whatever the
cells hold and whatever the bus does. -/
theorem main_ne_zero (ready : Bool) (t t' t'' : Transfer) (e : At24) :
    main ready t t' t'' e ≠ 0 := by
  rw [main]
  cases ready with
  | false => exact (by decide : (-1 : Int) ≠ 0)
  | true =>
    rcases eepromWrite_cases t e testOffset writeData with hw | ⟨ret, hret, e', hw⟩
    · have hfirst : (e.receive (testOffset :: writeData)).cells 0 = 8 :=
        Paged.write_apply_cell (k := 8) (by decide) (by decide) (by decide)
      have hne : writeData ≠
          (e.receive (testOffset :: writeData)).cells.slice testOffset.toNat testDataSize := by
        intro he
        have hzero := (Mem.slice_eq_iff (l := writeData) rfl).1 he.symm 0 (by decide)
        exact absurd (hfirst.symm.trans hzero) (by decide)
      rw [hw]
      have hfit : testOffset.toNat + testDataSize ≤ eepromSize := by decide
      rcases eepromRead_cases t' t'' (e.receive (testOffset :: writeData)) hfit with
        hr | ⟨ret, hret, hr⟩
      · simp [hr, hne]
      · simp [hr, hret.ne]
    · rw [hw]
      exact hret.ne

end ZephyrStm32.Eeprom
