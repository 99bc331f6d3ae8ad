import ZephyrStm32.Lib.Bytes
import ZephyrStm32.Lib.Run

/-!
# The TCP console: `handle_client`

Each turn of the loop takes at most one character from the console and then what has arrived from
the network. Both go through `buf`: the line being typed is `buf[0 .. idx)`, and `recv` writes
from `buf[0]` on.

**Theorem (`faithful_iff`).** In a run of the loop the lines sent are the lines typed, as the
editor `edit` has them, exactly when the bytes received always agree with the line being typed
where they are written over it. No index outside `buf` is accessed in any run (`accesses_lt`).
-/

namespace ZephyrStm32.TcpConsole

open Machine

def bufSize : Nat := 1024

/-- `buf`, `idx`, and whether the loop goes on. -/
structure Client where
  buf : Mem
  idx : Nat
  connected : Bool

/-- What `recv` finds: bytes, none of them once the peer has closed; nothing so far (`EAGAIN`); or
another error. -/
inductive Incoming
  | bytes (available : List UInt8)
  | again
  | error

/-- What a turn of the loop meets: the result of `console_getchar`, `none` for a timeout, and what
`recv` finds. -/
structure Turn where
  c : Option UInt8
  incoming : Incoming

/-- The line a turn sends, and the indices of `buf` it accesses. -/
structure Effect where
  sent : Option (List UInt8)
  accesses : List Nat

namespace Client

/-- The first half of a turn: `console_getchar` and what is done with the character. -/
def typeChar (s : Client) : Option UInt8 → Effect × Client
  | none => (⟨none, []⟩, s)
  | some c =>
    if c = 0x0d ∨ c = 0x0a then
      if s.idx > 0 then
        let buf := s.buf.write s.idx [0x0a]
        (⟨some (buf.slice 0 (s.idx + 1)), s.idx :: List.range (s.idx + 1)⟩,
          { s with buf := buf, idx := 0 })
      else (⟨none, []⟩, s)
    else if c = 0x08 ∨ c = 0x7f then
      (⟨none, []⟩, if s.idx > 0 then { s with idx := s.idx - 1 } else s)
    else if s.idx < bufSize - 1 then
      (⟨none, [s.idx]⟩, { s with buf := s.buf.write s.idx [c], idx := s.idx + 1 })
    else (⟨none, []⟩, s)

/-- The second half: `recv`, the indices it accesses and what it leaves. The text printed ends at
`buf[ret]` at the latest. -/
def receive (s : Client) : Incoming → List Nat × Client
  | .bytes available =>
    let got := available.take (bufSize - 1)
    if got.length > 0 then
      (List.range (got.length + 1), { s with buf := s.buf.write 0 (got ++ [0]) })
    else ([], { s with connected := false })
  | .again => ([], s)
  | .error => ([], { s with connected := false })

/-- A turn of the loop. -/
def handleClient (s : Client) (i : Turn) : Effect × Client :=
  if s.connected then
    let typed := s.typeChar i.c
    let received := typed.2.receive i.incoming
    (⟨typed.1.sent, typed.1.accesses ++ received.1⟩, received.2)
  else (⟨none, []⟩, s)

/-- The line being typed. -/
def line (s : Client) : List UInt8 := s.buf.slice 0 s.idx

end Client

/-- A client has connected; `buf` is not initialised. -/
def start (buf : Mem) : Client := ⟨buf, 0, true⟩

/-! ## The editor -/

/-- What a character does to a line: the line sent, if it ends here, and the line being typed after
it. -/
def edit (line : List UInt8) : Option UInt8 → Option (List UInt8) × List UInt8
  | none => (none, line)
  | some c =>
    if c = 0x0d ∨ c = 0x0a then (if line = [] then none else some (line ++ [0x0a]), [])
    else if c = 0x08 ∨ c = 0x7f then (none, line.dropLast)
    else if line.length < 1023 then (none, line ++ [c])
    else (none, line)

abbrev ConsoleStep := Step Client Turn Effect

/-- The characters typed since the last line end, as edited. -/
def typed : List ConsoleStep → List UInt8
  | [] => []
  | st :: h => if st.before.connected then (edit (typed h) st.input.c).2 else typed h

/-- The turn sends what the editor sends, leaves the line being typed as it is there, and stays in
`buf`. -/
def Faithful (h : List ConsoleStep) (st : ConsoleStep) : Prop :=
  (st.output.sent = if st.before.connected then (edit (typed h) st.input.c).1 else none) ∧
    st.after.line = typed (st :: h) ∧ ∀ i ∈ st.output.accesses, i < bufSize

/-- The bytes received, with the zero behind them, are those of the line where they meet it. -/
def Agrees (line : List UInt8) : Incoming → Prop
  | .bytes available =>
    let got := available.take (bufSize - 1)
    got.length > 0 →
      ∀ j < line.length, j ≤ got.length → (got ++ [0]).getD j 0 = line.getD j 0
  | _ => True

/-- What arrives in this turn agrees with the line being typed. -/
def Undisturbed (h : List ConsoleStep) (st : ConsoleStep) : Prop :=
  st.before.connected = true → Agrees (typed (st :: h)) st.input.incoming

variable {s : Client} {h : List ConsoleStep} {buf : Mem}

/-! ## The two halves of a turn -/

@[simp] theorem length_line (s : Client) : s.line.length = s.idx := Mem.length_slice _ _ _

theorem line_eq_nil_iff : s.line = [] ↔ s.idx = 0 := by
  rw [← List.length_eq_zero_iff, length_line]

/-- A byte written behind the line. -/
theorem slice_write_idx (s : Client) (c : UInt8) :
    (s.buf.write s.idx [c]).slice 0 (s.idx + 1) = s.line ++ [c] := by
  have hw := Mem.slice_write_append s.buf 0 s.idx [c]
  rw [Nat.zero_add] at hw
  exact hw

/-- The first half of a turn does what the editor does, inside `buf`. -/
structure Edits (s : Client) (c : Option UInt8) (r : Effect × Client) : Prop where
  sent : r.1.sent = (edit s.line c).1
  line : r.2.line = (edit s.line c).2
  idx : r.2.idx < bufSize
  accesses : ∀ i ∈ r.1.accesses, i < bufSize

/-- A line end. -/
theorem edits_end (hidx : s.idx < bufSize) {c : UInt8} (hc : c = 0x0d ∨ c = 0x0a) :
    Edits s (some c) (s.typeChar (some c)) := by
  have hedit : edit s.line (some c) = (if s.line = [] then none else some (s.line ++ [0x0a]), []) :=
    if_pos hc
  rw [Client.typeChar, if_pos hc]
  by_cases hpos : s.idx > 0
  · have hne : s.line ≠ [] := fun he => hpos.ne' (line_eq_nil_iff.1 he)
    rw [if_pos hpos]
    refine ⟨?_, ?_, Nat.zero_lt_succ _, fun i hi => ?_⟩
    · rw [hedit, if_neg hne, ← slice_write_idx]
    · rw [hedit]
      rfl
    · rcases List.mem_cons.1 hi with rfl | hi
      · exact hidx
      · exact Nat.lt_of_lt_of_le (List.mem_range.1 hi) hidx
  · have hnil : s.line = [] := line_eq_nil_iff.2 (Nat.eq_zero_of_not_pos hpos)
    rw [if_neg hpos]
    refine ⟨?_, ?_, hidx, fun i hi => by cases hi⟩
    · rw [hedit, if_pos hnil]
    · rw [hedit, hnil]

/-- A backspace. -/
theorem edits_back (hidx : s.idx < bufSize) {c : UInt8} (hc : ¬ (c = 0x0d ∨ c = 0x0a))
    (hb : c = 0x08 ∨ c = 0x7f) : Edits s (some c) (s.typeChar (some c)) := by
  have hedit : edit s.line (some c) = (none, s.line.dropLast) := by
    rw [edit, if_neg hc, if_pos hb]
  rw [Client.typeChar, if_neg hc, if_pos hb]
  by_cases hpos : s.idx > 0
  · rw [if_pos hpos]
    refine ⟨?_, ?_, Nat.lt_of_le_of_lt (Nat.sub_le _ _) hidx, fun i hi => by cases hi⟩
    · rw [hedit]
    · rw [hedit, List.dropLast_eq_take, length_line]
      change s.buf.slice 0 (s.idx - 1) = (s.buf.slice 0 s.idx).take (s.idx - 1)
      rw [Mem.take_slice, min_eq_left (Nat.sub_le _ _)]
  · have hnil : s.line = [] := line_eq_nil_iff.2 (Nat.eq_zero_of_not_pos hpos)
    rw [if_neg hpos]
    refine ⟨?_, ?_, hidx, fun i hi => by cases hi⟩
    · rw [hedit]
    · rw [hedit, hnil]
      rfl

/-- Any other character. -/
theorem edits_char (hidx : s.idx < bufSize) {c : UInt8} (hc : ¬ (c = 0x0d ∨ c = 0x0a))
    (hb : ¬ (c = 0x08 ∨ c = 0x7f)) : Edits s (some c) (s.typeChar (some c)) := by
  have hedit : edit s.line (some c) =
      if s.idx < 1023 then (none, s.line ++ [c]) else (none, s.line) := by
    rw [edit, if_neg hc, if_neg hb, length_line]
  rw [Client.typeChar, if_neg hc, if_neg hb]
  by_cases hroom : s.idx < bufSize - 1
  · rw [if_pos (show s.idx < 1023 from hroom)] at hedit
    rw [if_pos hroom]
    refine ⟨?_, ?_, Nat.succ_lt_of_lt_pred hroom, fun i hi => ?_⟩
    · rw [hedit]
    · rw [hedit]
      exact slice_write_idx s c
    · rw [List.mem_singleton.1 hi]
      exact hidx
  · rw [if_neg (show ¬ s.idx < 1023 from hroom)] at hedit
    rw [if_neg hroom]
    refine ⟨?_, ?_, hidx, fun i hi => by cases hi⟩
    · rw [hedit]
    · rw [hedit]

theorem edits_typeChar (hidx : s.idx < bufSize) (c : Option UInt8) :
    Edits s c (s.typeChar c) := by
  cases c with
  | none => exact ⟨rfl, rfl, hidx, fun i hi => by cases hi⟩
  | some c =>
    by_cases hc : c = 0x0d ∨ c = 0x0a
    · exact edits_end hidx hc
    · by_cases hb : c = 0x08 ∨ c = 0x7f
      · exact edits_back hidx hc hb
      · exact edits_char hidx hc hb

/-- What arrives leaves the line as it is exactly when it agrees with it. -/
theorem receive_line (s : Client) (incoming : Incoming) :
    (s.receive incoming).2.line = s.line ↔ Agrees s.line incoming := by
  cases incoming with
  | bytes available =>
    rw [Client.receive, Agrees]
    split
    · rename_i hpos
      rw [imp_iff_right hpos, length_line]
      refine Mem.slice_write_eq_slice_iff.trans (forall₂_congr fun j _ => ?_)
      rw [List.length_append, List.length_singleton, Nat.lt_succ_iff]
      rfl
    · rename_i hzero
      exact ⟨fun _ hpos => absurd hpos hzero, fun _ => rfl⟩
  | again => exact ⟨fun _ => trivial, fun _ => rfl⟩
  | error => exact ⟨fun _ => trivial, fun _ => rfl⟩

theorem receive_idx (s : Client) (incoming : Incoming) : (s.receive incoming).2.idx = s.idx := by
  cases incoming with
  | bytes available =>
    rw [Client.receive]
    split <;> rfl
  | again => rfl
  | error => rfl

theorem receive_accesses (s : Client) (incoming : Incoming) :
    ∀ i ∈ (s.receive incoming).1, i < bufSize := by
  intro i hi
  cases incoming with
  | bytes available =>
    rw [Client.receive] at hi
    split at hi
    · have hlt := List.mem_range.1 hi
      have hle := List.length_take_le (bufSize - 1) available
      have hpos : 0 < bufSize := by decide
      omega
    · cases hi
  | again => cases hi
  | error => cases hi

/-! ## Runs of the loop -/

theorem idx_lt (hr : Run Client.handleClient (start buf) h s) : s.idx < bufSize := by
  refine hr.invariant (P := fun _ s => s.idx < bufSize) (Nat.zero_lt_succ _) fun h s i _ hidx => ?_
  rw [Client.handleClient]
  split
  · rw [receive_idx]
    exact (edits_typeChar hidx i.c).idx
  · exact hidx

/-- No index outside `buf` is accessed. -/
theorem accesses_lt (hidx : s.idx < bufSize) (i : Turn) :
    ∀ j ∈ (s.handleClient i).1.accesses, j < bufSize := by
  intro j hj
  rw [Client.handleClient] at hj
  split at hj
  · rcases List.mem_append.1 hj with hj | hj
    · exact (edits_typeChar hidx i.c).accesses j hj
    · exact receive_accesses _ _ j hj
  · cases hj

/-- A turn is faithful exactly when what arrives does not disturb the line. -/
theorem faithful_iff_undisturbed (hidx : s.idx < bufSize) (hline : s.line = typed h) (i : Turn) :
    Faithful h (stepOf Client.handleClient s i) ↔
      Undisturbed h (stepOf Client.handleClient s i) := by
  obtain ⟨hsent, hedit, -, -⟩ := edits_typeChar hidx i.c
  rw [hline] at hsent hedit
  have haccesses := accesses_lt hidx i
  rw [Faithful, Undisturbed, typed, stepOf_before, stepOf_input, stepOf_output, stepOf_after]
  cases hc : s.connected with
  | true =>
    have hturn : s.handleClient i = _ := if_pos hc
    rw [hturn] at haccesses ⊢
    simp only [if_true]
    rw [← hedit, receive_line]
    exact ⟨fun hf _ => hf.2.1, fun hu => ⟨hsent, hu trivial, haccesses⟩⟩
  | false =>
    have hturn : s.handleClient i = (⟨none, []⟩, s) := if_neg (by simp [hc])
    rw [hturn] at haccesses ⊢
    exact ⟨fun _ hf => (nomatch hf), fun _ => ⟨rfl, hline, haccesses⟩⟩

/-- While nothing disturbs the line, `buf` holds what the editor has. -/
theorem line_eq_typed (hr : Run Client.handleClient (start buf) h s)
    (hu : Always Undisturbed h) : s.line = typed h := by
  refine hr.invariant_of_always (P := fun h s => s.line = typed h) hu rfl ?_
  intro h s i hr hline hi
  exact ((faithful_iff_undisturbed (idx_lt hr) hline i).2 hi).2.1

/-- **The lines sent.** In every run of the loop, over all characters and all that arrives: each
turn sends the line that was typed, leaves the line being typed alone and stays inside `buf`
exactly when what arrives always agrees with the line being typed. -/
theorem faithful_iff (hr : Run Client.handleClient (start buf) h s) :
    Always Faithful h ↔ Always Undisturbed h :=
  (hr.always_iff fun _ _ i hr hu =>
    (faithful_iff_undisturbed (idx_lt hr) (line_eq_typed hr hu) i).symm).symm

/-- A character typed, a line sent, and bytes that arrive after it. -/
theorem faithful_iff_three : Always Faithful (exec Client.handleClient (start fun _ => 0)
    [⟨some 0x61, .again⟩, ⟨some 0x0d, .bytes [0x78]⟩, ⟨none, .bytes []⟩]).1 := by
  refine (faithful_iff (run_exec _ _ _)).2 ⟨?_, ?_, ?_, trivial⟩
  · exact fun _ hpos => absurd hpos (by decide)
  · exact fun _ _ j hj => absurd hj (Nat.not_lt_zero j)
  · exact fun _ => trivial

/-- A byte that arrives while a line is typed is sent in the place of the one typed. -/
theorem not_faithful : ∃ h s, Run Client.handleClient (start fun _ => 0) h s ∧
    h.head?.map (fun st => st.output.sent) = some (some [0x78, 0x0a]) ∧
    (edit (typed h.tail) (some 0x0d)).1 = some [0x61, 0x0a] ∧ ¬ Always Faithful h := by
  refine ⟨_, _, run_exec Client.handleClient (start fun _ => 0)
    [⟨some 0x61, .again⟩, ⟨none, .bytes [0x78]⟩, ⟨some 0x0d, .again⟩], rfl, rfl, fun hf => ?_⟩
  exact absurd hf.1.1 (by decide)

end ZephyrStm32.TcpConsole
