import ZephyrStm32.Lib.CString
import ZephyrStm32.Lib.Guarded

/-!
# The mutex demo

The writer counts up `shared_counter` and writes a text into `shared_buffer`, the reader copies both
and prints them; `resource_mutex` keeps them apart. Here every access to a variable or to a
character of the buffer is a step of its own, and the threads are interrupted between any two.

**Theorem (`lines_faithful`).** Each line of the writer shows the next count and the text for it,
and each line of the reader repeats the last line of the writer: what is printed is never a mixture
of two updates.

The other threads guard no data. **Theorem (`unlocks_owned`).** Whichever of them share a mutex, an
unlock is made by the thread that has it, after a timeout and within the recursion too.
-/

namespace ZephyrStm32.Mutex

open CString Interact
open Relation (ReflTransGen)

def bufferSize : Nat := 64

inductive Line
  | writer (counter : Int32) (text : List Char)
  | reader (counter : Int32) (text : List Char)
  deriving DecidableEq

/-- The shared variables, `write_count` of the writer, and what was printed, the latest first. -/
structure Resource where
  sharedCounter : Int32
  sharedBuffer : Nat → Char
  writeCount : Int32
  lines : List Line

def Resource.start : Resource := ⟨0, fun _ => '\x00', 0, []⟩

/-- The accesses; `uptime` and `msleep` touch none of the variables. -/
inductive Op
  | getCounter
  | setCounter (v : Int32)
  | getWriteCount
  | setWriteCount (v : Int32)
  | getChar (i : Nat)
  | setChar (i : Nat) (ch : Char)
  | uptime
  | printk (line : Line)
  | msleep (ms : Nat)

abbrev Op.Res : Op → Type
  | .getCounter => Int32
  | .setCounter _ => Unit
  | .getWriteCount => Int32
  | .setWriteCount _ => Unit
  | .getChar _ => Char
  | .setChar .. => Unit
  | .uptime => UInt32
  | .printk _ => Unit
  | .msleep _ => Unit

def Accesses : Resource → (op : Op) → op.Res → Resource → Prop
  | s, .getCounter, x, s' => x = s.sharedCounter ∧ s' = s
  | s, .setCounter v, _, s' => s' = { s with sharedCounter := v }
  | s, .getWriteCount, x, s' => x = s.writeCount ∧ s' = s
  | s, .setWriteCount v, _, s' => s' = { s with writeCount := v }
  | s, .getChar i, x, s' => x = s.sharedBuffer i ∧ s' = s
  | s, .setChar i ch, _, s' => s' = { s with sharedBuffer := Function.update s.sharedBuffer i ch }
  | s, .uptime, _, s' => s' = s
  | s, .printk line, _, s' => s' = { s with lines := line :: s.lines }
  | s, .msleep _, _, s' => s' = s

abbrev Code (α : Type) := Interact (Act Op) (Act.Res Op.Res) Empty α

namespace Code

/-- With `K_FOREVER`. -/
def kMutexLock : Code Bool := .ask (.lock true) .done

def kMutexUnlock : Code Bool := .ask .unlock .done

def access (op : Op) : Code op.Res := .ask (.access op) .done

def setChars : Nat → List Char → Code Unit
  | _, [] => pure ()
  | i, ch :: cs => do
    access (.setChar i ch)
    setChars (i + 1) cs

/-- `snprintf(shared_buffer, sizeof(shared_buffer), ..)`. -/
def snprintf (text : List Char) : Code Unit :=
  setChars 0 (text.take (bufferSize - 1) ++ ['\x00'])

/-- The string at `i`, of which at most `n` characters are read. -/
def getString : Nat → Nat → Code (List Char)
  | 0, _ => pure []
  | n + 1, i => do
    let ch ← access (.getChar i)
    if ch = '\x00' then pure []
    else do
      let rest ← getString n (i + 1)
      pure (ch :: rest)

end Code

open Code

/-- `"Writer update #%d at %u ms"`. -/
@[irreducible] def updateText (count : Int32) (ms : UInt32) : List Char :=
  s!"Writer update #{count} at {ms} ms".toList

/-- One round of `writer_thread_func`. -/
def writerThreadFunc : Code Unit := do
  let _ ← kMutexLock
  let counter ← access .getCounter
  access (.setCounter (counter + 1))
  let count ← access .getWriteCount
  access (.setWriteCount (count + 1))
  let ms ← access .uptime
  snprintf (updateText count ms)
  let counter ← access .getCounter
  let text ← getString bufferSize 0
  access (.printk (.writer counter text))
  access (.msleep 500)
  let _ ← kMutexUnlock
  access (.msleep 1000)

/-- One round of `reader_thread_func`: `strncpy` and the NUL behind it leave the string that is read
here in `local_buffer`. -/
def readerThreadFunc : Code Unit := do
  let _ ← kMutexLock
  let currentCounter ← access .getCounter
  let localBuffer ← getString (bufferSize - 1) 0
  access (.printk (.reader currentCounter localBuffer))
  let _ ← kMutexUnlock
  access (.msleep 1500)

inductive ThreadId
  | writer | reader
  deriving DecidableEq

def threadFunc : ThreadId → Code Unit
  | .writer => writerThreadFunc
  | .reader => readerThreadFunc

/-! ## What is printed -/

/-- What the last line of the writer shows. -/
def lastWritten : List Line → Int32 × List Char
  | [] => (0, [])
  | .writer counter text :: _ => (counter, text)
  | .reader .. :: lines => lastWritten lines

/-- A line is right, after those before it. -/
def Line.Right (before : List Line) : Line → Prop
  | .writer counter text => counter = (lastWritten before).1 + 1 ∧
    ∃ ms, text = updateText (lastWritten before).1 ms
  | .reader counter text => (counter, text) = lastWritten before

/-- All lines are right. -/
def Faithful (lines : List Line) : Prop :=
  ∀ after line before, lines = after ++ line :: before → line.Right before

theorem faithful_nil : Faithful [] := fun after line before h => by simp at h

theorem Faithful.cons {lines : List Line} {line : Line} (h : Faithful lines)
    (hl : line.Right lines) : Faithful (line :: lines) := by
  intro after l before he
  cases after with
  | nil =>
    obtain ⟨rfl, rfl⟩ := List.cons.inj he
    exact hl
  | cons a after => exact h after l before (List.cons.inj he).2

/-! ## The text of an update -/

variable {i n m : Nat} {cs text : List Char} {s : Resource}

theorem updateText_eq (count : Int32) (ms : UInt32) : updateText count ms =
    "Writer update #".toList ++ (toString count).toList ++ " at ".toList ++
      (toString ms).toList ++ " ms".toList := by
  simp only [updateText, String.toList_append]
  rfl

/-- The text fits into the buffer, and has no NUL. -/
theorem updateText_fits (count : Int32) (ms : UInt32) :
    '\x00' ∉ updateText count ms ∧ (updateText count ms).length < bufferSize := by
  obtain ⟨hnul, hlength⟩ := toString_int32 count
  obtain ⟨hnul', hlength'⟩ := toString_uint32 ms
  rw [updateText_eq]
  constructor
  · simp only [List.mem_append]
    rintro ((((hm | hm) | hm) | hm) | hm)
    · exact absurd hm (by decide)
    · exact hnul hm
    · exact absurd hm (by decide)
    · exact hnul' hm
    · exact absurd hm (by decide)
  · have hwords : "Writer update #".toList.length = 15 ∧ " at ".toList.length = 4 ∧
        " ms".toList.length = 3 := by decide
    simp only [List.length_append, bufferSize]
    omega

/-! ## The two threads under the lock -/

/-- All the time. -/
def Shown (s : Resource) : Prop := Faithful s.lines

/-- While nobody has the lock. -/
structure Settled (s : Resource) : Prop where
  shown : Shown s
  counter : (lastWritten s.lines).1 = s.sharedCounter
  buffer : StringAt s.sharedBuffer 0 (lastWritten s.lines).2
  length : (lastWritten s.lines).2.length < bufferSize
  writeCount : s.writeCount = s.sharedCounter

theorem settled_start : Settled .start where
  shown := faithful_nil
  counter := rfl
  buffer := ⟨fun k hk => absurd hk (Nat.not_lt_zero k), rfl, List.not_mem_nil⟩
  length := by decide
  writeCount := rfl

theorem guarded_setChars {next : Unit → Code Unit} (hs : Shown s)
    (h : Guarded Accesses Shown Settled (next ()) (m + 1)
      { s with sharedBuffer := written s.sharedBuffer i cs }) :
    Guarded Accesses Shown Settled (setChars i cs >>= next : Code Unit) (m + 1) s := by
  induction cs generalizing i s with
  | nil => exact h
  | cons ch cs ih =>
    rintro x s' rfl
    exact ⟨hs, ih hs h⟩

/-- A text that fits is written whole. -/
theorem guarded_snprintf {next : Unit → Code Unit} (hs : Shown s) (hn : text.length < bufferSize)
    (h : Guarded Accesses Shown Settled (next ()) (m + 1)
      { s with sharedBuffer := written s.sharedBuffer 0 (text ++ ['\x00']) }) :
    Guarded Accesses Shown Settled (snprintf text >>= next : Code Unit) (m + 1) s := by
  rw [snprintf, List.take_of_length_le (Nat.le_sub_one_of_lt hn)]
  exact guarded_setChars hs h

theorem getString_bind (next : List Char → Code Unit) : (getString (n + 1) i >>= next : Code Unit) =
    .ask (.access (.getChar i)) fun ch =>
      if ch = '\x00' then next []
      else (getString n (i + 1) >>= fun rest => next (ch :: rest) : Code Unit) := by
  change Interact.ask _ _ = _
  congr 1
  funext ch
  by_cases h : ch = '\x00'
  · rw [if_pos h]
    subst h
    rfl
  · rw [if_neg h]
    change ((if ch = '\x00' then pure [] else _ : Code (List Char)) >>= next : Code Unit) = _
    rw [if_neg h]
    exact bind_assoc ..

/-- The string is read as it is there. -/
theorem guarded_getString {next : List Char → Code Unit} (hs : Shown s)
    (hstring : StringAt s.sharedBuffer i text) (hn : text.length ≤ n)
    (h : Guarded Accesses Shown Settled (next text) (m + 1) s) :
    Guarded Accesses Shown Settled (getString n i >>= next : Code Unit) (m + 1) s := by
  induction n generalizing i text next with
  | zero =>
    obtain rfl := List.length_eq_zero_iff.mp (Nat.le_zero.mp hn)
    exact h
  | succ n ih =>
    rw [getString_bind]
    rintro x s' ⟨rfl, rfl⟩
    refine ⟨hs, ?_⟩
    dsimp only
    cases text with
    | nil =>
      have hnul : s'.sharedBuffer i = '\x00' := hstring.nul
      rw [if_pos hnul]
      exact h
    | cons ch rest =>
      have hch : s'.sharedBuffer i = ch := hstring.chars 0 (Nat.succ_pos _)
      have hne : s'.sharedBuffer i ≠ '\x00' := fun he =>
        hstring.noNul (by rw [← he, hch]; exact List.mem_cons_self)
      rw [if_neg hne]
      refine ih hstring.tail (Nat.le_of_succ_le_succ hn) ?_
      rw [hch]
      exact h

/-- The line of the writer, when it has written the text. -/
theorem settled_printk {count : Int32} (hs : Settled s) (hcount : count = s.sharedCounter)
    (ms : UInt32) :
    Settled { s with
      sharedCounter := s.sharedCounter + 1
      sharedBuffer := written s.sharedBuffer 0 (updateText count ms ++ ['\x00'])
      writeCount := count + 1
      lines := .writer (s.sharedCounter + 1) (updateText count ms) :: s.lines } where
  shown := hs.shown.cons (by
    rw [hcount]
    exact ⟨by rw [hs.counter], ms, by rw [hs.counter]⟩)
  counter := rfl
  buffer := stringAt_written (updateText_fits count ms).1
  length := (updateText_fits count ms).2
  writeCount := by rw [hcount]

theorem guarded_writer : Guarded Accesses Shown Settled writerThreadFunc 0 s := by
  refine ⟨fun s hs => ?_, fun h => by cases h⟩
  rintro _ _ ⟨rfl, rfl⟩
  refine ⟨hs.shown, ?_⟩
  rintro _ _ rfl
  refine ⟨hs.shown, ?_⟩
  rintro count _ ⟨hcount, rfl⟩
  refine ⟨hs.shown, ?_⟩
  rintro _ _ rfl
  refine ⟨hs.shown, ?_⟩
  rintro ms _ rfl
  have hfits := updateText_fits count ms
  refine ⟨hs.shown, guarded_snprintf hs.shown hfits.2 ?_⟩
  rintro _ _ ⟨rfl, rfl⟩
  refine ⟨hs.shown, guarded_getString hs.shown (stringAt_written hfits.1) hfits.2.le ?_⟩
  have hprinted := settled_printk hs (hcount.trans hs.writeCount) ms
  rintro _ _ rfl
  refine ⟨hprinted.shown, ?_⟩
  rintro _ _ rfl
  refine ⟨hprinted.shown, fun _ => hprinted, ?_⟩
  exact ⟨fun _ _ _ h => h, fun _ _ => rfl⟩

/-- The line of the reader. -/
theorem settled_reader (hs : Settled s) :
    Settled { s with lines := .reader s.sharedCounter (lastWritten s.lines).2 :: s.lines } where
  shown := hs.shown.cons (Prod.ext hs.counter.symm rfl)
  counter := hs.counter
  buffer := hs.buffer
  length := hs.length
  writeCount := hs.writeCount

theorem guarded_reader : Guarded Accesses Shown Settled readerThreadFunc 0 s := by
  refine ⟨fun s hs => ?_, fun h => by cases h⟩
  rintro _ _ ⟨rfl, rfl⟩
  refine ⟨hs.shown, guarded_getString hs.shown hs.buffer (Nat.le_sub_one_of_lt hs.length) ?_⟩
  have hprinted := settled_reader hs
  rintro _ _ rfl
  refine ⟨hprinted.shown, fun _ => hprinted, ?_⟩
  exact ⟨fun _ _ _ h => h, fun _ _ => rfl⟩

/-! ## Any interleaving -/

/-- **Theorem (`lines_faithful`).** However the two threads are interrupted, every line is right
after those before it, and the lock is given back only by the thread that has it. -/
theorem lines_faithful {c : Threads Op Op.Res Empty ThreadId Resource}
    (hc : ReflTransGen (Schedules Accesses threadFunc) (.start threadFunc .start) c) :
    Faithful c.shared.lines ∧
      ∀ i next, c.left i = .ask .unlock next → ∃ n, c.owner = some (i, n) := by
  have hbody : ∀ i s, Guarded Accesses Shown Settled (threadFunc i) 0 s := by
    intro i s
    cases i with
    | writer => exact guarded_writer
    | reader => exact guarded_reader
  have hinv := Guarded.invariant hbody (fun _ hs => hs.shown) settled_start hc
  exact ⟨hinv.1, hinv.2.2⟩

/-- The state answers, at 7 ms. -/
def answers (s : Resource) : (op : Op) → op.Res × Resource
  | .getCounter => (s.sharedCounter, s)
  | .setCounter v => ((), { s with sharedCounter := v })
  | .getWriteCount => (s.writeCount, s)
  | .setWriteCount v => ((), { s with writeCount := v })
  | .getChar i => (s.sharedBuffer i, s)
  | .setChar i ch => ((), { s with sharedBuffer := Function.update s.sharedBuffer i ch })
  | .uptime => (7, s)
  | .printk line => ((), { s with lines := line :: s.lines })
  | .msleep _ => ((), s)

theorem accesses_answers (s : Resource) (op : Op) :
    Accesses s op (answers s op).1 (answers s op).2 := by
  cases op with
  | getCounter | getWriteCount | getChar i => exact ⟨rfl, rfl⟩
  | setCounter v | setWriteCount v | setChar i ch | uptime | printk line | msleep ms => rfl

/-- The writer is interrupted in the middle of the text; the reader waits for the lock, and repeats
the line of the writer. -/
theorem lines_faithful_turns : ∃ c : Threads Op Op.Res Empty ThreadId Resource,
    c.shared.lines = [.reader 1 (updateText 0 7), .writer 1 (updateText 0 7)] ∧
      Faithful c.shared.lines := by
  let is : List ThreadId := .replicate 20 .writer ++ .replicate 9 .reader ++
    .replicate 41 .writer ++ .replicate 28 .reader
  have hc : ReflTransGen (Schedules Accesses threadFunc) (.start threadFunc .start)
      (is.foldl (turn answers threadFunc) (.start threadFunc .start)) :=
    reachable_turns accesses_answers is
  refine ⟨_, ?_, (lines_faithful hc).1⟩
  decide +kernel

/-! ## The mutexes that guard no data -/

/-- `k_msleep`. -/
inductive Pause
  | msleep (ms : Nat)

abbrev Pause.Res : Pause → Type := fun _ => Unit

abbrev Round (α : Type) := Interact (Act Pause) (Act.Res Pause.Res) Empty α

namespace Round

def kMutexLock (patient : Bool) : Round Bool := .ask (.lock patient) .done

def kMutexUnlock : Round Bool := .ask .unlock .done

def msleep (ms : Nat) : Round Unit := .ask (.access (.msleep ms)) .done

end Round

/-- The lock is kept for a while. -/
def holding (inside outside : Nat) : Round Unit := do
  let _ ← Round.kMutexLock true
  Round.msleep inside
  let _ ← Round.kMutexUnlock
  Round.msleep outside

def thread1Func : Round Unit := holding 2000 1000

def thread2Func : Round Unit := holding 1500 800

def timeoutHolderFunc : Round Unit := holding 3000 1000

/-- `k_mutex_lock` with `K_MSEC(1000)`, and no unlock after a timeout. -/
def timeoutWaiterFunc : Round Unit := do
  let taken ← Round.kMutexLock false
  if taken then do
    Round.msleep 500
    let _ ← Round.kMutexUnlock
    Round.msleep 2000
  else Round.msleep 2000

/-- `recursive_function` at the depth `3 - left`. -/
def recursiveFunction : Nat → Round Unit
  | 0 => do
    let _ ← Round.kMutexLock true
    Round.msleep 100
    let _ ← Round.kMutexUnlock
  | left + 1 => do
    let _ ← Round.kMutexLock true
    Round.msleep 100
    recursiveFunction left
    let _ ← Round.kMutexUnlock

def recursiveThreadFunc : Round Unit := do
  recursiveFunction 3
  Round.msleep 5000

/-- A pause touches nothing. -/
def Pauses : Unit → (op : Pause) → op.Res → Unit → Prop := fun _ _ _ _ => True

abbrev Balanced (p : Round Unit) (n : Nat) : Prop :=
  Guarded Pauses (fun _ => True) (fun _ => True) p n ()

theorem balanced_holding (inside outside : Nat) : Balanced (holding inside outside) 0 :=
  ⟨fun _ _ _ _ _ => ⟨trivial, fun _ => trivial, fun _ _ _ _ => rfl, fun _ _ => rfl⟩,
    fun h => by cases h⟩

theorem balanced_timeoutWaiter : Balanced timeoutWaiterFunc 0 :=
  ⟨fun _ _ _ _ _ => ⟨trivial, fun _ => trivial, fun _ _ _ _ => rfl, fun _ _ => rfl⟩,
    fun _ _ => ⟨fun _ _ _ _ => rfl, fun _ _ => rfl⟩⟩

/-- A lock, taken for the first time or once more, and a pause. -/
theorem balanced_lock {n : Nat} (ms : Nat) (next : Unit → Round Unit)
    (h : Balanced (next ()) (n + 1)) :
    Balanced (Round.kMutexLock true >>= fun _ => Round.msleep ms >>= next : Round Unit) n := by
  cases n with
  | zero => exact ⟨fun _ _ _ _ _ => ⟨trivial, h⟩, fun he => by cases he⟩
  | succ n => exact fun _ _ _ => ⟨trivial, h⟩

/-- The function gives back what it takes, however deep it is called. -/
theorem balanced_recursiveFunction {left n : Nat} {next : Unit → Round Unit}
    (h : Balanced (next ()) n) : Balanced (recursiveFunction left >>= next : Round Unit) n := by
  have hunlock : Balanced (Round.kMutexUnlock >>= fun _ => next () : Round Unit) (n + 1) :=
    ⟨fun _ => trivial, h⟩
  induction left generalizing n next with
  | zero => exact balanced_lock 100 (fun _ => Round.kMutexUnlock >>= fun _ => next ()) hunlock
  | succ left ih =>
    -- the unlock of this call is what the inner call goes on with
    refine balanced_lock 100 (fun _ =>
      (recursiveFunction left >>= fun _ => Round.kMutexUnlock >>= fun _ => pure ()) >>= next) ?_
    rw [bind_assoc]
    exact ih hunlock ⟨fun _ => trivial, hunlock⟩

/-- **Theorem (`unlocks_owned`).** However many threads share a mutex, each of them one of these,
and however they are interrupted, `k_mutex_unlock` is called by the thread that has it. -/
theorem unlocks_owned {ι : Type} [DecidableEq ι] {body : ι → Round Unit}
    (hbody : ∀ i, body i ∈ [thread1Func, thread2Func, timeoutHolderFunc, timeoutWaiterFunc,
      recursiveThreadFunc]) {c : Threads Pause Pause.Res Empty ι Unit}
    (hc : ReflTransGen (Schedules Pauses body) (.start body ()) c) :
    ∀ i next, c.left i = .ask .unlock next → ∃ n, c.owner = some (i, n) := by
  have hbalanced : ∀ i s, Guarded Pauses (fun _ => True) (fun _ => True) (body i) 0 s := by
    intro i s
    have hi := hbody i
    simp only [List.mem_cons, List.not_mem_nil, or_false] at hi
    obtain hi | hi | hi | hi | hi := hi
    · rw [hi]
      exact balanced_holding ..
    · rw [hi]
      exact balanced_holding ..
    · rw [hi]
      exact balanced_holding ..
    · rw [hi]
      exact balanced_timeoutWaiter
    · rw [hi]
      exact balanced_recursiveFunction ⟨fun _ _ _ _ => rfl, fun _ _ => rfl⟩
  exact (Guarded.invariant hbalanced (fun _ _ => trivial) trivial hc).2.2

end ZephyrStm32.Mutex
