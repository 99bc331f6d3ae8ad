import ZephyrStm32.Lib.Crc32
import ZephyrStm32.Ota.Device.Protocol

/-!
# The device's state: `ota_handler.h`, the flash areas and what a command does to the outside

* `OtaState` is `ota_state_t`; `otaHandlerInit` sets it up from the two opened flash areas.
* `FlashCall` is what the flash driver decides about one call: success, with the documented
  effect, or an error code, after which the area may hold anything.
* `Zephyr` holds the two CRC functions of the operating system, which are not in the repository;
  `Zephyr.Documented` is what its documentation promises of them.
* `Event` records what a command does to the outside: flash operations, responses, the delay and
  the reboot.
-/

namespace ZephyrStm32.Ota

/-! ## `ota_state_t` -/

/-- The `STATUS_*` codes. -/
inductive Status
  | idle | erasing | receiving | verifying | complete | error
  deriving DecidableEq, Repr

def Status.byte : Status → UInt8
  | .idle => 0x00
  | .erasing => 0x01
  | .receiving => 0x02
  | .verifying => 0x03
  | .complete => 0x04
  | .error => 0xFF

/-- The `ERR_*` codes. -/
inductive ErrorCode
  | none | firmwareSize | flashErase | flashWrite | crcMismatch | offsetError | timeout
  | versionLow | unknown
  deriving DecidableEq, Repr

def ErrorCode.byte : ErrorCode → UInt8
  | .none => 0x00
  | .firmwareSize => 0x01
  | .flashErase => 0x02
  | .flashWrite => 0x03
  | .crcMismatch => 0x04
  | .offsetError => 0x05
  | .timeout => 0x06
  | .versionLow => 0x07
  | .unknown => 0xFF

def maxPacketSize : UInt16 := 1024

structure OtaState where
  status : Status
  errorCode : ErrorCode
  receivedSize : UInt32
  firmwareSize : UInt32
  firmwareCrc : UInt32
  calculatedCrc : UInt32
  currentOffset : UInt32
  maxPacketSize : UInt16
  bootFlag : UInt8
  slot0Offset : UInt32
  slot1Offset : UInt32
  slotSize : UInt32
  inProgress : Bool
  deriving DecidableEq, Repr

/-- Static memory before `main` runs. -/
def OtaState.zeroed : OtaState where
  status := .idle
  errorCode := .none
  receivedSize := 0
  firmwareSize := 0
  firmwareCrc := 0
  calculatedCrc := 0
  currentOffset := 0
  maxPacketSize := 0
  bootFlag := 0
  slot0Offset := 0
  slot1Offset := 0
  slotSize := 0
  inProgress := false

/-! ## The operating system -/

/-- `crc32_ieee` and `crc32_ieee_update` of Zephyr's `sys/crc.h`. -/
structure Zephyr where
  crc32Ieee : List UInt8 → UInt32
  crc32IeeeUpdate : UInt32 → List UInt8 → UInt32

/-- What the documentation promises: the standard reflected CRC-32 and its streaming form. -/
structure Zephyr.Documented (z : Zephyr) : Prop where
  crc32Ieee : ∀ data, z.crc32Ieee data = Crc32.hash data
  crc32IeeeUpdate : ∀ crc data, z.crc32IeeeUpdate crc data = Crc32.update crc data

/-- An operating system that keeps the promise. -/
def Zephyr.standard : Zephyr where
  crc32Ieee := Crc32.hash
  crc32IeeeUpdate := Crc32.update

theorem Zephyr.documented_standard : Zephyr.standard.Documented where
  crc32Ieee _ := rfl
  crc32IeeeUpdate _ _ := rfl

/-- An opened flash area: `fa_off` and `fa_size`. -/
structure FlashArea where
  faOff : UInt32
  faSize : UInt32

/-- What `flash_area_open` returned and left in its pointer. -/
structure FlashOpen where
  err : Int
  area : Option FlashArea

/-- How one flash call goes: `err` is what it returns, `left` what the area holds after a failed
erase or write. -/
structure FlashCall where
  err : Int
  left : Mem

/-- The flash calls made while one command is handled, in order. -/
abbrev FlashCalls := Nat → FlashCall

/-- Every flash call succeeds. -/
def FlashCalls.ok : FlashCalls := fun _ => ⟨0, fun _ => 0⟩

def flashAreaErase (c : FlashCall) (m : Mem) (off len : UInt32) : Int × Mem :=
  if c.err = 0 then (0, m.fill off.toNat len.toNat 0xFF) else (c.err, c.left)

def flashAreaWrite (c : FlashCall) (m : Mem) (off : UInt32) (data : List UInt8) : Int × Mem :=
  if c.err = 0 then (0, m.write off.toNat data) else (c.err, c.left)

/-- After an error the buffer is not looked at. -/
def flashAreaRead (c : FlashCall) (m : Mem) (off len : UInt32) : Int × List UInt8 :=
  (c.err, m.slice off.toNat len.toNat)

/-! ## What a command does to the outside -/

inductive Slot
  | slot0 | slot1
  deriving DecidableEq, Repr

inductive FlashOp
  | erase (area : Slot) (off len : UInt32)
  | write (area : Slot) (off : UInt32) (data : List UInt8)
  | read (area : Slot) (off len : UInt32)
  deriving DecidableEq, Repr

inductive Event
  | flash (op : FlashOp)
  /-- `ota_send_response(seq, cmd, data, len)` -/
  | send (seq cmd : UInt16) (data : List UInt8)
  | msleep (ms : UInt16)
  | reboot
  deriving DecidableEq, Repr

/-- The payload of the first response sent. -/
def response : List Event → Option (List UInt8)
  | [] => none
  | .send _ _ data :: _ => some data
  | _ :: es => response es

/-- The first byte of the first response sent. -/
def answer (es : List Event) : Option UInt8 := (response es).bind List.head?

/-- An erase or a write was issued. -/
def Event.touchesFlash : Event → Bool
  | .flash (.erase ..) | .flash (.write ..) => true
  | _ => false

/-! ## The device -/

structure Dev where
  ota : OtaState
  slot1 : Mem
  /-- `sys_reboot` was reached: it does not return, so nothing more is handled. -/
  rebooted : Bool

/-- The device after a command, and what the command did to the outside. -/
abbrev Handled := List Event × Dev

/-- `ota_handler_init`, over the memory `st` it finds. -/
def otaHandlerInit (slot0Open slot1Open : FlashOpen) (st : OtaState) : OtaState :=
  if slot0Open.err ≠ 0 then st
  else if slot1Open.err ≠ 0 then st
  else
    let st := { st with
      status := .idle
      errorCode := .none
      receivedSize := 0
      firmwareSize := 0
      firmwareCrc := 0
      calculatedCrc := 0
      currentOffset := 0
      maxPacketSize := maxPacketSize
      inProgress := false }
    match slot0Open.area, slot1Open.area with
    | some slot0, some slot1 => { st with
        slot0Offset := slot0.faOff
        slot1Offset := slot1.faOff
        slotSize := slot0.faSize }
    | _, _ => { st with
        slot0Offset := 0x20000
        slot1Offset := 0x110000
        slotSize := 0xF0000 }

/-- The device after start-up: static memory is zeroed, then `ota_handler_init` runs. -/
def Dev.boot (slot0Open slot1Open : FlashOpen) (slot1 : Mem) : Dev :=
  ⟨otaHandlerInit slot0Open slot1Open .zeroed, slot1, false⟩

/-- Start-up sets the packet size and the slots; all other fields stay zero. -/
theorem boot_ota (slot0Open slot1Open : FlashOpen) (slot1 : Mem) :
    ∃ packet offset₀ offset₁ size, (Dev.boot slot0Open slot1Open slot1).ota =
      { OtaState.zeroed with
        maxPacketSize := packet
        slot0Offset := offset₀
        slot1Offset := offset₁
        slotSize := size } := by
  unfold Dev.boot otaHandlerInit
  split
  · exact ⟨_, _, _, _, rfl⟩
  · split
    · exact ⟨_, _, _, _, rfl⟩
    · dsimp only
      split <;> exact ⟨_, _, _, _, rfl⟩

theorem boot_idle (slot0Open slot1Open : FlashOpen) (slot1 : Mem) :
    (Dev.boot slot0Open slot1Open slot1).ota.status = .idle := by
  obtain ⟨_, _, _, _, h⟩ := boot_ota slot0Open slot1Open slot1
  rw [h]
  rfl

/-- The board: both slots of 0xF0000 bytes opened, slot1 erased. -/
def Dev.board : Dev :=
  .boot ⟨0, some ⟨0x20000, 0xF0000⟩⟩ ⟨0, some ⟨0x110000, 0xF0000⟩⟩ fun _ => 0xFF

end ZephyrStm32.Ota
