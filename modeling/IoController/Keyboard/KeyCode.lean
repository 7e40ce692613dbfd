import IoController.Bits

/-!
# Keyboard — KeyCode

What a core calls a key: a scancode in the low byte, and flags in the high byte that change how
the key is handled.  A key going down or up is sent as each kind of core takes it.
-/

namespace IoController.Keyboard

/-- A scancode, the low byte of `raw`, with its handling flags. -/
structure KeyCode where
  raw : UInt16
  deriving DecidableEq

namespace KeyCode

/-- The code of a key that a core does not have. -/
def miss : KeyCode := ⟨0x00ff⟩

/-- Flag of a Minimig key that goes out on the OSD keyboard channel. -/
def osdFlag : UInt16 := 0x0100

/-- Flag of a key that opens or closes the OSD. -/
def opensOsdFlag : UInt16 := 0x0200

/-- Flag of a caps lock key, which the core sees make and break by turns. -/
def capsFlag : UInt16 := 0x0400

/-- Flag of a key that selects the keyboard emulation mode.  The low nibble is the selector. -/
def selectFlag : UInt16 := 0x0800

/-- Flag of a PS/2 key whose scancode has the prefix `e0`. -/
def extendedFlag : UInt16 := 0x1000

/-- The scancode in the key code `k`. -/
def code (k : KeyCode) : UInt8 := k.raw.toUInt8

/-- Whether the core does not have the key, so that its code is `miss`. -/
def isMiss (k : KeyCode) : Bool := k == miss

/-- Whether the scancode has a prefix. -/
def isExtended (k : KeyCode) : Bool := k.raw &&& extendedFlag != 0

/-- Whether a Minimig key goes out on the OSD keyboard channel. -/
def isOsd (k : KeyCode) : Bool := k.raw &&& osdFlag != 0

/-- Whether the key opens or closes the OSD. -/
def opensOsd (k : KeyCode) : Bool := k.raw &&& opensOsdFlag != 0

/-- Whether the core sees the key make and break by turns. -/
def togglesCaps (k : KeyCode) : Bool := k.raw &&& capsFlag != 0

/-- The selector of a key `k` that selects the emulation mode. -/
def emulationSelector? (k : KeyCode) : Option UInt8 :=
  if k.raw &&& selectFlag != 0 then some (k.raw &&& 0x0f).toUInt8 else none

/-! ### A key going down or up -/

/-- The scancode of Pause, which goes down with a sequence of its own and never comes up. -/
def ps2Pause : UInt8 := 0x77

/-- What Pause sends. -/
def ps2PauseSequence : Bytes := [0xe1, 0x14, 0x77, 0xe1, 0xf0, 0x14, 0xf0, 0x77]

/-- The PS/2 bytes of a key: `e0` before an extended key, `f0` before a key that goes up. -/
def ps2 (k : KeyCode) (make : Bool) : Bytes :=
  if k.code == ps2Pause && !k.isExtended then if make then ps2PauseSequence else []
  else
    (if k.isExtended then [0xe0] else []) ++ (if make then [] else [0xf0]) ++ [k.code]

/-- The value queued for a Minimig key: the scancode, bit 7 if it goes up, and the `osdFlag`, which
picks the channel. -/
def minimig (k : KeyCode) (make : Bool) : UInt16 :=
  k.code.toUInt16 ||| (k.raw &&& osdFlag) ||| (if make then 0 else 0x80)

/-- Whether a queued Minimig `value` goes out on the OSD keyboard channel. -/
def goesToOsd (value : UInt16) : Bool := value &&& osdFlag != 0

/-- The byte of a key `k` on a serial keyboard link: bit 7 says that it goes up. -/
def serial (k : KeyCode) (make : Bool) : UInt8 :=
  if make then k.code &&& 0x7f else k.code ||| 0x80

end KeyCode

end IoController.Keyboard
