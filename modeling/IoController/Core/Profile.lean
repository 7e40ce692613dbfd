import IoController.Core.Basic
import IoController.Keyboard.Layout

/-!
# Core — Profile

How each core takes its input and whether it asks for sectors.
-/

namespace IoController

/-- How keys are sent to a core. -/
inductive KeyboardProtocol where
  /-- Amiga key codes at a limited rate, on the keyboard channel or the OSD's. -/
  | amiga
  /-- Atari ST bytes at a limited rate. -/
  | ikbd
  /-- Archimedes key numbers at a limited rate. -/
  | archie
  /-- PS/2 sequences, as fast as they come. -/
  | ps2
  | none
  deriving DecidableEq

/-- Whether keys wait for one another on this link, in the `Limiter`. -/
def KeyboardProtocol.isRateLimited : KeyboardProtocol → Bool
  | amiga | ikbd | archie => true
  | ps2 | none => false

/-- The packets in which a core takes mouse movement. -/
inductive MouseProtocol where
  /-- Both axes as clamped bytes, with the excess carried over, then the buttons. -/
  | minimig
  /-- A PS/2 packet: flags, then both axes, up being positive. -/
  | ps2
  /-- An Atari packet: a header with the buttons, then both axes clamped. -/
  | ikbd
  /-- Both axes clamped; the buttons go as keys. -/
  | archie
  deriving DecidableEq

/-- How a core takes its input, and what it needs otherwise. -/
structure Profile where
  layout : Option Keyboard.Layout
  keyboard : KeyboardProtocol
  mouse : Option MouseProtocol
  /-- While the OSD is open, keys go to the OSD only. -/
  osdCapturesKeys : Bool
  /-- The core asks for the sectors of an emulated SD card. -/
  sdEmulation : Bool
  analogJoystick : Bool
  /-- The first two joysticks go over the keyboard link. -/
  ikbdJoysticks : Bool
  osdReset : Bool

namespace Core

/-- How the core takes its input; `none` if nothing is sent to it. -/
def profile? : Core → Option Profile
  | minimig1 | minimig2 => some {
      layout := some .amiga, keyboard := .amiga, mouse := some .minimig
      osdCapturesKeys := false, sdEmulation := false, analogJoystick := false
      ikbdJoysticks := false, osdReset := true }
  | pace => some {
      layout := none, keyboard := .none, mouse := none
      osdCapturesKeys := false, sdEmulation := false, analogJoystick := false
      ikbdJoysticks := false, osdReset := false }
  | atariSt => some {
      layout := some .atari, keyboard := .ikbd, mouse := some .ikbd
      osdCapturesKeys := true, sdEmulation := false, analogJoystick := false
      ikbdJoysticks := true, osdReset := false }
  | generic8Bit => some {
      layout := some .ps2, keyboard := .ps2, mouse := some .ps2
      osdCapturesKeys := true, sdEmulation := true, analogJoystick := true
      ikbdJoysticks := false, osdReset := false }
  | archimedes => some {
      layout := some .archie, keyboard := .archie, mouse := some .archie
      osdCapturesKeys := true, sdEmulation := false, analogJoystick := false
      ikbdJoysticks := false, osdReset := false }
  | unknown | dumb => none

end Core

end IoController
