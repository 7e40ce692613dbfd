import IoController.Keyboard.KeyCode

/-!
# Keyboard — Layout

What each core calls the keys of a USB keyboard: for every usage a key code, with its handling
flags, and for each of the eight modifier keys a scancode.
-/

namespace IoController.Keyboard

/-- The keys of a core. -/
structure Layout where
  name : String
  /-- The key code of each usage, from zero. -/
  keys : Array UInt16
  /-- The key codes of the modifier keys, in the order of their bits. -/
  modifiers : Array UInt16
  /-- What the menu key sends when it is set up as the right GUI key. -/
  menuAsRightGui : Option KeyCode

namespace Layout

/-- The usage of the menu key. -/
def menuUsage : UInt8 := 0x65

/-- The key code of `usage`.  Usages that the table does not reach are missing keys. -/
def lookup (l : Layout) (usage : UInt8) (menuAsRightGui : Bool) : KeyCode :=
  match if usage == menuUsage && menuAsRightGui then l.menuAsRightGui else none with
  | some k => k
  | none => (l.keys[usage.toNat]?).elim KeyCode.miss KeyCode.mk

/-- The key code of the modifier key with the given `bit`. -/
def modifier (l : Layout) (bit : Nat) : KeyCode :=
  (l.modifiers[bit]?).elim KeyCode.miss KeyCode.mk

end Layout

/-! ### The tables -/

namespace Layout

/-- A key that the core does not have. -/
private abbrev miss := KeyCode.miss.raw
/-- The flag of a key that goes to the OSD. -/
private abbrev osd := KeyCode.osdFlag
/-- The flag of a key that opens or closes the OSD. -/
private abbrev osdOpen := KeyCode.opensOsdFlag
/-- The flag of a caps lock key. -/
private abbrev caps := KeyCode.capsFlag
/-- The flag of a key that selects the emulation mode. -/
private abbrev select := KeyCode.selectFlag
/-- The flag of an extended key. -/
private abbrev ext := KeyCode.extendedFlag

/-- Amiga raw key codes, for the Minimig cores and for the OSD. -/
def amigaKeys : Array UInt16 := #[
  miss, miss, miss, miss,                               -- 00: no event, errors
  0x20, 0x35, 0x33, 0x22, 0x12, 0x23, 0x24,             -- 04: a-g
  0x25, 0x17, 0x26, 0x27, 0x28, 0x37, 0x36,             -- 0b: h-n
  0x18, 0x19, 0x10, 0x13, 0x21, 0x14, 0x16,             -- 12: o-u
  0x34, 0x11, 0x32, 0x15, 0x31,                         -- 19: v-z
  0x01, 0x02, 0x03, 0x04, 0x05,                         -- 1e: 1-5
  0x06, 0x07, 0x08, 0x09, 0x0a,                         -- 23: 6-0
  0x44, 0x45, 0x41, 0x42, 0x40,                         -- 28: return, esc, backspace, tab, space
  0x0b, 0x0c, 0x1a, 0x1b, 0x0d, 0x2b,                   -- 2d: minus to backslash, europe 1
  0x29, 0x2a, 0x00, 0x38, 0x39, 0x3a,                   -- 33: semicolon, quotes, comma, dot, slash
  0x62 ||| caps,                                        -- 39: caps lock
  0x50, 0x51, 0x52, 0x53, 0x54,                         -- 3a: F1-F5
  0x55, 0x56, 0x57, 0x58, 0x59,                         -- 3f: F6-F10
  0x5f,                                                 -- 44: F11 (help)
  osdOpen,                                              -- 45: F12
  miss, miss, miss, miss,                               -- 46: print, scroll lock, pause, insert
  0x6c ||| osd, 0x6d ||| osd,                           -- 4a: home, page up
  0x46,                                                 -- 4c: delete
  0x6e ||| osd, 0x6f ||| osd,                           -- 4d: end, page down
  0x4e, 0x4f, 0x4d, 0x4c,                               -- 4f: right, left, down, up
  select,                                               -- 53: num lock
  0x5c, 0x5d, 0x4a, 0x5e, 0x43,                         -- 54: KP slash, star, minus, plus, enter
  0x1d, 0x1e, 0x1f, 0x2d, 0x2e,                         -- 59: KP 1-5
  0x2f, 0x3d, 0x3e, 0x3f, 0x0f, 0x3c,                   -- 5e: KP 6-9, 0, dot
  0x30,                                                 -- 64: europe 2
  osdOpen,                                              -- 65: menu
  miss, miss,                                           -- 66: power, KP =
  miss, miss, miss, miss,                               -- 68: F13-F16
  select ||| 1, select ||| 2,                           -- 6c: F17, F18
  select ||| 3, select ||| 4,                           -- 6e: F19, F20
  miss, miss, miss, miss                                -- 70: F21-F24
]

/-- Atari ST scancodes. -/
def atariKeys : Array UInt16 := #[
  miss, miss, miss, miss,                               -- 00: no event, errors
  0x1e, 0x30, 0x2e, 0x20, 0x12, 0x21, 0x22,             -- 04: a-g
  0x23, 0x17, 0x24, 0x25, 0x26, 0x32, 0x31,             -- 0b: h-n
  0x18, 0x19, 0x10, 0x13, 0x1f, 0x14, 0x16,             -- 12: o-u
  0x2f, 0x11, 0x2d, 0x15, 0x2c,                         -- 19: v-z
  0x02, 0x03, 0x04, 0x05, 0x06,                         -- 1e: 1-5
  0x07, 0x08, 0x09, 0x0a, 0x0b,                         -- 23: 6-0
  0x1c, 0x01, 0x0e, 0x0f, 0x39,                         -- 28: return, esc, backspace, tab, space
  0x0c, 0x0d, 0x1a, 0x1b, 0x2b, 0x2b,                   -- 2d: minus to backslash, europe 1
  0x27, 0x28, 0x29, 0x33, 0x34, 0x35,                   -- 33: semicolon, quotes, comma, dot, slash
  0x3a,                                                 -- 39: caps lock
  0x3b, 0x3c, 0x3d, 0x3e, 0x3f,                         -- 3a: F1-F5
  0x40, 0x41, 0x42, 0x43, 0x44,                         -- 3f: F6-F10
  0x61,                                                 -- 44: F11 (undo)
  osdOpen,                                              -- 45: F12
  miss, miss, miss,                                     -- 46: print screen, scroll lock, pause
  0x52, 0x47, 0x62,                                     -- 49: insert, home (clr), page up (help)
  0x53,                                                 -- 4c: delete
  miss, 0x61,                                           -- 4d: end, page down (undo)
  0x4d, 0x4b, 0x50, 0x48,                               -- 4f: right, left, down, up
  select,                                               -- 53: num lock
  0x65, 0x66, 0x4a, 0x4e, 0x72,                         -- 54: KP slash, star, minus, plus, enter
  0x6d, 0x6e, 0x6f, 0x6a, 0x6b,                         -- 59: KP 1-5
  0x6c, 0x67, 0x68, 0x69, 0x70, 0x71,                   -- 5e: KP 6-9, 0, dot
  0x60,                                                 -- 64: europe 2
  osdOpen,                                              -- 65: menu
  miss, miss,                                           -- 66: power, KP =
  miss, miss, miss, miss,                               -- 68: F13-F16
  select ||| 1, select ||| 2,                           -- 6c: F17, F18
  select ||| 3, select ||| 4,                           -- 6e: F19, F20
  miss, miss, miss, miss                                -- 70: F21-F24
]

/-- PS/2 scancodes of set 2.  Pause (0x77) has a sequence of its own. -/
def ps2Keys : Array UInt16 := #[
  miss, miss, miss, miss,                               -- 00: no event, errors
  0x1c, 0x32, 0x21, 0x23, 0x24, 0x2b, 0x34,             -- 04: a-g
  0x33, 0x43, 0x3b, 0x42, 0x4b, 0x3a, 0x31,             -- 0b: h-n
  0x44, 0x4d, 0x15, 0x2d, 0x1b, 0x2c, 0x3c,             -- 12: o-u
  0x2a, 0x1d, 0x22, 0x35, 0x1a,                         -- 19: v-z
  0x16, 0x1e, 0x26, 0x25, 0x2e,                         -- 1e: 1-5
  0x36, 0x3d, 0x3e, 0x46, 0x45,                         -- 23: 6-0
  0x5a, 0x76, 0x66, 0x0d, 0x29,                         -- 28: return, esc, backspace, tab, space
  0x4e, 0x55, 0x54, 0x5b, 0x5d, 0x5d,                   -- 2d: minus to backslash, europe 1
  0x4c, 0x52, 0x0e, 0x41, 0x49, 0x4a,                   -- 33: semicolon, quotes, comma, dot, slash
  0x58,                                                 -- 39: caps lock
  0x05, 0x06, 0x04, 0x0c, 0x03,                         -- 3a: F1-F5
  0x0b, 0x83, 0x0a, 0x01, 0x09,                         -- 3f: F6-F10
  0x78,                                                 -- 44: F11
  osdOpen,                                              -- 45: F12
  ext ||| 0x7c, 0x7e, 0x77,                             -- 46: print screen, scroll lock, pause
  ext ||| 0x70, ext ||| 0x6c, ext ||| 0x7d,             -- 49: insert, home, page up
  ext ||| 0x71,                                         -- 4c: delete
  ext ||| 0x69, ext ||| 0x7a,                           -- 4d: end, page down
  ext ||| 0x74, ext ||| 0x6b, ext ||| 0x72, ext ||| 0x75, -- 4f: right, left, down, up
  select,                                               -- 53: num lock
  ext ||| 0x4a, 0x7c, 0x7b, 0x79, ext ||| 0x5a,         -- 54: KP slash, star, minus, plus, enter
  0x69, 0x72, 0x7a, 0x6b, 0x73,                         -- 59: KP 1-5
  0x74, 0x6c, 0x75, 0x7d, 0x70, 0x71,                   -- 5e: KP 6-9, 0, dot
  0x61,                                                 -- 64: europe 2
  osdOpen,                                              -- 65: menu
  miss, miss,                                           -- 66: power, KP =
  miss, miss, miss, miss,                               -- 68: F13-F16
  select ||| 1, select ||| 2,                           -- 6c: F17, F18
  select ||| 3, select ||| 4,                           -- 6e: F19, F20
  miss, miss, miss, miss                                -- 70: F21-F24
]

/-- Archimedes key numbers. -/
def archieKeys : Array UInt16 := #[
  miss, miss, miss, miss,                               -- 00: no event, errors
  0x3c, 0x52, 0x50, 0x3e, 0x29, 0x3f, 0x40,             -- 04: a-g
  0x41, 0x2e, 0x42, 0x43, 0x44, 0x54, 0x53,             -- 0b: h-n
  0x2f, 0x30, 0x27, 0x2a, 0x3d, 0x2b, 0x2d,             -- 12: o-u
  0x51, 0x28, 0x4f, 0x2c, 0x4e,                         -- 19: v-z
  0x11, 0x12, 0x13, 0x14, 0x15,                         -- 1e: 1-5
  0x16, 0x17, 0x18, 0x19, 0x1a,                         -- 23: 6-0
  0x47, 0x00, 0x1e, 0x26, 0x5f,                         -- 28: return, esc, backspace, tab, space
  0x1b, 0x1c, 0x31, 0x32, 0x33, 0x33,                   -- 2d: minus to backslash, europe 1
  0x45, 0x46, 0x10, 0x55, 0x56, 0x57,                   -- 33: semicolon, quotes, comma, dot, slash
  0x5d,                                                 -- 39: caps lock
  0x01, 0x02, 0x03, 0x04, 0x05,                         -- 3a: F1-F5
  0x06, 0x07, 0x08, 0x09, 0x0a,                         -- 3f: F6-F10
  0x0b,                                                 -- 44: F11
  osdOpen,                                              -- 45: F12
  0x0d, 0x0e, 0x0f,                                     -- 46: print screen, scroll lock, break
  0x1f, 0x20, 0x21,                                     -- 49: insert, home, page up
  0x34,                                                 -- 4c: delete
  0x35, 0x36,                                           -- 4d: end (copy), page down
  0x64, 0x62, 0x63, 0x59,                               -- 4f: right, left, down, up
  select,                                               -- 53: num lock
  0x23, 0x24, 0x3a, 0x4b, 0x67,                         -- 54: KP slash, star, minus, plus, enter
  0x5a, 0x5b, 0x5c, 0x48, 0x49,                         -- 59: KP 1-5
  0x4a, 0x37, 0x38, 0x39, 0x65, 0x66,                   -- 5e: KP 6-9, 0, dot
  miss,                                                 -- 64: europe 2
  osdOpen,                                              -- 65: menu
  miss, miss,                                           -- 66: power, KP =
  miss, miss, miss, miss,                               -- 68: F13-F16
  select ||| 1, select ||| 2,                           -- 6c: F17, F18
  select ||| 3, select ||| 4,                           -- 6e: F19, F20
  miss, miss, miss, miss                                -- 70: F21-F24
]

/-- The Amiga's keyboard, and the OSD's. -/
def amiga : Layout where
  name := "amiga"
  keys := amigaKeys
  modifiers := #[0x63, 0x60, 0x64, 0x66, 0x63, 0x61, 0x65, 0x67]
  menuAsRightGui := some ⟨0x67⟩

/-- The Atari ST's keyboard. -/
def atari : Layout where
  name := "atari"
  keys := atariKeys
  modifiers := #[0x1d, 0x2a, 0x38, miss, 0x1d, 0x36, 0x38, miss]
  menuAsRightGui := none

/-- A PS/2 keyboard. -/
def ps2 : Layout where
  name := "ps2"
  keys := ps2Keys
  modifiers := #[0x14, 0x12, 0x11, ext ||| 0x1f, ext ||| 0x14, 0x59, ext ||| 0x11, ext ||| 0x27]
  menuAsRightGui := some ⟨ext ||| 0x27⟩

/-- The Archimedes' keyboard. -/
def archie : Layout where
  name := "archie"
  keys := archieKeys
  modifiers := #[0x36, 0x4c, 0x5e, miss, 0x61, 0x58, 0x60, miss]
  menuAsRightGui := none

end Layout

/-- The Amiga key code under which the OSD knows `usage`. -/
def osdCode? (usage : UInt8) : Option UInt8 :=
  let k := Layout.amiga.lookup usage false
  if k.isMiss then none else some k.code

/-- The OSD's menu key. -/
def osdMenuKey : UInt8 := 0x69

/-- Set in an OSD key code when the key goes up. -/
def osdReleased : UInt8 := 0x80

end IoController.Keyboard
