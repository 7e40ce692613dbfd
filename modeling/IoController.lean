import IoController.Board.Startup
import IoController.Proofs.Board.Inbox
import IoController.Proofs.Board.LedFrames
import IoController.Proofs.Board.Restarts
import IoController.Proofs.Board.Startup
import IoController.Proofs.Bridge.Strays
import IoController.Proofs.Controller.Reloading
import IoController.Proofs.Controller.Framing
import IoController.Proofs.Controller.UsbJoysticks
import IoController.Proofs.Controller.Silence
import IoController.Proofs.Controller.Slots
import IoController.Proofs.Controller.Visibility
import IoController.Proofs.Core.FileNames
import IoController.Proofs.Core.Loading
import IoController.Proofs.Core.Reset
import IoController.Proofs.Core.Sessions
import IoController.Proofs.Disk.Capacity
import IoController.Proofs.Disk.ReadingOn
import IoController.Proofs.Disk.Refusals
import IoController.Proofs.Disk.Warnings
import IoController.Proofs.Joystick.Switches
import IoController.Proofs.Keyboard.Balance
import IoController.Proofs.Keyboard.Capture
import IoController.Proofs.Keyboard.Codes
import IoController.Proofs.Keyboard.Messages
import IoController.Proofs.Keyboard.Directions
import IoController.Proofs.Keyboard.Emulated
import IoController.Proofs.Keyboard.Arbitration
import IoController.Proofs.Keyboard.Remapping
import IoController.Proofs.Keyboard.ScanCodes
import IoController.Proofs.Keyboard.LedOwners
import IoController.Proofs.Keyboard.OsdKeys
import IoController.Proofs.Link.Contents
import IoController.Proofs.Link.Items
import IoController.Proofs.Mouse.Buttons
import IoController.Proofs.Mouse.Movement
import IoController.Proofs.Mouse.NineBits
import IoController.Proofs.Panel.Gestures
import IoController.Proofs.Settings
