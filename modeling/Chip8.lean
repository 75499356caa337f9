import Chip8.Device.Display
import Chip8.Device.Keys
import Chip8.Main
import Chip8.Proofs.CallStack
import Chip8.Proofs.Sprite
import Chip8.Proofs.Frame
import Chip8.Proofs.Operation
import Chip8.Proofs.Batch
import Chip8.Proofs.WellFormed
import Chip8.Proofs.Checked
import Chip8.Proofs.Safety
import Chip8.Proofs.Action
import Chip8.Proofs.Aliasing
import Chip8.Proofs.Attached
import Chip8.Proofs.RunState
import Chip8.Proofs.Picture
import Chip8.Proofs.Journal
import Chip8.Proofs.Fault
import Chip8.Proofs.Pending
import Chip8.Proofs.Schedule
import Chip8.Proofs.Pacing
import Chip8.Proofs.Playing
import Chip8.Proofs.Resume
import Chip8.Proofs.Requests
import Chip8.Proofs.Accounts
import Chip8.Proofs.KeyHistory
import Chip8.Proofs.Words
import Chip8.Proofs.Course
import Chip8.Proofs.Replay
import Chip8.Proofs.Reliable
import Chip8.Proofs.Renewal
import Chip8.Proofs.Protocol
import Chip8.Proofs.Hold
import Chip8.Proofs.Encoding
import Chip8.Proofs.Writing
import Chip8.Proofs.Footprint
import Chip8.Proofs.Flags
import Chip8.Proofs.Refusal
import Chip8.Proofs.Release
import Chip8.Proofs.Points
import Chip8.Proofs.Loading
import Chip8.Proofs.Glyphs
import Chip8.Proofs.Transfer
import Chip8.Proofs.Disassembly
import Chip8.Proofs.Chronicle
import Chip8.Proofs.Painting
