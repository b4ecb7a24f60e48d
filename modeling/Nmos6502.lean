import Nmos6502.Bus.Probe
import Nmos6502.Bus.System
import Nmos6502.Bus.Tape
import Nmos6502.Cpu.Session
import Nmos6502.Memory.Region
import Nmos6502.Opcode.Defect
import Nmos6502.Proofs.Calls
import Nmos6502.Proofs.Footprint
import Nmos6502.Proofs.Forms
import Nmos6502.Proofs.SavedStates
import Nmos6502.Proofs.Step
import Nmos6502.Proofs.Play
import Nmos6502.Proofs.Updates
import Nmos6502.Serial.Magnitude
import Nmos6502.Serial.Printer
import Nmos6502.Serial.Reader
import Nmos6502.Serial.Shape
import Nmos6502.Trace.Monitor
import Nmos6502.Proofs.Frame
import Nmos6502.Proofs.Course
import Nmos6502.Proofs.Execution
import Nmos6502.Proofs.Pairing
import Nmos6502.Proofs.Deliveries
import Nmos6502.Proofs.Refusal
import Nmos6502.Proofs.Log
import Nmos6502.Proofs.Retirement
import Nmos6502.Proofs.Counted
import Nmos6502.Proofs.Conservation
import Nmos6502.Proofs.Stream
import Nmos6502.Proofs.Replay
import Nmos6502.Proofs.Timeless
import Nmos6502.Proofs.LiveStatus
import Nmos6502.Proofs.Admission
import Nmos6502.Proofs.Contents
import Nmos6502.Proofs.Bystanders
import Nmos6502.Proofs.Effect
import Nmos6502.Proofs.Linkage
import Nmos6502.Proofs.Restoring
import Nmos6502.Proofs.Numerals
import Nmos6502.Proofs.Resolution
import Nmos6502.Proofs.Billing
import Nmos6502.Proofs.Carrying
import Nmos6502.Proofs.Programs
import Nmos6502.Proofs.Chains
import Nmos6502.Proofs.Instruction
import Nmos6502.Proofs.Arithmetic
import Nmos6502.Proofs.Branching
import Nmos6502.Proofs.Dataflow
import Nmos6502.Proofs.Shifting
import Nmos6502.Proofs.Rotations
import Nmos6502.Proofs.Stacking
import Nmos6502.Proofs.Restart
import Nmos6502.Proofs.Routing
import Nmos6502.Proofs.Reexport
import Nmos6502.Memory.Image
import Nmos6502.Proofs.Images
import Nmos6502.Proofs.Rendering
import Nmos6502.Proofs.Monitoring
import Nmos6502.Proofs.Quoting
import Nmos6502.Proofs.Wording
import Nmos6502.Proofs.Grammar
