import Spectrum48.Config.Reader
import Spectrum48.Config.Writer
import Spectrum48.Fault
import Spectrum48.Keyboard.Matrix
import Spectrum48.Machine.Operation
import Spectrum48.Memory
import Spectrum48.Processor.Scripted
import Spectrum48.Proofs.Keyboard.History
import Spectrum48.Proofs.Ula.Speaker
import Spectrum48.Proofs.Beeper.Waveform
import Spectrum48.Proofs.Beeper.Streaming
import Spectrum48.Proofs.Machine.Frames
import Spectrum48.Proofs.Numeric.Double
import Spectrum48.Proofs.Machine.Cycles
import Spectrum48.Proofs.Machine.Speed
import Spectrum48.Proofs.Machine.Slicing
import Spectrum48.Proofs.Machine.Forward
import Spectrum48.Proofs.Video.Decoding
import Spectrum48.Proofs.Beeper.Backlog
import Spectrum48.Proofs.Snapshot.Restoring
import Spectrum48.Proofs.Processor.Log
import Spectrum48.Proofs.Bus.Trace
import Spectrum48.Proofs.Machine.Likeness
import Spectrum48.Proofs.Machine.Audio
import Spectrum48.Proofs.Machine.Interrupts
import Spectrum48.Proofs.Machine.Stages
import Spectrum48.Proofs.Machine.Contents
import Spectrum48.Proofs.Machine.Display
import Spectrum48.Proofs.Bare.Calls
import Spectrum48.Proofs.Bare.Slots
import Spectrum48.Proofs.Beeper.Inaudible
import Spectrum48.Proofs.Beeper.Place
import Spectrum48.Proofs.Beeper.Termination
import Spectrum48.Proofs.Machine.Flash
import Spectrum48.Proofs.Bus.Accounts
import Spectrum48.Proofs.Machine.Pausing
import Spectrum48.Proofs.Memory.Blocks
import Spectrum48.Proofs.Video.Interlacing
import Spectrum48.Proofs.HexDump.Reading
import Spectrum48.Proofs.Machine.CatchingUp
