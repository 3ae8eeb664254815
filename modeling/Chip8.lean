import Chip8.Main
import Chip8.Proofs.CacheInvisible
import Chip8.Proofs.Resumption
import Chip8.Proofs.FaultAtomicity
import Chip8.Proofs.FaultConditions
import Chip8.Proofs.PowerOn
import Chip8.Proofs.WellFormed
import Chip8.Proofs.HookTrace
import Chip8.Proofs.MemoryAccess
import Chip8.Proofs.SpriteDrawing
import Chip8.Proofs.SpriteAlgebra
import Chip8.Proofs.Footprint
import Chip8.Proofs.Subroutine
import Chip8.Proofs.InstructionTable
import Chip8.Proofs.ExactClock
import Chip8.Proofs.KeyWait
import Chip8.Proofs.Arrival
import Chip8.Proofs.ExtendedClock
import Chip8.Proofs.FrameRun
import Chip8.Proofs.PlainText
import Chip8.Proofs.HeadlessRun
import Chip8.Proofs.DebuggerHistory
import Chip8.Proofs.RegisterArithmetic
import Chip8.Proofs.AssemblyText
import Chip8.Proofs.ListingAgreement
import Chip8.Proofs.ListingColumns
import Chip8.Proofs.FrameAgreement
import Chip8.Proofs.HostCall
import Chip8.Proofs.LastStore
import Chip8.Proofs.RegisterTransfer
import Chip8.Proofs.RandomBytes
import Chip8.Proofs.KeyNames
import Chip8.Proofs.AddressTexts
import Chip8.Proofs.ScreenViews
import Chip8.Proofs.Redrawing
