import SatanKernel.X86.MapPage
import SatanKernel.X86.UnmapFailure
import SatanKernel.X86.FrameLedger
import SatanKernel.X86.MapAlloc
import SatanKernel.X86.Ownership
import SatanKernel.X86.Runs
import SatanKernel.Lib.Tiling
import SatanKernel.Memory.ZonedBuddy
import SatanKernel.X86.Setup
import SatanKernel.Lib.Interleaving
import SatanKernel.X86.ConcurrentCalls
import SatanKernel.X86.ConcurrentMap
import SatanKernel.X86.ConcurrentUnmap
import SatanKernel.X86.Concurrent
import SatanKernel.X86.Accounting
import SatanKernel.Memory.ZonedAlloc
import SatanKernel.Memory.ZonedRuns
import SatanKernel.Memory.ZonedConcurrent
import SatanKernel.Memory.ZonedCounters
import SatanKernel.Memory.ZonedAlignment
import SatanKernel.Lib.ByteMemory
import SatanKernel.X86.Bootstrap
import SatanKernel.X86.Interrupts
import SatanKernel.X86.BootTables
import SatanKernel.Lib.Disturbance
import SatanKernel.X86.EarlyLogger
import SatanKernel.X86.TmpPage
import SatanKernel.Lib.Performs
import SatanKernel.X86.UnmapComplete
import SatanKernel.X86.UnmapSteps
import SatanKernel.X86.Entries
import SatanKernel.X86.MapGuarantees
import SatanKernel.X86.TwoSpaces
import SatanKernel.X86.LocalSteps
import SatanKernel.X86.Tlb
import SatanKernel.Lib.Decimal
import SatanKernel.Memory.FormatSize
import SatanKernel.Lib.Simulation
import SatanKernel.X86.CallWalks
import SatanKernel.X86.SpaceRuns
import SatanKernel.Lib.Ghost
import SatanKernel.X86.Guarded
import SatanKernel.Memory.ZonedPages
import SatanKernel.X86.ZonedPaging
import SatanKernel.X86.SelfTest
import SatanKernel.X86.TlbMemory
import SatanKernel.X86.TmpPageLock
import SatanKernel.X86.Screen
import SatanKernel.X86.InterruptLines
import SatanKernel.X86.Resume
