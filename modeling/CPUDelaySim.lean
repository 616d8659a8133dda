import CPUDelaySim.Riscv.Mmu
import CPUDelaySim.Riscv.Body
import CPUDelaySim.Riscv.Trans
import CPUDelaySim.Riscv.Decode16
import CPUDelaySim.Riscv.RiscvArch
import CPUDelaySim.Common.Outcome
import CPUDelaySim.Riscv.Frame
import CPUDelaySim.Riscv.BodySpec
import CPUDelaySim.Riscv.DecodeSpec
import CPUDelaySim.Riscv.Run
import CPUDelaySim.Riscv.Privilege
import CPUDelaySim.Riscv.Interrupt
import CPUDelaySim.Riscv.Accesses
import CPUDelaySim.Riscv.Patch
import CPUDelaySim.Riscv.Illegal
import CPUDelaySim.Riscv.Effects
import CPUDelaySim.Riscv.CsrAccess
import CPUDelaySim.Cache.Cache
import CPUDelaySim.Cache.DCache
import CPUDelaySim.Cache.ICache
import CPUDelaySim.Cache.Contract
import CPUDelaySim.Cache.System
import CPUDelaySim.Cache.Answers
import CPUDelaySim.Cache.Cancel
import CPUDelaySim.Cache.Fills
import CPUDelaySim.Cache.Flush
import CPUDelaySim.Cache.Requests
import CPUDelaySim.Cache.Dram
import CPUDelaySim.Cache.DeviceRequests
import CPUDelaySim.Common.Buffer
import CPUDelaySim.Log.LogDB
import CPUDelaySim.Log.Rotation
import CPUDelaySim.Log.Blocking
import CPUDelaySim.Log.WriteBack
import CPUDelaySim.Pred.Ras
import CPUDelaySim.Pred.ReturnAddresses
import CPUDelaySim.Cpu.MemEnd
import CPUDelaySim.Riscv.MulDiv
import CPUDelaySim.Common.RadixTable
import CPUDelaySim.Riscv.Sv39
import CPUDelaySim.Riscv.Footprint
import CPUDelaySim.Riscv.TrapEntry
import CPUDelaySim.Riscv.Permission
import CPUDelaySim.Riscv.Canonical
import CPUDelaySim.Riscv.FetchPages
import CPUDelaySim.Riscv.MmuState
import CPUDelaySim.Riscv.PcAlign
import CPUDelaySim.Device.Board
import CPUDelaySim.Riscv.DeviceAccess
import CPUDelaySim.Riscv.BoardRun
import CPUDelaySim.Riscv.ClintLines
import CPUDelaySim.Riscv.PendingBits
import CPUDelaySim.Riscv.Slots
import CPUDelaySim.Cpu.Sequential
import CPUDelaySim.Cpu.Retire
import CPUDelaySim.Common.BitField
import CPUDelaySim.Riscv.BitManip
import CPUDelaySim.Riscv.CsrInstr
import CPUDelaySim.Riscv.CsrLaw
import CPUDelaySim.Riscv.CsrView
import CPUDelaySim.Riscv.FpCsr
import CPUDelaySim.Riscv.FpRun
import CPUDelaySim.Riscv.TrapReturn
import CPUDelaySim.Riscv.Encode16
import CPUDelaySim.Riscv.MemInstr
import CPUDelaySim.Riscv.FaultAddr
import CPUDelaySim.Riscv.MemAccess
import CPUDelaySim.Riscv.LoadStore
import CPUDelaySim.Riscv.Atomics
import CPUDelaySim.Riscv.BaseInstr
import CPUDelaySim.Riscv.BaseC
import CPUDelaySim.Common.BitHistory
import CPUDelaySim.Pred.History
import CPUDelaySim.Pred.RasRepair
import CPUDelaySim.Cache.Replacement
import CPUDelaySim.Pred.Layers
import CPUDelaySim.Device.ClintBytes
import CPUDelaySim.Riscv.ClintAccess
import CPUDelaySim.Riscv.FpTrap
import CPUDelaySim.Riscv.FpRound
import CPUDelaySim.Riscv.FpMove
import CPUDelaySim.Pred.PipePredictor
import CPUDelaySim.Cpu.Training
import CPUDelaySim.Common.Ring
import CPUDelaySim.Cpu.Records
import CPUDelaySim.Cpu.PredictorLog
import CPUDelaySim.Cache.LruReplace
import CPUDelaySim.Common.Text
import CPUDelaySim.Riscv.Config
import CPUDelaySim.Common.Shutdown
import CPUDelaySim.Pred.Gshare
import CPUDelaySim.Riscv.BaseLaw
import CPUDelaySim.Riscv.Reservation
import CPUDelaySim.Cpu.Lockstep
import CPUDelaySim.Cpu.Core
import CPUDelaySim.Cpu.Callers
import CPUDelaySim.Riscv.UartLines
