import CPUDelaySim.Riscv.Mmu

/-!
# Control and status registers

The table `csr_ops` that `RiscvArch::initOps` fills, its callbacks, and the three
functions of the interpreter that use it: `riscv_csrrw_check`, `riscv_csrrw` and
the two drivers `do_csrr` and `do_csrrw`.

A callback either computes a value from the state or prepares a destination of
`DecodeInfo`; the many that differ only in a field and a mask are one constructor
with parameters, and each keeps its own definition under the source's name.  The
predicates (`fs`, `ctr`, `pmp`, ...) are stored in the table and only compared
with null, so `CsrPredicate.rejects` is a definition no modelled function calls.
-/

namespace CPUDelaySim.Riscv

/-! ### Masks of `csrdefines.h` -/

def mstatusUIE : Word := 0x1
def mstatusSIE : Word := 0x2
def mstatusMIE : Word := 0x8
def mstatusUPIE : Word := 0x10
def mstatusSPIE : Word := 0x20
def mstatusMPIE : Word := 0x80
def mstatusSPP : Word := 0x100
def mstatusMPP : Word := 0x1800
def mstatusFS : Word := 0x6000
def mstatusXS : Word := 0x18000
def mstatusMPRV : Word := 0x20000
def mstatusSUM : Word := 0x40000
def mstatusMXR : Word := 0x80000
def mstatusTVM : Word := 0x100000
def mstatusTW : Word := 0x200000
def mstatusTSR : Word := 0x400000
def mstatus64UXL : Word := 0x300000000
def mstatus64SXL : Word := 0xc00000000

def mstatusMask : Word :=
  mstatusSIE ||| mstatusSPIE ||| mstatusMIE ||| mstatusMPIE ||| mstatusSPP ||| mstatusMPRV |||
    mstatusSUM ||| mstatusMPP ||| mstatusMXR ||| mstatusTVM ||| mstatusTSR ||| mstatusTW |||
    mstatusFS

def sstatusMask : Word :=
  mstatusSIE ||| mstatusSPIE ||| mstatusUIE ||| mstatusUPIE ||| mstatusSPP ||| mstatusFS |||
    mstatusXS ||| mstatusSUM ||| mstatusMXR

/-- `M_MODE_INTERRUPTS`: bits 3, 7 and 11. -/
def mModeInterrupts : Word := 0x888

/-- `S_MODE_INTERRUPTS`: bits 1, 5 and 9. -/
def sModeInterrupts : Word := 0x222

/-- `LOCAL_INTERRUPTS`. -/
def localInterrupts : Word := ~~~0x1fff

def delegableInts : Word := sModeInterrupts
def allInts : Word := mModeInterrupts ||| sModeInterrupts ||| localInterrupts

/-- `DELEGABLE_EXCPS`: codes 0 to 9, 11, 12, 13, 15, 16 and 19. -/
def delegableExcps : Word := 0x9bbff

/-- `MENVCFG_MASK`: bits 0 and 4 to 7. -/
def menvcfgMask : Word := 0xf1

def fsrAexc : Word := 0x1f
def fsrRd : Word := 0xe0

/-- `riscv_cpu_fp_enabled`. -/
def ArchState.fpEnabled (s : ArchState) : Bool := s.get .mstatus &&& mstatusFS != 0

/-- `ctx->state->mstatus |= MSTATUS_FS`. -/
def ArchState.dirtyFs (s : ArchState) : ArchState :=
  s.set .mstatus (s.get .mstatus ||| mstatusFS)

/-! ### Callbacks -/

/-- A read callback: a value computed from the state and the two counters, the same
behind the floating-point guard, or a callback that raises `EXC_II`. -/
inductive CsrRead
  | plain (value : ArchState → (tick instret : Word) → Word)
  | fp (value : ArchState → Word)
  | illegal

/-- The two offsets the floating-point callbacks aim at, both in the word `fp`. -/
inductive FpField
  | fflags | frm
  deriving DecidableEq, Repr

/-- `ARCH_FFLAGS` and `ARCH_FRM`. -/
def FpField.idx : FpField → BitVec 16
  | fflags => archFflags
  | frm => StateWord.fp.idx

/-- A write callback: a masked write of one word, the same behind the
floating-point guard with `mstatus.FS` set on commit, the guarded `satp` write, a
callback that raises `EXC_II`, one that does nothing, and `assert(0)`. -/
inductive CsrWrite
  | masked (word : StateWord) (mask : Word)
  | fp (field : FpField) (mask : Word) (dest : Word → Word)
  | satp
  | illegal
  | noop
  | assertFail

/-- A read-modify-write callback: it reads a word and writes it under
`maskFn state & wr_mask`. -/
structure CsrRmw where
  word : StateWord
  mask : ArchState → Word

/-- The predicates of the table. -/
inductive CsrPredicate
  | fs | ctr | any | umode | smode | satp | pmp
  deriving DecidableEq, Repr

/-- An entry of `csr_ops`. -/
structure CsrOps where
  predicate : CsrPredicate
  read : Option CsrRead
  write : Option CsrWrite
  op : Option CsrRmw

/-- Whether a predicate raises `EXC_II` in a state, for a CSR number. -/
def CsrPredicate.rejects (s : ArchState) (csrno : BitVec 12) : CsrPredicate → Bool
  | fs => !s.fpEnabled
  | ctr =>
      if 0xc00 ≤ csrno ∧ csrno ≤ 0xc02 then
        let ctrMask : Word := 1#64 <<< (csrno - 0xc00).toNat
        (s.get .priv < modeM && s.get .mcounteren &&& ctrMask == 0) ||
          (s.get .priv == modeU && s.get .scounteren &&& ctrMask == 0)
      else true
  | pmp => csrno ≤ 0x3a3 && (csrno - 0x3a0).getLsbD 0
  | any | umode | smode | satp => false

/-- A read of one word. -/
def readWord (w : StateWord) : CsrRead := .plain fun s _ _ => s.get w

def readFflags : CsrRead := .fp fun s => s.floatExceptionFlags.setWidth 64
def readFrm : CsrRead := .fp fun s => s.frm.setWidth 64
def readFcsr : CsrRead :=
  .fp fun s => s.floatExceptionFlags.setWidth 64 ||| (s.frm.setWidth 64 <<< 5)
def readTime : CsrRead := .plain fun _ tick _ => tick
def readCycle : CsrRead := .plain fun _ tick _ => tick
def readInstret : CsrRead := .plain fun _ _ instret => instret
def readNoop : CsrRead := .plain fun _ _ _ => 0
def readMvendorid : CsrRead := .plain fun s _ _ => s.get .mvendorid &&& 0xffffffff
def readMarchid : CsrRead := readWord .marchid
def readMimpid : CsrRead := readWord .mimpid
def readMhartid : CsrRead := readWord .mhartid

/-- `(uint64_t)((mstatus & MSTATUS_FS) == MSTATUS_FS) << MSTATUS64_SD`. -/
def statusSd (mstatus : Word) : Word :=
  if mstatus &&& mstatusFS = mstatusFS then 1#64 <<< 63 else 0

def readMstatus : CsrRead :=
  .plain fun s _ _ =>
    (s.get .mstatus &&& (mstatusMask ||| mstatus64UXL ||| mstatus64SXL)) |||
      statusSd (s.get .mstatus)
def readSstatus : CsrRead :=
  .plain fun s _ _ =>
    (s.get .mstatus &&& (sstatusMask ||| mstatus64UXL)) ||| statusSd (s.get .mstatus)
def readMisa : CsrRead := readWord .misa
def readMedeleg : CsrRead := readWord .medeleg
def readMtvec : CsrRead := readWord .mtvec
def readMcounteren : CsrRead := readWord .mcounteren
def readMscratch : CsrRead := readWord .mscratch
def readMepc : CsrRead := readWord .mepc
def readMcause : CsrRead := readWord .mcause
def readMtval : CsrRead := readWord .mtval
def readMenvcfg : CsrRead := readWord .menvcfg
def readSenvcfg : CsrRead := readWord .senvcfg
def readStvec : CsrRead := readWord .stvec
def readScounteren : CsrRead := readWord .scounteren
def readSscratch : CsrRead := readWord .sscratch
def readSepc : CsrRead := readWord .sepc
def readScause : CsrRead := readWord .scause
def readStval : CsrRead := readWord .stval
def readSatp : CsrRead := readWord .satp
def readMcountinhibit : CsrRead := readWord .mcountinhibit

/-- `read_pmpcfg` at register index `i`: odd indices raise `EXC_II`. -/
def readPmpcfg (i : BitVec 2) : CsrRead :=
  if i.getLsbD 0 then .illegal else readWord (.pmpcfg (i.extractLsb' 1 1))
def readPmpaddr (i : BitVec 4) : CsrRead := readWord (.pmpaddr i)

/-- `0xffffffffffffffff`. -/
def fullMask : Word := 0xffffffffffffffff

def writeFflags : CsrWrite := .fp .fflags fsrAexc fun val => val &&& fsrAexc
def writeFrm : CsrWrite := .fp .frm fsrRd fun val => (val &&& fsrRd) >>> 5
def writeFcsr : CsrWrite :=
  .fp .frm ((fsrAexc <<< 8) ||| fsrRd) fun val =>
    ((val &&& fsrAexc) <<< 8) ||| ((val &&& fsrRd) >>> 5)
def writeMhpmcounter : CsrWrite := .assertFail
def writeMstatus : CsrWrite := .masked .mstatus mstatusMask
def writeMisa : CsrWrite := .illegal
def writeMedeleg : CsrWrite := .masked .medeleg delegableExcps
def writeMtvec : CsrWrite := .masked .mtvec 0xfffffffffffffffd
def writeMcounteren : CsrWrite := .masked .mcounteren 0x7
def writeMscratch : CsrWrite := .masked .mscratch fullMask
def writeMepc : CsrWrite := .masked .mepc fullMask
def writeMcause : CsrWrite := .masked .mcause fullMask
def writeMtval : CsrWrite := .masked .mtval fullMask
def writeMenvcfg : CsrWrite := .masked .menvcfg menvcfgMask
def writeSenvcfg : CsrWrite := .masked .senvcfg menvcfgMask
def writeSstatus : CsrWrite := .masked .mstatus sstatusMask
def writeStvec : CsrWrite := .masked .stvec 0xfffffffffffffffd
def writeScounteren : CsrWrite := .masked .scounteren 0x7
def writeSscratch : CsrWrite := .masked .sscratch fullMask
def writeSepc : CsrWrite := .masked .sepc fullMask
def writeScause : CsrWrite := .masked .scause fullMask
def writeStval : CsrWrite := .masked .stval fullMask
def writeSatp : CsrWrite := .satp
def writePmpcfg (i : BitVec 2) : CsrWrite :=
  if i.getLsbD 0 then .illegal else .masked (.pmpcfg (i.extractLsb' 1 1)) fullMask
def writePmpaddr (i : BitVec 4) : CsrWrite := .masked (.pmpaddr i) 0xfffffffffffffc00
def writeNoop : CsrWrite := .noop
def writeMcountinhibit : CsrWrite := .noop

def rmwMideleg : CsrRmw := ⟨.mideleg, fun _ => delegableInts⟩
def rmwMie : CsrRmw := ⟨.mie, fun _ => allInts⟩
def rmwMip : CsrRmw := ⟨.mip, fun _ => delegableInts⟩

/-- `rmw_sie` narrows the mask to the delegated interrupts and calls `rmw_mie`. -/
def rmwSie : CsrRmw :=
  ⟨.mie, fun s => allInts &&& (s.get .mideleg &&& (sModeInterrupts ||| localInterrupts))⟩

/-- `rmw_sip`, likewise over `rmw_mip`. -/
def rmwSip : CsrRmw :=
  ⟨.mip, fun s => delegableInts &&& (s.get .mideleg &&& (localInterrupts ||| sModeInterrupts))⟩

/-! ### The table -/

/-- An entry with `read` and `write` callbacks. -/
def CsrOps.rw (predicate : CsrPredicate) (read : CsrRead) (write : CsrWrite) : CsrOps :=
  ⟨predicate, some read, some write, none⟩

/-- An entry without a `write` callback. -/
def CsrOps.ro (predicate : CsrPredicate) (read : CsrRead) : CsrOps :=
  ⟨predicate, some read, none, none⟩

/-- An entry with an `op` callback. -/
def CsrOps.rmw (predicate : CsrPredicate) (op : CsrRmw) : CsrOps :=
  ⟨predicate, none, none, some op⟩

/-- The entries `initOps` stores under the numbers from `first` to `last`. -/
structure CsrRow where
  first : BitVec 12
  last : BitVec 12
  ops : BitVec 12 → CsrOps

/-- A single entry. -/
def CsrRow.one (csrno : BitVec 12) (ops : CsrOps) : CsrRow := ⟨csrno, csrno, fun _ => ops⟩

/-- The assignments of `initOps`, its four loops as ranges. -/
def csrTable : List CsrRow := [
    .one 0x001 (.rw .fs readFflags writeFflags),
    .one 0x002 (.rw .fs readFrm writeFrm),
    .one 0x003 (.rw .fs readFcsr writeFcsr),
    .one 0xc00 (.ro .ctr readCycle),
    .one 0xc02 (.ro .ctr readInstret),
    .one 0xc01 (.ro .ctr readTime),
    .one 0xb00 (.rw .any readCycle writeMhpmcounter),
    .one 0xb02 (.rw .any readInstret writeMhpmcounter),
    .one 0xf11 (.ro .any readMvendorid),
    .one 0xf12 (.ro .any readMarchid),
    .one 0xf13 (.ro .any readMimpid),
    .one 0xf14 (.ro .any readMhartid),
    .one 0x300 (.rw .any readMstatus writeMstatus),
    .one 0x301 (.rw .any readMisa writeMisa),
    .one 0x303 (.rmw .any rmwMideleg),
    .one 0x302 (.rw .any readMedeleg writeMedeleg),
    .one 0x304 (.rmw .any rmwMie),
    .one 0x305 (.rw .any readMtvec writeMtvec),
    .one 0x306 (.rw .umode readMcounteren writeMcounteren),
    .one 0x340 (.rw .any readMscratch writeMscratch),
    .one 0x341 (.rw .any readMepc writeMepc),
    .one 0x342 (.rw .any readMcause writeMcause),
    .one 0x343 (.rw .any readMtval writeMtval),
    .one 0x344 (.rmw .any rmwMip),
    .one 0x30a (.rw .umode readMenvcfg writeMenvcfg),
    .one 0x10a (.rw .smode readSenvcfg writeSenvcfg),
    .one 0x100 (.rw .smode readSstatus writeSstatus),
    .one 0x104 (.rmw .smode rmwSie),
    .one 0x105 (.rw .smode readStvec writeStvec),
    .one 0x106 (.rw .smode readScounteren writeScounteren),
    .one 0x140 (.rw .smode readSscratch writeSscratch),
    .one 0x141 (.rw .smode readSepc writeSepc),
    .one 0x142 (.rw .smode readScause writeScause),
    .one 0x143 (.rw .smode readStval writeStval),
    .one 0x144 (.rmw .smode rmwSip),
    .one 0x180 (.rw .satp readSatp writeSatp),
    ⟨0x3a0, 0x3a3, fun csrno =>
      .rw .pmp (readPmpcfg (csrno.extractLsb' 0 2)) (writePmpcfg (csrno.extractLsb' 0 2))⟩,
    ⟨0x3b0, 0x3bf, fun csrno =>
      .rw .pmp (readPmpaddr (csrno.extractLsb' 0 4)) (writePmpaddr (csrno.extractLsb' 0 4))⟩,
    .one 0x320 (.rw .any readMcountinhibit writeMcountinhibit),
    ⟨0xc03, 0xc1f, fun _ => .rw .any readNoop writeNoop⟩,
    ⟨0xb03, 0xb1f, fun _ => .rw .any readNoop writeNoop⟩]

/-- `csr_ops` after `initOps`; `none` is an entry whose predicate is null. -/
def csrOps (csrno : BitVec 12) : Option CsrOps :=
  (csrTable.find? fun r => r.first ≤ csrno ∧ csrno ≤ r.last).map fun r => r.ops csrno

/-- What holds of every row holds of every registered entry. -/
theorem csrOps_of_table {p : BitVec 12 → CsrOps → Prop}
    (rows : ∀ r ∈ csrTable, ∀ csrno, r.first ≤ csrno → csrno ≤ r.last → p csrno (r.ops csrno))
    {csrno : BitVec 12} {ops : CsrOps} (registered : csrOps csrno = some ops) :
    p csrno ops := by
  simp only [csrOps, Option.map_eq_some_iff] at registered
  obtain ⟨r, found, rfl⟩ := registered
  have within := List.find?_some found
  simp only [Bool.decide_and, Bool.and_eq_true, decide_eq_true_eq] at within
  exact rows r (List.mem_of_find?_eq_some found) csrno within.1 within.2

end CPUDelaySim.Riscv
