import CPUDelaySim.Cache.Memory
import CPUDelaySim.Riscv.ArchState

/-!
# `RiscvArch`: its state, physical accesses and address translation

`RiscvArch` holds the architectural state, two cached translation flags which
`updateMMUState` recomputes, and the `ArchEnv` through which `decode` leaves its
result for `updateEnv`.  The pointer `env->info` belongs to the processor models;
here the record it points at is passed as an argument.

What the simulator takes from outside `src/src` is collected in `Platform`: the
memory map with its devices, the soft-float library, and the indeterminate value
of an uninitialised local variable.
-/

namespace CPUDelaySim.Riscv

/-- The soft-float functions the instruction bodies call. -/
inductive FloatOp
  | int64ToFloat64 | uint64ToFloat64 | float32ToFloat64 | int32ToFloat64 | uint32ToFloat64
  | float64ToInt64 | float32ToInt64 | float64ToUint64 | float32ToUint64 | float64ToFloat32
  | int64ToFloat32 | uint64ToFloat32 | int32ToFloat32 | uint32ToFloat32
  | float64ToInt32 | float64ToUint32 | float32ToInt32
  | float64Add | float32Add | float64Sub | float32Sub | float64Mul | float32Mul
  | float64Div | float32Div
  | float64EqQuiet | float64Le | float32Le | float64Lt | float32Lt
  | float64Muladd | float64MinimumNumber
  deriving DecidableEq, Repr

/-- The soft-float library: an operation on its operands, under a rounding mode,
with the exception flags raised so far; it yields the result and the flags
afterwards, or aborts. -/
structure SoftFloat where
  call : FloatOp → List Word → Byte → BitVec 16 → Option (Word × BitVec 16)

/-- What the simulated machine is built from. -/
structure Platform (δ : Type) where
  map : MemoryMap δ
  float : SoftFloat
  /-- The value an uninitialised local variable happens to hold. -/
  junk : Word

/-- `RiscvArch` with the memory it accesses and the counters it reads. -/
@[ext] structure RiscvArch (δ : Type) where
  state : ArchState
  ifetchMmuState : Bool
  dataMmuState : Bool
  memory : Memory δ
  /-- `env->pc`. -/
  pc : Word
  /-- `env->paddr`. -/
  paddr : Word
  /-- `*tick`. -/
  tick : Word
  /-- `*instret`. -/
  instret : Word

/-- `enum FETCH_TYPE`. -/
inductive FetchType
  | ifetch | lfetch | sfetch
  deriving DecidableEq, Repr

/-! ### Exception codes and privilege modes -/

def modeU : Word := 0
def modeS : Word := 1
def modeM : Word := 3

def excNone : Word := 31
def excIAF : Word := 1
def excII : Word := 2
def excBP : Word := 3
def excLAM : Word := 4
def excLAF : Word := 5
def excSAM : Word := 6
def excSAF : Word := 7
def excECU : Word := 8
def excECS : Word := 9
def excECM : Word := 11
def excIPF : Word := 12
def excLPF : Word := 13
def excSPF : Word := 15
def excDT : Word := 16
def excSC : Word := 18
def excHE : Word := 19
def excSRET : Word := 20
def excMRET : Word := 21

/-- The page-fault code `exc_pf` of an access type. -/
def FetchType.pageFault : FetchType → Word
  | ifetch => excIPF
  | lfetch => excLPF
  | sfetch => excSPF

namespace RiscvArch

variable {δ : Type}

/-- `exceptionValid`. -/
def exceptionValid (exception : Word) : Bool := exception != excNone

/-- `irqListener`, called when a device access published an interrupt vector. -/
def irqListener (arch : RiscvArch δ) : Option Word → RiscvArch δ
  | some irq => { arch with state := arch.state.set .mip irq }
  | none => arch

/-- The machine after a memory access. -/
def afterAccess (arch : RiscvArch δ) (memory : Memory δ) (irq : Option Word) :
    RiscvArch δ :=
  ({ arch with memory := memory } : RiscvArch δ).irqListener irq

/-- `RiscvArch::paddrRead`: the value, whether the access was not a device's, and
the machine after it. -/
def paddrRead (P : Platform δ) (arch : RiscvArch δ) (paddr : Word) (size : Nat)
    (buf : Word) : Except Abort (Word × Bool × RiscvArch δ) := do
  let r ← Memory.paddrRead P.map arch.memory paddr size buf
  return (r.value, !r.mmio, arch.afterAccess r.memory r.irq)

/-- `RiscvArch::paddrWrite`; no caller uses its result. -/
def paddrWrite (P : Platform δ) (arch : RiscvArch δ) (paddr : Word) (size : Nat)
    (data : Word) : Except Abort (RiscvArch δ) := do
  let r ← Memory.paddrWrite P.map arch.memory paddr size data
  return arch.afterAccess r.1 r.2

/-! ### Page tables -/

/-- The fields of a page-table entry (`union PageTableEntry`). -/
structure Pte where
  val : Word

namespace Pte

def v (pte : Pte) : Bool := pte.val.getLsbD 0
def r (pte : Pte) : Bool := pte.val.getLsbD 1
def w (pte : Pte) : Bool := pte.val.getLsbD 2
def x (pte : Pte) : Bool := pte.val.getLsbD 3
def u (pte : Pte) : Bool := pte.val.getLsbD 4
def a (pte : Pte) : Bool := pte.val.getLsbD 6
def d (pte : Pte) : Bool := pte.val.getLsbD 7
def ppn (pte : Pte) : BitVec 44 := pte.val.extractLsb' 10 44
def pad (pte : Pte) : Bool := pte.val.extractLsb' 54 7 != 0
def pbmt (pte : Pte) : Bool := pte.val.extractLsb' 61 2 != 0
def n (pte : Pte) : Bool := pte.val.getLsbD 63

end Pte

/-- `VPNiSHFT`. -/
def vpniShft (level : Nat) : Nat := 12 + 9 * level

/-- `VPNi`. -/
def vpni (va : Word) (level : Nat) : Word := (va >>> vpniShft level) &&& 0x1ff

/-- `PGBASE`. -/
def pgBase (pn : Word) : Word := pn <<< 12

/-- `((1ull << VPNiSHFT(level)) - 1)`. -/
def pgMask (level : Nat) : Word := (1#64 <<< vpniShft level) - 1

/-- `STATUS_MXR`, `STATUS_SUM`. -/
def statusMxr (mstatus : Word) : Bool := mstatus &&& 0x80000 != 0
def statusSum (mstatus : Word) : Bool := mstatus &&& 0x40000 != 0

/-- `checkPermission`.  The effective mode under `MPRV` is computed by the source
and not used; the checks go by `state->priv`. -/
def checkPermission (s : ArchState) (pte : Pte) (ok : Bool) (type : FetchType) : Bool :=
  let ok := ok && pte.v && !(s.get .priv == modeU && !pte.u)
  let ok := ok && !(pte.u &&
    (s.get .priv == modeS && (!statusSum (s.get .mstatus) || type == .ifetch)))
  match type with
  | .ifetch => ok && pte.x && !pte.pad && pte.a
  | .lfetch => ok && (pte.r || (statusMxr (s.get .mstatus) && pte.x)) && !pte.pad && pte.a
  | .sfetch => ok && pte.w && !pte.pad && (pte.a && pte.d)

/-- What the walk decides at one level. -/
inductive PteStep
  | fault | leaf | next
  deriving DecidableEq, Repr

/-- The tests of the walk's loop body on the entry it read. -/
def classify (pte : Pte) : PteStep :=
  if !pte.v || (!pte.r && pte.w) || pte.pad then .fault
  else if pte.r || pte.x then .leaf
  else if pte.a || pte.d || pte.u || pte.pbmt || pte.n then .fault
  else .next

/-- How a walk ends: the address it had reached, and the leaf with its level. -/
structure WalkResult (δ : Type) where
  paddr : Word
  leaf : Option (Pte × Nat)
  arch : RiscvArch δ

/-- One turn of the walk: it ends, or goes on to the table at `paddr`. -/
inductive WalkTurn (δ : Type)
  | done (r : WalkResult δ)
  | next (paddr : Word) (arch : RiscvArch δ)

/-- The body of the loop of `translateAddr`, with `paddr` the table's base.  A device
access to the entry ends the walk with `paddr` unchanged. -/
def walkTurn (P : Platform δ) (vaddr : Word) (level : Nat) (paddr : Word)
    (arch : RiscvArch δ) : Except Abort (WalkTurn δ) := do
  let (val, plain, arch) ← arch.paddrRead P (paddr + vpni vaddr level * 8) 8 P.junk
  if !plain then return .done ⟨paddr, none, arch⟩
  else
    let pte : Pte := ⟨val⟩
    let paddr := pgBase (pte.ppn.setWidth 64)
    match classify pte with
    | .fault => return .done ⟨paddr, none, arch⟩
    | .leaf => return .done ⟨paddr, some (pte, level), arch⟩
    | .next => return .next paddr arch

/-- The loop from `level` down; a pointer at level 0 faults after the decrement. -/
def walk (P : Platform δ) (vaddr : Word) :
    Nat → Word → RiscvArch δ → Except Abort (WalkResult δ)
  | 0, paddr, arch => do
      match ← walkTurn P vaddr 0 paddr arch with
      | .done r => return r
      | .next paddr arch => return ⟨paddr, none, arch⟩
  | level + 1, paddr, arch => do
      match ← walkTurn P vaddr (level + 1) paddr arch with
      | .done r => return r
      | .next paddr arch => walk P vaddr level paddr arch

/-- Whether translation is on for an access type. -/
def mmuOn (arch : RiscvArch δ) : FetchType → Bool
  | .ifetch => arch.ifetchMmuState
  | _ => arch.dataMmuState

/-- `translateAddr` with the values its two reference arguments hold on entry;
returns their values on exit.  `exception` is written only on a fault. -/
def translateAddr (P : Platform δ) (arch : RiscvArch δ) (vaddr : Word) (type : FetchType)
    (exception : Word) : Except Abort (Word × Word × RiscvArch δ) := do
  if !arch.mmuOn type then return (vaddr, exception, arch)
  else
    let root := pgBase (arch.state.get .satp &&& 0xfffffffffff)
    let r ← walk P vaddr 2 root arch
    match r.leaf with
    | none => return (r.paddr, type.pageFault, r.arch)
    | some (pte, level) =>
      if !checkPermission r.arch.state pte true type then
        return (r.paddr, type.pageFault, r.arch)
      else if 0 < level ∧ r.paddr &&& pgMask level ≠ 0 then
        return (r.paddr, type.pageFault, r.arch)
      else
        return ((r.paddr &&& ~~~pgMask level) ||| (vaddr &&& pgMask level), exception, r.arch)

/-- `updateMMUState`. -/
def updateMMUState (arch : RiscvArch δ) : RiscvArch δ :=
  let s := arch.state
  let on := s.get .satp >>> 60 == 8
  let dataPriv :=
    if s.get .mstatus &&& 0x20000 ≠ 0 then (s.get .mstatus &&& 0x1800) >>> 11
    else s.get .priv
  { arch with
    ifetchMmuState := on && s.get .priv != modeM
    dataMmuState := on && dataPriv != modeM }

end RiscvArch

end CPUDelaySim.Riscv
