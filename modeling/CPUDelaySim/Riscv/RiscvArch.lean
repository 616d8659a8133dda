import CPUDelaySim.Riscv.Decode16

/-!
# `decode`, `handleException` and `updateEnv`

The three functions of `RiscvArch` that a processor model calls in turn: `decode`
fetches a word, runs its body and looks for an interrupt, leaving its findings in
the `DecodeInfo` record; `updateEnv` takes the trap or commits the record, and
returns the next pc.  `handleException` replaces `decode` for a faulting fetch.
-/

namespace CPUDelaySim.Riscv

variable {δ : Type}

/-- `IRQ_MASK`. -/
def irqMask : Word := 0x8000000000000000

/-- `interpreter`: the bodies are tried until one returns true. -/
def runBodies (P : Platform δ) : List Body → Ctx δ → Except Abort (Bool × Ctx δ)
  | [], ctx => .ok (false, ctx)
  | b :: bs, ctx => do
      let (done, ctx) ← b.exec P ctx
      if done then return (true, ctx) else runBodies P bs ctx

namespace RiscvArch

/-- `fetch`: the word, its `rvc` flag and size, into the record.  The read stores
over the record's old `inst`. -/
def fetch (P : Platform δ) (arch : RiscvArch δ) (paddr : Word) (info : DecodeInfo) :
    Except Abort (Bool × RiscvArch δ × DecodeInfo) := do
  let (word, _, arch) ← arch.paddrRead P paddr 4 (info.inst.setWidth 64)
  let inst : BitVec 32 := word.setWidth 32
  let rvc := inst &&& 3 != 3
  let inst := if rvc then (inst <<< 16) >>> 16 else inst
  return (rvc, arch, { info with inst := inst, instSize := if rvc then 2 else 4 })

/-- `irq_enable`: one enable for all interrupts, by the privilege alone. -/
def irqEnable (s : ArchState) : Bool :=
  (s.get .priv ≤ modeS && s.get .mstatus &&& mstatusSIE != 0) ||
    (s.get .priv == modeM && s.get .mstatus &&& mstatusMIE != 0) ||
    s.get .priv == modeU

/-- `irq_valids`, which keeps 32 bits. -/
def irqValids (s : ArchState) : BitVec 32 :=
  if irqEnable s then (s.get .mip &&& s.get .mie).setWidth 32 else 0

/-- The interrupt `decode` reports: `IRQ_MASK | (bit_width(irq_valids) - 1)`. -/
def irqException (s : ArchState) : Option Word :=
  let valids := irqValids s
  if valids ≠ 0 then some (irqMask ||| BitVec.ofNat 64 valids.toNat.log2) else none

/-- `decode` of the word at `paddr` for the virtual address `vaddr`, into `info`. -/
def decode (P : Platform δ) (arch : RiscvArch δ) (vaddr paddr : Word) (info : DecodeInfo) :
    Except Abort (RiscvArch δ × DecodeInfo) := do
  let (rvc, arch, info) ← arch.fetch P paddr info
  let arch := { arch with pc := vaddr, paddr := paddr }
  let info := { info.memset with exception := excNone }
  -- A word no body accepts is logged, and decoding goes on.
  let (_, ctx) ← runBodies P (candidates info.inst rvc) ⟨arch, info⟩
  match irqException ctx.arch.state with
  | some code => return (ctx.arch, { ctx.info with exception := code })
  | none => return (ctx.arch, ctx.info)

/-- `handleException`; every code but `EXC_IPF` is ignored. -/
def handleException (arch : RiscvArch δ) (exception paddr : Word) (info : DecodeInfo) :
    RiscvArch δ × DecodeInfo :=
  if exception = excIPF then
    ({ arch with pc := paddr }, { info with excData := paddr, exception := exception })
  else (arch, info)

/-- `needFlush`. -/
def needFlush (info : DecodeInfo) : Bool :=
  info.type == .csrwr && info.dst1.idx == StateWord.satp.idx && info.dst1.mask != 0

/-! ### `updateEnv` -/

/-- `irq`. -/
def isIrq (info : DecodeInfo) : Bool := info.exception.msb

/-- `1 << exception_idx`, an `int` widened to 64 bits. -/
def exceptionMask (info : DecodeInfo) : Word :=
  (1#32 <<< (info.exception &&& ~~~irqMask).toNat).signExtend 64

/-- `edeleg_valid`. -/
def edelegValid (s : ArchState) (info : DecodeInfo) : Bool :=
  (if isIrq info then s.get .mideleg else s.get .medeleg) &&& exceptionMask info != 0 &&
    s.get .priv != modeM

/-- Trap entry in S-mode: `xtval_end` with `edeleg_valid`. -/
def trapS (s : ArchState) (pc cause tval : Word) : ArchState :=
  ((((s.set .stval tval).set .sepc pc).set .scause cause).set .mstatus
    ((s.get .mstatus &&& ~~~(mstatusSPP ||| mstatusSPIE ||| mstatusSIE)) |||
      (s.get .priv <<< 8) ||| ((s.get .mstatus <<< 4) &&& mstatusSPIE))).set .priv modeS

/-- Trap entry in M-mode. -/
def trapM (s : ArchState) (pc cause tval : Word) : ArchState :=
  ((((s.set .mtval tval).set .mepc pc).set .mcause cause).set .mstatus
    ((s.get .mstatus &&& ~~~(mstatusMPP ||| mstatusMPIE ||| mstatusMIE)) |||
      (s.get .priv <<< 11) ||| ((s.get .mstatus <<< 4) &&& mstatusMPIE))).set .priv modeM

/-- The address a trap vector register sends a cause to. -/
def vectorAddr (irq : Bool) (tvec cause : Word) : Word :=
  let base := tvec &&& 0xfffffffffffffffc
  if irq && tvec &&& 3 != 0 then base + ((cause &&& 0x1f) <<< 2) else base

/-- The trap of `updateEnv`, from `xtval` to `mtvec_out`. -/
def trap (arch : RiscvArch δ) (info : DecodeInfo) (tval : Word) : Word × RiscvArch δ :=
  let irq := isIrq info
  if edelegValid arch.state info then
    let s := trapS arch.state arch.pc info.exception tval
    (vectorAddr irq (s.get .stvec) (s.get .scause), ({ arch with state := s }).updateMMUState)
  else
    let s := trapM arch.state arch.pc info.exception tval
    (vectorAddr irq (s.get .mtvec) (s.get .mcause), ({ arch with state := s }).updateMMUState)

/-- `EXC_SRET`. -/
def doSret (arch : RiscvArch δ) : Word × RiscvArch δ :=
  let s := arch.state
  let mstatus := s.get .mstatus
  -- Two bits are taken, though `SPP` is one.
  let s := s.set .priv ((mstatus >>> 8) &&& 0x3)
  let s := s.set .mstatus
    ((mstatus &&& ~~~(mstatusSPP ||| mstatusSIE ||| mstatusMPRV)) |||
      ((mstatus >>> 4) &&& mstatusSIE) ||| mstatusSPIE)
  (s.get .sepc, ({ arch with state := s }).updateMMUState)

/-- `EXC_MRET`. -/
def doMret (arch : RiscvArch δ) : Word × RiscvArch δ :=
  let s := arch.state
  let mstatus := s.get .mstatus
  let s := s.set .priv ((mstatus >>> 11) &&& 0x3)
  -- `MPRV` is cleared when the mode that is entered is not M.
  let mprv := if s.get .priv ≠ modeM then mstatusMPRV else 0
  let s := s.set .mstatus
    ((mstatus &&& ~~~(mstatusMPP ||| mstatusMIE ||| mprv)) |||
      ((mstatus >>> 4) &&& mstatusMIE) ||| mstatusMPIE)
  (s.get .mepc, ({ arch with state := s }).updateMMUState)

/-- The commit loop over the three destinations. -/
def commitDsts (s : ArchState) (info : DecodeInfo) : Except Abort ArchState := do
  let s ← s.commit info.dst0
  let s ← s.commit info.dst1
  s.commit info.dst2

/-- A store of `dst_idx[2]` bytes from an eight-byte operand of the record. -/
def storeOperand (P : Platform δ) (arch : RiscvArch δ) (paddr : Word) (size : BitVec 16)
    (data : Word) : Except Abort (RiscvArch δ) :=
  if 8 < size.toNat then .error .infoOverrun else arch.paddrWrite P paddr size.toNat data

/-- The memory write of `EXC_NONE`. -/
def commitMemory (P : Platform δ) (arch : RiscvArch δ) (info : DecodeInfo) :
    Except Abort (RiscvArch δ) :=
  match info.type with
  | .amo | .store => storeOperand P arch info.dst2.data info.dst2.idx info.dst1.data
  | .sc =>
      if info.dst0.data = 0 then do
        -- The code of the translation is not looked at.
        let (ha, _, arch) ← arch.translateAddr P info.excData .sfetch excNone
        storeOperand P arch ha info.dst2.idx info.dst2.data
      else .ok arch
  | _ => .ok arch

/-- The next pc of `EXC_NONE`. -/
def nextPc (pc : Word) (info : DecodeInfo) : Word :=
  match info.type with
  | .direct | .indirect | .indCall | .indPush | .push | .pop | .popPush => info.dst2.data
  -- Bodies leave the target in the third slot, and the direction of a branch in the second.
  | .cond => if info.dst1.data ≠ 0 then info.dst2.data else pc + info.instSize.setWidth 64
  | _ => pc + info.instSize.setWidth 64

/-- `EXC_NONE`: registers, memory, `gpr[0] = 0`. -/
def commit (P : Platform δ) (arch : RiscvArch δ) (info : DecodeInfo) :
    Except Abort (Word × RiscvArch δ) := do
  let s ← commitDsts arch.state info
  let arch ← commitMemory P { arch with state := s } info
  -- The stores are made before `gpr[0]` is cleared.
  let arch := ({ arch with state := arch.state.set (.gpr 0) 0 }).updateMMUState
  return (nextPc arch.pc info, arch)

/-- The codes whose trap value is `exc_data`. -/
def faultCodes : List Word :=
  [excII, excLAM, excLAF, excSAM, excSAF, excIPF, excLPF, excSPF]

/-- The codes whose trap value is zero. -/
def callCodes : List Word := [excECU, excECS, excECM, excBP]

/-- `updateEnv` on the record `env->info` points at. -/
def updateEnv (P : Platform δ) (arch : RiscvArch δ) (info : DecodeInfo) :
    Except Abort (Word × RiscvArch δ) :=
  if isIrq info then .ok (arch.trap info 0)
  else if info.exception ∈ [excDT, excSC, excHE] then .error .exit
  else if info.exception ∈ faultCodes then .ok (arch.trap info info.excData)
  else if info.exception ∈ callCodes then .ok (arch.trap info 0)
  else if info.exception = excSRET then .ok arch.doSret
  else if info.exception = excMRET then .ok arch.doMret
  else if info.exception = excNone then arch.commit P info
  -- A code that no case names.
  else .error .exit

/-! ### Reset -/

/-- The words `name_offset_map` lets the configuration set. -/
def configWords : List StateWord :=
  [.misa, .priv, .mstatus, .pmpcfg 0, .pmpaddr 0, .mideleg, .medeleg]

/-- `initConfig`: the entries whose name is in the map are stored in order.  An indexed
entry keeps its brackets in the name `Arch::initConfig` records, so none is found. -/
def initConfig (s : ArchState) (config : List (StateWord × Word)) : ArchState :=
  config.foldl (fun s c => if c.1 ∈ configWords then s.set c.1 c.2 else s) s

/-- `getStartPC`. -/
def startPc : Word := 0x80000000

/-- The machine after `afterLoad` and `initConfig`. -/
def reset (config : List (StateWord × Word)) (memory : Memory δ) : RiscvArch δ where
  state := initConfig ArchState.zero config
  ifetchMmuState := false
  dataMmuState := false
  memory := memory
  pc := 0
  paddr := 0
  tick := 0
  instret := 0

end RiscvArch

end CPUDelaySim.Riscv
