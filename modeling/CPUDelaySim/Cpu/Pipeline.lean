import CPUDelaySim.Cache.System
import CPUDelaySim.Riscv.RiscvArch

/-!
# The pipeline

`PipelineCPU` of `cpu/pipelinecpu.cpp`, between an instruction cache, the data cache and a
predictor.

The stages of the source hold pointers to `Inst` objects of two pools. An object is taken up
again only after `retire_size` others. At most eight are taken up while a stage points at one, so
from a `retire_size` of nine on (the configurations have ten and more) no stage points at it any
more, and the stages here hold the objects themselves; what a recycled object still holds is an
input of the step that takes it up. `env->info`, which also points into a stage, is the record
last handed to it.

The instruction cache answers the lookups it accepted in order, and none from before a
`redirect`: the `cache_req_list` is the list of the wrappers whose lookups it owes an answer,
followed by `fetch_cache_req`. Of `mem_req_list` only the tail is kept: nothing reads its head
but the loop that moves it. The members that only statistics and the instruction log read are
left out.
-/

namespace CPUDelaySim

open Riscv

/-! ### What the pipeline is built from -/

/-- The configuration of the pipeline.  Smaller pools than of nine would hand out an `Inst` that a
stage still points at; a slot of `mem_end_map` is named by a `uint16_t`. -/
structure PipelineParams where
  retireSize : Nat
  multDelay : BitVec 32
  divDelay : BitVec 32
  faddDelay : BitVec 32
  fmulDelay : BitVec 32
  fmaDelay : BitVec 32
  fdivDelay : BitVec 32
  fsqrtDelay : BitVec 32
  fmiscComplexDelay : BitVec 32
  dcache : CacheParams
  nine_le : 9 ≤ retireSize
  le : retireSize ≤ 2 ^ 16

/-- What `Predictor::predict` returns. -/
structure Prediction where
  metaIdx : Int
  nextPc : Word
  taken : Bool

/-- `class Predictor`. -/
structure Predictor (π : Type) where
  predict (pc : Word) (info : DecodeInfo) : π → Prediction × π
  redirect (taken : Bool) (pc : Word) (size : Byte) (target : Word) (type : InstType)
    (metaIdx : Int) : π → π
  update (taken : Bool) (pc : Word) (size : Byte) (target : Word) (type : InstType)
    (metaIdx : Int) : π → π

/-- How the memory access of an instruction was started.  Not in the source: the run of the
data cache is told apart from the flags by it. -/
inductive Access
  /-- The event of the data cache's log with which it accepted the request. -/
  | request (index : Nat)
  | failedSc
  deriving DecidableEq

/-- `PipelineCPU::Inst`; `access` is not in the source. -/
structure Inst where
  taken : Bool
  size : Byte
  realSize : Byte
  memId : BitVec 16
  bpMetaIdx : Int
  pc : Word
  nextPc : Word
  realPc : Word
  realTarget : Word
  paddr : Word
  info : DecodeInfo
  access : Option Access

/-- `class PipelineCPU`, with the machine, the predictor and the data cache.  A stage that is
not valid holds no instruction; `id_inst` is used when it is not valid, too. -/
structure Pipeline (δ π : Type) where
  arch : RiscvArch δ
  /-- `env->info`. -/
  envInfo : Option DecodeInfo
  pred : π
  predPc : Word
  pc : Word
  fetchValid : Bool
  fetchInst : Option Inst
  /-- The lookups the instruction cache owes an answer, oldest first. -/
  fetching : List Inst
  idValid : Bool
  idInst : Option Inst
  idStallValid : Bool
  idStallDecMore : Bool
  idStallInstValid : Bool
  idStallInst : Option Inst
  idRemainSize : Int
  idWaitRedirect : Bool
  waitRedirectTick : Word
  exe : Option Inst
  exeStallCycle : Word
  exeEnd : Bool
  mem : Option Inst
  wb : Option Inst
  wbTick : Word
  /-- The slot `mem_req_list.back()` has the id of. -/
  memTail : Nat
  memEndMap : Nat → Bool
  dcache : CacheSystem DCache.Own

/-- Why a step of the pipeline has no result: the simulator stops, or the step is one that a
cache cannot take. -/
inductive Halt
  | aborts (why : Abort)
  | unasked

/-- A call of the machine. -/
def Halt.ofArch {α : Type} (x : Except Abort α) : Except Halt α := x.mapError .aborts

/-- `type >= MEM_START && type <= MEM_END`. -/
def InstType.isMem : InstType → Bool
  | .load | .store | .lr | .sc | .amo => true
  | _ => false

/-- `type > PUSH && type <= BRANCH_END`. -/
def InstType.isJump : InstType → Bool
  | .indirect | .indCall | .indPush | .pop | .popPush => true
  | _ => false

/-- `type == DIRECT || type == PUSH`. -/
def InstType.isDirect : InstType → Bool
  | .direct | .push => true
  | _ => false

/-- `Base::arch->exceptionValid(info->exception)`. -/
def Inst.excepts (inst : Inst) : Bool := RiscvArch.exceptionValid inst.info.exception

/-- `dst_data[1] ^ taken`. -/
def Inst.mispredicts (inst : Inst) : Bool :=
  inst.info.dst1.data ^^^ (if inst.taken then 1 else 0) != 0

/-- An object of the pools that no instruction has used. -/
def Inst.zero : Inst := ⟨false, 0, 0, 0, 0, 0, 0, 0, 0, 0, .zero, none⟩

/-- A predictor that expects every instruction to fall through. -/
def fallThrough : Predictor Unit where
  predict pc info _ := (⟨0, pc + info.instSize.setWidth 64, false⟩, ())
  redirect _ _ _ _ _ _ _ := ()
  update _ _ _ _ _ _ _ := ()

namespace Pipeline

variable {δ π : Type}

/-- The pipeline after `afterLoad`, its flags and slots as the compiler zeroes them. -/
def afterLoad (p : PipelineParams) (arch : RiscvArch δ) (pred : π) (startPc : Word) :
    Pipeline δ π where
  arch := arch
  envInfo := none
  pred := pred
  predPc := startPc
  pc := startPc
  fetchValid := false
  fetchInst := none
  fetching := []
  idValid := false
  idInst := none
  idStallValid := false
  idStallDecMore := false
  idStallInstValid := false
  idStallInst := none
  idRemainSize := 0
  idWaitRedirect := false
  waitRedirectTick := 0
  exe := none
  exeStallCycle := 0
  exeEnd := false
  mem := none
  wb := none
  wbTick := 0
  memTail := 0
  memEndMap := fun _ => false
  dcache := .start (DCache.afterLoad p.dcache)

/-! ### The data cache -/

/-- A call of a function of the data cache. -/
def callDCache (p : PipelineParams) (j : CacheStep) (s : Pipeline δ π) :
    Except Halt (Pipeline δ π) :=
  match CacheSystem.step (dCache p.dcache) s.dcache j with
  | .ok dcache => .ok { s with dcache := dcache }
  | .error _ => .error .unasked

/-- The callback `PipelineCPU::afterLoad` registers with the data cache, for every answer among
the events. -/
def memAnswered (memEndMap : Nat → Bool) : List Event → Nat → Bool
  | [] => memEndMap
  | .answered id :: rest => memAnswered (Function.update memEndMap id.toNat true) rest
  | _ :: rest => memAnswered memEndMap rest

/-- A tick of the data cache, or an answer of its parent. -/
def runDCache (p : PipelineParams) (j : CacheStep) (s : Pipeline δ π) :
    Except Halt (Pipeline δ π) := do
  let t ← s.callDCache p j
  return { t with
    memEndMap := memAnswered s.memEndMap (t.dcache.log.drop s.dcache.log.length) }

/-! ### Redirects -/

/-- What all three redirects do to the stages before ID. -/
def dropFetches (target : Word) (s : Pipeline δ π) : Pipeline δ π :=
  { s with
    idStallValid := false
    idStallDecMore := false
    idStallInstValid := false
    idRemainSize := 0
    fetchValid := false
    fetching := []
    predPc := target }

/-- `frontRedirect`. -/
def frontRedirect (B : Predictor π) (inst : Inst) (s : Pipeline δ π) : Pipeline δ π :=
  { s.dropFetches inst.realTarget with
    pred := B.redirect inst.taken inst.realPc inst.realSize inst.realTarget inst.info.type
      inst.bpMetaIdx s.pred }

/-- `brRedirect`. -/
def brRedirect (B : Predictor π) (inst : Inst) (s : Pipeline δ π) : Pipeline δ π :=
  { s.dropFetches inst.realTarget with
    idValid := false
    idWaitRedirect := false
    pred := B.redirect (inst.info.dst1.data != 0) inst.realPc inst.realSize inst.realTarget
      inst.info.type inst.bpMetaIdx s.pred }

/-- `excRedirect`. -/
def excRedirect (p : PipelineParams) (B : Predictor π) (inst : Inst) (s : Pipeline δ π) :
    Except Halt (Pipeline δ π) :=
  callDCache p .redirect
    { s.dropFetches inst.realTarget with
      mem := none
      exe := none
      exeStallCycle := 0
      exeEnd := false
      idValid := false
      idWaitRedirect := false
      pred := B.redirect false inst.realPc inst.realSize inst.realTarget .int inst.bpMetaIdx
        s.pred }

/-! ### The stages -/

/-- The end of the WB stage. -/
def retire (s : Pipeline δ π) : Pipeline δ π :=
  { s with
    wb := none
    arch := { s.arch with instret := s.arch.instret + 1 }
    wbTick := s.arch.tick }

/-- The WB stage. -/
def wbStage (p : PipelineParams) (B : Predictor π) (s : Pipeline δ π) :
    Except Halt (Pipeline δ π) :=
  match s.wb with
  | none => .ok s
  | some inst =>
      if inst.excepts then (s.excRedirect p B inst).map retire else .ok s.retire

/-- The MEM stage. -/
def memStage (s : Pipeline δ π) : Pipeline δ π :=
  match s.mem with
  | none => s
  | some inst =>
      if inst.excepts || !inst.info.type.isMem then { s with mem := none, wb := some inst }
      else if s.memEndMap inst.memId.toNat then
        { s with
          memEndMap := Function.update s.memEndMap inst.memId.toNat false
          mem := none
          wb := some inst }
      else s

/-- A `lookup` of the data cache for the instruction in EXE, with `mem_req_list.back()`. -/
def memLookup (P : Platform δ) (p : PipelineParams) (type : FetchType) (kind : SnoopReq)
    (inst : Inst) (s : Pipeline δ π) : Except Halt (Pipeline δ π) := do
  -- `mem_exception` is not looked at.
  let (paddr, _, arch) ← Halt.ofArch (s.arch.translateAddr P inst.info.excData type excNone)
  let id : BitVec 16 := BitVec.ofNat 16 s.memTail
  let req : CacheReq :=
    ⟨kind, inst.info.dst2.idx.setWidth 32, Function.update (fun _ => 0) 0 id, paddr⟩
  let inst := { inst with memId := id }
  let taken := (DCache.lookup req s.dcache.cache).2
  let t ← callDCache p (.lookup req) { s with arch := arch }
  if taken then
    return { t with
      exe := some { inst with access := some (.request s.dcache.log.length) }
      exeEnd := true
      memTail := (s.memTail + 1) % p.retireSize }
  else return { t with exe := some inst }

/-- The last two lines of the branch cases of EXE. -/
def branchDone (B : Predictor π) (taken : Bool) (inst : Inst) (s : Pipeline δ π) : Pipeline δ π :=
  { s with
    exeEnd := true
    pred := B.update taken inst.realPc inst.realSize inst.realTarget inst.info.type
      inst.bpMetaIdx s.pred }

/-- The `switch` of the EXE stage. -/
def execute (P : Platform δ) (p : PipelineParams) (B : Predictor π) (inst : Inst)
    (s : Pipeline δ π) : Except Halt (Pipeline δ π) :=
  let stall (delay : BitVec 32) : Except Halt (Pipeline δ π) :=
    .ok { s with exeStallCycle := delay.setWidth 64 }
  let store := s.memLookup P p .sfetch .writeBack inst
  match inst.info.type with
  | .mult => stall p.multDelay
  | .div => stall p.divDelay
  | .fadd => stall p.faddDelay
  | .fmul => stall p.fmulDelay
  | .fma => stall p.fmaDelay
  | .fdiv => stall p.fdivDelay
  | .fsqrt => stall p.fsqrtDelay
  | .fmiscComplex => stall p.fmiscComplexDelay
  | .cond =>
      let s := if inst.mispredicts || inst.nextPc != inst.realTarget then s.brRedirect B inst else s
      .ok (s.branchDone B (inst.info.dst1.data != 0) inst)
  | .indirect | .indCall | .indPush | .pop | .popPush =>
      let s := if inst.nextPc != inst.realTarget then s.brRedirect B inst else s
      .ok (s.branchDone B true inst)
  | .direct | .push => .ok (s.branchDone B true inst)
  | .load | .lr => s.memLookup P p .lfetch .readShared inst
  | .sc =>
      -- A store that is known to fail makes no request; its slot is marked at once.
      if inst.info.dst0.data ≠ 0 then
        let id : BitVec 16 := BitVec.ofNat 16 s.memTail
        .ok { s with
          exe := some { inst with memId := id, access := some .failedSc }
          exeEnd := true
          memEndMap := Function.update s.memEndMap id.toNat true
          memTail := (s.memTail + 1) % p.retireSize }
      else store
  | .store | .amo => store
  | .fence | .sfence => do
      let t ← callDCache p .flush s
      return { t with exeEnd := true }
  -- The flush of the instruction cache is not seen here.
  | .ifence => .ok { s with exeEnd := true }
  | .int | .csrwr | .sret | .mret | .fmiscSimple => .ok { s with exeEnd := true }

/-- The EXE stage up to the hand-over. -/
def exeTurn (P : Platform δ) (p : PipelineParams) (B : Predictor π) (inst : Inst)
    (s : Pipeline δ π) : Except Halt (Pipeline δ π) :=
  if s.exeStallCycle ≠ 0 then
    .ok { s with
      exeStallCycle := s.exeStallCycle - 1
      exeEnd := if s.exeStallCycle - 1 = 0 then true else s.exeEnd }
  else if s.exeEnd then .ok s
  -- A trap passes EXE without doing anything.
  else if inst.excepts then .ok { s with exeEnd := true }
  else s.execute P p B inst

/-- The hand-over from EXE to MEM. -/
def enterMem (s : Pipeline δ π) : Pipeline δ π :=
  if s.exeEnd && s.mem.isNone then { s with exeEnd := false, exe := none, mem := s.exe } else s

/-- The EXE stage. -/
def exeStage (P : Platform δ) (p : PipelineParams) (B : Predictor π) (s : Pipeline δ π) :
    Except Halt (Pipeline δ π) :=
  match s.exe with
  | none => .ok s
  | some inst => (s.exeTurn P p B inst).map enterMem

/-- `Base::arch->handleException(inst->info->exception, pc, inst->info)` on `id_inst`. -/
def handleException (inst : Inst) (s : Pipeline δ π) : Pipeline δ π :=
  let (arch, info) := s.arch.handleException inst.info.exception s.pc inst.info
  { s with
    arch := arch
    idInst := some { inst with info := info }
    envInfo := if inst.info.exception = excIPF then some info else s.envInfo }

/-- `id_wait_redirect`, as ID leaves it, with the tick it is set at. -/
def waitRedirect (waits : Bool) (s : Pipeline δ π) : Pipeline δ π :=
  { s with
    idWaitRedirect := waits
    waitRedirectTick := if waits then s.arch.tick else s.waitRedirectTick }

/-- What the ID stage makes of the next pc: it waits for a redirect, makes one, or stops. -/
def checkNext (B : Predictor π) (inst : Inst) (s : Pipeline δ π) : Except Halt (Pipeline δ π) :=
  let targetEq := s.pc == inst.nextPc
  let isBranch := inst.info.type == .cond || inst.info.type.isJump || inst.info.type.isDirect
  if inst.excepts then .ok (s.waitRedirect true)
  else if inst.info.type.isJump then .ok (s.waitRedirect !targetEq)
  else if inst.info.type == .cond then .ok (s.waitRedirect (inst.mispredicts || !targetEq))
  else if RiscvArch.needFlush inst.info || !isBranch && inst.taken then
    .ok (s.frontRedirect B inst)
  -- `Log::error`: the instruction is not in the block that it was fetched with.
  else if inst.pc ≤ inst.realPc && inst.realPc < inst.pc + inst.size.setWidth 64 then .ok s
  else .error (.aborts .exit)

/-- The call of `updateEnv` in the ID stage, and the checks after it. -/
def updateEnvAtId (P : Platform δ) (B : Predictor π) (inst : Inst) (s : Pipeline δ π) :
    Except Halt (Pipeline δ π) :=
  match s.envInfo with
  | none => .error (.aborts .nullPointer)
  | some info => do
      let (target, arch) ← Halt.ofArch (s.arch.updateEnv P info)
      let inst := { inst with realTarget := target }
      checkNext B inst { s with arch := arch, pc := target, idInst := some inst }

/-- The ID stage up to the hand-over. -/
def idTurn (P : Platform δ) (B : Predictor π) (inst : Inst) (s : Pipeline δ π) :
    Except Halt (Pipeline δ π) :=
  let s := if inst.excepts then s.handleException inst else s
  if !s.idWaitRedirect then s.updateEnvAtId P B (s.idInst.getD inst)
  -- An instruction behind one that redirects is passed on without `updateEnv`.
  else if 5000 < s.arch.tick - s.waitRedirectTick then .error (.aborts .exit)
  else .ok s

/-- The hand-over from ID to EXE. -/
def enterExe (s : Pipeline δ π) : Pipeline δ π :=
  { s with
    exe := s.idInst.map fun inst => { inst with access := none }
    idValid := false }

/-- The ID stage. -/
def idStage (P : Platform δ) (B : Predictor π) (s : Pipeline δ π) : Except Halt (Pipeline δ π) :=
  if s.idValid && s.exe.isNone then
    match s.idInst with
    | none => .error (.aborts .nullPointer)
    | some inst => (s.idTurn P B inst).map enterExe
  else .ok s

/-- `preId`; whether the block is finished. -/
def preId (P : Platform δ) (B : Predictor π) (inst : Option Inst) (s : Pipeline δ π) :
    Except Halt (Bool × Pipeline δ π) :=
  -- The rest of a block is decoded into a copy of `id_inst`.
  match if s.idRemainSize ≤ 0 then inst else s.idInst with
  | none => .error (.aborts .nullPointer)
  | some inst => do
      let remain := if s.idRemainSize ≤ 0 then s.idRemainSize + inst.size.toNat else s.idRemainSize
      let (paddr, exception, arch) ←
        Halt.ofArch (s.arch.translateAddr P s.pc .ifetch inst.info.exception)
      let inst := { inst with paddr := paddr, info := { inst.info with exception := exception } }
      let s := { s with arch := arch, idRemainSize := remain }
      if inst.excepts then return (true, s.handleException inst)
      else
        let (arch, info) ← Halt.ofArch (s.arch.decode P s.pc paddr inst.info)
        let (prediction, pred) := B.predict s.pc info s.pred
        let inst := { inst with
          info := info
          realSize := info.instSize
          realPc := s.pc
          bpMetaIdx := prediction.metaIdx
          nextPc := prediction.nextPc
          taken := prediction.taken }
        let s := { s with arch := arch, pred := pred, envInfo := some info }
        if inst.taken then
          let inst := { inst with realTarget := inst.nextPc }
          return (true, { s.frontRedirect B inst with idInst := some inst })
        else
          let remain := remain - info.instSize.toNat
          return (decide (remain ≤ 0), { s with idInst := some inst, idRemainSize := remain })

/-- The part of `exec` that goes on with what waits for ID. -/
def stallStage (P : Platform δ) (B : Predictor π) (s : Pipeline δ π) :
    Except Halt (Pipeline δ π) :=
  if !s.idValid && s.idStallValid then do
    let (finish, s) ← s.preId P B s.idStallInst
    let s := { s with idValid := true }
    if s.idStallDecMore then
      return { s with
        idStallDecMore := !finish
        idStallValid := !(finish && !s.idStallInstValid) }
    else if s.idStallInstValid then
      return { s with idStallInstValid := !finish, idStallValid := !finish }
    else return s
  else .ok s

/-- The translation of the block in fetch; a fault stays until the block is dropped or in ID. -/
def translateFetch (P : Platform δ) (inst : Inst) (s : Pipeline δ π) :
    Except Halt (Inst × RiscvArch δ) :=
  -- The code of an earlier turn is kept, and the walk not made again.
  if inst.excepts then .ok (inst, s.arch)
  else do
    let (paddr, exception, arch) ←
      Halt.ofArch (s.arch.translateAddr P inst.pc .ifetch inst.info.exception)
    return ({ inst with
      paddr := paddr, info := { inst.info with exception := exception } }, arch)

/-- The fetch of `exec`, `takes` what `icache->lookup` answers. -/
def fetchStage (P : Platform δ) (takes : Bool) (s : Pipeline δ π) : Except Halt (Pipeline δ π) :=
  if s.fetchValid && !s.idValid then
    match s.fetchInst with
    | none => .error (.aborts .nullPointer)
    | some inst => do
        let (inst, arch) ← s.translateFetch P inst
        let s := { s with arch := arch, fetchInst := some inst }
        if inst.excepts then
          -- `cache_req_list.one()`: every block before this one has been answered.
          if s.fetching.isEmpty && !s.idStallValid then
            return { s with
              idValid := true
              idInst := some inst
              idRemainSize := s.idRemainSize + inst.size.toNat
              fetchValid := false }
          else return s
        else if takes then return { s with fetching := s.fetching ++ [inst], fetchValid := false }
        else return s
  else .ok s

/-- The wrapper the next block is fetched with; `slot` is what it held before. -/
def nextFetch (slot : Inst) (s : Pipeline δ π) : Pipeline δ π :=
  if !s.fetchValid then
    -- A wrapper keeps the record of the instruction that used it before, but for the code.
    { s with
      fetchInst := some { slot with
        pc := s.predPc, size := 4, info := { slot.info with exception := excNone } }
      predPc := s.predPc + 4
      fetchValid := true }
  else s

/-- `exec`. -/
def exec (P : Platform δ) (p : PipelineParams) (B : Predictor π) (takes : Bool) (slot : Inst)
    (s : Pipeline δ π) : Except Halt (Pipeline δ π) :=
  -- `Log::error`: nothing has retired for long.
  if 5000 < s.arch.tick - s.wbTick then .error (.aborts .exit)
  else do
    let s ← s.wbStage p B
    let s ← s.memStage.exeStage P p B
    let s ← s.idStage P B
    let s ← s.stallStage P B
    let s ← s.fetchStage P takes
    let s := s.nextFetch slot
    return { s with arch := { s.arch with tick := s.arch.tick + 1 } }

/-- The callback `PipelineCPU::afterLoad` registers with the instruction cache. -/
def icacheAnswered (P : Platform δ) (B : Predictor π) (s : Pipeline δ π) :
    Except Halt (Pipeline δ π) :=
  match s.fetching with
  | [] => .error .unasked
  | inst :: rest =>
      let s := { s with fetching := rest }
      -- The block goes to ID at once, or it waits in `id_stall_inst`.
      if !s.idValid then do
        let (finish, s) ← preId P B (some inst) { s with idValid := true }
        return { s with idStallValid := !finish, idStallDecMore := !finish }
      else
        return { s with
          idStallValid := true, idStallInst := some inst, idStallInstValid := true }

end Pipeline

/-! ### Runs -/

/-- What happens to the pipeline; `EMU::run` makes some of these steps, in an order of its own. -/
inductive PipelineStep (δ : Type)
  | exec (takes : Bool) (slot : Inst)
  | icacheAnswer
  | dcacheTick (accepts : Bool)
  | dcacheAnswer (index : Nat)
  /-- A device ticks and may publish an interrupt vector. -/
  | device (dev : δ) (irq : Option Word)

/-- The effect of a step. -/
def Pipeline.step {δ π : Type} (P : Platform δ) (p : PipelineParams) (B : Predictor π)
    (s : Pipeline δ π) : PipelineStep δ → Except Halt (Pipeline δ π)
  | .exec takes slot => s.exec P p B takes slot
  | .icacheAnswer => s.icacheAnswered P B
  | .dcacheTick accepts => s.runDCache p (.tick accepts false)
  | .dcacheAnswer index => s.runDCache p (.answer index false)
  | .device dev irq =>
      let arch : RiscvArch δ := { s.arch with memory := { s.arch.memory with dev := dev } }
      .ok { s with arch := arch.irqListener irq }

end CPUDelaySim
