import CPUDelaySim.Riscv.Csr

/-!
# Instruction bodies

The `trans_*` functions of `interpreter.cpp` are some two hundred bodies of about
twenty shapes.  A shape is a constructor of `Body`, and `Body.exec` says once what
the shape does to the machine and to the `DecodeInfo` record, in the order of the
source's statements.  The instructions themselves are in the next module, each a
definition under its source name that applies a shape to the instruction's own
registers, operation, width and type.

A body returns the C++ result (`false` sends the decoder on to its next candidate)
together with the machine and the record it leaves.  The fields a shape does not
mention keep what the reused record held: `jalr` without a classification leaves
`type`, a disabled floating-point unit leaves everything but `exception`, and the
floating-point loads and stores leave `excData`.
-/

namespace CPUDelaySim.Riscv

variable {δ : Type}

/-- `DisasContext`: the machine and the record `env->info` points at. -/
@[ext] structure Ctx (δ : Type) where
  arch : RiscvArch δ
  info : DecodeInfo

/-! ### Updates of the record -/

/-- `dst_idx`, `dst_mask` (all ones) and `dst_data` aimed at a word of the state. -/
def Dst.full (w : StateWord) (data : Word) : Dst := ⟨w.idx, fullMask, data⟩

/-- `ctx->info->exception = code`. -/
def Ctx.raise (ctx : Ctx δ) (code : Word) : Ctx δ :=
  { ctx with info := { ctx.info with exception := code } }

/-- `ctx->info->exc_data = data`. -/
def Ctx.setExcData (ctx : Ctx δ) (data : Word) : Ctx δ :=
  { ctx with info := { ctx.info with excData := data } }

/-- `ctx->info->type = type`. -/
def Ctx.setType (ctx : Ctx δ) (type : InstType) : Ctx δ :=
  { ctx with info := { ctx.info with type := type } }

/-- `SET_GPR_64` and its variants: the first destination written in full. -/
def Ctx.setDst0 (ctx : Ctx δ) (w : StateWord) (data : Word) : Ctx δ :=
  { ctx with info := { ctx.info with dst0 := Dst.full w data } }

/-- The second destination. -/
def Ctx.setDst1 (ctx : Ctx δ) (d : Dst) : Ctx δ :=
  { ctx with info := { ctx.info with dst1 := d } }

/-- The third destination. -/
def Ctx.setDst2 (ctx : Ctx δ) (d : Dst) : Ctx δ :=
  { ctx with info := { ctx.info with dst2 := d } }

/-- `ctx->info->dst_data[1] = data`. -/
def Ctx.setData1 (ctx : Ctx δ) (data : Word) : Ctx δ :=
  { ctx with info := { ctx.info with dst1 := { ctx.info.dst1 with data := data } } }

/-- `ctx->info->dst_data[2] = data`. -/
def Ctx.setData2 (ctx : Ctx δ) (data : Word) : Ctx δ :=
  { ctx with info := { ctx.info with dst2 := { ctx.info.dst2 with data := data } } }

/-- `ctx->info->dst_idx[2] = n`, the width of a memory access. -/
def Ctx.setWidth2 (ctx : Ctx δ) (n : Nat) : Ctx δ :=
  { ctx with
    info := { ctx.info with dst2 := { ctx.info.dst2 with idx := BitVec.ofNat 16 n } } }

/-- An assignment to `ctx->state`. -/
def Ctx.setState (ctx : Ctx δ) (s : ArchState) : Ctx δ :=
  { ctx with arch := { ctx.arch with state := s } }

/-- `get_gpr_64` and `get_fpr_64`. -/
def ArchState.gpr (s : ArchState) (i : BitVec 5) : Word := s.get (.gpr i)
/-- A register of the unit. -/
def ArchState.fpr (s : ArchState) (i : BitVec 5) : Word := s.get (.fpr i)

/-! ### Loads and stores -/

/-- The access widths of `ld_*` and `st_*`. -/
inductive Width
  | b | h | w | d
  deriving DecidableEq, Repr

namespace Width

def bytes : Width → Nat
  | b => 1
  | h => 2
  | w => 4
  | d => 8

/-- `va & 0x1`, `va & 0x3`, `va & 0x7`; the byte accesses make no check. -/
def misaligned (width : Width) (va : Word) : Bool :=
  va &&& BitVec.ofNat 64 (width.bytes - 1) != 0

/-- The integer type `ld_*` returns, as the 64-bit value its callers extend it to. -/
def extend : Width → Word → Word
  | b, v => (v.setWidth 8).signExtend 64
  | h, v => (v.setWidth 16).signExtend 64
  | w, v => (v.setWidth 32).signExtend 64
  | d, v => v

/-- The unsigned integer type of the width: what a store keeps of its operand. -/
def truncate : Width → Word → Word
  | b, v => (v.setWidth 8).setWidth 64
  | h, v => (v.setWidth 16).setWidth 64
  | w, v => (v.setWidth 32).setWidth 64
  | d, v => v

end Width

/-- `ld_b`, `ld_h`, `ld_w` and `ld_d`. -/
def ld (P : Platform δ) (width : Width) (ctx : Ctx δ) (va : Word) :
    Except Abort (Word × Ctx δ) := do
  if width.misaligned va then return (0, ctx.raise excLAM)
  else
    let (ha, exception, arch) ← ctx.arch.translateAddr P va .lfetch excNone
    if RiscvArch.exceptionValid exception then
      return (0, ({ ctx with arch := arch } : Ctx δ).raise excLPF)
    else
      let (data, _, arch) ← arch.paddrRead P ha width.bytes P.junk
      return (width.extend data, ({ ctx with arch := arch } : Ctx δ).setWidth2 width.bytes)

/-- `st_b`, `st_h`, `st_w` and `st_d`: only the checks and the translation, the
bytes are stored by `updateEnv`. -/
def st (P : Platform δ) (width : Width) (ctx : Ctx δ) (va : Word) :
    Except Abort (Ctx δ) := do
  if width.misaligned va then return ctx.raise excSAM
  else
    let (ha, exception, arch) ← ctx.arch.translateAddr P va .sfetch excNone
    let ctx : Ctx δ := { ctx with arch := arch }
    if RiscvArch.exceptionValid exception then return ctx.raise excSPF
    else return (ctx.setWidth2 width.bytes).setData2 ha

/-! ### Shapes -/

/-- The computation of a floating-point body: a move, or a call of the soft-float
library on operands, its result boxed. -/
inductive FpCalc
  | move (value : ArchState → Word)
  | call (op : FloatOp) (args : ArchState → List Word) (box : Word → Word)

/-- The types of the bodies that leave pc and memory to the next instruction. -/
inductive PlainType
  | int | mult | div | fence | ifence
  | fmiscSimple | fmiscComplex | fadd | fmul | fma | fdiv | fsqrt
  deriving DecidableEq, Repr

/-- The type as `info` has it. -/
def PlainType.instType : PlainType → InstType
  | int => .int
  | mult => .mult
  | div => .div
  | fence => .fence
  | ifence => .ifence
  | fmiscSimple => .fmiscSimple
  | fmiscComplex => .fmiscComplex
  | fadd => .fadd
  | fmul => .fmul
  | fma => .fma
  | fdiv => .fdiv
  | fsqrt => .fsqrt

/-- The registers a floating-point body can write. -/
inductive DstReg
  | gpr (i : BitVec 5)
  | fpr (i : BitVec 5)

/-- The register as a word of the state. -/
def DstReg.word : DstReg → StateWord
  | gpr i => .gpr i
  | fpr i => .fpr i

/-- How a CSR instruction drives `riscv_csrrw`. -/
inductive CsrAccess
  /-- `do_csrr`. -/
  | read
  /-- `do_csrrw` with a source and a write mask. -/
  | write (src mask : ArchState → Word)

/-- The `write` argument of `riscv_csrrw_check`. -/
def CsrAccess.isWrite : CsrAccess → Bool
  | read => false
  | write _ _ => true

/-- The source and the write mask passed to `riscv_csrrw`. -/
def CsrAccess.src : CsrAccess → ArchState → Word
  | read, _ => 0
  | write src _, s => src s
/-- The write mask of the access: the bits that it may change. -/
def CsrAccess.mask : CsrAccess → ArchState → Word
  | read, _ => 0
  | write _ mask, s => mask s

/-- The body of a `trans_*` function. -/
inductive Body
  /-- `__NOT_IMPLEMENTED_EXIT__`. -/
  | notImplemented
  /-- `return false`. -/
  | unsupported
  /-- A result computed from registers and pc; `none` is an undefined operation. -/
  | compute (rd : BitVec 5) (value : ArchState → Word → Option Word) (type : PlainType)
  | cond (taken : ArchState → Bool) (imm : Word)
  | jal (rd : BitVec 5) (imm : Word)
  | jalr (rd rs1 : BitVec 5) (imm : Word)
  | load (rd : BitVec 5) (addr : ArchState → Word) (width : Width) (ext : Word → Word)
  | store (addr : ArchState → Word) (width : Width) (data : ArchState → Word)
  | fload (rd : BitVec 5) (addr : ArchState → Word) (width : Width) (box : Word → Word)
  | fstore (addr : ArchState → Word) (width : Width) (data : ArchState → Word)
  | amo (rd : BitVec 5) (addr : ArchState → Word) (width : Width) (data : ArchState → Word)
      (op : Word → Word → Word)
  | lr (rd : BitVec 5) (addr : ArchState → Word) (width : Width)
  | sc (rd : BitVec 5) (addr : ArchState → Word) (width : Width) (src : ArchState → Word)
  | csr (rd : BitVec 5) (csrno : BitVec 12) (access : CsrAccess)
  | fp (dst : DstReg) (rm : Option (BitVec 3)) (fpCalc : FpCalc) (type : PlainType)
  /-- A body that only sets `type`. -/
  | simple (type : PlainType)
  | sfence (src1 src2 : ArchState → Word)
  | sret
  | mret
  | ebreak
  | ecall

/-! ### Execution -/

/-- `REQUIRE_FPU`: with the unit off, `EXC_II` and an early `return true`. -/
def requireFpu (ctx : Ctx δ) (k : Ctx δ → Except Abort (Bool × Ctx δ)) :
    Except Abort (Bool × Ctx δ) :=
  if !ctx.arch.state.fpEnabled then .ok (true, ctx.raise excII)
  else k (ctx.setState ctx.arch.state.dirtyFs)

/-- The state after `setrm`, in a body that calls it. -/
def ArchState.rounded (s : ArchState) : Option (BitVec 3) → ArchState
  | some rm => s.setrm rm
  | none => s

/-- The computation of a floating-point body on the state it reaches. -/
def FpCalc.run (P : Platform δ) (s : ArchState) : FpCalc → Except Abort (Word × ArchState)
  | .move value => .ok (value s, s)
  | .call op args box =>
      match P.float.call op (args s) s.floatRoundingMode s.floatExceptionFlags with
      | some (value, flags) => .ok (box value, s.setFlags flags)
      | none => .error .softfloat

/-- The type `trans_jalr` assigns; without one it logs an error and assigns none. -/
def jalrType (rd rs1 : BitVec 5) : Option InstType :=
  let rdValid := rd == 1 || rd == 5
  let rs1Valid := rs1 == 1 || rs1 == 5
  if rdValid && rs1Valid then some (if rd == rs1 then .indPush else .popPush)
  else if rdValid then some (if rs1 != 0 then .indCall else .indPush)
  else if rs1Valid then some .pop
  else if rs1 != 0 then some .indirect
  else none

/-- The read half of `riscv_csrrw`: the old value, or `none` after `EXC_II`. -/
def csrRead (ops : CsrOps) (ctx : Ctx δ) : Except Abort (Option Word × Ctx δ) :=
  match ops.read with
  | none => .error .nullPointer
  | some (.plain value) =>
      .ok (some (value ctx.arch.state ctx.arch.tick ctx.arch.instret), ctx)
  | some (.fp value) =>
      if !ctx.arch.state.fpEnabled then .ok (none, ctx.raise excII)
      else
        let ctx := ctx.setState ctx.arch.state.dirtyFs
        .ok (some (value ctx.arch.state), ctx)
  | some .illegal => .ok (none, ctx.raise excII)

/-- The write half of `riscv_csrrw`: the callback on the merged value. -/
def csrWrite (ops : CsrOps) (val : Word) (ctx : Ctx δ) : Except Abort (Ctx δ) :=
  match ops.write with
  | none => .error .nullPointer
  | some (.masked w mask) => .ok (ctx.setDst1 ⟨w.idx, mask, val⟩)
  | some (.fp field mask dest) =>
      if !ctx.arch.state.fpEnabled then .ok (ctx.raise excII)
      else
        let ctx := ctx.setState ctx.arch.state.dirtyFs
        .ok ((ctx.setDst1 ⟨field.idx, mask, dest val⟩).setDst2
          ⟨StateWord.mstatus.idx, mstatusFS, mstatusFS⟩)
  | some .satp =>
      if val >>> 60 = 0 ∨ val >>> 60 = 8 then
        .ok (ctx.setDst1 ⟨StateWord.satp.idx, 0x800fffffffffffff, val⟩)
      else .ok ctx
  | some .illegal => .ok (ctx.raise excII)
  | some .noop => .ok ctx
  | some .assertFail => .error .assertFail

/-- `riscv_csrrw`; its callers always pass `ret_value`, a local that `junk` is in
until the function assigns it. -/
def riscvCsrrw (P : Platform δ) (ops : CsrOps) (newValue writeMask : Word) (ctx : Ctx δ) :
    Except Abort (Word × Ctx δ) :=
  match ops.op with
  | some op =>
      let s := ctx.arch.state
      .ok (s.get op.word, ctx.setDst1 ⟨op.word.idx, op.mask s &&& writeMask, newValue⟩)
  | none => do
      match ← csrRead ops ctx with
      | (none, ctx) => return (P.junk, ctx)
      | (some old, ctx) =>
          if writeMask = 0 then return (old, ctx)
          else
            let ctx ← csrWrite ops (mergeMask old writeMask newValue) ctx
            return (old, ctx)

/-- `riscv_csrrw_check` for an access that writes or not; `none` after `EXC_II`. -/
def riscvCsrrwCheck (csrno : BitVec 12) (write : Bool) : Option CsrOps :=
  match csrOps csrno with
  | none => none
  | some ops => if write && csrno >>> 10 == 3 then none else some ops

/-- `do_csrr` and `do_csrrw`. -/
def doCsr (P : Platform δ) (rd : BitVec 5) (csrno : BitVec 12) (access : CsrAccess)
    (ctx : Ctx δ) : Except Abort (Ctx δ) :=
  let s := ctx.arch.state
  match riscvCsrrwCheck csrno access.isWrite with
  | none => .ok ((ctx.raise excII).setExcData (ctx.info.inst.setWidth 64))
  | some ops => do
      let (dest, ctx) ← riscvCsrrw P ops (access.src s) (access.mask s) ctx
      return ctx.setDst0 (.gpr rd) dest

/-- `addr != load_res || ld(addr) != load_val`, which reads memory only when the
reservation matches. -/
def scFails (P : Platform δ) (width : Width) (ctx : Ctx δ) (va : Word) :
    Except Abort (Bool × Ctx δ) :=
  if va ≠ ctx.arch.state.get .loadRes then .ok (true, ctx)
  else do
    let (data, ctx) ← ld P width ctx va
    return (data != ctx.arch.state.get .loadVal, ctx)

/-- The two branches of `trans_sc_*`. -/
def scResult (P : Platform δ) (rd : BitVec 5) (width : Width) (fail : Bool) (va src : Word)
    (ctx : Ctx δ) : Except Abort (Ctx δ) :=
  if fail then .ok (ctx.setDst0 (.gpr rd) 1)
  else do
    let ctx ← st P width ctx va
    return (ctx.setDst0 (.gpr rd) 0).setData2 src

/-- One `trans_*` call. -/
def Body.exec (P : Platform δ) : Body → Ctx δ → Except Abort (Bool × Ctx δ)
  | .notImplemented, _ => .error .exit
  | .unsupported, ctx => .ok (false, ctx)
  | .compute rd value type, ctx =>
      match value ctx.arch.state ctx.arch.pc with
      | none => .error .undefinedArith
      | some dest => .ok (true, (ctx.setDst0 (.gpr rd) dest).setType type.instType)
  | .cond taken imm, ctx =>
      .ok (true, ((ctx.setData1 (if taken ctx.arch.state then 1 else 0)).setData2
        (ctx.arch.pc + imm)).setType .cond)
  | .jal rd imm, ctx =>
      .ok (true, ((ctx.setDst0 (.gpr rd) (ctx.arch.pc + ctx.info.instSize.setWidth 64)).setData2
        (ctx.arch.pc + imm)).setType (if rd = 0 then .direct else .push))
  | .jalr rd rs1 imm, ctx =>
      let target := ctx.arch.state.gpr rs1 + imm
      let ctx := (ctx.setDst0 (.gpr rd)
        (ctx.arch.pc + ctx.info.instSize.setWidth 64)).setData2 target
      match jalrType rd rs1 with
      | some type => .ok (true, ctx.setType type)
      | none => .ok (true, ctx)
  | .load rd addr width ext, ctx => do
      let va := addr ctx.arch.state
      let (data, ctx) ← ld P width (ctx.setExcData va) va
      return (true, (ctx.setDst0 (.gpr rd) (ext data)).setType .load)
  | .store addr width data, ctx => do
      let va := addr ctx.arch.state
      let data := data ctx.arch.state
      let ctx ← st P width (ctx.setExcData va) va
      return (true, (ctx.setData1 (width.truncate data)).setType .store)
  | .fload rd addr width box, ctx =>
      requireFpu ctx fun ctx => do
        let (data, ctx) ← ld P width ctx (addr ctx.arch.state)
        return (true, (ctx.setDst0 (.fpr rd) (box data)).setType .load)
  | .fstore addr width data, ctx => do
      let data := data ctx.arch.state
      let ctx ← st P width ctx (addr ctx.arch.state)
      return (true, (ctx.setData1 data).setType .store)
  | .amo rd addr width data op, ctx => do
      let va := addr ctx.arch.state
      let src := data ctx.arch.state
      let (dest, ctx) ← ld P width (ctx.setExcData va) va
      let ctx ← st P width ctx va
      return (true, ((ctx.setData1 (width.truncate (op dest src))).setDst0
        (.gpr rd) dest).setType .amo)
  | .lr rd addr width, ctx => do
      let va := addr ctx.arch.state
      let (dest, ctx) ← ld P width (ctx.setExcData va) va
      return (true, (((ctx.setDst0 (.gpr rd) dest).setDst1 (Dst.full .loadVal dest)).setDst2
        (Dst.full .loadRes va)).setType .lr)
  | .sc rd addr width src, ctx => do
      let va := addr ctx.arch.state
      let src := src ctx.arch.state
      let (fail, ctx) ← scFails P width (ctx.setExcData va) va
      let ctx ← scResult P rd width fail va src ctx
      return (true, (ctx.setDst1 (Dst.full .loadRes fullMask)).setType .sc)
  | .csr rd csrno access, ctx => do
      let ctx ← doCsr P rd csrno access ctx
      return (true, ctx.setType .csrwr)
  | .fp dst rm fpCalc type, ctx =>
      requireFpu ctx fun ctx => do
        let (dest, s) ← fpCalc.run P (ctx.arch.state.rounded rm)
        return (true, ((ctx.setState s).setDst0 dst.word dest).setType type.instType)
  | .simple type, ctx => .ok (true, ctx.setType type.instType)
  | .sfence src1 src2, ctx =>
      .ok (true, ((ctx.setData1 (src1 ctx.arch.state)).setData2
        (src2 ctx.arch.state)).setType .sfence)
  | .sret, ctx =>
      if ctx.arch.state.get .priv < modeS then
        .ok (true, ((ctx.raise excII).setExcData (ctx.info.inst.setWidth 64)).setType .sret)
      else .ok (true, (ctx.raise excSRET).setType .sret)
  | .mret, ctx =>
      if ctx.arch.state.get .priv < modeM then
        .ok (true, ((ctx.raise excII).setExcData (ctx.info.inst.setWidth 64)).setType .mret)
      else .ok (true, (ctx.raise excMRET).setType .mret)
  | .ebreak, ctx =>
      .ok (true, ((ctx.setExcData ctx.arch.pc).raise excBP).setType .csrwr)
  | .ecall, ctx =>
      .ok (true, ((ctx.raise (excECU + ctx.arch.state.get .priv)).setExcData
        (ctx.info.inst.setWidth 64)).setType .csrwr)

end CPUDelaySim.Riscv
