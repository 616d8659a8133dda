import CPUDelaySim.Riscv.Body

/-!
# The instructions

Each `trans_*` function of `interpreter.cpp` that has a body, in the order of the
file, as a shape of `Body` applied to the instruction's own values.  The argument
structures are those of `trans_rv32.h`; an immediate is kept as the 64-bit value
the bodies extend it to.

C leaves a shift by the operand's width or more undefined, as it does division by
zero, the overflowing signed division and the overflowing signed product.  The shift
amounts of the `@sh` format have seven bits, `mul` and `mulw` multiply signed operands
and the divisions other than `div` are unguarded, so those bodies yield `none` there.

An overflowing signed sum or difference is undefined in C as well.  Here it wraps: that is what
the one instruction a compiler makes of it computes, so the results of the base instructions
can be stated.  For products and quotients `none` is kept, since there it is itself a question
whether the operation is defined, and `MulDiv.executes_iff` answers it.
-/

namespace CPUDelaySim.Riscv

/-! ### Argument structures -/

structure ArgR where
  rd : BitVec 5
  rs1 : BitVec 5
  rs2 : BitVec 5

structure ArgR2 where
  rd : BitVec 5
  rs1 : BitVec 5

structure ArgR2s where
  rs1 : BitVec 5
  rs2 : BitVec 5

structure ArgI where
  imm : Word
  rs1 : BitVec 5
  rd : BitVec 5

structure ArgShift where
  shamt : BitVec 7
  rs1 : BitVec 5
  rd : BitVec 5

structure ArgS where
  imm : Word
  rs1 : BitVec 5
  rs2 : BitVec 5

structure ArgB where
  imm : Word
  rs2 : BitVec 5
  rs1 : BitVec 5

structure ArgU where
  imm : Word
  rd : BitVec 5

structure ArgJ where
  imm : Word
  rd : BitVec 5

/-- `arg_atomic`; `aq` and `rl` are read by no body. -/
structure ArgAtomic where
  rs2 : BitVec 5
  rs1 : BitVec 5
  rd : BitVec 5

/-- `arg_decode_insn3218`. -/
structure ArgCsr where
  csr : BitVec 12
  rs1 : BitVec 5
  rd : BitVec 5

/-- `arg_decode_insn3219`. -/
structure ArgR4Rm where
  rs3 : BitVec 5
  rs2 : BitVec 5
  rs1 : BitVec 5
  rm : BitVec 3
  rd : BitVec 5

/-- `arg_decode_insn3220`. -/
structure ArgRRm where
  rs2 : BitVec 5
  rs1 : BitVec 5
  rm : BitVec 3
  rd : BitVec 5

/-- `arg_decode_insn3221`. -/
structure ArgR2Rm where
  rs1 : BitVec 5
  rm : BitVec 3
  rd : BitVec 5

/-! ### Conversions between C integer types -/

/-- `(uint32_t)v`, widened. -/
def lo32 (v : Word) : Word := (v.setWidth 32).setWidth 64

/-- `(int32_t)v`, widened. -/
def sext32 (v : Word) : Word := (v.setWidth 32).signExtend 64

/-- A 32-bit result stored through `SET_GPR_32`. -/
def gpr32 (v : BitVec 32) : Word := v.signExtend 64

/-- `bool` to integer. -/
def ofBool (b : Bool) : Word := if b then 1 else 0

/-- The low five and six bits of a register, as a shift amount. -/
def sh5 (v : Word) : Nat := (v &&& 0x1f).toNat
def sh6 (v : Word) : Nat := (v &&& 0x3f).toNat

/-! ### Families of integer bodies -/

def intR (a : ArgR) (f : Word → Word → Word) : Body :=
  .compute a.rd (fun s _ => some (f (s.gpr a.rs1) (s.gpr a.rs2))) .int

def intR2 (a : ArgR2) (f : Word → Word) : Body :=
  .compute a.rd (fun s _ => some (f (s.gpr a.rs1))) .int

def intI (a : ArgI) (f : Word → Word → Word) : Body :=
  .compute a.rd (fun s _ => some (f (s.gpr a.rs1) a.imm)) .int

/-- A shift of a `bits`-bit operand by the immediate amount. -/
def intShift (bits : Nat) (a : ArgShift) (f : Word → Nat → Word) : Body :=
  .compute a.rd (fun s _ =>
    if a.shamt.toNat < bits then some (f (s.gpr a.rs1) a.shamt.toNat) else none) .int

def mulR (a : ArgR) (f : Word → Word → Word) : Body :=
  .compute a.rd (fun s _ => some (f (s.gpr a.rs1) (s.gpr a.rs2))) .mult

/-- A signed product of `w`-bit operands. -/
def smulR (a : ArgR) (w : Nat) (ext : BitVec w → Word) : Body :=
  .compute a.rd (fun s _ =>
    let v := (s.gpr a.rs1).setWidth w
    let u := (s.gpr a.rs2).setWidth w
    if v.smulOverflow u then none else some (ext (v * u))) .mult

def divR (a : ArgR) (f : Word → Word → Option Word) : Body :=
  .compute a.rd (fun s _ => f (s.gpr a.rs1) (s.gpr a.rs2)) .div


/-! ### Integer computation -/

def transSlliUw (a : ArgShift) : Body :=
  intShift 32 a fun v n => (v.setWidth 32 <<< n).setWidth 64
/-- `trans_lq` and `trans_sq` return false. -/
def transLq : Body := .unsupported
def transSq : Body := .unsupported
def transAddi (a : ArgI) : Body := intI a fun v imm => v + imm
def transAddiw (a : ArgI) : Body := intI a fun v imm => sext32 (v + imm)
def transAddw (a : ArgR) : Body := intR a fun v u => gpr32 (v.setWidth 32 + u.setWidth 32)
def transSubw (a : ArgR) : Body := intR a fun v u => gpr32 (v.setWidth 32 - u.setWidth 32)
def transSlliw (a : ArgShift) : Body := intShift 64 a fun v n => sext32 (v <<< n)
def transSllw (a : ArgR) : Body := intR a fun v u => sext32 (v <<< sh5 u)
def transSrliw (a : ArgShift) : Body := intShift 32 a fun v n => gpr32 (v.setWidth 32 >>> n)
def transSrlw (a : ArgR) : Body := intR a fun v u => gpr32 (v.setWidth 32 >>> sh5 u)
def transSraiw (a : ArgShift) : Body :=
  intShift 32 a fun v n => gpr32 ((v.setWidth 32).sshiftRight n)
def transSraw (a : ArgR) : Body := intR a fun v u => gpr32 ((v.setWidth 32).sshiftRight (sh5 u))
def transAdd (a : ArgR) : Body := intR a fun v u => v + u
def transSub (a : ArgR) : Body := intR a fun v u => v - u
def transAddUw (a : ArgR) : Body := intR a fun v u => lo32 v + u
def transOrn (a : ArgR) : Body := intR a fun v u => v ||| ~~~u
def transXnor (a : ArgR) : Body := intR a fun v u => ~~~(v ^^^ u)
def transAndn (a : ArgR) : Body := intR a fun v u => v &&& ~~~u
def transBclr (a : ArgR) : Body := intR a fun v u => v &&& ~~~(1#64 <<< sh6 u)
def transBclri (a : ArgShift) : Body := intShift 64 a fun v n => v &&& ~~~(1#64 <<< n)
def transBext (a : ArgR) : Body := intR a fun v u => (v >>> sh6 u) &&& 1
def transBexti (a : ArgShift) : Body := intShift 64 a fun v n => (v >>> n) &&& 1
def transBinv (a : ArgR) : Body := intR a fun v u => v ^^^ (1#64 <<< sh6 u)
def transBinvi (a : ArgShift) : Body := intShift 64 a fun v n => v ^^^ (1#64 <<< n)
def transBrev8 (a : ArgR2) : Body :=
  intR2 a fun v => joinBytes ((List.range 8).map fun i => (byteAt v i).reverse)
def transBset (a : ArgR) : Body := intR a fun v u => v ||| (1#64 <<< sh6 u)
def transBseti (a : ArgShift) : Body := intShift 64 a fun v n => v ||| (1#64 <<< n)
def transMax (a : ArgR) : Body := intR a fun v u => if u.slt v then v else u
def transMaxu (a : ArgR) : Body := intR a fun v u => if u.ult v then v else u
def transMin (a : ArgR) : Body := intR a fun v u => if v.slt u then v else u
def transMinu (a : ArgR) : Body := intR a fun v u => if v.ult u then v else u
def transOrcB (a : ArgR2) : Body :=
  intR2 a fun v => joinBytes ((List.range 8).map fun i => if byteAt v i ≠ 0 then 0xff else 0)
def transPack (a : ArgR) : Body := intR a fun v u => ((u &&& 0xffff) <<< 16) ||| (v &&& 0xffff)
def transPackh (a : ArgR) : Body :=
  intR a fun v u => (((u >>> 8) &&& 0xff) <<< 16) ||| ((v >>> 8) &&& 0xff)
def transPackw (a : ArgR) : Body :=
  intR a fun v u => ((u &&& 0xffffffff) <<< 32) ||| (v &&& 0xffffffff)
def transRev8_32 (a : ArgR2) : Body :=
  intR2 a fun v => joinBytes ((List.range 4).map fun i => byteAt v (3 - i))
def transRev8_64 (a : ArgR2) : Body :=
  intR2 a fun v => joinBytes ((List.range 8).map fun i => byteAt v (7 - i))
def transRol (a : ArgR) : Body := intR a fun v u => v.rotateLeft (sh6 u)
def transRolw (a : ArgR) : Body := intR a fun v u => gpr32 ((v.setWidth 32).rotateLeft (sh5 u))
def transRor (a : ArgR) : Body := intR a fun v u => v.rotateRight (sh6 u)
/-- `std::rotr` takes any amount. -/
def transRori (a : ArgShift) : Body :=
  .compute a.rd (fun s _ => some ((s.gpr a.rs1).rotateRight a.shamt.toNat)) .int
def transRoriw (a : ArgShift) : Body :=
  .compute a.rd (fun s _ =>
    some (gpr32 (((s.gpr a.rs1).setWidth 32).rotateRight a.shamt.toNat))) .int
def transRorw (a : ArgR) : Body := intR a fun v u => gpr32 ((v.setWidth 32).rotateRight (sh5 u))

/-! ### Atomic memory operations -/

/-- The `amo*_w` and `amo*_d` bodies: the operation on the loaded value and `rs2`,
which the store truncates to the width. -/
def amoBody (width : Width) (a : ArgAtomic) (op : Word → Word → Word) : Body :=
  .amo a.rd (fun s => s.gpr a.rs1) width (fun s => s.gpr a.rs2) op

def transAmoaddW (a : ArgAtomic) : Body := amoBody .w a fun v u => v + u
def transAmoaddD (a : ArgAtomic) : Body := amoBody .d a fun v u => v + u
def transAmoandW (a : ArgAtomic) : Body := amoBody .w a fun v u => v &&& u
def transAmoandD (a : ArgAtomic) : Body := amoBody .d a fun v u => v &&& u
def transAmoorW (a : ArgAtomic) : Body := amoBody .w a fun v u => v ||| u
def transAmoorD (a : ArgAtomic) : Body := amoBody .d a fun v u => v ||| u
def transAmoxorW (a : ArgAtomic) : Body := amoBody .w a fun v u => v ^^^ u
def transAmoxorD (a : ArgAtomic) : Body := amoBody .d a fun v u => v ^^^ u
def transAmomaxW (a : ArgAtomic) : Body :=
  amoBody .w a fun v u => if (sext32 v).slt (sext32 u) then u else v
def transAmomaxD (a : ArgAtomic) : Body := amoBody .d a fun v u => if v.slt u then u else v
def transAmomaxuW (a : ArgAtomic) : Body :=
  amoBody .w a fun v u => if (lo32 v).ult (lo32 u) then u else v
def transAmomaxuD (a : ArgAtomic) : Body := amoBody .d a fun v u => if v.ult u then u else v
def transAmominW (a : ArgAtomic) : Body :=
  amoBody .w a fun v u => if (sext32 u).slt (sext32 v) then u else v
def transAmominD (a : ArgAtomic) : Body := amoBody .d a fun v u => if u.slt v then u else v
def transAmominuW (a : ArgAtomic) : Body :=
  amoBody .w a fun v u => if (lo32 u).ult (lo32 v) then u else v
def transAmominuD (a : ArgAtomic) : Body := amoBody .d a fun v u => if u.ult v then u else v
def transAmoswapW (a : ArgAtomic) : Body := amoBody .w a fun _ u => u
def transAmoswapD (a : ArgAtomic) : Body := amoBody .d a fun _ u => u

/-! ### Logic, branches and CSR access -/

def transAnd (a : ArgR) : Body := intR a fun v u => v &&& u
def transAndi (a : ArgI) : Body := intI a fun v imm => v &&& imm
def transOr (a : ArgR) : Body := intR a fun v u => v ||| u
def transOri (a : ArgI) : Body := intI a fun v imm => v ||| imm
def transXor (a : ArgR) : Body := intR a fun v u => v ^^^ u
def transXori (a : ArgI) : Body := intI a fun v imm => v ^^^ imm
def transAuipc (a : ArgU) : Body := .compute a.rd (fun _ pc => some (pc + a.imm)) .int

def condB (a : ArgB) (taken : Word → Word → Bool) : Body :=
  .cond (fun s => taken (s.gpr a.rs1) (s.gpr a.rs2)) a.imm

def transBeq (a : ArgB) : Body := condB a fun v u => v == u
def transBne (a : ArgB) : Body := condB a fun v u => v != u
def transBlt (a : ArgB) : Body := condB a fun v u => v.slt u
def transBltu (a : ArgB) : Body := condB a fun v u => v.ult u
def transBge (a : ArgB) : Body := condB a fun v u => !v.slt u
def transBgeu (a : ArgB) : Body := condB a fun v u => !v.ult u
def transClz (a : ArgR2) : Body := intR2 a fun v => v.clz
def transClzw (a : ArgR2) : Body := intR2 a fun v => (v.setWidth 32).clz.setWidth 64

/-- The set and clear forms: `rs1 = 0` is `do_csrr`, otherwise the register or the
immediate is the write mask over `src`. -/
def csrMask (a : ArgCsr) (src : Word) (mask : ArchState → Word) : Body :=
  .csr a.rd a.csr (if a.rs1 = 0 then .read else .write (fun _ => src) mask)

def transCsrrc (a : ArgCsr) : Body := csrMask a 0 fun s => s.gpr a.rs1
def transCsrrci (a : ArgCsr) : Body := csrMask a 0 fun _ => a.rs1.setWidth 64
def transCsrrs (a : ArgCsr) : Body := csrMask a fullMask fun s => s.gpr a.rs1
def transCsrrsi (a : ArgCsr) : Body := csrMask a fullMask fun _ => a.rs1.setWidth 64
def transCsrrw (a : ArgCsr) : Body :=
  .csr a.rd a.csr (.write (fun s => s.gpr a.rs1) fun _ => fullMask)
def transCsrrwi (a : ArgCsr) : Body :=
  .csr a.rd a.csr (.write (fun _ => a.rs1.setWidth 64) fun _ => fullMask)
def transCtz (a : ArgR2) : Body := intR2 a fun v => v.ctz
def transCtzw (a : ArgR2) : Body := intR2 a fun v => (v.setWidth 32).ctz.setWidth 64

/-! ### Floating point -/

/-- `check_nanbox_s`. -/
def checkNanboxS (f : Word) : Word :=
  if f &&& 0xffffffff00000000 = 0xffffffff00000000 then lo32 f else 0x7fc00000

/-- `nanbox_s`. -/
def nanboxS (f : Word) : Word := f ||| 0xffffffff00000000

/-- A conversion into a floating-point register, of an operand read by `src`. -/
def cvtToFpr (a : ArgR2Rm) (op : FloatOp) (src : ArchState → Word) (box : Word → Word) : Body :=
  .fp (.fpr a.rd) (some a.rm) (.call op (fun s => [src s]) box) .fmiscSimple

/-- A conversion into an integer register. -/
def cvtToGpr (a : ArgR2Rm) (op : FloatOp) (src : ArchState → Word) : Body :=
  .fp (.gpr a.rd) (some a.rm) (.call op (fun s => [src s]) id) .fmiscComplex

/-- A rounded operation on two double- or single-precision registers. -/
def fpD (a : ArgRRm) (op : FloatOp) (type : PlainType) : Body :=
  .fp (.fpr a.rd) (some a.rm) (.call op (fun s => [s.fpr a.rs1, s.fpr a.rs2]) id) type
def fpS (a : ArgRRm) (op : FloatOp) (type : PlainType) : Body :=
  .fp (.fpr a.rd) (some a.rm)
    (.call op (fun s => [checkNanboxS (s.fpr a.rs1), checkNanboxS (s.fpr a.rs2)]) nanboxS) type

/-- A comparison, which sets no rounding mode. -/
def cmpD (a : ArgR) (op : FloatOp) : Body :=
  .fp (.gpr a.rd) none (.call op (fun s => [s.fpr a.rs1, s.fpr a.rs2]) id) .fmiscSimple
def cmpS (a : ArgR) (op : FloatOp) : Body :=
  .fp (.gpr a.rd) none
    (.call op (fun s => [checkNanboxS (s.fpr a.rs1), checkNanboxS (s.fpr a.rs2)]) id) .fmiscSimple

/-- A move, which calls no soft-float function. -/
def moveFp (dst : DstReg) (value : ArchState → Word) : Body :=
  .fp dst none (.move value) .fmiscSimple

/-- `(v & magnitude) | (u & sign)`, the sign injections. -/
def sgnj (a : ArgR) (magnitude sign : Word) (f : Word → Word → Word) : Body :=
  moveFp (.fpr a.rd) fun s =>
    (s.fpr a.rs1 &&& magnitude) ||| (f (s.fpr a.rs1) (s.fpr a.rs2) &&& sign)

def transFcvtDL (a : ArgR2Rm) : Body := cvtToFpr a .int64ToFloat64 (fun s => s.gpr a.rs1) id
def transFcvtDLu (a : ArgR2Rm) : Body := cvtToFpr a .uint64ToFloat64 (fun s => s.gpr a.rs1) id
def transFcvtDS (a : ArgR2Rm) : Body :=
  cvtToFpr a .float32ToFloat64 (fun s => checkNanboxS (s.gpr a.rs1)) id
def transFcvtDW (a : ArgR2Rm) : Body :=
  cvtToFpr a .int32ToFloat64 (fun s => lo32 (s.gpr a.rs1)) id
def transFcvtDWu (a : ArgR2Rm) : Body :=
  cvtToFpr a .uint32ToFloat64 (fun s => lo32 (s.gpr a.rs1)) id
def transFcvtLD (a : ArgR2Rm) : Body := cvtToGpr a .float64ToInt64 fun s => s.fpr a.rs1
def transFcvtLS (a : ArgR2Rm) : Body :=
  cvtToGpr a .float32ToInt64 fun s => checkNanboxS (s.fpr a.rs1)
def transFcvtLuD (a : ArgR2Rm) : Body := cvtToGpr a .float64ToUint64 fun s => s.fpr a.rs1
def transFcvtLuS (a : ArgR2Rm) : Body :=
  cvtToGpr a .float32ToUint64 fun s => checkNanboxS (s.fpr a.rs1)
def transFcvtSD (a : ArgR2Rm) : Body :=
  cvtToFpr a .float64ToFloat32 (fun s => s.fpr a.rs1) nanboxS
def transFcvtSL (a : ArgR2Rm) : Body :=
  cvtToFpr a .int64ToFloat32 (fun s => s.gpr a.rs1) nanboxS
def transFcvtSLu (a : ArgR2Rm) : Body :=
  cvtToFpr a .uint64ToFloat32 (fun s => s.gpr a.rs1) nanboxS
def transFcvtSW (a : ArgR2Rm) : Body :=
  cvtToFpr a .int32ToFloat32 (fun s => lo32 (s.gpr a.rs1)) nanboxS
def transFcvtSWu (a : ArgR2Rm) : Body :=
  cvtToFpr a .uint32ToFloat32 (fun s => lo32 (s.gpr a.rs1)) nanboxS
def transFcvtWD (a : ArgR2Rm) : Body := cvtToGpr a .float64ToInt32 fun s => s.fpr a.rs1
def transFcvtWuD (a : ArgR2Rm) : Body := cvtToGpr a .float64ToUint32 fun s => s.fpr a.rs1
def transFcvtWS (a : ArgR2Rm) : Body :=
  cvtToGpr a .float32ToInt32 fun s => checkNanboxS (s.fpr a.rs1)
def transFaddD (a : ArgRRm) : Body := fpD a .float64Add .fadd
def transFaddS (a : ArgRRm) : Body := fpS a .float32Add .fadd
def transFsubD (a : ArgRRm) : Body := fpD a .float64Sub .fadd
def transFsubS (a : ArgRRm) : Body := fpS a .float32Sub .fadd
def transFmulD (a : ArgRRm) : Body := fpD a .float64Mul .fmul
def transFmulS (a : ArgRRm) : Body := fpS a .float32Mul .fmul
def transFdivD (a : ArgRRm) : Body := fpD a .float64Div .fdiv
def transFdivS (a : ArgRRm) : Body := fpS a .float32Div .fdiv
def transFence : Body := .simple .fence
def transFenceI : Body := .simple .ifence
def transFeqD (a : ArgR) : Body := cmpD a .float64EqQuiet
def transFleD (a : ArgR) : Body := cmpD a .float64Le
def transFleS (a : ArgR) : Body := cmpS a .float32Le
def transFltD (a : ArgR) : Body := cmpD a .float64Lt
def transFltS (a : ArgR) : Body := cmpS a .float32Lt
def transFmaddD (a : ArgR4Rm) : Body :=
  .fp (.fpr a.rd) (some a.rm)
    (.call .float64Muladd (fun s => [s.fpr a.rs1, s.fpr a.rs2, s.fpr a.rs3, 0]) id) .fma
def transFminD (a : ArgR) : Body :=
  .fp (.fpr a.rd) none
    (.call .float64MinimumNumber (fun s => [s.fpr a.rs1, s.fpr a.rs2]) id) .fmiscSimple
def transFmvDX (a : ArgR2) : Body := moveFp (.fpr a.rd) fun s => s.gpr a.rs1
def transFmvWX (a : ArgR2) : Body := moveFp (.fpr a.rd) fun s => nanboxS (s.gpr a.rs1)
def transFmvXD (a : ArgR2) : Body := moveFp (.gpr a.rd) fun s => s.fpr a.rs1
/-- `trans_fmv_x_w` writes a floating-point register. -/
def transFmvXW (a : ArgR2) : Body := moveFp (.fpr a.rd) fun s => nanboxS (s.fpr a.rs1)
def transFlw (a : ArgI) : Body := .fload a.rd (fun s => s.gpr a.rs1 + a.imm) .w nanboxS
def transFld (a : ArgI) : Body := .fload a.rd (fun s => s.gpr a.rs1 + a.imm) .d id
def transFsw (a : ArgS) : Body :=
  .fstore (fun s => s.gpr a.rs1 + a.imm) .w fun s => s.fpr a.rs2
def transFsd (a : ArgS) : Body :=
  .fstore (fun s => s.gpr a.rs1 + a.imm) .d fun s => s.fpr a.rs2
/-- `fsgnj_d` masks the sign bit off its second operand as well. -/
def transFsgnjD (a : ArgR) : Body :=
  sgnj a 0x7fffffffffffffff (~~~0x8000000000000000) fun _ u => u
def transFsgnjnD (a : ArgR) : Body :=
  sgnj a 0x7fffffffffffffff 0x8000000000000000 fun _ u => ~~~u
def transFsgnjnS (a : ArgR) : Body := sgnj a 0x7fffffff 0x80000000 fun _ u => ~~~u
def transFsgnjS (a : ArgR) : Body := sgnj a 0x7fffffff 0x80000000 fun _ u => u
def transFsgnjxS (a : ArgR) : Body := sgnj a 0x7fffffff 0x80000000 fun v u => v ^^^ u
def transFsgnjxD (a : ArgR) : Body :=
  sgnj a 0x7fffffffffffffff 0x8000000000000000 fun v u => v ^^^ u

/-! ### Jumps, loads and stores -/

def transJal (a : ArgJ) : Body := .jal a.rd a.imm
def transJalr (a : ArgI) : Body := .jalr a.rd a.rs1 a.imm

def loadI (width : Width) (ext : Word → Word) (a : ArgI) : Body :=
  .load a.rd (fun s => s.gpr a.rs1 + a.imm) width ext

def transLb (a : ArgI) : Body := loadI .b id a
def transLbu (a : ArgI) : Body := loadI .b (fun v => v &&& 0xff) a
def transLh (a : ArgI) : Body := loadI .h id a
def transLhu (a : ArgI) : Body := loadI .h (fun v => v &&& 0xffff) a
def transLw (a : ArgI) : Body := loadI .w id a
def transLwu (a : ArgI) : Body := loadI .w lo32 a
def transLd (a : ArgI) : Body := loadI .d id a
def transLrW (a : ArgAtomic) : Body := .lr a.rd (fun s => s.gpr a.rs1) .w
def transLrD (a : ArgAtomic) : Body := .lr a.rd (fun s => s.gpr a.rs1) .d
def transScW (a : ArgAtomic) : Body := .sc a.rd (fun s => s.gpr a.rs1) .w fun s => s.gpr a.rs2
def transScD (a : ArgAtomic) : Body := .sc a.rd (fun s => s.gpr a.rs1) .d fun s => s.gpr a.rs2

/-! ### Multiplication and division -/

def transLui (a : ArgU) : Body := .compute a.rd (fun _ _ => some a.imm) .int
def transMul (a : ArgR) : Body := smulR a 64 id
def transDiv (a : ArgR) : Body :=
  divR a fun v u =>
    if u = 0 then some (-1)
    else if v = BitVec.intMin 64 ∧ u = -1 then some v
    else some (v.sdiv u)

/-- An unsigned division or remainder of `w`-bit operands. -/
def udivR (a : ArgR) (w : Nat) (f : BitVec w → BitVec w → BitVec w) (ext : BitVec w → Word) :
    Body :=
  divR a fun v u => if u.setWidth w = 0 then none else some (ext (f (v.setWidth w) (u.setWidth w)))

/-- A signed division or remainder of `w`-bit operands. -/
def sdivR (a : ArgR) (w : Nat) (f : BitVec w → BitVec w → BitVec w) (ext : BitVec w → Word) :
    Body :=
  divR a fun v u =>
    if u.setWidth w = 0 then none
    else if v.setWidth w = BitVec.intMin w ∧ u.setWidth w = -1 then none
    else some (ext (f (v.setWidth w) (u.setWidth w)))

def transDivu (a : ArgR) : Body := udivR a 64 BitVec.udiv id
def transRem (a : ArgR) : Body := sdivR a 64 BitVec.srem id
def transRemu (a : ArgR) : Body := udivR a 64 BitVec.umod id
def transMulh (a : ArgR) : Body :=
  mulR a fun v u => ((v.signExtend 128 * u.signExtend 128) >>> 64).setWidth 64
def transMulhu (a : ArgR) : Body :=
  mulR a fun v u => ((v.setWidth 128 * u.setWidth 128) >>> 64).setWidth 64
def transMulw (a : ArgR) : Body := smulR a 32 gpr32
def transDivw (a : ArgR) : Body := sdivR a 32 BitVec.sdiv gpr32
def transDivuw (a : ArgR) : Body := udivR a 32 BitVec.udiv gpr32
def transRemw (a : ArgR) : Body := sdivR a 32 BitVec.srem gpr32
def transRemuw (a : ArgR) : Body := udivR a 32 BitVec.umod gpr32

/-! ### Stores, shifts and the remaining integer instructions -/

def storeS (width : Width) (a : ArgS) : Body :=
  .store (fun s => s.gpr a.rs1 + a.imm) width fun s => s.gpr a.rs2

def transSb (a : ArgS) : Body := storeS .b a
def transSh (a : ArgS) : Body := storeS .h a
def transSw (a : ArgS) : Body := storeS .w a
def transSd (a : ArgS) : Body := storeS .d a
def transSextB (a : ArgR2) : Body := intR2 a fun v => (v.setWidth 8).signExtend 64
def transSextH (a : ArgR2) : Body := intR2 a fun v => (v.setWidth 16).signExtend 64
def transSh1add (a : ArgR) : Body := intR a fun v u => (v <<< 1) + u
def transSh1addUw (a : ArgR) : Body := intR a fun v u => (lo32 v <<< 1) + u
def transSh2add (a : ArgR) : Body := intR a fun v u => (v <<< 2) + u
def transSh2addUw (a : ArgR) : Body := intR a fun v u => (lo32 v <<< 2) + u
def transSh3add (a : ArgR) : Body := intR a fun v u => (v <<< 3) + u
def transSh3addUw (a : ArgR) : Body := intR a fun v u => (lo32 v <<< 3) + u
def transSll (a : ArgR) : Body := intR a fun v u => v <<< sh6 u
def transSlli (a : ArgShift) : Body := intShift 64 a fun v n => v <<< n
def transSra (a : ArgR) : Body := intR a fun v u => v.sshiftRight (sh6 u)
def transSrai (a : ArgShift) : Body := intShift 64 a fun v n => v.sshiftRight n
def transSrl (a : ArgR) : Body := intR a fun v u => v >>> sh6 u
def transSrli (a : ArgShift) : Body := intShift 64 a fun v n => v >>> n
def transSlt (a : ArgR) : Body := intR a fun v u => ofBool (v.slt u)
def transSlti (a : ArgI) : Body := intI a fun v imm => ofBool (v.slt imm)
def transSltu (a : ArgR) : Body := intR a fun v u => ofBool (v.ult u)
def transSltiu (a : ArgI) : Body := intI a fun v imm => ofBool (v.ult imm)
def transPause : Body := .simple .int
def transSret : Body := .sret
def transMret : Body := .mret
def transWfi : Body := .simple .int
def transEbreak : Body := .ebreak
def transEcall : Body := .ecall
def transSfenceVma (a : ArgR2s) : Body := .sfence (fun s => s.gpr a.rs1) fun s => s.gpr a.rs2
def transZextH64 (a : ArgR2) : Body := intR2 a fun v => v &&& 0xffff
def transCFld (a : ArgI) : Body := transFld a
def transCFsd (a : ArgS) : Body := transFsd a

end CPUDelaySim.Riscv
