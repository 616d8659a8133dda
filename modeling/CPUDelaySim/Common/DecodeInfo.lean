import Mathlib.Algebra.Group.Int.Defs
import Mathlib.Algebra.GroupWithZero.Nat
import Mathlib.Tactic.Common

/-!
# Machine words, aborts and the decode record

The simulator hands one reused record, `DecodeInfo`, from `Arch::decode` to
`Arch::updateEnv`.  The record is cleared only in part by `decode`
(`memset(info, 0, DEC_MEMSET_END)` stops before `inst`), so every field that the
two functions communicate through is kept here with the name it has in
`common/common.h`.  The fields `src_reg` and `dst_reg` are written by the
instruction bodies and read by nothing; they are left out.

A run of the simulator can also stop without a result: it exits through
`ExitHandler::exit` (which never returns), it fails an assertion, or it performs
an operation the C++ language leaves undefined.  Those outcomes are the
constructors of `Abort`, and a fallible function returns `Except Abort`.
-/

namespace CPUDelaySim

/-- `uint64_t`. -/
abbrev Word := BitVec 64

instance : LawfulBEq Word := inferInstance

/-- `uint8_t`. -/
abbrev Byte := BitVec 8

/-- The ways a call of the simulator stops without returning. -/
inductive Abort
  /-- `ExitHandler::exit`, which calls itself and never returns. -/
  | exit
  /-- A failed `assert`. -/
  | assertFail
  /-- Integer division by zero or overflowing signed division. -/
  | undefinedArith
  /-- The `ram` array indexed outside its `size` bytes. -/
  | ramOverrun
  /-- `paddrWrite` asked for more bytes than the operand of `DecodeInfo` has. -/
  | infoOverrun
  /-- A null function pointer called, or `env->info` used while it is null. -/
  | nullPointer
  /-- A masked write at an offset of `ArchState` that holds none of its fields. -/
  | badOffset
  /-- The soft-float library aborts on an invalid rounding mode. -/
  | softfloat
  deriving DecidableEq, Repr

/-- `enum packed InstType`, in the order of `common/common.h`. -/
inductive InstType
  | int | cond | direct | push | indirect | indCall | indPush | pop | popPush
  | load | store | lr | sc | amo | mult | div | csrwr | sret | mret
  | fence | ifence | sfence
  | fmiscSimple | fmiscComplex | fadd | fmul | fma | fdiv | fsqrt
  deriving DecidableEq, Repr

/-- One of the three destination triples `dst_idx[i]`, `dst_mask[i]`,
`dst_data[i]` of `DecodeInfo`. -/
@[ext] structure Dst where
  /-- Byte offset in `ArchState`; `dst_idx[2]` doubles as an access width. -/
  idx : BitVec 16
  mask : Word
  data : Word
  deriving DecidableEq, Repr

/-- The destination as `memset` leaves it: only the mask lies in the cleared
prefix of `DecodeInfo`. -/
def Dst.clear (d : Dst) : Dst := { d with mask := 0#64 }

/-- `struct DecodeInfo`. -/
@[ext] structure DecodeInfo where
  dst0 : Dst
  dst1 : Dst
  dst2 : Dst
  exception : Word
  inst : BitVec 32
  excData : Word
  instSize : Byte
  type : InstType
  deriving DecidableEq, Repr

namespace DecodeInfo

/-- `memset(info, 0, DEC_MEMSET_END)`: the masks and `exception` precede `inst`,
every other modelled field keeps what the slot held before. -/
def memset (info : DecodeInfo) : DecodeInfo :=
  { info with
    dst0 := info.dst0.clear
    dst1 := info.dst1.clear
    dst2 := info.dst2.clear
    exception := 0#64 }

/-- A slot as `new DecodeInfo()` value-initialises it. -/
def zero : DecodeInfo where
  dst0 := ⟨0, 0, 0⟩
  dst1 := ⟨0, 0, 0⟩
  dst2 := ⟨0, 0, 0⟩
  exception := 0
  inst := 0
  excData := 0
  instSize := 0
  type := .int

end DecodeInfo

/-- The bits of `data` selected by `mask`, over the bits of `old` it leaves. -/
def mergeMask (old mask data : Word) : Word := (old &&& ~~~mask) ||| (data &&& mask)

/-- A bit outside the mask is the old bit, a bit inside it the new one. -/
theorem mergeMask_getLsbD (old mask data : Word) (i : Nat) :
    (mergeMask old mask data).getLsbD i =
      if mask.getLsbD i then data.getLsbD i else old.getLsbD i := by
  by_cases bound : i < 64
  · simp only [mergeMask, BitVec.getLsbD_or, BitVec.getLsbD_and, BitVec.getLsbD_not,
      bound, decide_true, Bool.true_and]
    cases mask.getLsbD i <;> simp
  · have high (v : Word) : v.getLsbD i = false := BitVec.getLsbD_of_ge v i (by omega)
    simp only [high, Bool.false_eq_true, if_false]

@[simp] theorem mergeMask_zero (old data : Word) : mergeMask old 0#64 data = old := by
  apply BitVec.eq_of_getLsbD_eq
  intro i _
  simp [mergeMask_getLsbD]

@[simp] theorem mergeMask_full (old data : Word) :
    mergeMask old 0xffffffffffffffff#64 data = data := by
  apply BitVec.eq_of_getLsbD_eq
  intro i bound
  rw [mergeMask_getLsbD, show 0xffffffffffffffff#64 = BitVec.allOnes 64 from rfl,
    BitVec.getLsbD_allOnes]
  simp [bound]

end CPUDelaySim
