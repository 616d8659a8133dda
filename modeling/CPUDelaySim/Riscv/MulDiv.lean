import CPUDelaySim.Riscv.Encode

/-!
# Multiplication and division

The twelve bodies of `interpreter.cpp` for the M extension, against the results the
extension defines over the integers.  `trans_div` alone guards its operands: the other
divisions hand a zero divisor, and the signed ones `min / -1`, to the C++ operator, which
leaves them undefined, and `trans_mul` and `trans_mulw` multiply signed operands.  Where
the operator is defined the results agree.
-/

namespace CPUDelaySim.Riscv

variable {δ : Type}

open RiscvArch

/-! ### The M extension -/

section Reference

variable {w : Nat}

/-- Signed division: by zero all ones, and on overflow the dividend. -/
def rvDiv (v u : BitVec w) : BitVec w :=
  if u = 0 then -1
  else if v = BitVec.intMin w ∧ u = -1 then v
  else BitVec.ofInt w (v.toInt.tdiv u.toInt)

/-- Signed remainder: by zero the dividend, and on overflow zero. -/
def rvRem (v u : BitVec w) : BitVec w :=
  if u = 0 then v
  else if v = BitVec.intMin w ∧ u = -1 then 0
  else BitVec.ofInt w (v.toInt.tmod u.toInt)

/-- Unsigned division: by zero all ones. -/
def rvDivu (v u : BitVec w) : BitVec w :=
  if u = 0 then -1 else BitVec.ofNat w (v.toNat / u.toNat)

/-- Unsigned remainder: by zero the dividend. -/
def rvRemu (v u : BitVec w) : BitVec w :=
  if u = 0 then v else BitVec.ofNat w (v.toNat % u.toNat)

/-- The low bits of a signed product. -/
def rvMul (v u : BitVec w) : BitVec w := BitVec.ofInt w (v.toInt * u.toInt)

/-- The high bits of a signed product. -/
def rvMulh (v u : BitVec w) : BitVec w := BitVec.ofInt w (v.toInt * u.toInt / 2 ^ w)

/-- The high bits of an unsigned product. -/
def rvMulhu (v u : BitVec w) : BitVec w := BitVec.ofNat w (v.toNat * u.toNat / 2 ^ w)

/-- The division of C, where it is defined, is DIV. -/
theorem sdiv_eq_rvDiv {v u : BitVec w} (zero : u ≠ 0)
    (fits : ¬ (v = BitVec.intMin w ∧ u = -1)) : v.sdiv u = rvDiv v u := by
  rw [rvDiv, if_neg zero, if_neg fits]
  apply BitVec.eq_of_toInt_eq
  rw [BitVec.toInt_sdiv, BitVec.toInt_ofInt]

/-- The remainder of C, where it is defined, is REM. -/
theorem srem_eq_rvRem {v u : BitVec w} (zero : u ≠ 0)
    (fits : ¬ (v = BitVec.intMin w ∧ u = -1)) : v.srem u = rvRem v u := by
  rw [rvRem, if_neg zero, if_neg fits, ← BitVec.toInt_srem, BitVec.ofInt_toInt]

/-- The unsigned division of C is DIVU but for a zero divisor. -/
theorem udiv_eq_rvDivu {v u : BitVec w} (zero : u ≠ 0) : v.udiv u = rvDivu v u := by
  rw [rvDivu, if_neg zero, ← BitVec.toNat_udiv, BitVec.ofNat_toNat, BitVec.setWidth_eq]
  rfl

/-- The unsigned remainder of C is REMU but for a zero divisor. -/
theorem umod_eq_rvRemu {v u : BitVec w} (zero : u ≠ 0) : v.umod u = rvRemu v u := by
  rw [rvRemu, if_neg zero, ← BitVec.toNat_umod, BitVec.ofNat_toNat, BitVec.setWidth_eq]
  rfl

/-- The low half of a product does not depend on the signs. -/
theorem mul_eq_rvMul (v u : BitVec w) : v * u = rvMul v u := by
  apply BitVec.eq_of_toInt_eq
  rw [BitVec.toInt_mul, rvMul, BitVec.toInt_ofInt]

/-- The high half of a double-width number. -/
theorem highHalf_ofInt (x : Int) :
    ((BitVec.ofInt (w + w) x) >>> w).setWidth w = BitVec.ofInt w (x / 2 ^ w) := by
  have nonzero : (2 : Int) ^ w ≠ 0 := Int.pow_ne_zero (by decide)
  have low : x % 2 ^ (w + w) / 2 ^ w = x / 2 ^ w - 2 ^ w * (x / 2 ^ (w + w)) := by
    rw [Int.emod_def, Int.pow_add, Int.mul_assoc, Int.sub_mul_ediv_left _ _ nonzero]
  have positive : 0 ≤ x % 2 ^ (w + w) := Int.emod_nonneg x (Int.pow_ne_zero (by decide))
  apply BitVec.eq_of_toNat_eq
  rw [BitVec.toNat_setWidth, BitVec.toNat_ushiftRight, BitVec.toNat_ofInt, BitVec.toNat_ofInt,
    Nat.shiftRight_eq_div_pow]
  push_cast
  rw [← Int.sub_mul_emod_self_left (x / 2 ^ w) (2 ^ w) (x / 2 ^ (w + w)), ← low]
  obtain ⟨n, value⟩ := Int.eq_ofNat_of_zero_le positive
  rw [value]
  norm_cast

/-- The high half of the signed product. -/
theorem mulh_eq_rvMulh (v u : BitVec w) :
    ((v.signExtend (w + w) * u.signExtend (w + w)) >>> w).setWidth w = rvMulh v u := by
  have product : v.signExtend (w + w) * u.signExtend (w + w) =
      BitVec.ofInt (w + w) (v.toInt * u.toInt) := (BitVec.ofInt_mul _ _).symm
  rw [product, highHalf_ofInt, rvMulh]

/-- The high half of the unsigned product. -/
theorem mulhu_eq_rvMulhu (v u : BitVec w) :
    ((v.setWidth (w + w) * u.setWidth (w + w)) >>> w).setWidth w = rvMulhu v u := by
  have wide (x : BitVec w) : (x.setWidth (w + w)).toNat = x.toNat :=
    BitVec.toNat_setWidth_of_le (by omega)
  apply BitVec.eq_of_toNat_eq
  rw [BitVec.toNat_setWidth, BitVec.toNat_ushiftRight, BitVec.toNat_mul, wide, wide, rvMulhu,
    BitVec.toNat_ofNat, Nat.shiftRight_eq_div_pow, Nat.pow_add, Nat.mod_mul_right_div_self,
    Nat.mod_mod]

/-- The value of `smulR`. -/
theorem smul_value (v u : BitVec w) (ext : BitVec w → Word) :
    (if v.smulOverflow u then none else some (ext (v * u))) =
      if -2 ^ (w - 1) ≤ v.toInt * u.toInt ∧ v.toInt * u.toInt < 2 ^ (w - 1) then
        some (ext (rvMul v u))
      else none := by
  rw [mul_eq_rvMul]
  simp only [BitVec.smulOverflow, Bool.or_eq_true, decide_eq_true_eq]
  by_cases fits : -2 ^ (w - 1) ≤ v.toInt * u.toInt ∧ v.toInt * u.toInt < 2 ^ (w - 1)
  · rw [if_pos fits, if_neg (by omega)]
  · rw [if_neg fits, if_pos (by omega)]

/-- The value of `udivR`. -/
theorem unsigned_value {f g : BitVec w → BitVec w → BitVec w}
    (agree : ∀ v u, u ≠ 0 → f v u = g v u) (v u : BitVec w) (ext : BitVec w → Word) :
    (if u = 0 then none else some (ext (f v u))) =
      if u ≠ 0 then some (ext (g v u)) else none := by
  by_cases zero : u = 0
  · rw [if_pos zero, if_neg (not_not.2 zero)]
  · rw [if_neg zero, if_pos zero, agree v u zero]

/-- The value of `sdivR`. -/
theorem signed_value {f g : BitVec w → BitVec w → BitVec w}
    (agree : ∀ v u, u ≠ 0 → ¬ (v = BitVec.intMin w ∧ u = -1) → f v u = g v u)
    (v u : BitVec w) (ext : BitVec w → Word) :
    (if u = 0 then none else if v = BitVec.intMin w ∧ u = -1 then none
      else some (ext (f v u))) =
      if u ≠ 0 ∧ ¬ (v = BitVec.intMin w ∧ u = -1) then some (ext (g v u)) else none := by
  by_cases zero : u = 0
  · rw [if_pos zero, if_neg fun h => h.1 zero]
  · by_cases overflow : v = BitVec.intMin w ∧ u = -1
    · rw [if_neg zero, if_pos overflow, if_neg fun h => h.2 overflow]
    · rw [if_neg zero, if_neg overflow, if_pos ⟨zero, overflow⟩, agree v u zero overflow]

/-- The value of `trans_div`, which guards its operator. -/
theorem guarded_value (v u : BitVec w) :
    (if u = 0 then some (-1) else if v = BitVec.intMin w ∧ u = -1 then some v
      else some (v.sdiv u)) = some (rvDiv v u) := by
  by_cases zero : u = 0
  · rw [rvDiv, if_pos zero, if_pos zero]
  · by_cases overflow : v = BitVec.intMin w ∧ u = -1
    · rw [rvDiv, if_neg zero, if_neg zero, if_pos overflow, if_pos overflow]
    · rw [if_neg zero, if_neg overflow, sdiv_eq_rvDiv zero overflow]

end Reference

/-! ### The twelve instructions -/

/-- The instructions of the M extension, `mulhsu` apart. -/
inductive MulDiv
  | mul | mulh | mulhu | mulw
  | div | divu | rem | remu | divw | divuw | remw | remuw
  deriving DecidableEq, Repr

namespace MulDiv

/-- The body of the instruction. -/
def trans : MulDiv → ArgR → Body
  | mul => transMul
  | mulh => transMulh
  | mulhu => transMulhu
  | mulw => transMulw
  | div => transDiv
  | divu => transDivu
  | rem => transRem
  | remu => transRemu
  | divw => transDivw
  | divuw => transDivuw
  | remw => transRemw
  | remuw => transRemuw

/-- What the M extension defines; the W forms work on the low halves and sign-extend. -/
def result (op : MulDiv) (v u : Word) : Word :=
  let v32 := v.setWidth 32
  let u32 := u.setWidth 32
  match op with
  | mul => rvMul v u
  | mulh => rvMulh v u
  | mulhu => rvMulhu v u
  | mulw => (rvMul v32 u32).signExtend 64
  | div => rvDiv v u
  | divu => rvDivu v u
  | rem => rvRem v u
  | remu => rvRemu v u
  | divw => (rvDiv v32 u32).signExtend 64
  | divuw => (rvDivu v32 u32).signExtend 64
  | remw => (rvRem v32 u32).signExtend 64
  | remuw => (rvRemu v32 u32).signExtend 64

/-- The unguarded C++ operator has a value: a divisor is not zero, and a signed quotient
or product fits its type. -/
def Defined (op : MulDiv) (v u : Word) : Prop :=
  let v32 := v.setWidth 32
  let u32 := u.setWidth 32
  match op with
  | mulh | mulhu | div => True
  | mul => -2 ^ 63 ≤ v.toInt * u.toInt ∧ v.toInt * u.toInt < 2 ^ 63
  | mulw => -2 ^ 31 ≤ v32.toInt * u32.toInt ∧ v32.toInt * u32.toInt < 2 ^ 31
  | divu | remu => u ≠ 0
  | divuw | remuw => u32 ≠ 0
  | rem => u ≠ 0 ∧ ¬ (v = BitVec.intMin 64 ∧ u = -1)
  | divw | remw => u32 ≠ 0 ∧ ¬ (v32 = BitVec.intMin 32 ∧ u32 = -1)

instance (op : MulDiv) (v u : Word) : Decidable (op.Defined v u) := by
  cases op <;> simp only [Defined] <;> infer_instance

/-- The class of the instruction. -/
def type : MulDiv → PlainType
  | mul | mulh | mulhu | mulw => .mult
  | _ => .div

/-- What the body computes from its operands, if the operation is defined. -/
theorem trans_eq (op : MulDiv) (a : ArgR) :
    ∃ value, op.trans a = .compute a.rd value op.type ∧
      ∀ s pc, value s pc =
        if op.Defined (s.gpr a.rs1) (s.gpr a.rs2) then
          some (op.result (s.gpr a.rs1) (s.gpr a.rs2))
        else none := by
  cases op with
  | mul | mulw => exact ⟨_, rfl, fun s pc => smul_value _ _ _⟩
  | mulh => exact ⟨_, rfl, fun s pc => congrArg some (mulh_eq_rvMulh (w := 64) _ _)⟩
  | mulhu => exact ⟨_, rfl, fun s pc => congrArg some (mulhu_eq_rvMulhu (w := 64) _ _)⟩
  | div => exact ⟨_, rfl, fun s pc => guarded_value _ _⟩
  | divu | divuw =>
      exact ⟨_, rfl, fun s pc =>
        unsigned_value (f := BitVec.udiv) (fun _ _ zero => udiv_eq_rvDivu zero) _ _ _⟩
  | remu | remuw =>
      exact ⟨_, rfl, fun s pc =>
        unsigned_value (f := BitVec.umod) (fun _ _ zero => umod_eq_rvRemu zero) _ _ _⟩
  | divw =>
      exact ⟨_, rfl, fun s pc =>
        signed_value (f := BitVec.sdiv) (fun _ _ zero fits => sdiv_eq_rvDiv zero fits) _ _ _⟩
  | rem | remw =>
      exact ⟨_, rfl, fun s pc =>
        signed_value (f := BitVec.srem) (fun _ _ zero fits => srem_eq_rvRem zero fits) _ _ _⟩

/-- The instruction runs without an undefined operation, and its commit changes the
registers alone: `rd` holds the result. -/
def Executes (P : Platform δ) (op : MulDiv) (a : ArgR) (arch : RiscvArch δ)
    (vaddr paddr : Word) (slot : DecodeInfo) : Prop :=
  ∃ ctx next arch', (op.trans a).exec P (bodyCtx arch vaddr paddr slot) = .ok (true, ctx) ∧
    ctx.arch.updateEnv P ctx.info = .ok (next, arch') ∧
    arch'.memory = arch.memory ∧
    arch'.state = (arch.state.set (.gpr a.rd)
      (op.result (arch.state.gpr a.rs1) (arch.state.gpr a.rs2))).set (.gpr 0) 0

/-- An instruction of the M extension commits its result exactly when the C++ operator has one.
Only `trans_div` guards its operands; the other divisions divide by zero and overflow, and `mul`
and `mulw` multiply signed words. -/
theorem executes_iff (P : Platform δ) (op : MulDiv) (a : ArgR) (arch : RiscvArch δ)
    (vaddr paddr : Word) (slot : DecodeInfo) :
    op.Executes P a arch vaddr paddr slot ↔
      op.Defined (arch.state.gpr a.rs1) (arch.state.gpr a.rs2) := by
  obtain ⟨value, body, computed⟩ := op.trans_eq a
  have here := computed arch.state vaddr
  rw [Executes, body]
  constructor
  · rintro ⟨ctx, next, arch', ran, -⟩
    by_contra undefined
    rw [if_neg undefined] at here
    simp only [Body.exec, bodyCtx, here] at ran
    cases ran
  · intro defined
    rw [if_pos defined] at here
    refine ⟨((bodyCtx arch vaddr paddr slot).setDst0 (.gpr a.rd) _).setType op.type.instType,
      _, _, ?_, updateEnv_write P _ (fresh_cleared slot) (.gpr a.rd) _ op.type, rfl, rfl⟩
    simp only [Body.exec, bodyCtx, here]

/-- `divu x1, x2, x0`. -/
theorem not_executes_divuByZero :
    ¬ divu.Executes (ramOnly 4096) ⟨1, 2, 0⟩ (RiscvArch.reset archCfg (imageOf [0x020150b3]))
      0x80000000 0x80000000 .zero := by
  rw [executes_iff]
  decide +kernel

end MulDiv

end CPUDelaySim.Riscv
