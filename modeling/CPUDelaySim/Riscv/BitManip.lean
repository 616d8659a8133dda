import CPUDelaySim.Common.BitField
import CPUDelaySim.Riscv.Encode

/-!
# Bit manipulation

The instructions of Zba, Zbb, Zbs and Zbkb that have a body, with the encodings and the
results the extensions give them.  `trans_pack`, `trans_packh` and `trans_packw` select
other fields of their operands than the extensions do, `trans_slli_uw` shifts a 32-bit
operand, and `pack` with `x0` as its second source is taken for the RV32 form of `zext.h`,
which has no body.  `commits_iff` says where these still agree, and that the others do
everywhere.
-/

namespace CPUDelaySim.Riscv

variable {δ : Type}

open RiscvArch

/-! ### Two sources -/

/-- The instructions on two registers. -/
inductive BitReg
  | addUw | sh1add | sh2add | sh3add | sh1addUw | sh2addUw | sh3addUw
  | andn | orn | xnor | min | minu | max | maxu
  | rol | rolw | ror | rorw | bclr | bext | binv | bset
  | pack | packh | packw
  deriving DecidableEq, Repr

namespace BitReg

def funct7 : BitReg → BitVec 7
  | addUw | pack | packh | packw => 0b0000100
  | sh1add | sh2add | sh3add | sh1addUw | sh2addUw | sh3addUw => 0b0010000
  | andn | orn | xnor => 0b0100000
  | min | minu | max | maxu => 0b0000101
  | rol | rolw | ror | rorw => 0b0110000
  | bclr | bext => 0b0100100
  | binv => 0b0110100
  | bset => 0b0010100

def funct3 : BitReg → BitVec 3
  | addUw => 0b000
  | rol | rolw | bclr | binv | bset => 0b001
  | sh1add | sh1addUw => 0b010
  | sh2add | sh2addUw | xnor | min | pack | packw => 0b100
  | minu | ror | rorw | bext => 0b101
  | sh3add | sh3addUw | orn | max => 0b110
  | andn | maxu | packh => 0b111

def opcode : BitReg → BitVec 7
  | addUw | sh1addUw | sh2addUw | sh3addUw | rolw | rorw | packw => 0x3b
  | _ => 0x33

def word (op : BitReg) (rd rs1 rs2 : BitVec 5) : BitVec 32 :=
  wordR op.funct7 rs2 rs1 op.funct3 rd op.opcode

/-- The body of the instruction. -/
def trans : BitReg → ArgR → Body
  | addUw => transAddUw
  | sh1add => transSh1add
  | sh2add => transSh2add
  | sh3add => transSh3add
  | sh1addUw => transSh1addUw
  | sh2addUw => transSh2addUw
  | sh3addUw => transSh3addUw
  | andn => transAndn
  | orn => transOrn
  | xnor => transXnor
  | min => transMin
  | minu => transMinu
  | max => transMax
  | maxu => transMaxu
  | rol => transRol
  | rolw => transRolw
  | ror => transRor
  | rorw => transRorw
  | bclr => transBclr
  | bext => transBext
  | binv => transBinv
  | bset => transBset
  | pack => transPack
  | packh => transPackh
  | packw => transPackw

/-- What the extensions define, of `rs1` and `rs2`. -/
def result (op : BitReg) (v u : Word) : Word :=
  let uw := (v.setWidth 32).setWidth 64
  let v32 := v.setWidth 32
  let n := u.toNat % 64
  let n32 := u.toNat % 32
  match op with
  | addUw => u + uw
  | sh1add => u + (v <<< 1)
  | sh2add => u + (v <<< 2)
  | sh3add => u + (v <<< 3)
  | sh1addUw => u + (uw <<< 1)
  | sh2addUw => u + (uw <<< 2)
  | sh3addUw => u + (uw <<< 3)
  | andn => v &&& ~~~u
  | orn => v ||| ~~~u
  | xnor => ~~~(v ^^^ u)
  | min => if v.toInt < u.toInt then v else u
  | minu => if v.toNat < u.toNat then v else u
  | max => if v.toInt < u.toInt then u else v
  | maxu => if v.toNat < u.toNat then u else v
  | rol => (v <<< n) ||| (v >>> (64 - n))
  | ror => (v >>> n) ||| (v <<< (64 - n))
  | rolw => ((v32 <<< n32) ||| (v32 >>> (32 - n32))).signExtend 64
  | rorw => ((v32 >>> n32) ||| (v32 <<< (32 - n32))).signExtend 64
  | bclr => ofBits (fun i => v.getLsbD i && i != n) 64
  | bext => if v.getLsbD n then 1 else 0
  | binv => ofBits (fun i => v.getLsbD i ^^ i == n) 64
  | bset => ofBits (fun i => v.getLsbD i || i == n) 64
  | pack => u.setWidth 32 ++ v.setWidth 32
  | packh => 0#48 ++ u.setWidth 8 ++ v.setWidth 8
  | packw => (u.setWidth 16 ++ v.setWidth 16).signExtend 64

/-- The fields that the body selects hold what those of the extension do. -/
def Selects (op : BitReg) (v u : Word) : Prop :=
  match op with
  | pack => u.setWidth 32 = 0 ∧ v.extractLsb' 16 16 = 0
  | packh => u.setWidth 16 = 0 ∧ v.extractLsb' 8 8 = v.setWidth 8
  | packw => (u.setWidth 32 = 0 ∧ v.extractLsb' 16 16 = 0) ∨
      (u.setWidth 32 = -1 ∧ v.extractLsb' 16 16 = -1)
  | _ => True

/-! ### The values of the bodies -/

/-- MIN compares as signed numbers. -/
theorem min_value (v u : Word) :
    (if v.slt u then v else u) = if v.toInt < u.toInt then v else u := by
  simp only [BitVec.slt_iff_toInt_lt]

/-- MINU compares as unsigned numbers. -/
theorem minu_value (v u : Word) :
    (if v.ult u then v else u) = if v.toNat < u.toNat then v else u := by
  simp only [BitVec.ult_iff_toNat_lt]

/-- MAX compares as signed numbers. -/
theorem max_value (v u : Word) :
    (if u.slt v then v else u) = if v.toInt < u.toInt then u else v := by
  simp only [BitVec.slt_iff_toInt_lt]
  rcases Int.lt_trichotomy v.toInt u.toInt with below | same | above
  · rw [if_pos below, if_neg (by omega)]
  · rw [BitVec.eq_of_toInt_eq same]
  · rw [if_neg (show ¬ v.toInt < u.toInt by omega), if_pos above]

/-- MAXU compares as unsigned numbers. -/
theorem maxu_value (v u : Word) :
    (if u.ult v then v else u) = if v.toNat < u.toNat then u else v := by
  simp only [BitVec.ult_iff_toNat_lt]
  rcases Nat.lt_trichotomy v.toNat u.toNat with below | same | above
  · rw [if_pos below, if_neg (by omega)]
  · rw [BitVec.eq_of_toNat_eq same]
  · rw [if_neg (show ¬ v.toNat < u.toNat by omega), if_pos above]

/-- ROL turns by the low six bits of `rs2`. -/
theorem rol_value (v u : Word) :
    v.rotateLeft (sh6 u) = (v <<< (u.toNat % 64)) ||| (v >>> (64 - u.toNat % 64)) := by
  rw [sh6_eq]
  exact rotateLeft_eq_shifts v (Nat.mod_lt _ (by decide))

/-- ROR turns by the low six bits of `rs2`. -/
theorem ror_value (v u : Word) :
    v.rotateRight (sh6 u) = (v >>> (u.toNat % 64)) ||| (v <<< (64 - u.toNat % 64)) := by
  rw [sh6_eq]
  exact rotateRight_eq_shifts v (Nat.mod_lt _ (by decide))

/-- ROLW turns the low word by the low five bits of `rs2` and sign-extends. -/
theorem rolw_value (v : BitVec 32) (u : Word) :
    gpr32 (v.rotateLeft (sh5 u)) =
      ((v <<< (u.toNat % 32)) ||| (v >>> (32 - u.toNat % 32))).signExtend 64 := by
  rw [sh5_eq, gpr32, rotateLeft_eq_shifts v (Nat.mod_lt _ (by decide))]

/-- RORW turns the low word by the low five bits of `rs2` and sign-extends. -/
theorem rorw_value (v : BitVec 32) (u : Word) :
    gpr32 (v.rotateRight (sh5 u)) =
      ((v >>> (u.toNat % 32)) ||| (v <<< (32 - u.toNat % 32))).signExtend 64 := by
  rw [sh5_eq, gpr32, rotateRight_eq_shifts v (Nat.mod_lt _ (by decide))]

/-- BCLR clears one bit. -/
theorem bclr_value (v : Word) {m n : Nat} (same : m = n) :
    v &&& ~~~(1#64 <<< m) = ofBits (fun i => v.getLsbD i && i != n) 64 := by
  subst same
  refine eq_ofBits fun i bound => ?_
  rw [BitVec.getLsbD_and, BitVec.getLsbD_not, getLsbD_oneShift m bound, decide_eq_true bound,
    Bool.true_and]
  rfl

/-- BINV inverts one bit. -/
theorem binv_value (v : Word) {m n : Nat} (same : m = n) :
    v ^^^ (1#64 <<< m) = ofBits (fun i => v.getLsbD i ^^ i == n) 64 := by
  subst same
  refine eq_ofBits fun i bound => ?_
  rw [BitVec.getLsbD_xor, getLsbD_oneShift m bound]

/-- BSET sets one bit. -/
theorem bset_value (v : Word) {m n : Nat} (same : m = n) :
    v ||| (1#64 <<< m) = ofBits (fun i => v.getLsbD i || i == n) 64 := by
  subst same
  refine eq_ofBits fun i bound => ?_
  rw [BitVec.getLsbD_or, getLsbD_oneShift m bound]

/-- BEXT extracts one bit. -/
theorem bext_value (v : Word) {m n : Nat} (same : m = n) :
    (v >>> m) &&& 1 = if v.getLsbD n then 1 else 0 := by
  subst same
  apply BitVec.eq_of_getLsbD_eq
  intro i bound
  rw [BitVec.getLsbD_and, BitVec.getLsbD_ushiftRight, show (1 : Word).getLsbD i = decide (i = 0) by
    simp]
  by_cases low : i = 0
  · subst low
    cases v.getLsbD m <;> simp
  · cases v.getLsbD m <;> simp [low, BitVec.getLsbD_one]

/-- The source packs two half-words where PACK takes two words; the two agree on these operands
only. -/
theorem pack_value (v u : Word) :
    ((u &&& 0xffff) <<< 16) ||| (v &&& 0xffff) = u.setWidth 32 ++ v.setWidth 32 ↔
      u.setWidth 32 = 0 ∧ v.extractLsb' 16 16 = 0 := by
  have low (x : Word) : (x &&& 0xffff).toNat = x.toNat % 2 ^ 16 := and_low_toNat x 0xffff rfl
  have lhs : (((u &&& 0xffff) <<< 16) ||| (v &&& 0xffff)).toNat =
      u.toNat % 2 ^ 16 * 2 ^ 16 + v.toNat % 2 ^ 16 := by
    rw [or_shift_toNat (by rw [low]; omega) (by rw [low]; omega), low, low]
  rw [← BitVec.toNat_inj, lhs, append_toNat, ← BitVec.toNat_inj, ← BitVec.toNat_inj,
    extract_toNat, BitVec.toNat_setWidth, BitVec.toNat_setWidth]
  have halves (x : Word) :
      x.toNat % 2 ^ 32 = x.toNat % 2 ^ 16 + 2 ^ 16 * (x.toNat / 2 ^ 16 % 2 ^ 16) :=
    Nat.mod_mul (a := 2 ^ 16) (b := 2 ^ 16)
  change _ ↔ _ = 0 ∧ _ = 0
  rw [halves v, halves u]
  omega

/-- The source packs the second bytes where PACKH takes the lowest ones; the two agree on these
operands only. -/
theorem packh_value (v u : Word) :
    (((u >>> 8) &&& 0xff) <<< 16) ||| ((v >>> 8) &&& 0xff) =
        0#48 ++ u.setWidth 8 ++ v.setWidth 8 ↔
      u.setWidth 16 = 0 ∧ v.extractLsb' 8 8 = v.setWidth 8 := by
  have low (x : Word) : ((x >>> 8) &&& 0xff).toNat = x.toNat / 2 ^ 8 % 2 ^ 8 := by
    rw [and_low_toNat (x >>> 8) (k := 8) 0xff rfl, BitVec.toNat_ushiftRight,
      Nat.shiftRight_eq_div_pow]
  have lhs : ((((u >>> 8) &&& 0xff) <<< 16) ||| ((v >>> 8) &&& 0xff)).toNat =
      u.toNat / 2 ^ 8 % 2 ^ 8 * 2 ^ 16 + v.toNat / 2 ^ 8 % 2 ^ 8 := by
    rw [or_shift_toNat (by rw [low]; omega) (by rw [low]; omega), low, low]
  rw [← BitVec.toNat_inj, lhs, append_toNat, append_toNat, ← BitVec.toNat_inj, ← BitVec.toNat_inj,
    extract_toNat, BitVec.toNat_setWidth, BitVec.toNat_setWidth, BitVec.toNat_setWidth]
  have halves : u.toNat % 2 ^ 16 = u.toNat % 2 ^ 8 + 2 ^ 8 * (u.toNat / 2 ^ 8 % 2 ^ 8) :=
    Nat.mod_mul (a := 2 ^ 8) (b := 2 ^ 8)
  change _ = (0 * _ + _) * _ + _ ↔ _ = 0 ∧ _
  omega

/-- The source packs two words where PACKW takes two half-words and sign-extends; the two agree
on these operands only. -/
theorem packw_value (v u : Word) :
    ((u &&& 0xffffffff) <<< 32) ||| (v &&& 0xffffffff) =
        (u.setWidth 16 ++ v.setWidth 16).signExtend 64 ↔
      (u.setWidth 32 = 0 ∧ v.extractLsb' 16 16 = 0) ∨
        (u.setWidth 32 = -1 ∧ v.extractLsb' 16 16 = -1) := by
  have low (x : Word) : (x &&& 0xffffffff).toNat = x.toNat % 2 ^ 32 :=
    and_low_toNat x 0xffffffff rfl
  have lhs : (((u &&& 0xffffffff) <<< 32) ||| (v &&& 0xffffffff)).toNat =
      u.toNat % 2 ^ 32 * 2 ^ 32 + v.toNat % 2 ^ 32 := by
    rw [or_shift_toNat (by rw [low]; omega) (by rw [low]; omega), low, low]
  have word : (u.setWidth 16 ++ v.setWidth 16).toNat =
      u.toNat % 2 ^ 16 * 2 ^ 16 + v.toNat % 2 ^ 16 := by
    rw [append_toNat, BitVec.toNat_setWidth, BitVec.toNat_setWidth]
  rw [← BitVec.toNat_inj, lhs, BitVec.toNat_signExtend, BitVec.msb_eq_decide,
    BitVec.toNat_setWidth, word, ← BitVec.toNat_inj, ← BitVec.toNat_inj, ← BitVec.toNat_inj,
    ← BitVec.toNat_inj, extract_toNat, BitVec.toNat_setWidth]
  change _ = _ + (if decide (2 ^ 31 ≤ _) = true then _ else _) ↔
    (_ = 0 ∧ _ = 0) ∨ (_ = 2 ^ 32 - 1 ∧ _ = 2 ^ 16 - 1)
  simp only [decide_eq_true_eq]
  split <;> omega

/-- The body computes the defined result exactly from operands whose selected fields agree. -/
theorem trans_eq (op : BitReg) (a : ArgR) :
    ∃ f, op.trans a = intR a f ∧ ∀ v u, f v u = op.result v u ↔ op.Selects v u := by
  cases op with
  | addUw | sh1add | sh2add | sh3add | sh1addUw | sh2addUw | sh3addUw =>
      exact ⟨_, rfl, fun v u => iff_true_intro (BitVec.add_comm _ _)⟩
  | andn | orn | xnor => exact ⟨_, rfl, fun v u => iff_true_intro rfl⟩
  | min => exact ⟨_, rfl, fun v u => iff_true_intro (min_value v u)⟩
  | minu => exact ⟨_, rfl, fun v u => iff_true_intro (minu_value v u)⟩
  | max => exact ⟨_, rfl, fun v u => iff_true_intro (max_value v u)⟩
  | maxu => exact ⟨_, rfl, fun v u => iff_true_intro (maxu_value v u)⟩
  | rol => exact ⟨_, rfl, fun v u => iff_true_intro (rol_value v u)⟩
  | rolw => exact ⟨_, rfl, fun v u => iff_true_intro (rolw_value _ u)⟩
  | ror => exact ⟨_, rfl, fun v u => iff_true_intro (ror_value v u)⟩
  | rorw => exact ⟨_, rfl, fun v u => iff_true_intro (rorw_value _ u)⟩
  | bclr => exact ⟨_, rfl, fun v u => iff_true_intro (bclr_value v (sh6_eq u))⟩
  | bext => exact ⟨_, rfl, fun v u => iff_true_intro (bext_value v (sh6_eq u))⟩
  | binv => exact ⟨_, rfl, fun v u => iff_true_intro (binv_value v (sh6_eq u))⟩
  | bset => exact ⟨_, rfl, fun v u => iff_true_intro (bset_value v (sh6_eq u))⟩
  | pack => exact ⟨_, rfl, pack_value⟩
  | packh => exact ⟨_, rfl, packh_value⟩
  | packw => exact ⟨_, rfl, packw_value⟩

end BitReg

/-! ### One source -/

/-- The instructions on one register. -/
inductive BitUnary
  | clz | clzw | ctz | ctzw | orcB | rev8 | brev8 | sextB | sextH | zextH
  deriving DecidableEq, Repr

namespace BitUnary

/-- The immediate field, which is part of the operation. -/
def imm : BitUnary → BitVec 12
  | clz | clzw => 0b011000000000
  | ctz | ctzw => 0b011000000001
  | sextB => 0b011000000100
  | sextH => 0b011000000101
  | orcB => 0b001010000111
  | rev8 => 0b011010111000
  | brev8 => 0b011010000111
  | zextH => 0b000010000000

def funct3 : BitUnary → BitVec 3
  | clz | clzw | ctz | ctzw | sextB | sextH => 0b001
  | zextH => 0b100
  | orcB | rev8 | brev8 => 0b101

def opcode : BitUnary → BitVec 7
  | clzw | ctzw => 0x1b
  | zextH => 0x3b
  | _ => 0x13

def word (op : BitUnary) (rd rs1 : BitVec 5) : BitVec 32 :=
  wordI op.imm rs1 op.funct3 rd op.opcode

/-- The body of the instruction. -/
def trans : BitUnary → ArgR2 → Body
  | clz => transClz
  | clzw => transClzw
  | ctz => transCtz
  | ctzw => transCtzw
  | orcB => transOrcB
  | rev8 => transRev8_64
  | brev8 => transBrev8
  | sextB => transSextB
  | sextH => transSextH
  | zextH => transZextH64

/-- What the extensions define, of `rs1`. -/
def result (op : BitUnary) (v : Word) : Word :=
  match op with
  | clz => BitVec.ofNat 64 (leadingZeros v)
  | clzw => BitVec.ofNat 64 (leadingZeros (v.setWidth 32))
  | ctz => BitVec.ofNat 64 (trailingZeros v)
  | ctzw => BitVec.ofNat 64 (trailingZeros (v.setWidth 32))
  | orcB => ofBits (fun i => byteAt v (i / 8) != 0) 64
  | rev8 => ofBits (fun i => v.getLsbD (8 * (7 - i / 8) + i % 8)) 64
  | brev8 => ofBits (fun i => v.getLsbD (8 * (i / 8) + (7 - i % 8))) 64
  | sextB => (v.setWidth 8).signExtend 64
  | sextH => (v.setWidth 16).signExtend 64
  | zextH => (v.setWidth 16).setWidth 64

/-! ### The values of the bodies -/

/-- The builtin counts the zeros from the left, and the width for zero. -/
theorem clz_value {w : Nat} (v : BitVec w) :
    v.clz.setWidth 64 = BitVec.ofNat 64 (leadingZeros v) := by
  rw [leadingZeros_eq, BitVec.ofNat_toNat]

/-- The builtin counts the zeros from the right, and the width for zero. -/
theorem ctz_value {w : Nat} (v : BitVec w) :
    v.ctz.setWidth 64 = BitVec.ofNat 64 (trailingZeros v) := by
  rw [trailingZeros_eq, BitVec.ofNat_toNat]

/-- A loop over the eight bytes, from what it makes of each. -/
theorem bytes_value (f : Nat → Byte) {g : Nat → Bool}
    (bits : ∀ k < 64, (f (k / 8)).getLsbD (k % 8) = g k) :
    joinBytes ((List.range 8).map f) = ofBits g 64 := by
  refine eq_ofBits fun k bound => ?_
  rw [joinBytes_getLsbD _ bound, ← bits k bound]
  have byte : k / 8 < 8 := by omega
  simp [List.getD, byte]

/-- The bits of the `i`-th byte of a word. -/
theorem byteAt_getLsbD (v : Word) (i : Nat) {j : Nat} (bound : j < 8) :
    (byteAt v i).getLsbD j = v.getLsbD (8 * i + j) := by
  rw [byteAt, BitVec.getLsbD_extractLsb']
  simp [bound]

/-- ORC.B, bit by bit. -/
theorem orcB_value (v : Word) :
    joinBytes ((List.range 8).map fun i => if byteAt v i ≠ 0 then 0xff else 0) =
      ofBits (fun i => byteAt v (i / 8) != 0) 64 := by
  refine bytes_value _ fun k _ => ?_
  have ones : ∀ j < 8, (0xff : Byte).getLsbD j = true := by decide
  by_cases zero : byteAt v (k / 8) = 0
  · simp [zero]
  · rw [if_pos zero, ones _ (Nat.mod_lt _ (by decide))]
    simpa using zero

/-- REV8, bit by bit. -/
theorem rev8_value (v : Word) :
    joinBytes ((List.range 8).map fun i => byteAt v (7 - i)) =
      ofBits (fun i => v.getLsbD (8 * (7 - i / 8) + i % 8)) 64 :=
  bytes_value _ fun k _ => byteAt_getLsbD v _ (Nat.mod_lt _ (by decide))

/-- BREV8, bit by bit. -/
theorem brev8_value (v : Word) :
    joinBytes ((List.range 8).map fun i => (byteAt v i).reverse) =
      ofBits (fun i => v.getLsbD (8 * (i / 8) + (7 - i % 8))) 64 := by
  refine bytes_value _ fun k _ => ?_
  have inside : k % 8 < 8 := Nat.mod_lt _ (by decide)
  rw [BitVec.getLsbD_reverse, BitVec.getMsbD_eq_getLsbD, ← byteAt_getLsbD v _ (by omega)]
  simp [inside]

/-- ZEXT.H keeps the low half-word. -/
theorem zextH_value (v : Word) : v &&& 0xffff = (v.setWidth 16).setWidth 64 := by
  apply BitVec.eq_of_toNat_eq
  rw [and_low_toNat v (k := 16) 0xffff rfl, BitVec.toNat_setWidth, BitVec.toNat_setWidth]
  omega

/-- All operations on one register are translated alike. -/
theorem trans_eq (op : BitUnary) (a : ArgR2) : op.trans a = intR2 a op.result := by
  have body {f g : Word → Word} (same : ∀ v, f v = g v) : intR2 a f = intR2 a g := by
    rw [funext same]
  cases op with
  | clz => exact body fun v => (BitVec.setWidth_eq _).symm.trans (clz_value v)
  | clzw => exact body fun v => clz_value (v.setWidth 32)
  | ctz => exact body fun v => (BitVec.setWidth_eq _).symm.trans (ctz_value v)
  | ctzw => exact body fun v => ctz_value (v.setWidth 32)
  | orcB => exact body orcB_value
  | rev8 => exact body rev8_value
  | brev8 => exact body brev8_value
  | sextB | sextH => rfl
  | zextH => exact body zextH_value

/-- The decoder picks the translation of the instruction from its word. -/
theorem selected_eq (op : BitUnary) (rd rs1 : BitVec 5) :
    selected (op.word rd rs1) false = op.trans ⟨rd, rs1⟩ := by
  have holds : (patternUnary op.imm op.funct3 op.opcode).Holds (op.word rd rs1) :=
    patternUnary_holds
  have args : extractR2 (op.word rd rs1) = ⟨rd, rs1⟩ := extractR2_wordI _ _ _ _ _
  rw [← args]
  cases op <;> exact selected_of_dispatch holds rfl rfl rfl

end BitUnary

/-! ### Shifts by an immediate -/

/-- The instructions with a six-bit amount. -/
inductive BitShift
  | slliUw | rori | bclri | bexti | binvi | bseti
  deriving DecidableEq, Repr

namespace BitShift

def funct6 : BitShift → BitVec 6
  | slliUw => 0b000010
  | rori => 0b011000
  | bclri | bexti => 0b010010
  | binvi => 0b011010
  | bseti => 0b001010

def funct3 : BitShift → BitVec 3
  | slliUw | bclri | binvi | bseti => 0b001
  | rori | bexti => 0b101

def opcode : BitShift → BitVec 7
  | slliUw => 0x1b
  | _ => 0x13

def word (op : BitShift) (shamt : BitVec 6) (rd rs1 : BitVec 5) : BitVec 32 :=
  wordShift op.funct6 shamt rs1 op.funct3 rd op.opcode

/-- The body of the instruction. -/
def trans : BitShift → ArgShift → Body
  | slliUw => transSlliUw
  | rori => transRori
  | bclri => transBclri
  | bexti => transBexti
  | binvi => transBinvi
  | bseti => transBseti

/-- What the extensions define, of `rs1` and the amount. -/
def result (op : BitShift) (v : Word) (n : Nat) : Word :=
  match op with
  | slliUw => (v.setWidth 32).setWidth 64 <<< n
  | rori => (v >>> n) ||| (v <<< (64 - n))
  | bclri => ofBits (fun i => v.getLsbD i && i != n) 64
  | bexti => if v.getLsbD n then 1 else 0
  | binvi => ofBits (fun i => v.getLsbD i ^^ i == n) 64
  | bseti => ofBits (fun i => v.getLsbD i || i == n) 64

/-- The amount is below the width of the shifted type. -/
def Defined (op : BitShift) (n : Nat) : Prop :=
  match op with
  | slliUw => n < 32
  | _ => True

/-- No bit is shifted out of the shifted type. -/
def Fits (op : BitShift) (v : Word) (n : Nat) : Prop :=
  match op with
  | slliUw => (v.setWidth 32).toNat * 2 ^ n < 2 ^ 32
  | _ => True

instance (op : BitShift) (n : Nat) : Decidable (op.Defined n) := by
  cases op <;> simp only [Defined] <;> infer_instance

/-- The source shifts within 32 bits and extends then. That is SLLI.UW exactly if no bit is
lost. -/
theorem slliUw_value (v : BitVec 32) {n : Nat} (small : n < 32) :
    (v <<< n).setWidth 64 = v.setWidth 64 <<< n ↔ v.toNat * 2 ^ n < 2 ^ 32 := by
  have wide : v.toNat * 2 ^ n < 2 ^ 64 := by
    calc v.toNat * 2 ^ n < 2 ^ 32 * 2 ^ n :=
          Nat.mul_lt_mul_of_pos_right v.isLt (Nat.two_pow_pos n)
      _ ≤ 2 ^ 32 * 2 ^ 32 :=
          Nat.mul_le_mul_left _ (Nat.pow_le_pow_right (by decide) (by omega))
      _ = 2 ^ 64 := by decide
  rw [← BitVec.toNat_inj, BitVec.toNat_setWidth, BitVec.toNat_shiftLeft, BitVec.toNat_shiftLeft,
    BitVec.toNat_setWidth, Nat.shiftLeft_eq, Nat.shiftLeft_eq,
    Nat.mod_eq_of_lt (show v.toNat < 2 ^ 64 by omega), Nat.mod_eq_of_lt wide]
  omega

/-- The body has a value for a defined amount, and it is the defined one when nothing is
shifted out. -/
theorem trans_eq (op : BitShift) (shamt : BitVec 6) (rd rs1 : BitVec 5) :
    ∃ value, op.trans ⟨shamt.setWidth 7, rs1, rd⟩ = .compute rd value .int ∧
      ∀ s pc, (¬ op.Defined shamt.toNat → value s pc = none) ∧
        (op.Defined shamt.toNat → ∃ dest, value s pc = some dest ∧
          (dest = op.result (s.gpr rs1) shamt.toNat ↔ op.Fits (s.gpr rs1) shamt.toNat)) := by
  have amount : (shamt.setWidth 7).toNat = shamt.toNat :=
    BitVec.toNat_setWidth_of_le (by decide)
  have small : shamt.toNat < 64 := shamt.isLt
  cases op with
  | slliUw =>
      refine ⟨_, rfl, fun s pc => ?_⟩
      rw [amount]
      refine ⟨fun large => if_neg large, fun defined => ⟨_, if_pos defined, ?_⟩⟩
      exact slliUw_value _ defined
  | rori =>
      refine ⟨_, rfl, fun s pc => ⟨fun large => absurd trivial large, fun _ => ⟨_, rfl, ?_⟩⟩⟩
      rw [amount]
      exact iff_true_intro (rotateRight_eq_shifts _ small)
  | bclri =>
      refine ⟨_, rfl, fun s pc => ⟨fun large => absurd trivial large, fun _ => ?_⟩⟩
      rw [amount]
      exact ⟨_, if_pos small, iff_true_intro (BitReg.bclr_value _ rfl)⟩
  | bexti =>
      refine ⟨_, rfl, fun s pc => ⟨fun large => absurd trivial large, fun _ => ?_⟩⟩
      rw [amount]
      exact ⟨_, if_pos small, iff_true_intro (BitReg.bext_value _ rfl)⟩
  | binvi =>
      refine ⟨_, rfl, fun s pc => ⟨fun large => absurd trivial large, fun _ => ?_⟩⟩
      rw [amount]
      exact ⟨_, if_pos small, iff_true_intro (BitReg.binv_value _ rfl)⟩
  | bseti =>
      refine ⟨_, rfl, fun s pc => ⟨fun large => absurd trivial large, fun _ => ?_⟩⟩
      rw [amount]
      exact ⟨_, if_pos small, iff_true_intro (BitReg.bset_value _ rfl)⟩

/-- The decoder picks the translation of the instruction from its word, whatever the shift
amount. -/
theorem selected_eq (op : BitShift) (shamt : BitVec 6) (rd rs1 : BitVec 5) :
    selected (op.word shamt rd rs1) false = op.trans ⟨shamt.setWidth 7, rs1, rd⟩ := by
  have holds : (patternShift op.funct6 op.funct3 op.opcode).Holds (op.word shamt rd rs1) :=
    patternShift_holds
  have args : extractSh (op.word shamt rd rs1) = ⟨shamt.setWidth 7, rs1, rd⟩ :=
    extractSh_wordShift _ _ _ _ (by cases op <;> rfl) _
  rw [← args]
  cases op <;> exact selected_of_dispatch holds rfl rfl rfl

end BitShift

/-! ### Encodings of the instructions on two registers -/

namespace BitReg

/-- The rows that take the word with `x0` as its second source. -/
def avoid : BitReg → List (BitVec 32 × BitVec 32)
  | pack => [(0xfff0707f, 0x8004033)]
  | packw => [(0xfff0707f, 0x800403b)]
  | _ => []

/-- A word with another second source fails those rows. -/
theorem avoided (op : BitReg) {rd rs1 rs2 : BitVec 5} (named : op = pack ∨ op = packw → rs2 ≠ 0) :
    ∀ q ∈ op.avoid, op.word rd rs1 rs2 &&& q.1 ≠ q.2 := by
  have mask : (0xfff0707f : BitVec 32) =
      wordR (.allOnes 7) (.allOnes 5) 0#5 (.allOnes 3) 0#5 (.allOnes 7) := rfl
  have apart {funct7 : BitVec 7} {funct3 : BitVec 3} {opcode : BitVec 7} (other : rs2 ≠ 0) :
      wordR funct7 rs2 rs1 funct3 rd opcode &&& 0xfff0707f ≠
        wordR funct7 0 0 funct3 0 opcode := by
    intro same
    rw [mask, wordR_and] at same
    have args := congrArg (fun w => (extractR w).rs2) same
    simp only [extractR_wordR, BitVec.and_allOnes] at args
    exact other args
  intro q listed
  cases op with
  | pack =>
      rw [List.mem_singleton.1 listed]
      exact apart (named (.inl rfl))
  | packw =>
      rw [List.mem_singleton.1 listed]
      exact apart (named (.inr rfl))
  | _ => exact absurd listed List.not_mem_nil

/-- The decoder picks the translation of the instruction from its word. PACK and PACKW with `rs2
= x0` are other instructions. -/
theorem selected_eq (op : BitReg) {rd rs1 rs2 : BitVec 5}
    (named : op = pack ∨ op = packw → rs2 ≠ 0) :
    selected (op.word rd rs1 rs2) false = op.trans ⟨rd, rs1, rs2⟩ := by
  have holds : (patternR op.funct7 op.funct3 op.opcode op.avoid).Holds (op.word rd rs1 rs2) :=
    patternR_holds (op.avoided named)
  have args : extractR (op.word rd rs1 rs2) = ⟨rd, rs1, rs2⟩ := extractR_wordR _ _ _ _ _ _
  rw [← args]
  cases op <;> exact selected_of_dispatch holds rfl rfl rfl

/-- `pack` with `x0` is the RV32 encoding of `zext.h`, which has no body. -/
theorem selected_packZero (rd rs1 : BitVec 5) :
    selected (pack.word rd rs1 0) false = .notImplemented := by
  have holds : (patternUnary 0b000010000000 0b100 0x33).Holds (pack.word rd rs1 0) :=
    @patternUnary_holds 0b000010000000 _ _ _ _
  exact selected_of_dispatch holds rfl rfl rfl

/-- `packw` with `x0` is `zext.h`. -/
theorem selected_packwZero (rd rs1 : BitVec 5) :
    selected (packw.word rd rs1 0) false = transZextH64 ⟨rd, rs1⟩ :=
  BitUnary.zextH.selected_eq rd rs1

end BitReg

/-! ### The instructions -/

/-- An instruction with its operands; `roriw` alone has a five-bit amount. -/
inductive BitInstr
  | reg (op : BitReg) (rd rs1 rs2 : BitVec 5)
  | unary (op : BitUnary) (rd rs1 : BitVec 5)
  | shift (op : BitShift) (shamt : BitVec 6) (rd rs1 : BitVec 5)
  | roriw (shamt rd rs1 : BitVec 5)
  deriving DecidableEq, Repr

namespace BitInstr

def word : BitInstr → BitVec 32
  | reg op rd rs1 rs2 => op.word rd rs1 rs2
  | unary op rd rs1 => op.word rd rs1
  | shift op shamt rd rs1 => op.word shamt rd rs1
  | roriw shamt rd rs1 => wordR 0b0110000 shamt rs1 0b101 rd 0x1b

def rd : BitInstr → BitVec 5
  | reg _ rd _ _ => rd
  | unary _ rd _ => rd
  | shift _ _ rd _ => rd
  | roriw _ rd _ => rd

/-- What the extensions define. -/
def result (op : BitInstr) (s : ArchState) : Word :=
  match op with
  | reg op _ rs1 rs2 => op.result (s.gpr rs1) (s.gpr rs2)
  | unary op _ rs1 => op.result (s.gpr rs1)
  | shift op shamt _ rs1 => op.result (s.gpr rs1) shamt.toNat
  | roriw shamt _ rs1 =>
      let v := (s.gpr rs1).setWidth 32
      ((v >>> shamt.toNat) ||| (v <<< (32 - shamt.toNat))).signExtend 64

/-- The decoder knows the word, and the body's C++ shift is defined. -/
def Runs : BitInstr → Prop
  | reg op _ _ rs2 => op = .pack → rs2 ≠ 0
  | shift op shamt _ _ => op.Defined shamt.toNat
  | _ => True

/-- The body computes the defined result. -/
def Correct (op : BitInstr) (s : ArchState) : Prop :=
  match op with
  | reg op _ rs1 rs2 => (op = .packw ∧ rs2 = 0) ∨ op.Selects (s.gpr rs1) (s.gpr rs2)
  | shift op shamt _ rs1 => op.Fits (s.gpr rs1) shamt.toNat
  | _ => True

/-- `zext.h` is `packw` with `x0`. -/
theorem zextH_eq_packw (v : Word) :
    BitUnary.zextH.result v = BitReg.packw.result v 0 := by
  have low : v.toNat % 2 ^ 16 < 2 ^ 16 := Nat.mod_lt _ (by decide)
  have field : ((0 : Word).setWidth 16 ++ v.setWidth 16).toNat = v.toNat % 2 ^ 16 := by
    rw [append_toNat, BitVec.toNat_setWidth]
    exact Nat.zero_add _
  apply BitVec.eq_of_toNat_eq
  rw [BitUnary.result, BitReg.result, BitVec.toNat_signExtend, BitVec.msb_eq_decide,
    BitVec.toNat_setWidth, BitVec.toNat_setWidth, BitVec.toNat_setWidth, field]
  change _ = _ + (if decide (2 ^ 31 ≤ _) = true then _ else _)
  rw [if_neg (by rw [decide_eq_true_eq]; omega)]
  rfl

/-- The decoder picks RORIW from its word. -/
theorem selected_roriw (shamt rd rs1 : BitVec 5) :
    selected (roriw shamt rd rs1).word false = transRoriw ⟨shamt.setWidth 7, rs1, rd⟩ := by
  have holds : (patternR 0b0110000 0b101 0x1b []).Holds (roriw shamt rd rs1).word :=
    patternR_holds (by simp)
  have args : extractSh5 (roriw shamt rd rs1).word = ⟨shamt.setWidth 7, rs1, rd⟩ :=
    extractSh5_wordR _ _ _ _ _ _
  rw [← args]
  exact selected_of_dispatch holds rfl rfl rfl

/-- A word with a body that has a value: the value is the defined one when the operands
allow it. -/
theorem selected_compute (op : BitInstr) (runs : op.Runs) :
    ∃ value, selected op.word false = .compute op.rd value .int ∧
      ∀ (s : ArchState) (pc : Word), s.gpr 0 = 0 → ∃ dest, value s pc = some dest ∧
        (dest = op.result s ↔ op.Correct s) := by
  cases op with
  | reg op rd rs1 rs2 =>
      by_cases zext : op = .packw ∧ rs2 = 0
      · obtain ⟨rfl, rfl⟩ := zext
        refine ⟨_, (BitReg.selected_packwZero rd rs1).trans (BitUnary.zextH.trans_eq ⟨rd, rs1⟩),
          fun s pc zero => ⟨_, rfl, iff_of_true ?_ (.inl ⟨rfl, rfl⟩)⟩⟩
        change BitUnary.zextH.result (s.gpr rs1) = BitReg.packw.result (s.gpr rs1) (s.gpr 0)
        rw [zero]
        exact zextH_eq_packw (s.gpr rs1)
      · have named : op = .pack ∨ op = .packw → rs2 ≠ 0 := by
          rintro (rfl | rfl) zero
          · exact runs rfl zero
          · exact zext ⟨rfl, zero⟩
        obtain ⟨f, body, agrees⟩ := op.trans_eq ⟨rd, rs1, rs2⟩
        refine ⟨_, (op.selected_eq named).trans body, fun s pc _ => ⟨_, rfl, ?_⟩⟩
        rw [result, Correct, or_iff_right zext]
        exact agrees _ _
  | unary op rd rs1 =>
      exact ⟨_, (op.selected_eq rd rs1).trans (op.trans_eq ⟨rd, rs1⟩), fun s pc _ =>
        ⟨_, rfl, iff_true_intro rfl⟩⟩
  | shift op shamt rd rs1 =>
      obtain ⟨value, body, values⟩ := op.trans_eq shamt rd rs1
      exact ⟨value, (op.selected_eq shamt rd rs1).trans body, fun s pc _ =>
        (values s pc).2 runs⟩
  | roriw shamt rd rs1 =>
      refine ⟨_, selected_roriw shamt rd rs1, fun s pc _ => ⟨_, rfl, iff_true_intro ?_⟩⟩
      have amount : (shamt.setWidth 7).toNat = shamt.toNat :=
        BitVec.toNat_setWidth_of_le (by decide)
      rw [amount, gpr32, rotateRight_eq_shifts _ shamt.isLt]
      rfl

/-- The other words stop the simulator. -/
theorem selected_stops (P : Platform δ) (op : BitInstr) (stops : ¬ op.Runs) (ctx : Ctx δ) :
    ∃ e, (selected op.word false).exec P ctx = .error e := by
  cases op with
  | reg op rd rs1 rs2 =>
      simp only [Runs, Classical.not_imp, not_not] at stops
      obtain ⟨rfl, rfl⟩ := stops
      exact ⟨_, congrArg (fun b => Body.exec P b ctx) (BitReg.selected_packZero rd rs1)⟩
  | unary => exact absurd trivial stops
  | shift op shamt rd rs1 =>
      obtain ⟨value, body, values⟩ := op.trans_eq shamt rd rs1
      have undefined := (values ctx.arch.state ctx.arch.pc).1 stops
      refine ⟨.undefinedArith, ?_⟩
      rw [word, op.selected_eq shamt rd rs1, body]
      simp only [Body.exec, undefined]
  | roriw => exact absurd trivial stops

/-- The instruction completes, and writes its result to `rd` and nothing else. -/
def Commits (P : Platform δ) (op : BitInstr) (arch a : RiscvArch δ) (vaddr paddr : Word)
    (slot : DecodeInfo) : Prop :=
  ∃ arch', Completes P arch vaddr paddr slot (vaddr + 4) arch' ∧ arch'.memory = a.memory ∧
    arch'.state = (a.state.set (.gpr op.rd) (op.result a.state)).set (.gpr 0) 0

section Commits

variable {P : Platform δ} {op : BitInstr} {arch a : RiscvArch δ} {paddr : Word}
variable {slot : DecodeInfo}

/-- A word with a body that does not shift by too much commits the value defined exactly
when the result is dropped or the fields it selects allow it. -/
theorem commits_iff_correct (runs : op.Runs) (vaddr : Word)
    (fetches : Fetches P arch paddr slot false op.word a)
    (quiet : irqException a.state = none) (zero : a.state.gpr 0 = 0) :
    op.Commits P arch a vaddr paddr slot ↔ op.rd = 0 ∨ op.Correct a.state := by
  obtain ⟨value, body, values⟩ := op.selected_compute runs
  obtain ⟨dest, computed, agrees⟩ := values a.state vaddr zero
  rw [← agrees, ← writes_eq_iff a.state op.rd]
  constructor
  · rintro ⟨arch', completes, -, state⟩
    obtain ⟨dest', computed', -, rfl⟩ := (completes_compute_iff fetches body quiet).1 completes
    cases computed.symm.trans computed'
    exact state
  · intro same
    exact ⟨_, (completes_compute_iff fetches body quiet).2 ⟨dest, computed, rfl, rfl⟩, rfl, same⟩

/-- The other words complete nothing. -/
theorem not_commits_of_stops (stops : ¬ op.Runs) (vaddr : Word)
    (fetches : Fetches P arch paddr slot false op.word a) :
    ¬ op.Commits P arch a vaddr paddr slot := by
  rintro ⟨arch', completes, -⟩
  obtain ⟨i, fetched, same⟩ := fetches
  obtain ⟨e, stopped⟩ := op.selected_stops P stops (bodyCtx a vaddr paddr i)
  rw [← same] at stopped
  exact not_completes fetched stopped completes

end Commits

/-- An instruction whose word is fetched at an address commits what the extensions define
exactly when its word has a body that does not shift by too much, and either the result is
dropped or the fields it selects allow it. The bodies that take the wrong fields are those of
`pack`, `packh`, `packw` and `slli.uw`; the others compute on whole operands. `x0` reads zero,
as it does in every reachable machine (`Machine.Reachable.zero`). -/
theorem commits_iff (P : Platform δ) (op : BitInstr) {arch a : RiscvArch δ}
    (vaddr : Word) {paddr : Word} {slot : DecodeInfo}
    (fetches : Fetches P arch paddr slot false op.word a)
    (quiet : irqException a.state = none) (zero : a.state.gpr 0 = 0) :
    op.Commits P arch a vaddr paddr slot ↔ op.Runs ∧ (op.rd = 0 ∨ op.Correct a.state) := by
  by_cases runs : op.Runs
  · rw [and_iff_right runs]
    exact commits_iff_correct runs vaddr fetches quiet zero
  · exact iff_of_false (not_commits_of_stops runs vaddr fetches) fun h => runs h.1

/-- RAM holds one instruction, and `x1` the 32 bits of `0x12345678`. -/
def bitMachine (op : BitInstr) : RiscvArch Unit :=
  { RiscvArch.reset archCfg (imageOf [op.word]) with
    state := (RiscvArch.reset archCfg (imageOf [op.word])).state.set (.gpr 1) 0x12345678 }

/-- `rev8 x2, x1`. -/
theorem commits_iff_rev8 :
    (unary .rev8 2 1).Commits (ramOnly 4096) (bitMachine (unary .rev8 2 1))
        (bitMachine (unary .rev8 2 1)) 0x80000000 0x80000000 .zero ↔
      (unary .rev8 2 1).Runs ∧
        ((unary .rev8 2 1).rd = 0 ∨
          (unary .rev8 2 1).Correct (bitMachine (unary .rev8 2 1)).state) :=
  commits_iff (ramOnly 4096) (unary .rev8 2 1) 0x80000000 ⟨_, rfl, by decide +kernel⟩
    (by decide +kernel) (by decide +kernel)

/-- `pack x2, x1, x1` drops the upper half of each operand. -/
theorem not_commits_pack :
    ¬ (reg .pack 2 1 1).Commits (ramOnly 4096) (bitMachine (reg .pack 2 1 1))
      (bitMachine (reg .pack 2 1 1)) 0x80000000 0x80000000 .zero := by
  have runs : (reg .pack 2 1 1).Runs := fun _ => by decide
  rw [commits_iff_correct runs 0x80000000 ⟨_, rfl, by decide +kernel⟩ (by decide +kernel)
    (by decide +kernel)]
  rintro (drop | ⟨other, -⟩ | ⟨low, -⟩)
  · exact absurd drop (by decide)
  · cases other
  · exact absurd low (by decide +kernel)

end BitInstr

end CPUDelaySim.Riscv
