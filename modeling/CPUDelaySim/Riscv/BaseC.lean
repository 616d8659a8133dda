import CPUDelaySim.Riscv.BaseInstr
import CPUDelaySim.Riscv.Encode16

/-!
# The compressed base instructions

Each compressed computation, branch or jump stands for one 32-bit instruction, and the
decoder calls its body.  The encodings that the manual reserves have rows of their own,
which stop the simulator, so the constructors exclude them.
-/

namespace CPUDelaySim.Riscv

/-! ### Immediates -/

/-- The payload of a six-bit immediate around a register. -/
def payloadImm (imm : BitVec 6) (r : BitVec 5) : BitVec 11 :=
  payloadI (imm.extractLsb' 5 1) r (imm.extractLsb' 0 5)

section Fields

variable (funct3 : BitVec 3) (quadrant : BitVec 2)

/-- The fields of a word with a six-bit immediate. -/
theorem fields_payloadImm (imm : BitVec 6) (r : BitVec 5) :
    let word := wordC funct3 (payloadImm imm r) quadrant
    field word 12 1 ++ field word 2 5 = imm ∧ field word 7 5 = r := by
  have whole : ∀ imm : BitVec 6, imm.extractLsb' 5 1 ++ imm.extractLsb' 0 5 = imm := by decide
  obtain ⟨high, register, low⟩ :=
    fields_payloadI funct3 quadrant (imm.extractLsb' 5 1) r (imm.extractLsb' 0 5)
  dsimp only
  rw [payloadImm, high, register, low]
  exact ⟨whole imm, rfl⟩

/-- A short register inside the register field. -/
theorem rvcReg_payloadImm (imm : BitVec 6) (funct2 : BitVec 2) (r : BitVec 3) :
    rvcReg (wordC funct3 (payloadImm imm (funct2 ++ r)) quadrant) 7 = compactReg r := by
  have low : (funct2 ++ r).extractLsb' 0 3 = r := extractLsb'_last
  obtain ⟨-, register⟩ := fields_payloadImm funct3 quadrant imm (funct2 ++ r)
  rw [rvcReg, field_sub _ 7 5 0 3 (by decide), register, low]
  rfl

/-- A wider immediate extends to the same word. -/
theorem signExtend_six (imm : BitVec 6) :
    imm.signExtend 64 = (imm.signExtend 12).signExtend 64 := by
  revert imm
  decide

/-- The arguments of C.ADDI and C.ADDIW. -/
theorem extractCi_wordC (imm : BitVec 6) (r : BitVec 5) :
    extractCi (wordC funct3 (payloadImm imm r) quadrant) =
      ⟨(imm.signExtend 12).signExtend 64, r, r⟩ := by
  obtain ⟨value, register⟩ := fields_payloadImm funct3 quadrant imm r
  rw [extractCi, value, register, signExtend_six]

/-- The arguments of C.LI, which adds to `x0`. -/
theorem extractCLi_wordC (imm : BitVec 6) (r : BitVec 5) :
    extractCLi (wordC funct3 (payloadImm imm r) quadrant) =
      ⟨(imm.signExtend 12).signExtend 64, 0, r⟩ := by
  obtain ⟨value, register⟩ := fields_payloadImm funct3 quadrant imm r
  rw [extractCLi, value, register, signExtend_six]

/-- The arguments of C.LUI. -/
theorem extractCLui_wordC (imm : BitVec 6) (r : BitVec 5) :
    extractCLui (wordC funct3 (payloadImm imm r) quadrant) =
      ⟨(imm.signExtend 20 ++ 0#12).signExtend 64, r⟩ := by
  obtain ⟨value, register⟩ := fields_payloadImm funct3 quadrant imm r
  rw [extractCLui, value, register, signExtend_append_zeros imm 12 64 (by decide)]

/-- The arguments of C.SRLI and C.SRAI. -/
theorem extractCShift_wordC (shamt : BitVec 6) (funct2 : BitVec 2) (r : BitVec 3) :
    extractCShift (wordC funct3 (payloadImm shamt (funct2 ++ r)) quadrant) =
      ⟨shamt.setWidth 7, compactReg r, compactReg r⟩ := by
  obtain ⟨value, -⟩ := fields_payloadImm funct3 quadrant shamt (funct2 ++ r)
  rw [extractCShift, value, rvcReg_payloadImm]

/-- The arguments of C.ANDI. -/
theorem extractCAndi_wordC (imm : BitVec 6) (funct2 : BitVec 2) (r : BitVec 3) :
    extractCAndi (wordC funct3 (payloadImm imm (funct2 ++ r)) quadrant) =
      ⟨(imm.signExtend 12).signExtend 64, compactReg r, compactReg r⟩ := by
  obtain ⟨value, -⟩ := fields_payloadImm funct3 quadrant imm (funct2 ++ r)
  rw [extractCAndi, value, rvcReg_payloadImm, signExtend_six]

/-- The arguments of C.SLLI. -/
theorem extractCShift2_wordC (shamt : BitVec 6) (r : BitVec 5) :
    extractCShift2 (wordC funct3 (payloadImm shamt r) quadrant) = ⟨shamt.setWidth 7, r, r⟩ := by
  obtain ⟨value, register⟩ := fields_payloadImm funct3 quadrant shamt r
  rw [extractCShift2, value, register]

/-- The payload of `c.addi16sp`, for an offset in units of 16. -/
def payload16sp (k : BitVec 6) : BitVec 11 :=
  payloadI (k.extractLsb' 5 1) 2
    (k.extractLsb' 0 1 ++ k.extractLsb' 2 1 ++ k.extractLsb' 3 2 ++ k.extractLsb' 1 1)

/-- The arguments of C.ADDI16SP, whose immediate is a multiple of 16. -/
theorem extractCAddi16sp_wordC (k : BitVec 6) :
    extractCAddi16sp (wordC funct3 (payload16sp k) quadrant) =
      ⟨((k ++ 0#4).signExtend 12).signExtend 64, 2, 2⟩ := by
  let low : BitVec 6 → BitVec 5 := fun k =>
    k.extractLsb' 0 1 ++ k.extractLsb' 2 1 ++ k.extractLsb' 3 2 ++ k.extractLsb' 1 1
  have offset : ∀ k : BitVec 6, (k.extractLsb' 5 1 ++ (low k).extractLsb' 1 2 ++
      (low k).extractLsb' 3 1 ++ (low k).extractLsb' 0 1 ++ (low k).extractLsb' 4 1 ++
      0#4).signExtend 64 = ((k ++ 0#4).signExtend 12).signExtend 64 := by decide
  obtain ⟨high, -, field⟩ := fields_payloadI funct3 quadrant (k.extractLsb' 5 1) 2 (low k)
  rw [extractCAddi16sp, payload16sp, field_sub _ 2 5 1 2 (by decide), field_sub _ 2 5 3 1
    (by decide), field_sub _ 2 5 0 1 (by decide), field_sub _ 2 5 4 1 (by decide), high, field,
    offset]

/-- The payload of `c.addi4spn`, for an offset in units of 4. -/
def payload4spn (k : BitVec 8) (r : BitVec 3) : BitVec 11 :=
  (k.extractLsb' 2 2 ++ k.extractLsb' 4 4 ++ k.extractLsb' 0 1 ++ k.extractLsb' 1 1 ++ r :)

/-- The arguments of C.ADDI4SPN, whose immediate is a multiple of 4 and not extended by its
sign. -/
theorem extractCAddi4spn_wordC (k : BitVec 8) (r : BitVec 3) :
    extractCAddi4spn (wordC funct3 (payload4spn k r) quadrant) =
      ⟨((k ++ 0#2).setWidth 12).signExtend 64, 2, compactReg r⟩ := by
  have fields (pos len : Nat) (inside : pos + len ≤ 11) :=
    field_wordC funct3 quadrant (payload4spn k r) len inside
  have first : (payload4spn k r).extractLsb' 9 2 = k.extractLsb' 2 2 := by
    rw [payload4spn, extractLsb'_above 6 rfl, extractLsb'_above 5 rfl, extractLsb'_above 4 rfl,
      extractLsb'_above 0 rfl, BitVec.extractLsb'_eq_self]
  have second : (payload4spn k r).extractLsb' 5 4 = k.extractLsb' 4 4 := by
    rw [payload4spn, extractLsb'_above 2 rfl, extractLsb'_above 1 rfl, extractLsb'_above 0 rfl,
      extractLsb'_last]
  have third : (payload4spn k r).extractLsb' 4 1 = k.extractLsb' 0 1 := by
    rw [payload4spn, extractLsb'_above 1 rfl, extractLsb'_above 0 rfl, extractLsb'_last]
  have fourth : (payload4spn k r).extractLsb' 3 1 = k.extractLsb' 1 1 := by
    rw [payload4spn, extractLsb'_above 0 rfl, extractLsb'_last]
  have register : (payload4spn k r).extractLsb' 0 3 = r := extractLsb'_last
  have whole : k.extractLsb' 4 4 ++ k.extractLsb' 2 2 ++ k.extractLsb' 1 1 ++
      k.extractLsb' 0 1 = k := by
    repeat rw [BitVec.extractLsb'_append_extractLsb'_eq_extractLsb' (by rfl)]
    exact BitVec.extractLsb'_eq_self
  have offset : ∀ k : BitVec 8,
      (k ++ 0#2).setWidth 64 = ((k ++ 0#2).setWidth 12).signExtend 64 := by decide
  rw [extractCAddi4spn, rvcReg, fields 5 4 (by decide), fields 9 2 (by decide),
    fields 3 1 (by decide), fields 4 1 (by decide), fields 0 3 (by decide), first, second, third,
    fourth, register, whole, offset]
  rfl

/-- The payload of a branch on zero, for an offset in halfwords. -/
def payloadB (k : BitVec 8) (r : BitVec 3) : BitVec 11 :=
  payloadL (k.extractLsb' 7 1 ++ k.extractLsb' 2 2) r (k.extractLsb' 5 2)
    (k.extractLsb' 0 2 ++ k.extractLsb' 4 1)

/-- The arguments of C.BEQZ and C.BNEZ. -/
theorem extractCbZ_wordC (k : BitVec 8) (r : BitVec 3) :
    extractCbZ (wordC funct3 (payloadB k r) quadrant) =
      ⟨(k.signExtend 12 ++ 0#1).signExtend 64, 0, compactReg r⟩ := by
  obtain ⟨high, base, middle, low⟩ := fields_payloadL funct3 quadrant
    (k.extractLsb' 7 1 ++ k.extractLsb' 2 2) r (k.extractLsb' 5 2)
    (k.extractLsb' 0 2 ++ k.extractLsb' 4 1)
  have top : (k.extractLsb' 7 1 ++ k.extractLsb' 2 2 : BitVec 3).extractLsb' 2 1 =
      k.extractLsb' 7 1 := by
    rw [extractLsb'_above 0 rfl, BitVec.extractLsb'_eq_self]
  have third : (k.extractLsb' 7 1 ++ k.extractLsb' 2 2 : BitVec 3).extractLsb' 0 2 =
      k.extractLsb' 2 2 := extractLsb'_last
  have last : (k.extractLsb' 0 2 ++ k.extractLsb' 4 1 : BitVec 3).extractLsb' 1 2 =
      k.extractLsb' 0 2 := by
    rw [extractLsb'_above 0 rfl, BitVec.extractLsb'_eq_self]
  have second : (k.extractLsb' 0 2 ++ k.extractLsb' 4 1 : BitVec 3).extractLsb' 0 1 =
      k.extractLsb' 4 1 := extractLsb'_last
  have whole : k.extractLsb' 7 1 ++ k.extractLsb' 5 2 ++ k.extractLsb' 4 1 ++
      k.extractLsb' 2 2 ++ k.extractLsb' 0 2 = k := by
    repeat rw [BitVec.extractLsb'_append_extractLsb'_eq_extractLsb' (by rfl)]
    exact BitVec.extractLsb'_eq_self
  rw [extractCbZ, payloadB, rvcReg, field_sub _ 10 3 2 1 (by decide),
    field_sub _ 10 3 0 2 (by decide), field_sub _ 2 3 0 1 (by decide),
    field_sub _ 2 3 1 2 (by decide), high, base, middle, low, top, second, third, last, whole,
    signExtend_append_zeros k 1 64 (by decide)]
  rfl

/-- The payload of a jump, for an offset in halfwords. -/
def payloadJ (k : BitVec 11) : BitVec 11 :=
  (k.extractLsb' 10 1 ++ k.extractLsb' 3 1 ++ k.extractLsb' 7 2 ++ k.extractLsb' 9 1 ++
    k.extractLsb' 5 1 ++ k.extractLsb' 6 1 ++ k.extractLsb' 0 3 ++ k.extractLsb' 4 1 :)

/-- The scattered bits of the offset of C.J. -/
theorem fields_payloadJ (k : BitVec 11) :
    (payloadJ k).extractLsb' 10 1 = k.extractLsb' 10 1 ∧
      (payloadJ k).extractLsb' 9 1 = k.extractLsb' 3 1 ∧
      (payloadJ k).extractLsb' 7 2 = k.extractLsb' 7 2 ∧
      (payloadJ k).extractLsb' 6 1 = k.extractLsb' 9 1 ∧
      (payloadJ k).extractLsb' 5 1 = k.extractLsb' 5 1 ∧
      (payloadJ k).extractLsb' 4 1 = k.extractLsb' 6 1 ∧
      (payloadJ k).extractLsb' 1 3 = k.extractLsb' 0 3 ∧
      (payloadJ k).extractLsb' 0 1 = k.extractLsb' 4 1 := by
  unfold payloadJ
  refine ⟨?_, ?_, ?_, ?_, ?_, ?_, ?_, extractLsb'_last⟩
  · rw [extractLsb'_above 9 rfl, extractLsb'_above 6 rfl, extractLsb'_above 5 rfl,
      extractLsb'_above 4 rfl, extractLsb'_above 3 rfl, extractLsb'_above 1 rfl,
      extractLsb'_above 0 rfl, BitVec.extractLsb'_eq_self]
  · rw [extractLsb'_above 8 rfl, extractLsb'_above 5 rfl, extractLsb'_above 4 rfl,
      extractLsb'_above 3 rfl, extractLsb'_above 2 rfl, extractLsb'_above 0 rfl, extractLsb'_last]
  · rw [extractLsb'_above 6 rfl, extractLsb'_above 3 rfl, extractLsb'_above 2 rfl,
      extractLsb'_above 1 rfl, extractLsb'_above 0 rfl, extractLsb'_last]
  · rw [extractLsb'_above 5 rfl, extractLsb'_above 2 rfl, extractLsb'_above 1 rfl,
      extractLsb'_above 0 rfl, extractLsb'_last]
  · rw [extractLsb'_above 4 rfl, extractLsb'_above 1 rfl, extractLsb'_above 0 rfl,
      extractLsb'_last]
  · rw [extractLsb'_above 3 rfl, extractLsb'_above 0 rfl, extractLsb'_last]
  · rw [extractLsb'_above 0 rfl, extractLsb'_last]

/-- The arguments of C.J. -/
theorem extractCj_wordC (rd : BitVec 5) (k : BitVec 11) :
    extractCj rd (wordC funct3 (payloadJ k) quadrant) =
      ⟨(k.signExtend 20 ++ 0#1).signExtend 64, rd⟩ := by
  have fields (pos len : Nat) (inside : pos + len ≤ 11) :=
    field_wordC funct3 quadrant (payloadJ k) len inside
  obtain ⟨bit10, bit3, bits7, bit9, bit5, bit6, bits0, bit4⟩ := fields_payloadJ k
  have whole : k.extractLsb' 10 1 ++ k.extractLsb' 9 1 ++ k.extractLsb' 7 2 ++
      k.extractLsb' 6 1 ++ k.extractLsb' 5 1 ++ k.extractLsb' 4 1 ++ k.extractLsb' 3 1 ++
      k.extractLsb' 0 3 = k := by
    repeat rw [BitVec.extractLsb'_append_extractLsb'_eq_extractLsb' (by rfl)]
    exact BitVec.extractLsb'_eq_self
  rw [extractCj, fields 10 1 (by decide), fields 6 1 (by decide), fields 7 2 (by decide),
    fields 4 1 (by decide), fields 5 1 (by decide), fields 0 1 (by decide),
    fields 9 1 (by decide), fields 1 3 (by decide), bit10, bit9, bits7, bit6, bit5, bit4, bit3,
    bits0, whole, signExtend_append_zeros k 1 64 (by decide)]

/-- The arguments of the operations on two compact registers. -/
theorem extractCs2_wordC (high : BitVec 3) (r : BitVec 3) (funct2 : BitVec 2) (r2 : BitVec 3) :
    extractCs2 (wordC funct3 (payloadL high r funct2 r2) quadrant) =
      ⟨compactReg r, compactReg r, compactReg r2⟩ := by
  obtain ⟨-, base, -, source⟩ := fields_payloadL funct3 quadrant high r funct2 r2
  rw [extractCs2, rvcReg, rvcReg, base, source]
  rfl

/-- The arguments of C.MV, which adds to `x0`. -/
theorem extractCMv_wordC (high : BitVec 1) (r r2 : BitVec 5) :
    extractCMv (wordC funct3 (payloadI high r r2) quadrant) = ⟨0, r2, r⟩ := by
  obtain ⟨-, base, source⟩ := fields_payloadI funct3 quadrant high r r2
  rw [extractCMv, base, source]

/-- The arguments of C.ADD. -/
theorem extractCr_wordC (high : BitVec 1) (r r2 : BitVec 5) :
    extractCr (wordC funct3 (payloadI high r r2) quadrant) = ⟨r, r, r2⟩ := by
  obtain ⟨-, base, source⟩ := fields_payloadI funct3 quadrant high r r2
  rw [extractCr, base, source]

end Fields

/-! ### Encodings that mean something else -/

/-- A word that differs from the value in a field under the mask fails the test. -/
theorem and_ne_of_field {word mask value : BitVec 32} (pos len : Nat)
    (kept : field mask pos len = .allOnes len) (apart : field word pos len ≠ field value pos len) :
    word &&& mask ≠ value := by
  rintro rfl
  refine apart ?_
  rw [field, field, BitVec.extractLsb'_and, show mask.extractLsb' pos len = _ from kept,
    BitVec.and_allOnes]

/-- The mask of a row acts on the payload field by field. -/
theorem payloadI_and (high high' : BitVec 1) (r r' low low' : BitVec 5) :
    payloadI high r low &&& payloadI high' r' low' =
      payloadI (high &&& high') (r &&& r') (low &&& low') := by
  unfold payloadI
  rw [BitVec.and_append, BitVec.and_append]

/-- The mask of a row acts on a payload of compact registers field by field. -/
theorem payloadL_and (high high' base base' : BitVec 3) (low low' : BitVec 2)
    (r r' : BitVec 3) :
    payloadL high base low r &&& payloadL high' base' low' r' =
      payloadL (high &&& high') (base &&& base') (low &&& low') (r &&& r') := by
  unfold payloadL
  rw [BitVec.and_append, BitVec.and_append, BitVec.and_append]

/-- A word with an immediate fails the tests for zero. -/
theorem and_ne_of_imm {funct3 : BitVec 3} {imm : BitVec 6} {r : BitVec 5} {quadrant : BitVec 2}
    {mask value : BitVec 32} (loads : imm ≠ 0)
    (kept : field mask 12 1 = .allOnes 1 ∧ field mask 2 5 = .allOnes 5)
    (clear : field value 12 1 = 0 ∧ field value 2 5 = 0) :
    wordC funct3 (payloadImm imm r) quadrant &&& mask ≠ value := by
  have whole : ∀ imm : BitVec 6, imm.extractLsb' 5 1 = 0 → imm.extractLsb' 0 5 = 0 → imm = 0 := by
    decide
  obtain ⟨high, -, low⟩ :=
    fields_payloadI funct3 quadrant (imm.extractLsb' 5 1) r (imm.extractLsb' 0 5)
  by_cases top : imm.extractLsb' 5 1 = 0
  · refine and_ne_of_field 2 5 kept.2 ?_
    rw [payloadImm, low, clear.2]
    exact fun rest => loads (whole imm top rest)
  · refine and_ne_of_field 12 1 kept.1 ?_
    rw [payloadImm, high, clear.1]
    exact top

/-! ### The instructions -/

/-- The operations on two compact registers. -/
inductive CompactReg
  | sub | xor | or | and | subw | addw
  deriving DecidableEq, Repr

namespace CompactReg

/-- What the operation is in the full set. -/
def op : CompactReg → BaseReg
  | sub => .sub
  | xor => .xor
  | or => .or
  | and => .and
  | subw => .subw
  | addw => .addw

/-- Bits 12 to 10 of the word. -/
def high : CompactReg → BitVec 3
  | subw | addw => 0b111
  | _ => 0b011

/-- Bits 6 and 5 of the word. -/
def funct2 : CompactReg → BitVec 2
  | sub | subw => 0b00
  | xor | addw => 0b01
  | or => 0b10
  | and => 0b11

end CompactReg

/-- A compressed instruction with its operands, but for the words that the manual reserves;
offsets count units of their own. -/
inductive CompactBase
  | addi4spn (k : BitVec 8) (rd : BitVec 3) (moves : k ≠ 0)
  | addi (imm : BitVec 6) (rd : BitVec 5)
  | addiw (imm : BitVec 6) (rd : BitVec 5) (named : rd ≠ 0)
  | li (imm : BitVec 6) (rd : BitVec 5)
  | addi16sp (k : BitVec 6) (moves : k ≠ 0)
  | lui (imm : BitVec 6) (rd : BitVec 5) (loads : imm ≠ 0) (other : rd ≠ 2)
  | shiftRight (signed : Bool) (shamt : BitVec 6) (rd : BitVec 3)
  | andi (imm : BitVec 6) (rd : BitVec 3)
  | reg (op : CompactReg) (rd rs2 : BitVec 3)
  | slli (shamt : BitVec 6) (rd : BitVec 5)
  | mv (rd rs2 : BitVec 5) (named : rs2 ≠ 0)
  | add (rd rs2 : BitVec 5) (named : rs2 ≠ 0)
  | jump (k : BitVec 11)
  | branch (equal : Bool) (k : BitVec 8) (rs1 : BitVec 3)

namespace CompactBase

/-- The word of the instruction. -/
def word : CompactBase → BitVec 32
  | addi4spn k rd _ => wordC 0b000 (payload4spn k rd) 0
  | addi imm rd => wordC 0b000 (payloadImm imm rd) 1
  | addiw imm rd _ => wordC 0b001 (payloadImm imm rd) 1
  | li imm rd => wordC 0b010 (payloadImm imm rd) 1
  | addi16sp k _ => wordC 0b011 (payload16sp k) 1
  | lui imm rd _ _ => wordC 0b011 (payloadImm imm rd) 1
  | shiftRight false shamt rd => wordC 0b100 (payloadImm shamt (0b00#2 ++ rd)) 1
  | shiftRight true shamt rd => wordC 0b100 (payloadImm shamt (0b01#2 ++ rd)) 1
  | andi imm rd => wordC 0b100 (payloadImm imm (0b10#2 ++ rd)) 1
  | reg op rd rs2 => wordC 0b100 (payloadL op.high rd op.funct2 rs2) 1
  | slli shamt rd => wordC 0b000 (payloadImm shamt rd) 2
  | mv rd rs2 _ => wordC 0b100 (payloadI 0 rd rs2) 2
  | add rd rs2 _ => wordC 0b100 (payloadI 1 rd rs2) 2
  | jump k => wordC 0b101 (payloadJ k) 1
  | branch true k rs1 => wordC 0b110 (payloadB k rs1) 1
  | branch false k rs1 => wordC 0b111 (payloadB k rs1) 1

/-- The 32-bit instruction that the manual expands it to. -/
def expand : CompactBase → BaseInstr
  | addi4spn k rd _ => .regImm .addi ((k ++ 0#2).setWidth 12) (compactReg rd) 2
  | addi imm rd => .regImm .addi (imm.signExtend 12) rd rd
  | addiw imm rd _ => .regImm .addiw (imm.signExtend 12) rd rd
  | li imm rd => .regImm .addi (imm.signExtend 12) rd 0
  | addi16sp k _ => .regImm .addi ((k ++ 0#4).signExtend 12) 2 2
  | lui imm rd _ _ => .lui (imm.signExtend 20) rd
  | shiftRight false shamt rd => .shift .srli shamt (compactReg rd) (compactReg rd)
  | shiftRight true shamt rd => .shift .srai shamt (compactReg rd) (compactReg rd)
  | andi imm rd => .regImm .andi (imm.signExtend 12) (compactReg rd) (compactReg rd)
  | reg op rd rs2 => .reg op.op (compactReg rd) (compactReg rd) (compactReg rs2)
  | slli shamt rd => .shift .slli shamt rd rd
  | mv rd rs2 _ => .reg .add rd 0 rs2
  | add rd rs2 _ => .reg .add rd rd rs2
  | jump k => .jal (k.signExtend 20) 0
  | branch true k rs1 => .branch .beq (k.signExtend 12) (compactReg rs1) 0
  | branch false k rs1 => .branch .bne (k.signExtend 12) (compactReg rs1) 0

/-- The one whose body the decoder calls: `c.mv` is an `addi` of zero. -/
def decoded : CompactBase → BaseInstr
  | mv rd rs2 _ => .regImm .addi 0 rd rs2
  | c => c.expand

/-- The words of each form that mean something else. -/
def avoid : CompactBase → List (BitVec 32 × BitVec 32)
  | addi4spn _ _ _ => [(0xffe3, 0)]
  | addiw _ _ _ => [(0xef83, 0x2001)]
  | addi16sp _ _ => [(0xf07f, 0x6001)]
  | lui _ _ _ _ =>
      [(0xffff, 0x6081), (0xffff, 0x6281), (0xf8ff, 0x6081), (0xf07f, 0x6001), (0xef83, 0x6101)]
  | mv _ _ _ => [(0xffff, 0x8002), (0xf07f, 0x8002)]
  | add _ _ _ => [(0xffff, 0x9002), (0xf07f, 0x9002)]
  | _ => []

/-- The words of these instructions are none of those that the rows before would take. -/
theorem avoided (c : CompactBase) : ∀ q ∈ c.avoid, c.word &&& q.1 ≠ q.2 := by
  cases c with
  | addi4spn k rd moves =>
      have whole : ∀ k : BitVec 8, (payload4spn k 0).extractLsb' 3 8 = 0 → k = 0 := by decide
      have upper : (payload4spn k rd).extractLsb' 3 8 = (payload4spn k 0).extractLsb' 3 8 := by
        rw [payload4spn, payload4spn, extractLsb'_above 0 rfl, extractLsb'_above 0 rfl]
      refine List.forall_mem_singleton.2 (and_ne_of_field 5 8 (by decide) ?_)
      rw [word, field_wordC 0 0 (payload4spn k rd) 8 (show 3 + 8 ≤ 11 by decide), upper]
      exact fun clear => moves (whole k clear)
  | addiw imm rd named =>
      refine List.forall_mem_singleton.2 (and_ne_of_field 7 5 (by decide) ?_)
      rw [word, (fields_payloadImm 0b001 1 imm rd).2]
      exact named
  | addi16sp k moves =>
      have whole : ∀ k : BitVec 6, k.extractLsb' 5 1 = 0 →
          (k.extractLsb' 0 1 ++ k.extractLsb' 2 1 ++ k.extractLsb' 3 2 ++
            k.extractLsb' 1 1) = 0 → k = 0 := by decide
      obtain ⟨high, -, low⟩ := fields_payloadI 0b011 1 (k.extractLsb' 5 1) 2
        (k.extractLsb' 0 1 ++ k.extractLsb' 2 1 ++ k.extractLsb' 3 2 ++ k.extractLsb' 1 1)
      refine List.forall_mem_singleton.2 ?_
      by_cases top : k.extractLsb' 5 1 = 0
      · refine and_ne_of_field 2 5 (by decide) ?_
        rw [word, payload16sp, low]
        exact fun rest => moves (whole k top rest)
      · refine and_ne_of_field 12 1 (by decide) ?_
        rw [word, payload16sp, high]
        exact top
  | lui imm rd loads other =>
      simp only [avoid, List.forall_mem_cons]
      refine ⟨and_ne_of_imm loads (by decide) (by decide), and_ne_of_imm loads (by decide)
        (by decide), and_ne_of_imm loads (by decide) (by decide), and_ne_of_imm loads (by decide)
        (by decide), and_ne_of_field 7 5 (by decide) ?_, List.forall_mem_nil _⟩
      rw [word, (fields_payloadImm 0b011 1 imm rd).2]
      exact other
  | mv rd rs2 named =>
      obtain ⟨-, -, source⟩ := fields_payloadI 0b100 2 0 rd rs2
      simp only [avoid, List.forall_mem_cons]
      refine ⟨and_ne_of_field 2 5 (by decide) ?_, and_ne_of_field 2 5 (by decide) ?_,
        List.forall_mem_nil _⟩ <;>
      · rw [word, source]
        exact named
  | add rd rs2 named =>
      obtain ⟨-, -, source⟩ := fields_payloadI 0b100 2 1 rd rs2
      simp only [avoid, List.forall_mem_cons]
      refine ⟨and_ne_of_field 2 5 (by decide) ?_, and_ne_of_field 2 5 (by decide) ?_,
        List.forall_mem_nil _⟩ <;>
      · rw [word, source]
        exact named
  | _ => exact List.forall_mem_nil _

/-- Two bits above a short register. -/
theorem funct2_holds (imm : BitVec 6) (funct2 : BitVec 2) (rd : BitVec 3) :
    (patternC 0b100 (payloadI 0#1 (BitVec.allOnes 2 ++ 0#3) 0#5) (payloadI 0#1 (funct2 ++ 0#3) 0#5)
      1 []).Holds
      (wordC 0b100 (payloadImm imm (funct2 ++ rd)) 1) := by
  refine patternC_holds ?_ (List.forall_mem_nil _)
  rw [payloadImm, payloadI_and, BitVec.and_append, BitVec.and_allOnes, BitVec.and_zero,
    BitVec.and_zero, BitVec.and_zero]

/-- The operations on two compact registers have one pattern each. -/
theorem reg_holds (op : CompactReg) (rd rs2 : BitVec 3) :
    (patternC 0b100 (payloadL (.allOnes 3) 0#3 (.allOnes 2) 0#3)
      (payloadL op.high 0#3 op.funct2 0#3) 1 []).Holds
      (wordC 0b100 (payloadL op.high rd op.funct2 rs2) 1) := by
  refine patternC_holds ?_ (List.forall_mem_nil _)
  rw [payloadL_and, BitVec.and_allOnes, BitVec.and_allOnes, BitVec.and_zero, BitVec.and_zero]

/-- One bit above a register. -/
theorem high_holds (high : BitVec 1) (rd rs2 : BitVec 5) {avoid : List (BitVec 32 × BitVec 32)}
    (avoided : ∀ q ∈ avoid, wordC 0b100 (payloadI high rd rs2) 2 &&& q.1 ≠ q.2) :
    (patternC 0b100 (payloadI (.allOnes 1) 0#5 0#5) (payloadI high 0#5 0#5) 2 avoid).Holds
      (wordC 0b100 (payloadI high rd rs2) 2) := by
  refine patternC_holds ?_ avoided
  rw [payloadI_and, BitVec.and_allOnes, BitVec.and_zero, BitVec.and_zero]

/-- The decoder takes the word for the instruction. -/
theorem selected_eq (c : CompactBase) : selected c.word true = c.decoded.body := by
  have free {funct3 : BitVec 3} {payload : BitVec 11} {quadrant : BitVec 2}
      (form : c.word = wordC funct3 payload quadrant) :
      (patternC funct3 0 0 quadrant c.avoid).Holds c.word := by
    rw [form]
    exact patternC_holds BitVec.and_zero (form ▸ c.avoided)
  cases c with
  | addi4spn k rd moves =>
      have holds : (patternC 0 0 0 0 [(0xffe3, 0)]).Holds _ := free rfl
      refine (selected16_of_dispatch holds rfl rfl).trans (congrArg transAddi ?_)
      exact extractCAddi4spn_wordC 0 0 k rd
  | addi imm rd =>
      have holds : (patternC 0 0 0 1 []).Holds _ := free rfl
      refine (selected16_of_dispatch holds rfl rfl).trans (congrArg transAddi ?_)
      exact extractCi_wordC 0 1 imm rd
  | addiw imm rd named =>
      have holds : (patternC 1 0 0 1 [(0xef83, 0x2001)]).Holds _ := free rfl
      refine (selected16_of_dispatch holds rfl rfl).trans (congrArg transAddiw ?_)
      exact extractCi_wordC 1 1 imm rd
  | li imm rd =>
      have holds : (patternC 2 0 0 1 []).Holds _ := free rfl
      refine (selected16_of_dispatch holds rfl rfl).trans (congrArg transAddi ?_)
      exact extractCLi_wordC 2 1 imm rd
  | addi16sp k moves =>
      have fixed : payload16sp k &&& payloadI 0#1 (.allOnes 5) 0#5 = payloadI 0#1 2 0#5 := by
        rw [payload16sp, payloadI_and, BitVec.and_zero, BitVec.and_allOnes, BitVec.and_zero]
      have holds : (patternC 0b011 (payloadI 0#1 (.allOnes 5) 0#5) (payloadI 0#1 2 0#5) 1
          [(0xf07f, 0x6001)]).Holds (wordC 0b011 (payload16sp k) 1) :=
        patternC_holds fixed (avoided (addi16sp k moves))
      refine (selected16_of_dispatch holds rfl rfl).trans (congrArg transAddi ?_)
      exact extractCAddi16sp_wordC 3 1 k
  | lui imm rd loads other =>
      have holds : (patternC 3 0 0 1 [(0xffff, 0x6081), (0xffff, 0x6281), (0xf8ff, 0x6081),
          (0xf07f, 0x6001), (0xef83, 0x6101)]).Holds _ := free rfl
      refine (selected16_of_dispatch holds rfl rfl).trans (congrArg transLui ?_)
      exact extractCLui_wordC 3 1 imm rd
  | slli shamt rd =>
      have holds : (patternC 0 0 0 2 []).Holds _ := free rfl
      refine (selected16_of_dispatch holds rfl rfl).trans (congrArg transSlli ?_)
      exact extractCShift2_wordC 0 2 shamt rd
  | jump k =>
      have holds : (patternC 5 0 0 1 []).Holds _ := free rfl
      refine (selected16_of_dispatch holds rfl rfl).trans (congrArg transJal ?_)
      exact extractCj_wordC 5 1 0 k
  | branch equal k rs1 =>
      cases equal with
      | true =>
          have holds : (patternC 6 0 0 1 []).Holds _ := free rfl
          refine (selected16_of_dispatch holds rfl rfl).trans (congrArg transBeq ?_)
          exact extractCbZ_wordC 6 1 k rs1
      | false =>
          have holds : (patternC 7 0 0 1 []).Holds _ := free rfl
          refine (selected16_of_dispatch holds rfl rfl).trans (congrArg transBne ?_)
          exact extractCbZ_wordC 7 1 k rs1
  | shiftRight signed shamt rd =>
      cases signed with
      | false =>
          refine (selected16_of_dispatch (funct2_holds shamt 0 rd) rfl rfl).trans
            (congrArg transSrli ?_)
          exact extractCShift_wordC 4 1 shamt 0 rd
      | true =>
          refine (selected16_of_dispatch (funct2_holds shamt 1 rd) rfl rfl).trans
            (congrArg transSrai ?_)
          exact extractCShift_wordC 4 1 shamt 1 rd
  | andi imm rd =>
      refine (selected16_of_dispatch (funct2_holds imm 2 rd) rfl rfl).trans (congrArg transAndi ?_)
      exact extractCAndi_wordC 4 1 imm 2 rd
  | reg op rd rs2 =>
      have args := extractCs2_wordC 4 1 op.high rd op.funct2 rs2
      have holds := reg_holds op rd rs2
      cases op with
      | sub => exact (selected16_of_dispatch holds rfl rfl).trans (congrArg transSub args)
      | xor => exact (selected16_of_dispatch holds rfl rfl).trans (congrArg transXor args)
      | or => exact (selected16_of_dispatch holds rfl rfl).trans (congrArg transOr args)
      | and => exact (selected16_of_dispatch holds rfl rfl).trans (congrArg transAnd args)
      | subw => exact (selected16_of_dispatch holds rfl rfl).trans (congrArg transSubw args)
      | addw => exact (selected16_of_dispatch holds rfl rfl).trans (congrArg transAddw args)
  | mv rd rs2 named =>
      have holds : (patternC 4 _ _ 2 [(0xffff, 0x8002), (0xf07f, 0x8002)]).Holds _ :=
        high_holds 0 rd rs2 (avoided (mv rd rs2 named))
      refine (selected16_of_dispatch holds rfl rfl).trans (congrArg transAddi ?_)
      exact extractCMv_wordC 4 2 0 rd rs2
  | add rd rs2 named =>
      have holds : (patternC 4 _ _ 2 [(0xffff, 0x9002), (0xf07f, 0x9002)]).Holds _ :=
        high_holds 1 rd rs2 (avoided (add rd rs2 named))
      refine (selected16_of_dispatch holds rfl rfl).trans (congrArg transAdd ?_)
      exact extractCr_wordC 4 2 1 rd rs2

end CompactBase

end CPUDelaySim.Riscv
