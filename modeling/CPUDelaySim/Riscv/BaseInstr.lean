import CPUDelaySim.Riscv.Encode

/-!
# The base instructions

The computations, branches and jumps of RV64I in their 32-bit encodings, with the results
the manual gives them, and the bodies that the decoder finds for their words.  The row of
`lpad` comes before that of `auipc` and takes its words for `x0`.
-/

namespace CPUDelaySim.Riscv

variable {δ : Type}

/-! ### Formats -/

/-- The B format, for an offset in halfwords. -/
def wordB (imm : BitVec 12) (rs2 rs1 : BitVec 5) (funct3 : BitVec 3) (opcode : BitVec 7) :
    BitVec 32 :=
  wordI ((imm.extractLsb' 11 1 ++ imm.extractLsb' 4 6 : BitVec 7) ++ rs2) rs1 funct3
    (imm.extractLsb' 0 4 ++ imm.extractLsb' 10 1) opcode

/-- The U format. -/
def wordU (imm : BitVec 20) (rd : BitVec 5) (opcode : BitVec 7) : BitVec 32 :=
  (imm ++ rd ++ opcode :)

/-- The J format, for an offset in halfwords. -/
def wordJ (imm : BitVec 20) (rd : BitVec 5) (opcode : BitVec 7) : BitVec 32 :=
  wordU (imm.extractLsb' 19 1 ++ imm.extractLsb' 0 10 ++ imm.extractLsb' 10 1 ++
    imm.extractLsb' 11 8 :) rd opcode

/-- The bits of the opcode. -/
def patternU (opcode : BitVec 7) (avoid : List (BitVec 32 × BitVec 32)) : Pattern :=
  ⟨0x7f, wordU 0 0 opcode, avoid⟩

/-- The mask of a row acts on a U-type word field by field. -/
theorem wordU_and (imm imm' : BitVec 20) (rd rd' : BitVec 5) (opcode opcode' : BitVec 7) :
    wordU imm rd opcode &&& wordU imm' rd' opcode' =
      wordU (imm &&& imm') (rd &&& rd') (opcode &&& opcode') := by
  refine BitVec.and_append.trans ?_
  simp only [BitVec.and_append]
  rfl

/-- A word is of the pattern with its opcode. -/
theorem patternU_holds {imm : BitVec 20} {rd : BitVec 5} {opcode : BitVec 7}
    {avoid : List (BitVec 32 × BitVec 32)}
    (avoided : ∀ q ∈ avoid, wordU imm rd opcode &&& q.1 ≠ q.2) :
    (patternU opcode avoid).Holds (wordU imm rd opcode) := by
  have mask : (0x7f : BitVec 32) = wordU 0#20 0#5 (.allOnes 7) := rfl
  refine ⟨?_, avoided⟩
  rw [patternU, mask, wordU_and]
  simp only [BitVec.and_allOnes, BitVec.and_zero]
  rfl

/-- The fields of a U-type word are read back. -/
theorem fields_wordU (imm : BitVec 20) (rd : BitVec 5) (opcode : BitVec 7) :
    field (wordU imm rd opcode) 12 20 = imm ∧ field (wordU imm rd opcode) 7 5 = rd := by
  unfold field wordU
  refine ⟨?_, ?_⟩
  · rw [extractLsb'_above 5 rfl, extractLsb'_above 0 rfl, BitVec.extractLsb'_eq_self]
  · rw [extractLsb'_above 0 rfl, extractLsb'_last]

/-- The arguments of a U-type word, its immediate in place. -/
theorem extractU_wordU (imm : BitVec 20) (rd : BitVec 5) (opcode : BitVec 7) :
    extractU (wordU imm rd opcode) = ⟨(imm ++ 0#12).signExtend 64, rd⟩ := by
  obtain ⟨upper, register⟩ := fields_wordU imm rd opcode
  rw [extractU, upper, register]

/-- The arguments of JAL, its offset put together. -/
theorem extractJ_wordJ (imm : BitVec 20) (rd : BitVec 5) (opcode : BitVec 7) :
    extractJ (wordJ imm rd opcode) = ⟨(imm ++ 0#1).signExtend 64, rd⟩ := by
  obtain ⟨pieces, register⟩ := fields_wordU (imm.extractLsb' 19 1 ++ imm.extractLsb' 0 10 ++
    imm.extractLsb' 10 1 ++ imm.extractLsb' 11 8 :) rd opcode
  have top : field (wordJ imm rd opcode) 31 1 = imm.extractLsb' 19 1 := by
    rw [wordJ, field_sub _ 12 20 19 1 (by decide), pieces, extractLsb'_above 11 rfl,
      extractLsb'_above 10 rfl, extractLsb'_above 0 rfl, BitVec.extractLsb'_eq_self]
  have low : field (wordJ imm rd opcode) 21 10 = imm.extractLsb' 0 10 := by
    rw [wordJ, field_sub _ 12 20 9 10 (by decide), pieces, extractLsb'_above 1 rfl,
      extractLsb'_above 0 rfl, extractLsb'_last]
  have middle : field (wordJ imm rd opcode) 20 1 = imm.extractLsb' 10 1 := by
    rw [wordJ, field_sub _ 12 20 8 1 (by decide), pieces, extractLsb'_above 0 rfl,
      extractLsb'_last]
  have high : field (wordJ imm rd opcode) 12 8 = imm.extractLsb' 11 8 := by
    rw [wordJ, field_sub _ 12 20 0 8 (by decide), pieces, extractLsb'_last]
  have whole : imm.extractLsb' 19 1 ++ imm.extractLsb' 11 8 ++ imm.extractLsb' 10 1 ++
      imm.extractLsb' 0 10 = imm := by
    repeat rw [BitVec.extractLsb'_append_extractLsb'_eq_extractLsb' (by rfl)]
    exact BitVec.extractLsb'_eq_self
  rw [extractJ, top, high, middle, low, whole, wordJ, register]

/-- The arguments of a branch, its offset put together. -/
theorem extractB_wordB (imm : BitVec 12) (rs2 rs1 : BitVec 5) (funct3 : BitVec 3)
    (opcode : BitVec 7) :
    extractB (wordB imm rs2 rs1 funct3 opcode) = ⟨(imm ++ 0#1).signExtend 64, rs2, rs1⟩ := by
  obtain ⟨pieces, first, rest⟩ := fields_wordI rs1 funct3
    (imm.extractLsb' 0 4 ++ imm.extractLsb' 10 1) opcode
    ((imm.extractLsb' 11 1 ++ imm.extractLsb' 4 6 : BitVec 7) ++ rs2)
  have top : field (wordB imm rs2 rs1 funct3 opcode) 31 1 = imm.extractLsb' 11 1 := by
    rw [wordB, field_sub _ 20 12 11 1 (by decide), pieces, extractLsb'_above 6 rfl,
      extractLsb'_above 0 rfl, BitVec.extractLsb'_eq_self]
  have high : field (wordB imm rs2 rs1 funct3 opcode) 25 6 = imm.extractLsb' 4 6 := by
    rw [wordB, field_sub _ 20 12 5 6 (by decide), pieces, extractLsb'_above 0 rfl,
      extractLsb'_last]
  have second : field (wordB imm rs2 rs1 funct3 opcode) 20 5 = rs2 := by
    rw [wordB, field_sub _ 20 12 0 5 (by decide), pieces, extractLsb'_last]
  have low : field (wordB imm rs2 rs1 funct3 opcode) 8 4 = imm.extractLsb' 0 4 := by
    rw [wordB, field_sub _ 7 5 1 4 (by decide), rest, extractLsb'_above 0 rfl,
      BitVec.extractLsb'_eq_self]
  have next : field (wordB imm rs2 rs1 funct3 opcode) 7 1 = imm.extractLsb' 10 1 := by
    rw [wordB, field_sub _ 7 5 0 1 (by decide), rest, extractLsb'_last]
  have whole : imm.extractLsb' 11 1 ++ imm.extractLsb' 10 1 ++ imm.extractLsb' 4 6 ++
      imm.extractLsb' 0 4 = imm := by
    repeat rw [BitVec.extractLsb'_append_extractLsb'_eq_extractLsb' (by rfl)]
    exact BitVec.extractLsb'_eq_self
  rw [extractB, top, next, high, low, whole, second, wordB, first]

/-! ### Two sources -/

/-- The instructions on two registers. -/
inductive BaseReg
  | add | sub | sll | slt | sltu | xor | srl | sra | or | and
  | addw | subw | sllw | srlw | sraw
  deriving DecidableEq, Repr

namespace BaseReg

def funct7 : BaseReg → BitVec 7
  | sub | sra | subw | sraw => 0b0100000
  | _ => 0

def funct3 : BaseReg → BitVec 3
  | add | sub | addw | subw => 0b000
  | sll | sllw => 0b001
  | slt => 0b010
  | sltu => 0b011
  | xor => 0b100
  | srl | sra | srlw | sraw => 0b101
  | or => 0b110
  | and => 0b111

def opcode : BaseReg → BitVec 7
  | addw | subw | sllw | srlw | sraw => 0x3b
  | _ => 0x33

def word (op : BaseReg) (rd rs1 rs2 : BitVec 5) : BitVec 32 :=
  wordR op.funct7 rs2 rs1 op.funct3 rd op.opcode

/-- The body of the instruction. -/
def trans : BaseReg → ArgR → Body
  | add => transAdd
  | sub => transSub
  | sll => transSll
  | slt => transSlt
  | sltu => transSltu
  | xor => transXor
  | srl => transSrl
  | sra => transSra
  | or => transOr
  | and => transAnd
  | addw => transAddw
  | subw => transSubw
  | sllw => transSllw
  | srlw => transSrlw
  | sraw => transSraw

/-- The value that the manual gives `rd`. -/
def result (op : BaseReg) (v u : Word) : Word :=
  match op with
  | add => v + u
  | sub => v - u
  | sll => v <<< (u.toNat % 64)
  | slt => if v.toInt < u.toInt then 1 else 0
  | sltu => if v.toNat < u.toNat then 1 else 0
  | xor => v ^^^ u
  | srl => v >>> (u.toNat % 64)
  | sra => v.sshiftRight (u.toNat % 64)
  | or => v ||| u
  | and => v &&& u
  | addw => (v.setWidth 32 + u.setWidth 32).signExtend 64
  | subw => (v.setWidth 32 - u.setWidth 32).signExtend 64
  | sllw => (v.setWidth 32 <<< (u.toNat % 32)).signExtend 64
  | srlw => (v.setWidth 32 >>> (u.toNat % 32)).signExtend 64
  | sraw => ((v.setWidth 32).sshiftRight (u.toNat % 32)).signExtend 64

end BaseReg

/-- Equal functions make equal bodies. -/
theorem intR_congr (a : ArgR) {f g : Word → Word → Word} (same : ∀ v u, f v u = g v u) :
    intR a f = intR a g :=
  congrArg (intR a) (funext fun v => funext (same v))

/-- SLT is one or zero. -/
theorem ofBool_slt (v u : Word) : ofBool (v.slt u) = if v.toInt < u.toInt then 1 else 0 := by
  simp [ofBool, BitVec.slt_iff_toInt_lt]

/-- SLTU is one or zero. -/
theorem ofBool_ult (v u : Word) : ofBool (v.ult u) = if v.toNat < u.toNat then 1 else 0 := by
  simp [ofBool, BitVec.ult]

/-- The low half of a shifted word is the shifted low half. -/
theorem setWidth_shiftLeft (v : Word) (n : Nat) :
    (v <<< n).setWidth 32 = v.setWidth 32 <<< n := by
  ext i bound
  simp only [BitVec.getElem_setWidth, BitVec.getLsbD_shiftLeft, BitVec.getElem_shiftLeft]
  by_cases low : i < n
  · simp [low]
  · simp [low, show i < 64 by omega]

namespace BaseReg

/-- The body computes it. -/
theorem trans_eq (op : BaseReg) (a : ArgR) : op.trans a = intR a op.result := by
  cases op with
  | add | sub | xor | or | and | addw | subw => rfl
  | sll | srl | sra =>
      simp only [trans, transSll, transSrl, transSra]
      refine intR_congr a fun v u => ?_
      rw [sh6_eq]
      rfl
  | slt => exact intR_congr a ofBool_slt
  | sltu => exact intR_congr a ofBool_ult
  | sllw =>
      simp only [trans, transSllw]
      refine intR_congr a fun v u => ?_
      rw [sh5_eq, sext32, setWidth_shiftLeft]
      rfl
  | srlw | sraw =>
      simp only [trans, transSrlw, transSraw]
      refine intR_congr a fun v u => ?_
      rw [sh5_eq]
      rfl

/-- The decoder picks the translation of the instruction from its word. -/
theorem selected_eq (op : BaseReg) (rd rs1 rs2 : BitVec 5) :
    selected (op.word rd rs1 rs2) false = op.trans ⟨rd, rs1, rs2⟩ := by
  have holds : (patternR op.funct7 op.funct3 op.opcode []).Holds (op.word rd rs1 rs2) :=
    patternR_holds (by simp)
  have args : extractR (op.word rd rs1 rs2) = ⟨rd, rs1, rs2⟩ := extractR_wordR _ _ _ _ _ _
  rw [← args]
  cases op <;> exact selected_of_dispatch holds rfl rfl rfl

end BaseReg

/-! ### An immediate -/

/-- The instructions on a register and an immediate. -/
inductive BaseImm
  | addi | slti | sltiu | xori | ori | andi | addiw
  deriving DecidableEq, Repr

namespace BaseImm

def funct3 : BaseImm → BitVec 3
  | addi | addiw => 0b000
  | slti => 0b010
  | sltiu => 0b011
  | xori => 0b100
  | ori => 0b110
  | andi => 0b111

def opcode : BaseImm → BitVec 7
  | addiw => 0x1b
  | _ => 0x13

def word (op : BaseImm) (imm : BitVec 12) (rd rs1 : BitVec 5) : BitVec 32 :=
  wordI imm rs1 op.funct3 rd op.opcode

/-- The body of the instruction. -/
def trans : BaseImm → ArgI → Body
  | addi => transAddi
  | slti => transSlti
  | sltiu => transSltiu
  | xori => transXori
  | ori => transOri
  | andi => transAndi
  | addiw => transAddiw

/-- The value that the manual gives `rd`, for the sign-extended immediate. -/
def result (op : BaseImm) (v imm : Word) : Word :=
  match op with
  | addi => v + imm
  | slti => if v.toInt < imm.toInt then 1 else 0
  | sltiu => if v.toNat < imm.toNat then 1 else 0
  | xori => v ^^^ imm
  | ori => v ||| imm
  | andi => v &&& imm
  | addiw => ((v + imm).setWidth 32).signExtend 64

/-- Equal functions make equal bodies. -/
theorem intI_congr (a : ArgI) {f g : Word → Word → Word} (same : ∀ v u, f v u = g v u) :
    intI a f = intI a g :=
  congrArg (intI a) (funext fun v => funext (same v))

/-- The body computes it. -/
theorem trans_eq (op : BaseImm) (a : ArgI) : op.trans a = intI a op.result := by
  cases op with
  | addi | xori | ori | andi | addiw => rfl
  | slti => exact intI_congr a ofBool_slt
  | sltiu => exact intI_congr a ofBool_ult

/-- The decoder picks the translation of the instruction from its word. -/
theorem selected_eq (op : BaseImm) (imm : BitVec 12) (rd rs1 : BitVec 5) :
    selected (op.word imm rd rs1) false = op.trans ⟨imm.signExtend 64, rs1, rd⟩ := by
  have holds : (patternI op.funct3 op.opcode).Holds (op.word imm rd rs1) := patternI_holds
  have args : extractI (op.word imm rd rs1) = ⟨imm.signExtend 64, rs1, rd⟩ :=
    extractI_wordI _ _ _ _ _
  rw [← args]
  cases op <;> exact selected_of_dispatch holds patternI_opcode rfl rfl

end BaseImm

/-! ### Shifts -/

/-- The shifts by a constant. -/
inductive BaseShift
  | slli | srli | srai
  deriving DecidableEq, Repr

namespace BaseShift

def funct6 : BaseShift → BitVec 6
  | srai => 0b010000
  | _ => 0

def funct3 : BaseShift → BitVec 3
  | slli => 0b001
  | _ => 0b101

def word (op : BaseShift) (shamt : BitVec 6) (rd rs1 : BitVec 5) : BitVec 32 :=
  wordShift op.funct6 shamt rs1 op.funct3 rd 0x13

/-- The word of the W form. -/
def wordW (op : BaseShift) (shamt rd rs1 : BitVec 5) : BitVec 32 :=
  wordR (op.funct6 ++ 0#1) shamt rs1 op.funct3 rd 0x1b

/-- The body of the instruction. -/
def trans : BaseShift → ArgShift → Body
  | slli => transSlli
  | srli => transSrli
  | srai => transSrai

/-- How the shifts of the low word are translated. -/
def transW : BaseShift → ArgShift → Body
  | slli => transSlliw
  | srli => transSrliw
  | srai => transSraiw

/-- The shift of a word of any width. -/
def result {w : Nat} (op : BaseShift) (v : BitVec w) (n : Nat) : BitVec w :=
  match op with
  | slli => v <<< n
  | srli => v >>> n
  | srai => v.sshiftRight n

/-- An amount below the width is shifted by. -/
theorem intShift_eq {bits n : Nat} {shamt : BitVec n} (wide : n ≤ 7)
    (small : shamt.toNat < bits) (rd rs1 : BitVec 5) (f : Word → Nat → Word) :
    intShift bits ⟨shamt.setWidth 7, rs1, rd⟩ f =
      .compute rd (fun s _ => some (f (s.gpr rs1) shamt.toNat)) .int := by
  have amount : (shamt.setWidth 7).toNat = shamt.toNat := BitVec.toNat_setWidth_of_le wide
  unfold intShift
  rw [amount]
  simp only [small, if_true]

/-- A shift by an immediate takes six bits of it. -/
theorem trans_eq (op : BaseShift) (shamt : BitVec 6) (rd rs1 : BitVec 5) :
    op.trans ⟨shamt.setWidth 7, rs1, rd⟩ =
      .compute rd (fun s _ => some (op.result (s.gpr rs1) shamt.toNat)) .int := by
  have small : shamt.toNat < 64 := shamt.isLt
  cases op <;> exact intShift_eq (show 6 ≤ 7 by decide) small rd rs1 _

/-- A shift of the low word takes five bits, and extends the result. -/
theorem transW_eq (op : BaseShift) (shamt rd rs1 : BitVec 5) :
    op.transW ⟨shamt.setWidth 7, rs1, rd⟩ = .compute rd (fun s _ =>
      some ((op.result ((s.gpr rs1).setWidth 32) shamt.toNat).signExtend 64)) .int := by
  cases op with
  | slli =>
      have small : shamt.toNat < 64 := Nat.lt_trans shamt.isLt (by decide)
      simp only [transW, transSlliw, sext32, setWidth_shiftLeft]
      exact intShift_eq (show 5 ≤ 7 by decide) small rd rs1 _
  | srli | srai =>
      have small : shamt.toNat < 32 := shamt.isLt
      simp only [transW, transSrliw, transSraiw]
      exact intShift_eq (show 5 ≤ 7 by decide) small rd rs1 _

/-- The decoder picks the translation of the shift from its word. -/
theorem selected_eq (op : BaseShift) (shamt : BitVec 6) (rd rs1 : BitVec 5) :
    selected (op.word shamt rd rs1) false = op.trans ⟨shamt.setWidth 7, rs1, rd⟩ := by
  have holds : (patternShift op.funct6 op.funct3 0x13).Holds (op.word shamt rd rs1) :=
    patternShift_holds
  have args : extractSh (op.word shamt rd rs1) = ⟨shamt.setWidth 7, rs1, rd⟩ :=
    extractSh_wordShift _ _ _ _ (by cases op <;> rfl) _
  rw [← args]
  cases op <;> exact selected_of_dispatch holds rfl rfl rfl

/-- It does so for the shifts of the low word. -/
theorem selectedW_eq (op : BaseShift) (shamt rd rs1 : BitVec 5) :
    selected (op.wordW shamt rd rs1) false = op.transW ⟨shamt.setWidth 7, rs1, rd⟩ := by
  have holds : (patternR (op.funct6 ++ 0#1) op.funct3 0x1b []).Holds (op.wordW shamt rd rs1) :=
    patternR_holds (by simp)
  have args : extractSh5 (op.wordW shamt rd rs1) = ⟨shamt.setWidth 7, rs1, rd⟩ :=
    extractSh5_wordR _ _ _ _ _ _
  rw [← args]
  cases op <;> exact selected_of_dispatch holds rfl rfl rfl

end BaseShift

/-! ### Branches -/

/-- The conditional branches. -/
inductive BaseBranch
  | beq | bne | blt | bge | bltu | bgeu
  deriving DecidableEq, Repr

namespace BaseBranch

def funct3 : BaseBranch → BitVec 3
  | beq => 0b000
  | bne => 0b001
  | blt => 0b100
  | bge => 0b101
  | bltu => 0b110
  | bgeu => 0b111

def word (op : BaseBranch) (imm : BitVec 12) (rs1 rs2 : BitVec 5) : BitVec 32 :=
  wordB imm rs2 rs1 op.funct3 0x63

/-- The body of the instruction. -/
def trans : BaseBranch → ArgB → Body
  | beq => transBeq
  | bne => transBne
  | blt => transBlt
  | bge => transBge
  | bltu => transBltu
  | bgeu => transBgeu

/-- The condition under which the manual has the branch taken. -/
def Taken (op : BaseBranch) (v u : Word) : Prop :=
  match op with
  | beq => v = u
  | bne => v ≠ u
  | blt => v.toInt < u.toInt
  | bge => u.toInt ≤ v.toInt
  | bltu => v.toNat < u.toNat
  | bgeu => u.toNat ≤ v.toNat

instance (op : BaseBranch) (v u : Word) : Decidable (op.Taken v u) := by
  unfold Taken
  split <;> infer_instance

/-- A branch on a test is a branch on what the test decides. -/
theorem condB_decide (a : ArgB) {f : Word → Word → Bool} {p : Word → Word → Prop}
    [∀ v u, Decidable (p v u)] (same : ∀ v u, f v u = true ↔ p v u) :
    condB a f = condB a fun v u => decide (p v u) := by
  have test (v u : Word) : f v u = decide (p v u) := by
    rw [Bool.eq_iff_iff, same, decide_eq_true_iff]
  exact congrArg (condB a) (funext fun v => funext (test v))

/-- The body tests it. -/
theorem trans_eq (op : BaseBranch) (a : ArgB) :
    op.trans a = condB a fun v u => decide (op.Taken v u) := by
  cases op with
  | beq | bne =>
      simp only [trans, transBeq, transBne]
      refine condB_decide a fun v u => ?_
      simp [Taken]
  | blt | bge | bltu | bgeu =>
      simp only [trans, transBlt, transBge, transBltu, transBgeu]
      refine condB_decide a fun v u => ?_
      simp [Taken, BitVec.slt, BitVec.ult]

/-- The decoder picks the translation of the branch from its word. -/
theorem selected_eq (op : BaseBranch) (imm : BitVec 12) (rs1 rs2 : BitVec 5) :
    selected (op.word imm rs1 rs2) false = op.trans ⟨(imm ++ 0#1).signExtend 64, rs2, rs1⟩ := by
  have holds : (patternI op.funct3 0x63).Holds (op.word imm rs1 rs2) := patternI_holds
  have args : extractB (op.word imm rs1 rs2) = ⟨(imm ++ 0#1).signExtend 64, rs2, rs1⟩ :=
    extractB_wordB _ _ _ _ _
  rw [← args]
  cases op <;> exact selected_of_dispatch holds patternI_opcode rfl rfl

end BaseBranch

/-! ### The instructions -/

/-- An instruction with its operands; branches and jumps count halfwords. -/
inductive BaseInstr
  | reg (op : BaseReg) (rd rs1 rs2 : BitVec 5)
  | regImm (op : BaseImm) (imm : BitVec 12) (rd rs1 : BitVec 5)
  | shift (op : BaseShift) (shamt : BitVec 6) (rd rs1 : BitVec 5)
  | shiftW (op : BaseShift) (shamt rd rs1 : BitVec 5)
  | lui (imm : BitVec 20) (rd : BitVec 5)
  | auipc (imm : BitVec 20) (rd : BitVec 5)
  | branch (op : BaseBranch) (imm : BitVec 12) (rs1 rs2 : BitVec 5)
  | jal (imm : BitVec 20) (rd : BitVec 5)
  deriving DecidableEq, Repr

namespace BaseInstr

def word : BaseInstr → BitVec 32
  | reg op rd rs1 rs2 => op.word rd rs1 rs2
  | regImm op imm rd rs1 => op.word imm rd rs1
  | shift op shamt rd rs1 => op.word shamt rd rs1
  | shiftW op shamt rd rs1 => op.wordW shamt rd rs1
  | lui imm rd => wordU imm rd 0x37
  | auipc imm rd => wordU imm rd 0x17
  | branch op imm rs1 rs2 => op.word imm rs1 rs2
  | jal imm rd => wordJ imm rd 0x6f

/-- The body of the instruction. -/
def body : BaseInstr → Body
  | reg op rd rs1 rs2 => op.trans ⟨rd, rs1, rs2⟩
  | regImm op imm rd rs1 => op.trans ⟨imm.signExtend 64, rs1, rd⟩
  | shift op shamt rd rs1 => op.trans ⟨shamt.setWidth 7, rs1, rd⟩
  | shiftW op shamt rd rs1 => op.transW ⟨shamt.setWidth 7, rs1, rd⟩
  | lui imm rd => transLui ⟨(imm ++ 0#12).signExtend 64, rd⟩
  | auipc imm rd => transAuipc ⟨(imm ++ 0#12).signExtend 64, rd⟩
  | branch op imm rs1 rs2 => op.trans ⟨(imm ++ 0#1).signExtend 64, rs2, rs1⟩
  | jal imm rd => transJal ⟨(imm ++ 0#1).signExtend 64, rd⟩

/-- `auipc x0`, whose words are those of `lpad`. -/
def IsLpad : BaseInstr → Prop
  | auipc _ rd => rd = 0
  | _ => False

instance (i : BaseInstr) : Decidable i.IsLpad := by
  unfold IsLpad
  split <;> infer_instance

/-- The register that the instruction at `pc` writes, and the value. -/
def written (i : BaseInstr) (s : ArchState) (pc following : Word) : Option (BitVec 5 × Word) :=
  match i with
  | reg op rd rs1 rs2 => some (rd, op.result (s.gpr rs1) (s.gpr rs2))
  | regImm op imm rd rs1 => some (rd, op.result (s.gpr rs1) (imm.signExtend 64))
  | shift op shamt rd rs1 => some (rd, op.result (s.gpr rs1) shamt.toNat)
  | shiftW op shamt rd rs1 =>
      some (rd, (op.result ((s.gpr rs1).setWidth 32) shamt.toNat).signExtend 64)
  | lui imm rd => some (rd, (imm ++ 0#12).signExtend 64)
  | auipc imm rd => some (rd, pc + (imm ++ 0#12).signExtend 64)
  | branch _ _ _ _ => none
  | jal _ rd => some (rd, following)

/-- The address of the next instruction. -/
def next (i : BaseInstr) (s : ArchState) (pc following : Word) : Word :=
  match i with
  | branch op imm rs1 rs2 =>
      if op.Taken (s.gpr rs1) (s.gpr rs2) then pc + (imm ++ 0#1).signExtend 64 else following
  | jal imm _ => pc + (imm ++ 0#1).signExtend 64
  | _ => following

/-- The state that the manual asks for: `rd` alone is written, and `x0` never. -/
def after (i : BaseInstr) (s : ArchState) (pc following : Word) : ArchState :=
  match i.written s pc following with
  | none => s
  | some (rd, value) => if rd = 0 then s else s.set (.gpr rd) value

/-- With another destination than `x0`, AUIPC is not taken for LPAD. -/
theorem avoided_lpad {imm : BitVec 20} {rd : BitVec 5} (named : rd ≠ 0) :
    ∀ q ∈ [((0xfff : BitVec 32), (0x17 : BitVec 32))], wordU imm rd 0x17 &&& q.1 ≠ q.2 := by
  have mask : (0xfff : BitVec 32) = wordU 0#20 (.allOnes 5) (.allOnes 7) := rfl
  intro q listed same
  rw [List.mem_singleton.1 listed, mask, wordU_and, BitVec.and_allOnes] at same
  have register := congrArg (fun w => field w 7 5) same
  simp only [(fields_wordU _ _ _).2] at register
  exact named register

/-- The decoder takes the word for the instruction, but for `lpad`. -/
theorem selected_eq (i : BaseInstr) (other : ¬ i.IsLpad) : selected i.word false = i.body := by
  cases i with
  | reg op rd rs1 rs2 => exact op.selected_eq rd rs1 rs2
  | regImm op imm rd rs1 => exact op.selected_eq imm rd rs1
  | shift op shamt rd rs1 => exact op.selected_eq shamt rd rs1
  | shiftW op shamt rd rs1 => exact op.selectedW_eq shamt rd rs1
  | branch op imm rs1 rs2 => exact op.selected_eq imm rs1 rs2
  | lui imm rd =>
      have holds : (patternU 0x37 []).Holds (wordU imm rd 0x37) := patternU_holds (by simp)
      refine (selected_of_dispatch holds rfl rfl rfl).trans (congrArg transLui ?_)
      exact extractU_wordU imm rd 0x37
  | auipc imm rd =>
      have holds : (patternU 0x17 [(0xfff, 0x17)]).Holds (wordU imm rd 0x17) :=
        patternU_holds (avoided_lpad other)
      refine (selected_of_dispatch holds rfl rfl rfl).trans (congrArg transAuipc ?_)
      exact extractU_wordU imm rd 0x17
  | jal imm rd =>
      have holds : (patternU 0x6f []).Holds (wordJ imm rd 0x6f) := patternU_holds (by simp)
      refine (selected_of_dispatch holds rfl rfl rfl).trans (congrArg transJal ?_)
      exact extractJ_wordJ imm rd 0x6f

/-- `lpad` is not implemented. -/
theorem selected_lpad (imm : BitVec 20) :
    selected (auipc imm 0).word false = .notImplemented := by
  have mask : (0xfff : BitVec 32) = wordU 0#20 (.allOnes 5) (.allOnes 7) := rfl
  have holds : (⟨0xfff, 0x17, []⟩ : Pattern).Holds (wordU imm 0 0x17) := by
    refine ⟨?_, by simp⟩
    rw [mask, wordU_and]
    simp only [BitVec.and_zero, BitVec.and_allOnes]
    rfl
  exact selected_of_dispatch holds rfl rfl rfl

end BaseInstr

end CPUDelaySim.Riscv
