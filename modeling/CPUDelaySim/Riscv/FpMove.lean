import CPUDelaySim.Riscv.FpRound

/-!
# Moves between the register files, and boxed singles

A single-precision number lives in a 64-bit register under 32 ones.  The manual has moves
between the two files, the sign injections of both precisions, and one conversion out of
singles; every instruction with a single for its result boxes it.  The bodies are one shape,
a value and the register it goes to, so a wrong file or a wrong mask is still a body.  Five
of the moves are right on every state, four on some states, and the sign injections of
singles on none (`movesFp_iff`).

A move is described by its mask, its value and the file it goes to, and the tables are searched
once for all of them (`FpMove.trans`).  `Right` is the condition on the registers, and `Moves` what
is asked of an instruction with any library that answers.  The boxing half goes through all
instructions with a single for their result (`WritesSingle`), by their `funct5`.
-/

namespace CPUDelaySim.Riscv

variable {δ : Type}

open RiscvArch

/-! ### Boxes -/

/-- A single in a register. -/
def box (v : BitVec 32) : Word := BitVec.allOnes 32 ++ v

/-- The register holds a boxed single. -/
def IsBoxed (f : Word) : Prop := f.extractLsb' 32 32 = BitVec.allOnes 32

instance (f : Word) : Decidable (IsBoxed f) := by unfold IsBoxed; infer_instance

/-- The single in a register; the canonical NaN if there is none. -/
def unbox (f : Word) : BitVec 32 := if IsBoxed f then f.setWidth 32 else 0x7fc00000

section Halves

variable {w w' : Nat}

/-- A register of the unit has a high and a low half. -/
theorem exists_append (f : BitVec (w + w')) : ∃ hi : BitVec w, ∃ lo : BitVec w', f = hi ++ lo :=
  ⟨_, _, BitVec.extractLsb'_append_extractLsb'.symm⟩

/-- The high half is read back. -/
theorem extractLsb'_append_high (hi : BitVec w) (lo : BitVec w') :
    (hi ++ lo).extractLsb' w' w = hi := BitVec.extractLsb'_append_eq_left

/-- The low half is read back. -/
theorem setWidth_append_low (hi : BitVec w) (lo : BitVec w') : (hi ++ lo).setWidth w' = lo := by
  ext i bound
  simp [BitVec.getLsbD_append, bound]

/-- Boxing sets the high half to ones. -/
theorem or_append_ones (hi : BitVec w) (lo : BitVec w') :
    (hi ++ lo) ||| (BitVec.allOnes w ++ BitVec.ofNat w' 0) = BitVec.allOnes w ++ lo := by
  rw [BitVec.or_append, BitVec.or_allOnes, BitVec.or_zero]

/-- The test for a box looks at the high half. -/
theorem and_append_ones (hi : BitVec w) (lo : BitVec w') :
    (hi ++ lo) &&& (BitVec.allOnes w ++ BitVec.ofNat w' 0) =
        BitVec.allOnes w ++ BitVec.ofNat w' 0 ↔
      hi = BitVec.allOnes w := by
  rw [BitVec.and_append, BitVec.and_allOnes, BitVec.and_zero]
  constructor
  · intro same
    rw [← extractLsb'_append_high hi (BitVec.ofNat w' 0), same, extractLsb'_append_high]
  · rintro rfl
    rfl

end Halves

/-- A value that is boxed is boxed. -/
theorem isBoxed_box (v : BitVec 32) : IsBoxed (box v) := extractLsb'_append_high _ v

/-- `nanbox_s` boxes the lower half of its operand. -/
theorem nanboxS_eq (f : Word) : nanboxS f = box (f.setWidth 32) := by
  obtain ⟨hi, lo, rfl⟩ := @exists_append 32 32 f
  refine (or_append_ones hi lo).trans ?_
  rw [box]
  exact congrArg _ (setWidth_append_low hi lo).symm

/-- `check_nanbox_s` is the single, in a wider type. -/
theorem checkNanboxS_eq (f : Word) : checkNanboxS f = (unbox f).setWidth 64 := by
  have test : f &&& 0xffffffff00000000 = 0xffffffff00000000 ↔ IsBoxed f := by
    obtain ⟨hi, lo, rfl⟩ := @exists_append 32 32 f
    rw [IsBoxed, extractLsb'_append_high]
    exact and_append_ones hi lo
  unfold checkNanboxS unbox
  simp only [test]
  split
  · rfl
  · rfl

/-! ### Sign injections -/

/-- Where the sign of the result comes from: `rs2`, its complement, or the two operands. -/
inductive SignSource
  | rs2 | complement | xor
  deriving DecidableEq, Repr

namespace SignSource

variable {w : Nat}

/-- The sign that the instruction injects. -/
def sign : SignSource → Bool → Bool → Bool
  | rs2, _, u => u
  | complement, _, u => !u
  | xor, v, u => v ^^ u

/-- The magnitude of `v` under the sign. -/
def inject (source : SignSource) (v u : BitVec (w + 1)) : BitVec (w + 1) :=
  BitVec.cons (source.sign v.msb u.msb) (v.setWidth w)

/-- The second operand of the mask, in the bodies. -/
def operand : SignSource → BitVec w → BitVec w → BitVec w
  | rs2, _, u => u
  | complement, _, u => ~~~u
  | xor, v, u => v ^^^ u

/-- The bodies for singles and for doubles. -/
def transS : SignSource → ArgR → Body
  | rs2 => transFsgnjS
  | complement => transFsgnjnS
  | xor => transFsgnjxS

/-- How the operations on doubles are translated. -/
def transD : SignSource → ArgR → Body
  | rs2 => transFsgnjD
  | complement => transFsgnjnD
  | xor => transFsgnjxD

/-- The sign that an instruction injects comes from the source that it names. -/
theorem operand_msb (source : SignSource) (v u : BitVec (w + 1)) :
    (source.operand v u).msb = source.sign v.msb u.msb := by
  cases source with
  | rs2 => rfl
  | complement => simp [operand, sign]
  | xor => simp [operand, sign]

/-- The masks of a sign injection that has them right. -/
theorem inject_eq (source : SignSource) (v u : BitVec (w + 1)) :
    (v &&& BitVec.cons false (BitVec.allOnes w)) |||
      (source.operand v u &&& BitVec.cons true 0#w) = source.inject v u := by
  rw [inject, ← operand_msb]
  generalize source.operand v u = f
  conv_lhs => rw [← BitVec.cons_msb_setWidth v, ← BitVec.cons_msb_setWidth f]
  simp only [BitVec.cons_and_cons, BitVec.cons_or_cons, Bool.and_false, Bool.and_true,
    Bool.false_or, BitVec.and_allOnes, BitVec.and_zero, BitVec.or_zero]

/-- The masks of `fsgnj_d`: the sign of the second operand is lost, its magnitude is not. -/
theorem inject_eq_iff (v u : BitVec (w + 1)) :
    (v &&& BitVec.cons false (BitVec.allOnes w)) ||| (u &&& BitVec.cons false (BitVec.allOnes w)) =
      rs2.inject v u ↔ u.msb = false ∧ v.setWidth w ||| u.setWidth w = v.setWidth w := by
  have masked : (v &&& BitVec.cons false (BitVec.allOnes w)) |||
      (u &&& BitVec.cons false (BitVec.allOnes w)) =
        BitVec.cons false (v.setWidth w ||| u.setWidth w) := by
    conv_lhs => rw [← BitVec.cons_msb_setWidth v, ← BitVec.cons_msb_setWidth u]
    simp only [BitVec.cons_and_cons, BitVec.cons_or_cons, Bool.and_false, Bool.false_or,
      BitVec.and_allOnes]
  rw [masked, inject, sign]
  constructor
  · intro same
    have sign := congrArg BitVec.msb same
    have magnitude := congrArg (BitVec.setWidth w) same
    rw [BitVec.msb_cons, BitVec.msb_cons] at sign
    rw [BitVec.setWidth_cons, BitVec.setWidth_cons] at magnitude
    exact ⟨sign.symm, magnitude⟩
  · rintro ⟨sign, magnitude⟩
    rw [sign, magnitude]

/-- The masks of a single leave nothing in the upper half. -/
theorem not_isBoxed_inject (source : SignSource) (v u : Word) :
    ¬ IsBoxed ((v &&& 0x7fffffff) ||| (source.operand v u &&& 0x80000000)) := by
  obtain ⟨hi, lo, rfl⟩ := @exists_append 32 32 v
  obtain ⟨hi', lo', operand⟩ := @exists_append 32 32 (source.operand (hi ++ lo) u)
  rw [operand]
  have upper : (hi ++ lo &&& 0x7fffffff ||| hi' ++ lo' &&& 0x80000000 : BitVec (32 + 32)) =
      0#32 ++ (lo &&& 0x7fffffff ||| lo' &&& 0x80000000) := by
    rw [show (0x7fffffff : BitVec (32 + 32)) = 0#32 ++ 0x7fffffff#32 from rfl,
      show (0x80000000 : BitVec (32 + 32)) = 0#32 ++ 0x80000000#32 from rfl, BitVec.and_append,
      BitVec.and_append, BitVec.or_append, BitVec.and_zero, BitVec.and_zero, BitVec.or_zero]
    rfl
  intro boxed
  have high := (congrArg (BitVec.extractLsb' 32 32) upper).symm.trans boxed
  rw [extractLsb'_append_high] at high
  cases high

end SignSource

/-! ### The instructions -/

/-- The moves: between the files, the sign injections of both precisions, and the conversion of
a single to a double. -/
inductive FpMove
  | xw | xd | wx | dx
  | sgnjS (source : SignSource)
  | sgnjD (source : SignSource)
  | cvtDS

namespace FpMove

/-- The bits that tell the instruction: all but the registers and a rounding mode. -/
def mask : FpMove → BitVec 32
  | xw | xd | wx | dx => 0xfff0707f
  | sgnjS _ | sgnjD _ => 0xfe00707f
  | cvtDS => 0xfff0007f

def value : FpMove → BitVec 32
  | xw => 0xe0000053
  | xd => 0xe2000053
  | wx => 0xf0000053
  | dx => 0xf2000053
  | sgnjS .rs2 => 0x20000053
  | sgnjS .complement => 0x20001053
  | sgnjS .xor => 0x20002053
  | sgnjD .rs2 => 0x22000053
  | sgnjD .complement => 0x22001053
  | sgnjD .xor => 0x22002053
  | cvtDS => 0x42000053

/-- The word is the instruction. -/
def Encodes (op : FpMove) (word : BitVec 32) : Prop := word &&& op.mask = op.value

instance (op : FpMove) (word : BitVec 32) : Decidable (op.Encodes word) := by
  unfold Encodes
  infer_instance

/-- The body of the instruction. -/
def trans (op : FpMove) (word : BitVec 32) : Body :=
  match op with
  | xw => transFmvXW (extractR2 word)
  | xd => transFmvXD (extractR2 word)
  | wx => transFmvWX (extractR2 word)
  | dx => transFmvDX (extractR2 word)
  | sgnjS source => source.transS (extractR word)
  | sgnjD source => source.transD (extractR word)
  | cvtDS => transFcvtDS (extractR2Rm word)

/-- The decoder picks the translation of the move from its word. -/
theorem selected_encodes {op : FpMove} {word : BitVec 32} (encodes : op.Encodes word) :
    selected word false = op.trans word := by
  have holds : (Pattern.mk op.mask op.value []).Holds word := ⟨encodes, by simp⟩
  cases op with
  | sgnjS source => cases source <;> exact selected_of_dispatch holds rfl rfl rfl
  | sgnjD source => cases source <;> exact selected_of_dispatch holds rfl rfl rfl
  | _ => exact selected_of_dispatch holds rfl rfl rfl

/-- The file the result goes to. -/
def dst (op : FpMove) (rd : BitVec 5) : DstReg :=
  match op with
  | xw | xd => .gpr rd
  | _ => .fpr rd

/-- What the instruction may write; the conversion asks the library about the single in the
floating-point register. -/
def Writes (op : FpMove) (float : SoftFloat) (s : ArchState) (rs1 rs2 : BitVec 5) (v : Word) :
    Prop :=
  match op with
  | xw => v = ((s.fpr rs1).setWidth 32).signExtend 64
  | xd => v = s.fpr rs1
  | wx => v = box ((s.gpr rs1).setWidth 32)
  | dx => v = s.gpr rs1
  | sgnjS source => v = box (source.inject (w := 31) (unbox (s.fpr rs1)) (unbox (s.fpr rs2)))
  | sgnjD source => v = source.inject (w := 63) (s.fpr rs1) (s.fpr rs2)
  | cvtDS => ∃ mode flags flags',
      float.call .float32ToFloat64 [(unbox (s.fpr rs1)).setWidth 64] mode flags = some (v, flags')

/-- The registers before an instruction that gets one of these right. -/
def Right (op : FpMove) (s : ArchState) (rd rs1 rs2 : BitVec 5) : Prop :=
  match op with
  | xw => (rd = 0 ∨ s.gpr rd = ((s.fpr rs1).setWidth 32).signExtend 64) ∧
      s.fpr rd = box ((s.fpr rs1).setWidth 32)
  | sgnjS _ => False
  | sgnjD .rs2 => (s.fpr rs2).msb = false ∧
      (s.fpr rs1).setWidth 63 ||| (s.fpr rs2).setWidth 63 = (s.fpr rs1).setWidth 63
  | cvtDS => unbox (s.gpr rs1) = unbox (s.fpr rs1)
  | _ => True

/-- The values that the bodies of the moves proper compute. -/
def moved (op : FpMove) (s : ArchState) (rs1 rs2 : BitVec 5) : Word :=
  match op with
  | xw => nanboxS (s.fpr rs1)
  | xd => s.fpr rs1
  | wx => nanboxS (s.gpr rs1)
  | dx => s.gpr rs1
  | sgnjS source =>
      s.fpr rs1 &&& 0x7fffffff ||| source.operand (s.fpr rs1) (s.fpr rs2) &&& 0x80000000
  | sgnjD .rs2 => s.fpr rs1 &&& 0x7fffffffffffffff ||| s.fpr rs2 &&& 0x7fffffffffffffff
  | sgnjD source => s.fpr rs1 &&& 0x7fffffffffffffff |||
      source.operand (s.fpr rs1) (s.fpr rs2) &&& 0x8000000000000000
  | cvtDS => checkNanboxS (s.gpr rs1)

end FpMove

/-! ### Completion with the unit on -/

/-- Four words decide which interrupt is pending. -/
theorem irqException_congr {s s' : ArchState} (same : ∀ w, w ≠ .fp → s'.get w = s.get w) :
    irqException s' = irqException s := by
  rw [irqException, irqException, irqValids, irqValids, irqEnable, irqEnable,
    same _ (by decide), same _ (by decide), same _ (by decide), same _ (by decide)]

/-- The machine after an instruction that writes one register of either file. -/
def RiscvArch.afterFp (a : RiscvArch δ) (vaddr paddr : Word) (s : ArchState) (dst : DstReg)
    (dest : Word) : RiscvArch δ :=
  ({ a with
    pc := vaddr
    paddr := paddr
    state := (s.set dst.word dest).set (.gpr 0) 0 } : RiscvArch δ).updateMMUState

/-- A floating-point instruction completes when its computation does. -/
theorem completes_fp_iff {P : Platform δ} {arch a : RiscvArch δ} {vaddr paddr : Word}
    {slot : DecodeInfo} {rvc : Bool} {word : BitVec 32} {dst : DstReg} {rm : Option (BitVec 3)}
    {fpCalc : FpCalc} {type : PlainType} (fetches : Fetches P arch paddr slot rvc word a)
    (body : selected word rvc = .fp dst rm fpCalc type) (on : a.state.fpEnabled = true)
    (quiet : irqException a.state = none) {next : Word} {arch' : RiscvArch δ} :
    Completes P arch vaddr paddr slot next arch' ↔
      ∃ dest s, fpCalc.run P (a.state.dirtyFs.rounded rm) = .ok (dest, s) ∧
        next = vaddr + instBytes rvc ∧ arch' = a.afterFp vaddr paddr s dst dest := by
  obtain ⟨i, fetched, rfl⟩ := fetches
  have ran : (selected i.inst rvc).exec P (bodyCtx a vaddr paddr i) =
      fpCalc.run P (a.state.dirtyFs.rounded rm) >>= fun r =>
        .ok (true, (((bodyCtx a vaddr paddr i).setState r.2).setDst0 dst.word r.1).setType
          type.instType) := by
    rw [body]
    simp only [Body.exec, requireFpu, bodyCtx, on, Bool.not_true]
    rfl
  cases computed : fpCalc.run P (a.state.dirtyFs.rounded rm) with
  | error e =>
      rw [computed] at ran
      refine ⟨fun completes => absurd completes (not_completes fetched ran), ?_⟩
      rintro ⟨dest, s, answers, -⟩
      cases answers
  | ok r =>
      obtain ⟨dest, s⟩ := r
      rw [computed] at ran
      have same : ∀ w, w ≠ .fp → s.get w = a.state.dirtyFs.get w := fun w apart =>
        (FpCalc.run_get P _ fpCalc _ computed w apart).trans (rounded_get _ rm apart)
      have silent : irqException s = none := by
        rw [irqException_congr same, FpView.irqException_dirtyFs, quiet]
      rw [completes_iff fetched ran silent]
      have updated := updateEnv_write P ({ a with pc := vaddr, paddr := paddr, state := s } :
        RiscvArch δ) (fresh_cleared i) dst.word dest type
      rw [show (cleared i).instSize = i.instSize from rfl, instSize_eq fetched] at updated
      constructor
      · intro commits
        cases updated.symm.trans commits
        exact ⟨dest, s, rfl, rfl, rfl⟩
      · rintro ⟨_, _, answers, rfl, rfl⟩
        cases answers
        exact updated

/-! ### Registers of both files -/

/-- The states agree on the registers. -/
def SameRegisters (s s' : ArchState) : Prop := ∀ r : DstReg, s.get r.word = s'.get r.word

section Registers

variable {s s' : ArchState}

/-- Making the unit dirty changes no register. -/
theorem sameRegisters_dirtyFs (s : ArchState) : SameRegisters s.dirtyFs s
  | .gpr _ => dirtyFs_get s (by nofun)
  | .fpr _ => dirtyFs_get s (by nofun)

/-- The same register, written in both states. -/
theorem SameRegisters.set (same : SameRegisters s s') (w : StateWord) (v : Word) :
    SameRegisters (s.set w v) (s'.set w v) := by
  intro r
  rw [ArchState.get_set, ArchState.get_set, same r]

/-- The two files after a write to either. -/
theorem get_afterFpr (s : ArchState) (rd i : BitVec 5) (v : Word) :
    ((s.set (.fpr rd) v).set (.gpr 0) 0).get (.gpr i) = (if i = 0 then 0 else s.get (.gpr i)) ∧
      ((s.set (.fpr rd) v).set (.gpr 0) 0).get (.fpr i) = if i = rd then v else s.get (.fpr i) := by
  simp only [ArchState.get_set, StateWord.gpr.injEq, StateWord.fpr.injEq, reduceCtorEq, if_false,
    and_self]

/-- What a commit leaves in the integer registers, with `x0` put back, and in those of the unit.
-/
theorem get_afterGpr (s : ArchState) (rd i : BitVec 5) (v : Word) :
    ((s.set (.gpr rd) v).set (.gpr 0) 0).get (.gpr i) =
        (if i = 0 then 0 else if i = rd then v else s.get (.gpr i)) ∧
      ((s.set (.gpr rd) v).set (.gpr 0) 0).get (.fpr i) = s.get (.fpr i) := by
  simp only [ArchState.get_set, StateWord.gpr.injEq, reduceCtorEq, if_false, and_self]

variable (same : SameRegisters s s') {rd : BitVec 5} {v v' : Word}
include same

/-- Two values written to one floating-point register. -/
theorem SameRegisters.fpr_iff : SameRegisters ((s.set (.fpr rd) v).set (.gpr 0) 0)
    ((s'.set (.fpr rd) v').set (.gpr 0) 0) ↔ v = v' := by
  constructor
  · intro both
    have read := both (.fpr rd)
    rwa [DstReg.word, (get_afterFpr s rd rd v).2, (get_afterFpr s' rd rd v').2, if_pos rfl,
      if_pos rfl] at read
  · rintro rfl
    exact (same.set _ _).set _ _

/-- A value written to the wrong file. -/
theorem SameRegisters.cross_iff : SameRegisters ((s.set (.fpr rd) v).set (.gpr 0) 0)
    ((s'.set (.gpr rd) v').set (.gpr 0) 0) ↔ (rd = 0 ∨ s'.gpr rd = v') ∧ s'.fpr rd = v := by
  constructor
  · intro both
    constructor
    · by_cases drop : rd = 0
      · exact .inl drop
      · have read := both (.gpr rd)
        rw [DstReg.word, (get_afterFpr s rd rd v).1, (get_afterGpr s' rd rd v').1, if_neg drop,
          if_neg drop, if_pos rfl] at read
        exact .inr ((same (.gpr rd)).symm.trans read)
    · have read := both (.fpr rd)
      rw [DstReg.word, (get_afterFpr s rd rd v).2, (get_afterGpr s' rd rd v').2, if_pos rfl] at read
      exact read.symm
  · rintro ⟨kept, value⟩ (i | i)
    · rw [DstReg.word, (get_afterFpr s rd i v).1, (get_afterGpr s' rd i v').1]
      split
      · rfl
      · rename_i named
        split
        · rename_i here
          subst here
          exact (same (.gpr i)).trans (kept.resolve_left named)
        · exact same (.gpr i)
    · rw [DstReg.word, (get_afterFpr s rd i v).2, (get_afterGpr s' rd i v').2]
      split
      · rename_i here
        subst here
        exact value.symm
      · exact same (.fpr i)

end Registers

/-! ### The moves -/

/-- A library that answers every call. -/
def SoftFloat.Total (float : SoftFloat) : Prop :=
  ∀ op args mode flags, ∃ answer, float.call op args mode flags = some answer

/-- With any library that answers, the instruction completes, and writes one register of the
right file: `rd` is `word[11:7]`, and the operands are `word[19:15]` and `word[24:20]`. -/
def FpMove.Moves (op : FpMove) (P : Platform δ) (arch a : RiscvArch δ) (vaddr paddr : Word)
    (slot : DecodeInfo) (word : BitVec 32) : Prop :=
  ∀ float : SoftFloat, float.Total → ∃ next arch' v,
    Completes { P with float := float } arch vaddr paddr slot next arch' ∧
      op.Writes float a.state (field word 15 5) (field word 20 5) v ∧
      SameRegisters arch'.state ((a.state.set (op.dst (field word 7 5)).word v).set (.gpr 0) 0)

section Moves

variable {P : Platform δ} {arch a : RiscvArch δ} {vaddr paddr : Word} {slot : DecodeInfo}
variable {word : BitVec 32} (fetches : Fetches P arch paddr slot false word a)
variable (on : a.state.fpEnabled = true) (quiet : irqException a.state = none)
include fetches on quiet

/-- A body that calls no library gets the instruction right when it writes the same. -/
theorem moves_iff_of_move {op : FpMove} {dst : DstReg} {value : ArchState → Word} {v : Word}
    (body : selected word false = .fp dst none (.move value) .fmiscSimple)
    (writes : ∀ float v', op.Writes float a.state (field word 15 5) (field word 20 5) v' ↔ v' = v) :
    op.Moves P arch a vaddr paddr slot word ↔
      SameRegisters ((a.state.dirtyFs.set dst.word (value a.state.dirtyFs)).set (.gpr 0) 0)
        ((a.state.set (op.dst (field word 7 5)).word v).set (.gpr 0) 0) := by
  have completes (float : SoftFloat) {next : Word} {arch' : RiscvArch δ} :
      Completes { P with float := float } arch vaddr paddr slot next arch' ↔
        next = vaddr + 4 ∧
          arch' = a.afterFp vaddr paddr a.state.dirtyFs dst (value a.state.dirtyFs) := by
    rw [completes_fp_iff (P := { P with float := float }) fetches body on quiet]
    constructor
    · rintro ⟨_, _, same, rfl, rfl⟩
      cases same
      exact ⟨rfl, rfl⟩
    · rintro ⟨rfl, rfl⟩
      exact ⟨_, _, rfl, rfl, rfl⟩
  constructor
  · intro moves
    obtain ⟨next, arch', v', done, written, same⟩ := moves ⟨fun _ _ _ _ => some (0, 0)⟩
      fun _ _ _ _ => ⟨_, rfl⟩
    obtain ⟨-, rfl⟩ := (completes _).1 done
    rwa [(writes _ _).1 written] at same
  · intro same float _
    exact ⟨_, _, v, (completes float).2 ⟨rfl, rfl⟩, (writes _ _).2 rfl, same⟩

/-- The conversion reads its operand from the other file. -/
theorem moves_cvtDS_iff (encodes : FpMove.cvtDS.Encodes word) :
    FpMove.cvtDS.Moves P arch a vaddr paddr slot word ↔
      unbox (a.state.gpr (field word 15 5)) = unbox (a.state.fpr (field word 15 5)) := by
  let s := a.state.dirtyFs.setrm (field word 12 3)
  have body := FpMove.selected_encodes encodes
  have operand : checkNanboxS (s.gpr (field word 15 5)) =
      (unbox (a.state.gpr (field word 15 5))).setWidth 64 := checkNanboxS_eq _
  have registers : ∀ flags, SameRegisters (s.setFlags flags) a.state
    | _, .gpr _ => rfl
    | _, .fpr _ => rfl
  constructor
  · intro moves
    -- a library that gives its operand back
    let echo : SoftFloat := ⟨fun _ args _ flags => some (args.headD 0, flags)⟩
    obtain ⟨next, arch', v, done, ⟨_, _, _, answer⟩, same⟩ := moves echo fun _ _ _ _ => ⟨_, rfl⟩
    obtain ⟨dest, s', ran, -, rfl⟩ :=
      (completes_fp_iff (P := { P with float := echo }) fetches body on quiet).1 done
    cases ran
    cases answer
    have value := operand.symm.trans ((SameRegisters.fpr_iff (registers _)).1 same)
    have narrow := congrArg (BitVec.setWidth 32) value
    rwa [List.headD_cons, BitVec.setWidth_setWidth_of_le _ (by decide),
      BitVec.setWidth_setWidth_of_le _ (by decide), BitVec.setWidth_eq, BitVec.setWidth_eq]
      at narrow
  · intro agree float total
    obtain ⟨⟨v, flags⟩, answer⟩ := total .float32ToFloat64
      [(unbox (a.state.fpr (field word 15 5))).setWidth 64] s.floatRoundingMode
        s.floatExceptionFlags
    have ran : FpCalc.run { P with float := float } s
        (.call .float32ToFloat64 (fun s => [checkNanboxS (s.gpr (field word 15 5))]) id) =
          .ok (v, s.setFlags flags) := by
      rw [FpCalc.run]
      simp only [operand, agree, answer, id]
    have done : Completes { P with float := float } arch vaddr paddr slot _ _ :=
      (completes_fp_iff (P := { P with float := float }) fetches body on quiet).2
        ⟨v, _, ran, rfl, rfl⟩
    exact ⟨_, _, v, done, ⟨_, _, _, answer⟩, (SameRegisters.fpr_iff (registers flags)).2 rfl⟩

/-- Which moves are right, and on which registers. -/
theorem moves_iff {op : FpMove} (encodes : op.Encodes word) :
    op.Moves P arch a vaddr paddr slot word ↔
      op.Right a.state (field word 7 5) (field word 15 5) (field word 20 5) := by
  have body := FpMove.selected_encodes encodes
  have same := sameRegisters_dirtyFs a.state
  cases op with
  | xw =>
      rw [moves_iff_of_move fetches on quiet body fun _ _ => Iff.rfl]
      refine same.cross_iff.trans ?_
      rw [FpMove.Right, ← nanboxS_eq]
      rfl
  | xd =>
      rw [moves_iff_of_move fetches on quiet body fun _ _ => Iff.rfl]
      exact iff_of_true ((same.set _ _).set _ _) trivial
  | wx =>
      rw [moves_iff_of_move fetches on quiet body fun _ _ => Iff.rfl]
      exact iff_of_true (same.fpr_iff.2 (nanboxS_eq _)) trivial
  | dx =>
      rw [moves_iff_of_move fetches on quiet body fun _ _ => Iff.rfl]
      exact iff_of_true (same.fpr_iff.2 rfl) trivial
  | sgnjS source =>
      have move : selected word false = .fp (.fpr (field word 7 5)) none (.move fun s =>
          s.fpr (field word 15 5) &&& 0x7fffffff ||| source.operand (s.fpr (field word 15 5))
            (s.fpr (field word 20 5)) &&& 0x80000000) .fmiscSimple := by
        rw [body]
        cases source <;> rfl
      rw [moves_iff_of_move fetches on quiet move fun _ _ => Iff.rfl]
      -- The upper half is zero after `and` and `or`, so the result is never boxed.
      refine iff_of_false (fun agree => ?_) id
      have boxed := isBoxed_box (source.inject (w := 31) (unbox (a.state.fpr (field word 15 5)))
        (unbox (a.state.fpr (field word 20 5))))
      rw [← same.fpr_iff.1 agree] at boxed
      exact source.not_isBoxed_inject _ _ boxed
  | sgnjD source =>
      -- `fsgnj.d` takes the magnitude of `rs2` and not the sign; its two siblings are right.
      by_cases lost : source = .rs2
      · subst lost
        rw [moves_iff_of_move fetches on quiet body fun _ _ => Iff.rfl]
        exact same.fpr_iff.trans (SignSource.inject_eq_iff (w := 63) _ _)
      · have move : selected word false = .fp (.fpr (field word 7 5)) none (.move fun s =>
            s.fpr (field word 15 5) &&& 0x7fffffffffffffff ||| source.operand
              (s.fpr (field word 15 5)) (s.fpr (field word 20 5)) &&& 0x8000000000000000)
              .fmiscSimple := by
          rw [body]
          cases source with
          | rs2 => exact absurd rfl lost
          | complement => rfl
          | xor => rfl
        rw [moves_iff_of_move fetches on quiet move fun _ _ => Iff.rfl]
        refine iff_of_true (same.fpr_iff.2 (source.inject_eq (w := 63) _ _)) ?_
        cases source with
        | rs2 => exact absurd rfl lost
        | complement => trivial
        | xor => trivial
  | cvtDS => exact moves_cvtDS_iff fetches on quiet encodes

end Moves

/-! ### Singles in floating-point registers -/

/-- The values of `funct5` in `OP-FP` that put a number of the format into a floating-point
register: arithmetic, roots, sign injections, minima, conversions and `fmv.w.x`. -/
def producerFunct5 : List (BitVec 32) :=
  [0x00000000, 0x08000000, 0x10000000, 0x18000000, 0x58000000, 0x20000000, 0x28000000, 0x40000000,
    0xd0000000, 0xf0000000]

/-- `flw`, a fused operation on singles, or one of those on singles. -/
def WritesSingle (word : BitVec 32) : Prop :=
  word &&& 0x707f = 0x2007 ∨
    word &&& 0x6000000 = 0 ∧ (word &&& 0x7f ∈ [0x43, 0x47, 0x4b, 0x4f] ∨
      word &&& 0x7f = 0x53 ∧ word &&& 0xf8000000 ∈ producerFunct5)

/-- A body that boxes what it writes to the register. -/
def Body.Boxes (b : Body) (rd : BitVec 5) : Prop :=
  (∃ addr width, b = .fload rd addr width nanboxS) ∨
    (∃ rm op args type, b = .fp (.fpr rd) rm (.call op args nanboxS) type) ∨
    ∃ value : ArchState → Word, ∃ type,
      b = .fp (.fpr rd) none (.move fun s => nanboxS (value s)) type

/-- The row has no body, or one that boxes. -/
def Row.Boxes (r : Row) : Prop :=
  ∀ word, r.body word = .notImplemented ∨ (r.body word).Boxes (field word 7 5)

/-- A row that stops the simulator leaves nothing to box. -/
theorem boxes_of_exits {rows : List (BitVec 32 × BitVec 32)} : ∀ r ∈ exits rows, r.Boxes :=
  fun _ row word => .inl (exits_body row word)

/-- Of the floating-point loads all but FLD box. -/
theorem rows07_boxes : ∀ r ∈ rows07,
    (r.mask &&& 0x707f = 0x707f ∧ r.value &&& 0x707f ≠ 0x2007) ∨ r.Boxes := by
  unfold rows07
  simp only [List.forall_mem_append]
  simp only [List.forall_mem_cons]
  refine ⟨⟨fun r row => .inr (boxes_of_exits r row), ?_, ?_, fun _ none => nomatch none⟩,
    fun r row => .inr (boxes_of_exits r row)⟩
  · exact .inr fun word => .inr (.inl ⟨_, _, rfl⟩)
  · exact .inl ⟨by decide, by decide⟩

/-- Of the fused operations those with single operands box. -/
theorem fusedRows_boxes : ∀ r ∈ rows43 ++ rows47 ++ rows4B ++ rows4F,
    (r.mask &&& 0x6000000 = 0x6000000 ∧ r.value &&& 0x6000000 ≠ 0) ∨ r.Boxes := by
  unfold rows43 rows47 rows4B rows4F
  simp only [List.forall_mem_append]
  simp only [List.forall_mem_cons]
  have absent {rows : List (BitVec 32 × BitVec 32)} : ∀ r ∈ exits rows,
      (r.mask &&& 0x6000000 = 0x6000000 ∧ r.value &&& 0x6000000 ≠ 0) ∨ r.Boxes :=
    fun r row => .inr (boxes_of_exits r row)
  refine ⟨⟨⟨⟨⟨absent, ?_, fun _ none => nomatch none⟩, absent⟩, absent⟩, absent⟩, absent⟩
  exact .inl ⟨by decide, by decide⟩

/-- A row of `OP-FP` is one for another format or another kind of result, or boxes, or is a sign
injection. -/
theorem rows53_boxes : ∀ r ∈ rows53,
    (r.mask &&& 0xfe000000 = 0xfe000000 ∧
      ¬ (r.value &&& 0x6000000 = 0 ∧ r.value &&& 0xf8000000 ∈ producerFunct5)) ∨
    r.Boxes ∨ ∃ source, r.mask = (FpMove.sgnjS source).mask ∧
      r.value = (FpMove.sgnjS source).value := by
  unfold rows53
  simp only [List.forall_mem_append]
  simp only [List.forall_mem_cons]
  repeat' refine And.intro ?_ ?_
  all_goals first
    | exact fun r row => .inr (.inl (boxes_of_exits r row))
    | exact fun _ none => nomatch none
    | exact .inl ⟨by decide, by decide⟩
    | exact .inr (.inl fun word => .inr (.inr (.inl ⟨_, _, _, _, rfl⟩)))
    | exact .inr (.inl fun word => .inr (.inr (.inr ⟨_, _, rfl⟩)))
    | exact .inr (.inr ⟨.rs2, rfl, rfl⟩)
    | exact .inr (.inr ⟨.complement, rfl, rfl⟩)
    | exact .inr (.inr ⟨.xor, rfl, rfl⟩)

/-- A word that passes a row's test fails what the row's bits rule out. -/
theorem test_covers {word mask value cover : BitVec 32} (test : word &&& mask = value)
    (covers : mask &&& cover = cover) : value &&& cover = word &&& cover := by
  rw [← test, BitVec.and_assoc, covers]

/-- An implemented instruction with a single for its result boxes it, or is a sign injection. -/
theorem selected_boxes {word : BitVec 32} (single : WritesSingle word)
    (present : (selected word false).Implemented) :
    (selected word false).Boxes (field word 7 5) ∨
      ∃ source, (FpMove.sgnjS source).Encodes word := by
  rcases selected_row word false with none | ⟨r, row, test, body⟩
  · rw [none] at present
    exact absurd present id
  rw [body] at present ⊢
  rw [if_neg (by nofun)] at row
  simp only [rows32] at row
  have boxes : r.Boxes ∨ ∃ source, (FpMove.sgnjS source).Encodes word := by
    rcases single with load | ⟨format, fused | ⟨opcode, funct5⟩⟩
    · have opcode : word &&& 0x7f = 0x07 := by
        rw [show (0x7f : BitVec 32) = 0x707f &&& 0x7f from rfl, ← BitVec.and_assoc, load]
        rfl
      rw [opcode] at row
      rcases rows07_boxes r row with ⟨covers, other⟩ | boxes
      · exact absurd ((test_covers test covers).trans load) other
      · exact .inl boxes
    · have row : r ∈ rows43 ++ rows47 ++ rows4B ++ rows4F := by
        simp only [List.mem_cons, List.not_mem_nil, or_false] at fused
        simp only [List.mem_append]
        rcases fused with h | h | h | h <;> rw [h] at row
        · exact .inl (.inl (.inl row))
        · exact .inl (.inl (.inr row))
        · exact .inl (.inr row)
        · exact .inr row
      rcases fusedRows_boxes r row with ⟨covers, other⟩ | boxes
      · exact absurd ((test_covers test covers).trans format) other
      · exact .inl boxes
    · rw [opcode] at row
      rcases rows53_boxes r row with ⟨covers, other⟩ | boxes | ⟨source, mask, value⟩
      · refine absurd ⟨?_, ?_⟩ other
        · have sub : r.mask &&& 0x6000000 = 0x6000000 := by
            rw [show (0x6000000 : BitVec 32) = 0xfe000000 &&& 0x6000000 from rfl,
              ← BitVec.and_assoc, covers]
          exact (test_covers test sub).trans format
        · have sub : r.mask &&& 0xf8000000 = 0xf8000000 := by
            rw [show (0xf8000000 : BitVec 32) = 0xfe000000 &&& 0xf8000000 from rfl,
              ← BitVec.and_assoc, covers]
          rw [test_covers test sub]
          exact funct5
      · exact .inl boxes
      · refine .inr ⟨source, ?_⟩
        rw [FpMove.Encodes, ← mask, ← value, test]
  refine boxes.imp_left fun boxes => (boxes word).resolve_left fun absent => ?_
  rw [absent] at present
  exact present

section Boxing

variable {P : Platform δ} {b : Body} {rd : BitVec 5}

/-- What such a body leaves in the record, if it raises nothing. -/
theorem exec_boxes (boxes : b.Boxes rd) {ctx : Ctx δ} (fresh : Fresh ctx.info) :
    Returns (b.exec P ctx) fun r => r.2.info.exception = excNone →
      (∃ v, r.2.info.dst0 = Dst.full (.fpr rd) v ∧ IsBoxed v) ∧ r.2.info.dst1.mask = 0#64 ∧
        r.2.info.dst2.mask = 0#64 ∧
        (r.2.info.type ≠ .amo ∧ r.2.info.type ≠ .store ∧ r.2.info.type ≠ .sc) := by
  have illegal {Q : Prop} : (ctx.raise excII).info.exception = excNone → Q := by rintro ⟨⟩
  have plain (type : PlainType) :
      type.instType ≠ .amo ∧ type.instType ≠ .store ∧ type.instType ≠ .sc := by
    cases type <;> exact ⟨by rintro ⟨⟩, by rintro ⟨⟩, by rintro ⟨⟩⟩
  have boxed (f : Word) : IsBoxed (nanboxS f) := by
    rw [nanboxS_eq]
    exact isBoxed_box _
  rcases boxes with ⟨addr, width, rfl⟩ | ⟨rm, op, args, type, rfl⟩ | ⟨value, type, rfl⟩
  · simp only [Body.exec, requireFpu_returns, returns_bind, returns_pure]
    refine ⟨fun _ => illegal, fun _ => (ld_memStep P width _ _).mono ?_⟩
    rintro ⟨data, c⟩ step _
    exact ⟨⟨_, rfl, boxed data⟩, step.mask1.trans fresh.mask1, step.mask2.trans fresh.mask2,
      by rintro ⟨⟩, by rintro ⟨⟩, by rintro ⟨⟩⟩
  · simp only [Body.exec, requireFpu_returns, returns_bind, returns_pure]
    refine ⟨fun _ => illegal, fun _ => ?_⟩
    rw [FpCalc.run]
    split
    · exact (returns_ok _ _).2 fun _ =>
        ⟨⟨_, rfl, boxed _⟩, fresh.mask1, fresh.mask2, plain type⟩
    · exact returns_error _ _
  · simp only [Body.exec, requireFpu_returns, returns_bind, returns_pure]
    refine ⟨fun _ => illegal, fun _ => (returns_ok _ _).2 fun _ => ?_⟩
    exact ⟨⟨_, rfl, boxed _⟩, fresh.mask1, fresh.mask2, plain type⟩

variable {arch a : RiscvArch δ} {vaddr paddr : Word} {slot : DecodeInfo} {word : BitVec 32}

/-- Once the instruction has been committed, the register is boxed. -/
def LeavesBoxed (P : Platform δ) (arch : RiscvArch δ) (vaddr paddr : Word) (slot : DecodeInfo)
    (rd : BitVec 5) : Prop :=
  ∀ d next arch', arch.decode P vaddr paddr slot = .ok d → d.2.exception = excNone →
    d.1.updateEnv P d.2 = .ok (next, arch') → IsBoxed (arch'.state.fpr rd)

/-- A body that boxes leaves a boxed register when it completes. -/
theorem leavesBoxed_of_boxes (fetches : Fetches P arch paddr slot false word a)
    (boxes : (selected word false).Boxes rd) : LeavesBoxed P arch vaddr paddr slot rd := by
  obtain ⟨i, fetched, rfl⟩ := fetches
  intro d next arch' decoded code updated
  rw [decode_eq, fetched] at decoded
  obtain ⟨r, ran, result⟩ :=
    (bind_eq_ok ((selected i.inst false).exec P (bodyCtx a vaddr paddr i)) _
    d).1 decoded
  cases result
  -- an interrupt would have been reported
  have quiet : irqException r.2.arch.state = none := by
    rw [report_exception] at code
    cases pending : irqException r.2.arch.state with
    | none => rfl
    | some irq =>
        have top := irqException_msb pending
        rw [pending, Option.getD_some] at code
        rw [code] at top
        cases top
  have silent : report r.2 = r.2.info := by rw [report, quiet]
  rw [silent] at code updated
  obtain ⟨⟨v, dst0, boxed⟩, mask1, mask2, plain⟩ := exec_boxes boxes (fresh_cleared i) r ran code
  rw [updateEnv_registers code plain (commitDsts_full dst0 mask1 mask2)] at updated
  cases updated
  change IsBoxed (((r.2.arch.state.set (.fpr rd) v).set (.gpr 0) 0).get (.fpr rd))
  rwa [(get_afterFpr _ rd rd v).2, if_pos rfl]

end Boxing

/-- A move does what it should, and a single that an implemented instruction writes is boxed. -/
def MovesFp (P : Platform δ) (arch a : RiscvArch δ) (vaddr paddr : Word) (slot : DecodeInfo)
    (word : BitVec 32) : Prop :=
  (∀ op : FpMove, op.Encodes word → op.Moves P arch a vaddr paddr slot word) ∧
    (WritesSingle word → (selected word false).Implemented →
      LeavesBoxed P arch vaddr paddr slot (field word 7 5))

/-- With the unit on and no interrupt pending, an instruction fails in this only when it is one
of the moves, and its registers are not among those that it gets right. Of the moves `fmv.x.w`
writes the other register file, `fcvt.d.s` reads it, the sign injections of singles lose the
box, and `fsgnj.d` takes the magnitude of its second operand; every other body boxes what it
writes. -/
theorem movesFp_iff {P : Platform δ} {arch a : RiscvArch δ} {vaddr paddr : Word}
    {slot : DecodeInfo} {word : BitVec 32} (fetches : Fetches P arch paddr slot false word a)
    (on : a.state.fpEnabled = true) (quiet : irqException a.state = none) :
    MovesFp P arch a vaddr paddr slot word ↔ ∀ op : FpMove, op.Encodes word →
      op.Right a.state (field word 7 5) (field word 15 5) (field word 20 5) := by
  constructor
  · intro moves op encodes
    exact (moves_iff fetches on quiet encodes).1 (moves.1 op encodes)
  · intro right
    refine ⟨fun op encodes => (moves_iff fetches on quiet encodes).2 (right op encodes), ?_⟩
    intro single present
    rcases selected_boxes single present with boxes | ⟨source, encodes⟩
    · exact leavesBoxed_of_boxes fetches boxes
    · exact absurd (right _ encodes) id

/-- `fsgnj.s ft0, ft1, ft1`, the move of a single, leaves a register that is not boxed. -/
theorem not_movesFp : ∃ a, Fetches (ramOnly 4096) (unitOn 0x20108053) 0x80000000 .zero false
    0x20108053 a ∧ WritesSingle 0x20108053 ∧
      ¬ MovesFp (ramOnly 4096) (unitOn 0x20108053) a 0x80000000 0x80000000 .zero 0x20108053 := by
  obtain ⟨a, i, fetched, inst, quiet, unit⟩ := unitOn_fetch 0x20108053 (by decide +kernel)
  have fetches : Fetches (ramOnly 4096) (unitOn 0x20108053) 0x80000000 .zero false 0x20108053 a :=
    ⟨i, fetched, inst⟩
  refine ⟨a, fetches, .inr ⟨rfl, .inr ⟨rfl, by decide⟩⟩, fun moves => ?_⟩
  have encodes : FpMove.Encodes (.sgnjS .rs2) 0x20108053 := rfl
  exact (moves_iff fetches (fpEnabled_of_dirty unit) quiet encodes).1 (moves.1 _ encodes)

/-- `fmv.w.x ft0, ra`. -/
theorem movesFp_iff_wx : ∃ a, Fetches (ramOnly 4096) (unitOn 0xf0008053) 0x80000000 .zero false
    0xf0008053 a ∧
      MovesFp (ramOnly 4096) (unitOn 0xf0008053) a 0x80000000 0x80000000 .zero 0xf0008053 := by
  obtain ⟨a, i, fetched, inst, quiet, unit⟩ := unitOn_fetch 0xf0008053 (by decide +kernel)
  refine ⟨a, ⟨i, fetched, inst⟩,
    (movesFp_iff ⟨i, fetched, inst⟩ (fpEnabled_of_dirty unit) quiet).2 ?_⟩
  intro op encodes
  cases op with
  | wx => trivial
  | sgnjS source => cases source <;> exact absurd encodes (by decide)
  | sgnjD source => cases source <;> exact absurd encodes (by decide)
  | _ => exact absurd encodes (by decide)

end CPUDelaySim.Riscv
