import CPUDelaySim.Riscv.BaseC

/-!
# What the base instructions do

`decode` and `updateEnv` on the computations, branches and jumps of RV64I, in both encodings,
against the state that the manual asks for.  The words of `auipc x0` alone stop the simulator
(`computes_iff`).
-/

namespace CPUDelaySim.Riscv

variable {δ : Type}

open RiscvArch

/-! ### Branches and jumps -/

section Completes

variable {P : Platform δ} {arch a arch' : RiscvArch δ} {vaddr paddr next : Word}
variable {slot : DecodeInfo} {rvc : Bool} {word : BitVec 32}

/-- The machine after an instruction that writes no register. -/
def RiscvArch.afterBranch (a : RiscvArch δ) (vaddr paddr : Word) : RiscvArch δ :=
  ({ a with pc := vaddr, paddr := paddr } : RiscvArch δ).committed a.state a.memory.ram

/-- What a branch leaves, and where it goes. -/
theorem completes_cond {taken : ArchState → Bool} {imm : Word}
    (fetches : Fetches P arch paddr slot rvc word a)
    (body : selected word rvc = .cond taken imm) (quiet : irqException a.state = none) :
    Completes P arch vaddr paddr slot
      (if taken a.state then vaddr + imm else vaddr + instBytes rvc)
      (a.afterBranch vaddr paddr) := by
  obtain ⟨i, fetched, rfl⟩ := fetches
  have fresh := fresh_cleared i
  let start := bodyCtx a vaddr paddr i
  let ctx :=
    ((start.setData1 (if taken a.state then 1 else 0)).setData2 (vaddr + imm)).setType .cond
  have ran : (selected i.inst rvc).exec P start = .ok (true, ctx) := by
    rw [body]
    rfl
  have dsts : commitDsts ctx.arch.state ctx.info = .ok a.state :=
    commitDsts_none fresh.mask0 fresh.mask1 fresh.mask2
  have code : ctx.info.exception = excNone := fresh.exception
  have plain : ctx.info.type ≠ .amo ∧ ctx.info.type ≠ .store ∧ ctx.info.type ≠ .sc :=
    ⟨nofun, nofun, nofun⟩
  rw [completes_iff fetched ran quiet, updateEnv_registers code plain dsts,
    ← instSize_eq fetched]
  refine congrArg Except.ok (Prod.ext ?_ rfl)
  change (if (if taken a.state then (1 : Word) else 0) ≠ 0 then vaddr + imm
    else vaddr + i.instSize.setWidth 64) = _
  cases taken a.state <;> rfl

/-- What JAL leaves, and where it goes. -/
theorem completes_jal {rd : BitVec 5} {imm : Word}
    (fetches : Fetches P arch paddr slot rvc word a)
    (body : selected word rvc = .jal rd imm) (quiet : irqException a.state = none) :
    Completes P arch vaddr paddr slot (vaddr + imm)
      (a.afterWrite vaddr paddr rd (vaddr + instBytes rvc)) := by
  obtain ⟨i, fetched, rfl⟩ := fetches
  have fresh := fresh_cleared i
  let start := bodyCtx a vaddr paddr i
  let type : InstType := if rd = 0 then .direct else .push
  let ctx := ((start.setDst0 (.gpr rd) (vaddr + i.instSize.setWidth 64)).setData2
    (vaddr + imm)).setType type
  have ran : (selected i.inst rvc).exec P start = .ok (true, ctx) := by
    rw [body]
    rfl
  have jumps : type = .direct ∨ type = .push := by
    by_cases drop : rd = 0
    · exact .inl (if_pos drop)
    · exact .inr (if_neg drop)
  have dsts : commitDsts ctx.arch.state ctx.info =
      .ok (a.state.set (.gpr rd) (vaddr + i.instSize.setWidth 64)) :=
    commitDsts_full rfl fresh.mask1 fresh.mask2
  have plain : ctx.info.type ≠ .amo ∧ ctx.info.type ≠ .store ∧ ctx.info.type ≠ .sc := by
    change type ≠ .amo ∧ type ≠ .store ∧ type ≠ .sc
    rcases jumps with type | type <;> rw [type] <;> exact ⟨nofun, nofun, nofun⟩
  have target : nextPc vaddr ctx.info = vaddr + imm := by
    rcases jumps with same | same <;>
    · rw [nextPc, show ctx.info.type = _ from same]
      rfl
  have code : ctx.info.exception = excNone := fresh.exception
  rw [completes_iff fetched ran quiet, updateEnv_registers code plain dsts,
    ← instSize_eq fetched]
  exact congrArg Except.ok (Prod.ext target rfl)

end Completes

/-! ### The state that the manual asks for -/

namespace BaseInstr

/-- Putting `x0` back changes nothing if it is zero. -/
theorem set_zero {s : ArchState} (zero : s.gpr 0 = 0) : s.set (.gpr 0) 0 = s := by
  have same := ArchState.set_get s (.gpr 0)
  rwa [show s.get (.gpr 0) = 0 from zero] at same

/-- What `updateEnv` leaves of a write is what the manual asks for. -/
theorem write_eq {s : ArchState} (zero : s.gpr 0 = 0) (rd : BitVec 5) (value : Word) :
    (s.set (.gpr rd) value).set (.gpr 0) 0 = if rd = 0 then s else s.set (.gpr rd) value := by
  split
  · rename_i drop
    rw [drop, ArchState.set_set, set_zero zero]
  · rename_i named
    have other : StateWord.gpr rd ≠ .gpr 0 := fun same => named (StateWord.gpr.inj same)
    rw [ArchState.set_comm _ _ _ other, set_zero zero]

/-- The body computes what is written, tests whether the branch is taken, or jumps. -/
theorem body_cases (i : BaseInstr) :
    (∃ rd f type, i.body = .compute rd f type ∧ ∀ s pc following, ∃ value, f s pc = some value ∧
      i.written s pc following = some (rd, value) ∧ i.next s pc following = following) ∨
    (∃ taken imm, i.body = .cond taken imm ∧ ∀ s pc following,
      i.written s pc following = none ∧
        i.next s pc following = if taken s then pc + imm else following) ∨
    ∃ rd imm, i.body = .jal rd imm ∧ ∀ s pc following,
      i.written s pc following = some (rd, following) ∧ i.next s pc following = pc + imm := by
  cases i with
  | reg op rd rs1 rs2 =>
      exact .inl ⟨_, _, _, op.trans_eq ⟨rd, rs1, rs2⟩, fun _ _ _ => ⟨_, rfl, rfl, rfl⟩⟩
  | regImm op imm rd rs1 =>
      exact .inl ⟨_, _, _, op.trans_eq ⟨imm.signExtend 64, rs1, rd⟩,
        fun _ _ _ => ⟨_, rfl, rfl, rfl⟩⟩
  | shift op shamt rd rs1 =>
      exact .inl ⟨_, _, _, op.trans_eq shamt rd rs1, fun _ _ _ => ⟨_, rfl, rfl, rfl⟩⟩
  | shiftW op shamt rd rs1 =>
      exact .inl ⟨_, _, _, op.transW_eq shamt rd rs1, fun _ _ _ => ⟨_, rfl, rfl, rfl⟩⟩
  | lui imm rd => exact .inl ⟨_, _, _, rfl, fun _ _ _ => ⟨_, rfl, rfl, rfl⟩⟩
  | auipc imm rd => exact .inl ⟨_, _, _, rfl, fun _ _ _ => ⟨_, rfl, rfl, rfl⟩⟩
  | branch op imm rs1 rs2 =>
      refine .inr (.inl ⟨_, _, op.trans_eq ⟨(imm ++ 0#1).signExtend 64, rs2, rs1⟩, ?_⟩)
      intro s pc following
      refine ⟨rfl, ?_⟩
      rw [next]
      simp only [decide_eq_true_eq]
  | jal imm rd => exact .inr (.inr ⟨_, _, rfl, fun _ _ _ => ⟨rfl, rfl⟩⟩)

/-- The instruction at an address, decoded and committed, leaves the state that the manual asks
for, and the memory as the fetch did. -/
def Computes (P : Platform δ) (i : BaseInstr) (rvc : Bool) (arch a : RiscvArch δ)
    (vaddr paddr : Word) (slot : DecodeInfo) : Prop :=
  let following := vaddr + instBytes rvc
  ∃ arch', Completes P arch vaddr paddr slot (i.next a.state vaddr following) arch' ∧
    arch'.memory = a.memory ∧ arch'.state = i.after a.state vaddr following

/-- An instruction whose body is picked does what the manual says. -/
theorem computes_of_body {P : Platform δ} {arch a : RiscvArch δ} {vaddr paddr : Word}
    {slot : DecodeInfo} {rvc : Bool} {word : BitVec 32} (i : BaseInstr)
    (fetches : Fetches P arch paddr slot rvc word a) (body : selected word rvc = i.body)
    (quiet : irqException a.state = none) (zero : a.state.gpr 0 = 0) :
    i.Computes P rvc arch a vaddr paddr slot := by
  have writes {rd : BitVec 5} {value : Word}
      (written : i.written a.state vaddr (vaddr + instBytes rvc) = some (rd, value)) :
      (a.afterWrite vaddr paddr rd value).state =
        i.after a.state vaddr (vaddr + instBytes rvc) := by
    rw [after, written]
    exact write_eq zero rd value
  rcases i.body_cases with ⟨rd, f, type, shape, values⟩ | ⟨taken, imm, shape, values⟩ |
    ⟨rd, imm, shape, values⟩
  · obtain ⟨value, computed, written, next⟩ := values a.state vaddr (vaddr + instBytes rvc)
    refine ⟨a.afterWrite vaddr paddr rd value, ?_, rfl, writes written⟩
    rw [next]
    exact (completes_compute_iff fetches (body.trans shape) quiet).2 ⟨value, computed, rfl, rfl⟩
  · obtain ⟨written, next⟩ := values a.state vaddr (vaddr + instBytes rvc)
    refine ⟨a.afterBranch vaddr paddr, ?_, rfl, ?_⟩
    · rw [next]
      exact completes_cond fetches (body.trans shape) quiet
    · rw [after, written]
      exact set_zero zero
  · obtain ⟨written, next⟩ := values a.state vaddr (vaddr + instBytes rvc)
    refine ⟨a.afterWrite vaddr paddr rd (vaddr + instBytes rvc), ?_, rfl, writes written⟩
    rw [next]
    exact completes_jal fetches (body.trans shape) quiet

end BaseInstr

/-- The word of LPAD is that of AUIPC with the destination `x0`. -/
theorem BaseInstr.eq_of_isLpad {i : BaseInstr} (lpad : i.IsLpad) : ∃ imm, i = .auipc imm 0 := by
  cases i with
  | auipc imm rd =>
      obtain rfl : rd = 0 := lpad
      exact ⟨imm, rfl⟩
  | _ => exact lpad.elim

/-! ### Both encodings -/

namespace CompactBase

/-- `c.mv` writes the same as the `add` that it stands for. -/
theorem decoded_eq (c : CompactBase) {s : ArchState} (zero : s.gpr 0 = 0) (pc following : Word) :
    c.decoded.next s pc following = c.expand.next s pc following ∧
      c.decoded.after s pc following = c.expand.after s pc following := by
  cases c with
  | mv rd rs2 named =>
      have value : s.gpr rs2 + (0 : BitVec 12).signExtend 64 = s.gpr 0 + s.gpr rs2 := by
        rw [zero]
        exact (BitVec.add_zero _).trans (BitVec.zero_add _).symm
      refine ⟨rfl, ?_⟩
      exact congrArg (fun v => if rd = 0 then s else s.set (.gpr rd) v) value
  | _ => exact ⟨rfl, rfl⟩

/-- No compressed instruction is one. -/
theorem expand_not_lpad (c : CompactBase) : ¬ c.expand.IsLpad := by
  cases c with
  | shiftRight signed shamt rd => cases signed <;> exact id
  | branch equal k rs1 => cases equal <;> exact id
  | _ => exact id

end CompactBase

/-- An instruction in one of its encodings. -/
inductive BaseEncoding
  | word32 (i : BaseInstr)
  | word16 (c : CompactBase)

namespace BaseEncoding

/-- The form has two bytes. -/
def rvc : BaseEncoding → Bool
  | word32 _ => false
  | word16 _ => true

/-- The word as it is fetched. -/
def word : BaseEncoding → BitVec 32
  | word32 i => i.word
  | word16 c => c.word

/-- The instruction that the word stands for. -/
def instr : BaseEncoding → BaseInstr
  | word32 i => i
  | word16 c => c.expand

end BaseEncoding

/-- In every reachable machine an instruction of RV64I, decoded and committed with no interrupt
pending, leaves the state that the manual asks for, and `x0` is zero, exactly when it is not
`auipc x0`. Its words are those of `lpad`, which the decoder tries first and whose body stops
the simulator. -/
theorem BaseEncoding.computes_iff {P : Platform δ} {m : Machine δ} (reached : m.Reachable P)
    (e : BaseEncoding) (vaddr : Word) {paddr : Word} {slot : DecodeInfo} {a : RiscvArch δ}
    (fetches : Fetches P m.arch paddr slot e.rvc e.word a) (quiet : irqException a.state = none) :
    e.instr.Computes P e.rvc m.arch a vaddr paddr slot ∧ m.arch.state.gpr 0 = 0 ↔
      ¬ e.instr.IsLpad := by
  have clear : m.arch.state.gpr 0 = 0 := reached.zero
  rw [and_iff_left clear]
  have zero : a.state.gpr 0 = 0 := by
    obtain ⟨i, fetched, -⟩ := fetches
    have frame : ReadFrame m.arch a := fetch_frame P m.arch paddr slot _ fetched
    have kept : a.state.get (.gpr 0) = m.arch.state.get (.gpr 0) := frame.get nofun
    exact kept.trans clear
  cases e with
  | word16 c =>
      refine iff_of_true ?_ c.expand_not_lpad
      obtain ⟨next, after⟩ := c.decoded_eq zero vaddr (vaddr + instBytes true)
      have computes : c.decoded.Computes P true m.arch a vaddr paddr slot :=
        c.decoded.computes_of_body fetches c.selected_eq quiet zero
      rw [BaseInstr.Computes, next, after] at computes
      exact computes
  | word32 i =>
      by_cases lpad : i.IsLpad
      · refine iff_of_false ?_ (not_not_intro lpad)
        rintro ⟨arch', completes, -⟩
        obtain ⟨imm, rfl⟩ := BaseInstr.eq_of_isLpad lpad
        obtain ⟨record, fetched, same⟩ := fetches
        refine not_completes (e := .exit) fetched ?_ completes
        rw [same]
        exact congrArg (fun b => Body.exec P b _) (BaseInstr.selected_lpad imm)
      · exact iff_of_true (i.computes_of_body fetches (i.selected_eq lpad) quiet zero) lpad

/-- `addi x1, x0, 5`, then `add x2, x1, x1`. -/
def addProgram : Machine Unit :=
  Machine.reset archCfg (imageOf [0x00500093, 0x00108133])

/-- The second instruction of `addProgram`, with 5 in `x1`. -/
theorem BaseEncoding.computes_iff_add :
    ∃ m : Machine Unit, m.Reachable (ramOnly 4096) ∧ m.arch.state.gpr 1 = 5 ∧
      ∃ a, let e : BaseEncoding := .word32 (.reg .add 2 1 1)
        Fetches (ramOnly 4096) m.arch 0x80000004 .zero e.rvc e.word a ∧
          (e.instr.Computes (ramOnly 4096) e.rvc m.arch a 0x80000004 0x80000004 .zero ∧
            m.arch.state.gpr 0 = 0 ↔ ¬ e.instr.IsLpad) := by
  obtain ⟨m, ran, five⟩ := exists_ok_of_toOption
    (show (runSteps (Machine.step (ramOnly 4096)) addProgram
      (Machine.execAt 0x80000000)).toOption.map (fun m => m.arch.state.gpr 1) = some 5 by
        decide +kernel)
  have fetch : (runSteps (Machine.step (ramOnly 4096)) addProgram (Machine.execAt 0x80000000) >>=
      fun m => m.arch.fetch (ramOnly 4096) 0x80000004 .zero).toOption.map (fun f =>
        (f.1, f.2.2.inst, irqException f.2.1.state)) = some (false, 0x00108133, none) := by
    decide +kernel
  rw [ran] at fetch
  obtain ⟨⟨rvc, a, i⟩, fetched, seen⟩ := exists_ok_of_toOption fetch
  simp only [Prod.mk.injEq] at seen
  obtain ⟨rfl, inst, quiet⟩ := seen
  have reached : m.Reachable (ramOnly 4096) := ⟨archCfg, _, _, by decide, ran⟩
  have fetches : Fetches (ramOnly 4096) m.arch 0x80000004 .zero false
      (BaseEncoding.word32 (.reg .add 2 1 1)).word a := ⟨i, fetched, inst⟩
  exact ⟨m, reached, five, a, fetches,
    BaseEncoding.computes_iff reached (.word32 (.reg .add 2 1 1)) 0x80000004 fetches quiet⟩

/-- `auipc x0, 1` stops the simulator. -/
theorem BaseEncoding.not_computes_auipc :
    let e : BaseEncoding := .word32 (.auipc 1 0)
    let m := Machine.reset archCfg (imageOf [e.word])
    m.Reachable (ramOnly 4096) ∧ irqException m.arch.state = none ∧
      Fetches (ramOnly 4096) m.arch 0x80000000 .zero e.rvc e.word m.arch ∧
      ¬ e.instr.Computes (ramOnly 4096) e.rvc m.arch m.arch 0x80000000 0x80000000 .zero := by
  refine ⟨⟨archCfg, _, [], by decide, rfl⟩, by decide +kernel, ⟨_, rfl, by decide +kernel⟩, ?_⟩
  rintro ⟨arch', completes, -⟩
  refine not_completes (e := .exit) (i := _) rfl ?_ completes
  rfl

end CPUDelaySim.Riscv
