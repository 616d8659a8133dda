import CPUDelaySim.Riscv.Patch
import CPUDelaySim.Riscv.Run

/-!
# Illegal instructions

An instruction is illegal when the decoder rejects its word or its body raises
`EXC_II`.  A rejected word has no body to raise anything: `decode` logs it and leaves
a record that `updateEnv` commits.  Of the bodies, `riscv_csrrw_check` and the returns
store the word in `exc_data`, the CSR callbacks and the floating-point guard leave
there what the record held.  `preciseTrap_iff` says which of them trap precisely.
-/

namespace CPUDelaySim.Riscv

variable {δ : Type}

open RiscvArch

/-! ### The trap an illegal instruction should take -/

/-- An illegal-instruction trap goes to S. -/
def IllegalDelegated (s : ArchState) : Prop :=
  (s.get .medeleg).getLsbD 2 = true ∧ s.get .priv ≠ modeM

/-- From the state `before` that `decode` started in and the one it left, `updateEnv`
takes the illegal-instruction trap for the word at `pc`, and changes nothing else.
`mip` belongs to the devices, which the fetch may have read. -/
structure PreciseTrap (P : Platform δ) (before : RiscvArch δ) (pc : Word) (inst : BitVec 32)
    (arch : RiscvArch δ) (info : DecodeInfo) : Prop where
  taken : info.exception = excII
  entered : ∃ r, arch.updateEnv P info = .ok r ∧
    TrapRegisters r.2.state (IllegalDelegated before.state) excII pc (inst.setWidth 64) ∧
    (∀ w, w ∉ trapWords → w ≠ .mip → r.2.state.get w = before.state.get w) ∧
    r.2.memory.ram = before.memory.ram

/-- Bit 2 of `medeleg` decides where an illegal instruction traps to. -/
theorem edelegValid_illegal (s : ArchState) {info : DecodeInfo} (code : info.exception = excII) :
    edelegValid s info = true ↔ IllegalDelegated s := by
  have plain : isIrq info = false := by rw [isIrq, code]; rfl
  have mask : exceptionMask info = 1#64 <<< 2 := by rw [exceptionMask, code]; rfl
  have bit : s.get .medeleg &&& (1#64 <<< 2) ≠ 0 ↔ (s.get .medeleg).getLsbD 2 = true := by
    rw [← BitVec.twoPow_eq, BitVec.and_twoPow]
    split
    · rename_i set
      exact iff_of_true (by decide) set
    · rename_i clear
      exact iff_of_false (fun h => h rfl) clear
  simp only [edelegValid, plain, mask, Bool.false_eq_true, if_false, Bool.and_eq_true,
    bne_iff_ne, ne_eq, IllegalDelegated]
  exact and_congr bit Iff.rfl

/-! ### Which illegal instructions take it -/

/-- The record names the instruction: the body stores the word in `exc_data`, or the
record happened to hold it. -/
def NamesInstruction (P : Platform δ) (b : Body) (arch : RiscvArch δ) (slot : DecodeInfo)
    (inst : BitVec 32) : Prop :=
  ¬ b.SilentFault P arch ∨ slot.excData = inst.setWidth 64

/-- A record with `EXC_II` and the word in `exc_data` traps precisely, from a machine
that decoding moved along a read frame. -/
theorem preciseTrap_of_record (P : Platform δ) {before arch : RiscvArch δ} {pc paddr : Word}
    {inst : BitVec 32} {info : DecodeInfo}
    (frame : ReadFrame ({ before with pc := pc, paddr := paddr } : RiscvArch δ) arch)
    (code : info.exception = excII) :
    PreciseTrap P before pc inst arch info ↔ info.excData = inst.setWidth 64 := by
  have entered : arch.updateEnv P info = .ok (arch.trap info info.excData) := by
    rw [updateEnv, if_neg, if_neg, if_pos]
    · rw [code]; decide
    · rw [code]; decide
    · rw [isIrq, code]; decide
  have delegated : edelegValid arch.state info = true ↔ IllegalDelegated before.state := by
    rw [edelegValid_illegal arch.state code, IllegalDelegated, IllegalDelegated,
      frame.get (w := .medeleg) (by decide), frame.get (w := .priv) (by decide)]
  have registers := trap_registers arch info info.excData
  rw [delegated, frame.pc, code] at registers
  constructor
  · rintro ⟨-, r, ran, named, -, -⟩
    rw [entered] at ran
    cases ran
    by_cases super : IllegalDelegated before.state
    · exact (registers.1 super).2.2.symm.trans (named.1 super).2.2
    · exact (registers.2 super).2.2.symm.trans (named.2 super).2.2
  · intro data
    refine ⟨code, _, entered, ?_, ?_, ?_⟩
    · rw [← data]
      exact registers
    · intro w other mip
      rw [trap_get arch info _ other]
      exact frame.get mip
    · rw [trap_memory]
      obtain ⟨dev, mip, rfl⟩ := frame
      rfl

/-- A fetch leaves the address that was noted before. -/
theorem fetch_keeps (P : Platform δ) (arch : RiscvArch δ) (paddr : Word) (slot : DecodeInfo) :
    Returns (arch.fetch P paddr slot) fun f => f.2.2.excData = slot.excData := by
  simp only [fetch, returns_bind, returns_pure]
  exact fun _ _ => trivial

/-- The record an illegal body leaves names the instruction, unless the body is silent
and the record held something else. -/
theorem illegal_excData {P : Platform δ} {b : Body} {inst : BitVec 32} {a a' : RiscvArch δ}
    {p : Patch} (spec : PatchSpec P b inst a a' p) (low : a.state.get .priv < 4)
    (raised : p.exception = some excII) (slot : DecodeInfo) :
    p.excData.getD slot.excData = inst.setWidth 64 ↔ NamesInstruction P b a slot inst := by
  have illegal := (spec.illegal low).1 raised
  have silent : b.SilentFault P a ↔ p.excData = none := by
    rw [← spec.silent]
    constructor
    · rintro ⟨-, -, -, none⟩
      exact none
    · intro none
      exact ⟨excII, by decide, raised, none⟩
  rw [NamesInstruction, silent]
  rcases spec.inst illegal with none | some
  · simp [none]
  · simp [some]

/-- With no interrupt pending, an illegal instruction traps precisely exactly when the decoder
accepts its word and the record names it. A rejected word raises nothing and is committed as
whatever the record says; and the callbacks and guards that raise leave the trap value to what
was in the record. -/
theorem preciseTrap_iff (P : Platform δ) {m : Machine δ} (reached : m.Reachable P)
    (vaddr paddr : Word) (slot : DecodeInfo) {rvc : Bool} {a : RiscvArch δ} {i : DecodeInfo}
    (fetched : m.arch.fetch P paddr slot = .ok (rvc, a, i)) :
    Returns (m.arch.decode P vaddr paddr slot) fun r =>
      irqException r.1.state = none →
      (selected i.inst rvc).accepts = false ∨ r.2.exception = excII →
      (PreciseTrap P m.arch vaddr i.inst r.1 r.2 ↔
        (selected i.inst rvc).accepts = true ∧
          NamesInstruction P (selected i.inst rvc) (bodyCtx a vaddr paddr i).arch slot
            i.inst) := by
  rw [decode_returns, fetched, returns_ok]
  dsimp only
  have kept := fetch_keeps P m.arch paddr slot _ fetched
  have frame : ReadFrame ({ m.arch with pc := vaddr, paddr := paddr } : RiscvArch δ)
      (bodyCtx a vaddr paddr i).arch := by
    obtain ⟨dev, mip, rfl⟩ := fetch_frame P m.arch paddr slot _ fetched
    exact ⟨dev, mip, rfl⟩
  have low : (bodyCtx a vaddr paddr i).arch.state.get .priv < 4 := by
    rw [frame.get (by decide)]
    exact reached.priv_lt
  generalize selected i.inst rvc = b
  intro r ran quiet illegal
  have unmasked : report r.2 = r.2.info := by rw [report, quiet]
  rw [unmasked] at illegal ⊢
  cases accepted : b.accepts with
  | false =>
      -- Nothing rejects but `unsupported`, which leaves the code `decode` began with.
      have : b = .unsupported := by
        cases b <;> first | rfl | simp [Body.accepts] at accepted
      subst this
      cases ran
      refine iff_of_false ?_ (by simp)
      rintro ⟨taken, -⟩
      exact absurd (show excNone = excII from taken) (by decide)
  | true =>
      rw [accepted] at illegal
      have code : r.2.info.exception = excII := illegal.resolve_left (by simp)
      obtain ⟨p, patched, spec⟩ := exec_patch P b (bodyCtx a vaddr paddr i) r ran
      have raised : p.exception = some excII := by
        rw [patched] at code
        cases h : p.exception with
        | some c =>
            rw [Patch.apply, h] at code
            exact congrArg some code
        | none =>
            rw [Patch.apply, h] at code
            exact absurd (show excNone = excII from code) (by decide)
      -- The body raised before it changed anything.
      have unmoved := spec.still ((spec.illegal low).1 raised)
      have named : _ ↔ NamesInstruction P b _ slot i.inst := illegal_excData spec low raised slot
      rw [unmoved, preciseTrap_of_record P frame code, ← named, ← kept, patched]
      exact (and_iff_right rfl).symm

/-- `csrr ra, 0x123`, a number no CSR is registered under, and a word of no
instruction. -/
def illegalProgram : Machine Unit :=
  Machine.reset archCfg (imageOf [0x123020f3, 0x0000000b])

/-- The unregistered CSR of `illegalProgram` is a precise trap. -/
theorem preciseTrap_iff_illegalProgram :
    ∃ rvc a i, illegalProgram.arch.fetch (ramOnly 4096) 0x80000000 .zero = .ok (rvc, a, i) ∧
      Returns (illegalProgram.arch.decode (ramOnly 4096) 0x80000000 0x80000000 .zero) fun r =>
        irqException r.1.state = none →
        (selected i.inst rvc).accepts = false ∨ r.2.exception = excII →
        (PreciseTrap (ramOnly 4096) illegalProgram.arch 0x80000000 i.inst r.1 r.2 ↔
          (selected i.inst rvc).accepts = true ∧
            NamesInstruction (ramOnly 4096) (selected i.inst rvc)
              (bodyCtx a 0x80000000 0x80000000 i).arch .zero i.inst) := by
  obtain ⟨⟨rvc, a, i⟩, fetched, -⟩ := exists_ok_of_toOption
    (show (illegalProgram.arch.fetch (ramOnly 4096) 0x80000000 .zero).toOption.map
      (fun f => f.1) = some false by decide +kernel)
  exact ⟨rvc, a, i, fetched, preciseTrap_iff (ramOnly 4096)
    ⟨archCfg, _, [], by decide, rfl⟩ 0x80000000 0x80000000 .zero fetched⟩

/-- The rejected word of `illegalProgram` does not trap: its record says that there is
no exception. -/
theorem not_preciseTrap_illegalProgram :
    ∃ m : Machine Unit, m.Reachable (ramOnly 4096) ∧
      ∃ rvc a i, m.arch.fetch (ramOnly 4096) 0x80000004 .zero = .ok (rvc, a, i) ∧
        (selected i.inst rvc).accepts = false ∧
        ∃ r, m.arch.decode (ramOnly 4096) 0x80000004 0x80000004 .zero = .ok r ∧
          irqException r.1.state = none ∧
          ¬ PreciseTrap (ramOnly 4096) m.arch 0x80000004 i.inst r.1 r.2 := by
  obtain ⟨⟨rvc, a, i⟩, fetched, rejected⟩ := exists_ok_of_toOption
    (show (illegalProgram.arch.fetch (ramOnly 4096) 0x80000004 .zero).toOption.map
      (fun f => (selected f.2.2.inst f.1).accepts) = some false by decide +kernel)
  obtain ⟨r, decoded, seen⟩ := exists_ok_of_toOption
    (show (illegalProgram.arch.decode (ramOnly 4096) 0x80000004 0x80000004 .zero).toOption.map
      (fun r => (irqException r.1.state, r.2.exception)) = some (none, excNone)
      by decide +kernel)
  simp only [Prod.mk.injEq] at seen
  obtain ⟨quiet, code⟩ := seen
  refine ⟨illegalProgram, ⟨archCfg, _, [], by decide, rfl⟩, rvc, a, i, fetched, rejected, r,
    decoded, quiet, ?_⟩
  rintro ⟨taken, -⟩
  rw [code] at taken
  exact absurd taken (by decide)

end CPUDelaySim.Riscv
