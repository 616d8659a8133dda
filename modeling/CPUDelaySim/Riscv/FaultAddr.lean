import CPUDelaySim.Riscv.MemInstr
import CPUDelaySim.Riscv.Slots

/-!
# The address of a faulting access

A trap for a misaligned access or a page fault stores `exc_data` in the trap value register.
Every integer body stores its address there before it checks anything; the four
floating-point bodies do not, and report the address that the record was left with by an
instruction before.  `reports_iff` says so for every memory instruction.
-/

namespace CPUDelaySim.Riscv

variable {δ : Type}

open RiscvArch

/-- The exceptions that a data access raises. -/
def accessCodes : List Word := [excLAM, excSAM, excLPF, excSPF]

/-- The faults of an access are faults. -/
theorem faultCodes_of_access {code : Word} (listed : code ∈ accessCodes) : code ∈ faultCodes := by
  simp only [accessCodes, List.mem_cons, List.not_mem_nil, or_false] at listed
  rcases listed with rfl | rfl | rfl | rfl <;> decide

/-! ### `exc_data` -/

/-- A fetch leaves the address that was noted before. -/
theorem fetch_excData (P : Platform δ) (arch : RiscvArch δ) (paddr : Word) (slot : DecodeInfo) :
    Returns (arch.fetch P paddr slot) fun f => f.2.2.excData = slot.excData := by
  simp only [fetch, returns_bind, returns_pure]
  exact fun _ _ => trivial

/-- So does a load, which has noted its own before. -/
theorem ld_excData (P : Platform δ) (width : Width) (ctx : Ctx δ) (va : Word) :
    Returns (ld P width ctx va) fun r => r.2.info.excData = ctx.info.excData := by
  refine (ld_spec P width ctx va).mono ?_
  rintro ⟨data, c⟩ ⟨-, left⟩
  cases c with
  | mk arch info => cases left <;> rfl

/-- So does the check of a store. -/
theorem st_excData (P : Platform δ) (width : Width) (ctx : Ctx δ) (va : Word) :
    Returns (st P width ctx va) fun c => c.info.excData = ctx.info.excData := by
  refine (st_spec P width ctx va).mono ?_
  rintro ⟨arch, info⟩ ⟨-, left⟩
  cases left <;> rfl

/-- The address that a body stores in `exc_data`, if it does. -/
def Body.recorded : Body → Option (ArchState → Word)
  | .load _ addr _ _ | .store addr _ _ | .amo _ addr _ _ _ | .lr _ addr _ | .sc _ addr _ _ =>
      some addr
  | _ => none

/-- An integer access records its address, whatever it goes on to do. -/
theorem exec_recorded (P : Platform δ) {b : Body} {addr : ArchState → Word}
    (records : b.recorded = some addr) (ctx : Ctx δ) :
    Returns (b.exec P ctx) fun r => r.2.info.excData = addr ctx.arch.state := by
  cases b with
  | load rd addr' width ext =>
      cases records
      simp only [Body.exec, returns_bind, returns_pure]
      exact ld_excData P width _ _
  | store addr' width data =>
      cases records
      simp only [Body.exec, returns_bind, returns_pure]
      exact st_excData P width _ _
  | amo rd addr' width data op =>
      cases records
      simp only [Body.exec, returns_bind, returns_pure]
      intro r loaded
      exact (st_excData P width r.2 _).mono fun c stored =>
        stored.trans (ld_excData P width _ _ r loaded)
  | lr rd addr' width =>
      cases records
      simp only [Body.exec, returns_bind, returns_pure]
      exact ld_excData P width _ _
  | sc rd addr' width src =>
      cases records
      simp only [Body.exec, returns_bind, returns_pure]
      intro r tested
      have kept : r.2.info.excData = addr ctx.arch.state := by
        unfold scFails at tested
        split at tested
        · cases tested
          rfl
        · rw [bind_eq_ok] at tested
          obtain ⟨l, loaded, result⟩ := tested
          cases result
          exact ld_excData P width _ _ l loaded
      unfold scResult
      split
      · exact (returns_ok _ _).2 kept
      · rw [returns_bind]
        exact (st_excData P width r.2 _).mono fun c stored =>
          (returns_pure _ _).2 (stored.trans kept)
  | _ => cases records

/-- The floating-point accesses leave it. -/
theorem exec_silent (P : Platform δ) {b : Body}
    (float : (∃ rd addr width box, b = .fload rd addr width box) ∨
      ∃ addr width data, b = .fstore addr width data) (ctx : Ctx δ) :
    Returns (b.exec P ctx) fun r => r.2.info.excData = ctx.info.excData := by
  rcases float with ⟨rd, addr, width, box, rfl⟩ | ⟨addr, width, data, rfl⟩
  · simp only [Body.exec, requireFpu]
    split
    · exact (returns_ok _ _).2 rfl
    · simp only [returns_bind, returns_pure]
      exact ld_excData P width _ _
  · simp only [Body.exec, returns_bind, returns_pure]
    exact st_excData P width _ _

namespace MemInstr

/-- The body of an integer instruction records the effective address. -/
theorem recorded_eq (m : MemInstr) (integer : ¬ m.IsFloat) : m.body.recorded = some m.address := by
  cases m with
  | load op rd rs1 imm => cases op <;> rfl
  | store width rs2 rs1 imm => cases width <;> rfl
  | fload | fstore => exact absurd trivial integer
  | amo op size aqrl rd rs1 rs2 => cases op <;> cases size <;> rfl
  | lr size aqrl rd rs1 => cases size <;> rfl
  | sc size aqrl rd rs1 rs2 => cases size <;> rfl
  | compact op k base r =>
      cases op with
      | fld => exact absurd (.inl rfl) integer
      | fsd => exact absurd (.inr rfl) integer
      | lw | ld | sw | sd => rfl
  | stack op k r names =>
      cases op with
      | fld => exact absurd (.inl rfl) integer
      | fsd => exact absurd (.inr rfl) integer
      | lw | ld | sw | sd => rfl

/-- A floating-point access is a load or a store of the unit. -/
theorem body_float (m : MemInstr) (float : m.IsFloat) :
    (∃ rd addr width box, m.body = .fload rd addr width box) ∨
      ∃ addr width data, m.body = .fstore addr width data := by
  cases m with
  | fload size rd rs1 imm => cases size <;> exact .inl ⟨_, _, _, _, rfl⟩
  | fstore size rs2 rs1 imm => cases size <;> exact .inr ⟨_, _, _, rfl⟩
  | compact op k base r | stack op k r names =>
      rcases float with rfl | rfl
      · exact .inl ⟨_, _, _, _, rfl⟩
      · exact .inr ⟨_, _, _, rfl⟩
  | load | store | amo | lr | sc => exact float.elim

/-- The effective address depends on the registers alone. -/
theorem address_congr (m : MemInstr) {s s' : ArchState}
    (same : ∀ i, s'.get (.gpr i) = s.get (.gpr i)) : m.address s' = m.address s := by
  cases m <;> simp only [address, ArchState.gpr, same]

/-! ### The trap -/

/-- The trap of the record delivers the effective address, and neither a register nor a byte
of RAM changed since `arch`. -/
def Reports (P : Platform δ) (m : MemInstr) (arch : RiscvArch δ) (d : RiscvArch δ × DecodeInfo) :
    Prop :=
  ∃ r, d.1.updateEnv P d.2 = .ok r ∧
    r.2.state.get (tvalWord d.1 d.2) = m.address arch.state ∧
    (∀ i, r.2.state.get (.gpr i) = arch.state.get (.gpr i)) ∧
    (∀ i, r.2.state.get (.fpr i) = arch.state.get (.fpr i)) ∧
    r.2.memory.ram = arch.memory.ram

section Reports

variable {P : Platform δ} {m : MemInstr} {arch a : RiscvArch δ} {vaddr paddr : Word}
variable {slot : DecodeInfo} {d : RiscvArch δ × DecodeInfo}

/-- What the record of a memory instruction holds in `exc_data`. -/
theorem decoded_excData (fetches : Fetches P arch paddr slot m.rvc m.word a)
    (decoded : arch.decode P vaddr paddr slot = .ok d) :
    d.2.excData = if m.IsFloat then slot.excData else m.address arch.state := by
  obtain ⟨i, fetched, word⟩ := fetches
  have frame := fetch_frame P arch paddr slot _ fetched
  have kept : i.excData = slot.excData := fetch_excData P arch paddr slot _ fetched
  rw [decode_eq, fetched] at decoded
  change ((selected i.inst m.rvc).exec P (bodyCtx a vaddr paddr i) >>= _) = _ at decoded
  rw [word, m.selected_eq, bind_eq_ok] at decoded
  obtain ⟨r, ran, result⟩ := decoded
  cases result
  change (report r.2).excData = _
  rw [report_excData]
  by_cases float : m.IsFloat
  · rw [if_pos float, ← kept]
    exact exec_silent P (m.body_float float) _ r ran
  · rw [if_neg float, exec_recorded P (m.recorded_eq float) _ r ran]
    exact m.address_congr fun i => frame.get (by simp)

/-- The trap delivers what the record holds, and changes nothing but the trap registers. -/
theorem reports_iff_excData (decoded : arch.decode P vaddr paddr slot = .ok d)
    (faults : d.2.exception ∈ accessCodes) :
    m.Reports P arch d ↔ d.2.excData = m.address arch.state := by
  have frame := (decode_spec P arch vaddr paddr slot d decoded).frame
  have trapped := updateEnv_fault P d.1 (faultCodes_of_access faults)
  constructor
  · rintro ⟨r, updated, tval, -⟩
    cases trapped.symm.trans updated
    rw [← tval, trap_tval]
  · intro same
    refine ⟨_, trapped, (trap_tval _ _ _).trans same, fun i => ?_, fun i => ?_, ?_⟩
    · rw [trap_get _ _ _ (by simp [trapWords])]
      exact frame.get _ (by simp) (by simp) (by simp)
    · rw [trap_get _ _ _ (by simp [trapWords])]
      exact frame.get _ (by simp) (by simp) (by simp)
    · rw [trap_memory]
      exact frame.ram

end Reports

/-- A memory instruction that faults reports its own address exactly when it is not a
floating-point access, or the record happens to hold that address already. The bodies of `flw`,
`fld`, `fsw` and `fsd` leave `exc_data` alone, and `decode` does not clear it. -/
theorem reports_iff (P : Platform δ) (m : MemInstr) {arch a : RiscvArch δ} {vaddr paddr : Word}
    {slot : DecodeInfo} {d : RiscvArch δ × DecodeInfo}
    (fetches : Fetches P arch paddr slot m.rvc m.word a)
    (decoded : arch.decode P vaddr paddr slot = .ok d) (faults : d.2.exception ∈ accessCodes) :
    m.Reports P arch d ↔ ¬ m.IsFloat ∨ slot.excData = m.address arch.state := by
  rw [reports_iff_excData decoded faults, decoded_excData fetches decoded]
  by_cases float : m.IsFloat
  · simp [float]
  · simp [float]

/-- `lw x1, 2(x0)` and `fsw f0, 1(x0)`, both misaligned. -/
def faultProgram : RiscvArch Unit :=
  .reset archCfg (imageOf [(load .lw 1 0 2).word, (fstore .w 0 0 1).word])

/-- `lw` on a cleared record. -/
theorem reports_iff_faultProgram : ∃ d,
    (load .lw 1 0 2).Reports (ramOnly 4096) faultProgram d ↔
      ¬ (load .lw 1 0 2).IsFloat ∨
        DecodeInfo.zero.excData = (load .lw 1 0 2).address faultProgram.state := by
  obtain ⟨d, decoded, code⟩ := exists_ok_of_toOption (x := faultProgram.decode (ramOnly 4096)
    0x80000000 0x80000000 .zero) (f := (·.2.exception)) (b := excLAM) (by decide +kernel)
  exact ⟨d, reports_iff (ramOnly 4096) (load .lw 1 0 2) ⟨_, rfl, by decide +kernel⟩ decoded
    (by rw [code]; decide)⟩

/-- Into the record of `lw`, `fsw` is decoded after the trap, and reports the address 2. -/
theorem not_reports_faultProgram : ∃ first r second,
    faultProgram.decode (ramOnly 4096) 0x80000000 0x80000000 .zero = .ok first ∧
      first.1.updateEnv (ramOnly 4096) first.2 = .ok r ∧
      r.2.decode (ramOnly 4096) r.1 0x80000004 first.2 = .ok second ∧
      second.2.exception = excSAM ∧
      ¬ (fstore .w 0 0 1).Reports (ramOnly 4096) r.2 second := by
  obtain ⟨⟨first, r, second⟩, ran, values⟩ := exists_ok_of_toOption
    (x := do
      let first ← faultProgram.decode (ramOnly 4096) 0x80000000 0x80000000 .zero
      let r ← first.1.updateEnv (ramOnly 4096) first.2
      let second ← r.2.decode (ramOnly 4096) r.1 0x80000004 first.2
      return (first, r, second))
    (f := fun t => (t.2.2.2.exception, t.2.2.2.excData, (fstore .w 0 0 1).address t.2.1.2.state))
    (b := (excSAM, 2, 1)) (by decide +kernel)
  simp only [bind_eq_ok] at ran
  obtain ⟨first', decoded, r', updated, second', decoded', same⟩ := ran
  cases same
  obtain ⟨code, stale, own⟩ : second.2.exception = excSAM ∧ second.2.excData = 2 ∧
      (fstore .w 0 0 1).address r.2.state = 1 := by
    simpa only [Prod.mk.injEq] using values
  refine ⟨first, r, second, decoded, updated, decoded', code, ?_⟩
  rw [reports_iff_excData decoded' (by rw [code]; decide), stale, own]
  decide

end MemInstr

end CPUDelaySim.Riscv
