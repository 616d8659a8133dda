import CPUDelaySim.Riscv.Permission

/-!
# The translation switches

`ifetch_mmu_state` and `data_mmu_state` are computed by `updateMMUState` from `satp`, `priv`
and `mstatus`, and stored.  The definitions below follow a call to each `translateAddr` it
makes; `mmuStateFresh_reset` says that at every one of them, in every run, the stored
switches are those of the words.

Every exit of `updateEnv` refreshes the switches.  In between, `decode` may set `mstatus.FS`,
which they do not depend on, and an `sc` translates after its destinations are committed,
which are registers and the reservation.
-/

namespace CPUDelaySim.Riscv

variable {δ : Type}

open RiscvArch

/-! ### The calls of `translateAddr` -/

section Translations

variable (P : Platform δ) (T : RiscvArch δ → Prop)

/-- `ld_*` and `st_*` translate an address that is aligned. -/
def AccessTranslates (width : Width) (arch : RiscvArch δ) (va : Word) : Prop :=
  width.misaligned va = false → T arch

/-- The translations of a body, each in the machine that makes it. -/
def BodyTranslates (b : Body) (ctx : Ctx δ) : Prop :=
  let s := ctx.arch.state
  match b with
  | .load _ addr width _ | .lr _ addr width | .store addr width _ | .fstore addr width _ =>
      AccessTranslates T width ctx.arch (addr s)
  | .fload _ addr width _ =>
      s.fpEnabled = true →
        AccessTranslates T width { ctx.arch with state := s.dirtyFs } (addr s.dirtyFs)
  | .amo _ addr width _ _ =>
      AccessTranslates T width ctx.arch (addr s) ∧
        ∀ r, ld P width (ctx.setExcData (addr s)) (addr s) = .ok r →
          AccessTranslates T width r.2.arch (addr s)
  | .sc _ addr width _ =>
      (addr s = s.get .loadRes → AccessTranslates T width ctx.arch (addr s)) ∧
        ∀ c, scFails P width (ctx.setExcData (addr s)) (addr s) = .ok (false, c) →
          AccessTranslates T width c.arch (addr s)
  | _ => True

/-- The translations of `decode`. -/
def DecodeTranslates (arch : RiscvArch δ) (vaddr paddr : Word) (slot : DecodeInfo) : Prop :=
  ∀ rvc a i, arch.fetch P paddr slot = .ok (rvc, a, i) →
    BodyTranslates P T (selected i.inst rvc) (bodyCtx a vaddr paddr i)

/-- The translation of `updateEnv`: that of an `sc` which has not failed, in the machine the
commit loop leaves. -/
def UpdateTranslates (arch : RiscvArch δ) (info : DecodeInfo) : Prop :=
  info.exception = excNone → info.type = .sc → info.dst0.data = 0 →
    ∀ s, commitDsts arch.state info = .ok s → T { arch with state := s }

/-- The translations of a call. -/
def Machine.CallTranslates (m : Machine δ) : Call δ → Prop
  | .decode vaddr paddr slot => DecodeTranslates P T m.arch vaddr paddr slot
  | .translateAddr _ _ => T m.arch
  | .updateEnv => ∀ info, m.info = some info → UpdateTranslates T m.arch info
  | .handleException _ _ _ | .environment _ _ _ _ => True

end Translations

/-! ### Switches that are up to date -/

namespace RiscvArch

/-- The switches are those of `satp`, `priv` and `mstatus`: `satp.MODE` is Sv39, and the mode that
fetches, or that loads and stores are made for, is not M. -/
structure MmuStateCurrent (a : RiscvArch δ) : Prop where
  ifetch : a.ifetchMmuState =
    ((a.state.get .satp).extractLsb' 60 4 == 8 && a.state.get .priv != modeM)
  data : a.dataMmuState =
    ((a.state.get .satp).extractLsb' 60 4 == 8 && effectiveMode a.state .lfetch != modeM)

/-- `satp >> 60`. -/
theorem satpMode_eq (satp : Word) : (satp >>> 60 == 8) = (satp.extractLsb' 60 4 == 8) := by
  have small : satp.toNat >>> 60 < 16 := by
    rw [Nat.shiftRight_eq_div_pow]
    have := satp.isLt
    omega
  rw [Bool.eq_iff_iff, beq_iff_eq, beq_iff_eq, ← BitVec.toNat_inj, ← BitVec.toNat_inj,
    BitVec.toNat_ushiftRight, BitVec.extractLsb'_toNat]
  rw [Nat.mod_eq_of_lt small]
  rfl

/-- `(mstatus & MPP) >> 11`. -/
theorem statusMpp_eq (mstatus : Word) : (mstatus &&& 0x1800) >>> 11 = statusMpp mstatus := by
  rw [statusMpp, BitVec.ushiftRight_and_distrib]
  rfl

/-- `updateMMUState` computes them. -/
theorem mmuStateCurrent_update (a : RiscvArch δ) : MmuStateCurrent a.updateMMUState := by
  constructor
  · rw [updateMMUState_state, ← satpMode_eq]
    rfl
  · rw [updateMMUState_state, ← satpMode_eq, effectiveMode, ← statusMpp_eq, statusMprv]
    simp only [bne_iff_ne, ne_eq, reduceCtorEq, not_false_eq_true, and_true]
    rfl

variable {a b : RiscvArch δ}

/-- They come from `satp`, `priv`, `MPRV` and `MPP`. -/
theorem MmuStateCurrent.of_words (current : MmuStateCurrent a)
    (ifetch : b.ifetchMmuState = a.ifetchMmuState) (data : b.dataMmuState = a.dataMmuState)
    (satp : b.state.get .satp = a.state.get .satp) (priv : b.state.get .priv = a.state.get .priv)
    (mprv : b.state.get .mstatus &&& 0x20000 = a.state.get .mstatus &&& 0x20000)
    (mpp : b.state.get .mstatus &&& 0x1800 = a.state.get .mstatus &&& 0x1800) :
    MmuStateCurrent b := by
  obtain ⟨ifetch', data'⟩ := current
  constructor
  · rw [ifetch, ifetch', satp, priv]
  · have mode : effectiveMode b.state .lfetch = effectiveMode a.state .lfetch := by
      simp only [effectiveMode, statusMprv, ← statusMpp_eq, priv, mprv, mpp]
    rw [data, data', satp, mode]

/-- The cached state depends on `satp` and the modes. -/
theorem MmuStateCurrent.sameTables (current : MmuStateCurrent a) (same : SameTables a b) :
    MmuStateCurrent b :=
  current.of_words same.ifetch same.data same.satp same.priv (by rw [same.mstatus])
    (by rw [same.mstatus])

/-- Decoding sets `mstatus.FS` at most. -/
theorem MmuStateCurrent.exec (current : MmuStateCurrent a) (frame : ExecFrame a b) :
    MmuStateCurrent b := by
  have fields (mask : Word) (apart : mstatusFS &&& mask = 0#64) :
      b.state.get .mstatus &&& mask = a.state.get .mstatus &&& mask := by
    rcases frame.mstatus with same | dirty
    · rw [same]
    · rw [dirty, BitVec.and_comm, BitVec.and_or_distrib_left, BitVec.and_comm mask mstatusFS,
        apart, BitVec.or_zero, BitVec.and_comm]
  exact current.of_words frame.ifetchMmuState frame.dataMmuState
    (frame.get .satp (by decide) (by decide) (by decide))
    (frame.get .priv (by decide) (by decide) (by decide))
    (fields _ (by decide)) (fields _ (by decide))

/-- A trap brings it up to date. -/
theorem mmuStateCurrent_trap (a : RiscvArch δ) (info : DecodeInfo) (tval : Word) :
    MmuStateCurrent (a.trap info tval).2 := by
  unfold trap
  split <;> exact mmuStateCurrent_update _

/-- So does a commit. -/
theorem mmuStateCurrent_commit (P : Platform δ) (a : RiscvArch δ) (info : DecodeInfo) :
    Returns (a.commit P info) fun r => MmuStateCurrent r.2 := by
  simp only [commit, returns_bind, returns_pure]
  intro s _ c _
  exact mmuStateCurrent_update _

/-- Every exit of `updateEnv` refreshes the switches. -/
theorem mmuStateCurrent_updateEnv (P : Platform δ) (a : RiscvArch δ) (info : DecodeInfo) :
    Returns (a.updateEnv P info) fun r => MmuStateCurrent r.2 := by
  rcases updateEnv_cases P a info with ⟨-, tval, h⟩ | ⟨-, h⟩ | ⟨-, h⟩ | ⟨-, h⟩ | ⟨-, h⟩
  · rw [h]
    exact (returns_ok _ _).2 (mmuStateCurrent_trap a info tval)
  · rw [h]
    exact (returns_ok _ _).2 (mmuStateCurrent_update _)
  · rw [h]
    exact (returns_ok _ _).2 (mmuStateCurrent_update _)
  · rw [h]
    exact mmuStateCurrent_commit P a info
  · rw [h]
    exact returns_error _ _

end RiscvArch

/-! ### The record of an `sc` -/

/-- The words the switches come from. -/
def mmuWords : List StateWord := [.satp, .priv, .mstatus]

/-- Only a CSR instruction aims a destination at one of them. -/
theorem not_targets_mmuWords {b : Body} (plain : ∀ rd csrno access, b ≠ .csr rd csrno access)
    {w : StateWord} (listed : w ∈ mmuWords) : ¬ b.targets w := by
  simp only [mmuWords, List.mem_cons, List.not_mem_nil, or_false] at listed
  rcases listed with rfl | rfl | rfl <;> exact not_targets_plain plain (by simp) (by simp)
    (by simp) (by simp)

/-- A CSR instruction is not an `sc`, whatever type the record had. -/
theorem exec_csr_type (P : Platform δ) (rd : BitVec 5) (csrno : BitVec 12) (access : CsrAccess)
    (ctx : Ctx δ) :
    Returns ((Body.csr rd csrno access).exec P ctx) fun r => r.2.info.type = .csrwr := by
  simp only [Body.exec, returns_bind, returns_pure]
  intro c _
  rfl

/-- A decoded `sc` leaves the words of the switches alone. -/
theorem decode_sc_apart (P : Platform δ) (arch : RiscvArch δ) (vaddr paddr : Word)
    (slot : DecodeInfo) :
    Returns (arch.decode P vaddr paddr slot) fun r =>
      r.2.type = .sc → ∀ w ∈ mmuWords, Apart r.2 w := by
  rw [decode_returns]
  rintro ⟨rvc, a, i⟩ _ r executed sc w listed
  rw [report_type] at sc
  have spec := exec_spec P _ _ (fresh_cleared i) r executed
  refine report_apart (spec.apart w (not_targets_mmuWords ?_ listed))
  intro rd csrno access csr
  change (selected i.inst rvc).exec P _ = .ok r at executed
  rw [csr] at executed
  exact absurd (sc.symm.trans (exec_csr_type P rd csrno access _ r executed)) (by decide)

/-! ### Runs -/

namespace Machine

variable {m : Machine δ}

/-- The switches are up to date, and a record of an `sc` does not change that. -/
structure MmuStateKept (m : Machine δ) : Prop where
  current : MmuStateCurrent m.arch
  sc : ∀ info, m.info = some info → info.exception = excNone → info.type = .sc →
    ∀ w ∈ mmuWords, Apart info w

/-- Another state that is up to date, with the same record. -/
theorem MmuStateKept.with_arch (kept : m.MmuStateKept) {arch : RiscvArch δ}
    (current : MmuStateCurrent arch) : ({ m with arch := arch } : Machine δ).MmuStateKept :=
  ⟨current, kept.sc⟩

/-- Every call keeps the switches up to date. -/
theorem step_mmuStateKept (P : Platform δ) (kept : m.MmuStateKept) (c : Call δ) :
    Returns (m.step P c) MmuStateKept := by
  cases c with
  | decode vaddr paddr slot =>
      simp only [step, returns_bind, returns_pure]
      intro r decoded
      have frame := (decode_spec P m.arch vaddr paddr slot r decoded).frame
      refine ⟨?_, ?_⟩
      · have moved : MmuStateCurrent { m.arch with pc := vaddr, paddr := paddr } :=
          ⟨kept.current.ifetch, kept.current.data⟩
        exact moved.exec frame
      · rintro info ⟨⟩ _ sc
        -- The retranslation of an `sc` must not find the words it depends on changed.
        exact decode_sc_apart P m.arch vaddr paddr slot r decoded sc
  | handleException exception paddr slot =>
      simp only [step]
      split
      · rename_i fault
        simp only [handleException, if_pos fault, returns_ok]
        subst fault
        refine ⟨⟨kept.current.ifetch, kept.current.data⟩, ?_⟩
        rintro info ⟨⟩ silent
        exact absurd silent (by decide : excIPF ≠ excNone)
      · exact (returns_ok _ _).2 kept
  | translateAddr vaddr type =>
      simp only [step, returns_bind, returns_pure]
      refine (translateAddr_frame P m.arch vaddr type excNone).mono ?_
      rintro ⟨paddr, exception, arch⟩ frame
      exact kept.with_arch (kept.current.sameTables frame.sameTables)
  | updateEnv =>
      simp only [step]
      cases record : m.info with
      | none => exact returns_error _ _
      | some info =>
          simp only [returns_bind, returns_pure]
          refine (mmuStateCurrent_updateEnv P m.arch info).mono ?_
          intro r current
          refine ⟨current, ?_⟩
          rintro info' ⟨⟩
          exact kept.sc info record
  | environment dev irq tick instret =>
      -- An interrupt vector writes `mip`, on which the switches do not depend.
      refine (returns_ok _ _).2 (kept.with_arch ?_)
      refine kept.current.of_words ?_ ?_ ?_ ?_ ?_ ?_
      · cases irq <;> rfl
      · cases irq <;> rfl
      · exact irqListener_get _ irq (by decide)
      · exact irqListener_get _ irq (by decide)
      · rw [irqListener_get _ irq (by decide)]
      · rw [irqListener_get _ irq (by decide)]

/-- Its translations find them so. -/
theorem MmuStateKept.callTranslates (P : Platform δ) (kept : m.MmuStateKept) (c : Call δ) :
    m.CallTranslates P MmuStateCurrent c := by
  cases c with
  | decode vaddr paddr slot =>
      intro rvc a i fetched
      have frame := fetch_frame P m.arch paddr slot _ fetched
      have current : MmuStateCurrent (bodyCtx a vaddr paddr i).arch := by
        have read := kept.current.sameTables frame.sameTables
        exact ⟨read.ifetch, read.data⟩
      generalize bodyCtx a vaddr paddr i = ctx at current
      cases selected i.inst rvc with
      | load | lr | store | fstore => exact fun _ => current
      | fload => exact fun _ _ => current.exec (execFrame_dirtyFs ctx.arch)
      | amo rd addr width data op =>
          refine ⟨fun _ => current, ?_⟩
          intro r loaded _
          exact current.sameTables (ld_memStep P width _ _ r loaded).frame.sameTables
      | sc rd addr width src =>
          refine ⟨fun _ _ => current, ?_⟩
          intro c compared _
          exact current.sameTables (scFails_memStep P width _ _ _ compared).frame.sameTables
      | _ => trivial
  | translateAddr vaddr type => exact kept.current
  | updateEnv =>
      intro info record silent sc _ s committed
      have words (w : StateWord) (listed : w ∈ mmuWords) : s.get w = m.arch.state.get w :=
        commitDsts_get committed (kept.sc info record silent sc w listed)
      exact kept.current.of_words rfl rfl (words .satp (by decide)) (words .priv (by decide))
        (by rw [words .mstatus (by decide)]) (by rw [words .mstatus (by decide)])
  | handleException | environment => trivial

/-- The configuration leaves `satp` zero, so the switches start off as they should. -/
theorem reset_mmuStateKept (config : List (StateWord × Word)) (memory : Memory δ) :
    (reset config memory).MmuStateKept := by
  have satp := initConfig_get ArchState.zero config (by decide : StateWord.satp ∉ configWords)
  have bare : ((reset config memory).arch.state.get .satp).extractLsb' 60 4 = 0 := by
    change ((initConfig ArchState.zero config).get .satp).extractLsb' 60 4 = 0
    rw [satp]
    rfl
  refine ⟨⟨?_, ?_⟩, ?_⟩
  · rw [bare]
    rfl
  · rw [bare]
    rfl
  · rintro info ⟨⟩

/-- In every reachable machine the switches are up to date. -/
theorem Reachable.current {P : Platform δ} (reached : m.Reachable P) : MmuStateCurrent m.arch := by
  obtain ⟨config, memory, calls, -, ran⟩ := reached
  have kept := runSteps_invariant (fun _ c held => step_mmuStateKept P held c)
    (reset_mmuStateKept config memory) calls m ran
  exact kept.current

end Machine

/-- At every translation of the run the switches are up to date. -/
def MmuStateFresh (P : Platform δ) (m : Machine δ) (calls : List (Call δ)) : Prop :=
  ∀ t c, Visits (Machine.step P) m calls t c → t.CallTranslates P MmuStateCurrent c

/-- The stored switches are never out of date: at every translation of every run from reset they
are those of `satp`, `priv` and `mstatus`. What they depend on changes in `updateEnv` only,
which computes the switches anew at its end; the translation in its middle is that of an `sc`,
whose record writes none of them. -/
theorem mmuStateFresh_reset (P : Platform δ) (config : List (StateWord × Word))
    (memory : Memory δ) (calls : List (Call δ)) :
    MmuStateFresh P (Machine.reset config memory) calls := by
  intro t c visit
  have kept : t.MmuStateKept := visit.invariant (Machine.reset_mmuStateKept config memory)
    fun u i _ held => Machine.step_mmuStateKept P held i
  exact kept.callTranslates P c

end CPUDelaySim.Riscv
