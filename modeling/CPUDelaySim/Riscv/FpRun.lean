import CPUDelaySim.Riscv.CsrLaw
import CPUDelaySim.Riscv.FpCsr

/-!
# The floating-point fields over runs

No call ever sets a bit of `frm`, and the flags above the five of the manual are set by the
soft-float library alone.  The first holds of every reachable machine (`frm_of_reachable`), the
second of every run whose floating-point instructions raise no such flag
(`consistent_of_clean`).

`Settled` is a statement about two fields of one word, `Keeps` adds the record in hand, and the
proofs go by the ways in which a call may write the word.  `strict` is set for the second half,
where the flags are asked about, too.
-/

namespace CPUDelaySim.Riscv

variable {δ : Type}

open RiscvArch

namespace FpView

/-- `frm` is clear and, if `strict`, so are the flags of the library. -/
structure Settled (strict : Prop) (s : ArchState) : Prop where
  mode : value frm s = 0#64
  flags : strict → value fflags s < 32

section Settled

variable {strict : Prop} {s s' : ArchState}

/-- The fields are all in the word of the unit. -/
theorem Settled.congr (settled : Settled strict s) (same : s'.get .fp = s.get .fp) :
    Settled strict s' where
  mode := (value_congr same frm).trans settled.mode
  flags h := (value_congr same fflags).symm ▸ settled.flags h

/-- A write through a view leaves the fields settled. -/
theorem Settled.write (settled : Settled strict s) (v : FpView) (new : Word) :
    Settled strict (v.write s new) where
  mode := frm_write v settled.mode new
  flags h := by
    have small := settled.flags h
    cases v with
    | fflags =>
        rw [value_write_fflags, (and_not_fsrAexc_eq_zero _).2 small, BitVec.zero_or]
        exact and_fsrAexc_lt new
    | frm =>
        rw [value_fflags_write (by decide)]
        exact small
    | fcsr =>
        rw [value_fflags_write (by decide)]
        exact small

/-- The commit of a record leaves the fields settled. -/
def KeepsSettled (strict : Prop) (info : DecodeInfo) : Prop :=
  ∀ s, Settled strict s → Returns (commitDsts s info) (Settled strict)

/-- A record that does not write the word of the unit keeps the fields settled. -/
theorem keepsSettled_of_apart {info : DecodeInfo} (apart : Apart info .fp) :
    KeepsSettled strict info := fun _ settled _ committed =>
  settled.congr (commitDsts_get committed apart)

end Settled

/-! ### Bodies -/

/-- The instruction calls the library, and gets flags of its own back. -/
def RaisesHidden (P : Platform δ) (s : ArchState) (b : Body) : Prop :=
  ∃ dst rm op args box type value flags, b = .fp dst rm (.call op args box) type ∧
    s.fpEnabled = true ∧
    P.float.call op (args (s.dirtyFs.rounded rm)) (s.dirtyFs.rounded rm).floatRoundingMode
      (s.dirtyFs.rounded rm).floatExceptionFlags = some (value, flags) ∧ ¬ flags < 32

section Bodies

variable {P : Platform δ} {strict : Prop}

/-- Only a floating-point body changes the word of the unit when it runs. -/
theorem exec_fpWord (b : Body) (other : ∀ dst rm fpCalc type, b ≠ .fp dst rm fpCalc type)
    (ctx : Ctx δ) : Returns (b.exec P ctx) fun r =>
      r.2.arch.state.get .fp = ctx.arch.state.get .fp := by
  have read {a a' : RiscvArch δ} (frame : ReadFrame a a') :
      a'.state.get .fp = a.state.get .fp := frame.get (by decide)
  have dirty (s : ArchState) : s.dirtyFs.get .fp = s.get .fp := dirtyFs_get s (by decide)
  cases b with
  | notImplemented => exact returns_error _ _
  | compute rd value type =>
      simp only [Body.exec]
      split
      · exact returns_error _ _
      · exact (returns_ok _ _).2 rfl
  | jalr rd rs1 imm =>
      simp only [Body.exec]
      split <;> exact (returns_ok _ _).2 rfl
  | load rd addr width ext | lr rd addr width =>
      simp only [Body.exec, returns_bind, returns_pure]
      exact (ld_spec P width _ _).mono fun r step => read step.1
  | store addr width data | fstore addr width data =>
      simp only [Body.exec, returns_bind, returns_pure]
      exact (st_spec P width _ _).mono fun c step => read step.1
  | fload rd addr width box =>
      simp only [Body.exec, requireFpu_returns, returns_bind, returns_pure]
      refine ⟨fun _ => rfl, fun _ => ?_⟩
      exact (ld_spec P width _ _).mono fun r step => (read step.1).trans (dirty _)
  | amo rd addr width data op =>
      simp only [Body.exec, returns_bind, returns_pure]
      refine (ld_spec P width _ _).mono fun r loaded => ?_
      exact (st_spec P width _ _).mono fun c stored => (read stored.1).trans (read loaded.1)
  | sc rd addr width src =>
      simp only [Body.exec, returns_bind, returns_pure]
      refine (scFails_memStep P width _ _).mono fun r compared => ?_
      refine (scResult_memStep P rd width r.1 _ _ r.2).mono ?_
      rintro c ⟨stored, -⟩
      exact (read stored.frame).trans (read compared.frame)
  | csr rd csrno access =>
      simp only [Body.exec, returns_bind, returns_pure]
      have kept (a : RiscvArch δ) (same : a.state.get .fp = ctx.arch.state.get .fp) :
          a.state.dirtyFs.get .fp = ctx.arch.state.get .fp := (dirty a.state).trans same
      exact doCsr_arch kept P rfl rd csrno access
  | fp dst rm fpCalc type => exact absurd rfl (other dst rm fpCalc type)
  | sret | mret =>
      simp only [Body.exec]
      split <;> exact (returns_ok _ _).2 rfl
  | unsupported | cond | jal | simple | sfence | ebreak | ecall =>
      exact (returns_ok _ _).2 rfl

/-- A body leaves the fields settled, unless the library raises a flag of its own. -/
theorem exec_settled {b : Body} {ctx : Ctx δ} (settled : Settled strict ctx.arch.state)
    (clean : strict → ¬ RaisesHidden P ctx.arch.state b) :
    Returns (b.exec P ctx) fun r => Settled strict r.2.arch.state := by
  by_cases unit : ∃ dst rm fpCalc type, b = .fp dst rm fpCalc type
  swap
  · have other (dst : DstReg) (rm : Option (BitVec 3)) (fpCalc : FpCalc) (type : PlainType) :
        b ≠ .fp dst rm fpCalc type := fun same => unit ⟨dst, rm, fpCalc, type, same⟩
    exact (exec_fpWord b other ctx).mono fun r same => settled.congr same
  obtain ⟨dst, rm, fpCalc, type, rfl⟩ := unit
  simp only [Body.exec, requireFpu_returns, returns_bind, returns_pure]
  refine ⟨fun _ => settled, fun on => ?_⟩
  have start : Settled strict (ctx.arch.state.dirtyFs.rounded rm) := by
    have dirty := settled.congr (dirtyFs_get ctx.arch.state (w := .fp) (by decide))
    refine ⟨?_, fun h => ?_⟩
    · rw [value_rounded]
      exact dirty.mode
    · rw [value_rounded]
      exact dirty.flags h
  intro r ran
  change fpCalc.run P (ctx.arch.state.dirtyFs.rounded rm) = .ok r at ran
  change Settled strict r.2
  cases fpCalc with
  | move value =>
      cases ran
      exact start
  | call op args box =>
      simp only [FpCalc.run] at ran
      split at ran
      · rename_i value flags called
        cases ran
        refine ⟨?_, fun h => ?_⟩
        · rw [value_frm_setFlags]
          exact start.mode
        · have small : flags < 32 := by
            by_contra large
            exact clean h ⟨dst, rm, op, args, box, type, value, flags, rfl, on, called, large⟩
          rw [value_fflags_setFlags]
          bv_omega
      · cases ran

/-- Only the views aim at the word of the unit. -/
theorem csrTable_fp : ∀ r ∈ csrTable, ∀ csrno, r.first ≤ csrno → csrno ≤ r.last →
    (r.ops csrno).targets .fp → IsFpCsr csrno := by
  simp only [csrTable, List.forall_mem_cons, CsrRow.one, CsrOps.rw, CsrOps.ro, CsrOps.rmw]
  refine ⟨?_, ?_, ?_, ?_, ?_, ?_, ?_, ?_, ?_, ?_, ?_, ?_, ?_, ?_, ?_, ?_, ?_, ?_, ?_, ?_, ?_,
    ?_, ?_, ?_, ?_, ?_, ?_, ?_, ?_, ?_, ?_, ?_, ?_, ?_, ?_, ?_, ?_, ?_, ?_, ?_, ?_,
    by rintro r ⟨⟩⟩
  all_goals intro csrno low high target
  case refine_1 => exact .inl (BitVec.le_antisymm high low)
  case refine_2 => exact .inr (.inl (BitVec.le_antisymm high low))
  case refine_3 => exact .inr (.inr (BitVec.le_antisymm high low))
  case refine_37 =>
    simp only [writePmpcfg] at target
    split at target <;> cases target
  all_goals cases target

/-- The CSRs that write the word of the unit are the three views. -/
theorem exists_view {csrno : BitVec 12} (target : csrTargets csrno .fp) :
    ∃ v : FpView, csrno = v.csrno := by
  obtain ⟨ops, registered, aims⟩ := target
  have fp : IsFpCsr csrno := csrOps_of_table
    (p := fun csrno ops => ops.targets .fp → IsFpCsr csrno)
    (fun r row csrno low high => csrTable_fp r row csrno low high) registered aims
  rcases fp with rfl | rfl | rfl
  · exact ⟨fflags, rfl⟩
  · exact ⟨frm, rfl⟩
  · exact ⟨fcsr, rfl⟩

/-- With the unit off, an access through a view prepares no write. -/
theorem doCsr_view_off (v : FpView) (rd : BitVec 5) (access : CsrAccess) {ctx : Ctx δ}
    (off : ctx.arch.state.fpEnabled = false) :
    doCsr P rd v.csrno access ctx = .ok ((ctx.raise excII).setDst0 (.gpr rd) P.junk) := by
  obtain ⟨field, mask, dest, registered, -⟩ := v.commit_write
  have fp : IsFpCsr v.csrno := by cases v <;> simp [IsFpCsr, csrno]
  have checked := (riscvCsrrwCheck_of_isFpCsr fp access.isWrite).trans registered
  simp only [doCsr, checked, riscvCsrrw, csrRead, off, Bool.not_false, if_true, bind,
    Except.bind]
  rfl

/-- The record an access through a view leaves keeps the fields settled. -/
theorem doCsr_keepsSettled (v : FpView) (rd : BitVec 5) (access : CsrAccess) {ctx : Ctx δ}
    (fresh : Fresh ctx.info) :
    Returns (doCsr P rd v.csrno access ctx) fun c =>
      KeepsSettled strict (report (c.setType .csrwr)) := by
  have apart {info : DecodeInfo} (dst0 : ∃ x, info.dst0 = Dst.full (.gpr rd) x)
      (dst1 : info.dst1.mask = 0#64) (dst2 : info.dst2.mask = 0#64) :
      KeepsSettled strict info := by
    obtain ⟨x, dst0⟩ := dst0
    refine keepsSettled_of_apart ⟨?_, .inl dst1, .inl dst2⟩
    rw [dst0]
    exact dstApart_full (by simp) x
  cases on : ctx.arch.state.fpEnabled with
  | false =>
      rw [doCsr_view_off v rd access on, returns_ok, report_eq]
      exact apart ⟨_, rfl⟩ fresh.mask1 fresh.mask2
  | true =>
      obtain ⟨field, mask, dest, aimed, ran⟩ := v.doCsr_view (P := P) rd access on
      rw [ran, returns_ok, report_eq]
      split
      · exact apart ⟨_, rfl⟩ fresh.mask1 fresh.mask2
      · -- The second destination is a write through the view, the third sets `mstatus.FS`.
        intro s settled
        simp only [commitDsts, returns_bind]
        intro s₀ h₀ s₁ h₁ s₂ h₂
        have kept := settled.congr (ArchState.commit_get_of_ne h₀ .fp
          (dstApart_full (by simp) _))
        cases (aimed s₀ _).symm.trans h₁
        refine (kept.write v _).congr (ArchState.commit_get_of_ne h₂ .fp ?_)
        exact dstApart_idx (by decide) _ _

/-- The record a body leaves keeps the fields settled when it is committed. -/
theorem exec_keepsSettled (b : Body) {ctx : Ctx δ} (fresh : Fresh ctx.info) :
    Returns (b.exec P ctx) fun r => KeepsSettled strict (report r.2) := by
  intro r ran
  have spec := exec_spec P b ctx fresh r ran
  by_cases target : b.targets .fp
  swap
  · exact keepsSettled_of_apart (report_apart (spec.apart .fp target))
  cases b with
  | csr rd csrno access =>
      rcases target with gpr | ⟨-, aims⟩
      · cases gpr
      obtain ⟨v, rfl⟩ := exists_view aims
      simp only [Body.exec, bind_eq_ok] at ran
      obtain ⟨c, accessed, result⟩ := ran
      cases result
      exact doCsr_keepsSettled v rd access fresh c accessed
  | fp dst => cases dst <;> cases target
  | lr => rcases target with h | h | h <;> cases h
  | sc => rcases target with h | h <;> cases h
  | compute | jal | jalr | load | amo | fload => cases target
  | _ => exact target.elim

end Bodies

/-! ### Runs -/

/-- The call decodes an instruction for which the library raises a flag of its own. -/
def HiddenFlags (P : Platform δ) (m : Machine δ) : Call δ → Prop
  | .decode _ paddr slot => ∃ rvc a i, m.arch.fetch P paddr slot = .ok (rvc, a, i) ∧
      RaisesHidden P a.state (selected i.inst rvc)
  | _ => False

/-- The fields are settled, and stay so when the record is committed. -/
structure Keeps (strict : Prop) (m : Machine δ) : Prop where
  state : Settled strict m.arch.state
  record : ∀ info, m.info = some info → info.exception = excNone → KeepsSettled strict info

section Runs

variable {P : Platform δ} {strict : Prop} {m : Machine δ}

/-- Another state whose fields are settled, with the same record. -/
theorem Keeps.with_arch (kept : Keeps strict m) {arch : RiscvArch δ}
    (settled : Settled strict arch.state) : Keeps strict { m with arch := arch } :=
  ⟨settled, kept.record⟩

/-- `decode` keeps the fields settled, and leaves a record that will, unless the library raises
a flag of its own. -/
theorem decode_keeps (kept : Keeps strict m) (vaddr paddr : Word) (slot : DecodeInfo)
    (clean : strict → ¬ HiddenFlags P m (.decode vaddr paddr slot)) :
    Returns (m.arch.decode P vaddr paddr slot) fun r => Keeps strict ⟨r.1, some r.2⟩ := by
  rw [decode_returns]
  rintro ⟨rvc, a, i⟩ fetched r ran
  have frame := fetch_frame P m.arch paddr slot _ fetched
  have found : Settled strict (bodyCtx a vaddr paddr i).arch.state :=
    kept.state.congr (frame.get (by decide))
  have own (h : strict) : ¬ RaisesHidden P a.state (selected i.inst rvc) :=
    fun hidden => clean h ⟨rvc, a, i, fetched, hidden⟩
  refine ⟨exec_settled found own r ran, ?_⟩
  rintro info ⟨⟩ -
  exact exec_keepsSettled _ (fresh_cleared i) r ran

/-- The memory write and the end of `updateEnv` leave the word of the unit. -/
theorem commit_settled {arch : RiscvArch δ} (settled : Settled strict arch.state)
    {info : DecodeInfo} (record : KeepsSettled strict info) :
    Returns (arch.commit P info) fun r => Settled strict r.2.state := by
  simp only [RiscvArch.commit, returns_bind, returns_pure]
  intro s committed a stored
  have word : a.state.get .fp = s.get .fp := commitMemory_get P _ info (by decide) a stored
  refine (record _ settled s committed).congr ?_
  rw [updateMMUState_state, ArchState.get_set_of_ne _ _ (by decide)]
  exact word

/-- So does every call. -/
theorem step_keeps (kept : Keeps strict m) (c : Call δ)
    (clean : strict → ¬ HiddenFlags P m c) : Returns (m.step P c) (Keeps strict) := by
  cases c with
  | decode vaddr paddr slot =>
      simp only [Machine.step, returns_bind, returns_pure]
      exact decode_keeps kept vaddr paddr slot clean
  | handleException exception paddr slot =>
      simp only [Machine.step]
      split
      · rename_i fault
        subst fault
        refine (returns_ok _ _).2 ⟨kept.state, ?_⟩
        rintro info ⟨⟩ code
        cases code
      · exact (returns_ok _ _).2 kept
  | translateAddr vaddr type =>
      simp only [Machine.step, returns_bind, returns_pure]
      refine (translateAddr_frame P m.arch vaddr type excNone).mono ?_
      rintro ⟨paddr, exception, arch⟩ frame
      exact kept.with_arch (kept.state.congr (frame.get (by decide)))
  | updateEnv =>
      simp only [Machine.step]
      cases record : m.info with
      | none => exact returns_error _ _
      | some info =>
          simp only [returns_bind, returns_pure]
          rw [← record]
          have update : Returns (m.arch.updateEnv P info) fun r => Settled strict r.2.state := by
            rcases updateEnv_cases P m.arch info with
              ⟨-, tval, h⟩ | ⟨-, h⟩ | ⟨-, h⟩ | ⟨code, h⟩ | ⟨-, h⟩
            · rw [h, returns_ok]
              exact kept.state.congr (trap_get _ _ _ (by decide))
            · rw [h, returns_ok]
              exact kept.state.congr rfl
            · rw [h, returns_ok]
              exact kept.state.congr rfl
            · rw [h]
              exact commit_settled kept.state (kept.record info record code)
            · rw [h]
              exact returns_error _ _
          exact update.mono fun r settled => kept.with_arch settled
  | environment dev irq tick instret =>
      refine (returns_ok _ _).2 (kept.with_arch (kept.state.congr ?_))
      exact irqListener_get _ irq (by decide)

/-- After a reset all fields are clear. -/
theorem reset_keeps (config : List (StateWord × Word)) (memory : Memory δ) :
    Keeps strict (Machine.reset config memory) := by
  have word : (RiscvArch.reset config memory).state.get .fp = ArchState.zero.get .fp :=
    initConfig_get _ config (by decide)
  have zero : Settled strict ArchState.zero := ⟨rfl, fun _ => by decide⟩
  exact ⟨zero.congr word, nofun⟩

/-- `frm` is zero in every reachable machine. -/
theorem frm_of_reachable (reached : m.Reachable P) : value frm m.arch.state = 0#64 := by
  obtain ⟨config, memory, calls, -, ran⟩ := reached
  have keeps := runSteps_invariant
    (fun m c (kept : Keeps False m) => step_keeps (P := P) kept c False.elim)
    (reset_keeps config memory) calls m ran
  exact keeps.state.mode

/-- The views are consistent in every run in which the library raises no flag of its own. -/
theorem consistent_of_clean (config : List (StateWord × Word)) (memory : Memory δ)
    (calls : List (Call δ))
    (clean : ∀ t c, Visits (Machine.step P) (Machine.reset config memory) calls t c →
      ¬ HiddenFlags P t c) :
    Returns (runSteps (Machine.step P) (Machine.reset config memory) calls) fun t =>
      Consistent t.arch.state := by
  have keeps (t : Machine δ) (c : Call δ)
      (visit : Visits (Machine.step P) (Machine.reset config memory) calls t c)
      (kept : Keeps True t) : Returns (t.step P c) (Keeps True) :=
    step_keeps kept c fun _ => clean t c visit
  refine (runSteps_prefix_invariant (reset_keeps config memory) keeps
    (List.prefix_refl calls)).mono ?_
  intro t kept
  exact consistent_of_frm kept.state.mode (kept.state.flags trivial)

end Runs

/-! ### The views -/

/-- A `csrrw` on a view completes, writes the view and leaves the rest. -/
def Obeys (v : FpView) (P : Platform δ) (arch a : RiscvArch δ) (vaddr paddr : Word)
    (slot : DecodeInfo) (c : CsrInstr) : Prop :=
  ∃ arch', Completes P arch vaddr paddr slot (vaddr + 4) arch' ∧
    v.Leaves c.rd a.state arch'.state ∧ v.Wrote (c.operand a.state) a.state arch'.state ∧
    Consistent arch'.state

section Views

variable {P : Platform δ} {m : Machine δ} {vaddr paddr : Word} {slot : DecodeInfo}
variable {c : CsrInstr} {a : RiscvArch δ} {v : FpView}

/-- Every form reads the view. -/
theorem exists_leaves (reached : m.Reachable P) (number : c.csr = v.csrno)
    (fetches : Fetches P m.arch paddr slot false c.word a) (quiet : irqException a.state = none)
    (on : a.state.fpEnabled = true) :
    ∃ arch', Completes P m.arch vaddr paddr slot (vaddr + 4) arch' ∧
      v.Leaves c.rd a.state arch'.state := by
  have frame := fetch_frame P m.arch paddr slot _ fetches.choose_spec.1
  have zero : a.state.gpr 0 = 0 := (frame.get (by decide)).trans reached.zero
  exact ⟨_, (completes_view_iff number fetches quiet zero on).2 ⟨rfl, rfl⟩, leaves_next v c zero⟩

/-- A replacement is written as it should be when it fits. -/
theorem obeys_iff_fits (reached : m.Reachable P) (number : c.csr = v.csrno)
    (fetches : Fetches P m.arch paddr slot false c.word a) (quiet : irqException a.state = none)
    (on : a.state.fpEnabled = true) (replaces : c.op = .rw) :
    v.Obeys P m.arch a vaddr paddr slot c ↔ v.Fits (c.operand a.state) a.state := by
  have frame := fetch_frame P m.arch paddr slot _ fetches.choose_spec.1
  have zero : a.state.gpr 0 = 0 := (frame.get (by decide)).trans reached.zero
  have clear : value frm a.state = 0#64 :=
    (value_congr (frame.get (by decide)) frm).trans (frm_of_reachable reached)
  have live : c.access.mask a.state ≠ 0 := by
    rw [ne_eq, c.mask_eq_zero zero, replaces]
    simp
  have next : v.next c a.state = v.write a.state (c.operand a.state) := by
    rw [FpView.next, if_neg live, replaces, CsrOp.apply]
  have word : ((((v.next c a.state).dirtyFs.set (.gpr c.rd) (v.value a.state)).set (.gpr 0)
      0).get .fp) = (v.write a.state (c.operand a.state)).get .fp := by
    rw [ArchState.get_set_of_ne _ _ (by decide), ArchState.get_set_of_ne _ _ (by simp),
      dirtyFs_get _ (by decide), next]
  constructor
  · rintro ⟨arch', completes, -, wrote⟩
    obtain ⟨-, rfl⟩ := (completes_view_iff number fetches quiet zero on).1 completes
    exact (wrote_iff clear word).1 wrote
  · intro fits
    exact ⟨_, (completes_view_iff number fetches quiet zero on).2 ⟨rfl, rfl⟩,
      leaves_next v c zero, (wrote_iff clear word).2 fits⟩

end Views

/-- Every access to a view reads it. A replacement is written as it should be, in a reachable
state with the unit on, exactly when it puts nothing into `frm` and no other flag is in the way.
In a run in which the library raises no flag of its own the views are consistent. The write
masks of `frm` and `fcsr` select no bit of the rounding mode, and the flags of `fcsr` go to the
byte behind it. -/
theorem fpViews_iff (P : Platform δ) {m : Machine δ} (reached : m.Reachable P) :
    (∀ vaddr paddr slot c a (v : FpView), c.csr = v.csrno →
      Fetches P m.arch paddr slot false c.word a → irqException a.state = none →
        a.state.fpEnabled = true →
          (∃ arch', Completes P m.arch vaddr paddr slot (vaddr + 4) arch' ∧
            v.Leaves c.rd a.state arch'.state) ∧
          (c.op = .rw → (v.Obeys P m.arch a vaddr paddr slot c ↔
            v.Fits (c.operand a.state) a.state))) ∧
    ∀ config memory calls,
      (∀ t c, Visits (Machine.step P) (Machine.reset config memory) calls t c →
        ¬ HiddenFlags P t c) →
        Returns (runSteps (Machine.step P) (Machine.reset config memory) calls) fun t =>
          Consistent t.arch.state := by
  refine ⟨?_, consistent_of_clean⟩
  intro vaddr paddr slot c a v number fetches quiet on
  exact ⟨exists_leaves reached number fetches quiet on,
    obeys_iff_fits reached number fetches quiet on⟩

/-- `lui x2, 2; csrrs x0, mstatus, x2; csrrwi x0, frm, 1`: the unit is switched on, then a
rounding mode is asked for. -/
def frmProgram : Machine Unit :=
  Machine.reset archCfg (imageOf [0x00002137, 0x30012073, 0x0020d073])

/-- The last instruction of `frmProgram`. -/
def frmWrite : CsrInstr := ⟨.rw, true, 0x002, 1, 0⟩

/-- The program comes to its last instruction with the unit on and no interrupt pending. -/
theorem frmProgram_reaches :
    ∃ m : Machine Unit, m.Reachable (ramOnly 4096) ∧
      ∃ a, Fetches (ramOnly 4096) m.arch 0x80000008 .zero false frmWrite.word a ∧
        irqException a.state = none ∧ a.state.fpEnabled = true := by
  let calls : List (Call Unit) := Machine.execAt 0x80000000 ++ Machine.execAt 0x80000004
  obtain ⟨m, ran, -⟩ := exists_ok_of_toOption
    (show (runSteps (Machine.step (ramOnly 4096)) frmProgram calls).toOption.map (fun _ => ()) =
      some () by decide +kernel)
  have fetch : (runSteps (Machine.step (ramOnly 4096)) frmProgram calls >>= fun m =>
      m.arch.fetch (ramOnly 4096) 0x80000008 .zero).toOption.map (fun f =>
        (f.1, f.2.2.inst, irqException f.2.1.state, f.2.1.state.fpEnabled)) =
      some (false, frmWrite.word, none, true) := by decide +kernel
  rw [ran] at fetch
  obtain ⟨⟨rvc, a, i⟩, fetched, seen⟩ := exists_ok_of_toOption fetch
  simp only [Prod.mk.injEq] at seen
  obtain ⟨rfl, inst, quiet, on⟩ := seen
  exact ⟨m, ⟨archCfg, _, calls, by decide, ran⟩, a, ⟨i, fetched, inst⟩, quiet, on⟩

/-- A platform without a soft-float library raises no flag. -/
theorem ramOnly_clean (size : Nat) (t : Machine Unit) (c : Call Unit) :
    ¬ HiddenFlags (ramOnly size) t c := by
  intro hidden
  cases c with
  | decode vaddr paddr slot =>
      obtain ⟨rvc, a, i, -, dst, rm, op, args, box, type, value, flags, -, -, called, -⟩ := hidden
      cases called
  | handleException | translateAddr | updateEnv | environment => exact hidden

/-- At the last instruction of `frmProgram`, with the unit on: `frm` is read, and is written as
it should be only if the mode asked for were zero. The whole program leaves the views
consistent. -/
theorem fpViews_iff_frmProgram :
    ∃ m : Machine Unit, m.Reachable (ramOnly 4096) ∧
      ∃ a, Fetches (ramOnly 4096) m.arch 0x80000008 .zero false frmWrite.word a ∧
        (∃ arch', Completes (ramOnly 4096) m.arch 0x80000008 0x80000008 .zero 0x8000000c arch' ∧
          frm.Leaves 0 a.state arch'.state) ∧
        (frm.Obeys (ramOnly 4096) m.arch a 0x80000008 0x80000008 .zero frmWrite ↔
          frm.Fits 1 a.state) ∧
        Returns (runSteps (Machine.step (ramOnly 4096)) frmProgram (Machine.execAt 0x80000000 ++
          Machine.execAt 0x80000004 ++ Machine.execAt 0x80000008)) fun t =>
            Consistent t.arch.state := by
  obtain ⟨m, reached, a, fetches, quiet, on⟩ := frmProgram_reaches
  obtain ⟨accesses, runs⟩ := fpViews_iff (ramOnly 4096) reached
  obtain ⟨reads, writes⟩ := accesses 0x80000008 0x80000008 .zero frmWrite a frm rfl fetches quiet on
  exact ⟨m, reached, a, fetches, reads, writes rfl,
    runs archCfg _ _ fun t c _ => ramOnly_clean 4096 t c⟩

/-- `frm` stays zero. -/
theorem not_fpViews_frmProgram :
    ∃ m : Machine Unit, m.Reachable (ramOnly 4096) ∧
      ∃ a, Fetches (ramOnly 4096) m.arch 0x80000008 .zero false frmWrite.word a ∧
        irqException a.state = none ∧ a.state.fpEnabled = true ∧
        ¬ frm.Obeys (ramOnly 4096) m.arch a 0x80000008 0x80000008 .zero frmWrite := by
  obtain ⟨m, reached, a, fetches, quiet, on⟩ := frmProgram_reaches
  refine ⟨m, reached, a, fetches, quiet, on, ?_⟩
  rw [obeys_iff_fits reached (show _ = csrno frm from rfl) fetches quiet on rfl]
  rintro ⟨none, -⟩
  exact absurd (show (1#5).setWidth 64 &&& 7 = (0 : Word) from none) (by decide)

end FpView

end CPUDelaySim.Riscv
