import CPUDelaySim.Cpu.InStep
import CPUDelaySim.Cpu.Training
import Mathlib.Data.List.Infix

/-!
# The pipeline executes the program

The stages before EXE are in step with the program as long as ID does not wait and no trap is in
WB.  While ID waits, the instruction that it waits for has a number, and its target is the pc; so
the redirect of EXE or WB sets the stages right again.  A branch behind a trap may redirect, too,
but only when the trap is in WB, which then empties the stages once more.

It takes an instruction cache that does not answer while a block waits in `id_stall_inst` and ID is
occupied, and page faults of the fetch that are still faults when ID takes them.

`Lockstep` is the invariant.  While the pipeline is `calm` it says that the stages before EXE are
`InStep` with the machine; while it is not, it says only that whatever will redirect is `Aimed` at
the pc.  So a stage has to be looked at in two situations, and for the second it is enough that it
leaves its target alone.

The numbers of the calls say which instructions may redirect: one without a number is behind a
trap, and what it aims at does not matter.
-/

namespace CPUDelaySim

open Riscv RiscvArch

variable {δ π : Type}

/-! ### The invariant -/

namespace Pipeline

/-- The stages before EXE are to be in order: ID does not wait, and no trap is in WB. -/
def calm (s : Pipeline δ π) : Bool := !s.idWaitRedirect && !holdsTrap s.wb

end Pipeline

namespace Numbered

open Pipeline

variable {P : Platform δ} {p : PipelineParams} {B : Predictor π} {base : RiscvArch δ}
  {t : Numbered δ π} {u : Pipeline δ π}

/-- What a redirect behind ID goes to is the pc. -/
structure Aimed (t : Numbered δ π) : Prop where
  exe : t.exe.isSome = true → ∀ inst, t.pipe.exe = some inst → inst.realTarget = t.pipe.pc
  mem : t.mem.isSome = true → ∀ inst, t.pipe.mem = some inst → inst.excepts = true →
    inst.realTarget = t.pipe.pc
  wb : ∀ inst, t.pipe.wb = some inst → inst.excepts = true → inst.realTarget = t.pipe.pc

/-- The pipeline executes the program from `base` on. -/
structure Lockstep (P : Platform δ) (base : RiscvArch δ) (t : Numbered δ π) : Prop where
  queued : t.Queued
  aimed : t.Aimed
  drift : Drift base t.pipe.arch
  inStep : t.pipe.calm = true → InStep P base t.pipe

/-- ID goes on and no trap is in WB. -/
theorem calm_iff : u.calm = true ↔ u.idWaitRedirect = false ∧ holdsTrap u.wb = false := by
  rw [Pipeline.calm, Bool.and_eq_true, Bool.not_eq_true', Bool.not_eq_true']

/-- WB drops no number if it does not hold a trap. -/
theorem afterWb_of_plain (plain : holdsTrap t.pipe.wb = false) (u : Pipeline δ π) :
    (t.afterWb u).exe = t.exe ∧ (t.afterWb u).mem = t.mem := by
  unfold afterWb
  cases held : t.pipe.wb with
  | none => exact ⟨rfl, rfl⟩
  | some inst =>
      dsimp only
      rw [if_neg]
      · exact ⟨rfl, rfl⟩
      · rw [held] at plain
        exact ne_true_of_eq_false plain

/-- WB. -/
theorem wbStage_lockstep (lockstep : t.Lockstep P base) :
    Returns (t.pipe.wbStage p B) fun u => (t.afterWb u).Lockstep P base ∧ u.wb = none := by
  intro u ran
  obtain ⟨queued, -⟩ := wbStage_queued lockstep.queued u ran
  obtain ⟨free, turned⟩ := wbStage_front p B t.pipe u ran
  have aimed := lockstep.aimed
  have untrapped {Q : Prop} (inst : Inst) (held : u.wb = some inst) : Q := by
    cases held.symm.trans free
  refine ⟨⟨queued, ?_, ?_, ?_⟩, free⟩
  · -- A trap leaves nothing to redirect.
    constructor
    all_goals rw [afterWb_pipe]
    · rcases turned with ⟨plain, still, exe, -⟩ | ⟨-, -, -, -, exe, -⟩
      · rw [(afterWb_of_plain plain u).1, exe, still.here]
        exact aimed.exe
      · intro _ inst held
        cases held.symm.trans exe
    · rcases turned with ⟨plain, still, -, mem⟩ | ⟨-, -, -, -, -, mem⟩
      · rw [(afterWb_of_plain plain u).2, mem, still.here]
        exact aimed.mem
      · intro _ inst held
        cases held.symm.trans mem
    · exact fun inst held => untrapped inst held
  · rw [afterWb_pipe]
    rcases turned with ⟨-, still, -⟩ | ⟨_, -, -, emptied, -⟩
    · exact lockstep.drift.trans still.drift
    · exact lockstep.drift.trans emptied.drift
  · rw [afterWb_pipe]
    intro quiet
    rcases turned with ⟨plain, still, -⟩ | ⟨inst, held, excepts, emptied, -⟩
    · refine (lockstep.inStep (calm_iff.2 ⟨?_, plain⟩)).still still
      rw [← still.waits]
      exact (calm_iff.1 quiet).1
    · rw [aimed.wb inst held excepts] at emptied
      exact emptied.inStep

/-- MEM.  What it holds has a number, now that WB is empty. -/
theorem memStage_lockstep (lockstep : t.Lockstep P base) (free : t.pipe.wb = none) :
    (t.afterMem t.pipe.memStage).Lockstep P base := by
  obtain ⟨queued, -, -⟩ := memStage_queued lockstep.queued free
  have still := memStage_still t.pipe
  have aimed := lockstep.aimed
  refine ⟨queued, ?_, ?_, ?_⟩
  · rcases Pipeline.memStage_cases t.pipe with ⟨stays, -⟩ | ⟨inst, marks, held, leaves⟩
    · rw [stays, afterMem, if_neg (by cases t.pipe.mem <;> simp)]
      exact aimed
    · have full : t.pipe.mem.isSome = true := by rw [held]; rfl
      have numbered : t.mem.isSome = true := by
        by_contra empty
        have trap := lockstep.queued.memBehind full (by simpa using empty)
        rw [free] at trap
        cases trap
      rw [leaves, afterMem, if_pos (by rw [full]; rfl)]
      refine ⟨aimed.exe, ?_, ?_⟩
      · rintro ⟨⟩
      · rintro _ ⟨⟩
        exact aimed.mem numbered inst held
  · rw [afterMem_pipe]
    exact lockstep.drift.trans still.drift
  · rw [afterMem_pipe]
    intro quiet
    refine (lockstep.inStep (calm_iff.2 ⟨?_, ?_⟩)).still still
    · rw [← still.waits]
      exact (calm_iff.1 quiet).1
    · rw [free]
      rfl

/-- What leaves EXE takes its number and its target along. -/
theorem enterMem_aimed {v : Pipeline δ π} {inst : Inst} (aimed : t.Aimed)
    (held : t.pipe.exe = some inst) (turn : ExeTurn inst t.pipe v)
    (front : ExeFront inst t.pipe v) (here : v.pc = t.pipe.pc) :
    (t.afterExe v.enterMem).Aimed := by
  obtain ⟨inst', held', target⟩ := front.held
  have exe (numbered : t.exe.isSome = true) : inst'.realTarget = t.pipe.pc :=
    target.trans (aimed.exe numbered inst held)
  unfold enterMem
  split
  next ready =>
    rw [afterExe, held, if_pos (by rfl)]
    refine ⟨?_, ?_, ?_⟩
    · rintro ⟨⟩
    · rintro numbered _ eq -
      cases held'.symm.trans eq
      exact (exe numbered).trans here.symm
    · dsimp only
      rw [turn.wb, here]
      exact aimed.wb
  next =>
    rw [afterExe, held', if_neg (by rw [Option.isNone_some, Bool.and_false]; decide)]
    refine ⟨?_, ?_, ?_⟩
    · rintro numbered _ eq
      cases held'.symm.trans eq
      exact (exe numbered).trans here.symm
    · dsimp only
      rw [turn.mem, here]
      exact aimed.mem
    · dsimp only
      rw [turn.wb, here]
      exact aimed.wb

/-- EXE.  A branch that redirects has a number, unless it is behind a trap. -/
theorem exeStage_lockstep (lockstep : t.Lockstep P base) (calm : holdsTrap t.pipe.mem = false)
    (trapWaits : holdsTrap t.pipe.wb = true → t.pipe.idWaitRedirect = true) :
    Returns (t.pipe.exeStage P p B) fun u => (t.afterExe u).Lockstep P base ∧
      (holdsTrap u.wb = true → u.idWaitRedirect = true ∨ u.idValid = false) := by
  intro u ran
  obtain ⟨queued, trapWaits'⟩ := exeStage_queued lockstep.queued calm trapWaits u ran
  rcases exeStage_front lockstep.queued.settled u ran with
    ⟨free, rfl⟩ | ⟨inst, v, held, turn, front, rfl⟩
  · refine ⟨?_, trapWaits'⟩
    rw [afterExe, free]
    exact lockstep
  · have aimed := lockstep.aimed
    have here : v.pc = t.pipe.pc := by
      rcases front.front with ⟨-, still⟩ | ⟨-, emptied⟩
      · exact still.here
      · exact emptied.here
    have handed := enterMem_still v
    refine ⟨⟨queued, enterMem_aimed aimed held turn front here, ?_, ?_⟩, trapWaits'⟩
    · rw [afterExe_pipe]
      rcases front.front with ⟨-, still⟩ | ⟨-, emptied⟩
      · exact lockstep.drift.trans (still.trans handed).drift
      · exact lockstep.drift.trans (emptied.trans handed).drift
    · rw [afterExe_pipe]
      intro quiet
      obtain ⟨going, untrapped⟩ := calm_iff.1 quiet
      have wb : v.enterMem.wb = t.pipe.wb := by
        rw [← turn.wb]
        unfold enterMem
        split <;> rfl
      rw [wb] at untrapped
      rcases front.front with ⟨-, still⟩ | ⟨-, emptied⟩
      · have still := still.trans handed
        exact (lockstep.inStep (calm_iff.2 ⟨still.waits.symm.trans going, untrapped⟩)).still still
      · have numbered : t.exe.isSome = true := by
          by_contra empty
          have full : t.pipe.exe.isSome = true := by rw [held]; rfl
          rcases lockstep.queued.exeBehind full (by simpa using empty) with mem | wb
          · exact absurd mem (ne_true_of_eq_false calm)
          · exact absurd wb (ne_true_of_eq_false untrapped)
        rw [aimed.exe numbered inst held] at emptied
        exact (emptied.trans handed).inStep

/-- So far the calls of `updateEnv` have executed the program. -/
def Refines (P : Platform δ) (arch : RiscvArch δ) (startPc : Word) (t : Numbered δ π) : Prop :=
  ∃ base, Executes P arch startPc t.calls base t.pipe.pc ∧ t.Lockstep P base

/-- ID.  It calls `updateEnv` in order, or what it holds is behind a trap. -/
theorem idStage_refines {arch : RiscvArch δ} {startPc : Word} (refines : t.Refines P arch startPc)
    (trapWaits : holdsTrap t.pipe.wb = true →
      t.pipe.idWaitRedirect = true ∨ t.pipe.idValid = false) (faults : t.pipe.FaultsNow P) :
    Returns (t.pipe.idStage P B) fun u => (t.afterId u).Refines P arch startPc := by
  obtain ⟨base, executes, lockstep⟩ := refines
  intro u ran
  have queued : (t.afterId u).Queued := idStage_queued lockstep.queued trapWaits u ran
  by_cases ready : t.pipe.idValid && t.pipe.exe.isNone
  · obtain ⟨valid, free⟩ := Bool.and_eq_true_iff.1 ready
    have free := Option.isNone_iff_eq_none.1 free
    obtain ⟨inst, back, waits⟩ := Pipeline.idStage_waits valid free u ran
    have mem : u.mem = t.pipe.mem := congrArg Back.mem back
    have wb : u.wb = t.pipe.wb := congrArg Back.wb back
    rw [afterId, if_pos ready] at queued
    change (t.afterId u).Refines P arch startPc
    rw [afterId, if_pos ready]
    cases waiting : t.pipe.idWaitRedirect with
    | true =>
        -- An instruction behind a trap is passed on without `updateEnv`.
        obtain ⟨here, drift⟩ := idStage_waiting waiting u ran
        rw [waiting, if_pos rfl] at queued
        rw [if_pos rfl]
        refine ⟨base, ?_, queued, ⟨?_, ?_, ?_⟩, lockstep.drift.trans drift, ?_⟩
        · dsimp only
          rw [here]
          exact executes
        · rintro ⟨⟩
        · dsimp only
          rw [mem, here]
          exact lockstep.aimed.mem
        · dsimp only
          rw [wb, here]
          exact lockstep.aimed.wb
        · intro quiet
          rw [waiting, Bool.true_or] at waits
          cases waits.symm.trans (calm_iff.1 quiet).1
    | false =>
        -- With a trap in WB, ID would wait or be empty.
        have untrapped : holdsTrap t.pipe.wb = false := by
          by_contra trap
          rcases trapWaits (Bool.eq_true_of_not_eq_false trap) with waits | empty
          · cases waits.symm.trans waiting
          · cases valid.symm.trans empty
        have inStep := lockstep.inStep (calm_iff.2 ⟨waiting, untrapped⟩)
        obtain ⟨⟨info, a, fetches, drift, here, updated⟩, ⟨inst', held, target⟩, after⟩ :=
          idStage_called inStep lockstep.drift ⟨valid, free, waiting⟩ faults u ran
        rw [waiting, if_neg Bool.false_ne_true] at queued
        rw [if_neg Bool.false_ne_true]
        refine ⟨u.arch, executes.call fetches drift here updated, queued, ⟨?_, ?_, ?_⟩, .refl _, ?_⟩
        · rintro _ _ eq
          cases held.symm.trans eq
          exact target
        · -- A trap in MEM would make ID wait.
          intro numbered inst held excepts
          have trap : holdsTrap t.pipe.mem = true := by
            rw [← mem, show u.mem = some inst from held]
            exact excepts
          cases (lockstep.queued.memTrap trap numbered).2.symm.trans waiting
        · intro inst held excepts
          have trap : holdsTrap t.pipe.wb = true := by
            rw [← wb, show u.wb = some inst from held]
            exact excepts
          cases trap.symm.trans untrapped
        · exact fun quiet => after (calm_iff.1 quiet).1
  · have same : t.pipe.idStage P B = .ok t.pipe := if_neg ready
    cases ran.symm.trans same
    change (t.afterId t.pipe).Refines P arch startPc
    rw [afterId, if_neg ready]
    exact ⟨base, executes, lockstep⟩

/-- Nothing but the stages before EXE has moved. -/
theorem Lockstep.of_issued (lockstep : t.Lockstep P base) (same : u.issued = t.pipe.issued)
    (here : u.pc = t.pipe.pc) (drift : Drift t.pipe.arch u.arch)
    (inStep : t.pipe.calm = true → InStep P base u) :
    Lockstep P base { t with pipe := u } := by
  have exe : u.exe = t.pipe.exe := congrArg (fun l => l.1.1) same
  have mem : u.mem = t.pipe.mem := congrArg (fun l => l.1.2.1) same
  have wb : u.wb = t.pipe.wb := congrArg (fun l => l.1.2.2) same
  have waits : u.idWaitRedirect = t.pipe.idWaitRedirect := congrArg (fun l => l.2.2) same
  refine ⟨lockstep.queued.of_issued same, ⟨?_, ?_, ?_⟩, lockstep.drift.trans drift, ?_⟩
  · dsimp only
    rw [exe, here]
    exact lockstep.aimed.exe
  · dsimp only
    rw [mem, here]
    exact lockstep.aimed.mem
  · dsimp only
    rw [wb, here]
    exact lockstep.aimed.wb
  · intro quiet
    refine inStep ?_
    rw [Pipeline.calm, ← waits, ← wb]
    exact quiet

/-- What holds between two steps. -/
structure Kept (P : Platform δ) (arch : RiscvArch δ) (startPc : Word) (t : Numbered δ π) :
    Prop where
  refines : t.Refines P arch startPc
  coded : t.pipe.Coded
  served : t.pipe.calm = true → t.pipe.Served

variable {arch : RiscvArch δ} {startPc : Word}

/-- WB makes no call. -/
theorem afterWb_calls (t : Numbered δ π) (u : Pipeline δ π) : (t.afterWb u).calls = t.calls := by
  unfold afterWb
  split
  · rfl
  · split <;> rfl

/-- MEM makes no call. -/
theorem afterMem_calls (t : Numbered δ π) (u : Pipeline δ π) :
    (t.afterMem u).calls = t.calls := by
  unfold afterMem
  split <;> rfl

/-- EXE makes no call. -/
theorem afterExe_calls (t : Numbered δ π) (u : Pipeline δ π) :
    (t.afterExe u).calls = t.calls := by
  unfold afterExe
  split <;> rfl

/-- The stages up to EXE call nothing. -/
theorem beforeId_refines (refines : t.Refines P arch startPc) :
    Returns (t.pipe.wbStage p B) fun u =>
      Returns ((t.afterWb u).pipe.memStage.exeStage P p B) fun v =>
        Refines P arch startPc
            (((t.afterWb u).afterMem (t.afterWb u).pipe.memStage).afterExe v) ∧
          (holdsTrap v.wb = true → v.idWaitRedirect = true ∨ v.idValid = false) := by
  obtain ⟨base, executes, lockstep⟩ := refines
  intro u retired v executed
  obtain ⟨after, free⟩ := wbStage_lockstep lockstep u retired
  have here : u.pc = t.pipe.pc := by
    rcases (wbStage_front p B t.pipe u retired).2 with ⟨-, still, -⟩ | ⟨_, -, -, emptied, -⟩
    · exact still.here
    · exact emptied.here
  rw [← here, ← afterWb_calls t u] at executes
  have pipe := afterWb_pipe t u
  generalize t.afterWb u = t₁ at after executes executed pipe ⊢
  subst pipe
  have left := memStage_lockstep after free
  obtain ⟨-, calm, trapWaits⟩ := memStage_queued after.queued free
  rw [← (memStage_still t₁.pipe).here, ← afterMem_calls t₁ t₁.pipe.memStage] at executes
  have pipe := afterMem_pipe t₁ t₁.pipe.memStage
  generalize t₁.afterMem t₁.pipe.memStage = t₂ at left executes pipe ⊢
  rw [← pipe] at calm trapWaits executes executed
  obtain ⟨entered, trapWaits⟩ := exeStage_lockstep left calm trapWaits v executed
  have here : v.pc = t₂.pipe.pc := by
    rcases exeStage_front left.queued.settled v executed with
      ⟨-, rfl⟩ | ⟨_, w, -, -, front, rfl⟩
    · rfl
    · rcases front.front with ⟨-, still⟩ | ⟨-, emptied⟩
      · exact (still.trans (enterMem_still w)).here
      · exact (emptied.trans (enterMem_still w)).here
  rw [← here, ← afterExe_calls t₂ v] at executes
  refine ⟨⟨base, ?_, entered⟩, trapWaits⟩
  rw [afterExe_pipe]
  exact executes

/-- The stages before ID go on from where ID has left the pc. -/
theorem fetchStages_kept (jumps : B.Jumps) (refines : t.Refines P arch startPc)
    (coded : t.pipe.Coded) (takes : Bool) (slot : Inst) :
    Returns (t.pipe.stallStage P B) fun u => Returns (u.fetchStage P takes) fun v =>
      Kept P arch startPc { t with pipe :=
        { v.nextFetch slot with arch :=
          { (v.nextFetch slot).arch with tick := (v.nextFetch slot).arch.tick + 1 } } } := by
  obtain ⟨base, executes, lockstep⟩ := refines
  intro u stalled v fetched
  have same := Pipeline.issued_of_latched ((Pipeline.nextFetch_latched slot v).trans
    ((Pipeline.fetchStage_latched P takes u v fetched).trans
      (Pipeline.stallStage_latched P B t.pipe u stalled)))
  obtain ⟨⟨drift, here, fetchInst⟩, ordered⟩ :=
    stallStage_inStep P base B t.pipe jumps u stalled
  have coded : u.Coded := by
    unfold Coded
    rw [fetchInst]
    exact coded
  have first := fetchStage_inStep P takes base coded v fetched
  have both := first.trans (nextFetch_inStep P slot base first.coded)
  generalize v.nextFetch slot = w at same both ⊢
  have still : Still w { w with arch := { w.arch with tick := w.arch.tick + 1 } } :=
    ⟨rfl, rfl, rfl, rfl, ⟨fun _ _ _ _ => rfl, .inl rfl, rfl, rfl, rfl⟩⟩
  have served (quiet : t.pipe.calm = true) : InStep P base w ∧ w.Served := by
    obtain ⟨inStep, served⟩ := ordered lockstep.drift (lockstep.inStep quiet)
    exact both.inStep inStep served
  refine ⟨⟨base, ?_, lockstep.of_issued same (both.here.trans here)
    ((drift.trans both.drift).trans still.drift) ?_⟩, both.coded, ?_⟩
  · change Executes P arch startPc t.calls base w.pc
    rw [both.here, here]
    exact executes
  · exact fun quiet => (served quiet).1.still still
  · intro quiet
    refine (served ?_).2
    have wb : w.wb = t.pipe.wb := congrArg (fun l => l.1.2.2) same
    have waits : w.idWaitRedirect = t.pipe.idWaitRedirect := congrArg (fun l => l.2.2) same
    rw [Pipeline.calm, ← waits, ← wb]
    exact quiet

/-- `exec` keeps the pipeline in step: the one call it may make is the next one of the
sequential machine. -/
theorem exec_kept (jumps : B.Jumps) (kept : t.Kept P arch startPc)
    (faults : ∀ v, t.pipe.beforeId P p B = .ok v → v.FaultsNow P) (takes : Bool) (slot : Inst) :
    Returns (t.exec P p B takes slot) (Kept P arch startPc) := by
  unfold exec
  split
  · exact returns_error _ _
  simp only [returns_bind, returns_pure]
  intro u retired v executed w decoded w' stalled w'' fetched
  rw [afterMem_pipe, afterWb_pipe] at executed
  rw [afterExe_pipe] at decoded
  obtain ⟨refines, trapWaits⟩ := beforeId_refines kept.refines u retired v
    (by rw [afterWb_pipe]; exact executed)
  have fetchInst : w.fetchInst = t.pipe.fetchInst :=
    (idStage_fetchInst P B v w decoded).trans ((exeStage_fetchInst P p B _ v executed).trans
      ((memStage_fetchInst u).trans (wbStage_fetchInst p B t.pipe u retired)))
  have faults : v.FaultsNow P := by
    refine faults v ?_
    unfold beforeId
    rw [retired]
    exact executed
  have pipe := afterExe_pipe ((t.afterWb u).afterMem (t.afterWb u).pipe.memStage) v
  generalize ((t.afterWb u).afterMem (t.afterWb u).pipe.memStage).afterExe v = t₃
    at refines stalled pipe ⊢
  subst pipe
  have called : (t₃.afterId w).Refines P arch startPc :=
    idStage_refines refines trapWaits faults w decoded
  refine fetchStages_kept jumps called ?_ takes slot w' stalled w'' fetched
  unfold Coded
  rw [afterId_pipe, fetchInst]
  exact kept.coded

/-- A step without a call keeps the pipeline in step if it moves nothing but devices. -/
theorem onPipe_kept (kept : t.Kept P arch startPc) {x : Except Halt (Pipeline δ π)}
    (moved : Returns x fun u => u.issued = t.pipe.issued ∧ Ahead t.pipe u ∧
      (∀ base, Drift base t.pipe.arch → t.pipe.calm = true → InStep P base t.pipe →
        InStep P base u ∧ u.Served)) : Returns (t.onPipe x) (Kept P arch startPc) := by
  obtain ⟨⟨base, executes, lockstep⟩, coded, -⟩ := kept
  rw [onPipe, returns_map]
  refine moved.mono ?_
  rintro u ⟨same, ⟨drift, here, fetchInst⟩, inStep⟩
  have inStep (quiet : t.pipe.calm = true) :=
    inStep base lockstep.drift quiet (lockstep.inStep quiet)
  refine ⟨⟨base, ?_, lockstep.of_issued same here drift fun quiet => (inStep quiet).1⟩, ?_, ?_⟩
  · dsimp only
    rw [here]
    exact executes
  · change u.Coded
    unfold Coded
    rw [fetchInst]
    exact coded
  · intro quiet
    refine (inStep ?_).2
    have wb : u.wb = t.pipe.wb := congrArg (fun l => l.1.2.2) same
    have waits : u.idWaitRedirect = t.pipe.idWaitRedirect := congrArg (fun l => l.2.2) same
    rw [Pipeline.calm, ← waits, ← wb]
    exact quiet

end Numbered

namespace Pipeline

/-- What the pipeline takes for granted: no block arrives while ID is occupied and another block
waits, and a page fault of a fetch is one still when ID takes it. -/
def Fits (P : Platform δ) (p : PipelineParams) (B : Predictor π) (s : Pipeline δ π) :
    PipelineStep δ → Prop
  | .exec _ _ => ∀ v, s.beforeId P p B = .ok v → v.FaultsNow P
  | .icacheAnswer => s.idWaitRedirect = false → s.fetching ≠ [] → s.idValid = true →
      s.idStallInstValid = false
  | _ => True

/-- The number of calls of `updateEnv` in a step: one if `exec` comes to ID with an instruction to
call it for. -/
def callsIn (P : Platform δ) (p : PipelineParams) (B : Predictor π) (s : Pipeline δ π) :
    PipelineStep δ → Nat
  | .exec _ _ =>
      match s.beforeId P p B with
      | .ok v => (v.idValid && v.exe.isNone && !v.idWaitRedirect).toNat
      | .error _ => 0
  | _ => 0

end Pipeline

namespace Numbered

open Pipeline

variable {P : Platform δ} {p : PipelineParams} {B : Predictor π} {t : Numbered δ π}
  {arch : RiscvArch δ} {startPc : Word}

/-- The DCache moves no register. -/
theorem runDCache_kept (kept : t.Kept P arch startPc) (j : CacheStep) :
    Returns (t.onPipe (t.pipe.runDCache p j)) (Kept P arch startPc) := by
  refine onPipe_kept kept ?_
  unfold Pipeline.runDCache
  rw [returns_bind]
  refine (Pipeline.callDCache_back p j t.pipe).mono ?_
  rintro _ ⟨dcache, -, rfl⟩
  refine (returns_pure _ _).2 ⟨rfl, ⟨.refl _, rfl, rfl⟩, fun base _ quiet inStep => ⟨?_, ?_⟩⟩
  · exact inStep.still ⟨rfl, rfl, rfl, rfl, .refl _⟩
  · exact kept.served quiet

/-- Every step of a run that fits keeps the pipeline in step. -/
theorem step_kept (jumps : B.Jumps) (kept : t.Kept P arch startPc) (j : PipelineStep δ)
    (fits : t.pipe.Fits P p B j) : Returns (t.step P p B j) (Kept P arch startPc) := by
  cases j with
  | exec takes slot => exact exec_kept jumps kept fits takes slot
  | icacheAnswer =>
      refine onPipe_kept kept ?_
      intro u ran
      have same := Pipeline.icacheAnswered_latched P B t.pipe u ran
      refine ⟨Pipeline.issued_of_latched same, ?_⟩
      refine ⟨(icacheAnswered_inStep P arch B t.pipe jumps u ran).1, ?_⟩
      intro base drift quiet inStep
      exact (icacheAnswered_inStep P base B t.pipe jumps u ran).2 drift inStep (kept.served quiet)
        (fits (calm_iff.1 quiet).1)
  | dcacheTick accepts => exact runDCache_kept kept _
  | dcacheAnswer index => exact runDCache_kept kept _
  | device dev irq =>
      refine onPipe_kept kept ((returns_ok _ _).2 ⟨rfl, ⟨drift_devices _ dev irq, rfl, rfl⟩, ?_⟩)
      intro base _ quiet inStep
      refine ⟨inStep.still ⟨rfl, rfl, ?_, rfl, drift_devices _ dev irq⟩, kept.served quiet⟩
      cases irq <;> rfl

/-- No call has been made, and the machine is the one that was loaded. -/
theorem start_kept (P : Platform δ) (arch : RiscvArch δ) (pred : π) (startPc : Word) :
    (start (Pipeline.afterLoad p arch pred startPc)).Kept P arch startPc := by
  refine ⟨⟨arch, .start, start_queued arch pred startPc, ⟨?_, ?_, ?_⟩, .refl _, ?_⟩, ?_, ?_⟩
  · rintro ⟨⟩
  · rintro ⟨⟩
  · rintro _ ⟨⟩
  · intro _
    refine ⟨.inr ⟨startPc, rfl, ?_, rfl, ?_, ?_, ?_, ?_, ?_⟩, ?_⟩
    · rintro _ ⟨⟩
    · rintro ⟨⟩
    · rintro ⟨⟩
    · exact fun left => absurd left (Int.lt_irrefl 0)
    · exact fun _ => .inl ⟨rfl, rfl⟩
    · rintro ⟨⟩
    · rintro ⟨⟩
  · rintro _ ⟨⟩
  · exact fun _ _ => rfl

/-- A step of the numbered run is one of the pipeline. -/
theorem visits_pipe {u : Numbered δ π} {steps : List (PipelineStep δ)} {j : PipelineStep δ}
    (visit : Visits (step P p B) t steps u j) :
    Visits (Pipeline.step P p B) t.pipe steps u.pipe j := by
  induction visit with
  | here => exact .here _ _ _
  | later moved _ ih =>
      refine .later ?_ ih
      rw [← step_pipe, moved]
      rfl

/-- The numbered run of a run that fits. -/
theorem run_kept (jumps : B.Jumps) (arch : RiscvArch δ) (pred : π) (startPc : Word)
    {steps : List (PipelineStep δ)}
    (fits : ∀ s j, Visits (Pipeline.step P p B) (.afterLoad p arch pred startPc) steps s j →
      s.Fits P p B j) {before : List (PipelineStep δ)} (part : before <+: steps) :
    Returns (runSteps (Pipeline.step P p B) (.afterLoad p arch pred startPc) before) fun s =>
      ∃ t, runSteps (step P p B) (start (.afterLoad p arch pred startPc)) before = .ok t ∧
        t.pipe = s ∧ t.Kept P arch startPc := by
  intro s ran
  have same := runSteps_pipe P p B (start (.afterLoad p arch pred startPc)) before
  have kept := runSteps_prefix_invariant (start_kept P arch pred startPc)
    (fun u j visit held => step_kept jumps held j (fits _ j (visits_pipe visit))) part
  cases run : runSteps (step P p B) (start (.afterLoad p arch pred startPc)) before with
  | error e =>
      rw [run] at same
      cases same.trans ran
  | ok t =>
      rw [run] at same
      exact ⟨t, rfl, Except.ok.inj (same.trans ran), kept t run⟩

/-- ID makes a call exactly for an instruction that it hands over while it does not wait. -/
theorem afterId_calls (t : Numbered δ π) (u : Pipeline δ π) :
    (t.afterId u).calls =
      t.calls + (t.pipe.idValid && t.pipe.exe.isNone && !t.pipe.idWaitRedirect).toNat := by
  unfold afterId
  cases t.pipe.idValid && t.pipe.exe.isNone with
  | false => rfl
  | true => cases t.pipe.idWaitRedirect <;> rfl

/-- A step is numbered by the call of `updateEnv` that it makes, if it makes one. -/
theorem step_calls (j : PipelineStep δ) :
    Returns (t.step P p B j) fun t' => t'.calls = t.calls + t.pipe.callsIn P p B j := by
  cases j with
  | exec takes slot =>
      rw [step, exec]
      split
      · exact returns_error _ _
      simp only [returns_bind, returns_pure]
      intro u retired v executed w _ w' _ w'' _
      rw [afterMem_pipe, afterWb_pipe] at executed
      have reached : t.pipe.beforeId P p B = .ok v := by
        unfold beforeId
        rw [retired]
        exact executed
      rw [afterId_calls, afterExe_calls, afterMem_calls, afterWb_calls, afterExe_pipe, callsIn,
        reached]
  | icacheAnswer | dcacheTick | dcacheAnswer | device =>
      rw [step, onPipe, returns_map]
      exact fun u _ => rfl

end Numbered

/-! ### Runs -/

/-- `PipePredictor` predicts a direct jump to its target, and every other one taken. -/
theorem PipePredictor.jumps {σ μ : Type} (C : PipePredictor σ μ) : C.toPredictor.Jumps where
  direct pc info state direct := by
    change (C.predict pc info state).1.taken = true ∧
      (C.predict pc info state).1.nextPc = info.dst2.data
    unfold PipePredictor.predict
    cases type : info.type <;> rw [type] at direct <;>
      first | exact ⟨rfl, rfl⟩ | exact absurd direct (by decide)
  jump pc info state jump := by
    change (C.predict pc info state).1.taken = true
    unfold PipePredictor.predict
    cases type : info.type <;> rw [type] at jump <;>
      first | rfl | exact absurd jump (by decide)

/-- Every step of the run is one that the pipeline can take. -/
def Pipeline.RunFits (P : Platform δ) (p : PipelineParams) (B : Predictor π) (s : Pipeline δ π)
    (steps : List (PipelineStep δ)) : Prop :=
  ∀ t j, Visits (Pipeline.step P p B) s steps t j → t.Fits P p B j

/-- Wherever the run comes to a call of `updateEnv`, the record is that of `id_inst`, the pc is the
one the call before returned, the instruction there has been fetched since then, and no error
follows the call. -/
def Pipeline.RunAtCall (P : Platform δ) (p : PipelineParams) (B : Predictor π) (arch : RiscvArch δ)
    (pred : π) (startPc : Word) (steps : List (PipelineStep δ)) : Prop :=
  ∀ s takes slot, Visits (Pipeline.step P p B) (.afterLoad p arch pred startPc) steps s
    (.exec takes slot) → Returns (s.beforeId P p B) fun v => v.Calls →
      ∃ n base inst inst', Executes P arch startPc n base v.pc ∧ v.idInst = some inst ∧
        AtCall P base (v.entered inst) inst' ∧
        ∀ r, (v.entered inst).arch.updateEnv P inst'.info = .ok r →
          inst.pc.toNat + 4 < 2 ^ 64 → ∃ u, v.idStage P B = .ok u

namespace Pipeline

variable {σ μ : Type}

/-- In a run that fits, the calls of `updateEnv` have executed the program: the machine is where
so many sequential steps from the start lead, up to what the decodings and the devices do in
between. Whatever the predictor says, a wrong path is decoded and never committed: `Lockstep`
says which of the stages hold instructions of the program. -/
theorem run_executes (P : Platform δ) (p : PipelineParams) (C : PipePredictor σ μ)
    (arch : RiscvArch δ) (pred : PipePredictorState σ μ) (startPc : Word)
    (steps : List (PipelineStep δ))
    (fits : RunFits P p C.toPredictor (.afterLoad p arch pred startPc) steps) :
    Returns (runSteps (Pipeline.step P p C.toPredictor) (.afterLoad p arch pred startPc) steps)
      fun s => ∃ t base, runSteps (Numbered.step P p C.toPredictor)
          (.start (.afterLoad p arch pred startPc)) steps = .ok t ∧ t.pipe = s ∧
        Executes P arch startPc t.calls base s.pc ∧ Drift base s.arch := by
  intro s ran
  obtain ⟨t, run, rfl, ⟨base, executes, lockstep⟩, -, -⟩ :=
    Numbered.run_kept C.jumps arch pred startPc fits (List.prefix_refl steps) s ran
  exact ⟨t, base, run, rfl, executes, lockstep.drift⟩

/-- In a run that fits, every call of `updateEnv` finds the record of the instruction in ID,
decoded at the current pc from the bytes that the program has there, and the checks behind the
call stop the simulator only at the top of the address space. -/
theorem run_atCall (P : Platform δ) (p : PipelineParams) (C : PipePredictor σ μ)
    (arch : RiscvArch δ) (pred : PipePredictorState σ μ) (startPc : Word)
    (steps : List (PipelineStep δ))
    (fits : RunFits P p C.toPredictor (.afterLoad p arch pred startPc) steps) :
    RunAtCall P p C.toPredictor arch pred startPc steps := by
  intro s takes slot visit v before calls
  obtain ⟨first, rest, rfl, ran⟩ := (visits_iff _ _ _ _ _).1 visit
  obtain ⟨t, -, rfl, ⟨refines, -, -⟩⟩ :=
    Numbered.run_kept C.jumps arch pred startPc fits (List.prefix_append _ _) s ran
  obtain ⟨u, retired, executed⟩ := (bind_eq_ok _ _ _).1 before
  obtain ⟨⟨base, executes, lockstep⟩, trapWaits⟩ := Numbered.beforeId_refines refines u retired v
    (by rw [Numbered.afterWb_pipe]; exact executed)
  rw [Numbered.afterExe_pipe] at executes
  have drift := lockstep.drift
  have inStep := lockstep.inStep
  rw [Numbered.afterExe_pipe] at drift inStep
  have untrapped : holdsTrap v.wb = false := by
    by_contra trap
    rcases trapWaits (Bool.eq_true_of_not_eq_false trap) with waits | empty
    · cases waits.symm.trans calls.2.2
    · cases calls.1.symm.trans empty
  have inStep := inStep (Numbered.calm_iff.2 ⟨calls.2.2, untrapped⟩)
  have held : ∃ inst, v.idInst = some inst := by
    rcases inStep.sound with ⟨-, trap⟩ | ⟨start, aligned⟩
    · obtain ⟨inst, held, -⟩ := Option.any_eq_true _ _ |>.1 trap
      exact ⟨inst, held⟩
    · obtain ⟨inst, held, -⟩ := aligned.held calls.1
      exact ⟨inst, held⟩
  obtain ⟨inst, held⟩ := held
  have faults := fits _ _ visit v before
  obtain ⟨inst', atCall, block, kind⟩ := inStep.entered drift calls faults held
  refine ⟨_, base, inst, inst', executes, held, atCall, ?_⟩
  rintro ⟨target, a⟩ updates fits
  have valid := (entered_kept inst v).1.trans calls.1
  rw [idStage_calls calls held, atCall.held, Option.getD_some]
  rcases updateEnvAtId_updated (B := C.toPredictor) atCall valid kind updates with
    ⟨w, called, -⟩ | ⟨wraps, -⟩
  · rw [called]
    exact ⟨w.enterExe, rfl⟩
  · rw [block] at wraps
    exact absurd wraps (Nat.not_le.2 fits)

end Pipeline

/-! ### A branch that is predicted wrong -/

/-- `bne x0, x0, .+8; addi x1, x0, 1; j .`. -/
def branchImage : Memory Unit := imageOf [0x00001463, 0x00100093, 0x0000006f]

/-- The branch, predicted taken, and what follows. -/
def branchSteps : List (PipelineStep Unit) :=
  .exec true .zero :: execFetched ++ List.replicate 2 (.exec true .zero) ++ execFetched ++
    execFetched ++ [.exec true .zero]

/-- Before the run. -/
def branchStart : Pipeline Unit (PipePredictorState Unit Unit) :=
  .afterLoad tenSlots (Machine.reset archCfg branchImage).arch
    (PipePredictor.afterLoad (fun _ => blankRecord) ()) 0x80000000

/-- A short run with a branch fits. -/
theorem branchSteps_fits :
    Pipeline.RunFits (ramOnly 4096) tenSlots twoTables.toPredictor branchStart branchSteps := by
  have quiet : ∀ before ∈ branchSteps.inits,
      ((runSteps (Pipeline.step (ramOnly 4096) tenSlots twoTables.toPredictor) branchStart
        before).toOption.all fun s => !s.idStallInstValid &&
          ((s.beforeId (ramOnly 4096) tenSlots twoTables.toPredictor).toOption.all fun v =>
            !v.idInst.any Inst.faulted)) = true := by
    decide +kernel
  intro s j visit
  obtain ⟨before, after, split, ran⟩ := (visits_iff _ _ _ _ _).1 visit
  have both := quiet before ((List.mem_inits before branchSteps).2 ⟨j :: after, split.symm⟩)
  rw [ran] at both
  obtain ⟨free, silent⟩ := Bool.and_eq_true_iff.1 both
  cases j with
  | exec takes slot =>
      intro v came calls inst held fault
      rw [came] at silent
      have silent : (!v.idInst.any Inst.faulted) = true := silent
      rw [held, Option.any_some, Inst.faulted, fault] at silent
      cases silent
  | icacheAnswer =>
      intro _ _ _
      rwa [Bool.not_eq_true'] at free
  | dcacheTick => trivial
  | dcacheAnswer => trivial
  | device => trivial

/-- Three calls: the branch is taken back. -/
theorem run_executes_branch :
    Returns (runSteps (Pipeline.step (ramOnly 4096) tenSlots twoTables.toPredictor) branchStart
      branchSteps) fun s => ∃ t base, runSteps (Numbered.step (ramOnly 4096) tenSlots
        twoTables.toPredictor) (.start branchStart) branchSteps = .ok t ∧ t.pipe = s ∧
      Executes (ramOnly 4096) (Machine.reset archCfg branchImage).arch 0x80000000 t.calls
        base s.pc ∧
      Drift base s.arch :=
  Pipeline.run_executes (ramOnly 4096) tenSlots twoTables _ _ _ branchSteps branchSteps_fits

/-- A short run with a branch, at its calls. -/
theorem run_atCall_branch :
    Pipeline.RunAtCall (ramOnly 4096) tenSlots twoTables.toPredictor
      (Machine.reset archCfg branchImage).arch (PipePredictor.afterLoad (fun _ => blankRecord) ())
      0x80000000 branchSteps :=
  Pipeline.run_atCall (ramOnly 4096) tenSlots twoTables _ _ _ branchSteps branchSteps_fits

end CPUDelaySim
