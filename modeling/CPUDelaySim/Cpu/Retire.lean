import CPUDelaySim.Cpu.MemEnd

/-!
# What becomes of the instructions

The calls of `updateEnv` are numbered, and the number goes with the instruction from EXE to WB.
WB retires all numbers in order, and no redirect drops one.

A trap is the last call until WB takes it: ID waits for the redirect.  A branch of the wrong path
that executes behind the trap ends the wait, but only in the cycle in which the trap goes from MEM
to WB, and it empties ID; the next cycle begins with the redirect of the trap.

`Numbered` is the pipeline with the number of a call beside each stage, none for an instruction
that ID let go without a call.  `Queued` is the invariant: what has retired and what is in the
stages are together all numbers in their order, an instruction without a number has a trap in
front of it, and ID waits while a trap with a number is on its way to WB.  What the stages before
ID do has no part in it, which `issued` says.

`run_inOrder` is read off `Queued` at the end of a run: all numbers but those in the stages have
left through WB, in order.
-/

namespace CPUDelaySim

open Riscv

variable {δ π : Type}

/-- The branch needs a redirect: the condition of EXE and, after `updateEnv`, of ID. -/
def Inst.redirects (inst : Inst) : Bool :=
  !inst.excepts &&
    (inst.info.type == .cond && (inst.mispredicts || inst.nextPc != inst.realTarget) ||
      inst.info.type.isJump && inst.nextPc != inst.realTarget)

/-- There is a trap in a stage. -/
def holdsTrap (stage : Option Inst) : Bool := stage.any Inst.excepts

/-! ### The numbered pipeline -/

/-- The pipeline, with the number of calls of `updateEnv`, the number of the call for the
instruction in each stage, if there was one, and the numbers of the instructions that WB retired
and that a redirect dropped.  An instruction leaves ID in the cycle of its call. -/
structure Numbered (δ π : Type) where
  pipe : Pipeline δ π
  calls : Nat
  exe : Option Nat
  mem : Option Nat
  wb : Option Nat
  retired : List (Option Nat)
  dropped : List (Option Nat)

namespace Numbered

/-- Nothing has been called. -/
def start (s : Pipeline δ π) : Numbered δ π := ⟨s, 0, none, none, none, [], []⟩

/-- WB has retired its instruction, and a trap has dropped those in MEM and EXE. -/
def afterWb (t : Numbered δ π) (u : Pipeline δ π) : Numbered δ π :=
  match t.pipe.wb with
  | none => { t with pipe := u }
  | some inst =>
      if inst.excepts then
        { t with
          pipe := u
          exe := none
          mem := none
          wb := none
          retired := t.retired ++ [t.wb]
          dropped := t.dropped ++ [t.mem, t.exe] }
      else { t with pipe := u, wb := none, retired := t.retired ++ [t.wb] }

/-- An instruction has left MEM, or not. -/
def afterMem (t : Numbered δ π) (u : Pipeline δ π) : Numbered δ π :=
  if t.pipe.mem.isSome && u.mem.isNone then { t with pipe := u, mem := none, wb := t.mem }
  else { t with pipe := u }

/-- An instruction has left EXE, or not. -/
def afterExe (t : Numbered δ π) (u : Pipeline δ π) : Numbered δ π :=
  if t.pipe.exe.isSome && u.exe.isNone then { t with pipe := u, exe := none, mem := t.exe }
  else { t with pipe := u }

/-- An instruction has left ID, with a call of `updateEnv` unless ID waits. -/
def afterId (t : Numbered δ π) (u : Pipeline δ π) : Numbered δ π :=
  if t.pipe.idValid && t.pipe.exe.isNone then
    if t.pipe.idWaitRedirect then { t with pipe := u, exe := none }
    else { t with pipe := u, exe := some t.calls, calls := t.calls + 1 }
  else { t with pipe := u }

/-- `exec`. -/
def exec (P : Platform δ) (p : PipelineParams) (B : Predictor π) (takes : Bool) (slot : Inst)
    (t : Numbered δ π) : Except Halt (Numbered δ π) :=
  if 5000 < t.pipe.arch.tick - t.pipe.wbTick then .error (.aborts .exit)
  else do
    let u ← t.pipe.wbStage p B
    let t := t.afterWb u
    let t := t.afterMem t.pipe.memStage
    let u ← t.pipe.exeStage P p B
    let t := t.afterExe u
    let u ← t.pipe.idStage P B
    let t := t.afterId u
    let u ← t.pipe.stallStage P B
    let u ← u.fetchStage P takes
    let u := u.nextFetch slot
    return { t with pipe := { u with arch := { u.arch with tick := u.arch.tick + 1 } } }

/-- A step between two calls of `exec` numbers nothing. -/
def onPipe (t : Numbered δ π) (x : Except Halt (Pipeline δ π)) : Except Halt (Numbered δ π) :=
  x.map fun u => { t with pipe := u }

/-- A step, with the numbers of the calls. -/
def step (P : Platform δ) (p : PipelineParams) (B : Predictor π) (t : Numbered δ π) :
    PipelineStep δ → Except Halt (Numbered δ π)
  | .exec takes slot => t.exec P p B takes slot
  | .icacheAnswer => t.onPipe (t.pipe.step P p B .icacheAnswer)
  | .dcacheTick accepts => t.onPipe (t.pipe.step P p B (.dcacheTick accepts))
  | .dcacheAnswer index => t.onPipe (t.pipe.step P p B (.dcacheAnswer index))
  | .device dev irq => t.onPipe (t.pipe.step P p B (.device dev irq))

/-- The numbers do not change the pipeline. -/
@[simp] theorem afterWb_pipe (t : Numbered δ π) (u : Pipeline δ π) : (t.afterWb u).pipe = u := by
  unfold afterWb
  split
  · rfl
  · split <;> rfl

/-- Neither at the hand-over to WB. -/
@[simp] theorem afterMem_pipe (t : Numbered δ π) (u : Pipeline δ π) :
    (t.afterMem u).pipe = u := by
  unfold afterMem
  split <;> rfl

/-- Neither at the hand-over to MEM. -/
@[simp] theorem afterExe_pipe (t : Numbered δ π) (u : Pipeline δ π) :
    (t.afterExe u).pipe = u := by
  unfold afterExe
  split <;> rfl

/-- Neither at ID. -/
@[simp] theorem afterId_pipe (t : Numbered δ π) (u : Pipeline δ π) : (t.afterId u).pipe = u := by
  unfold afterId
  split
  · split <;> rfl
  · rfl

/-- A step of the pipeline alone is what it is without numbers. -/
theorem onPipe_pipe (t : Numbered δ π) (x : Except Halt (Pipeline δ π)) :
    (t.onPipe x).map pipe = x := by
  cases x <;> rfl

/-- The numbers are not read. -/
theorem step_pipe (P : Platform δ) (p : PipelineParams) (B : Predictor π) (t : Numbered δ π)
    (j : PipelineStep δ) : (t.step P p B j).map pipe = t.pipe.step P p B j := by
  cases j with
  | exec takes slot =>
      rw [step, Pipeline.step, exec, Pipeline.exec]
      split
      · rfl
      · cases t.pipe.wbStage p B with
        | error e => rfl
        | ok u =>
            simp only [bind, Except.bind, afterWb_pipe, afterMem_pipe]
            cases u.memStage.exeStage P p B with
            | error e => rfl
            | ok v =>
                simp only [afterExe_pipe]
                cases v.idStage P B with
                | error e => rfl
                | ok w =>
                    simp only [afterId_pipe]
                    cases w.stallStage P B with
                    | error e => rfl
                    | ok w =>
                        dsimp only
                        cases w.fetchStage P takes <;> rfl
  | icacheAnswer => exact onPipe_pipe t _
  | dcacheTick accepts => exact onPipe_pipe t _
  | dcacheAnswer index => exact onPipe_pipe t _
  | device dev irq => exact onPipe_pipe t _

/-- The run of the pipeline is a run with numbers. -/
theorem runSteps_pipe (P : Platform δ) (p : PipelineParams) (B : Predictor π) (t : Numbered δ π)
    (steps : List (PipelineStep δ)) :
    (runSteps (step P p B) t steps).map pipe = runSteps (Pipeline.step P p B) t.pipe steps := by
  induction steps generalizing t with
  | nil => rfl
  | cons j rest ih =>
      rw [runSteps_cons, runSteps_cons, ← step_pipe]
      cases t.step P p B j with
      | error e => rfl
      | ok u => exact ih u

end Numbered

namespace Pipeline

variable {P : Platform δ} {p : PipelineParams} {B : Predictor π} {s t : Pipeline δ π}
  {inst : Inst}

/-! ### What EXE does -/

/-- A branch that is to redirect has not yet done so. -/
def pending (s : Pipeline δ π) : Bool :=
  s.exe.any Inst.redirects && !s.exeEnd && s.exeStallCycle == 0

/-- A turn of EXE leaves MEM, WB and the kind of the instruction alone.  A pending branch ends
the wait of ID and empties it; nothing else does. -/
structure ExeTurn (inst : Inst) (s t : Pipeline δ π) : Prop where
  mem : t.mem = s.mem
  wb : t.wb = s.wb
  held : ∃ inst', t.exe = some inst' ∧ inst'.excepts = inst.excepts ∧
    inst'.redirects = inst.redirects
  settled : t.exeEnd = true → t.exeStallCycle = 0
  acted : t.pending = false
  turns : t.idWaitRedirect = s.idWaitRedirect ∧ t.idValid = s.idValid ∧ s.pending = false ∨
    inst.excepts = false ∧ t.idWaitRedirect = false ∧ t.idValid = false

/-- A branch that is done has been redirected. -/
theorem pending_of_exeEnd (done : s.exeEnd = true) : s.pending = false := by
  rw [pending, done, Bool.not_true, Bool.and_false, Bool.false_and]

/-- An instruction that does not redirect is not waited for. -/
theorem pending_of_plain (held : s.exe = some inst) (plain : inst.redirects = false) :
    s.pending = false := by
  rw [pending, held, Option.any_some, plain, Bool.false_and, Bool.false_and]

/-- An instruction that does not branch. -/
theorem redirects_of_plain (cond : inst.info.type ≠ .cond) (jump : inst.info.type.isJump = false) :
    inst.redirects = false := by
  rw [Inst.redirects, jump, beq_false_of_ne cond, Bool.false_and, Bool.false_and, Bool.or_false,
    Bool.and_false]

/-- A load or store takes its turn without a redirect. -/
theorem memLookup_exeTurn (type : FetchType) (kind : SnoopReq) (held : s.exe = some inst)
    (cycle : s.exeStallCycle = 0) (plain : inst.redirects = false) :
    Returns (s.memLookup P p type kind inst) (ExeTurn inst s) := by
  unfold memLookup
  simp only [returns_bind]
  rintro ⟨paddr, exception, arch⟩ -
  refine (callDCache_back p _ _).mono ?_
  rintro _ ⟨dcache, -, rfl⟩
  have idle := pending_of_plain held plain
  split
  · exact (returns_pure _ _).2 ⟨rfl, rfl, ⟨_, rfl, rfl, rfl⟩, fun _ => cycle,
      pending_of_exeEnd rfl, .inl ⟨rfl, rfl, idle⟩⟩
  · exact (returns_pure _ _).2 ⟨rfl, rfl, ⟨_, rfl, rfl, rfl⟩, fun _ => cycle,
      pending_of_plain rfl plain, .inl ⟨rfl, rfl, idle⟩⟩

/-- A turn of the claim on EXE. The wait of ID ends with the redirect of the instruction it
waits for, and not before. -/
theorem execute_exeTurn (held : s.exe = some inst) (began : s.exeEnd = false)
    (cycle : s.exeStallCycle = 0) (quiet : inst.excepts = false) :
    Returns (s.execute P p B inst) (ExeTurn inst s) := by
  have stalls (plain : inst.redirects = false) (c : Word) :
      ExeTurn inst s { s with exeStallCycle := c } :=
    ⟨rfl, rfl, ⟨inst, held, rfl, rfl⟩, fun done => (nomatch began.symm.trans done),
      pending_of_plain held plain, .inl ⟨rfl, rfl, pending_of_plain held plain⟩⟩
  have ends (plain : inst.redirects = false) : ExeTurn inst s { s with exeEnd := true } :=
    ⟨rfl, rfl, ⟨inst, held, rfl, rfl⟩, fun _ => cycle, pending_of_exeEnd rfl,
      .inl ⟨rfl, rfl, pending_of_plain held plain⟩⟩
  -- The branch is taken back exactly when its prediction was wrong.
  have branches (wrong taken : Bool) (redirects : inst.redirects = wrong) :
      ExeTurn inst s ((if wrong then s.brRedirect B inst else s).branchDone B taken inst) := by
    cases wrong with
    | false =>
        exact ⟨rfl, rfl, ⟨inst, held, rfl, rfl⟩, fun _ => cycle, pending_of_exeEnd rfl,
          .inl ⟨rfl, rfl, pending_of_plain held redirects⟩⟩
    | true =>
        exact ⟨rfl, rfl, ⟨inst, held, rfl, rfl⟩, fun _ => cycle, pending_of_exeEnd rfl,
          .inr ⟨quiet, rfl, rfl⟩⟩
  unfold execute
  -- One case for each group of the `switch` in EXE.
  cases type : inst.info.type with
  | load | lr | store | amo =>
      have plain : inst.redirects = false :=
        redirects_of_plain (by rw [type]; decide) (by rw [type]; rfl)
      exact memLookup_exeTurn _ _ held cycle plain
  | sc =>
      have plain : inst.redirects = false :=
        redirects_of_plain (by rw [type]; decide) (by rw [type]; rfl)
      dsimp only
      split
      · exact (returns_ok _ _).2 ⟨rfl, rfl, ⟨_, rfl, rfl, rfl⟩, fun _ => cycle,
          pending_of_exeEnd rfl, .inl ⟨rfl, rfl, pending_of_plain held plain⟩⟩
      · exact memLookup_exeTurn _ _ held cycle plain
  | mult | div | fadd | fmul | fma | fdiv | fsqrt | fmiscComplex =>
      have plain : inst.redirects = false :=
        redirects_of_plain (by rw [type]; decide) (by rw [type]; rfl)
      exact (returns_ok _ _).2 (stalls plain _)
  | cond =>
      refine (returns_ok _ _).2 (branches _ _ ?_)
      rw [Inst.redirects, quiet, type]
      simp [InstType.isJump]
  | indirect | indCall | indPush | pop | popPush =>
      refine (returns_ok _ _).2 (branches _ _ ?_)
      rw [Inst.redirects, quiet, type]
      simp [InstType.isJump]
  | fence | sfence =>
      have plain : inst.redirects = false :=
        redirects_of_plain (by rw [type]; decide) (by rw [type]; rfl)
      dsimp only
      rw [returns_bind]
      refine (callDCache_back p .flush s).mono ?_
      rintro _ ⟨dcache, -, rfl⟩
      exact (returns_pure _ _).2 ⟨rfl, rfl, ⟨inst, held, rfl, rfl⟩, fun _ => cycle,
        pending_of_exeEnd rfl, .inl ⟨rfl, rfl, pending_of_plain held plain⟩⟩
  | direct | push | ifence | int | csrwr | sret | mret | fmiscSimple =>
      have plain : inst.redirects = false :=
        redirects_of_plain (by rw [type]; decide) (by rw [type]; rfl)
      exact (returns_ok _ _).2 ⟨rfl, rfl, ⟨inst, held, rfl, rfl⟩, fun _ => cycle,
        pending_of_exeEnd rfl, .inl ⟨rfl, rfl, pending_of_plain held plain⟩⟩

/-- A turn of EXE keeps MEM and WB, and the kind of its instruction. -/
theorem exeTurn_exeTurn (held : s.exe = some inst)
    (settled : s.exeEnd = true → s.exeStallCycle = 0) :
    Returns (s.exeTurn P p B inst) (ExeTurn inst s) := by
  unfold exeTurn
  by_cases stalled : s.exeStallCycle ≠ 0
  · rw [if_pos stalled]
    have began : s.exeEnd = false := by
      by_contra ended
      exact stalled (settled (Bool.eq_true_of_not_eq_false ended))
    have idle : s.pending = false := by
      rw [pending, beq_false_of_ne stalled, Bool.and_false]
    refine (returns_ok _ _).2
      ⟨rfl, rfl, ⟨inst, held, rfl, rfl⟩, ?_, ?_, .inl ⟨rfl, rfl, idle⟩⟩
    · dsimp only
      rw [began]
      split
      · intro _
        assumption
      · nofun
    · rw [pending]
      dsimp only
      split
      · rw [Bool.not_true, Bool.and_false, Bool.false_and]
      · rename_i going
        rw [beq_false_of_ne going, Bool.and_false]
  rw [if_neg stalled]
  have cycle := not_not.1 stalled
  split_ifs with done excepts
  · exact (returns_ok _ _).2 ⟨rfl, rfl, ⟨inst, held, rfl, rfl⟩, settled, pending_of_exeEnd done,
      .inl ⟨rfl, rfl, pending_of_exeEnd done⟩⟩
  · have plain : inst.redirects = false := by
      rw [Inst.redirects, excepts, Bool.not_true, Bool.false_and]
    exact (returns_ok _ _).2 ⟨rfl, rfl, ⟨inst, held, rfl, rfl⟩, fun _ => cycle,
      pending_of_exeEnd rfl, .inl ⟨rfl, rfl, pending_of_plain held plain⟩⟩
  · exact execute_exeTurn held (Bool.eq_false_iff.2 done) cycle (Bool.eq_false_iff.2 excepts)

/-- What bears on the instructions from EXE on. -/
def issued (s : Pipeline δ π) : (Option Inst × Option Inst × Option Inst) × (Bool × Word) × Bool :=
  ((s.exe, s.mem, s.wb), (s.exeEnd, s.exeStallCycle), s.idWaitRedirect)

/-- What the stages before ID leave alone includes all that the order depends on. -/
theorem issued_of_latched (same : t.latched = s.latched) : t.issued = s.issued :=
  congrArg (fun l : Back × Bool =>
    ((l.1.exe, l.1.mem, l.1.wb), (l.1.exeEnd, l.1.exeStallCycle), l.2)) same

/-- The DCache marks slots only. -/
theorem runDCache_issued (p : PipelineParams) (j : CacheStep) (s : Pipeline δ π) :
    Returns (s.runDCache p j) fun t => t.issued = s.issued := by
  unfold runDCache
  rw [returns_bind]
  refine (callDCache_back p j s).mono ?_
  rintro _ ⟨dcache, -, rfl⟩
  exact (returns_pure _ _).2 rfl

/-- An instruction leaves MEM, or stays there and is no trap. -/
theorem memStage_cases (s : Pipeline δ π) :
    s.memStage = s ∧ holdsTrap s.mem = false ∨
      ∃ inst marks, s.mem = some inst ∧
        s.memStage = { s with memEndMap := marks, mem := none, wb := some inst } := by
  unfold memStage
  cases held : s.mem with
  | none => exact .inl ⟨rfl, rfl⟩
  | some inst =>
      dsimp only
      split_ifs with plain mark
      · exact .inr ⟨inst, _, rfl, rfl⟩
      · exact .inr ⟨inst, _, rfl, rfl⟩
      · rw [Bool.or_eq_true, not_or] at plain
        exact .inl ⟨rfl, Bool.eq_false_iff.2 plain.1⟩

/-! ### What ID does -/

/-- After a call ID waits exactly if the instruction traps or is to redirect. -/
theorem checkNext_waits (going : s.idWaitRedirect = false) (target : s.pc = inst.realTarget)
    (held : s.idInst = some inst) :
    Returns (s.checkNext B inst) fun t =>
      t.back = s.back ∧ ∃ inst', t.idInst = some inst' ∧
        t.idWaitRedirect = (inst'.excepts || inst'.redirects) := by
  have same : (s.pc == inst.nextPc) = (inst.nextPc == inst.realTarget) := by
    rw [target, Bool.eq_iff_iff, beq_iff_eq, beq_iff_eq, eq_comm]
  unfold checkNext
  dsimp only
  rw [same]
  split_ifs with excepts jump cond flush
  · refine (returns_ok _ _).2 ⟨rfl, inst, held, ?_⟩
    rw [excepts]
    rfl
  · refine (returns_ok _ _).2 ⟨rfl, inst, held, ?_⟩
    have branch : inst.info.type ≠ .cond := by
      rintro cond
      rw [cond] at jump
      cases jump
    rw [Bool.eq_false_iff.2 excepts, Inst.redirects, Bool.eq_false_iff.2 excepts, jump,
      beq_false_of_ne branch]
    rfl
  · refine (returns_ok _ _).2 ⟨rfl, inst, held, ?_⟩
    rw [Bool.eq_false_iff.2 excepts, Inst.redirects, Bool.eq_false_iff.2 excepts, cond,
      Bool.eq_false_iff.2 jump, Bool.false_and, Bool.or_false]
    rfl
  all_goals try exact returns_error _ _
  all_goals
    have plain := redirects_of_plain (beq_eq_false_iff_ne.1 (Bool.eq_false_iff.2 cond))
      (Bool.eq_false_iff.2 jump)
    refine (returns_ok _ _).2 ⟨rfl, inst, held, ?_⟩
    rw [Bool.eq_false_iff.2 excepts, plain]
    exact going

/-- After the call of `updateEnv` ID waits exactly for a trap or for a branch that will
redirect. -/
theorem updateEnvAtId_waits (going : s.idWaitRedirect = false) :
    Returns (s.updateEnvAtId P B inst) fun t =>
      t.back = s.back ∧ ∃ inst', t.idInst = some inst' ∧
        t.idWaitRedirect = (inst'.excepts || inst'.redirects) := by
  unfold updateEnvAtId
  cases s.envInfo with
  | none => exact returns_error _ _
  | some info =>
      dsimp only
      rw [returns_bind]
      rintro ⟨target, arch⟩ -
      exact checkNext_waits going rfl rfl

/-- ID goes on waiting; if it does not wait, it calls `updateEnv`. -/
theorem idTurn_waits (held : s.idInst = some inst) :
    Returns (s.idTurn P B inst) fun t => t.back = s.back ∧ ∃ inst', t.idInst = some inst' ∧
      t.idWaitRedirect = (s.idWaitRedirect || (inst'.excepts || inst'.redirects)) := by
  have entered (u : Pipeline δ π) (same : u.latched = s.latched) {inst' : Inst}
      (held : u.idInst = some inst') :
      Returns (if !u.idWaitRedirect then u.updateEnvAtId P B (u.idInst.getD inst)
        else if 5000 < u.arch.tick - u.waitRedirectTick then .error (.aborts .exit)
        else .ok u) fun t => t.back = s.back ∧ ∃ inst', t.idInst = some inst' ∧
          t.idWaitRedirect = (s.idWaitRedirect || (inst'.excepts || inst'.redirects)) := by
    have back : u.back = s.back := congrArg Prod.fst same
    rw [← show u.idWaitRedirect = s.idWaitRedirect from congrArg Prod.snd same, ← back]
    cases waits : u.idWaitRedirect with
    | false => exact updateEnvAtId_waits waits
    | true =>
        rw [Bool.not_true, if_neg Bool.false_ne_true]
        split
        · exact returns_error _ _
        · exact (returns_ok _ _).2 ⟨rfl, inst', held, waits⟩
  unfold idTurn
  dsimp only
  cases inst.excepts with
  | true => exact entered (s.handleException inst) rfl rfl
  | false => exact entered s rfl held

/-- What ID hands over to EXE. -/
theorem idStage_waits (ready : s.idValid = true) (free : s.exe = none) :
    Returns (s.idStage P B) fun t => ∃ inst : Inst,
      t.back = { s.back with exe := some inst } ∧
        t.idWaitRedirect = (s.idWaitRedirect || (inst.excepts || inst.redirects)) := by
  unfold idStage
  rw [ready, free]
  cases held : s.idInst with
  | none => exact returns_error _ _
  | some inst =>
      change Returns ((s.idTurn P B inst).map enterExe) _
      rw [returns_map]
      refine (idTurn_waits held).mono ?_
      rintro t ⟨same, inst', held', waits⟩
      refine ⟨{ inst' with access := none }, ?_, waits⟩
      rw [← same, enterExe, back, held']
      rfl

end Pipeline

namespace Numbered

variable {P : Platform δ} {p : PipelineParams} {B : Predictor π} {t : Numbered δ π}

/-! ### The numbers -/

/-- The numbers in the stages, oldest first. -/
def inFlight (t : Numbered δ π) : List Nat := t.wb.toList ++ (t.mem.toList ++ t.exe.toList)

/-- An instruction without a number is behind a trap, and a trap is the last instruction with a
number; ID waits for it until it is in WB. -/
structure Queued (t : Numbered δ π) : Prop where
  order : t.retired ++ t.inFlight.map some = (List.range t.calls).map some
  dropped : ∀ d ∈ t.dropped, d = none
  exeHeld : t.pipe.exe = none → t.exe = none ∧ t.pipe.exeEnd = false
  memHeld : t.pipe.mem = none → t.mem = none
  wbHeld : t.pipe.wb.isSome = t.wb.isSome
  settled : t.pipe.exeEnd = true → t.pipe.exeStallCycle = 0
  idle : t.pipe.exe = none → t.pipe.exeStallCycle = 0
  memBehind : t.pipe.mem.isSome = true → t.mem = none → holdsTrap t.pipe.wb = true
  exeBehind : t.pipe.exe.isSome = true → t.exe = none →
    holdsTrap t.pipe.mem = true ∨ holdsTrap t.pipe.wb = true
  wbTrap : holdsTrap t.pipe.wb = true → t.mem = none ∧ t.exe = none
  memTrap : holdsTrap t.pipe.mem = true → t.mem.isSome = true →
    t.exe = none ∧ t.pipe.idWaitRedirect = true
  exeTrap : holdsTrap t.pipe.exe = true → t.exe.isSome = true → t.pipe.idWaitRedirect = true
  waits : t.pipe.idWaitRedirect = true →
    t.exe.isSome = true ∧ (holdsTrap t.pipe.exe = true ∨ t.pipe.pending = true) ∨
      holdsTrap t.pipe.mem = true ∨ holdsTrap t.pipe.wb = true

/-- The WB stage, and a trap drops only what has no number. -/
theorem wbStage_queued (queued : t.Queued) :
    Returns (t.pipe.wbStage p B) fun u => (t.afterWb u).Queued ∧ u.wb = none := by
  unfold Pipeline.wbStage
  cases held : t.pipe.wb with
  | none =>
      refine (returns_ok _ _).2 ⟨?_, held⟩
      rw [afterWb, held]
      exact queued
  | some inst =>
      have numbered : t.wb.isSome = true := by rw [← queued.wbHeld, held]; rfl
      obtain ⟨i, number⟩ := Option.isSome_iff_exists.1 numbered
      have order := queued.order
      rw [inFlight, number] at order
      dsimp only
      split
      next excepts =>
        -- A trap drops what is behind it, and nothing of that has a number.
        obtain ⟨mem, exe⟩ := queued.wbTrap (by rw [held]; exact excepts)
        rw [returns_map]
        refine (Pipeline.callDCache_back p .redirect _).mono ?_
        rintro _ ⟨dcache, -, rfl⟩
        refine ⟨?_, rfl⟩
        rw [afterWb, held]
        dsimp only
        rw [if_pos excepts, mem, exe, number]
        rw [mem, exe] at order
        refine ⟨?_, ?_, fun _ => ⟨rfl, rfl⟩, fun _ => rfl, rfl, nofun, fun _ => rfl, nofun, nofun,
          nofun, nofun, nofun, nofun⟩
        · simpa [inFlight] using order
        · intro d mem
          rcases List.mem_append.1 mem with earlier | now
          · exact queued.dropped d earlier
          · simpa using now
      next plain =>
        have calm : holdsTrap t.pipe.wb = false := by
          rw [held]
          exact Bool.eq_false_iff.2 plain
        refine (returns_ok _ _).2 ⟨?_, rfl⟩
        rw [afterWb, held]
        dsimp only
        rw [if_neg plain, number]
        refine ⟨?_, queued.dropped, queued.exeHeld, queued.memHeld, rfl, queued.settled,
          queued.idle, ?_, ?_, nofun, queued.memTrap, queued.exeTrap, ?_⟩
        · simpa [inFlight] using order
        · intro full empty
          exact absurd (queued.memBehind full empty) (ne_true_of_eq_false calm)
        · intro full empty
          rcases queued.exeBehind full empty with mem | wb
          · exact .inl mem
          · exact absurd wb (ne_true_of_eq_false calm)
        · intro waits
          rcases queued.waits waits with exe | mem | wb
          · exact .inl exe
          · exact .inr (.inl mem)
          · exact absurd wb (ne_true_of_eq_false calm)

/-- A trap in MEM goes to WB at once. -/
theorem memStage_queued (queued : t.Queued) (free : t.pipe.wb = none) :
    (t.afterMem t.pipe.memStage).Queued ∧ holdsTrap t.pipe.memStage.mem = false ∧
      (holdsTrap t.pipe.memStage.wb = true → t.pipe.memStage.idWaitRedirect = true) := by
  have unnumbered : t.wb = none := by
    have held := queued.wbHeld
    rw [free] at held
    exact Option.isNone_iff_eq_none.1 (Option.isSome_eq_false_iff.1 held.symm)
  rcases Pipeline.memStage_cases t.pipe with ⟨stays, calm⟩ | ⟨inst, marks, held, leaves⟩
  · rw [stays]
    refine ⟨?_, calm, ?_⟩
    · rw [afterMem, if_neg (by cases t.pipe.mem <;> simp)]
      exact queued
    · rw [free]
      nofun
  · have full : t.pipe.mem.isSome = true := by rw [held]; rfl
    have numbered : t.mem.isSome = true := by
      by_contra empty
      have trap := queued.memBehind full (by simpa using empty)
      rw [free] at trap
      cases trap
    have order := queued.order
    rw [inFlight, unnumbered] at order
    rw [leaves, afterMem, if_pos (by rw [full]; rfl)]
    refine ⟨⟨?_, queued.dropped, queued.exeHeld, fun _ => rfl, numbered.symm, queued.settled,
      queued.idle, nofun, ?_, ?_, nofun, queued.exeTrap, ?_⟩, rfl, ?_⟩
    · rw [inFlight]
      exact order
    · intro full empty
      rcases queued.exeBehind full empty with mem | wb
      · rw [held] at mem
        exact .inr mem
      · rw [free] at wb
        cases wb
    · intro trap
      exact ⟨rfl, (queued.memTrap (by rw [held]; exact trap) numbered).1⟩
    · intro waits
      rcases queued.waits waits with exe | mem | wb
      · exact .inl exe
      · rw [held] at mem
        exact .inr (.inr mem)
      · rw [free] at wb
        cases wb
    · intro trap
      exact (queued.memTrap (by rw [held]; exact trap) numbered).2

/-- A turn of EXE.  The wait for a trap in WB ends only if ID is emptied. -/
theorem exeTurn_queued (queued : t.Queued) (calm : holdsTrap t.pipe.mem = false)
    (trapWaits : holdsTrap t.pipe.wb = true → t.pipe.idWaitRedirect = true) {inst : Inst}
    (held : t.pipe.exe = some inst) {u : Pipeline δ π} (turn : Pipeline.ExeTurn inst t.pipe u) :
    Queued { t with pipe := u } ∧
      (holdsTrap u.wb = true → u.idWaitRedirect = true ∨ u.idValid = false) := by
  obtain ⟨inst', held', excepts, redirects⟩ := turn.held
  have full : t.pipe.exe.isSome = true := by rw [held]; rfl
  have trap : holdsTrap u.exe = holdsTrap t.pipe.exe := by
    rw [held, held']
    exact excepts
  refine ⟨⟨queued.order, queued.dropped, ?_, ?_, ?_, turn.settled, ?_, ?_, ?_, ?_, ?_, ?_, ?_⟩, ?_⟩
  · rw [held']
    nofun
  · rw [turn.mem]
    exact queued.memHeld
  · rw [turn.wb]
    exact queued.wbHeld
  · rw [held']
    nofun
  · rw [turn.mem, turn.wb]
    exact queued.memBehind
  · rw [turn.mem, turn.wb]
    exact fun _ => queued.exeBehind full
  · rw [turn.wb]
    exact queued.wbTrap
  · rw [turn.mem, calm]
    nofun
  · rw [trap]
    intro trapped numbered
    rcases turn.turns with ⟨same, -, -⟩ | ⟨plain, -, -⟩
    · rw [same]
      exact queued.exeTrap trapped numbered
    · rw [held, holdsTrap, Option.any_some, plain] at trapped
      cases trapped
  · rw [trap, turn.mem, turn.wb]
    intro waits
    rcases turn.turns with ⟨same, -, acted⟩ | ⟨-, ended, -⟩
    · rcases queued.waits (same.symm.trans waits) with ⟨numbered, trapped | pending⟩ | other
      · exact .inl ⟨numbered, .inl trapped⟩
      · exact absurd pending (ne_true_of_eq_false acted)
      · exact .inr other
    · exact absurd waits (ne_true_of_eq_false ended)
  · rw [turn.wb]
    intro trapped
    rcases turn.turns with ⟨same, -, -⟩ | ⟨-, -, empty⟩
    · exact .inl (same.trans (trapWaits trapped))
    · exact .inr empty

/-- The hand-over to MEM. -/
theorem enterMem_queued (queued : t.Queued) (calm : holdsTrap t.pipe.mem = false)
    (full : t.pipe.exe.isSome = true) (acted : t.pipe.pending = false) :
    (t.afterExe t.pipe.enterMem).Queued := by
  unfold Pipeline.enterMem
  split
  next ready =>
    rw [Bool.and_eq_true, Option.isNone_iff_eq_none] at ready
    obtain ⟨done, free⟩ := ready
    have order := queued.order
    rw [inFlight, queued.memHeld free] at order
    rw [afterExe, if_pos (by rw [full]; rfl)]
    refine ⟨?_, queued.dropped, fun _ => ⟨rfl, rfl⟩, ?_, queued.wbHeld,
      fun done => (nomatch done), fun _ => queued.settled done, ?_, nofun, ?_, ?_, nofun, ?_⟩
    · rw [inFlight]
      simpa using order
    · intro empty
      rw [show t.pipe.exe = none from empty] at full
      cases full
    · intro _ empty
      rcases queued.exeBehind full empty with mem | wb
      · exact absurd mem (ne_true_of_eq_false calm)
      · exact wb
    · intro trap
      exact ⟨(queued.wbTrap trap).2, rfl⟩
    · intro trap numbered
      exact ⟨rfl, queued.exeTrap trap numbered⟩
    · intro waits
      rcases queued.waits waits with ⟨-, trap | pending⟩ | mem | wb
      · exact .inr (.inl trap)
      · exact absurd pending (ne_true_of_eq_false acted)
      · exact absurd mem (ne_true_of_eq_false calm)
      · exact .inr (.inr wb)
  next =>
    rw [afterExe, if_neg (by cases t.pipe.exe <;> simp)]
    exact queued

/-- The EXE stage, a turn and then the hand-over. After it ID is empty, or it waits for the trap
in WB. -/
theorem exeStage_queued (queued : t.Queued) (calm : holdsTrap t.pipe.mem = false)
    (trapWaits : holdsTrap t.pipe.wb = true → t.pipe.idWaitRedirect = true) :
    Returns (t.pipe.exeStage P p B) fun u => (t.afterExe u).Queued ∧
      (holdsTrap u.wb = true → u.idWaitRedirect = true ∨ u.idValid = false) := by
  unfold Pipeline.exeStage
  cases held : t.pipe.exe with
  | none =>
      refine (returns_ok _ _).2 ⟨?_, fun trap => .inl (trapWaits trap)⟩
      rw [afterExe, held]
      exact queued
  | some inst =>
      dsimp only
      rw [returns_map]
      refine (Pipeline.exeTurn_exeTurn held queued.settled).mono ?_
      intro u turn
      obtain ⟨queued', trapWaits'⟩ := exeTurn_queued queued calm trapWaits held turn
      obtain ⟨inst', held', -⟩ := turn.held
      have full : u.exe.isSome = true := by rw [held']; rfl
      have entered := enterMem_queued queued' (by rw [turn.mem]; exact calm) full turn.acted
      have same : t.afterExe u.enterMem = afterExe { t with pipe := u } u.enterMem := by
        rw [afterExe, afterExe, held, full]
        rfl
      have kept : u.enterMem.wb = u.wb ∧ u.enterMem.idWaitRedirect = u.idWaitRedirect ∧
          u.enterMem.idValid = u.idValid := by
        unfold Pipeline.enterMem
        split <;> exact ⟨rfl, rfl, rfl⟩
      rw [same, kept.1, kept.2.1, kept.2.2]
      exact ⟨entered, trapWaits'⟩

/-- With ID going on, no trap is in MEM or in WB. -/
theorem Queued.calm_of_going (queued : t.Queued) (going : t.pipe.idWaitRedirect = false)
    (trapWaits : holdsTrap t.pipe.wb = true → t.pipe.idWaitRedirect = true) :
    holdsTrap t.pipe.mem = false ∧ holdsTrap t.pipe.wb = false := by
  have wbCalm : holdsTrap t.pipe.wb = false := by
    by_contra trap
    have waits := trapWaits (Bool.eq_true_of_not_eq_false trap)
    cases waits.symm.trans going
  refine ⟨?_, wbCalm⟩
  by_contra trap
  have trap := Bool.eq_true_of_not_eq_false trap
  have full : t.pipe.mem.isSome = true := by
    cases held : t.pipe.mem with
    | none =>
        rw [held] at trap
        cases trap
    | some inst => rfl
  cases number : t.mem with
  | none =>
      -- it has no number, so that the trap before it is in WB
      cases (queued.memBehind full number).symm.trans wbCalm
  | some i =>
      have waits := (queued.memTrap trap (by rw [number]; rfl)).2
      cases waits.symm.trans going

section EnterExe

variable {u : Pipeline δ π} {inst : Inst} (queued : t.Queued) (free : t.pipe.exe = none)
variable (back : u.back = { t.pipe.back with exe := some inst })

include queued free back

/-- While ID waits, the instruction that comes to EXE has no call: it is behind a trap. -/
theorem enterExe_dropped (waiting : t.pipe.idWaitRedirect = true)
    (waits : u.idWaitRedirect = true) : Queued { t with pipe := u, exe := none } := by
  have exe : u.exe = some inst := congrArg Back.exe back
  have mem : u.mem = t.pipe.mem := congrArg Back.mem back
  have wb : u.wb = t.pipe.wb := congrArg Back.wb back
  have done : u.exeEnd = t.pipe.exeEnd := congrArg Back.exeEnd back
  obtain ⟨empty, began⟩ := queued.exeHeld free
  -- EXE is empty, so ID waits for a trap in MEM or WB
  have behind : holdsTrap t.pipe.mem = true ∨ holdsTrap t.pipe.wb = true := by
    rcases queued.waits waiting with ⟨full, -⟩ | other
    · rw [empty] at full
      cases full
    · exact other
  refine ⟨?_, queued.dropped, ?_, ?_, ?_, ?_, ?_, ?_, ?_, ?_, ?_, ?_, ?_⟩
  · have order := queued.order
    rw [inFlight, empty] at order
    exact order
  · rw [exe]
    rintro ⟨⟩
  · rw [mem]
    exact queued.memHeld
  · rw [wb]
    exact queued.wbHeld
  · rw [done, began]
    rintro ⟨⟩
  · rw [exe]
    rintro ⟨⟩
  · rw [mem, wb]
    exact queued.memBehind
  · rw [mem, wb]
    exact fun _ _ => behind
  · rw [wb]
    exact fun trap => ⟨(queued.wbTrap trap).1, rfl⟩
  · exact fun _ _ => ⟨rfl, waits⟩
  · rintro - ⟨⟩
  · rw [mem, wb]
    exact fun _ => .inr behind

/-- While ID goes on, the instruction that comes to EXE is the next call. -/
theorem enterExe_called (memCalm : holdsTrap t.pipe.mem = false)
    (wbCalm : holdsTrap t.pipe.wb = false)
    (waits : u.idWaitRedirect = (inst.excepts || inst.redirects)) :
    Queued { t with pipe := u, exe := some t.calls, calls := t.calls + 1 } := by
  have exe : u.exe = some inst := congrArg Back.exe back
  have mem : u.mem = t.pipe.mem := congrArg Back.mem back
  have wb : u.wb = t.pipe.wb := congrArg Back.wb back
  have done : u.exeEnd = t.pipe.exeEnd := congrArg Back.exeEnd back
  have cycle : u.exeStallCycle = t.pipe.exeStallCycle := congrArg Back.exeStallCycle back
  obtain ⟨empty, began⟩ := queued.exeHeld free
  refine ⟨?_, queued.dropped, ?_, ?_, ?_, ?_, ?_, ?_, ?_, ?_, ?_, ?_, ?_⟩
  · have order := queued.order
    rw [inFlight, empty, Option.toList_none, List.append_nil] at order
    change t.retired ++ (t.wb.toList ++ (t.mem.toList ++ [t.calls])).map some = _
    rw [List.range_succ]
    simp only [List.map_append, ← order, List.append_assoc]
  · rw [exe]
    rintro ⟨⟩
  · rw [mem]
    exact queued.memHeld
  · rw [wb]
    exact queued.wbHeld
  · rw [done, began]
    rintro ⟨⟩
  · rw [exe]
    rintro ⟨⟩
  · rw [mem, wb]
    exact queued.memBehind
  · rintro - ⟨⟩
  · rw [wb, wbCalm]
    rintro ⟨⟩
  · rw [mem, memCalm]
    rintro ⟨⟩
  · intro trap _
    rw [exe, holdsTrap, Option.any_some] at trap
    rw [waits, trap]
    rfl
  · -- ID waits from now on for this instruction: it traps, or it will redirect
    intro waits'
    rw [waits, Bool.or_eq_true] at waits'
    refine .inl ⟨rfl, ?_⟩
    rcases waits' with trap | redirects
    · rw [exe]
      exact .inl trap
    · right
      rw [Pipeline.pending, exe, Option.any_some, redirects, done, began, cycle, queued.idle free]
      rfl

end EnterExe

/-- An instruction without a call follows a trap; a call finds no trap in the stages. -/
theorem idStage_queued (queued : t.Queued)
    (trapWaits : holdsTrap t.pipe.wb = true →
      t.pipe.idWaitRedirect = true ∨ t.pipe.idValid = false) :
    Returns (t.pipe.idStage P B) fun u => (t.afterId u).Queued := by
  by_cases ready : t.pipe.idValid && t.pipe.exe.isNone
  · obtain ⟨valid, free⟩ := Bool.and_eq_true_iff.1 ready
    have free := Option.isNone_iff_eq_none.1 free
    refine (Pipeline.idStage_waits valid free).mono ?_
    rintro u ⟨inst, back, waits⟩
    rw [afterId, if_pos ready]
    cases waiting : t.pipe.idWaitRedirect with
    | true =>
        rw [waiting, Bool.true_or] at waits
        exact enterExe_dropped queued free back waiting waits
    | false =>
        rw [waiting, Bool.false_or] at waits
        obtain ⟨memCalm, wbCalm⟩ := queued.calm_of_going waiting fun trap =>
          (trapWaits trap).resolve_right (ne_false_of_eq_true valid)
        exact enterExe_called queued free back memCalm wbCalm waits
  · have same : t.pipe.idStage P B = .ok t.pipe := if_neg ready
    rw [same, returns_ok, afterId, if_neg ready]
    exact queued

/-- Nothing else is read. -/
theorem Queued.of_issued (queued : t.Queued) {u : Pipeline δ π}
    (same : u.issued = t.pipe.issued) : Queued { t with pipe := u } := by
  have exe : u.exe = t.pipe.exe := congrArg (fun l => l.1.1) same
  have mem : u.mem = t.pipe.mem := congrArg (fun l => l.1.2.1) same
  have wb : u.wb = t.pipe.wb := congrArg (fun l => l.1.2.2) same
  have done : u.exeEnd = t.pipe.exeEnd := congrArg (fun l => l.2.1.1) same
  have cycle : u.exeStallCycle = t.pipe.exeStallCycle := congrArg (fun l => l.2.1.2) same
  have waits : u.idWaitRedirect = t.pipe.idWaitRedirect := congrArg (fun l => l.2.2) same
  have pending : u.pending = t.pipe.pending := by
    rw [Pipeline.pending, Pipeline.pending, exe, done, cycle]
  constructor
  · exact queued.order
  · exact queued.dropped
  · rw [exe, done]
    exact queued.exeHeld
  · rw [mem]
    exact queued.memHeld
  · rw [wb]
    exact queued.wbHeld
  · rw [done, cycle]
    exact queued.settled
  · rw [exe, cycle]
    exact queued.idle
  · rw [mem, wb]
    exact queued.memBehind
  · rw [exe, mem, wb]
    exact queued.exeBehind
  · rw [wb]
    exact queued.wbTrap
  · rw [mem, waits]
    exact queued.memTrap
  · rw [exe, waits]
    exact queued.exeTrap
  · rw [exe, mem, wb, waits, pending]
    exact queued.waits

/-- `exec` keeps the queue, stage by stage from WB on. -/
theorem exec_queued (queued : t.Queued) (takes : Bool) (slot : Inst) :
    Returns (t.exec P p B takes slot) Queued := by
  unfold exec
  split
  · exact returns_error _ _
  simp only [returns_bind, returns_pure]
  intro u ran
  obtain ⟨retired, free⟩ := wbStage_queued queued u ran
  have pipe := afterWb_pipe t u
  generalize t.afterWb u = t₁ at retired pipe ⊢
  subst pipe
  obtain ⟨left, calm, trapWaits⟩ := memStage_queued retired free
  have pipe := afterMem_pipe t₁ t₁.pipe.memStage
  generalize t₁.afterMem t₁.pipe.memStage = t₂ at left pipe ⊢
  rw [← pipe] at calm trapWaits
  intro v executed
  obtain ⟨entered, trapWaits⟩ := exeStage_queued left calm trapWaits v executed
  have pipe := afterExe_pipe t₂ v
  generalize t₂.afterExe v = t₃ at entered pipe ⊢
  subst pipe
  intro w decoded
  have handed := idStage_queued entered trapWaits w decoded
  refine (Pipeline.stallStage_latched P B (t₃.afterId w).pipe).mono ?_
  intro w' stalled
  refine (Pipeline.fetchStage_latched P takes w').mono ?_
  intro w'' fetched
  have next := Pipeline.nextFetch_latched slot w''
  exact handed.of_issued (Pipeline.issued_of_latched (next.trans (fetched.trans stalled)))

/-- A step that issues nothing keeps the queue. -/
theorem onPipe_queued (queued : t.Queued) {x : Except Halt (Pipeline δ π)}
    (same : Returns x fun u => u.issued = t.pipe.issued) : Returns (t.onPipe x) Queued := by
  rw [onPipe, returns_map]
  exact same.mono fun u same => queued.of_issued same

/-- Every step keeps the queue. -/
theorem step_queued (queued : t.Queued) (j : PipelineStep δ) :
    Returns (t.step P p B j) Queued := by
  cases j with
  | exec takes slot => exact exec_queued queued takes slot
  | icacheAnswer =>
      have latched := Pipeline.icacheAnswered_latched P B t.pipe
      exact onPipe_queued queued (latched.mono fun u => Pipeline.issued_of_latched)
  | dcacheTick accepts => exact onPipe_queued queued (Pipeline.runDCache_issued p _ t.pipe)
  | dcacheAnswer index => exact onPipe_queued queued (Pipeline.runDCache_issued p _ t.pipe)
  | device dev irq => exact onPipe_queued queued ((returns_ok _ _).2 rfl)

/-- Nothing has been called. -/
theorem start_queued (arch : RiscvArch δ) (pred : π) (startPc : Word) :
    (start (Pipeline.afterLoad p arch pred startPc)).Queued := by
  refine ⟨rfl, ?_, fun _ => ⟨rfl, rfl⟩, fun _ => rfl, rfl, nofun, fun _ => rfl, nofun, nofun,
    nofun, nofun, nofun, nofun⟩
  intro d mem
  cases mem

/-! ### In order, and once -/

/-- All calls of `updateEnv` but those in the stages are retired in order, and a redirect
dropped none.  A trap in the stages is the last call. -/
structure InOrder (t : Numbered δ π) : Prop where
  order : t.retired ++ t.inFlight.map some = (List.range t.calls).map some
  dropped : ∀ d ∈ t.dropped, d = none
  trap : ∀ i, (holdsTrap t.pipe.wb = true ∧ t.wb = some i ∨
      holdsTrap t.pipe.mem = true ∧ t.mem = some i ∨
      holdsTrap t.pipe.exe = true ∧ t.exe = some i) → i + 1 = t.calls

/-- The last number. -/
theorem Queued.last (queued : t.Queued) {l : List Nat} {i : Nat} (last : t.inFlight = l ++ [i]) :
    i + 1 = t.calls := by
  have order := queued.order
  rw [last, List.map_append, ← List.append_assoc] at order
  cases calls : t.calls with
  | zero =>
      rw [calls] at order
      exact absurd order (List.append_ne_nil_of_right_ne_nil _ (List.cons_ne_nil _ _))
  | succ n =>
      rw [calls, List.range_succ, List.map_append] at order
      have ends := (List.append_inj' order rfl).2
      rw [Option.some.inj (List.cons.inj ends).1]

/-- The queue says that the calls retire in their order, each once. -/
theorem Queued.inOrder (queued : t.Queued) : t.InOrder := by
  refine ⟨queued.order, queued.dropped, ?_⟩
  rintro i (⟨trap, number⟩ | ⟨trap, number⟩ | ⟨trap, number⟩)
  · obtain ⟨mem, exe⟩ := queued.wbTrap trap
    exact queued.last (l := []) (by rw [inFlight, number, mem, exe]; rfl)
  · obtain ⟨exe, -⟩ := queued.memTrap trap (by rw [number]; rfl)
    exact queued.last (l := t.wb.toList) (by rw [inFlight, number, exe]; rfl)
  · refine queued.last (l := t.wb.toList ++ t.mem.toList) ?_
    rw [inFlight, number, List.append_assoc]
    rfl

/-- In every run of the pipeline the instructions with a call of `updateEnv` leave through WB,
once and in the order of the calls, and those that a redirect drops had none. A call gives its
instruction the next number; `Queued` says that WB, MEM and EXE hold the last numbers in their
order, and that nothing behind a trap has one. -/
theorem run_inOrder (P : Platform δ) (p : PipelineParams) (B : Predictor π) (arch : RiscvArch δ)
    (pred : π) (startPc : Word) (steps : List (PipelineStep δ)) :
    Returns (runSteps (Pipeline.step P p B) (.afterLoad p arch pred startPc) steps) fun s =>
      ∃ t, runSteps (step P p B) (start (.afterLoad p arch pred startPc)) steps = .ok t ∧
        t.pipe = s ∧ t.InOrder := by
  intro s ran
  have same := runSteps_pipe P p B (start (.afterLoad p arch pred startPc)) steps
  have queued := runSteps_invariant
    (fun u j (held : u.Queued) => step_queued (P := P) (p := p) (B := B) held j)
    (start_queued (p := p) arch pred startPc) steps
  cases run : runSteps (step P p B) (start (.afterLoad p arch pred startPc)) steps with
  | error e =>
      rw [run] at same
      cases same.trans ran
  | ok t =>
      rw [run] at same
      exact ⟨t, rfl, Except.ok.inj (same.trans ran), (queued t run).inOrder⟩

end Numbered

end CPUDelaySim
