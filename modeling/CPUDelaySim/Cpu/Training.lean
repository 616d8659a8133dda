import CPUDelaySim.Cpu.Retire
import CPUDelaySim.Pred.PipePredictor
import Mathlib.Data.List.Nodup

/-!
# What the predictor learns

EXE calls `update` for a branch before WB has retired what is older.  While ID waits for the
redirect of a trap, instructions without a call of `updateEnv` go on to EXE; the trap reaches MEM
one cycle before WB, and in that cycle a branch behind it in EXE trains the tables.

In every other cycle the branch has a number, so that it retires, and the calls of `update` are
those of the branches that have retired or are on their way (`trainsOnce_iff`).

The invariant compares two lists of branches, by number and class: the calls of `update`, and
those that WB has retired followed by those `underway`.  A step may move a branch from one part of
the second list to the next, or add one to both.  The counters and the tables are then what the
list of calls makes of them.  `Learns` says what a turn of EXE teaches; a stage that never calls
`update` needs `Predictor.Keeps` and no more.

The step condition `TrainsWrongPath` is the cycle described above.  What is trained there has no
number, so the two lists differ right after it (`trainsWrongPath_not_trainsOnce`).
-/

namespace CPUDelaySim

open Riscv

variable {δ π : Type}

/-! ### What only `update` writes -/

/-- `redirect` leaves `f` alone. -/
def Predictor.RedirectKeeps {τ : Type} (B : Predictor π) (f : π → τ) : Prop :=
  ∀ taken pc size target type metaIdx s, f (B.redirect taken pc size target type metaIdx s) = f s

/-- `predict` and `redirect` leave `f` alone. -/
structure Predictor.Keeps {τ : Type} (B : Predictor π) (f : π → τ) : Prop where
  predict : ∀ pc info s, f (B.predict pc info s).2 = f s
  redirect : B.RedirectKeeps f

namespace Pipeline

section Keeps

variable {τ : Type} {P : Platform δ} {p : PipelineParams} {B : Predictor π} {f : π → τ}
variable (s : Pipeline δ π)

section Redirect

variable (keeps : B.RedirectKeeps f)
include keeps

/-- WB calls the predictor in the redirect of a trap only. -/
theorem wbStage_keeps : Returns (s.wbStage p B) fun t => f t.pred = f s.pred := by
  unfold wbStage
  cases s.wb with
  | none => exact (returns_ok _ _).2 rfl
  | some inst =>
      dsimp only
      split
      · rw [returns_map]
        refine (callDCache_back p .redirect _).mono ?_
        rintro _ ⟨dcache, -, rfl⟩
        exact keeps _ _ _ _ _ _ _
      · exact (returns_ok _ _).2 rfl

/-- The check of the next pc calls the predictor to redirect only. -/
theorem checkNext_keeps (inst : Inst) :
    Returns (s.checkNext B inst) fun t => f t.pred = f s.pred := by
  unfold checkNext
  dsimp only
  split_ifs
  · exact (returns_ok _ _).2 rfl
  · exact (returns_ok _ _).2 rfl
  · exact (returns_ok _ _).2 rfl
  · exact (returns_ok _ _).2 (keeps _ _ _ _ _ _ _)
  · exact (returns_ok _ _).2 rfl
  · exact returns_error _ _

/-- The call of `updateEnv` at ID leaves the predictor to the check after it. -/
theorem updateEnvAtId_keeps (inst : Inst) :
    Returns (s.updateEnvAtId P B inst) fun t => f t.pred = f s.pred := by
  unfold updateEnvAtId
  cases s.envInfo with
  | none => exact returns_error _ _
  | some info =>
      dsimp only
      rw [returns_bind]
      rintro ⟨target, arch⟩ -
      exact checkNext_keeps _ keeps _

/-- So does a turn of ID. -/
theorem idTurn_keeps (inst : Inst) :
    Returns (s.idTurn P B inst) fun t => f t.pred = f s.pred := by
  have entered (u : Pipeline δ π) (same : u.pred = s.pred) :
      Returns (if !u.idWaitRedirect then u.updateEnvAtId P B (u.idInst.getD inst)
        else if 5000 < u.arch.tick - u.waitRedirectTick then .error (.aborts .exit)
        else .ok u) fun t => f t.pred = f s.pred := by
    rw [← same]
    split_ifs
    · exact updateEnvAtId_keeps u keeps _
    · exact returns_error _ _
    · exact (returns_ok _ _).2 rfl
  unfold idTurn
  dsimp only
  cases inst.excepts with
  | true => exact entered _ rfl
  | false => exact entered s rfl

/-- So does the ID stage. -/
theorem idStage_keeps : Returns (s.idStage P B) fun t => f t.pred = f s.pred := by
  unfold idStage
  split
  · cases s.idInst with
    | none => exact returns_error _ _
    | some inst =>
        dsimp only
        rw [returns_map]
        exact idTurn_keeps s keeps inst
  · exact (returns_ok _ _).2 rfl

end Redirect

variable (keeps : B.Keeps f)
include keeps

/-- The decoding calls `predict` and, if the prediction is taken, the redirect of the front end.
-/
theorem preId_keeps (inst : Option Inst) :
    Returns (s.preId P B inst) fun r => f r.2.pred = f s.pred := by
  unfold preId
  cases (if s.idRemainSize ≤ 0 then inst else s.idInst) with
  | none => exact returns_error _ _
  | some inst =>
      simp only [returns_bind]
      rintro ⟨paddr, exception, arch⟩ -
      dsimp only
      split
      · exact (returns_pure _ _).2 rfl
      · rw [returns_bind]
        rintro ⟨arch, info⟩ -
        dsimp only
        split
        · exact (returns_pure _ _).2 ((keeps.redirect _ _ _ _ _ _ _).trans (keeps.predict _ _ _))
        · exact (returns_pure _ _).2 (keeps.predict _ _ _)

/-- The second half of an instruction is predicted like any other. -/
theorem stallStage_keeps : Returns (s.stallStage P B) fun t => f t.pred = f s.pred := by
  unfold stallStage
  split
  · rw [returns_bind]
    refine (preId_keeps s keeps s.idStallInst).mono ?_
    rintro ⟨finish, t⟩ same
    dsimp only
    split
    · exact (returns_pure _ _).2 same
    · split
      · exact (returns_pure _ _).2 same
      · exact (returns_pure _ _).2 same
  · exact (returns_ok _ _).2 rfl

/-- So is what the ICache has answered. -/
theorem icacheAnswered_keeps : Returns (s.icacheAnswered P B) fun t => f t.pred = f s.pred := by
  unfold icacheAnswered
  cases s.fetching with
  | nil => exact returns_error _ _
  | cons inst rest =>
      dsimp only
      split
      · rw [returns_bind]
        refine (preId_keeps _ keeps (some inst)).mono ?_
        rintro ⟨finish, t⟩ same
        exact (returns_pure _ _).2 same
      · exact (returns_pure _ _).2 rfl

end Keeps

/-- WB does nothing, retires, or takes a trap, which empties the stages. -/
theorem wbStage_cases (p : PipelineParams) (B : Predictor π) (s : Pipeline δ π) :
    Returns (s.wbStage p B) fun u =>
      s.wb = none ∧ u = s ∨
      (∃ inst, s.wb = some inst ∧ inst.excepts = false ∧ u = s.retire) ∨
      ∃ inst, s.wb = some inst ∧ inst.excepts = true ∧ u.exe = none ∧ u.mem = none ∧
        u.wb = none ∧ u.exeEnd = false := by
  unfold wbStage
  cases held : s.wb with
  | none => exact (returns_ok _ _).2 (.inl ⟨rfl, rfl⟩)
  | some inst =>
      dsimp only
      split
      next excepts =>
        rw [returns_map]
        refine (callDCache_back p .redirect _).mono ?_
        rintro _ ⟨dcache, -, rfl⟩
        exact .inr (.inr ⟨inst, rfl, excepts, rfl, rfl, rfl, rfl⟩)
      next plain =>
        exact (returns_ok _ _).2 (.inr (.inl ⟨inst, rfl, Bool.eq_false_iff.2 plain, rfl⟩))

/-- MEM does not call the predictor. -/
theorem memStage_pred (s : Pipeline δ π) : s.memStage.pred = s.pred := by
  unfold memStage
  split
  · rfl
  · split_ifs <;> rfl

/-- The fetch does not call the predictor. -/
theorem fetchStage_pred (P : Platform δ) (takes : Bool) (s : Pipeline δ π) :
    Returns (s.fetchStage P takes) fun t => t.pred = s.pred := by
  unfold fetchStage
  split
  · cases s.fetchInst with
    | none => exact returns_error _ _
    | some inst =>
        simp only [returns_bind]
        rintro ⟨inst, arch⟩ -
        dsimp only
        split
        · split
          · exact (returns_pure _ _).2 rfl
          · exact (returns_pure _ _).2 rfl
        · split
          · exact (returns_pure _ _).2 rfl
          · exact (returns_pure _ _).2 rfl
  · exact (returns_ok _ _).2 rfl

/-- The hand-over to MEM does not call the predictor. -/
theorem enterMem_pred (s : Pipeline δ π) : s.enterMem.pred = s.pred := by
  unfold enterMem
  split <;> rfl

/-- The next instruction to fetch is not predicted yet. -/
theorem nextFetch_pred (slot : Inst) (s : Pipeline δ π) : (s.nextFetch slot).pred = s.pred := by
  unfold nextFetch
  split <;> rfl

/-- The DCache does not call the predictor. -/
theorem runDCache_pred (p : PipelineParams) (j : CacheStep) (s : Pipeline δ π) :
    Returns (s.runDCache p j) fun t => t.pred = s.pred := by
  unfold runDCache
  rw [returns_bind]
  refine (callDCache_back p j s).mono ?_
  rintro _ ⟨dcache, -, rfl⟩
  exact (returns_pure _ _).2 rfl

end Pipeline

/-! ### What EXE teaches -/

/-- The instruction is a branch, and raises nothing. -/
def Inst.branches (inst : Inst) : Bool := !inst.excepts && inst.info.type.isBranch

/-- The direction EXE tells the predictor. -/
def Inst.realTaken (inst : Inst) : Bool :=
  if inst.info.type = .cond then inst.info.dst1.data != 0 else true

/-- A call of `update`: the number of the instruction in EXE, the instruction, and the history in
its record. -/
structure TrainEvent where
  number : Option Nat
  inst : Inst
  ghr : BitVec 32

/-- The number and the class of the branch. -/
def TrainEvent.key (e : TrainEvent) : Option Nat × InstType := (e.number, e.inst.info.type)

/-- What the call does to the tables. -/
def TrainEvent.learn {σ μ : Type} (C : PipePredictor σ μ) (t : BranchTables) (e : TrainEvent) :
    BranchTables :=
  C.learn e.inst.realTaken e.inst.realPc e.inst.realTarget e.inst.info.type e.ghr t

namespace Pipeline

/-- EXE has a branch that it has not done. -/
def undone (s : Pipeline δ π) : Bool := s.exe.any Inst.branches && !s.exeEnd

/-- The trap in MEM has not reached WB when EXE does the branch behind it. -/
def TrainsWrongPath (s : Pipeline δ π) : PipelineStep δ → Prop
  | .exec _ _ => holdsTrap s.wb = false ∧ holdsTrap s.mem = true ∧ s.undone = true
  | _ => False

variable {σ μ : Type} {P : Platform δ} {p : PipelineParams} {C : PipePredictor σ μ}
variable {s u : Pipeline δ (PipePredictorState σ μ)} {inst : Inst}

/-- What EXE teaches the predictor in a turn. -/
structure Learns (C : PipePredictor σ μ) (inst : Inst) (s u : Pipeline δ (PipePredictorState σ μ)) :
    Prop where
  held : ∃ inst', u.exe = some inst' ∧ inst'.info = inst.info
  trained : inst.branches = true → s.exeEnd = false →
    u.pred.tables = TrainEvent.learn C s.pred.tables
        ⟨none, inst, (s.pred.metas inst.bpMetaIdx.toNat).ghr⟩ ∧
      u.pred.counts = s.pred.counts.count inst.info.type
  silent : inst.branches = false ∨ s.exeEnd = true →
    u.pred.tables = s.pred.tables ∧ u.pred.counts = s.pred.counts
  done : inst.branches = true → u.exeEnd = true ∧ u.exeStallCycle = 0

/-- A turn that leaves the predictor alone, and ends at once if it is that of a branch. -/
theorem learns_of_silent (held : ∃ inst', u.exe = some inst' ∧ inst'.info = inst.info)
    (same : u.pred = s.pred) (other : inst.branches = true →
      s.exeEnd = true ∧ u.exeEnd = true ∧ u.exeStallCycle = 0) : Learns C inst s u := by
  refine ⟨held, ?_, fun _ => by rw [same]; exact ⟨rfl, rfl⟩, fun branch => (other branch).2⟩
  intro branch began
  cases began.symm.trans (other branch).1

/-- A load or store teaches the predictor nothing. -/
theorem memLookup_learns (type : FetchType) (kind : SnoopReq) (plain : inst.branches = false) :
    Returns (s.memLookup P p type kind inst) (Learns C inst s) := by
  have never {Q : Prop} (branch : inst.branches = true) : Q := nomatch plain.symm.trans branch
  unfold memLookup
  simp only [returns_bind]
  rintro ⟨paddr, exception, arch⟩ -
  refine (callDCache_back p _ _).mono ?_
  rintro _ ⟨dcache, -, rfl⟩
  split
  · exact (returns_pure _ _).2 (learns_of_silent ⟨_, rfl, rfl⟩ rfl never)
  · exact (returns_pure _ _).2 (learns_of_silent ⟨_, rfl, rfl⟩ rfl never)

/-- In the turn that claims EXE, a branch trains the tables once and is counted once. No other
instruction does either. -/
theorem execute_learns (held : s.exe = some inst) (began : s.exeEnd = false)
    (cycle : s.exeStallCycle = 0) (quiet : inst.excepts = false) :
    Returns (s.execute P p C.toPredictor inst) (Learns C inst s) := by
  have plain (other : inst.info.type.isBranch = false) : inst.branches = false := by
    rw [Inst.branches, other, Bool.and_false]
  have silent (other : inst.info.type.isBranch = false) (v : Pipeline δ (PipePredictorState σ μ))
      (held : ∃ inst', v.exe = some inst' ∧ inst'.info = inst.info) (same : v.pred = s.pred) :
      Learns C inst s v :=
    learns_of_silent held same fun branch => nomatch (plain other).symm.trans branch
  -- a redirect changes nothing that `update` reads
  have teaches (wrong : Bool) {taken : Bool} (branch : inst.info.type.isBranch = true)
      (direction : inst.realTaken = taken) :
      Learns C inst s ((if wrong then s.brRedirect C.toPredictor inst else s).branchDone
        C.toPredictor taken inst) := by
    subst direction
    have branches : inst.branches = true := by rw [Inst.branches, quiet, branch]; rfl
    refine ⟨?_, fun _ _ => ?_, ?_, fun _ => ?_⟩
    · cases wrong <;> exact ⟨inst, held, rfl⟩
    · cases wrong <;> exact ⟨rfl, rfl⟩
    · rintro (other | done)
      · cases branches.symm.trans other
      · cases began.symm.trans done
    · cases wrong <;> exact ⟨rfl, cycle⟩
  unfold execute
  cases type : inst.info.type with
  | load | lr | store | amo => exact memLookup_learns _ _ (plain (by rw [type]; rfl))
  | sc =>
      dsimp only
      split
      · exact (returns_ok _ _).2 (silent (by rw [type]; rfl) _ ⟨_, rfl, rfl⟩ rfl)
      · exact memLookup_learns _ _ (plain (by rw [type]; rfl))
  | mult | div | fadd | fmul | fma | fdiv | fsqrt | fmiscComplex =>
      exact (returns_ok _ _).2 (silent (by rw [type]; rfl) _ ⟨_, held, rfl⟩ rfl)
  | cond => exact (returns_ok _ _).2 (teaches _ (by rw [type]; rfl) (if_pos type))
  | indirect | indCall | indPush | pop | popPush =>
      exact (returns_ok _ _).2 (teaches _ (by rw [type]; rfl) (if_neg (by rw [type]; nofun)))
  | direct | push =>
      exact (returns_ok _ _).2 (teaches false (by rw [type]; rfl) (if_neg (by rw [type]; nofun)))
  | fence | sfence =>
      dsimp only
      rw [returns_bind]
      refine (callDCache_back p .flush s).mono ?_
      rintro _ ⟨dcache, -, rfl⟩
      exact (returns_pure _ _).2 (silent (by rw [type]; rfl) _ ⟨_, held, rfl⟩ rfl)
  | ifence | int | csrwr | sret | mret | fmiscSimple =>
      exact (returns_ok _ _).2 (silent (by rw [type]; rfl) _ ⟨_, held, rfl⟩ rfl)

/-- A turn of EXE: a branch that has been turned is done, so that it is not trained again. -/
theorem exeTurn_learns (held : s.exe = some inst)
    (idle : inst.branches = true → s.exeStallCycle = 0) :
    Returns (s.exeTurn P p C.toPredictor inst) (Learns C inst s) := by
  unfold exeTurn
  by_cases stalled : s.exeStallCycle ≠ 0
  · rw [if_pos stalled]
    exact (returns_ok _ _).2 (learns_of_silent ⟨inst, held, rfl⟩ rfl
      fun branch => absurd (idle branch) stalled)
  rw [if_neg stalled]
  split_ifs with done excepts
  · exact (returns_ok _ _).2 (learns_of_silent ⟨inst, held, rfl⟩ rfl
      fun branch => ⟨done, done, idle branch⟩)
  · refine (returns_ok _ _).2 (learns_of_silent ⟨inst, held, rfl⟩ rfl fun branch => ?_)
    rw [Inst.branches, excepts] at branch
    cases branch
  · exact execute_learns held (Bool.eq_false_iff.2 done) (not_not.1 stalled)
      (Bool.eq_false_iff.2 excepts)

end Pipeline

/-! ### The run with its training -/

/-- Of each class, how many of the branches are of it. -/
def PredCounts.of (types : List InstType) : PredCounts where
  predTimes := types.length
  condPredTimes := types.countP fun type => type == .cond
  indirectPredTimes := types.countP fun type =>
    type == .indirect || type == .indCall || type == .indPush
  callPredTimes := types.countP fun type => type == .pop || type == .popPush

/-- The counts of a list of branches, with one more at the end. -/
theorem PredCounts.of_append (types : List InstType) (type : InstType) :
    of (types ++ [type]) = (of types).count type := by
  cases type <;> simp [of, count]

/-- The branch in a stage, if there is one, with the number of the stage. -/
def branchIn (stage : Option Inst) (number : Option Nat) : List (Option Nat × InstType) :=
  match stage with
  | none => []
  | some inst => if inst.branches then [(number, inst.info.type)] else []

variable {σ μ : Type}

/-- The pipeline with numbers, the calls of `update`, and the branches that WB has retired without
an exception. -/
structure Training (δ σ μ : Type) where
  run : Numbered δ (PipePredictorState σ μ)
  trained : List TrainEvent
  retired : List (Option Nat × InstType)

namespace Training

/-- Nothing has been called. -/
def start (s : Pipeline δ (PipePredictorState σ μ)) : Training δ σ μ := ⟨.start s, [], []⟩

/-- A call of `update` for the instruction in EXE. -/
def exeEvents (t : Training δ σ μ) : List TrainEvent :=
  t.run.pipe.exe.toList.map fun inst =>
    ⟨t.run.exe, inst, (t.run.pipe.pred.metas inst.bpMetaIdx.toNat).ghr⟩

/-- A step calls `update` when it moves `predTimes`, and then for the instruction in EXE. -/
def trainedIn (t : Training δ σ μ) (u : Numbered δ (PipePredictorState σ μ)) : List TrainEvent :=
  if u.pipe.pred.counts.predTimes = t.run.pipe.pred.counts.predTimes then [] else t.exeEvents

/-- The branch WB retires in a step. -/
def retiredIn (t : Training δ σ μ) : PipelineStep δ → List (Option Nat × InstType)
  | .exec _ _ => branchIn t.run.pipe.wb t.run.wb
  | _ => []

/-- A step, with the branches that are under way and the events of the training. -/
def step (P : Platform δ) (p : PipelineParams) (C : PipePredictor σ μ) (t : Training δ σ μ)
    (j : PipelineStep δ) : Except Halt (Training δ σ μ) :=
  (t.run.step P p C.toPredictor j).map fun u =>
    { run := u, trained := t.trained ++ t.trainedIn u, retired := t.retired ++ t.retiredIn j }

/-- The training is only recorded. -/
theorem step_run (P : Platform δ) (p : PipelineParams) (C : PipePredictor σ μ)
    (t : Training δ σ μ) (j : PipelineStep δ) :
    (t.step P p C j).map run = t.run.step P p C.toPredictor j := by
  unfold step
  cases t.run.step P p C.toPredictor j <;> rfl

/-- The run of the pipeline is a run with training. -/
theorem runSteps_run (P : Platform δ) (p : PipelineParams) (C : PipePredictor σ μ)
    (t : Training δ σ μ) (steps : List (PipelineStep δ)) :
    (runSteps (step P p C) t steps).map (fun u => u.run.pipe) =
      runSteps (Pipeline.step P p C.toPredictor) t.run.pipe steps := by
  rw [← Numbered.runSteps_pipe]
  induction steps generalizing t with
  | nil => rfl
  | cons j rest ih =>
      rw [runSteps_cons, runSteps_cons, ← step_run]
      cases t.step P p C j with
      | error e => rfl
      | ok u => exact ih u

/-- The branches in WB and MEM, and the one in EXE if EXE is done with it, oldest first. -/
def underway (t : Training δ σ μ) : List (Option Nat × InstType) :=
  branchIn t.run.pipe.wb t.run.wb ++ branchIn t.run.pipe.mem t.run.mem ++
    if t.run.pipe.exeEnd then branchIn t.run.pipe.exe t.run.exe else []

/-- The calls of `update` are those for the branches that WB has retired without an exception and
for those on their way, in order, and once for each; none was for an instruction without a call of
`updateEnv`, and only such are dropped.  The counters count them, and they made the tables. -/
structure TrainsOnce (C : PipePredictor σ μ) (tables : BranchTables) (t : Training δ σ μ) :
    Prop where
  matched : t.trained.map TrainEvent.key = t.retired ++ t.underway
  numbered : ∀ e ∈ t.trained, e.number.isSome = true
  once : (t.trained.map TrainEvent.number).Nodup
  dropped : ∀ d ∈ t.run.dropped, d = none
  counts : t.run.pipe.pred.counts = .of (t.trained.map fun e => e.inst.info.type)
  tables : t.run.pipe.pred.tables = t.trained.foldl (TrainEvent.learn C) tables
  settled : t.run.pipe.exe = none → t.run.pipe.mem = none → t.run.pipe.wb = none →
    t.run.pipe.pred.counts = .of (t.retired.map Prod.snd)

/-- The invariant of a run without a step that trains on the wrong path. -/
structure Inv (C : PipePredictor σ μ) (tables : BranchTables) (t : Training δ σ μ) : Prop where
  queued : t.run.Queued
  idle : ∀ inst, t.run.pipe.exe = some inst → inst.branches = true → t.run.pipe.exeStallCycle = 0
  matched : t.trained.map TrainEvent.key = t.retired ++ t.underway
  numbered : ∀ e ∈ t.trained, e.number.isSome = true
  sub : (t.retired.map Prod.fst).Sublist t.run.retired
  counts : t.run.pipe.pred.counts = .of (t.trained.map fun e => e.inst.info.type)
  tables : t.run.pipe.pred.tables = t.trained.foldl (TrainEvent.learn C) tables

section Steps

variable {P : Platform δ} {p : PipelineParams} {C : PipePredictor σ μ} {tables : BranchTables}
variable {t : Training δ σ μ}

/-- There is no branch in an empty stage. -/
@[simp] theorem branchIn_none (number : Option Nat) : branchIn none number = [] := rfl

/-- A trap trains nothing. -/
theorem branchIn_of_trap {inst : Inst} (trap : inst.excepts = true) (number : Option Nat) :
    branchIn (some inst) number = [] := by
  rw [branchIn, Inst.branches, trap]
  rfl

/-- What a stage holds has the number of the stage. -/
theorem mem_branchIn {stage : Option Inst} {number : Option Nat} {k : Option Nat × InstType}
    (mem : k ∈ branchIn stage number) : k.1 = number := by
  unfold branchIn at mem
  split at mem
  · cases mem
  · split at mem
    · rw [List.mem_singleton.1 mem]
    · cases mem

/-- A branch that is under way is a call. -/
theorem Inv.underway_numbered (inv : t.Inv C tables) {k : Option Nat × InstType}
    (mem : k ∈ t.underway) : k.1.isSome = true := by
  have trained : k ∈ t.trained.map TrainEvent.key := by
    rw [inv.matched]
    exact List.mem_append_right _ mem
  obtain ⟨e, called, rfl⟩ := List.mem_map.1 trained
  exact inv.numbered e called

/-- A stage holds one branch at most, under its own number. -/
theorem branchIn_sublist (stage : Option Inst) {number : Option Nat}
    (numbered : ∀ k ∈ branchIn stage number, k.1.isSome = true) :
    ((branchIn stage number).map Prod.fst).Sublist (number.toList.map some) := by
  unfold branchIn at numbered ⊢
  split
  · exact List.nil_sublist _
  · split
    · rename_i inst branch
      simp only [branch, if_true, List.mem_singleton, forall_eq] at numbered
      obtain ⟨i, rfl⟩ := Option.isSome_iff_exists.1 numbered
      exact List.Sublist.refl _
    · exact List.nil_sublist _

/-- The invariant says that each call is trained at most once, in order, and that every branch
that has left EXE has been. -/
theorem Inv.trainsOnce (inv : t.Inv C tables) : t.TrainsOnce C tables := by
  refine ⟨inv.matched, inv.numbered, ?_, inv.queued.dropped, inv.counts, inv.tables, ?_⟩
  · have names : t.trained.map TrainEvent.number = (t.trained.map TrainEvent.key).map Prod.fst := by
      rw [List.map_map]
      rfl
    have numbered {stage : Option Inst} {number : Option Nat}
        (part : ∀ k ∈ branchIn stage number, k ∈ t.underway) :
        ∀ k ∈ branchIn stage number, k.1.isSome = true :=
      fun k mem => inv.underway_numbered (part k mem)
    have exe : ((if t.run.pipe.exeEnd then branchIn t.run.pipe.exe t.run.exe else []).map
        Prod.fst).Sublist (t.run.exe.toList.map some) := by
      split
      · rename_i ended
        refine branchIn_sublist _ (numbered fun k mem => ?_)
        rw [underway, if_pos ended]
        exact List.mem_append_right _ mem
      · exact List.nil_sublist _
    have sub : (t.trained.map TrainEvent.number).Sublist
        (t.run.retired ++ t.run.inFlight.map some) := by
      rw [names, inv.matched, underway, Numbered.inFlight]
      simp only [List.map_append, List.append_assoc]
      refine inv.sub.append ((branchIn_sublist _ (numbered fun k mem => ?_)).append
        ((branchIn_sublist _ (numbered fun k mem => ?_)).append exe))
      · exact List.mem_append_left _ (List.mem_append_left _ mem)
      · exact List.mem_append_left _ (List.mem_append_right _ mem)
    refine sub.nodup ?_
    rw [inv.queued.order]
    exact List.Nodup.map (Option.some_injective Nat) List.nodup_range
  · intro exe mem wb
    have keys : t.trained.map TrainEvent.key = t.retired := by
      rw [inv.matched, underway, exe, mem, wb]
      simp
    rw [inv.counts, ← keys, List.map_map]
    rfl

/-! ### The stages -/

/-- A redirect changes neither the records of the predictor nor its tables nor the counts. -/
theorem redirect_learned (C : PipePredictor σ μ) :
    C.toPredictor.RedirectKeeps fun s => (s.metas, s.tables, s.counts) :=
  fun _ _ _ _ _ _ _ => rfl

/-- `predict` and the redirects leave the tables and the counts alone. -/
theorem toPredictor_keeps (C : PipePredictor σ μ) :
    C.toPredictor.Keeps fun s => (s.tables, s.counts) :=
  ⟨fun _ _ _ => rfl, fun _ _ _ _ _ _ _ => rfl⟩

/-- There is no branch in EXE if EXE is empty. -/
theorem idle_of_empty {s : Pipeline δ π} (empty : s.exe = none) (inst : Inst)
    (held : s.exe = some inst) (_ : inst.branches = true) : s.exeStallCycle = 0 := by
  rw [empty] at held
  cases held

/-- A step of a stage that trains nothing. -/
theorem Inv.of_silent (inv : t.Inv C tables) {run : Numbered δ (PipePredictorState σ μ)}
    (queued : run.Queued)
    (same : (run.pipe.pred.tables, run.pipe.pred.counts) =
      (t.run.pipe.pred.tables, t.run.pipe.pred.counts))
    (idle : ∀ inst, run.pipe.exe = some inst → inst.branches = true → run.pipe.exeStallCycle = 0)
    {retired : List (Option Nat × InstType)} (sub : (retired.map Prod.fst).Sublist run.retired)
    (underway : retired ++ underway ⟨run, t.trained, retired⟩ = t.retired ++ t.underway) :
    Inv C tables ⟨run, t.trained, retired⟩ :=
  ⟨queued, idle, inv.matched.trans underway.symm, inv.numbered, sub,
    (congrArg Prod.snd same).trans inv.counts, (congrArg Prod.fst same).trans inv.tables⟩

/-- The stages before ID. -/
theorem Inv.of_issued (inv : t.Inv C tables) {u : Pipeline δ (PipePredictorState σ μ)}
    (same : u.issued = t.run.pipe.issued)
    (kept : (u.pred.tables, u.pred.counts) = (t.run.pipe.pred.tables, t.run.pipe.pred.counts)) :
    Inv C tables ⟨{ t.run with pipe := u }, t.trained, t.retired⟩ := by
  have exe : u.exe = t.run.pipe.exe := congrArg (fun l => l.1.1) same
  have mem : u.mem = t.run.pipe.mem := congrArg (fun l => l.1.2.1) same
  have wb : u.wb = t.run.pipe.wb := congrArg (fun l => l.1.2.2) same
  have ended : u.exeEnd = t.run.pipe.exeEnd := congrArg (fun l => l.2.1.1) same
  have cycle : u.exeStallCycle = t.run.pipe.exeStallCycle := congrArg (fun l => l.2.1.2) same
  refine inv.of_silent (inv.queued.of_issued same) kept ?_ inv.sub ?_
  · rw [exe, cycle]
    exact inv.idle
  · rw [underway, underway, exe, mem, wb, ended]

/-- WB retires its branch; a trap finds nothing behind it that has been trained. -/
theorem wbStage_inv (inv : t.Inv C tables) :
    Returns (t.run.pipe.wbStage p C.toPredictor) fun u =>
      Inv C tables ⟨t.run.afterWb u, t.trained, t.retired ++ branchIn t.run.pipe.wb t.run.wb⟩ := by
  intro u ran
  have queued := (Numbered.wbStage_queued inv.queued u ran).1
  have same := Pipeline.wbStage_keeps t.run.pipe (toPredictor_keeps C).redirect u ran
  rw [← Numbered.afterWb_pipe t.run u] at same
  rcases Pipeline.wbStage_cases p C.toPredictor t.run.pipe u ran with
    -- ⟨inst, held, calm, rfl⟩ | WB is empty, it retires its instruction, or it takes its trap.
    ⟨held, rfl⟩ | ⟨inst, held, calm, rfl⟩ | ⟨inst, held, trap, exe, mem, wb, ended⟩
  · rw [held, branchIn_none, List.append_nil, Numbered.afterWb, held]
    exact inv
  · obtain ⟨i, number⟩ : ∃ i, t.run.wb = some i := by
      have full := inv.queued.wbHeld
      rw [held] at full
      exact Option.isSome_iff_exists.1 full.symm
    have after : t.run.afterWb t.run.pipe.retire =
        { t.run with
          pipe := t.run.pipe.retire, wb := none, retired := t.run.retired ++ [t.run.wb] } := by
      rw [Numbered.afterWb, held]
      exact if_neg (ne_true_of_eq_false calm)
    rw [after] at queued same ⊢
    refine inv.of_silent queued same inv.idle ?_ ?_
    · rw [List.map_append]
      refine inv.sub.append ?_
      rw [number]
      refine branchIn_sublist _ fun k mem => ?_
      rw [mem_branchIn mem]
      rfl
    · change (t.retired ++ branchIn t.run.pipe.wb t.run.wb) ++
        (branchIn none none ++ branchIn t.run.pipe.mem t.run.mem ++ _) = t.retired ++ t.underway
      rw [underway, branchIn_none, List.nil_append]
      simp only [List.append_assoc]
      rfl
  · obtain ⟨memNone, exeNone⟩ := inv.queued.wbTrap (by rw [held]; exact trap)
    have after : t.run.afterWb u =
        { t.run with
          pipe := u
          exe := none
          mem := none
          wb := none
          retired := t.run.retired ++ [t.run.wb]
          dropped := t.run.dropped ++ [t.run.mem, t.run.exe] } := by
      rw [Numbered.afterWb, held]
      exact if_pos trap
    -- What is behind a trap has no number, and no branch without a number is trained.
    have empty : t.underway = [] := by
      rw [List.eq_nil_iff_forall_not_mem]
      intro k mem
      have numbered := inv.underway_numbered mem
      rw [underway, held, branchIn_of_trap trap, memNone, exeNone, List.nil_append] at mem
      have missing : k.1 = none := by
        rcases List.mem_append.1 mem with behind | behind
        · exact mem_branchIn behind
        · split at behind
          · exact mem_branchIn behind
          · cases behind
      rw [missing] at numbered
      cases numbered
    rw [after] at queued same ⊢
    rw [held, branchIn_of_trap trap, List.append_nil]
    refine inv.of_silent queued same (idle_of_empty exe) ?_ ?_
    · exact inv.sub.trans (List.sublist_append_left _ _)
    · rw [empty, underway]
      simp only [exe, mem, wb, ended, branchIn_none, List.append_nil, ite_self]

/-- The branch in MEM goes on to WB. -/
theorem memStage_inv (inv : t.Inv C tables) (free : t.run.pipe.wb = none) :
    Inv C tables ⟨t.run.afterMem t.run.pipe.memStage, t.trained, t.retired⟩ := by
  have queued := (Numbered.memStage_queued inv.queued free).1
  rcases Pipeline.memStage_cases t.run.pipe with ⟨stays, calm⟩ | ⟨inst, marks, held, leaves⟩
  · have after : t.run.afterMem t.run.pipe.memStage = t.run := by
      rw [stays, Numbered.afterMem, if_neg (by cases t.run.pipe.mem <;> simp)]
    rw [after]
    exact inv
  · have unnumbered : t.run.wb = none := by
      have full := inv.queued.wbHeld
      rw [free] at full
      exact Option.isNone_iff_eq_none.1 (Option.isSome_eq_false_iff.1 full.symm)
    have after : t.run.afterMem t.run.pipe.memStage =
        { t.run with
          pipe := { t.run.pipe with memEndMap := marks, mem := none, wb := some inst }
          mem := none
          wb := t.run.mem } := by
      rw [leaves, Numbered.afterMem, if_pos (by rw [held]; rfl)]
    rw [after] at queued ⊢
    refine inv.of_silent queued rfl inv.idle inv.sub ?_
    rw [underway, underway, free, held]
    simp only [branchIn_none, List.nil_append, List.append_nil]

/-- The calls of `update` of EXE. -/
def executed (t : Training δ σ μ) : List TrainEvent :=
  if t.run.pipe.undone then t.exeEvents else []

/-- Whether an instruction is a branch is read from its `DecodeInfo`. -/
theorem branches_of_info {inst inst' : Inst} (same : inst'.info = inst.info) :
    inst'.branches = inst.branches := by
  rw [Inst.branches, Inst.branches, Inst.excepts, Inst.excepts, same]

/-- What a turn of EXE teaches is what it calls `update` for. -/
theorem learns_executed {inst : Inst} (held : t.run.pipe.exe = some inst)
    {u : Pipeline δ (PipePredictorState σ μ)} (learns : Pipeline.Learns C inst t.run.pipe u) :
    u.pred.tables = t.executed.foldl (TrainEvent.learn C) t.run.pipe.pred.tables ∧
      u.pred.counts = t.executed.foldl (fun c e => c.count e.inst.info.type)
        t.run.pipe.pred.counts ∧
      t.executed.map TrainEvent.key =
        if t.run.pipe.exeEnd then [] else branchIn t.run.pipe.exe t.run.exe := by
  cases branch : inst.branches with
  | false =>
      have none : t.executed = [] := by
        rw [executed, Pipeline.undone, held, Option.any_some, branch]
        rfl
      rw [none, held, branchIn, branch]
      obtain ⟨tables, counts⟩ := learns.silent (.inl branch)
      exact ⟨tables, counts, by simp⟩
  | true =>
      cases ended : t.run.pipe.exeEnd with
      | true =>
          have none : t.executed = [] := by
            rw [executed, Pipeline.undone, ended, Bool.not_true, Bool.and_false]
            rfl
          rw [none]
          obtain ⟨tables, counts⟩ := learns.silent (.inr ended)
          exact ⟨tables, counts, rfl⟩
      | false =>
          have one : t.executed = t.exeEvents := by
            rw [executed, Pipeline.undone, held, Option.any_some, branch, ended]
            rfl
          rw [one, exeEvents, held, branchIn, branch]
          obtain ⟨tables, counts⟩ := learns.trained branch ended
          exact ⟨tables, counts, rfl⟩

/-- A turn of EXE: what it does to `executed` and the rest of the invariant. -/
theorem exeTurn_inv (inv : t.Inv C tables) {inst : Inst} (held : t.run.pipe.exe = some inst)
    (numbered : t.run.pipe.undone = true → t.run.exe.isSome = true)
    {u : Pipeline δ (PipePredictorState σ μ)} (turn : Pipeline.ExeTurn inst t.run.pipe u)
    (queued : Numbered.Queued { t.run with pipe := u })
    (learns : Pipeline.Learns C inst t.run.pipe u) :
    Inv C tables ⟨{ t.run with pipe := u }, t.trained ++ t.executed, t.retired⟩ := by
  obtain ⟨learned, counted, keys⟩ := learns_executed held learns
  obtain ⟨inst', held', info⟩ := learns.held
  refine ⟨queued, ?_, ?_, ?_, inv.sub, ?_, ?_⟩
  · intro inst'' held'' branch
    obtain rfl := Option.some.inj (held'.symm.trans held'')
    rw [branches_of_info info] at branch
    exact (learns.done branch).2
  · -- a branch is on its way once EXE is done with it
    have entered : (if u.exeEnd then branchIn u.exe t.run.exe else []) =
        branchIn t.run.pipe.exe t.run.exe := by
      rw [held, held', branchIn, branchIn, branches_of_info info, info]
      cases branch : inst.branches with
      | false => simp
      | true => rw [(learns.done branch).1, if_pos rfl]
    rw [List.map_append, inv.matched, keys, underway, underway]
    dsimp only
    rw [entered, turn.mem, turn.wb]
    cases t.run.pipe.exeEnd <;> simp
  · intro e mem
    rcases List.mem_append.1 mem with earlier | now
    · exact inv.numbered e earlier
    · rw [executed] at now
      split at now
      next new =>
        obtain ⟨-, -, rfl⟩ := List.mem_map.1 now
        exact numbered new
      next => cases now
  · refine counted.trans ?_
    rw [inv.counts, executed]
    split
    · rw [exeEvents, held, List.map_append]
      exact (PredCounts.of_append _ _).symm
    · rw [List.append_nil]
      rfl
  · refine learned.trans ?_
    rw [inv.tables, List.foldl_append]

/-- The hand-over to MEM leaves what is on its way alone. -/
theorem enterMem_inv (inv : t.Inv C tables) (full : t.run.pipe.exe.isSome = true)
    (queued : (t.run.afterExe t.run.pipe.enterMem).Queued) :
    Inv C tables ⟨t.run.afterExe t.run.pipe.enterMem, t.trained, t.retired⟩ := by
  by_cases ready : t.run.pipe.exeEnd && t.run.pipe.mem.isNone
  · obtain ⟨done, free⟩ := Bool.and_eq_true_iff.1 ready
    have entered : t.run.pipe.enterMem =
        { t.run.pipe with exeEnd := false, exe := none, mem := t.run.pipe.exe } := if_pos ready
    have after : t.run.afterExe t.run.pipe.enterMem =
        { t.run with
          pipe := { t.run.pipe with exeEnd := false, exe := none, mem := t.run.pipe.exe }
          exe := none
          mem := t.run.exe } := by
      rw [entered, Numbered.afterExe, if_pos (by rw [full]; rfl)]
    rw [after] at queued ⊢
    refine inv.of_silent queued rfl (idle_of_empty rfl) inv.sub ?_
    rw [underway, underway, done, Option.isNone_iff_eq_none.1 free]
    simp
  · have after : t.run.afterExe t.run.pipe.enterMem = t.run := by
      rw [Pipeline.enterMem, if_neg ready, Numbered.afterExe,
        if_neg (by cases t.run.pipe.exe <;> simp)]
    rw [after]
    exact inv

/-- EXE calls `update` for a branch with a number. -/
theorem exeStage_inv (inv : t.Inv C tables) (calm : holdsTrap t.run.pipe.mem = false)
    (trapWaits : holdsTrap t.run.pipe.wb = true → t.run.pipe.idWaitRedirect = true)
    (numbered : t.run.pipe.undone = true → t.run.exe.isSome = true) :
    Returns (t.run.pipe.exeStage P p C.toPredictor) fun u =>
      Inv C tables ⟨t.run.afterExe u, t.trained ++ t.executed, t.retired⟩ := by
  unfold Pipeline.exeStage
  cases held : t.run.pipe.exe with
  | none =>
      have none : t.executed = [] := by
        rw [executed, Pipeline.undone, held]
        rfl
      rw [none, List.append_nil]
      refine (returns_ok _ _).2 ?_
      rw [Numbered.afterExe, held]
      exact inv
  | some inst =>
      dsimp only
      rw [returns_map]
      intro u ran
      have turn := Pipeline.exeTurn_exeTurn held inv.queued.settled u ran
      have learns := Pipeline.exeTurn_learns held (inv.idle inst held) u ran
      have queued := (Numbered.exeTurn_queued inv.queued calm trapWaits held turn).1
      have entered := exeTurn_inv inv held numbered turn queued learns
      obtain ⟨inst', held', -⟩ := turn.held
      have full : u.exe.isSome = true := by rw [held']; rfl
      have handed := enterMem_inv entered full
        (Numbered.enterMem_queued queued (by rw [turn.mem]; exact calm) full turn.acted)
      have same : t.run.afterExe u.enterMem =
          Numbered.afterExe { t.run with pipe := u } u.enterMem := by
        rw [Numbered.afterExe, Numbered.afterExe, held, full]
        rfl
      rw [same]
      exact handed

/-- The numbers behind EXE are not changed at ID. -/
theorem afterId_kept (t : Numbered δ π) (u : Pipeline δ π) :
    ((t.afterId u).mem, (t.afterId u).wb, (t.afterId u).retired) = (t.mem, t.wb, t.retired) := by
  unfold Numbered.afterId
  split_ifs <;> rfl

/-- What ID hands over has not been executed. -/
theorem idStage_inv (inv : t.Inv C tables)
    (trapWaits : holdsTrap t.run.pipe.wb = true →
      t.run.pipe.idWaitRedirect = true ∨ t.run.pipe.idValid = false) :
    Returns (t.run.pipe.idStage P C.toPredictor) fun u =>
      Inv C tables ⟨t.run.afterId u, t.trained, t.retired⟩ := by
  intro u ran
  have queued := Numbered.idStage_queued inv.queued trapWaits u ran
  have same := Pipeline.idStage_keeps t.run.pipe (toPredictor_keeps C).redirect u ran
  rw [← Numbered.afterId_pipe t.run u] at same
  obtain ⟨mem, wbRetired⟩ := Prod.mk.inj (afterId_kept t.run u)
  obtain ⟨wb, retired⟩ := Prod.mk.inj wbRetired
  have sub : (t.retired.map Prod.fst).Sublist (t.run.afterId u).retired := by
    rw [retired]
    exact inv.sub
  rcases Pipeline.idStage_back P C.toPredictor t.run.pipe u ran with back | ⟨free, inst, -, back⟩
  · by_cases ready : t.run.pipe.idValid && t.run.pipe.exe.isNone
    · -- ID has handed over an instruction, so that EXE cannot be as it was
      obtain ⟨valid, free⟩ := Bool.and_eq_true_iff.1 ready
      have free := Option.isNone_iff_eq_none.1 free
      obtain ⟨inst, entered, -⟩ := Pipeline.idStage_waits valid free u ran
      rw [back] at entered
      cases free.symm.trans (congrArg Back.exe entered)
    · have stays : u = t.run.pipe := by
        have ran' : t.run.pipe.idStage P C.toPredictor = .ok t.run.pipe := if_neg ready
        exact Except.ok.inj (ran.symm.trans ran')
      rw [stays, Numbered.afterId, if_neg ready]
      exact inv
  · have ended : u.exeEnd = false := (congrArg Back.exeEnd back).trans (inv.queued.exeHeld free).2
    have cycle : u.exeStallCycle = 0 :=
      (congrArg Back.exeStallCycle back).trans (inv.queued.idle free)
    refine inv.of_silent queued same ?_ sub ?_
    · intro inst' _ _
      rw [Numbered.afterId_pipe]
      exact cycle
    · rw [underway, underway, Numbered.afterId_pipe, mem, wb, ended, (inv.queued.exeHeld free).2,
        show u.mem = t.run.pipe.mem from congrArg Back.mem back,
        show u.wb = t.run.pipe.wb from congrArg Back.wb back]
      rfl

/-! ### The whole step -/

/-- The stages of a step one after the other; those before ID leave the others alone. -/
theorem exec_cases (t : Training δ σ μ) (takes : Bool) (slot : Inst) :
    Returns (t.run.exec P p C.toPredictor takes slot) fun u => ∃ v w x,
      t.run.pipe.wbStage p C.toPredictor = .ok v ∧
      v.memStage.exeStage P p C.toPredictor = .ok w ∧
      w.idStage P C.toPredictor = .ok x ∧
      u = { (((t.run.afterWb v).afterMem v.memStage).afterExe w).afterId x with pipe := u.pipe } ∧
      u.pipe.issued = x.issued ∧
      (u.pipe.pred.tables, u.pipe.pred.counts) = (x.pred.tables, x.pred.counts) := by
  unfold Numbered.exec
  split
  · exact returns_error _ _
  simp only [returns_bind, returns_pure]
  intro v retired w executed x decoded y stalled z fetched
  simp only [Numbered.afterWb_pipe, Numbered.afterMem_pipe, Numbered.afterExe_pipe,
    Numbered.afterId_pipe] at executed decoded stalled
  have keeps := toPredictor_keeps C
  have issued : z.issued = x.issued :=
    (Pipeline.issued_of_latched (Pipeline.fetchStage_latched P takes y z fetched)).trans
      (Pipeline.issued_of_latched (Pipeline.stallStage_latched P C.toPredictor x y stalled))
  have kept : (z.pred.tables, z.pred.counts) = (x.pred.tables, x.pred.counts) := by
    rw [Pipeline.fetchStage_pred P takes y z fetched]
    exact Pipeline.stallStage_keeps x keeps y stalled
  refine ⟨v, w, x, retired, executed, decoded, ?_, ?_, ?_⟩
  · simp only [Numbered.afterWb_pipe]
  · exact (Pipeline.issued_of_latched (Pipeline.nextFetch_latched slot z)).trans issued
  · rw [Pipeline.nextFetch_pred]
    exact kept

/-- The hand-over from MEM to WB leaves the number in EXE. -/
theorem afterMem_exe (t : Numbered δ π) (u : Pipeline δ π) : (t.afterMem u).exe = t.exe := by
  unfold Numbered.afterMem
  split <;> rfl

/-- MEM leaves EXE alone. -/
theorem memStage_exe (s : Pipeline δ π) :
    (s.memStage.exe, s.memStage.exeEnd, s.memStage.exeStallCycle) =
      (s.exe, s.exeEnd, s.exeStallCycle) := by
  rcases Pipeline.memStage_cases s with ⟨stays, -⟩ | ⟨inst, marks, -, leaves⟩
  · rw [stays]
  · rw [leaves]

/-- A trap in WB empties EXE, and nothing else touches it before its turn. -/
theorem executed_afterMem {v : Pipeline δ (PipePredictorState σ μ)}
    (ran : t.run.pipe.wbStage p C.toPredictor = .ok v) (trained : List TrainEvent)
    (retired : List (Option Nat × InstType)) :
    executed ⟨(t.run.afterWb v).afterMem v.memStage, trained, retired⟩ =
        (if !holdsTrap t.run.pipe.wb && t.run.pipe.undone then t.exeEvents else []) ∧
      (v.memStage.exe = none ∨ holdsTrap t.run.pipe.wb = false ∧
        v.memStage.exe = t.run.pipe.exe ∧ v.memStage.exeEnd = t.run.pipe.exeEnd ∧
        v.memStage.exeStallCycle = t.run.pipe.exeStallCycle ∧
        ((t.run.afterWb v).afterMem v.memStage).exe = t.run.exe) := by
  have metas : v.memStage.pred.metas = t.run.pipe.pred.metas := by
    rw [Pipeline.memStage_pred]
    exact congrArg Prod.fst (Pipeline.wbStage_keeps t.run.pipe (redirect_learned C) v ran)
  obtain ⟨exe, rest⟩ := Prod.mk.inj (memStage_exe v)
  obtain ⟨ended, cycle⟩ := Prod.mk.inj rest
  -- without a trap in WB
  have calm (plain : holdsTrap t.run.pipe.wb = false) (exe' : v.exe = t.run.pipe.exe)
      (ended' : v.exeEnd = t.run.pipe.exeEnd) (cycle' : v.exeStallCycle = t.run.pipe.exeStallCycle)
      (number : (t.run.afterWb v).exe = t.run.exe) :
      executed ⟨(t.run.afterWb v).afterMem v.memStage, trained, retired⟩ =
          (if !holdsTrap t.run.pipe.wb && t.run.pipe.undone then t.exeEvents else []) ∧
        (v.memStage.exe = none ∨ holdsTrap t.run.pipe.wb = false ∧
          v.memStage.exe = t.run.pipe.exe ∧ v.memStage.exeEnd = t.run.pipe.exeEnd ∧
          v.memStage.exeStallCycle = t.run.pipe.exeStallCycle ∧
          ((t.run.afterWb v).afterMem v.memStage).exe = t.run.exe) := by
    have numbers := (afterMem_exe (t.run.afterWb v) v.memStage).trans number
    refine ⟨?_, .inr ⟨plain, exe.trans exe', ended.trans ended', cycle.trans cycle', numbers⟩⟩
    rw [executed, exeEvents, exeEvents, Pipeline.undone, Pipeline.undone, Numbered.afterMem_pipe,
      metas, exe, exe', ended, ended', numbers, plain]
    rfl
  rcases Pipeline.wbStage_cases p C.toPredictor t.run.pipe v ran with
    ⟨held, rfl⟩ | ⟨inst, held, plain, rfl⟩ | ⟨inst, held, trap, exe', -, -, -⟩
  · refine calm (by rw [held]; rfl) rfl rfl rfl ?_
    rw [Numbered.afterWb, held]
  · refine calm (by rw [held]; exact plain) rfl rfl rfl ?_
    rw [Numbered.afterWb, held]
    dsimp only
    rw [if_neg (ne_true_of_eq_false plain)]
  · have trapped : holdsTrap t.run.pipe.wb = true := by rw [held]; exact trap
    refine ⟨?_, .inl (exe.trans exe')⟩
    rw [executed, Pipeline.undone, Numbered.afterMem_pipe, exe, exe', trapped]
    rfl

/-- Each branch that is counted is counted once in `predTimes`. -/
theorem PredCounts.count_predTimes (type : InstType) (c : PredCounts) :
    (c.count type).predTimes = c.predTimes + 1 := by
  unfold PredCounts.count
  cases type <;> rfl

/-- A list of events adds its length to `predTimes`. -/
theorem foldl_count_predTimes (events : List TrainEvent) (c : PredCounts) :
    (events.foldl (fun c e => c.count e.inst.info.type) c).predTimes =
      c.predTimes + events.length := by
  induction events generalizing c with
  | nil => rfl
  | cons e rest ih =>
      rw [List.foldl_cons, ih, PredCounts.count_predTimes, List.length_cons]
      omega

/-- EXE counts one for each call. -/
theorem exeStage_predTimes (idle : ∀ inst, t.run.pipe.exe = some inst → inst.branches = true →
      t.run.pipe.exeStallCycle = 0) :
    Returns (t.run.pipe.exeStage P p C.toPredictor) fun u =>
      u.pred.counts.predTimes = t.run.pipe.pred.counts.predTimes + t.executed.length := by
  unfold Pipeline.exeStage
  cases held : t.run.pipe.exe with
  | none =>
      refine (returns_ok _ _).2 ?_
      rw [executed, Pipeline.undone, held]
      rfl
  | some inst =>
      dsimp only
      rw [returns_map]
      refine (Pipeline.exeTurn_learns held (idle inst held)).mono ?_
      intro u learns
      obtain ⟨-, counted, -⟩ := learns_executed held learns
      rw [Pipeline.enterMem_pred, counted, foldl_count_predTimes]

/-- The calls of `update` of a whole step. -/
theorem exec_trainedIn (idle : ∀ inst, t.run.pipe.exe = some inst → inst.branches = true →
      t.run.pipe.exeStallCycle = 0) (takes : Bool) (slot : Inst) :
    Returns (t.run.exec P p C.toPredictor takes slot) fun u => t.trainedIn u =
      if !holdsTrap t.run.pipe.wb && t.run.pipe.undone then t.exeEvents else [] := by
  refine (exec_cases t takes slot).mono ?_
  rintro u ⟨v, w, x, retires, executes, decodes, -, -, kept⟩
  obtain ⟨calls, stays⟩ := executed_afterMem retires t.trained t.retired
  have before : v.memStage.pred.counts = t.run.pipe.pred.counts := by
    rw [Pipeline.memStage_pred]
    exact congrArg (fun l => l.2.2)
      (Pipeline.wbStage_keeps t.run.pipe (redirect_learned C) v retires)
  have after : u.pipe.pred.counts = w.pred.counts := by
    refine (congrArg Prod.snd kept).trans ?_
    exact congrArg Prod.snd (Pipeline.idStage_keeps w (toPredictor_keeps C).redirect x decodes)
  have counted : w.pred.counts.predTimes = v.memStage.pred.counts.predTimes +
      (executed ⟨(t.run.afterWb v).afterMem v.memStage, t.trained, t.retired⟩).length := by
    rw [← Numbered.afterMem_pipe (t.run.afterWb v) v.memStage] at executes
    have counts := exeStage_predTimes
      (t := ⟨(t.run.afterWb v).afterMem v.memStage, t.trained, t.retired⟩) ?_ w executes
    · rw [Numbered.afterMem_pipe] at counts
      exact counts
    rw [Numbered.afterMem_pipe]
    intro inst held branch
    rcases stays with empty | ⟨-, exe, -, cycle, -⟩
    · cases empty.symm.trans held
    · exact cycle.trans (idle inst (exe.symm.trans held) branch)
  rw [trainedIn, after, counted, before, calls]
  split
  next new =>
    rw [Bool.and_eq_true, Pipeline.undone, Bool.and_eq_true] at new
    cases held : t.run.pipe.exe with
    | none =>
        rw [held] at new
        cases new.2.1
    | some inst =>
        rw [exeEvents, held]
        exact if_neg (Nat.succ_ne_self _)
  next => exact if_pos rfl

/-- A step that trains nothing on the wrong path. -/
theorem exec_inv (inv : t.Inv C tables) {takes : Bool} {slot : Inst}
    (good : ¬ t.run.pipe.TrainsWrongPath (.exec takes slot)) :
    Returns (t.run.exec P p C.toPredictor takes slot) fun u =>
      Inv C tables ⟨u, t.trained ++ t.trainedIn u,
        t.retired ++ branchIn t.run.pipe.wb t.run.wb⟩ := by
  intro u ran
  obtain ⟨v, w, x, retires, executes, decodes, same, issued, kept⟩ := exec_cases t takes slot u ran
  rw [exec_trainedIn inv.idle takes slot u ran]
  obtain ⟨calls, stays⟩ := executed_afterMem retires t.trained
    (t.retired ++ branchIn t.run.pipe.wb t.run.wb)
  rw [← calls]
  have free := (Numbered.wbStage_queued inv.queued v retires).2
  have retired := wbStage_inv inv v retires
  have pipe := Numbered.afterWb_pipe t.run v
  have left := memStage_inv retired (by rw [pipe]; exact free)
  obtain ⟨-, calm, trapWaits⟩ := Numbered.memStage_queued retired.queued (by rw [pipe]; exact free)
  dsimp only at left calm trapWaits
  rw [pipe] at left calm trapWaits
  have pipe := Numbered.afterMem_pipe (t.run.afterWb v) v.memStage
  -- a branch with no number would be one of the wrong path
  have numbered : v.memStage.undone = true →
      ((t.run.afterWb v).afterMem v.memStage).exe.isSome = true := by
    intro new
    rcases stays with empty | ⟨plain, exe, ended, -, number⟩
    · rw [Pipeline.undone, empty] at new
      cases new
    · rw [Pipeline.undone, exe, ended] at new
      rw [number]
      by_contra missing
      have full : t.run.pipe.exe.isSome = true := by
        cases held : t.run.pipe.exe with
        | none =>
            rw [held] at new
            cases new
        | some inst => rfl
      rcases inv.queued.exeBehind full (by simpa using missing) with mem | wb
      · exact good ⟨plain, mem, new⟩
      · exact nomatch plain.symm.trans wb
  rw [← pipe] at executes calm trapWaits
  have entered := exeStage_inv left calm trapWaits (by rw [pipe]; exact numbered) w executes
  have trapWaits := (Numbered.exeStage_queued left.queued calm trapWaits w executes).2
  have pipe := Numbered.afterExe_pipe ((t.run.afterWb v).afterMem v.memStage) w
  have handed := idStage_inv entered (by rw [pipe]; exact trapWaits) x (by rw [pipe]; exact decodes)
  have pipe := Numbered.afterId_pipe (((t.run.afterWb v).afterMem v.memStage).afterExe w) x
  dsimp only at handed
  rw [same]
  exact handed.of_issued (by rw [pipe]; exact issued) (by rw [pipe]; exact kept)

/-- A step that trains no wrong-path branch keeps the invariant, whichever part of the pipeline
it runs. -/
theorem step_inv (inv : t.Inv C tables) {j : PipelineStep δ}
    (good : ¬ t.run.pipe.TrainsWrongPath j) : Returns (t.step P p C j) (Inv C tables) := by
  unfold step
  rw [returns_map]
  -- between two calls of `exec` nothing is trained and nothing retired
  have between {x : Except Halt (Pipeline δ (PipePredictorState σ μ))}
      (same : Returns x fun u => u.issued = t.run.pipe.issued ∧
        (u.pred.tables, u.pred.counts) = (t.run.pipe.pred.tables, t.run.pipe.pred.counts)) :
      Returns (t.run.onPipe x) fun u => Inv C tables ⟨u, t.trained ++ t.trainedIn u,
        t.retired ++ []⟩ := by
    rw [Numbered.onPipe, returns_map]
    refine same.mono ?_
    rintro u ⟨issued, kept⟩
    have none : t.trainedIn { t.run with pipe := u } = [] :=
      if_pos (congrArg PredCounts.predTimes (congrArg Prod.snd kept))
    rw [none, List.append_nil, List.append_nil]
    exact inv.of_issued issued kept
  have ticks (i : CacheStep) : Returns (t.run.pipe.runDCache p i) fun u =>
      u.issued = t.run.pipe.issued ∧
        (u.pred.tables, u.pred.counts) = (t.run.pipe.pred.tables, t.run.pipe.pred.counts) := by
    intro u ran
    rw [Pipeline.runDCache_pred p i t.run.pipe u ran]
    exact ⟨Pipeline.runDCache_issued p i t.run.pipe u ran, rfl⟩
  cases j with
  | exec takes slot => exact exec_inv inv good
  | icacheAnswer =>
      refine between fun u ran => ⟨?_, ?_⟩
      · exact Pipeline.issued_of_latched
          (Pipeline.icacheAnswered_latched P C.toPredictor t.run.pipe u ran)
      · exact Pipeline.icacheAnswered_keeps t.run.pipe (toPredictor_keeps C) u ran
  | dcacheTick accepts => exact between (ticks _)
  | dcacheAnswer index => exact between (ticks _)
  | device dev irq => exact between ((returns_ok _ _).2 ⟨rfl, rfl⟩)

/-- The branch behind the trap is trained without a number. -/
theorem trainsWrongPath_not_trainsOnce (inv : t.Inv C tables) {j : PipelineStep δ}
    (bad : t.run.pipe.TrainsWrongPath j) :
    Returns (t.step P p C j) fun u => ¬ u.TrainsOnce C tables := by
  cases j with
  | exec takes slot =>
      obtain ⟨calm, trap, new⟩ := bad
      unfold step
      rw [returns_map]
      refine (exec_trainedIn inv.idle takes slot).mono ?_
      intro u events once
      rw [calm, new, Bool.not_false, Bool.and_true, if_pos rfl] at events
      -- the trap in MEM is the last call
      have number : t.run.exe = none := by
        cases numbered : t.run.mem with
        | some i => exact (inv.queued.memTrap trap (by rw [numbered]; rfl)).1
        | none =>
            have full : t.run.pipe.mem.isSome = true := by
              cases held : t.run.pipe.mem with
              | none =>
                  rw [held] at trap
                  cases trap
              | some inst => rfl
            cases (inv.queued.memBehind full numbered).symm.trans calm
      rw [Pipeline.undone, Bool.and_eq_true] at new
      cases held : t.run.pipe.exe with
      | none =>
          rw [held] at new
          cases new.1
      | some inst =>
          have called := once.numbered ⟨t.run.exe, inst, _⟩ (List.mem_append_right t.trained (by
            rw [events, exeEvents, held]
            exact List.mem_singleton_self _))
          rw [number] at called
          cases called
  | _ => exact bad.elim

/-- Nothing has been trained. -/
theorem start_inv (arch : RiscvArch δ) (metas : Nat → PipeRecord μ) (other : σ) (startPc : Word) :
    (start (Pipeline.afterLoad p arch (PipePredictor.afterLoad metas other) startPc)).Inv C
      (PipePredictor.afterLoad metas other).tables := by
  refine ⟨Numbered.start_queued arch _ startPc, idle_of_empty rfl, rfl, ?_, List.nil_sublist _, rfl,
    rfl⟩
  exact List.forall_mem_nil _

end Steps

/-- In a run `update` is called for the branches that retire, once and in order, and for no
other, exactly when EXE never does a branch in the cycle in which the trap before it leaves MEM.
In all other cycles EXE is held up by the trap, so the branches behind it are dropped before
their turn. The counters and the tables are the fold of the calls that `trained` records. -/
theorem trainsOnce_iff (P : Platform δ) (p : PipelineParams) (C : PipePredictor σ μ)
    (arch : RiscvArch δ) (metas : Nat → PipeRecord μ) (other : σ) (startPc : Word)
    (steps : List (PipelineStep δ)) :
    (∀ before, before <+: steps →
      Returns (runSteps (step P p C)
        (start (.afterLoad p arch (PipePredictor.afterLoad metas other) startPc)) before)
        (TrainsOnce C (PipePredictor.afterLoad metas other).tables)) ↔
      ∀ t j, Visits (step P p C)
          (start (.afterLoad p arch (PipePredictor.afterLoad metas other) startPc)) steps t j →
        ∀ u, t.step P p C j = .ok u → ¬ t.run.pipe.TrainsWrongPath j := by
  have start := start_inv (p := p) (C := C) arch metas other startPc
  have keeps (t : Training δ σ μ) (j : PipelineStep δ) (u : Training δ σ μ)
      (inv : t.Inv C (PipePredictor.afterLoad metas other).tables)
      (good : ¬ (t.run.pipe.TrainsWrongPath j ∧ ∃ u, t.step P p C j = .ok u))
      (moved : t.step P p C j = .ok u) :
      u.Inv C (PipePredictor.afterLoad metas other).tables ∧
        u.TrainsOnce C (PipePredictor.afterLoad metas other).tables := by
    have kept := step_inv inv (fun wrong => good ⟨wrong, u, moved⟩) u moved
    exact ⟨kept, kept.trainsOnce⟩
  have breaks (t : Training δ σ μ) (j : PipelineStep δ)
      (inv : t.Inv C (PipePredictor.afterLoad metas other).tables)
      (bad : t.run.pipe.TrainsWrongPath j ∧ ∃ u, t.step P p C j = .ok u) :
      ∃ u, t.step P p C j = .ok u ∧
        ¬ u.TrainsOnce C (PipePredictor.afterLoad metas other).tables := by
    obtain ⟨wrong, u, moved⟩ := bad
    exact ⟨u, moved, trainsWrongPath_not_trainsOnce inv wrong u moved⟩
  refine (runSteps_prefix_returns_iff _ keeps breaks start start.trainsOnce steps).trans ?_
  constructor
  · intro good t j visit u moved wrong
    exact good t j visit ⟨wrong, u, moved⟩
  · rintro good t j visit ⟨wrong, u, moved⟩
    exact good t j visit u moved wrong

end Training

/-! ### A branch behind a trap -/

/-- `auipc ra, 0; addi ra, ra, 16; csrw mtvec, ra; ecall`, and where that traps to `j .`. -/
def jumpImage : Memory Unit :=
  imageOf [0x00000097, 0x01008093, 0x30509073, 0x00000073, 0x0000006f]

/-- Up to the tick the `ecall` leaves MEM at. -/
def jumpSteps : List (PipelineStep Unit) :=
  .exec true .zero :: (List.replicate 5 execFetched).flatten ++
    List.replicate 2 (.exec false .zero)

/-- The `ecall` goes from MEM to WB, and the `j` behind it is trained, which no call of
`updateEnv` knows of. -/
theorem not_trainsOnce_jumpSteps :
    ¬ ∀ before, before <+: jumpSteps →
      Returns (runSteps (Training.step (ramOnly 4096) tenSlots twoTables)
        (.start (.afterLoad tenSlots (Machine.reset archCfg jumpImage).arch
          (PipePredictor.afterLoad (fun _ => blankRecord) ()) 0x80000000)) before)
        (Training.TrainsOnce twoTables
          (PipePredictor.afterLoad (fun _ => blankRecord) () :
            PipePredictorState Unit Unit).tables) := by
  intro all
  obtain ⟨t, ran, keys⟩ := exists_ok_of_toOption
    (show (runSteps (Training.step (ramOnly 4096) tenSlots twoTables)
        (.start (.afterLoad tenSlots (Machine.reset archCfg jumpImage).arch
          (PipePredictor.afterLoad (fun _ => blankRecord) ()) 0x80000000))
        jumpSteps).toOption.map (fun t => t.trained.map TrainEvent.key) =
        some [(none, .direct)] by decide +kernel)
  obtain ⟨e, called, key⟩ := List.mem_map.1 (keys ▸ List.mem_singleton_self _)
  have numbered := (all jumpSteps (List.prefix_refl _) t ran).numbered e called
  rw [show e.number = none from congrArg Prod.fst key] at numbered
  cases numbered

end CPUDelaySim
