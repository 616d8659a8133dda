import CPUDelaySim.Cpu.StageReads
import CPUDelaySim.Pred.PipePredictor

/-!
# The predictor with a log

`PipePredictor` with a log of the records it hands out and reads.  The pipeline does not see the
log: with it, it makes the steps it makes without it (`runSteps_mapPred`).

The log is a part of the predictor's state that no function reads back, so erasing it commutes with
every stage.  This is stated for any two predictors related by such an erasure
(`Predictor.Maps`), one lemma a stage, and used for one pair.
-/

namespace CPUDelaySim

open Riscv

variable {δ π π' σ μ : Type}

/-! ### The log -/

/-- `class PipePredictor`, and what has been done to its records. -/
structure LoggedPredictor (σ μ : Type) where
  state : PipePredictorState σ μ
  log : List (RingEvent (PipeRecord μ))

/-- The records are a ring. -/
def LoggedPredictor.ring (s : LoggedPredictor σ μ) : Ring (PipeRecord μ) :=
  ⟨s.state.metas, s.state.metaIdx, s.log⟩

namespace PipePredictor

/-- The functions of the predictor, with the log. -/
def logged (C : PipePredictor σ μ) : Predictor (LoggedPredictor σ μ) where
  predict pc info s :=
    let (prediction, state) := C.predict pc info s.state
    (prediction,
      ⟨state, s.log ++ [.takes prediction.metaIdx (state.metas prediction.metaIdx.toNat)]⟩)
  redirect taken pc size target type metaIdx s :=
    ⟨C.redirect taken pc size target type metaIdx s.state,
      s.log ++ [.reads metaIdx (s.state.metas metaIdx.toNat)]⟩
  update taken pc size target type metaIdx s :=
    ⟨C.update taken pc size target type metaIdx s.state,
      s.log ++ [.reads metaIdx (s.state.metas metaIdx.toNat)]⟩

/-- `predict` writes the next record and returns its index. -/
theorem predict_takes (C : PipePredictor σ μ) (pc : Word) (info : DecodeInfo)
    (s : PipePredictorState σ μ) : ∃ record,
      (C.predict pc info s).2.metas = Function.update s.metas s.metaIdx record ∧
        (C.predict pc info s).2.metaIdx = (s.metaIdx + 1) % C.retireSize ∧
        (C.predict pc info s).1.metaIdx = s.metaIdx :=
  ⟨_, rfl, rfl, rfl⟩

/-- Every call of the logged predictor is an event of its ring, or a read: `predict` takes the
record at `meta_idx`, the redirects and the update read the one they are handed. -/
theorem logged_onRing (C : PipePredictor σ μ) :
    C.logged.OnRing C.retireSize LoggedPredictor.ring := by
  refine ⟨fun _ _ _ => rfl, ?_, fun _ _ _ _ _ _ _ => rfl, fun _ _ _ _ _ _ _ => rfl⟩
  intro pc info s
  obtain ⟨record, metas, next, index⟩ := C.predict_takes pc info s.state
  have kept : (C.predict pc info s.state).2.metas (C.predict pc info s.state).1.metaIdx.toNat =
      record := by
    rw [metas, index, Int.toNat_natCast, Function.update_self]
  refine ⟨record, ?_⟩
  change Ring.mk (C.predict pc info s.state).2.metas (C.predict pc info s.state).2.metaIdx
    (s.log ++ [.takes (C.predict pc info s.state).1.metaIdx
      ((C.predict pc info s.state).2.metas (C.predict pc info s.state).1.metaIdx.toNat)]) = _
  rw [kept, metas, next, index]
  rfl

end PipePredictor

/-! ### The pipeline does not see it -/

/-- `g` forgets a part of the state of `B` that `B` does not read, and leaves the state of `B'`. -/
structure Predictor.Maps (g : π → π') (B : Predictor π) (B' : Predictor π') : Prop where
  predict : ∀ pc info s,
    B'.predict pc info (g s) = ((B.predict pc info s).1, g (B.predict pc info s).2)
  redirect : ∀ taken pc size target type metaIdx s,
    B'.redirect taken pc size target type metaIdx (g s) =
      g (B.redirect taken pc size target type metaIdx s)
  update : ∀ taken pc size target type metaIdx s,
    B'.update taken pc size target type metaIdx (g s) =
      g (B.update taken pc size target type metaIdx s)

/-- Without the log, the logged predictor is the predictor. -/
theorem PipePredictor.logged_maps (C : PipePredictor σ μ) :
    Predictor.Maps LoggedPredictor.state C.logged C.toPredictor :=
  ⟨fun _ _ _ => rfl, fun _ _ _ _ _ _ _ => rfl, fun _ _ _ _ _ _ _ => rfl⟩

/-- A step after one that `f` goes through. -/
theorem bind_of_map {ε α β α' β' : Type} {f : α → α'} {f' : β → β'} {x : Except ε α}
    {y : Except ε α'} {k : α → Except ε β} {k' : α' → Except ε β'} (first : y = x.map f)
    (next : ∀ a, k' (f a) = (k a).map f') : (y >>= k') = (x >>= k).map f' := by
  subst first
  cases x with
  | error e => rfl
  | ok a => exact next a

/-- A step after one that both make. -/
theorem bind_of_same {ε α β β' : Type} {f' : β → β'} {x : Except ε α} {k : α → Except ε β}
    {k' : α → Except ε β'} (next : ∀ a, k' a = (k a).map f') : (x >>= k') = (x >>= k).map f' := by
  cases x with
  | error e => rfl
  | ok a => exact next a

/-- A branch on the same condition commutes with forgetting the log if both branches do. -/
theorem ite_of_map {ε α α' : Type} {f : α → α'} {c : Prop} [Decidable c] {x y : Except ε α}
    {x' y' : Except ε α'} (yes : x' = x.map f) (no : y' = y.map f) :
    (if c then x' else y') = (if c then x else y).map f := by
  split
  · exact yes
  · exact no

namespace Pipeline

/-- The pipeline with another state of its predictor. -/
def mapPred (g : π → π') (s : Pipeline δ π) : Pipeline δ π' := { s with pred := g s.pred }

section Maps

variable {P : Platform δ} {p : PipelineParams} {g : π → π'} {B : Predictor π} {B' : Predictor π'}
variable (maps : Predictor.Maps g B B') (s : Pipeline δ π)

/-- The DCache does not look at the predictor. -/
theorem callDCache_mapPred (g : π → π') (j : CacheStep) :
    (s.mapPred g).callDCache p j = (s.callDCache p j).map (mapPred g) := by
  unfold callDCache
  have same : (s.mapPred g).dcache = s.dcache := rfl
  rw [same]
  cases CacheSystem.step (dCache p.dcache) s.dcache j <;> rfl

/-- Neither do the ticks and the answers of the DCache. -/
theorem runDCache_mapPred (g : π → π') (j : CacheStep) :
    (s.mapPred g).runDCache p j = (s.runDCache p j).map (mapPred g) := by
  unfold runDCache
  rw [callDCache_mapPred]
  cases s.callDCache p j <;> rfl

/-- The lookup of a load or store in EXE goes to the MMU and the DCache only. -/
theorem memLookup_mapPred (type : FetchType) (kind : SnoopReq) (inst : Inst) :
    (s.mapPred g).memLookup P p type kind inst =
      (s.memLookup P p type kind inst).map (mapPred g) := by
  unfold memLookup
  refine bind_of_same ?_
  rintro ⟨paddr, exception, arch⟩
  refine bind_of_map (callDCache_mapPred { s with arch := arch } g _) ?_
  intro t
  rw [apply_ite (Except.map (mapPred g))]
  rfl

include maps

/-- The redirect of a branch, with the predictor of the other pipeline. -/
theorem brRedirect_mapPred (inst : Inst) :
    (s.mapPred g).brRedirect B' inst = (s.brRedirect B inst).mapPred g := by
  unfold brRedirect mapPred
  rw [maps.redirect]
  rfl

/-- The redirect of a trap. -/
theorem excRedirect_mapPred (inst : Inst) :
    (s.mapPred g).excRedirect p B' inst = (s.excRedirect p B inst).map (mapPred g) := by
  unfold excRedirect
  rw [← callDCache_mapPred]
  unfold mapPred
  rw [maps.redirect]
  rfl

/-- The WB stage. -/
theorem wbStage_mapPred : (s.mapPred g).wbStage p B' = (s.wbStage p B).map (mapPred g) := by
  unfold wbStage
  have same : (s.mapPred g).wb = s.wb := rfl
  rw [same]
  cases s.wb with
  | none => rfl
  | some inst =>
      dsimp only
      split
      · rw [excRedirect_mapPred maps]
        cases s.excRedirect p B inst <;> rfl
      · rfl

/-- The end of a branch in EXE: the update and the redirect of a misprediction. -/
theorem branchDone_mapPred (taken : Bool) (inst : Inst) :
    (s.mapPred g).branchDone B' taken inst = (s.branchDone B taken inst).mapPred g := by
  unfold branchDone mapPred
  rw [maps.update]

/-- A turn of the claim that the instruction in EXE has on the stage, one case for each kind. -/
theorem execute_mapPred (inst : Inst) :
    (s.mapPred g).execute P p B' inst = (s.execute P p B inst).map (mapPred g) := by
  unfold execute
  cases inst.info.type with
  | load | lr | store | amo => exact memLookup_mapPred s _ _ _
  | sc =>
      dsimp only
      split
      · rfl
      · exact memLookup_mapPred s _ _ _
  | mult | div | fadd | fmul | fma | fdiv | fsqrt | fmiscComplex => rfl
  | cond =>
      dsimp only
      rw [brRedirect_mapPred maps]
      split
      · exact congrArg Except.ok (branchDone_mapPred maps _ _ _)
      · exact congrArg Except.ok (branchDone_mapPred maps _ _ _)
  | indirect | indCall | indPush | pop | popPush =>
      dsimp only
      rw [brRedirect_mapPred maps]
      split
      · exact congrArg Except.ok (branchDone_mapPred maps _ _ _)
      · exact congrArg Except.ok (branchDone_mapPred maps _ _ _)
  | direct | push => exact congrArg Except.ok (branchDone_mapPred maps _ _ _)
  | fence | sfence => exact bind_of_map (callDCache_mapPred s g _) fun t => rfl
  | ifence | int | csrwr | sret | mret | fmiscSimple => rfl

/-- A turn of EXE, without the hand-over. -/
theorem exeTurn_mapPred (inst : Inst) :
    (s.mapPred g).exeTurn P p B' inst = (s.exeTurn P p B inst).map (mapPred g) := by
  unfold exeTurn
  rw [execute_mapPred maps]
  simp only [apply_ite (Except.map (mapPred g))]
  rfl

/-- The EXE stage. -/
theorem exeStage_mapPred : (s.mapPred g).exeStage P p B' = (s.exeStage P p B).map (mapPred g) := by
  unfold exeStage
  have same : (s.mapPred g).exe = s.exe := rfl
  rw [same]
  cases s.exe with
  | none => rfl
  | some inst =>
      dsimp only
      rw [exeTurn_mapPred maps]
      cases s.exeTurn P p B inst with
      | error e => rfl
      | ok t =>
          have entered : (t.mapPred g).enterMem = t.enterMem.mapPred g := by
            unfold enterMem
            rw [apply_ite (mapPred g)]
            rfl
          exact congrArg Except.ok entered

/-- The redirect of a prediction that ID finds to be wrong or late. -/
theorem frontRedirect_mapPred (inst : Inst) :
    (s.mapPred g).frontRedirect B' inst = (s.frontRedirect B inst).mapPred g := by
  unfold frontRedirect mapPred
  rw [maps.redirect]
  rfl

/-- The check of the next pc in ID. -/
theorem checkNext_mapPred (inst : Inst) :
    (s.mapPred g).checkNext B' inst = (s.checkNext B inst).map (mapPred g) := by
  unfold checkNext
  rw [frontRedirect_mapPred maps]
  simp only [apply_ite (Except.map (mapPred g))]
  rfl

/-- The call of `updateEnv` at ID, and what follows from its outcome. -/
theorem updateEnvAtId_mapPred (inst : Inst) :
    (s.mapPred g).updateEnvAtId P B' inst = (s.updateEnvAtId P B inst).map (mapPred g) := by
  unfold updateEnvAtId
  have same : (s.mapPred g).envInfo = s.envInfo := rfl
  rw [same]
  cases s.envInfo with
  | none => rfl
  | some info =>
      refine bind_of_same ?_
      rintro ⟨target, arch⟩
      exact checkNext_mapPred maps
        { s with
          arch := arch
          envInfo := some info
          pc := target
          idInst := some { inst with realTarget := target } } { inst with realTarget := target }

/-- A turn of ID, without the hand-over. -/
theorem idTurn_mapPred (inst : Inst) :
    (s.mapPred g).idTurn P B' inst = (s.idTurn P B inst).map (mapPred g) := by
  have entered (u : Pipeline δ π) :
      (if !(u.mapPred g).idWaitRedirect then
          (u.mapPred g).updateEnvAtId P B' ((u.mapPred g).idInst.getD inst)
        else if 5000 < (u.mapPred g).arch.tick - (u.mapPred g).waitRedirectTick then
          .error (.aborts .exit)
        else .ok (u.mapPred g)) =
      (if !u.idWaitRedirect then u.updateEnvAtId P B (u.idInst.getD inst)
        else if 5000 < u.arch.tick - u.waitRedirectTick then .error (.aborts .exit)
        else .ok u).map (mapPred g) := by
    rw [updateEnvAtId_mapPred maps]
    simp only [apply_ite (Except.map (mapPred g))]
    rfl
  unfold idTurn
  cases inst.excepts with
  | true => exact entered (s.handleException inst)
  | false => exact entered s

/-- The ID stage. -/
theorem idStage_mapPred : (s.mapPred g).idStage P B' = (s.idStage P B).map (mapPred g) := by
  unfold idStage
  have same : (s.mapPred g).idInst = s.idInst := rfl
  rw [apply_ite (Except.map (mapPred g)), same]
  refine if_congr Iff.rfl ?_ rfl
  cases s.idInst with
  | none => rfl
  | some inst =>
      dsimp only
      rw [idTurn_mapPred maps]
      cases s.idTurn P B inst <;> rfl

/-- The prediction is asked for with the same arguments and used in the same way. -/
theorem preId_mapPred (wrapper : Option Inst) :
    (s.mapPred g).preId P B' wrapper =
      (s.preId P B wrapper).map fun r => (r.1, r.2.mapPred g) := by
  unfold preId
  have same : (s.mapPred g).idInst = s.idInst := rfl
  have remain : (s.mapPred g).idRemainSize = s.idRemainSize := rfl
  rw [same, remain]
  cases (if s.idRemainSize ≤ 0 then wrapper else s.idInst) with
  | none => rfl
  | some inst =>
      refine bind_of_same ?_
      rintro ⟨paddr, exception, arch⟩
      refine ite_of_map rfl (bind_of_same ?_)
      rintro ⟨arch', info⟩
      have new := maps.predict s.pc info s.pred
      have first : (B'.predict (s.mapPred g).pc info (s.mapPred g).pred).1 =
          (B.predict s.pc info s.pred).1 := congrArg Prod.fst new
      have second : (B'.predict (s.mapPred g).pc info (s.mapPred g).pred).2 =
          g (B.predict s.pc info s.pred).2 := congrArg Prod.snd new
      simp only [first, second]
      refine ite_of_map ?_ rfl
      let inst' : Inst := { inst with
        taken := (B.predict s.pc info s.pred).1.taken
        realSize := info.instSize
        bpMetaIdx := (B.predict s.pc info s.pred).1.metaIdx
        nextPc := (B.predict s.pc info s.pred).1.nextPc
        realPc := s.pc
        realTarget := (B.predict s.pc info s.pred).1.nextPc
        paddr := paddr
        info := info }
      exact congrArg
        (fun t : Pipeline δ π' => (Except.ok (true, { t with idInst := some inst' }) :
          Except Halt (Bool × Pipeline δ π')))
        (frontRedirect_mapPred maps { s with
          arch := arch'
          envInfo := some info
          pred := (B.predict s.pc info s.pred).2
          idRemainSize :=
            if s.idRemainSize ≤ 0 then s.idRemainSize + inst.size.toNat else s.idRemainSize }
          inst')

/-- The stall of ID for the second half of an instruction. -/
theorem stallStage_mapPred :
    (s.mapPred g).stallStage P B' = (s.stallStage P B).map (mapPred g) := by
  unfold stallStage
  refine ite_of_map (bind_of_map (preId_mapPred maps s s.idStallInst) ?_) rfl
  rintro ⟨finish, t⟩
  exact ite_of_map rfl (ite_of_map rfl rfl)

/-- The answer of the ICache. -/
theorem icacheAnswered_mapPred :
    (s.mapPred g).icacheAnswered P B' = (s.icacheAnswered P B).map (mapPred g) := by
  unfold icacheAnswered
  have same : (s.mapPred g).fetching = s.fetching := rfl
  rw [same]
  cases s.fetching with
  | nil => rfl
  | cons inst rest =>
      refine ite_of_map (bind_of_map (preId_mapPred maps
        { s with fetching := rest, idValid := true } (some inst)) ?_) rfl
      rintro ⟨finish, t⟩
      rfl

omit maps

/-- The fetch stage does not look at the predictor at all. -/
theorem fetchStage_mapPred (g : π → π') (takes : Bool) :
    (s.mapPred g).fetchStage P takes = (s.fetchStage P takes).map (mapPred g) := by
  unfold fetchStage
  refine ite_of_map ?_ rfl
  have same : (s.mapPred g).fetchInst = s.fetchInst := rfl
  rw [same]
  cases s.fetchInst with
  | none => rfl
  | some inst =>
      refine bind_of_same ?_
      rintro ⟨inst, arch⟩
      exact ite_of_map (ite_of_map rfl rfl) (ite_of_map rfl rfl)

include maps

/-- `g` goes through every step. -/
theorem step_mapPred (j : PipelineStep δ) :
    (s.mapPred g).step P p B' j = (s.step P p B j).map (mapPred g) := by
  cases j with
  | exec takes slot =>
      refine ite_of_map rfl ?_
      refine bind_of_map (wbStage_mapPred maps s) fun s => ?_
      have left : (s.mapPred g).memStage = s.memStage.mapPred g := by
        unfold memStage
        have same : (s.mapPred g).mem = s.mem := rfl
        rw [same]
        cases s.mem with
        | none => rfl
        | some inst =>
            dsimp only
            simp only [apply_ite (mapPred g)]
            rfl
      rw [left]
      refine bind_of_map (exeStage_mapPred maps s.memStage) fun s => ?_
      refine bind_of_map (idStage_mapPred maps s) fun s => ?_
      refine bind_of_map (stallStage_mapPred maps s) fun s => ?_
      refine bind_of_map (fetchStage_mapPred s g takes) fun s => ?_
      have next : (s.mapPred g).nextFetch slot = (s.nextFetch slot).mapPred g := by
        unfold nextFetch
        rw [apply_ite (mapPred g)]
        rfl
      dsimp only
      rw [next]
      rfl
  | icacheAnswer => exact icacheAnswered_mapPred maps s
  | dcacheTick accepts => exact runDCache_mapPred s g _
  | dcacheAnswer index => exact runDCache_mapPred s g _
  | device dev irq => rfl

/-- What is not read does not change the run. -/
theorem runSteps_mapPred (steps : List (PipelineStep δ)) :
    runSteps (step P p B') (s.mapPred g) steps =
      (runSteps (step P p B) s steps).map (mapPred g) := by
  induction steps generalizing s with
  | nil => rfl
  | cons j rest ih =>
      rw [runSteps_cons, runSteps_cons, step_mapPred maps]
      cases s.step P p B j with
      | error e => rfl
      | ok t => exact ih t

end Maps

end Pipeline

end CPUDelaySim
