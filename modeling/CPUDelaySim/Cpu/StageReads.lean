import CPUDelaySim.Common.Ring
import CPUDelaySim.Cpu.Retire
import CPUDelaySim.Riscv.FetchPages

/-!
# What the stages read of the predictor

A predictor hands out its records one after another (`OnRing`): `predict` takes one, `redirect` and
`update` read the one they are given the index of.  One lemma for each stage says which records it
takes and reads, for which instruction, and what it does to fetch and ID.

The lemmas speak of a ring in general (`Predictor.OnRing`) and not of `PipePredictor`, so they hold
of any predictor that keeps its records so.  They come in pairs: what is read, and for whom
(`WbReads`, `ExeReads`, `IdReads`, `PreIdReads`), and what becomes of fetch and ID (`Front`).
`Front.Calm` is needed to know that only the youngest block can have faulted.
-/

namespace CPUDelaySim

open Riscv

variable {δ π ρ : Type}

/-- What holds of what the core returns holds of it in the pipeline. -/
theorem Halt.returns_ofArch {α : Type} {x : Except Abort α} {Q : α → Prop} (h : Returns x Q) :
    Returns (Halt.ofArch x) Q := by
  cases x with
  | error e => exact returns_error _ _
  | ok a => exact (returns_ok _ _).2 ((returns_ok _ _).1 h)

/-! ### A predictor on a ring -/

/-- `predict` hands out the next record, `redirect` and `update` read the one they are given. -/
structure Predictor.OnRing (B : Predictor π) (size : Nat) (ring : π → Ring ρ) : Prop where
  index : ∀ pc info s, (B.predict pc info s).1.metaIdx = (ring s).next
  predict : ∀ pc info s, ∃ record, ring (B.predict pc info s).2 = (ring s).take size record
  redirect : ∀ taken pc instSize target type metaIdx s,
    ring (B.redirect taken pc instSize target type metaIdx s) = (ring s).read metaIdx
  update : ∀ taken pc instSize target type metaIdx s,
    ring (B.update taken pc instSize target type metaIdx s) = (ring s).read metaIdx

/-- What fetch and ID hold. -/
structure Front where
  fetchInst : Option Inst
  fetching : List Inst
  idStallInst : Option Inst
  idValid : Bool
  idInst : Option Inst
  idRemainSize : Int
  idWaitRedirect : Bool

/-- After `brRedirect` and `excRedirect`. -/
def Front.redirected (f : Front) : Front :=
  { f with fetching := [], idValid := false, idRemainSize := 0, idWaitRedirect := false }

/-- The fetch of the instruction has faulted. -/
def Inst.faulted (inst : Inst) : Bool := inst.info.exception == excIPF

/-- Only the block that is fetched next may have faulted; blocks wait without an exception, and when
the rest of a block is copied from an instruction with one, ID waits. -/
structure Front.Calm (f : Front) : Prop where
  fetched : ∀ inst, f.fetchInst = some inst → inst.excepts = true → inst.faulted = true
  fetching : ∀ inst ∈ f.fetching, inst.excepts = false
  stalled : ∀ inst, f.idStallInst = some inst → inst.excepts = false
  copied : f.idValid = false → 0 < f.idRemainSize → ∀ inst, f.idInst = some inst →
    inst.excepts = true → f.idWaitRedirect = true

/-- A redirect leaves nothing in front that could trap. -/
theorem Front.Calm.redirected {f : Front} (calm : f.Calm) : f.redirected.Calm := by
  refine ⟨calm.fetched, List.forall_mem_nil _, calm.stalled, ?_⟩
  intro _ remains
  cases remains

namespace Pipeline

def front (s : Pipeline δ π) : Front :=
  ⟨s.fetchInst, s.fetching, s.idStallInst, s.idValid, s.idInst, s.idRemainSize, s.idWaitRedirect⟩

/-- WB redirects after a trap of a fetch that has faulted. -/
def RedirectsFault (s : Pipeline δ π) : PipelineStep δ → Prop
  | .exec _ _ => s.wb.any Inst.faulted = true
  | _ => False

/-- The mode is one of the four, and a record to be committed leaves it alone. -/
def Low (s : Pipeline δ π) : Prop :=
  Machine.Keeps (· < 4) (fun _ => True) (⟨s.arch, s.envInfo⟩ : Machine δ)

section Stages

variable {P : Platform δ} {p : PipelineParams} {B : Predictor π} {size : Nat} {ring : π → Ring ρ}
variable {s u : Pipeline δ π} {inst : Inst}

/-- The mode stays one of the four as long as nobody writes it. -/
theorem Low.of_same (low : s.Low)
    (priv : u.arch.state.get .priv = s.arch.state.get .priv) (env : u.envInfo = s.envInfo) :
    u.Low := by
  unfold Low
  rw [env]
  exact Machine.Keeps.with_arch low (by rw [priv]; exact low.priv)

/-- A translation leaves the mode alone. -/
theorem translateAddr_priv (P : Platform δ) (a : RiscvArch δ) (vaddr : Word) (type : FetchType)
    (exception : Word) :
    Returns (a.translateAddr P vaddr type exception) fun r =>
      r.2.2.state.get .priv = a.state.get .priv :=
  (RiscvArch.translateAddr_frame P a vaddr type exception).mono fun _ frame => frame.get (by decide)

/-- A call of the DCache leaves the front end and the predictor alone. -/
theorem callDCache_front (p : PipelineParams) (j : CacheStep) (s : Pipeline δ π) :
    Returns (s.callDCache p j) fun u =>
      u.front = s.front ∧ u.pred = s.pred ∧ u.arch = s.arch ∧ u.envInfo = s.envInfo := by
  refine (callDCache_back p j s).mono ?_
  rintro _ ⟨dcache, -, rfl⟩
  exact ⟨rfl, rfl, rfl, rfl⟩

/-- So does a tick or an answer of it. -/
theorem runDCache_front (p : PipelineParams) (j : CacheStep) (s : Pipeline δ π) :
    Returns (s.runDCache p j) fun u =>
      u.front = s.front ∧ u.pred = s.pred ∧ u.arch = s.arch ∧ u.envInfo = s.envInfo := by
  unfold runDCache
  rw [returns_bind]
  refine (callDCache_front p j s).mono ?_
  intro t same
  exact (returns_pure _ _).2 same

/-- WB reads the record of a trap. -/
structure WbReads (ring : π → Ring ρ) (s u : Pipeline δ π) : Prop where
  low : s.Low → u.Low
  reads : holdsTrap s.wb = false ∧ u.front = s.front ∧ u.pred = s.pred ∧ u.exe = s.exe ∧
      u.mem = s.mem ∧ u.exeEnd = s.exeEnd ∨
    ∃ inst, s.wb = some inst ∧ inst.excepts = true ∧ u.exe = none ∧ u.mem = none ∧
      u.front = s.front.redirected ∧ ring u.pred = (ring s.pred).read inst.bpMetaIdx

/-- WB reads a record for the redirect of a trap, and no other. -/
theorem wbStage_reads (onRing : B.OnRing size ring) (s : Pipeline δ π) :
    Returns (s.wbStage p B) (WbReads ring s) := by
  unfold wbStage
  cases held : s.wb with
  | none =>
      exact (returns_ok _ _).2 ⟨id, .inl ⟨by rw [held]; rfl, rfl, rfl, rfl, rfl, rfl⟩⟩
  | some inst =>
      dsimp only
      split
      next excepts =>
        rw [returns_map]
        refine (callDCache_back p .redirect _).mono ?_
        rintro _ ⟨dcache, -, rfl⟩
        refine ⟨fun low => low.of_same rfl rfl, .inr ⟨inst, held, excepts, rfl, rfl, rfl, ?_⟩⟩
        exact onRing.redirect _ _ _ _ _ _ _
      next plain =>
        refine (returns_ok _ _).2 ⟨fun low => low.of_same rfl rfl,
          .inl ⟨?_, rfl, rfl, rfl, rfl, rfl⟩⟩
        rw [held]
        exact Bool.eq_false_iff.2 plain

/-- A turn of EXE reads the record of a branch, and of no other instruction. -/
structure ExeReads (ring : π → Ring ρ) (inst : Inst) (s u : Pipeline δ π) : Prop where
  held : ∃ inst', u.exe = some inst' ∧ inst'.info = inst.info ∧ inst'.bpMetaIdx = inst.bpMetaIdx
  low : s.Low → u.Low
  ended : s.exeEnd = true → u.exeEnd = true
  reads : u.front = s.front ∧ ring u.pred = ring s.pred ∨
    inst.excepts = false ∧ s.exeEnd = false ∧ u.exeEnd = true ∧
      (u.front = s.front ∨ u.front = s.front.redirected) ∧
      ∃ n, ring u.pred = (ring s.pred).reads inst.bpMetaIdx n

/-- A load or store reads no record. -/
theorem memLookup_reads (type : FetchType) (kind : SnoopReq) (began : s.exeEnd = false) :
    Returns (s.memLookup P p type kind inst) (ExeReads ring inst s) := by
  have never {Q : Prop} (ended : s.exeEnd = true) : Q := nomatch began.symm.trans ended
  unfold memLookup
  rw [returns_bind]
  refine (Halt.returns_ofArch (translateAddr_priv P s.arch inst.info.excData type excNone)).mono ?_
  rintro ⟨paddr, exception, arch⟩ priv
  simp only [returns_bind]
  refine (callDCache_back p _ _).mono ?_
  rintro _ ⟨dcache, -, rfl⟩
  split
  · exact (returns_pure _ _).2
      ⟨⟨_, rfl, rfl, rfl⟩, fun low => low.of_same priv rfl, never, .inl ⟨rfl, rfl⟩⟩
  · exact (returns_pure _ _).2
      ⟨⟨_, rfl, rfl, rfl⟩, fun low => low.of_same priv rfl, never, .inl ⟨rfl, rfl⟩⟩

/-- A turn of the claim on EXE reads the record of a branch, for its update and for its
redirect. -/
theorem execute_reads (onRing : B.OnRing size ring) (held : s.exe = some inst)
    (began : s.exeEnd = false) (quiet : inst.excepts = false) :
    Returns (s.execute P p B inst) (ExeReads ring inst s) := by
  have never {Q : Prop} (ended : s.exeEnd = true) : Q := nomatch began.symm.trans ended
  have silent (c : Word) (done : Bool) :
      ExeReads ring inst s { s with exeStallCycle := c, exeEnd := done } :=
    ⟨⟨inst, held, rfl, rfl⟩, fun low => low.of_same rfl rfl, never, .inl ⟨rfl, rfl⟩⟩
  -- `redirect` and `update` read the same record
  have branches (wrong taken : Bool) :
      ExeReads ring inst s
        ((if wrong then s.brRedirect B inst else s).branchDone B taken inst) := by
    cases wrong with
    | false =>
        exact ⟨⟨inst, held, rfl, rfl⟩, fun low => low.of_same rfl rfl, never,
          .inr ⟨quiet, began, rfl, .inl rfl, 1, onRing.update _ _ _ _ _ _ _⟩⟩
    | true =>
        refine ⟨⟨inst, held, rfl, rfl⟩, fun low => low.of_same rfl rfl, never,
          .inr ⟨quiet, began, rfl, .inr rfl, 2, ?_⟩⟩
        refine (onRing.update _ _ _ _ _ _ _).trans ?_
        exact congrArg (Ring.read inst.bpMetaIdx) (onRing.redirect _ _ _ _ _ _ _)
  unfold execute
  cases inst.info.type with
  | load | lr | store | amo => exact memLookup_reads _ _ began
  | sc =>
      dsimp only
      split
      · exact (returns_ok _ _).2
          ⟨⟨_, rfl, rfl, rfl⟩, fun low => low.of_same rfl rfl, never, .inl ⟨rfl, rfl⟩⟩
      · exact memLookup_reads _ _ began
  | mult | div | fadd | fmul | fma | fdiv | fsqrt | fmiscComplex =>
      exact (returns_ok _ _).2 (silent _ s.exeEnd)
  | cond => exact (returns_ok _ _).2 (branches _ _)
  | indirect | indCall | indPush | pop | popPush => exact (returns_ok _ _).2 (branches _ _)
  | direct | push => exact (returns_ok _ _).2 (branches false _)
  | fence | sfence =>
      dsimp only
      rw [returns_bind]
      refine (callDCache_back p .flush s).mono ?_
      rintro _ ⟨dcache, -, rfl⟩
      exact (returns_pure _ _).2
        ⟨⟨inst, held, rfl, rfl⟩, fun low => low.of_same rfl rfl, never, .inl ⟨rfl, rfl⟩⟩
  | ifence | int | csrwr | sret | mret | fmiscSimple =>
      exact (returns_ok _ _).2 (silent s.exeStallCycle true)

/-- So does a turn of EXE. -/
theorem exeTurn_reads (onRing : B.OnRing size ring) (held : s.exe = some inst) :
    Returns (s.exeTurn P p B inst) (ExeReads ring inst s) := by
  unfold exeTurn
  by_cases stalled : s.exeStallCycle ≠ 0
  · rw [if_pos stalled]
    refine (returns_ok _ _).2
      ⟨⟨inst, held, rfl, rfl⟩, fun low => low.of_same rfl rfl, ?_, .inl ⟨rfl, rfl⟩⟩
    intro ended
    dsimp only
    rw [ended, ite_self]
  rw [if_neg stalled]
  split_ifs with done excepts
  · exact (returns_ok _ _).2 ⟨⟨inst, held, rfl, rfl⟩, id, id, .inl ⟨rfl, rfl⟩⟩
  · exact (returns_ok _ _).2
      ⟨⟨inst, held, rfl, rfl⟩, fun low => low.of_same rfl rfl, fun _ => rfl, .inl ⟨rfl, rfl⟩⟩
  · exact execute_reads onRing held (Bool.eq_false_iff.2 done) (Bool.eq_false_iff.2 excepts)

/-- ID reads the record of an instruction it redirects after, and that only if it does not wait
itself. -/
structure IdReads (ring : π → Ring ρ) (inst : Inst) (s u : Pipeline δ π) : Prop where
  held : ∃ inst', u.idInst = some inst' ∧ inst'.info.exception = inst.info.exception ∧
    inst'.bpMetaIdx = inst.bpMetaIdx
  fetched : u.fetchInst = s.fetchInst
  stalled : u.idStallInst = s.idStallInst
  low : s.Low → u.Low
  reads : u.fetching = s.fetching ∧ ring u.pred = ring s.pred ∨
    inst.excepts = false ∧ s.idWaitRedirect = false ∧ u.fetching = [] ∧
      ring u.pred = (ring s.pred).read inst.bpMetaIdx

/-- The check of the next pc reads the record of its instruction, if it redirects. -/
theorem checkNext_reads (onRing : B.OnRing size ring) (held : s.idInst = some inst)
    (going : s.idWaitRedirect = false) :
    Returns (s.checkNext B inst) (IdReads ring inst s) := by
  have waits (w : Bool) : IdReads ring inst s (s.waitRedirect w) :=
    ⟨⟨inst, held, rfl, rfl⟩, rfl, rfl, fun low => low.of_same rfl rfl, .inl ⟨rfl, rfl⟩⟩
  unfold checkNext
  dsimp only
  split_ifs with excepts
  · exact (returns_ok _ _).2 (waits _)
  · exact (returns_ok _ _).2 (waits _)
  · exact (returns_ok _ _).2 (waits _)
  · exact (returns_ok _ _).2 ⟨⟨inst, held, rfl, rfl⟩, rfl, rfl, fun low => low.of_same rfl rfl,
      .inr ⟨Bool.eq_false_iff.2 excepts, going, rfl, onRing.redirect _ _ _ _ _ _ _⟩⟩
  · exact (returns_ok _ _).2 ⟨⟨inst, held, rfl, rfl⟩, rfl, rfl, id, .inl ⟨rfl, rfl⟩⟩
  · exact returns_error _ _

/-- `handleException` keeps the code. -/
theorem handleException_exception (a : RiscvArch δ) (pc : Word) (info : DecodeInfo) :
    (a.handleException info.exception pc info).2.exception = info.exception := by
  unfold RiscvArch.handleException
  split <;> rfl

/-- An exception found at ID does not change the mode. -/
theorem handleException_low (low : s.Low) (inst : Inst) : (s.handleException inst).Low := by
  have priv : (s.handleException inst).arch.state.get .priv = s.arch.state.get .priv := by
    unfold Pipeline.handleException RiscvArch.handleException
    dsimp only
    split <;> rfl
  unfold Low
  by_cases fault : inst.info.exception = excIPF
  · have env : (s.handleException inst).envInfo =
        some (s.arch.handleException inst.info.exception s.pc inst.info).2 := if_pos fault
    rw [env]
    refine Machine.keeps_record (by rw [priv]; exact low.priv) ?_ trivial
    intro silent
    rw [handleException_exception, fault] at silent
    cases silent
  · have env : (s.handleException inst).envInfo = s.envInfo := if_neg fault
    exact low.of_same priv env

/-- The modes that `updateEnv` enters are among the four. -/
theorem updateEnv_low (low : s.Low) {info : DecodeInfo} (record : s.envInfo = some info) :
    Returns (s.arch.updateEnv P info) fun r =>
      Machine.Keeps (· < 4) (fun _ => True) (⟨r.2, some info⟩ : Machine δ) := by
  have closed : Machine.Closed (· < 4) fun _ => True :=
    ⟨by decide, by decide, trivial, fun _ _ _ _ => trivial⟩
  have bits (v : Word) : v &&& 0x3 < 4 := by
    rw [and_three]
    generalize v.setWidth 2 = u
    revert u
    decide
  have updated := Machine.updateEnv_keeps closed P low ⟨fun _ => bits _, fun _ => bits _⟩
  simp only [Machine.step, record, returns_bind, returns_pure] at updated
  exact updated

/-- So does the call of `updateEnv` at ID. -/
theorem updateEnvAtId_reads (onRing : B.OnRing size ring) (going : s.idWaitRedirect = false) :
    Returns (s.updateEnvAtId P B inst) (IdReads ring inst s) := by
  unfold updateEnvAtId
  cases record : s.envInfo with
  | none => exact returns_error _ _
  | some info =>
      dsimp only
      rw [returns_bind]
      rintro ⟨target, arch⟩ ran
      have updated (low : s.Low) : Machine.Keeps (· < 4) (fun _ => True) ⟨arch, some info⟩ :=
        Halt.returns_ofArch (updateEnv_low low record) _ ran
      have checked : Returns (checkNext B { inst with realTarget := target }
          { s with
            arch := arch
            envInfo := some info
            pc := target
            idInst := some { inst with realTarget := target } })
          (IdReads ring { inst with realTarget := target } _) :=
        checkNext_reads onRing rfl going
      refine checked.mono ?_
      rintro u ⟨held, fetched, stalled, low, reads⟩
      exact ⟨held, fetched, stalled, fun start => low (updated start), reads⟩

/-- So does a turn of ID, in which an instruction that waits reads nothing. -/
theorem idTurn_reads (onRing : B.OnRing size ring) (held : s.idInst = some inst) :
    Returns (s.idTurn P B inst) (IdReads ring inst s) := by
  -- `handleException` keeps the code and the index
  have entered (u : Pipeline δ π) {inst' : Inst} (held : u.idInst = some inst')
      (code : inst'.info.exception = inst.info.exception)
      (index : inst'.bpMetaIdx = inst.bpMetaIdx) (low : s.Low → u.Low)
      (fetched : u.fetchInst = s.fetchInst) (stalled : u.idStallInst = s.idStallInst)
      (fetching : u.fetching = s.fetching)
      (pred : u.pred = s.pred) (waits : u.idWaitRedirect = s.idWaitRedirect) :
      Returns (if !u.idWaitRedirect then u.updateEnvAtId P B (u.idInst.getD inst)
        else if 5000 < u.arch.tick - u.waitRedirectTick then .error (.aborts .exit)
        else .ok u) (IdReads ring inst s) := by
    split_ifs with going
    · rw [Bool.not_eq_true'] at going
      rw [held]
      refine (updateEnvAtId_reads onRing going).mono ?_
      rintro v ⟨⟨inst'', held', code', index'⟩, fetched', stalled', low', reads⟩
      refine ⟨⟨inst'', held', code'.trans code, index'.trans index⟩, fetched'.trans fetched,
        stalled'.trans stalled, low' ∘ low, ?_⟩
      have excepts : inst'.excepts = inst.excepts := congrArg RiscvArch.exceptionValid code
      rw [Option.getD_some, excepts, index, fetching, pred, waits] at reads
      exact reads
    · exact returns_error _ _
    · exact (returns_ok _ _).2 ⟨⟨inst', held, code, index⟩, fetched, stalled, low,
        .inl ⟨fetching, congrArg ring pred⟩⟩
  unfold idTurn
  dsimp only
  cases inst.excepts with
  | true =>
      refine entered (s.handleException inst) rfl ?_ rfl ?_ rfl rfl rfl rfl rfl
      · exact handleException_exception s.arch s.pc inst.info
      · exact fun low => handleException_low low inst
  | false => exact entered s held rfl rfl id rfl rfl rfl rfl rfl

/-- The only exception in front is that of a fetch. -/
theorem translateFetch_faulted (P : Platform δ) (inst : Inst) (s : Pipeline δ π)
    (only : inst.excepts = true → inst.faulted = true) :
    Returns (s.translateFetch P inst) fun r =>
      r.2.state.get .priv = s.arch.state.get .priv ∧
        (r.1.excepts = true → r.1.faulted = true) := by
  unfold translateFetch
  split
  next => exact (returns_ok _ _).2 ⟨rfl, only⟩
  next plain =>
    rw [returns_bind]
    rintro ⟨paddr, exception, arch⟩ ran
    have priv := Halt.returns_ofArch
      (translateAddr_priv P s.arch inst.pc .ifetch inst.info.exception) _ ran
    have code : exception = inst.info.exception ∨ exception = excIPF :=
      Halt.returns_ofArch (fun r ran => RiscvArch.translateAddr_code ran) _ ran
    refine (returns_pure _ _).2 ⟨priv, fun traps => ?_⟩
    rcases code with same | fault
    · refine absurd ?_ plain
      rw [Inst.excepts, ← same]
      exact traps
    · exact beq_iff_eq.2 fault

/-- `preId` leaves an exception and reads nothing, or takes a record for what it decodes, and may
read it at once. -/
structure PreIdReads (ring : π → Ring ρ) (size : Nat) (inst : Inst)
    (s u : Pipeline δ π) : Prop where
  valid : u.idValid = s.idValid
  fetched : u.fetchInst = s.fetchInst
  stalled : u.idStallInst = s.idStallInst
  low : s.Low → u.Low
  fetching : ∀ inst ∈ u.fetching, inst ∈ s.fetching
  prepared : ∃ inst', u.idInst = some inst' ∧
    (ring u.pred = ring s.pred ∧ inst'.excepts = true ∧
        (inst'.faulted = true ∨ inst.excepts = true) ∨
      (s.Low → inst'.faulted = false) ∧ inst'.bpMetaIdx = (ring s.pred).next ∧
        ∃ record n, ring u.pred = ((ring s.pred).take size record).reads inst'.bpMetaIdx n)

/-- A decoding takes a record, unless the fetch faults, and reads it if the prediction is taken.
-/
theorem preId_reads (onRing : B.OnRing size ring) {wrapper : Option Inst}
    (chosen : (if s.idRemainSize ≤ 0 then wrapper else s.idInst) = some inst) :
    Returns (s.preId P B wrapper) fun r => PreIdReads ring size inst s r.2 := by
  unfold preId
  rw [chosen]
  dsimp only
  rw [returns_bind]
  rintro ⟨paddr, exception, arch⟩ ran
  have priv := Halt.returns_ofArch (translateAddr_priv P s.arch s.pc .ifetch inst.info.exception)
    _ ran
  have code : exception = inst.info.exception ∨ exception = excIPF :=
    Halt.returns_ofArch (fun r ran => RiscvArch.translateAddr_code ran) _ ran
  split
  next excepts =>
    refine (returns_pure _ _).2
      ⟨rfl, rfl, rfl, ?_, fun _ mem => mem, _, rfl, .inl ⟨rfl, ?_, ?_⟩⟩
    · intro low
      refine handleException_low ?_ _
      exact low.of_same priv rfl
    · exact (congrArg RiscvArch.exceptionValid (handleException_exception _ _ _)).trans excepts
    · rcases code with same | fault
      · -- The code is the one that was there, or the page fault of this fetch.
        right
        rw [Inst.excepts, ← same]
        exact excepts
      · left
        rw [Inst.faulted, beq_iff_eq]
        exact (handleException_exception _ _ _).trans fault
  next =>
    rw [returns_bind]
    rintro ⟨arch', info⟩ decoded
    have low (start : s.Low) : arch.state.get .priv < 4 := by
      rw [priv]
      exact start.priv
    have spec := Halt.returns_ofArch (RiscvArch.decode_spec P arch s.pc paddr _) _ decoded
    have kept (start : s.Low) :
        Machine.Keeps (· < 4) (fun _ => True) (⟨arch', some info⟩ : Machine δ) := by
      obtain ⟨b, apart⟩ := spec.apart
      refine Machine.keeps_record ?_ (fun _ => apart _ (not_targets_priv b)) trivial
      rw [spec.frame.get .priv (by decide) (by decide) (by decide)]
      exact low start
    have calm (start : s.Low) : info.exception ≠ excIPF :=
      Halt.returns_ofArch (RiscvArch.decode_not_fault (low start) s.pc paddr _) _ decoded
    obtain ⟨record, taken⟩ := onRing.predict s.pc info s.pred
    dsimp only
    split
    · refine (returns_pure _ _).2
        ⟨rfl, rfl, rfl, kept, nofun, _, rfl, .inr ⟨?_, ?_, record, 1, ?_⟩⟩
      · exact fun start => beq_false_of_ne (calm start)
      · exact onRing.index _ _ _
      · refine (onRing.redirect _ _ _ _ _ _ _).trans ?_
        exact congrArg (Ring.read _) taken
    · refine (returns_pure _ _).2
        ⟨rfl, rfl, rfl, kept, fun _ mem => mem, _, rfl, .inr ⟨?_, ?_, record, 0, taken⟩⟩
      · exact fun start => beq_false_of_ne (calm start)
      · exact onRing.index _ _ _

end Stages

end Pipeline

end CPUDelaySim
