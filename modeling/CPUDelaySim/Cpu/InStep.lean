import CPUDelaySim.Cpu.FrontEnd
import CPUDelaySim.Cpu.StageReads

/-!
# The stages, in step with the program

Between two calls of `updateEnv` the pipeline decodes ahead, on paths right and wrong, and each
decoding runs the body of its instruction.  What that leaves behind (`Drift`) is what the devices
do as well, what reads of a device do, `mstatus.FS` and the word of the floating-point flags.  Up to
that, the calls of `updateEnv` are to be the sequential execution of the program (`Executes`): each
one is at the pc that the one before returned, with what `decode` made of the instruction there.

One lemma for each stage says what it does to the stages before EXE: it leaves them as they are,
empties them to go on at its target, calls `updateEnv` for `id_inst`, or goes on with their blocks.

The lemmas of the stages differ in what they promise and agree in form.  `Still` and `Emptied` are
the two things that may happen to the stages before EXE from behind; `Handed`, `Checked` and
`Updated` follow ID through the three parts of its turn; `Ahead` is all that `preId`, the stalled
block and fetch may do to the machine.  `AtCall` is what the others are for: the state in which ID
calls `updateEnv`, with a record that `Fetches` the instruction at the pc.

`FaultsNow` is the one assumption about the fetch: a fault that was found when the block was
translated is still one when ID takes it.
-/

namespace CPUDelaySim

open Riscv RiscvArch

variable {δ π : Type}

/-! ### The sequential execution -/

/-- What becomes of the machine between two calls of `updateEnv`. -/
structure Drift (a b : RiscvArch δ) : Prop where
  get : ∀ w, w ≠ .mip → w ≠ .mstatus → w ≠ .fp → b.state.get w = a.state.get w
  mstatus : b.state.get .mstatus = a.state.get .mstatus ∨
    b.state.get .mstatus = a.state.get .mstatus ||| mstatusFS
  ram : b.memory.ram = a.memory.ram
  ifetchMmuState : b.ifetchMmuState = a.ifetchMmuState
  dataMmuState : b.dataMmuState = a.dataMmuState

/-- A machine has not drifted from itself. -/
theorem Drift.refl (a : RiscvArch δ) : Drift a a := ⟨fun _ _ _ _ => rfl, .inl rfl, rfl, rfl, rfl⟩

/-- Two drifts in a row are one. -/
theorem Drift.trans {a b c : RiscvArch δ} (first : Drift a b) (second : Drift b c) :
    Drift a c where
  get w mip mstatus fp := (second.get w mip mstatus fp).trans (first.get w mip mstatus fp)
  mstatus := by
    rcases second.mstatus with h | h <;> rcases first.mstatus with h' | h' <;>
      simp [h, h', BitVec.or_assoc]
  ram := second.ram.trans first.ram
  ifetchMmuState := second.ifetchMmuState.trans first.ifetchMmuState
  dataMmuState := second.dataMmuState.trans first.dataMmuState

/-- The body of an instruction moves the machine no further, when `decode` runs it. -/
theorem drift_of_exec {a b : RiscvArch δ} (frame : ExecFrame a b) : Drift a b :=
  ⟨frame.get, frame.mstatus, frame.ram, frame.ifetchMmuState, frame.dataMmuState⟩

/-- A fetch or a page walk moves the machine no further: a device that it reads may answer with
its interrupt line. -/
theorem drift_of_read {a b : RiscvArch δ} (frame : ReadFrame a b) : Drift a b :=
  drift_of_exec frame.exec

/-- The devices tick and may publish an interrupt vector. -/
theorem drift_devices (a : RiscvArch δ) (dev : δ) (irq : Option Word) :
    Drift a (RiscvArch.irqListener { a with memory := { a.memory with dev := dev } } irq) where
  get w mip _ _ := irqListener_get _ irq mip
  mstatus := .inl (irqListener_get _ irq (by decide))
  ram := by cases irq <;> rfl
  ifetchMmuState := by cases irq <;> rfl
  dataMmuState := by cases irq <;> rfl

/-- The record for the instruction at `pc`: what `decode` makes of it, or the page fault of its
fetch, with the pc as the trap value. -/
inductive Fetches (P : Platform δ) (base : RiscvArch δ) (pc : Word) : DecodeInfo → Prop
  | decoded (a b : RiscvArch δ) (slot info : DecodeInfo) (paddr : Word) (drift : Drift base a)
      (translated : a.translateAddr P pc .ifetch excNone = .ok (paddr, excNone, a))
      (decoded : a.decode P pc paddr slot = .ok (b, info)) : Fetches P base pc info
  | faulted (a b : RiscvArch δ) (info : DecodeInfo) (paddr : Word) (drift : Drift base a)
      (translated : a.translateAddr P pc .ifetch excNone = .ok (paddr, excIPF, b)) :
      Fetches P base pc { info with excData := pc, exception := excIPF }

/-- So many calls of `updateEnv` lead to a machine and a pc. -/
inductive Executes (P : Platform δ) (arch : RiscvArch δ) (startPc : Word) :
    Nat → RiscvArch δ → Word → Prop
  | start : Executes P arch startPc 0 arch startPc
  | call {n : Nat} {base a b : RiscvArch δ} {pc target : Word} {info : DecodeInfo}
      (earlier : Executes P arch startPc n base pc) (fetches : Fetches P base pc info)
      (drift : Drift base a) (here : a.pc = pc) (updated : a.updateEnv P info = .ok (target, b)) :
      Executes P arch startPc (n + 1) b target

/-! ### What a stage does to the stages before EXE -/

namespace Pipeline

variable {P : Platform δ} {p : PipelineParams} {B : Predictor π} {base : RiscvArch δ}
  {s t u : Pipeline δ π} {inst : Inst}

/-- They stand as they are. -/
structure Still (s t : Pipeline δ π) : Prop where
  front : t.frontEnd = s.frontEnd
  env : t.envInfo = s.envInfo
  pc : t.arch.pc = s.arch.pc
  waits : t.idWaitRedirect = s.idWaitRedirect
  drift : Drift s.arch t.arch

/-- They are emptied, to go on at `target`. -/
structure Emptied (target : Word) (s t : Pipeline δ π) : Prop where
  front : t.frontEnd = { s.frontEnd.drop target with idValid := false }
  waits : t.idWaitRedirect = false
  drift : Drift s.arch t.arch

/-- Nothing has happened. -/
theorem Still.refl (s : Pipeline δ π) : Still s s := ⟨rfl, rfl, rfl, rfl, .refl _⟩

/-- Two steps that leave the front end alone do so in a row. -/
theorem Still.trans (first : Still s t) (second : Still t u) : Still s u :=
  ⟨second.front.trans first.front, second.env.trans first.env, second.pc.trans first.pc,
    second.waits.trans first.waits, first.drift.trans second.drift⟩

/-- A step that leaves the front end alone leaves the pc alone. -/
theorem Still.here (still : Still s t) : t.pc = s.pc := congrArg FrontEnd.pc still.front

/-- A redirect changes what is fetched next, and not the pc of the instruction that is called.
-/
theorem Emptied.here {target : Word} (emptied : Emptied target s t) : t.pc = s.pc :=
  congrArg FrontEnd.pc emptied.front

/-- After a redirect, a step that leaves the front end alone leaves it emptied. -/
theorem Emptied.trans {target : Word} (first : Emptied target s t) (second : Still t u) :
    Emptied target s u :=
  ⟨second.front.trans first.front, second.waits.trans first.waits,
    first.drift.trans second.drift⟩

/-- A trap in WB empties all stages. -/
theorem wbStage_front (p : PipelineParams) (B : Predictor π) (s : Pipeline δ π) :
    Returns (s.wbStage p B) fun t => t.wb = none ∧
      (holdsTrap s.wb = false ∧ Still s t ∧ t.exe = s.exe ∧ t.mem = s.mem ∨
        ∃ inst, s.wb = some inst ∧ inst.excepts = true ∧ Emptied inst.realTarget s t ∧
          t.exe = none ∧ t.mem = none) := by
  have counted (a : RiscvArch δ) (n : Word) : Drift a { a with instret := n } :=
    ⟨fun _ _ _ _ => rfl, .inl rfl, rfl, rfl, rfl⟩
  unfold wbStage
  cases held : s.wb with
  | none => exact (returns_ok _ _).2 ⟨held, .inl ⟨rfl, .refl s, rfl, rfl⟩⟩
  | some inst =>
      dsimp only
      split
      next excepts =>
        rw [returns_map]
        refine (callDCache_back p .redirect _).mono ?_
        rintro _ ⟨dcache, -, rfl⟩
        exact ⟨rfl, .inr ⟨inst, rfl, excepts, ⟨rfl, rfl, counted _ _⟩, rfl, rfl⟩⟩
      next plain =>
        exact (returns_ok _ _).2 ⟨rfl, .inl ⟨Bool.eq_false_iff.2 plain,
          ⟨rfl, rfl, rfl, rfl, counted _ _⟩, rfl, rfl⟩⟩

/-- A turn of EXE leaves the target of its instruction alone, and empties them if that is to
redirect. -/
structure ExeFront (inst : Inst) (s t : Pipeline δ π) : Prop where
  held : ∃ inst', t.exe = some inst' ∧ inst'.realTarget = inst.realTarget
  front : s.pending = false ∧ Still s t ∨ s.pending = true ∧ Emptied inst.realTarget s t

/-- The lookup of a load or store does not touch the front end. -/
theorem memLookup_front (type : FetchType) (kind : SnoopReq) (calm : s.pending = false) :
    Returns (s.memLookup P p type kind inst) (ExeFront inst s) := by
  unfold memLookup
  simp only [returns_bind]
  rintro ⟨paddr, exception, arch⟩ moved
  have frame : ReadFrame s.arch arch :=
    Halt.returns_ofArch (translateAddr_frame P s.arch _ type excNone) _ moved
  have still (t : Pipeline δ π) (front : t.frontEnd = s.frontEnd) (env : t.envInfo = s.envInfo)
      (waits : t.idWaitRedirect = s.idWaitRedirect) (same : t.arch = arch) : Still s t := by
    refine ⟨front, env, ?_, waits, ?_⟩
    · rw [same]
      exact frame.exec.pc
    · rw [same]
      exact drift_of_read frame
  refine (callDCache_back p _ _).mono ?_
  rintro _ ⟨dcache, -, rfl⟩
  split
  · exact (returns_pure _ _).2 ⟨⟨_, rfl, rfl⟩, .inl ⟨calm, still _ rfl rfl rfl rfl⟩⟩
  · exact (returns_pure _ _).2 ⟨⟨_, rfl, rfl⟩, .inl ⟨calm, still _ rfl rfl rfl rfl⟩⟩

/-- A turn of the claim on EXE leaves the front end alone, or it is the branch whose redirect
empties it and sends the fetch where the branch goes. -/
theorem execute_front (held : s.exe = some inst) (began : s.exeEnd = false)
    (cycle : s.exeStallCycle = 0) (quiet : inst.excepts = false) :
    Returns (s.execute P p B inst) (ExeFront inst s) := by
  have pends : s.pending = inst.redirects := by
    rw [pending, held, Option.any_some, began, cycle]
    exact (Bool.and_true _).trans (Bool.and_true _)
  have calm (plain : inst.redirects = false) : s.pending = false := pends.trans plain
  have silent (plain : inst.redirects = false) (c : Word) (done : Bool) :
      ExeFront inst s { s with exeStallCycle := c, exeEnd := done } :=
    ⟨⟨inst, held, rfl⟩, .inl ⟨calm plain, rfl, rfl, rfl, rfl, .refl _⟩⟩
  -- A branch is taken back exactly when its prediction was wrong.
  have branches (wrong taken : Bool) (redirects : inst.redirects = wrong) :
      ExeFront inst s ((if wrong then s.brRedirect B inst else s).branchDone B taken inst) := by
    cases wrong with
    | false => exact ⟨⟨inst, held, rfl⟩, .inl ⟨calm redirects, rfl, rfl, rfl, rfl, .refl _⟩⟩
    | true => exact ⟨⟨inst, held, rfl⟩, .inr ⟨pends.trans redirects, rfl, rfl, .refl _⟩⟩
  have plain (cond : inst.info.type ≠ .cond) (jump : inst.info.type.isJump = false) :
      inst.redirects = false := redirects_of_plain cond jump
  unfold execute
  cases type : inst.info.type with
  | load | lr | store | amo =>
      rw [type] at plain
      exact memLookup_front _ _ (calm (plain (by decide) rfl))
  | sc =>
      rw [type] at plain
      have calm := calm (plain (by decide) rfl)
      dsimp only
      split
      · exact (returns_ok _ _).2 ⟨⟨_, rfl, rfl⟩, .inl ⟨calm, rfl, rfl, rfl, rfl, .refl _⟩⟩
      · exact memLookup_front _ _ calm
  | mult | div | fadd | fmul | fma | fdiv | fsqrt | fmiscComplex =>
      rw [type] at plain
      exact (returns_ok _ _).2 (silent (plain (by decide) rfl) _ s.exeEnd)
  | cond =>
      refine (returns_ok _ _).2 (branches _ _ ?_)
      rw [Inst.redirects, quiet, type]
      simp [InstType.isJump]
  | indirect | indCall | indPush | pop | popPush =>
      refine (returns_ok _ _).2 (branches _ _ ?_)
      rw [Inst.redirects, quiet, type]
      simp [InstType.isJump]
  | fence | sfence =>
      rw [type] at plain
      have calm := calm (plain (by decide) rfl)
      dsimp only
      rw [returns_bind]
      refine (callDCache_back p .flush s).mono ?_
      rintro _ ⟨dcache, -, rfl⟩
      exact (returns_pure _ _).2 ⟨⟨inst, held, rfl⟩, .inl ⟨calm, rfl, rfl, rfl, rfl, .refl _⟩⟩
  | direct | push | ifence | int | csrwr | sret | mret | fmiscSimple =>
      rw [type] at plain
      have calm := calm (plain (by decide) rfl)
      exact (returns_ok _ _).2 ⟨⟨inst, held, rfl⟩, .inl ⟨calm, rfl, rfl, rfl, rfl, .refl _⟩⟩

/-- The same of a turn of EXE: an exception and a finished instruction leave the front end
alone. -/
theorem exeTurn_front (held : s.exe = some inst) :
    Returns (s.exeTurn P p B inst) (ExeFront inst s) := by
  unfold exeTurn
  by_cases stalled : s.exeStallCycle ≠ 0
  · have calm : s.pending = false := by
      rw [pending, beq_false_of_ne stalled, Bool.and_false]
    rw [if_pos stalled]
    exact (returns_ok _ _).2 ⟨⟨inst, held, rfl⟩, .inl ⟨calm, rfl, rfl, rfl, rfl, .refl _⟩⟩
  rw [if_neg stalled]
  split_ifs with done excepts
  · exact (returns_ok _ _).2 ⟨⟨inst, held, rfl⟩, .inl ⟨pending_of_exeEnd done, .refl s⟩⟩
  · have plain : inst.redirects = false := by
      rw [Inst.redirects, excepts, Bool.not_true, Bool.false_and]
    exact (returns_ok _ _).2 ⟨⟨inst, held, rfl⟩,
      .inl ⟨pending_of_plain held plain, rfl, rfl, rfl, rfl, .refl _⟩⟩
  · exact execute_front held (Bool.eq_false_iff.2 done) (not_not.1 stalled)
      (Bool.eq_false_iff.2 excepts)

/-- The hand-over to MEM is no business of the front end. -/
theorem enterMem_still (s : Pipeline δ π) : Still s s.enterMem := by
  unfold enterMem
  split
  · exact ⟨rfl, rfl, rfl, rfl, .refl _⟩
  · exact .refl s

/-- The EXE stage does nothing, or it takes a turn and hands over. -/
theorem exeStage_front (settled : s.exeEnd = true → s.exeStallCycle = 0) :
    Returns (s.exeStage P p B) fun u => s.exe = none ∧ u = s ∨
      ∃ inst v, s.exe = some inst ∧ ExeTurn inst s v ∧ ExeFront inst s v ∧ u = v.enterMem := by
  unfold exeStage
  cases held : s.exe with
  | none => exact (returns_ok _ _).2 (.inl ⟨rfl, rfl⟩)
  | some inst =>
      dsimp only
      rw [returns_map]
      intro v ran
      exact .inr ⟨inst, v, rfl, exeTurn_exeTurn held settled v ran, exeTurn_front held v ran, rfl⟩

/-- MEM is no business of the front end. -/
theorem memStage_still (s : Pipeline δ π) : Still s s.memStage := by
  rcases memStage_cases s with ⟨stays, -⟩ | ⟨inst, marks, -, leaves⟩
  · rw [stays]
    exact .refl s
  · rw [leaves]
    exact ⟨rfl, rfl, rfl, rfl, .refl _⟩

/-! ### The invariant -/

/-- The stages before EXE are in order, and ID has its record. -/
structure InStep (P : Platform δ) (base : RiscvArch δ) (s : Pipeline δ π) : Prop where
  sound : s.frontEnd.Sound
  ready : s.idValid = true → ∀ inst, s.idInst = some inst → inst.info.exception = excIPF ∨
    s.envInfo = some inst.info ∧ s.arch.pc = s.pc ∧ Fetches P base s.pc inst.info

/-- A step that leaves the front end alone leaves it in step with the calls. -/
theorem InStep.still (inStep : InStep P base s) (still : Still s t) : InStep P base t where
  sound := by
    rw [still.front]
    exact inStep.sound
  ready := by
    have valid : t.idValid = s.idValid := congrArg FrontEnd.idValid still.front
    have held : t.idInst = s.idInst := congrArg FrontEnd.idInst still.front
    have here : t.pc = s.pc := congrArg FrontEnd.pc still.front
    rw [valid, held, here, still.env, still.pc]
    exact inStep.ready

/-- An emptied front end is in step with the calls if it fetches at the pc of the next one. -/
theorem Emptied.inStep (emptied : Emptied s.pc s t) : InStep P base t where
  sound := by
    rw [emptied.front]
    exact .inr ⟨s.pc, FrontEnd.drop_aligned { s.frontEnd with idValid := false } s.pc rfl rfl⟩
  ready valid := by
    have empty : t.idValid = false := congrArg FrontEnd.idValid emptied.front
    cases valid.symm.trans empty

/-! ### The call of `updateEnv` -/

/-- `updateEnv` is to be called for `id_inst`: with its record, which is that of the pc. -/
structure AtCall (P : Platform δ) (base : RiscvArch δ) (s : Pipeline δ π) (inst : Inst) : Prop where
  held : s.idInst = some inst
  env : s.envInfo = some inst.info
  here : s.arch.pc = s.pc
  fetches : Fetches P base s.pc inst.info
  drift : Drift base s.arch

/-- A direct jump is taken wherever it goes. -/
theorem taken_of_isDirect {info : DecodeInfo} (direct : info.type.isDirect = true) :
    Taken info := by
  unfold Taken
  cases type : info.type <;> rw [type] at direct <;>
    first | exact trivial | exact absurd direct (by decide)

/-- An instruction that is neither a branch nor a jump is not taken. -/
theorem not_taken_of_plain {info : DecodeInfo} (cond : info.type ≠ .cond)
    (jump : info.type.isJump = false) (direct : info.type.isDirect = false) : ¬ Taken info := by
  unfold Taken
  cases type : info.type <;> rw [type] at cond jump direct <;>
    first
    | exact not_false
    | exact absurd jump (by decide)
    | exact absurd direct (by decide)
    | exact absurd rfl cond

/-- A branch that does as predicted and was not expected to be taken is not taken. -/
theorem not_taken_of_cond {inst : Inst} (cond : inst.info.type = .cond)
    (right : inst.mispredicts = false) (falls : inst.taken = false) : ¬ Taken inst.info := by
  rw [Inst.mispredicts, falls, bne_eq_false_iff_eq, if_neg Bool.false_ne_true] at right
  rw [Taken, cond]
  dsimp only
  rw [not_not]
  simpa using right

/-- The pc after an instruction that does as predicted: where it was predicted to go to, or behind
it. -/
theorem nextPc_of_predicted {pc : Word} (placed : inst.Placed pc)
    (cond : inst.info.type = .cond →
      inst.mispredicts = false ∧ nextPc pc inst.info = inst.nextPc)
    (jump : inst.info.type.isJump = true → nextPc pc inst.info = inst.nextPc)
    (plain : inst.info.type ≠ .cond → inst.info.type.isJump = false →
      inst.info.type.isDirect = false → inst.taken = false) :
    (inst.taken = true → nextPc pc inst.info = inst.nextPc) ∧
      (inst.taken = false → nextPc pc inst.info = pc + inst.info.instSize.setWidth 64) := by
  by_cases branch : inst.info.type = .cond
  · obtain ⟨right, target⟩ := cond branch
    exact ⟨fun _ => target,
      fun falls => nextPc_of_not_taken (not_taken_of_cond branch right falls) pc⟩
  cases jumps : inst.info.type.isJump with
  | true => exact ⟨fun _ => jump jumps, fun falls => absurd (placed.jump jumps) (by simp [falls])⟩
  | false =>
      cases direct : inst.info.type.isDirect with
      | true =>
          obtain ⟨taken, target⟩ := placed.direct direct
          refine ⟨fun _ => ?_, fun falls => absurd taken (by simp [falls])⟩
          rw [nextPc_of_taken (taken_of_isDirect direct), target]
      | false =>
          refine ⟨fun taken => absurd taken (by simp [plain branch jumps direct]), fun _ => ?_⟩
          exact nextPc_of_not_taken (not_taken_of_plain branch jumps direct) pc

/-- Once ID has handed its instruction over, the stages before it are in order or it waits. -/
def Handed (s : Pipeline δ π) : Prop :=
  s.idWaitRedirect = false → ∃ start, FrontEnd.Aligned { s.frontEnd with idValid := false } start

/-- An instruction that does not trap is handed over, unless its block wraps around. -/
theorem checkNext_handed {start : Word} (arch : RiscvArch δ) {pc : Word}
    (aligned : s.frontEnd.Aligned start) (valid : s.idValid = true)
    (held : s.idInst = some inst) (target : nextPc s.pc inst.info = pc) :
    (∃ t, checkNext B { inst with realTarget := pc }
        { s with arch := arch, pc := pc, idInst := some { inst with realTarget := pc } } = .ok t ∧
        t.Handed) ∨
      2 ^ 64 ≤ inst.pc.toNat + 4 ∧ ∃ e, checkNext B { inst with realTarget := pc }
        { s with arch := arch, pc := pc, idInst := some { inst with realTarget := pc } } =
          .error e := by
  obtain ⟨_, held', placed, -⟩ := aligned.held valid
  cases held.symm.trans held'
  have placed : inst.Placed s.pc := placed
  -- The pc has gone where the blocks go on.
  have going (cond : inst.info.type = .cond → inst.mispredicts = false ∧ pc = inst.nextPc)
      (jump : inst.info.type.isJump = true → pc = inst.nextPc)
      (plain : inst.info.type ≠ .cond → inst.info.type.isJump = false →
        inst.info.type.isDirect = false → inst.taken = false) :
      ∃ start, FrontEnd.Aligned { s.frontEnd with
        pc := pc
        idInst := some { inst with realTarget := pc }
        idValid := false } start := by
    rw [← target] at cond jump
    obtain ⟨taken, falls⟩ := nextPc_of_predicted placed cond jump plain
    rw [target] at taken falls
    exact ⟨start, aligned.leave valid held ⟨rfl, rfl, rfl⟩ taken falls⟩
  have quiet : ({ inst with realTarget := pc } : Inst).excepts = false := placed.quiet
  unfold checkNext
  dsimp only
  rw [if_neg (by rw [quiet]; decide)]
  -- The checks of the source in their order: jump, branch, system instruction, block.
  split_ifs with jump cond flush within
  · refine .inl ⟨_, rfl, fun waits => going ?_ ?_ ?_⟩
    · intro cond
      rw [cond] at jump
      cases jump
    · intro _
      simpa [waitRedirect] using waits
    · intro _ plain
      exact absurd jump (ne_true_of_eq_false plain)
  · have cond : inst.info.type = .cond := eq_of_beq cond
    refine .inl ⟨_, rfl, fun waits => going ?_ ?_ ?_⟩
    · intro _
      have waits : (inst.mispredicts || !(pc == inst.nextPc)) = false := waits
      rw [Bool.or_eq_false_iff, Bool.not_eq_false', beq_iff_eq] at waits
      exact waits
    · exact fun other => absurd other jump
    · exact fun other => absurd cond other
  · -- What is fetched already is dropped.
    refine .inl ⟨_, rfl, fun _ => ⟨pc, ?_⟩⟩
    exact FrontEnd.drop_aligned { s.frontEnd with
      pc := pc
      idInst := some { inst with realTarget := pc }
      idValid := false } pc rfl rfl
  · -- A taken plain instruction would have been redirected by the check before.
    have branch : inst.info.type ≠ .cond := fun same => cond (beq_iff_eq.2 same)
    refine .inl ⟨_, rfl, fun _ => going ?_ ?_ ?_⟩
    · exact fun same => absurd same branch
    · exact fun other => absurd other jump
    · intro _ jump direct
      by_contra taken
      have taken := Bool.eq_true_of_not_eq_false taken
      refine flush ?_
      rw [taken, jump, direct, beq_false_of_ne branch]
      exact Bool.or_true _
  · refine .inr ⟨?_, _, rfl⟩
    by_contra fits
    have here := placed.realPc
    have place := placed.place
    have size := placed.size
    refine within ?_
    rw [here, size, Bool.and_eq_true, decide_eq_true_iff, decide_eq_true_iff]
    rw [not_le] at fits
    rcases place with place | place <;> rw [place] <;> constructor <;> bv_omega

/-- The checks move neither the machine nor the pc. -/
structure Checked (s t : Pipeline δ π) : Prop where
  arch : t.arch = s.arch
  here : t.pc = s.pc
  held : t.idInst = s.idInst
  valid : t.idValid = s.idValid

/-- The check of the next pc leaves the front end in one of the states of `Checked`, whatever it
finds. -/
theorem checkNext_checked (B : Predictor π) (inst : Inst) (s : Pipeline δ π) :
    Returns (s.checkNext B inst) (Checked s) := by
  unfold checkNext
  dsimp only
  split_ifs
  all_goals first
    | exact (returns_ok _ _).2 ⟨rfl, rfl, rfl, rfl⟩
    | exact returns_error _ _

/-- A trap makes ID wait. -/
theorem checkNext_trap (excepts : inst.excepts = true) :
    s.checkNext B inst = .ok (s.waitRedirect true) := by
  unfold checkNext
  dsimp only
  rw [if_pos excepts]

/-- What the call of `updateEnv` leaves. -/
structure Updated (P : Platform δ) (inst : Inst) (s t : Pipeline δ π) : Prop where
  updated : s.arch.updateEnv P inst.info = .ok (t.pc, t.arch)
  held : ∃ inst', t.idInst = some inst' ∧ inst'.realTarget = t.pc
  valid : t.idValid = s.idValid
  handed : t.Handed

/-- `updateEnv` returns, and the checks follow. -/
theorem updateEnvAtId_of_ok {info : DecodeInfo} {target : Word} {arch : RiscvArch δ}
    (env : s.envInfo = some info) (ran : s.arch.updateEnv P info = .ok (target, arch)) :
    s.updateEnvAtId P B inst = checkNext B { inst with realTarget := target } { s with
      arch := arch, pc := target, idInst := some { inst with realTarget := target } } := by
  unfold updateEnvAtId
  split
  next none => cases env.symm.trans none
  next record =>
    cases env.symm.trans record
    rw [ran]
    rfl

/-- The call of `updateEnv` is followed by no error, unless the block wraps around. -/
theorem updateEnvAtId_updated (atCall : AtCall P base s inst) (valid : s.idValid = true)
    (kind : inst.excepts = true ∨ ∃ start, s.frontEnd.Aligned start) {target : Word}
    {arch : RiscvArch δ} (ran : s.arch.updateEnv P inst.info = .ok (target, arch)) :
    (∃ t, s.updateEnvAtId P B inst = .ok t ∧ Updated P inst s t) ∨
      2 ^ 64 ≤ inst.pc.toNat + 4 ∧ ∃ e, s.updateEnvAtId P B inst = .error e := by
  rw [updateEnvAtId_of_ok atCall.env ran]
  have leaves (t : Pipeline δ π) (checked : Checked { s with
      arch := arch, pc := target, idInst := some { inst with realTarget := target } } t)
      (handed : t.Handed) : Updated P inst s t := by
    refine ⟨?_, ⟨_, checked.held, checked.here.symm⟩, checked.valid, handed⟩
    rw [ran, checked.arch, checked.here]
  rcases kind with excepts | ⟨start, aligned⟩
  · have trap : ({ inst with realTarget := target } : Inst).excepts = true := excepts
    rw [checkNext_trap trap]
    refine .inl ⟨_, rfl, leaves _ ⟨rfl, rfl, rfl, rfl⟩ ?_⟩
    rintro ⟨⟩
  · obtain ⟨_, held', placed, -⟩ := aligned.held valid
    cases atCall.held.symm.trans held'
    have commits := updateEnv_commit P s.arch (Inst.excepts_eq_false.1 placed.quiet)
    have next : nextPc s.pc inst.info = target := by
      rw [← atCall.here]
      exact (commit_nextPc P s.arch inst.info _ (commits.symm.trans ran)).symm
    rcases checkNext_handed (B := B) arch aligned valid atCall.held next with
      ⟨t, checks, handed⟩ | fails
    · exact .inl ⟨t, checks, leaves t (checkNext_checked B _ _ t checks) handed⟩
    · exact .inr fails

/-! ### ID -/

/-- What `updateEnv` finds: the exception of a fetch is prepared first. -/
def entered (inst : Inst) (s : Pipeline δ π) : Pipeline δ π :=
  if inst.excepts then s.handleException inst else s

/-- ID is to call `updateEnv`. -/
def Calls (s : Pipeline δ π) : Prop :=
  s.idValid = true ∧ s.exe = none ∧ s.idWaitRedirect = false

/-- The page fault of a fetch that ID takes is one. -/
def FaultsNow (P : Platform δ) (s : Pipeline δ π) : Prop :=
  s.Calls → ∀ inst, s.idInst = some inst → inst.info.exception = excIPF →
    ∃ paddr arch, s.arch.translateAddr P s.pc .ifetch excNone = .ok (paddr, excIPF, arch)

/-- `handleException` has a record for `updateEnv` of its own only if the fetch has faulted. -/
theorem handleException_fault (fault : inst.info.exception = excIPF) :
    s.handleException inst = { s with
      arch := { s.arch with pc := s.pc }
      idInst := some { inst with info :=
        { inst.info with excData := s.pc, exception := excIPF } }
      envInfo := some { inst.info with excData := s.pc, exception := excIPF } } := by
  unfold Pipeline.handleException RiscvArch.handleException
  rw [if_pos fault]
  dsimp only
  rw [if_pos fault, fault]

/-- Any other exception leaves `updateEnv` the record that `decode` has made. -/
theorem handleException_other (other : inst.info.exception ≠ excIPF) :
    s.handleException inst = { s with idInst := some inst } := by
  unfold Pipeline.handleException RiscvArch.handleException
  rw [if_neg other]
  dsimp only
  rw [if_neg other]

/-- The record is that of the pc. -/
theorem InStep.entered (inStep : InStep P base s) (drift : Drift base s.arch) (calls : s.Calls)
    (faults : s.FaultsNow P) (held : s.idInst = some inst) :
    ∃ inst', AtCall P base (s.entered inst) inst' ∧ inst'.pc = inst.pc ∧
      (inst'.excepts = true ∨ ∃ start, (s.entered inst).frontEnd.Aligned start) := by
  unfold Pipeline.entered
  split_ifs with excepts
  · by_cases fault : inst.info.exception = excIPF
    · obtain ⟨paddr, arch, translated⟩ := faults calls inst held fault
      rw [handleException_fault fault]
      refine ⟨_, ⟨rfl, rfl, rfl, .faulted s.arch arch inst.info paddr drift translated, ?_⟩, rfl,
        .inl rfl⟩
      exact drift.trans ⟨fun _ _ _ _ => rfl, .inl rfl, rfl, rfl, rfl⟩
    · rw [handleException_other fault]
      rcases inStep.ready calls.1 inst held with fault' | ⟨env, here, fetches⟩
      · exact absurd fault' fault
      · exact ⟨inst, ⟨rfl, env, here, fetches, drift⟩, rfl, .inl excepts⟩
  · rcases inStep.sound with ⟨-, trap⟩ | ordered
    · rw [show s.frontEnd.idInst = some inst from held] at trap
      exact absurd trap excepts
    · rcases inStep.ready calls.1 inst held with fault | ⟨env, here, fetches⟩
      · rw [Inst.excepts, fault] at excepts
        exact absurd rfl excepts
      · exact ⟨inst, ⟨held, env, here, fetches, drift⟩, rfl, .inr ordered⟩

/-- What comes before the call of `updateEnv` leaves the pc and the flags of ID alone. -/
theorem entered_kept (inst : Inst) (s : Pipeline δ π) :
    (s.entered inst).idValid = s.idValid ∧ (s.entered inst).pc = s.pc ∧
      (s.entered inst).idWaitRedirect = s.idWaitRedirect := by
  unfold entered
  split <;> exact ⟨rfl, rfl, rfl⟩

/-- A turn of ID in two parts: the exception first; then the call of `updateEnv`, unless ID
waits. -/
theorem idTurn_entered (inst : Inst) (s : Pipeline δ π) :
    s.idTurn P B inst =
      if !(s.entered inst).idWaitRedirect then
        (s.entered inst).updateEnvAtId P B ((s.entered inst).idInst.getD inst)
      else if 5000 < (s.entered inst).arch.tick - (s.entered inst).waitRedirectTick then
        .error (.aborts .exit)
      else .ok (s.entered inst) := rfl

/-- ID calls `updateEnv`. -/
theorem idStage_calls (calls : s.Calls) (held : s.idInst = some inst) :
    s.idStage P B =
      ((s.entered inst).updateEnvAtId P B ((s.entered inst).idInst.getD inst)).map enterExe := by
  obtain ⟨valid, free, going⟩ := calls
  unfold idStage
  rw [valid, free, if_pos (by rfl), held]
  dsimp only
  rw [idTurn_entered, (entered_kept inst s).2.2, going]
  rfl

/-- While ID waits, what it hands over moves neither the pc nor the machine. -/
theorem idStage_waiting (waits : s.idWaitRedirect = true) :
    Returns (s.idStage P B) fun u => u.pc = s.pc ∧ Drift s.arch u.arch := by
  unfold idStage
  split
  · cases s.idInst with
    | none => exact returns_error _ _
    | some inst =>
        dsimp only
        rw [returns_map, idTurn_entered, (entered_kept inst s).2.2, waits, if_neg (by decide)]
        split
        · exact returns_error _ _
        · refine (returns_ok _ _).2 ⟨(entered_kept inst s).2.1, ?_⟩
          change Drift s.arch (s.entered inst).arch
          unfold Pipeline.entered
          split_ifs
          · by_cases fault : inst.info.exception = excIPF
            · rw [handleException_fault fault]
              exact ⟨fun _ _ _ _ => rfl, .inl rfl, rfl, rfl, rfl⟩
            · rw [handleException_other fault]
              exact .refl _
          · exact .refl _
  · exact (returns_ok _ _).2 ⟨rfl, .refl _⟩

/-- What the call of ID leaves for EXE and for the next one. -/
structure Called (P : Platform δ) (base : RiscvArch δ) (s u : Pipeline δ π) : Prop where
  call : ∃ info a, Fetches P base s.pc info ∧ Drift base a ∧ a.pc = s.pc ∧
    a.updateEnv P info = .ok (u.pc, u.arch)
  issued : ∃ inst, u.exe = some inst ∧ inst.realTarget = u.pc
  inStep : u.idWaitRedirect = false → InStep P u.arch u

/-- The ID stage makes one call or none. The call is in step, and what is fetched after it is in
step with the state it leaves. -/
theorem idStage_called (inStep : InStep P base s) (drift : Drift base s.arch) (calls : s.Calls)
    (faults : s.FaultsNow P) : Returns (s.idStage P B) (Called P base s) := by
  cases held : s.idInst with
  | none =>
      unfold idStage
      rw [calls.1, calls.2.1, if_pos (by rfl), held]
      exact returns_error _ _
  | some inst =>
      obtain ⟨inst', atCall, -, kind⟩ := inStep.entered drift calls faults held
      obtain ⟨valid, here, -⟩ := entered_kept inst s
      rw [idStage_calls calls held, atCall.held, Option.getD_some, returns_map]
      intro v called
      cases ran : (s.entered inst).arch.updateEnv P inst'.info with
      | error e =>
          unfold updateEnvAtId at called
          rw [atCall.env] at called
          dsimp only at called
          rw [ran] at called
          cases called
      | ok r =>
          rcases updateEnvAtId_updated (B := B) atCall (valid.trans calls.1) kind ran with
            ⟨u, called', updated⟩ | ⟨-, e, fails⟩
          · cases called.symm.trans called'
            obtain ⟨ran, ⟨inst'', held', target⟩, -, handed⟩ := updated
            refine ⟨⟨inst'.info, (s.entered inst).arch, ?_, atCall.drift, ?_, ran⟩, ?_, ?_⟩
            · rw [← here]
              exact atCall.fetches
            · rw [← here]
              exact atCall.here
            · refine ⟨{ inst'' with access := none }, ?_, target⟩
              change Option.map _ v.idInst = _
              rw [held']
              rfl
            · intro going
              refine ⟨.inr (handed going), ?_⟩
              rintro ⟨⟩
          · cases called.symm.trans fails

/-! ### The stages before ID -/

/-- A decoding moves the machine, and neither the pc nor the block in fetch. -/
structure Ahead (s t : Pipeline δ π) : Prop where
  drift : Drift s.arch t.arch
  here : t.pc = s.pc
  fetched : t.fetchInst = s.fetchInst

/-- Two decodings in a row. -/
theorem Ahead.trans (first : Ahead s t) (second : Ahead t u) : Ahead s u :=
  ⟨first.drift.trans second.drift, second.here.trans first.here,
    second.fetched.trans first.fetched⟩

/-- `handleException` changes neither the pc nor the block in fetch. -/
theorem handleException_ahead (inst : Inst) (s : Pipeline δ π) :
    Ahead s (s.handleException inst) := by
  by_cases fault : inst.info.exception = excIPF
  · rw [handleException_fault fault]
    exact ⟨⟨fun _ _ _ _ => rfl, .inl rfl, rfl, rfl, rfl⟩, rfl, rfl⟩
  · rw [handleException_other fault]
    exact ⟨.refl _, rfl, rfl⟩

/-- What `decode` moves. -/
theorem decode_drift (P : Platform δ) (a : RiscvArch δ) (vaddr paddr : Word) (slot : DecodeInfo) :
    Returns (a.decode P vaddr paddr slot) fun r => Drift a r.1 ∧ r.1.pc = vaddr := by
  refine (decode_spec P a vaddr paddr slot).mono ?_
  intro r spec
  exact ⟨⟨spec.frame.get, spec.frame.mstatus, spec.frame.ram, spec.frame.ifetchMmuState,
    spec.frame.dataMmuState⟩, spec.frame.pc⟩

/-- Neither does a decoding, whether it predicts or not. -/
theorem preId_ahead (P : Platform δ) (B : Predictor π) (inst : Option Inst) (s : Pipeline δ π) :
    Returns (s.preId P B inst) fun r => Ahead s r.2 := by
  unfold preId
  cases (if s.idRemainSize ≤ 0 then inst else s.idInst) with
  | none => exact returns_error _ _
  | some inst =>
      dsimp only
      rw [returns_bind]
      rintro ⟨paddr, exception, arch⟩ moved
      have frame : ReadFrame s.arch arch :=
        Halt.returns_ofArch (translateAddr_frame P s.arch s.pc .ifetch _) _ moved
      have drift := drift_of_read frame
      dsimp only
      split
      next excepts =>
        refine (returns_pure _ _).2 (Ahead.trans ?_ (handleException_ahead _ _))
        exact ⟨drift, rfl, rfl⟩
      next =>
        rw [returns_bind]
        rintro ⟨arch', info⟩ decoding
        have decoded := Halt.returns_ofArch (decode_drift P arch s.pc paddr _) _ decoding
        have drift := drift.trans decoded.1
        dsimp only
        split
        · exact (returns_pure _ _).2 ⟨drift, rfl, rfl⟩
        · exact (returns_pure _ _).2 ⟨drift, rfl, rfl⟩

/-- ID has the record of what `preId` has decoded. -/
theorem PreId.ready {block : Inst} {left : Int} {r : Bool × Pipeline δ π}
    (pre : PreId P B s block left r) (drift : Drift base s.arch) :
    ∀ inst, r.2.idInst = some inst → inst.info.exception = excIPF ∨
      r.2.envInfo = some inst.info ∧ r.2.arch.pc = r.2.pc ∧ Fetches P base r.2.pc inst.info := by
  cases pre with
  | faults paddr arch ran =>
      rintro inst held
      rw [handleException_fault rfl] at held
      cases held
      exact .inl rfl
  | jumps paddr slot info arch ran decoded taken =>
      rintro inst ⟨⟩
      have here := (decode_drift P s.arch s.pc paddr slot _ decoded).2
      exact .inr ⟨rfl, here, .decoded s.arch arch slot info paddr drift ran decoded⟩
  | falls paddr slot info arch ran decoded falls =>
      rintro inst ⟨⟩
      have here := (decode_drift P s.arch s.pc paddr slot _ decoded).2
      exact .inr ⟨rfl, here, .decoded s.arch arch slot info paddr drift ran decoded⟩

/-- The flags after `preId` on what waits. -/
def afterStall (finish : Bool) (s : Pipeline δ π) : Pipeline δ π :=
  let s := { s with idValid := true }
  if s.idStallDecMore then
    { s with
      idStallDecMore := !finish
      idStallValid := !(finish && !s.idStallInstValid) }
  else if s.idStallInstValid then { s with idStallInstValid := !finish, idStallValid := !finish }
  else s

/-- What the end of a stall leaves, in terms of the front end alone. -/
theorem afterStall_kept (finish : Bool) (s : Pipeline δ π) :
    (s.afterStall finish).frontEnd = s.frontEnd.afterStall finish ∧
      (s.afterStall finish).arch = s.arch ∧ (s.afterStall finish).pc = s.pc ∧
      (s.afterStall finish).fetchInst = s.fetchInst ∧
      (s.afterStall finish).idInst = s.idInst ∧ (s.afterStall finish).envInfo = s.envInfo := by
  unfold afterStall FrontEnd.afterStall
  dsimp only
  change (_ = if s.idStallDecMore then _ else if s.idStallInstValid then _ else _) ∧ _
  split_ifs <;> exact ⟨rfl, rfl, rfl, rfl, rfl, rfl⟩

/-- The stall stage is `preId` on the instruction that waits, and the flags it sets after it. -/
theorem stallStage_eq (P : Platform δ) (B : Predictor π) (s : Pipeline δ π) :
    s.stallStage P B = if !s.idValid && s.idStallValid then
      (s.preId P B s.idStallInst).map fun r => r.2.afterStall r.1 else .ok s := by
  unfold stallStage
  cases !s.idValid && s.idStallValid with
  | false => rfl
  | true =>
      rw [if_pos rfl, if_pos rfl]
      cases s.preId P B s.idStallInst with
      | error e => rfl
      | ok r =>
          obtain ⟨finish, t⟩ := r
          change (if t.idStallDecMore then _ else if t.idStallInstValid then _ else _) =
            Except.ok (afterStall finish t)
          unfold afterStall
          dsimp only
          split_ifs <;> rfl

/-- What waits goes on to ID. -/
theorem stallStage_inStep (P : Platform δ) (base : RiscvArch δ) (B : Predictor π)
    (s : Pipeline δ π) (jumps : B.Jumps) :
    Returns (s.stallStage P B) fun u => Ahead s u ∧ (Drift base s.arch → InStep P base s →
      InStep P base u ∧ (u.idValid = false → u.idStallValid = false)) := by
  rw [stallStage_eq]
  split_ifs with stalled
  · rw [Bool.and_eq_true, Bool.not_eq_true'] at stalled
    obtain ⟨idle, stalled⟩ := stalled
    rw [returns_map]
    intro r ran
    obtain ⟨front, arch, here, fetched, held, env⟩ := afterStall_kept r.1 r.2
    have ahead := preId_ahead P B s.idStallInst s r ran
    refine ⟨⟨?_, ?_, ?_⟩, ?_⟩
    · rw [arch]
      exact ahead.drift
    · rw [here]
      exact ahead.here
    · rw [fetched]
      exact ahead.fetched
    · intro drift inStep
      rcases inStep.sound with ⟨valid, -⟩ | ⟨start, aligned⟩
      · cases valid.symm.trans idle
      · obtain ⟨block, left, goes⟩ := aligned.goesOn idle stalled
        have pre := preId_spec (P := P) (B := B) goes.source goes.quiet goes.bytes r ran
        have sound := aligned.goOn stalled goes (pre.decodes jumps goes.size goes.stands)
        refine ⟨⟨?_, ?_⟩, ?_⟩
        · rw [front]
          exact sound
        · intro _
          rw [held, env, arch, here]
          exact pre.ready drift
        · intro empty
          have valid : (r.2.afterStall r.1).idValid = true := by
            rw [show (r.2.afterStall r.1).idValid = (r.2.afterStall r.1).frontEnd.idValid from rfl,
              front, FrontEnd.afterStall_idValid]
          cases valid.symm.trans empty
  · refine (returns_ok _ _).2 ⟨⟨.refl _, rfl, rfl⟩, fun _ inStep => ⟨inStep, ?_⟩⟩
    intro idle
    rw [idle, Bool.not_false, Bool.true_and] at stalled
    exact Bool.eq_false_iff.2 stalled

/-- The block in fetch traps only if its fetch has faulted. -/
def Coded (s : Pipeline δ π) : Prop :=
  ∀ inst, s.fetchInst = some inst → inst.excepts = true → inst.faulted = true

/-- Between two steps nothing waits for ID while it is empty. -/
def Served (s : Pipeline δ π) : Prop := s.idValid = false → s.idStallValid = false

/-- A fetch translates the pc it is given; the machine drifts at most. -/
theorem translateFetch_block (P : Platform δ) (inst : Inst) (s : Pipeline δ π) :
    Returns (s.translateFetch P inst) fun r =>
      r.1.pc = inst.pc ∧ r.1.size = inst.size ∧ Drift s.arch r.2 := by
  unfold translateFetch
  split
  · exact (returns_ok _ _).2 ⟨rfl, rfl, .refl _⟩
  · rw [returns_bind]
    rintro ⟨paddr, exception, arch⟩ moved
    have frame : ReadFrame s.arch arch :=
      Halt.returns_ofArch (translateAddr_frame P s.arch inst.pc .ifetch _) _ moved
    exact (returns_pure _ _).2 ⟨rfl, rfl, drift_of_read frame⟩

/-- What the last two stages keep. -/
structure Fetched (P : Platform δ) (base : RiscvArch δ) (s u : Pipeline δ π) : Prop where
  drift : Drift s.arch u.arch
  here : u.pc = s.pc
  coded : u.Coded
  inStep : InStep P base s → s.Served → InStep P base u ∧ u.Served

/-- The fetch stage leaves the front end in step: the block it asks for is the one at the next
pc to fetch. -/
theorem fetchStage_inStep (P : Platform δ) (takes : Bool) (base : RiscvArch δ) (coded : s.Coded) :
    Returns (s.fetchStage P takes) (Fetched P base s) := by
  unfold fetchStage
  split
  next fetches =>
    rw [Bool.and_eq_true, Bool.not_eq_true'] at fetches
    obtain ⟨valid, idle⟩ := fetches
    cases held : s.fetchInst with
    | none => exact returns_error _ _
    | some inst =>
        dsimp only
        rw [returns_bind]
        rintro ⟨inst', arch⟩ moved
        obtain ⟨pc, size, drift⟩ := translateFetch_block P inst s _ moved
        obtain ⟨-, only⟩ := translateFetch_faulted P inst s (coded inst held) _ moved
        have kept (u : Pipeline δ π) (same : u.fetchInst = some inst') : u.Coded := by
          rintro _ held'
          cases same.symm.trans held'
          exact only
        -- The blocks are the same ones, with the translation of the last.
        have translated (inStep : InStep P base s) :
            ∃ start, FrontEnd.Aligned { s.frontEnd with fetchInst := some inst' } start := by
          rcases inStep.sound with ⟨busy, -⟩ | ⟨start, aligned⟩
          · cases busy.symm.trans idle
          · exact ⟨start, aligned.translate valid held pc size⟩
        have empty {Q : Prop} (busy : s.idValid = true) : Q := by cases busy.symm.trans idle
        dsimp only
        split
        next excepts =>
          split
          · refine (returns_pure _ _).2
              ⟨drift, rfl, kept _ rfl, fun inStep served => ⟨⟨.inl ⟨rfl, excepts⟩, ?_⟩, ?_⟩⟩
            · rintro - _ ⟨⟩
              exact .inl (eq_of_beq (only excepts))
            · rintro ⟨⟩
          · exact (returns_pure _ _).2 ⟨drift, rfl, kept _ rfl,
              fun inStep served => ⟨⟨.inr (translated inStep), fun busy => empty busy⟩, served⟩⟩
        next silent =>
          split
          · refine (returns_pure _ _).2
              ⟨drift, rfl, kept _ rfl, fun inStep served => ⟨⟨?_, fun busy => empty busy⟩, served⟩⟩
            obtain ⟨start, aligned⟩ := translated inStep
            exact .inr ⟨start, aligned.ask valid rfl (Bool.eq_false_iff.2 silent)⟩
          · exact (returns_pure _ _).2 ⟨drift, rfl, kept _ rfl,
              fun inStep served => ⟨⟨.inr (translated inStep), fun busy => empty busy⟩, served⟩⟩
  next =>
    exact (returns_ok _ _).2 ⟨.refl _, rfl, coded, fun inStep served => ⟨inStep, served⟩⟩

/-- The next instruction to fetch begins where the last one ends. -/
theorem nextFetch_inStep (P : Platform δ) (slot : Inst) (base : RiscvArch δ) (coded : s.Coded) :
    Fetched P base s (s.nextFetch slot) := by
  unfold nextFetch
  split_ifs with free
  · rw [Bool.not_eq_true'] at free
    refine ⟨.refl _, rfl, ?_, fun inStep served => ⟨⟨?_, inStep.ready⟩, served⟩⟩
    · rintro _ ⟨⟩ excepts
      cases excepts
    · rcases inStep.sound with trap | ⟨start, aligned⟩
      · exact .inl trap
      · exact .inr ⟨start, aligned.nextBlock free rfl rfl⟩
  · exact ⟨.refl _, rfl, coded, fun inStep served => ⟨inStep, served⟩⟩

/-- Two parts of the fetch in a row. -/
theorem Fetched.trans (first : Fetched P base s t) (second : Fetched P base t u) :
    Fetched P base s u where
  drift := first.drift.trans second.drift
  here := second.here.trans first.here
  coded := second.coded
  inStep inStep served := by
    obtain ⟨inStep, served⟩ := first.inStep inStep served
    exact second.inStep inStep served

/-- A block arrives, and none is lost. -/
theorem icacheAnswered_inStep (P : Platform δ) (base : RiscvArch δ) (B : Predictor π)
    (s : Pipeline δ π) (jumps : B.Jumps) :
    Returns (s.icacheAnswered P B) fun u => Ahead s u ∧ (Drift base s.arch → InStep P base s →
      s.Served → (s.fetching ≠ [] → s.idValid = true → s.idStallInstValid = false) →
        InStep P base u ∧ u.Served) := by
  unfold icacheAnswered
  cases owed : s.fetching with
  | nil => exact returns_error _ _
  | cons inst rest =>
      dsimp only
      split_ifs with idle
      · rw [Bool.not_eq_true'] at idle
        rw [returns_bind]
        intro r ran
        have ahead := preId_ahead P B (some inst) _ r ran
        refine (returns_pure _ _).2 ⟨⟨ahead.drift, ahead.here, ahead.fetched⟩, ?_⟩
        intro drift inStep served _
        rcases inStep.sound with ⟨busy, -⟩ | ⟨start, aligned⟩
        · cases busy.symm.trans idle
        · obtain ⟨done, -, free⟩ := aligned.done (served idle)
          obtain ⟨quiet, size, pc, -, -⟩ := aligned.oldest free owed
          have stands := (aligned.empty idle).next done
          have pre :=
            preId_spec (P := P) (B := B) (s := { s with fetching := rest, idValid := true })
            (if_pos done) quiet ((if_pos done).trans (by rw [size])) r ran
          have decodes := pre.decodes jumps size (by rw [pc]; exact stands)
          refine ⟨⟨aligned.answer idle (served idle) owed decodes, fun _ => pre.ready drift⟩, ?_⟩
          intro empty
          cases decodes.idValid.symm.trans empty
      · rw [Bool.not_eq_true', Bool.not_eq_false] at idle
        refine (returns_pure _ _).2 ⟨⟨.refl _, rfl, rfl⟩, ?_⟩
        intro drift inStep served free
        refine ⟨⟨?_, inStep.ready⟩, ?_⟩
        · rcases inStep.sound with trap | ⟨start, aligned⟩
          · exact .inl trap
          · exact .inr ⟨start, aligned.hold idle (free (List.cons_ne_nil _ _) idle) owed⟩
        · exact fun empty => absurd empty (by rw [show s.idValid = true from idle]; decide)

/-! ### Stages that leave the block in fetch -/

/-- MEM does not change the instruction to fetch. -/
theorem memStage_fetchInst (s : Pipeline δ π) : s.memStage.fetchInst = s.fetchInst :=
  congrArg FrontEnd.fetchInst (memStage_still s).front

/-- WB does not change the instruction to fetch. -/
theorem wbStage_fetchInst (p : PipelineParams) (B : Predictor π) (s : Pipeline δ π) :
    Returns (s.wbStage p B) fun u => u.fetchInst = s.fetchInst := by
  refine (wbStage_front p B s).mono ?_
  rintro u ⟨-, ⟨-, still, -⟩ | ⟨_, -, -, emptied, -⟩⟩
  · exact congrArg FrontEnd.fetchInst still.front
  · exact congrArg FrontEnd.fetchInst emptied.front

/-- EXE does not change the instruction to fetch. -/
theorem exeStage_fetchInst (P : Platform δ) (p : PipelineParams) (B : Predictor π)
    (s : Pipeline δ π) : Returns (s.exeStage P p B) fun u => u.fetchInst = s.fetchInst := by
  unfold exeStage
  cases held : s.exe with
  | none => exact (returns_ok _ _).2 rfl
  | some inst =>
      dsimp only
      rw [returns_map]
      intro v ran
      refine (congrArg FrontEnd.fetchInst (enterMem_still v).front).trans ?_
      rcases (exeTurn_front held v ran).front with ⟨-, still⟩ | ⟨-, emptied⟩
      · exact congrArg FrontEnd.fetchInst still.front
      · exact congrArg FrontEnd.fetchInst emptied.front

/-- ID does not change the instruction to fetch. -/
theorem idStage_fetchInst (P : Platform δ) (B : Predictor π) (s : Pipeline δ π) :
    Returns (s.idStage P B) fun u => u.fetchInst = s.fetchInst := by
  unfold idStage
  split
  · cases s.idInst with
    | none => exact returns_error _ _
    | some inst =>
        have kept : (s.entered inst).fetchInst = s.fetchInst := by
          unfold Pipeline.entered
          split <;> rfl
        dsimp only
        rw [returns_map, idTurn_entered]
        generalize s.entered inst = u at kept ⊢
        change Returns _ fun v : Pipeline δ π => v.fetchInst = s.fetchInst
        split_ifs
        · unfold updateEnvAtId
          cases u.envInfo with
          | none => exact returns_error _ _
          | some info =>
              dsimp only
              rw [returns_bind]
              rintro ⟨target, arch⟩ -
              unfold checkNext
              dsimp only
              split_ifs
              all_goals first
                | exact (returns_ok _ _).2 kept
                | exact returns_error _ _
        · exact returns_error _ _
        · exact (returns_ok _ _).2 kept
  · exact (returns_ok _ _).2 rfl

/-- The pipeline when `exec` comes to ID. -/
def beforeId (P : Platform δ) (p : PipelineParams) (B : Predictor π) (s : Pipeline δ π) :
    Except Halt (Pipeline δ π) := do
  let s ← s.wbStage p B
  s.memStage.exeStage P p B

end Pipeline

end CPUDelaySim
