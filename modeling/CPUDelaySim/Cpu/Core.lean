import CPUDelaySim.Cache.Awaits
import CPUDelaySim.Cpu.Calls
import CPUDelaySim.Cpu.Lockstep

/-!
# The pipeline and its instruction cache

`PipelineCPU` with the `ICache` it fetches from, as `EMU::run` drives the two: the parent answers
the cache, the cache ticks, and `exec` runs. The cache calls `PipelineCPU` back in the middle of
its tick, and `preId` may call `redirect` from there.

A lookup is accepted when the cache has taken up the one before, and that one is answered then or
dropped by a redirect; but only because the cache has ticked since the last `exec`. So
`cache_req_list` holds what the cache owes, which is one block at most: no block arrives while
another one waits in `id_stall_inst`, the callback never finds the list empty, and the calls of
`updateEnv` execute the program.

Three relations tie the two halves together.  `Owes` compares the lengths of `cache_req_list` and
of what the cache owes; `Paired` adds what holds between two steps on each side; and `Sound` adds
the invariant of the pipeline alone, at the number of calls of `updateEnv` made so far.  The proofs
follow the order of `exec`: the redirects of WB, EXE and ID, then the lookup of fetch, each read
off the state before its stage.

`Regular` is what comes out.  It is stated of every state of a run and not only of the last, so it
also says that no callback ever finds its list empty on the way.
-/

namespace CPUDelaySim

open Riscv RiscvArch

variable {δ π : Type}

/-- `PipelineCPU` and its `ICache`. -/
structure Core (δ π : Type) where
  pipe : Pipeline δ π
  icache : CacheSystem ICache.Own
  /-- The caches have ticked since the last `exec`; it stands for the order of `EMU::run`. -/
  ticked : Bool

/-- What `EMU::run` does.  `memory->tick` answers the caches and ticks the devices. -/
inductive CoreStep (δ : Type)
  | icacheAnswer (index : Nat)
  | dcacheAnswer (index : Nat)
  | device (dev : δ) (irq : Option Word)
  | icacheTick (accepts : Bool)
  | dcacheTick (accepts : Bool)
  | exec (slot : Inst)

namespace Core

/-- Nothing has happened yet. -/
def start (ip : CacheParams) (s : Pipeline δ π) : Core δ π :=
  ⟨s, .start (ICache.afterLoad ip), false⟩

/-- The calls of a stage that may call `redirect`. -/
def redirects (turns : Bool) : List CacheStep := if turns then [.redirect] else []

/-- The calls of EXE. -/
def exeCalls (s : Pipeline δ π) : List CacheStep :=
  redirects s.pending ++ if s.flushes then [.flush] else []

/-- Calls of functions of the instruction cache. -/
def calls (ip : CacheParams) (js : List CacheStep) (i : CacheSystem ICache.Own) :
    Except Halt (CacheSystem ICache.Own) :=
  (runSteps (CacheSystem.step (iCache ip)) i js).mapError fun _ => .unasked

/-- A tick of the instruction cache, or an answer of its parent, with the callback. -/
def runICache (P : Platform δ) (ip : CacheParams) (B : Predictor π) (j : Bool → CacheStep)
    (c : Core δ π) : Except Halt (Core δ π) := do
  let i ← calls ip [j (c.pipe.answerTurns P B)] c.icache
  if (i.log.drop c.icache.log.length).any Event.isAnswered then
    let s ← c.pipe.icacheAnswered P B
    return { c with pipe := s, icache := i }
  else return { c with icache := i }

/-- `exec`. -/
def exec (P : Platform δ) (p : PipelineParams) (ip : CacheParams) (B : Predictor π) (slot : Inst)
    (c : Core δ π) : Except Halt (Core δ π) :=
  if !c.ticked then .error .unasked
  else if 5000 < c.pipe.arch.tick - c.pipe.wbTick then .error (.aborts .exit)
  else do
    let s ← c.pipe.wbStage p B
    let i ← calls ip (redirects (holdsTrap c.pipe.wb)) c.icache
    let t ← s.memStage.exeStage P p B
    let i ← calls ip (exeCalls s.memStage) i
    let u ← t.idStage P B
    let i ← calls ip (redirects t.idTurns) i
    let v ← u.stallStage P B
    let i ← calls ip (redirects (u.stallTurns P B)) i
    let takes := (v.asks P).any fun req => (ICache.lookup req i.cache).2
    let i ← calls ip ((v.asks P).toList.map .lookup) i
    let w ← v.fetchStage P takes
    let w := w.nextFetch slot
    return ⟨{ w with arch := { w.arch with tick := w.arch.tick + 1 } }, i, false⟩

/-- A step that is none of the instruction cache. -/
def onPipe (c : Core δ π) (x : Except Halt (Pipeline δ π)) : Except Halt (Core δ π) :=
  x.map fun s => { c with pipe := s }

/-- A step of the core: `exec`, a tick of either cache, an answer of the memory to either, or a
device. -/
def step (P : Platform δ) (p : PipelineParams) (ip : CacheParams) (B : Predictor π)
    (c : Core δ π) : CoreStep δ → Except Halt (Core δ π)
  | .icacheAnswer index => c.runICache P ip B (.answer index)
  | .dcacheAnswer index => c.onPipe (c.pipe.step P p B (.dcacheAnswer index))
  | .device dev irq => c.onPipe (c.pipe.step P p B (.device dev irq))
  | .icacheTick accepts => { c with ticked := true }.runICache P ip B (.tick accepts)
  | .dcacheTick accepts => c.onPipe (c.pipe.step P p B (.dcacheTick accepts))
  | .exec slot => c.exec P p ip B slot

/-! ### What the two agree on -/

/-- `cache_req_list` holds the lookups that are owed an answer. -/
def Owes (s : Pipeline δ π) (i : CacheSystem ICache.Own) : Prop :=
  s.fetching.length = (waiting i.log).toList.length

/-- What holds between two steps. -/
structure Paired (c : Core δ π) : Prop where
  awaits : c.icache.Awaits c.ticked
  owes : Owes c.pipe c.icache
  room : c.pipe.Room
  served : c.pipe.Served

variable {P : Platform δ} {p : PipelineParams} {ip : CacheParams} {B : Predictor π}
  {s t : Pipeline δ π} {i : CacheSystem ICache.Own} {c : Core δ π}

/-- The pipeline waits for one block at most. -/
theorem Owes.only (owes : Owes s i) : s.fetching.length ≤ 1 := by
  rw [owes]
  cases waiting i.log with
  | none => exact Nat.zero_le 1
  | some id => exact Nat.le_refl 1

/-- Nothing is waited for, and nothing is owed. -/
theorem owes_of_none (empty : s.fetching = []) (none : waiting i.log = none) :
    Owes s i := by
  rw [Owes, empty, none]
  rfl

/-- At first the pipeline and the ICache have nothing between them. -/
theorem start_paired (ip : CacheParams) (p : PipelineParams) (arch : RiscvArch δ) (pred : π)
    (startPc : Word) : (start ip (.afterLoad p arch pred startPc)).Paired where
  awaits := CacheSystem.start_awaits ip
  owes := rfl
  room := by rintro ⟨⟩
  served _ := rfl

/-! ### Calls -/

/-- What holds of all that a list of calls returns. -/
theorem returns_calls {js : List CacheStep} {Q : CacheSystem ICache.Own → Prop}
    (ran : Returns (runSteps (CacheSystem.step (iCache ip)) i js) Q) :
    Returns (calls ip js i) Q := by
  intro i' called
  unfold calls at called
  cases moved : runSteps (CacheSystem.step (iCache ip)) i js with
  | error e =>
      rw [moved] at called
      cases called
  | ok after =>
      rw [moved] at called
      cases called
      exact ran _ moved

/-- One call. -/
theorem returns_call {j : CacheStep} {Q : CacheSystem ICache.Own → Prop}
    (ran : Returns (CacheSystem.step (iCache ip) i j) Q) : Returns (calls ip [j] i) Q := by
  refine returns_calls ?_
  rw [runSteps_cons, returns_bind]
  refine ran.mono ?_
  intro i' held
  exact (returns_ok _ _).2 held

/-- The list is emptied with the redirect. -/
theorem redirects_owes {turns : Bool} (awaits : i.Awaits true) (owes : Owes s i)
    (lane : Pipeline.Lane turns s t) :
    Returns (calls ip (redirects turns) i) fun i' => i'.Awaits true ∧ Owes t i' := by
  cases turns with
  | false =>
      refine returns_calls ((returns_ok _ _).2 ⟨awaits, ?_⟩)
      rw [Owes, (lane.kept rfl).1]
      exact owes
  | true =>
      refine returns_call ((awaits.redirect ip).mono ?_)
      rintro i' ⟨awaits, none⟩
      exact ⟨awaits, owes_of_none (lane.dropped rfl).1 none⟩

/-- The redirect of EXE, if there is one, is called on both sides. -/
theorem exeCalls_owes (awaits : i.Awaits true) (owes : Owes s i)
    (lane : Pipeline.Lane s.pending s t) :
    Returns (calls ip (exeCalls s) i) fun i' => i'.Awaits true ∧ Owes t i' := by
  have first : Returns (runSteps (CacheSystem.step (iCache ip)) i (redirects s.pending)) fun i' =>
      i'.Awaits true ∧ Owes t i' := by
    have turned : Returns (calls ip (redirects s.pending) i) fun i' =>
        i'.Awaits true ∧ Owes t i' := redirects_owes awaits owes lane
    intro i' ran
    refine turned i' ?_
    unfold calls
    rw [ran]
    rfl
  unfold exeCalls
  refine returns_calls ?_
  rw [runSteps_append, returns_bind]
  refine first.mono ?_
  rintro i' ⟨awaits, owes⟩
  cases s.flushes with
  | false => exact (returns_ok _ _).2 ⟨awaits, owes⟩
  | true =>
      rw [if_pos rfl, runSteps_cons, returns_bind]
      refine (awaits.flush ip).mono ?_
      rintro i'' ⟨awaits, same⟩
      refine (returns_ok _ _).2 ⟨awaits, ?_⟩
      rw [Owes, same]
      exact owes

/-- The list grows with the lookup. -/
theorem lookup_owes (awaits : i.Awaits true) (owes : Owes s i) (room : s.Room)
    (served : s.Served) :
    Returns (calls ip ((s.asks P).toList.map .lookup) i) fun i' => i'.Awaits false ∧
      Returns (s.fetchStage P ((s.asks P).any fun req => (ICache.lookup req i.cache).2)) fun t =>
        Owes t i' ∧ t.Room ∧ t.Served := by
  have kept (t : Pipeline δ π) (same : t.idStallValid = s.idStallValid ∧
      t.idStallInstValid = s.idStallInstValid) (idle : t.idValid = false → s.idValid = false) :
      t.Served := by
    intro empty
    rw [same.1]
    exact served (idle empty)
  have holds (t : Pipeline δ π) (same : t.idStallValid = s.idStallValid ∧
      t.idStallInstValid = s.idStallInstValid) (fetching : t.fetching = s.fetching) : t.Room := by
    intro waits
    rw [same.1, fetching]
    exact room (same.2.symm.trans waits)
  cases asks : s.asks P with
  | none =>
      refine returns_calls ((returns_ok _ _).2 ⟨awaits.busy, ?_⟩)
      intro t ran
      obtain ⟨same, idle, fetching⟩ := Pipeline.fetchStage_lane P _ s t ran
      rw [asks] at fetching
      refine ⟨?_, holds t same fetching, kept t same idle⟩
      rw [Owes, show t.fetching = s.fetching from fetching]
      exact owes
  | some req =>
      refine returns_call ((awaits.lookup ip req).mono ?_)
      rintro i' ⟨awaits, ⟨refused, log⟩ | ⟨taken, none, log⟩⟩
      · refine ⟨awaits, ?_⟩
        rw [Option.any_some, refused]
        intro t ran
        obtain ⟨same, idle, fetching⟩ := Pipeline.fetchStage_lane P _ s t ran
        rw [asks] at fetching
        have fetching : t.fetching = s.fetching := fetching.2
        refine ⟨?_, holds t same fetching, kept t same idle⟩
        rw [Owes, fetching, log]
        exact owes
      · refine ⟨awaits, ?_⟩
        rw [Option.any_some, taken]
        intro t ran
        obtain ⟨same, idle, fetching⟩ := Pipeline.fetchStage_lane P _ s t ran
        rw [asks] at fetching
        obtain ⟨empty, inst, fetching⟩ := fetching
        have before : s.fetching = [] := by
          rw [Owes, none] at owes
          exact List.length_eq_zero_iff.1 owes
        refine ⟨?_, ?_, kept t same idle⟩
        · obtain ⟨id, log⟩ := Option.isSome_iff_exists.1 log
          rw [Owes, fetching, before, log]
          rfl
        · -- Nothing waits for ID, which is empty.
          intro waits
          have waits := room (same.2.symm.trans waits)
          cases (served empty).symm.trans waits.1

/-! ### Steps -/

/-- `exec` leaves the pipeline and the ICache paired, and is the `exec` of the pipeline with the
answer of the ICache to its lookup. -/
theorem exec_paired (paired : c.Paired) (slot : Inst) :
    Returns (c.exec P p ip B slot) fun d => d.Paired ∧
      ∃ takes, c.pipe.exec P p B takes slot = .ok d.pipe := by
  unfold exec
  split
  · exact returns_error _ _
  next ticked =>
  split
  · exact returns_error _ _
  next late =>
  rw [Bool.not_eq_true', Bool.not_eq_false] at ticked
  have awaits := paired.awaits
  rw [ticked] at awaits
  simp only [returns_bind, returns_pure]
  intro s retired i₁ called₁ t executed i₂ called₂ u decoded i₃ called₃ v stalled i₄ called₄ i₅
    called₅ w fetched
  -- Stage by stage, each with the calls that it makes in the cache.
  have retires := Pipeline.wbStage_lane p B c.pipe s retired
  have room := retires.room paired.room
  obtain ⟨awaits, owes⟩ := redirects_owes awaits paired.owes retires i₁ called₁
  have still := Pipeline.memStage_still s
  have owes : Owes s.memStage i₁ := by
    rw [Owes, (still.lane.kept rfl).1]
    exact owes
  have room := still.lane.room room
  have executes := Pipeline.exeStage_lane P p B s.memStage t executed
  obtain ⟨awaits, owes⟩ := exeCalls_owes awaits owes executes i₂ called₂
  have room := executes.room room
  have decodes := Pipeline.idStage_lane P B t u decoded
  obtain ⟨awaits, owes⟩ := redirects_owes awaits owes decodes i₃ called₃
  have room := decodes.room room
  obtain ⟨fetching, room, served⟩ := Pipeline.stallStage_lane P B u room v stalled
  obtain ⟨awaits, owes⟩ : i₄.Awaits true ∧ Owes v i₄ := by
    -- A redirect from the rest of a block: `redirect` empties what is owed.
    cases turns : u.stallTurns P B with
    | false =>
        rw [turns] at called₄ fetching
        cases called₄
        refine ⟨awaits, ?_⟩
        rw [Owes, fetching]
        exact owes
    | true =>
        rw [turns] at called₄ fetching
        obtain ⟨awaits, none⟩ := returns_call (awaits.redirect ip) i₄ called₄
        exact ⟨awaits, owes_of_none fetching none⟩
  obtain ⟨awaits, after⟩ := lookup_owes awaits owes room served i₅ called₅
  obtain ⟨owes, room, served⟩ := after w fetched
  -- Taking up the next wrapper moves nothing that is owed.
  have next : (w.nextFetch slot).fetching = w.fetching ∧
      (w.nextFetch slot).idStallValid = w.idStallValid ∧
      (w.nextFetch slot).idStallInstValid = w.idStallInstValid ∧
      (w.nextFetch slot).idValid = w.idValid := by
    unfold Pipeline.nextFetch
    split <;> exact ⟨rfl, rfl, rfl, rfl⟩
  obtain ⟨fetching, stalls, waits, valid⟩ := next
  refine ⟨⟨awaits, ?_, ?_, ?_⟩, (v.asks P).any fun req => (ICache.lookup req i₄.cache).2, ?_⟩
  · change (w.nextFetch slot).fetching.length = _
    rw [fetching]
    exact owes
  · change (w.nextFetch slot).idStallInstValid = true →
      (w.nextFetch slot).idStallValid = true ∧ (w.nextFetch slot).fetching = []
    rw [fetching, stalls, waits]
    exact room
  · change (w.nextFetch slot).idValid = false → (w.nextFetch slot).idStallValid = false
    rw [stalls, valid]
    exact served
  · unfold Pipeline.exec
    rw [if_neg late]
    refine (bind_eq_ok _ _ _).2 ⟨s, retired, (bind_eq_ok _ _ _).2 ⟨t, executed, ?_⟩⟩
    refine (bind_eq_ok _ _ _).2 ⟨u, decoded, (bind_eq_ok _ _ _).2 ⟨v, stalled, ?_⟩⟩
    exact (bind_eq_ok _ _ _).2 ⟨w, fetched, rfl⟩

/-- The callback is called when, and only when, a block is owed. -/
theorem runICache_paired {j : Bool → CacheStep} {rested : Bool} (owes : Owes c.pipe c.icache)
    (room : c.pipe.Room) (served : c.pipe.Served)
    (moves : ∀ reenters, Returns (CacheSystem.step (iCache ip) c.icache (j reenters)) fun i =>
      i.Awaits rested ∧ c.icache.Learns i) (ticked : c.ticked = rested) :
    Returns (c.runICache P ip B j) fun d => d.Paired ∧
      (d.pipe = c.pipe ∨ c.pipe.icacheAnswered P B = .ok d.pipe) := by
  unfold runICache
  rw [returns_bind]
  intro i called
  obtain ⟨awaits, out, log, learns⟩ := returns_call (moves _) i called
  rw [← ticked] at awaits
  rw [log, List.drop_left]
  rcases learns with ⟨silent, same⟩ | ⟨told, some, none⟩
  · rw [silent, if_neg Bool.false_ne_true]
    refine (returns_pure _ _).2 ⟨⟨awaits, ?_, room, served⟩, .inl rfl⟩
    rw [Owes, same]
    exact owes
  · rw [told, if_pos rfl, returns_bind]
    intro s answered
    obtain ⟨empty, room, served⟩ :=
      Pipeline.icacheAnswered_lane P B c.pipe served room owes.only s answered
    exact (returns_pure _ _).2 ⟨⟨awaits, owes_of_none empty none, room, served⟩, .inr answered⟩

/-- A page fault of a fetch is one still when ID takes it. -/
def FaultsNow (P : Platform δ) (p : PipelineParams) (B : Predictor π) (c : Core δ π) :
    CoreStep δ → Prop
  | .exec _ => ∀ v, c.pipe.beforeId P p B = .ok v → v.FaultsNow P
  | _ => True

/-- The calls of `updateEnv` in a step. -/
def callsIn (P : Platform δ) (p : PipelineParams) (B : Predictor π) (c : Core δ π) :
    CoreStep δ → Nat
  | .exec slot => c.pipe.callsIn P p B (.exec false slot)
  | _ => 0

/-- The calls of `updateEnv` in a run. -/
def callsMade (P : Platform δ) (p : PipelineParams) (ip : CacheParams) (B : Predictor π) :
    Core δ π → List (CoreStep δ) → Nat
  | _, [] => 0
  | c, j :: rest =>
      c.callsIn P p B j +
        match c.step P p ip B j with
        | .ok d => callsMade P p ip B d rest
        | .error _ => 0

/-- What holds between two steps, with the program, after `n` calls of `updateEnv`. -/
structure Sound (P : Platform δ) (arch : RiscvArch δ) (startPc : Word) (n : Nat) (c : Core δ π) :
    Prop where
  paired : c.Paired
  kept : ∃ t : Numbered δ π, t.pipe = c.pipe ∧ t.calls = n ∧ t.Kept P arch startPc

variable {arch : RiscvArch δ} {startPc : Word} {n : Nat}

/-- A step of the pipeline keeps what the calls of `updateEnv` have executed. -/
theorem kept_of_pipe (jumps : B.Jumps)
    (kept : ∃ t : Numbered δ π, t.pipe = s ∧ t.calls = n ∧ t.Kept P arch startPc)
    {j : PipelineStep δ} (fits : s.Fits P p B j) (moved : s.step P p B j = .ok t) :
    ∃ t' : Numbered δ π,
      t'.pipe = t ∧ t'.calls = n + s.callsIn P p B j ∧ t'.Kept P arch startPc := by
  obtain ⟨u, rfl, rfl, kept⟩ := kept
  have same := Numbered.step_pipe P p B u j
  cases ran : u.step P p B j with
  | error e =>
      rw [ran] at same
      cases same.trans moved
  | ok u' =>
      rw [ran] at same
      exact ⟨u', Except.ok.inj (same.trans moved), Numbered.step_calls j u' ran,
        Numbered.step_kept jumps kept j fits u' ran⟩

/-- A step that moves neither the cache nor the list. -/
theorem onPipe_sound (jumps : B.Jumps) (sound : c.Sound P arch startPc n) {j : PipelineStep δ}
    (fits : c.pipe.Fits P p B j)
    (same : Returns (c.pipe.step P p B j) fun s => s.frontEnd = c.pipe.frontEnd) :
    Returns (c.onPipe (c.pipe.step P p B j))
      (Sound P arch startPc (n + c.pipe.callsIn P p B j)) := by
  rw [onPipe, returns_map]
  intro s moved
  have front := same s moved
  refine ⟨⟨sound.paired.awaits, ?_, ?_, ?_⟩, kept_of_pipe jumps sound.kept fits moved⟩
  · rw [Owes, show s.fetching = c.pipe.fetching from congrArg FrontEnd.fetching front]
    exact sound.paired.owes
  · change s.Room
    rw [Pipeline.Room, show s.idStallInstValid = _ from congrArg FrontEnd.idStallInstValid front,
      show s.idStallValid = _ from congrArg FrontEnd.idStallValid front,
      show s.fetching = _ from congrArg FrontEnd.fetching front]
    exact sound.paired.room
  · change s.Served
    rw [Pipeline.Served, show s.idValid = _ from congrArg FrontEnd.idValid front,
      show s.idStallValid = _ from congrArg FrontEnd.idStallValid front]
    exact sound.paired.served

/-- The DCache leaves the front end alone. -/
theorem runDCache_frontEnd (p : PipelineParams) (j : CacheStep) (s : Pipeline δ π) :
    Returns (s.runDCache p j) fun t => t.frontEnd = s.frontEnd := by
  unfold Pipeline.runDCache
  rw [returns_bind]
  refine (Pipeline.callDCache_back p j s).mono ?_
  rintro _ ⟨dcache, -, rfl⟩
  exact (returns_pure _ _).2 rfl

/-- The block that the callback hands over has room. -/
theorem runICache_sound (p : PipelineParams) (jumps : B.Jumps)
    (kept : ∃ t : Numbered δ π, t.pipe = c.pipe ∧ t.calls = n ∧ t.Kept P arch startPc)
    (room : c.pipe.Room) {x : Except Halt (Core δ π)}
    (moved : Returns x fun d => d.Paired ∧
      (d.pipe = c.pipe ∨ c.pipe.icacheAnswered P B = .ok d.pipe)) :
    Returns x (Sound P arch startPc n) := by
  refine moved.mono ?_
  rintro d ⟨paired, same | answered⟩
  · refine ⟨paired, ?_⟩
    rw [same]
    exact kept
  · refine ⟨paired, kept_of_pipe (p := p) (j := .icacheAnswer) jumps kept ?_ answered⟩
    intro _ owed _
    by_contra waits
    exact owed (room (Bool.eq_true_of_not_eq_false waits)).2

/-- One step: the cache and the list stay paired, and the calls are counted. -/
theorem step_sound (jumps : B.Jumps) (sound : c.Sound P arch startPc n) (j : CoreStep δ)
    (faults : c.FaultsNow P p B j) :
    Returns (c.step P p ip B j) (Sound P arch startPc (n + c.callsIn P p B j)) := by
  obtain ⟨paired, kept⟩ := sound
  cases j with
  | icacheAnswer index =>
      refine runICache_sound p jumps kept paired.room ?_
      exact runICache_paired paired.owes paired.room paired.served
        (fun reenters => paired.awaits.answer ip index reenters) rfl
  | icacheTick accepts =>
      refine runICache_sound p jumps kept paired.room ?_
      exact runICache_paired (c := { c with ticked := true }) paired.owes paired.room paired.served
        (fun reenters => paired.awaits.tick ip accepts reenters) rfl
  | dcacheAnswer index =>
      exact onPipe_sound jumps ⟨paired, kept⟩ trivial (runDCache_frontEnd p _ c.pipe)
  | dcacheTick accepts =>
      exact onPipe_sound jumps ⟨paired, kept⟩ trivial (runDCache_frontEnd p _ c.pipe)
  | device dev irq => exact onPipe_sound jumps ⟨paired, kept⟩ trivial ((returns_ok _ _).2 rfl)
  | exec slot =>
      refine (exec_paired paired slot).mono ?_
      rintro d ⟨paired, takes, moved⟩
      exact ⟨paired, kept_of_pipe (j := .exec takes slot) jumps kept faults moved⟩

/-! ### Runs -/

/-- A tick or an answer calls back only when the list has a block. -/
theorem runICache_avoids {j : Bool → CacheStep} (owes : Owes c.pipe c.icache) {rested : Bool}
    (moves : ∀ reenters, Returns (CacheSystem.step (iCache ip) c.icache (j reenters)) fun i =>
      i.Awaits rested ∧ c.icache.Learns i)
    (runs : ∀ reenters, ∃ i, CacheSystem.step (iCache ip) c.icache (j reenters) = .ok i) :
    Avoids .unasked (c.runICache P ip B j) := by
  unfold runICache
  rw [avoids_bind]
  constructor
  · obtain ⟨i, ran⟩ := runs (c.pipe.answerTurns P B)
    unfold calls
    rw [runSteps_cons, ran]
    exact avoids_ok _ _
  · intro i called
    obtain ⟨-, out, log, learns⟩ := returns_call (moves _) i called
    rw [log, List.drop_left]
    rcases learns with ⟨silent, -⟩ | ⟨told, some, -⟩
    · rw [silent, if_neg Bool.false_ne_true]
      exact avoids_pure _ _
    · rw [told, if_pos rfl, avoids_bind]
      refine ⟨Pipeline.icacheAnswered_avoids P B c.pipe ?_, ?_⟩
      · intro empty
        obtain ⟨id, waits⟩ := Option.isSome_iff_exists.1 some
        rw [Owes, empty, waits] at owes
        cases owes
      · intro s _
        exact avoids_pure _ _

/-- What the simulator may rely on in every state: the `n` calls of `updateEnv` made so far have
executed the program, the list is as long as what the cache owes, a block that waits in
`id_stall_inst` is the last one, and the callback does not find the list empty. -/
structure Regular (P : Platform δ) (p : PipelineParams) (ip : CacheParams) (B : Predictor π)
    (arch : RiscvArch δ) (startPc : Word) (n : Nat) (c : Core δ π) : Prop where
  executes : ∃ base, Executes P arch startPc n base c.pipe.pc ∧ Drift base c.pipe.arch
  owes : Owes c.pipe c.icache
  room : c.pipe.Room
  ticks : ∀ accepts, Avoids .unasked (c.step P p ip B (.icacheTick accepts))
  answers : ∀ index < c.icache.outstanding.length,
    Avoids .unasked (c.step P p ip B (.icacheAnswer index))

/-- A sound core is a regular one. -/
theorem Sound.regular (sound : c.Sound P arch startPc n) :
    c.Regular P p ip B arch startPc n where
  executes := by
    obtain ⟨t, same, rfl, ⟨base, executes, lockstep⟩, -, -⟩ := sound.kept
    rw [← same]
    exact ⟨base, executes, lockstep.drift⟩
  owes := sound.paired.owes
  room := sound.paired.room
  ticks accepts := runICache_avoids (c := { c with ticked := true }) sound.paired.owes
    (fun reenters => sound.paired.awaits.tick ip accepts reenters) fun _ => ⟨_, rfl⟩
  answers index owed := by
    refine runICache_avoids sound.paired.owes
      (fun reenters => sound.paired.awaits.answer ip index reenters) fun reenters => ?_
    rw [CacheSystem.step, List.getElem?_eq_getElem owed]
    exact ⟨_, rfl⟩

/-- Wherever the run comes to, a page fault of a fetch is one still when ID takes it. -/
def RunFaultsNow (P : Platform δ) (p : PipelineParams) (ip : CacheParams) (B : Predictor π)
    (c : Core δ π) (steps : List (CoreStep δ)) : Prop :=
  ∀ d j, Visits (step P p ip B) c steps d j → d.FaultsNow P p B j

/-- The calls of a run add up. -/
theorem run_sound (jumps : B.Jumps) (steps : List (CoreStep δ)) (sound : c.Sound P arch startPc n)
    (faults : RunFaultsNow P p ip B c steps) :
    Returns (runSteps (step P p ip B) c steps)
      (Sound P arch startPc (n + callsMade P p ip B c steps)) := by
  induction steps generalizing c n with
  | nil => exact (returns_ok _ _).2 sound
  | cons j rest ih =>
      rw [runSteps_cons, returns_bind]
      intro d moved
      have next := step_sound jumps sound j (faults c j (.here _ _ _)) d moved
      refine (ih next fun e k visit => faults e k (.later moved visit)).mono ?_
      intro e held
      rw [callsMade, moved, ← Nat.add_assoc]
      exact held

/-- Whatever the caches, the parent and the devices do, the pipeline with its instruction cache
executes the program, one instruction in each call of `updateEnv`, and asks the cache for one
block at a time. `exec` comes after a tick, as in `EMU::run`, so a lookup is taken up or
answered before the next one can overwrite it. The one thing asked of the run is that a page
fault of a fetch is still one when ID takes it. -/
theorem run_regular {σ μ : Type} (P : Platform δ) (p : PipelineParams) (ip : CacheParams)
    (C : PipePredictor σ μ) (arch : RiscvArch δ) (pred : PipePredictorState σ μ) (startPc : Word)
    (steps : List (CoreStep δ))
    (faults : RunFaultsNow P p ip C.toPredictor (start ip (.afterLoad p arch pred startPc)) steps) :
    Returns (runSteps (step P p ip C.toPredictor) (start ip (.afterLoad p arch pred startPc)) steps)
      (Regular P p ip C.toPredictor arch startPc
        (callsMade P p ip C.toPredictor (start ip (.afterLoad p arch pred startPc)) steps)) := by
  have before : (start ip (.afterLoad p arch pred startPc) : Core δ _).Sound P arch startPc 0 :=
    ⟨start_paired ip p arch pred startPc, _, rfl, rfl, Numbered.start_kept P arch pred startPc⟩
  have sound := run_sound C.jumps steps before faults
  rw [Nat.zero_add] at sound
  exact sound.mono fun c held => held.regular

end Core

/-! ### A line that is fetched once -/

/-- One turn of the loop of `EMU::run`, in which the parent answers or not. -/
def emuTurn (answers : Bool) : List (CoreStep Unit) :=
  (if answers then [.icacheAnswer 0] else []) ++ [.icacheTick true, .exec .zero]

/-- The first block misses, and the others are in its line. -/
def lineSteps : List (CoreStep Unit) :=
  (List.replicate 4 (emuTurn false)).flatten ++ emuTurn true ++
    (List.replicate 4 (emuTurn false)).flatten

/-- Before the run. -/
def lineStart : Core Unit (PipePredictorState Unit Unit) := .start tenSlots.dcache branchStart

/-- The short run has no fault that is out of date. -/
theorem lineSteps_faultsNow : Core.RunFaultsNow (ramOnly 4096) tenSlots tenSlots.dcache
    twoTables.toPredictor lineStart lineSteps := by
  have quiet : ∀ before ∈ lineSteps.inits,
      ((runSteps (Core.step (ramOnly 4096) tenSlots tenSlots.dcache twoTables.toPredictor) lineStart
        before).toOption.all fun c =>
          (c.pipe.beforeId (ramOnly 4096) tenSlots twoTables.toPredictor).toOption.all fun v =>
            !v.idInst.any Inst.faulted) = true := by
    decide +kernel
  intro c j visit
  obtain ⟨before, after, split, ran⟩ := (visits_iff _ _ _ _ _).1 visit
  have silent := quiet before ((List.mem_inits before lineSteps).2 ⟨j :: after, split.symm⟩)
  rw [ran] at silent
  cases j with
  | exec slot =>
      intro v came calls inst held fault
      have silent : ((c.pipe.beforeId (ramOnly 4096) tenSlots twoTables.toPredictor).toOption.all
        fun v => !v.idInst.any Inst.faulted) = true := silent
      rw [came] at silent
      have silent : (!v.idInst.any Inst.faulted) = true := silent
      rw [held, Option.any_some, Inst.faulted, fault] at silent
      cases silent
  | icacheAnswer => trivial
  | dcacheAnswer => trivial
  | device => trivial
  | icacheTick => trivial
  | dcacheTick => trivial

/-- A short run of a straight line, in all of its states. -/
theorem run_regular_line :
    Returns (runSteps (Core.step (ramOnly 4096) tenSlots tenSlots.dcache twoTables.toPredictor)
      lineStart lineSteps) (Core.Regular (ramOnly 4096) tenSlots tenSlots.dcache
        twoTables.toPredictor (Machine.reset archCfg branchImage).arch 0x80000000
        (Core.callsMade (ramOnly 4096) tenSlots tenSlots.dcache twoTables.toPredictor lineStart
          lineSteps)) :=
  Core.run_regular (ramOnly 4096) tenSlots tenSlots.dcache twoTables _ _ _ lineSteps
    lineSteps_faultsNow

end CPUDelaySim
