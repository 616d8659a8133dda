import CPUDelaySim.Cpu.InStep

/-!
# What the stages call in the instruction cache

The stages call `redirect`, `flush` and `lookup` of the instruction cache in the middle of
`exec`, and `preId` calls `redirect` from the callback of the cache, too. Each call is read off
the state before its stage; the theorems say that `cache_req_list` is emptied exactly with the
calls of `redirect`, and grows exactly with the lookups that are accepted.

The predicates (`flushes`, `idTurns`, `turnsAhead`, `stallTurns`, `answerTurns`, `asks`) are the
conditions under which the source makes the call, spelled out on the state a stage starts from.
A model of the caches can so be run beside the pipeline without threading it through every stage.
`Lane` is what a stage does to the list of requests, and composes.
-/

namespace CPUDelaySim

open Riscv RiscvArch

variable {δ π : Type}

/-- ID calls `redirect` after the instruction, if it does not trap. -/
def Inst.turns (inst : Inst) : Bool :=
  !inst.excepts && !inst.info.type.isJump && !(inst.info.type == .cond) &&
    (needFlush inst.info ||
      !(inst.info.type == .cond || inst.info.type.isJump || inst.info.type.isDirect) && inst.taken)

namespace Pipeline

/-- EXE calls `flush`. -/
def flushes (s : Pipeline δ π) : Bool :=
  s.exe.any (fun inst => !inst.excepts && inst.info.type == .ifence) && !s.exeEnd &&
    s.exeStallCycle == 0

/-- ID calls `redirect` after an instruction that flushes, or that is no branch and was predicted
taken. -/
def idTurns (s : Pipeline δ π) : Bool :=
  s.idValid && s.exe.isNone && !s.idWaitRedirect && s.idInst.any Inst.turns

/-- `preId` calls `redirect`: what it decodes is predicted taken. -/
def turnsAhead (P : Platform δ) (B : Predictor π) (inst : Option Inst) (s : Pipeline δ π) : Bool :=
  match if s.idRemainSize ≤ 0 then inst else s.idInst with
  | none => false
  | some inst =>
      match s.arch.translateAddr P s.pc .ifetch inst.info.exception with
      | .error _ => false
      | .ok (paddr, exception, arch) =>
          if exceptionValid exception then false
          else
            match arch.decode P s.pc paddr { inst.info with exception := exception } with
            | .error _ => false
            | .ok (_, info) => (B.predict s.pc info s.pred).1.taken

/-- What goes on in ID calls `redirect`. -/
def stallTurns (P : Platform δ) (B : Predictor π) (s : Pipeline δ π) : Bool :=
  !s.idValid && s.idStallValid && s.turnsAhead P B s.idStallInst

/-- The callback of the instruction cache calls `redirect`. -/
def answerTurns (P : Platform δ) (B : Predictor π) (s : Pipeline δ π) : Bool :=
  match s.fetching with
  | [] => false
  | inst :: rest =>
      !s.idValid && turnsAhead P B (some inst) { s with fetching := rest, idValid := true }

/-- `fetch_cache_req->req`, if fetch calls `lookup`. -/
def asks (P : Platform δ) (s : Pipeline δ π) : Option CacheReq :=
  if s.fetchValid && !s.idValid then
    match s.fetchInst with
    | none => none
    | some inst =>
        match s.translateFetch P inst with
        | .error _ => none
        | .ok (inst, _) =>
            if inst.excepts then none else some ⟨.readShared, 4, fun _ => 0, inst.paddr⟩
  else none

variable {P : Platform δ} {p : PipelineParams} {B : Predictor π} {s t u : Pipeline δ π}
  {inst : Inst}

/-! ### Redirects -/

/-- What was asked for is dropped by a redirect, and by nothing else. -/
structure Lane (turns : Bool) (s t : Pipeline δ π) : Prop where
  dropped : turns = true →
    t.fetching = [] ∧ t.idStallValid = false ∧ t.idStallDecMore = false ∧
      t.idStallInstValid = false
  kept : turns = false →
    t.fetching = s.fetching ∧ t.idStallValid = s.idStallValid ∧
      t.idStallDecMore = s.idStallDecMore ∧ t.idStallInstValid = s.idStallInstValid

/-- A redirect drops all that is asked of the ICache and all that waits for ID. -/
theorem lane_dropped (front : t.fetching = [] ∧ t.idStallValid = false ∧ t.idStallDecMore = false ∧
    t.idStallInstValid = false) : Lane true s t :=
  ⟨fun _ => front, by rintro ⟨⟩⟩

/-- Without a redirect both stay. -/
theorem lane_kept (front : t.fetching = s.fetching ∧ t.idStallValid = s.idStallValid ∧
    t.idStallDecMore = s.idStallDecMore ∧ t.idStallInstValid = s.idStallInstValid) :
    Lane false s t :=
  ⟨by rintro ⟨⟩, fun _ => front⟩

/-- A step that leaves the front end alone does not turn the lane. -/
theorem Still.lane (still : Still s t) : Lane false s t :=
  lane_kept ⟨congrArg FrontEnd.fetching still.front, congrArg FrontEnd.idStallValid still.front,
    congrArg FrontEnd.idStallDecMore still.front, congrArg FrontEnd.idStallInstValid still.front⟩

/-- A step that empties the front end turns it. -/
theorem Emptied.lane {target : Word} (emptied : Emptied target s t) : Lane true s t :=
  lane_dropped ⟨congrArg FrontEnd.fetching emptied.front,
    congrArg FrontEnd.idStallValid emptied.front, congrArg FrontEnd.idStallDecMore emptied.front,
    congrArg FrontEnd.idStallInstValid emptied.front⟩

/-- A stage that follows one that drops or keeps. -/
theorem Lane.still {turns : Bool} (lane : Lane turns s t) (still : Still t u) : Lane turns s u := by
  obtain ⟨fetching, stalls, more, waits⟩ := still.lane.kept rfl
  constructor
  · intro turned
    rw [fetching, stalls, more, waits]
    exact lane.dropped turned
  · intro goes
    rw [fetching, stalls, more, waits]
    exact lane.kept goes

/-- WB turns the lane exactly for a trap. -/
theorem wbStage_lane (p : PipelineParams) (B : Predictor π) (s : Pipeline δ π) :
    Returns (s.wbStage p B) (Lane (holdsTrap s.wb) s) := by
  refine (wbStage_front p B s).mono ?_
  rintro t ⟨-, ⟨plain, still, -⟩ | ⟨inst, held, excepts, emptied, -⟩⟩
  · rw [plain]
    exact still.lane
  · rw [holdsTrap, held, Option.any_some, excepts]
    exact emptied.lane

/-- EXE turns it exactly for a branch that redirects. -/
theorem exeStage_lane (P : Platform δ) (p : PipelineParams) (B : Predictor π)
    (s : Pipeline δ π) : Returns (s.exeStage P p B) (Lane s.pending s) := by
  unfold exeStage
  cases held : s.exe with
  | none =>
      have idle : s.pending = false := by
        rw [pending, held]
        rfl
      rw [idle]
      exact (returns_ok _ _).2 (Still.refl s).lane
  | some inst =>
      dsimp only
      rw [returns_map]
      intro v ran
      rcases (exeTurn_front held v ran).front with ⟨plain, still⟩ | ⟨turns, emptied⟩
      · rw [plain]
        exact still.lane.still (enterMem_still v)
      · rw [turns]
        exact emptied.lane.still (enterMem_still v)

/-- ID drops what was asked for in a `frontRedirect` only. -/
theorem checkNext_lane (inst : Inst) (t : Pipeline δ π) :
    Returns (t.checkNext B inst) (Lane inst.turns t) := by
  unfold checkNext Inst.turns
  dsimp only
  cases excepts : inst.excepts with
  | true => exact (returns_ok _ _).2 (lane_kept ⟨rfl, rfl, rfl, rfl⟩)
  | false =>
      rw [if_neg Bool.false_ne_true]
      cases jump : inst.info.type.isJump with
      | true => exact (returns_ok _ _).2 (lane_kept ⟨rfl, rfl, rfl, rfl⟩)
      | false =>
          rw [if_neg Bool.false_ne_true]
          cases cond : inst.info.type == InstType.cond with
          | true => exact (returns_ok _ _).2 (lane_kept ⟨rfl, rfl, rfl, rfl⟩)
          | false =>
              rw [if_neg Bool.false_ne_true]
              simp only [Bool.not_false, Bool.true_and]
              split
              next turns =>
                rw [turns]
                exact (returns_ok _ _).2 (lane_dropped ⟨rfl, rfl, rfl, rfl⟩)
              next goes =>
                rw [Bool.eq_false_iff.2 goes]
                split
                · exact (returns_ok _ _).2 (lane_kept ⟨rfl, rfl, rfl, rfl⟩)
                · exact returns_error _ _

/-- ID turns the lane for an instruction after which it redirects. -/
theorem updateEnvAtId_lane (P : Platform δ) (inst : Inst) (t : Pipeline δ π) :
    Returns (t.updateEnvAtId P B inst) (Lane inst.turns t) := by
  unfold updateEnvAtId
  cases t.envInfo with
  | none => exact returns_error _ _
  | some info =>
      dsimp only
      rw [returns_bind]
      rintro ⟨target, arch⟩ -
      refine (checkNext_lane (B := B) { inst with realTarget := target } _).mono ?_
      intro u lane
      exact ⟨lane.dropped, lane.kept⟩

/-- What comes before the call of `updateEnv` does not. -/
theorem entered_still (inst : Inst) (s : Pipeline δ π) : Lane false s (s.entered inst) := by
  unfold entered
  split
  · exact lane_kept ⟨rfl, rfl, rfl, rfl⟩
  · exact lane_kept ⟨rfl, rfl, rfl, rfl⟩

/-- The exception of a fetch is prepared; what ID does after that does not depend on it. -/
theorem entered_turns (held : s.idInst = some inst) :
    ((s.entered inst).idInst.getD inst).turns = inst.turns := by
  unfold entered
  split
  next excepts =>
    have same : ((s.handleException inst).idInst.getD inst).excepts = inst.excepts := by
      change exceptionValid
        (s.arch.handleException inst.info.exception s.pc inst.info).2.exception =
        exceptionValid inst.info.exception
      rw [handleException_exception]
    rw [Inst.turns, Inst.turns, same, excepts]
    rfl
  next =>
    rw [held]
    rfl

/-- The ID stage turns it exactly if `idTurns` says so, which is known before the stage. -/
theorem idStage_lane (P : Platform δ) (B : Predictor π) (s : Pipeline δ π) :
    Returns (s.idStage P B) (Lane s.idTurns s) := by
  unfold idStage idTurns
  cases ready : s.idValid && s.exe.isNone with
  | false => exact (returns_ok _ _).2 (Still.refl s).lane
  | true =>
      cases held : s.idInst with
      | none => exact returns_error _ _
      | some inst =>
          have entered := (entered_still inst s).kept rfl
          rw [if_pos rfl]
          dsimp only
          rw [returns_map, idTurn_entered, (entered_kept inst s).2.2, Option.any_some]
          cases waits : s.idWaitRedirect with
          | true =>
              rw [if_neg (by decide)]
              split
              · exact returns_error _ _
              · exact (returns_ok _ _).2 (lane_kept entered)
          | false =>
              rw [if_pos (by decide)]
              refine (updateEnvAtId_lane P _ (s.entered inst)).mono ?_
              intro u lane
              rw [entered_turns held] at lane
              constructor
              · exact lane.dropped
              · intro goes
                obtain ⟨fetching, stalls, more, waits⟩ := lane.kept goes
                obtain ⟨fetching', stalls', more', waits'⟩ := entered
                exact ⟨fetching.trans fetching', stalls.trans stalls', more.trans more',
                  waits.trans waits'⟩

/-- `preId` drops what was asked for if it predicts taken, and is then finished. -/
theorem preId_lane (P : Platform δ) (B : Predictor π) (wrapper : Option Inst)
    (s : Pipeline δ π) :
    Returns (s.preId P B wrapper) fun r =>
      Lane (s.turnsAhead P B wrapper) s r.2 ∧ r.2.idValid = s.idValid ∧
        (s.turnsAhead P B wrapper = true → r.1 = true) := by
  unfold preId
  cases source : (if s.idRemainSize ≤ 0 then wrapper else s.idInst) with
  | none => exact returns_error _ _
  | some inst =>
      dsimp only
      rw [returns_bind]
      rintro ⟨paddr, exception, arch⟩ moved
      cases translated : s.arch.translateAddr P s.pc .ifetch inst.info.exception with
      | error e =>
          rw [translated] at moved
          cases moved
      | ok r =>
          rw [translated] at moved
          cases moved
          dsimp only
          split
          -- The fetch of the second half faults: nothing is decoded, and nothing dropped.
          next excepts =>
            have excepts : exceptionValid exception = true := excepts
            have goes : s.turnsAhead P B wrapper = false := by
              unfold turnsAhead
              rw [source]
              dsimp only
              rw [translated]
              exact if_pos excepts
            rw [goes]
            exact (returns_pure _ _).2 ⟨lane_kept ⟨rfl, rfl, rfl, rfl⟩, rfl, by rintro ⟨⟩⟩
          next quiet =>
            have quiet : ¬exceptionValid exception = true := quiet
            rw [returns_bind]
            rintro ⟨arch', info⟩ decoding
            cases decoded : arch.decode P s.pc paddr { inst.info with exception := exception } with
            | error e =>
                rw [decoded] at decoding
                cases decoding
            | ok d =>
                rw [decoded] at decoding
                cases decoding
                -- What was asked for is dropped exactly when the prediction is taken.
                have turns : s.turnsAhead P B wrapper = (B.predict s.pc info s.pred).1.taken := by
                  unfold turnsAhead
                  rw [source]
                  dsimp only
                  rw [translated]
                  dsimp only
                  rw [if_neg quiet, decoded]
                dsimp only
                rw [turns]
                split
                next taken =>
                  rw [show (B.predict s.pc info s.pred).1.taken = true from taken]
                  exact (returns_pure _ _).2
                    ⟨lane_dropped ⟨rfl, rfl, rfl, rfl⟩, rfl, fun _ => rfl⟩
                next falls =>
                  rw [show (B.predict s.pc info s.pred).1.taken = false from
                    Bool.eq_false_iff.2 falls]
                  exact (returns_pure _ _).2
                    ⟨lane_kept ⟨rfl, rfl, rfl, rfl⟩, rfl, by rintro ⟨⟩⟩

/-! ### What waits for ID -/

/-- A block that waits in `id_stall_inst` is the last one that was asked for. -/
def Room (s : Pipeline δ π) : Prop :=
  s.idStallInstValid = true → s.idStallValid = true ∧ s.fetching = []

/-- There is room for the next answer after either. -/
theorem Lane.room {turns : Bool} (lane : Lane turns s t) (room : s.Room) : t.Room := by
  intro held
  cases turns with
  | true => cases held.symm.trans (lane.dropped rfl).2.2.2
  | false =>
      obtain ⟨fetching, stalls, -, waits⟩ := lane.kept rfl
      rw [fetching, stalls]
      exact room (waits.symm.trans held)

/-- What is left of a block goes on in ID. -/
theorem stallStage_lane (P : Platform δ) (B : Predictor π) (s : Pipeline δ π) (room : s.Room) :
    Returns (s.stallStage P B) fun t =>
      t.fetching = (if s.stallTurns P B then [] else s.fetching) ∧ t.Room ∧ t.Served := by
  rw [stallStage_eq, stallTurns]
  cases stalled : !s.idValid && s.idStallValid with
  | false =>
      refine (returns_ok _ _).2 ⟨rfl, room, ?_⟩
      intro idle
      rw [idle, Bool.not_false, Bool.true_and] at stalled
      exact stalled
  | true =>
      rw [if_pos rfl, returns_map, Bool.true_and]
      rintro ⟨finish, t⟩ ran
      obtain ⟨lane, -, finishes⟩ := preId_lane P B s.idStallInst s _ ran
      dsimp only at lane finishes ⊢
      have busy : (t.afterStall finish).idValid = true := by
        unfold afterStall
        dsimp only
        split_ifs <;> rfl
      have fetching : (t.afterStall finish).fetching = t.fetching := by
        unfold afterStall
        dsimp only
        split_ifs <;> rfl
      refine ⟨?_, ?_, fun idle => absurd (busy.symm.trans idle) (by decide)⟩
      · rw [fetching]
        cases turns : s.turnsAhead P B s.idStallInst with
        | true => exact (lane.dropped turns).1
        | false => exact (lane.kept turns).1
      · have room := lane.room room
        intro held
        rw [fetching]
        unfold afterStall at held ⊢
        dsimp only at held ⊢
        split_ifs at held ⊢ with more waits
        · refine ⟨?_, (room held).2⟩
          rw [show t.idStallInstValid = true from held, Bool.not_true, Bool.and_false]
          rfl
        · exact ⟨held, (room waits).2⟩
        · exact room held

/-- Fetch appends the block that the cache takes. -/
theorem fetchStage_lane (P : Platform δ) (takes : Bool) (s : Pipeline δ π) :
    Returns (s.fetchStage P takes) fun t =>
      (t.idStallValid = s.idStallValid ∧ t.idStallInstValid = s.idStallInstValid) ∧
      (t.idValid = false → s.idValid = false) ∧
        match s.asks P with
        | none => t.fetching = s.fetching
        | some _ => s.idValid = false ∧
            if takes then ∃ inst, t.fetching = s.fetching ++ [inst]
            else t.fetching = s.fetching := by
  unfold fetchStage asks
  cases fetches : s.fetchValid && !s.idValid with
  | false => exact (returns_ok _ _).2 ⟨⟨rfl, rfl⟩, fun idle => idle, rfl⟩
  | true =>
      obtain ⟨-, idle⟩ := Bool.and_eq_true_iff.1 fetches
      rw [Bool.not_eq_true'] at idle
      rw [if_pos rfl, if_pos rfl]
      cases s.fetchInst with
      | none => exact returns_error _ _
      | some inst =>
          dsimp only
          rw [returns_bind]
          rintro ⟨inst', arch⟩ translated
          rw [translated]
          dsimp only
          split
          next =>
            split
            · refine (returns_pure _ _).2 ⟨⟨rfl, rfl⟩, ?_, rfl⟩
              rintro ⟨⟩
            · exact (returns_pure _ _).2 ⟨⟨rfl, rfl⟩, fun idle => idle, rfl⟩
          next =>
            cases takes with
            | true => exact (returns_pure _ _).2 ⟨⟨rfl, rfl⟩, fun idle => idle, idle, _, rfl⟩
            | false => exact (returns_pure _ _).2 ⟨⟨rfl, rfl⟩, fun idle => idle, idle, rfl⟩

/-- The only block that was asked for arrives. -/
theorem icacheAnswered_lane (P : Platform δ) (B : Predictor π) (s : Pipeline δ π)
    (served : s.Served) (room : s.Room) (only : s.fetching.length ≤ 1) :
    Returns (s.icacheAnswered P B) fun t => t.fetching = [] ∧ t.Room ∧ t.Served := by
  unfold icacheAnswered
  cases owed : s.fetching with
  | nil => exact returns_error _ _
  | cons inst rest =>
      have last : rest = [] := by
        rw [owed, List.length_cons] at only
        exact List.length_eq_zero_iff.1 (by omega)
      subst last
      dsimp only
      split
      next idle =>
        rw [Bool.not_eq_true'] at idle
        rw [returns_bind]
        rintro ⟨finish, t⟩ ran
        obtain ⟨lane, valid, -⟩ :=
          preId_lane P B (some inst) { s with fetching := [], idValid := true } _ ran
        have free : s.idStallInstValid = false := by
          by_contra waits
          cases (served idle).symm.trans (room (Bool.eq_true_of_not_eq_false waits)).1
        have lane : t.fetching = [] ∧ t.idStallInstValid = false := by
          cases turns : turnsAhead P B (some inst) { s with fetching := [], idValid := true } with
          | true => exact ⟨(lane.dropped turns).1, (lane.dropped turns).2.2.2⟩
          | false => exact ⟨(lane.kept turns).1, (lane.kept turns).2.2.2.trans free⟩
        refine (returns_pure _ _).2 ⟨lane.1, ?_, ?_⟩
        · intro waits
          cases lane.2.symm.trans waits
        · intro idle
          cases valid.symm.trans idle
      next busy =>
        rw [Bool.not_eq_true', Bool.not_eq_false] at busy
        refine (returns_pure _ _).2 ⟨rfl, fun _ => ⟨rfl, rfl⟩, ?_⟩
        intro idle
        cases busy.symm.trans idle

/-- `preId` stops in the machine only. -/
theorem preId_avoids (P : Platform δ) (B : Predictor π) (wrapper : Option Inst)
    (s : Pipeline δ π) : Avoids .unasked (s.preId P B wrapper) := by
  have machine {α : Type} (x : Except Abort α) : Avoids .unasked (Halt.ofArch x) := by
    cases x with
    | error e => rintro ⟨⟩
    | ok a => exact avoids_ok _ _
  unfold preId
  cases (if s.idRemainSize ≤ 0 then wrapper else s.idInst) with
  | none => rintro ⟨⟩
  | some inst =>
      dsimp only
      rw [avoids_bind]
      refine ⟨machine _, ?_⟩
      rintro ⟨paddr, exception, arch⟩ -
      dsimp only
      split
      · exact avoids_pure _ _
      · rw [avoids_bind]
        refine ⟨machine _, ?_⟩
        rintro ⟨arch', info⟩ -
        dsimp only
        split <;> exact avoids_pure _ _

/-- The callback pops a list that has a block. -/
theorem icacheAnswered_avoids (P : Platform δ) (B : Predictor π) (s : Pipeline δ π)
    (owed : s.fetching ≠ []) : Avoids .unasked (s.icacheAnswered P B) := by
  unfold icacheAnswered
  cases list : s.fetching with
  | nil => exact absurd list owed
  | cons inst rest =>
      dsimp only
      split
      · rw [avoids_bind]
        exact ⟨preId_avoids P B _ _, fun _ _ => avoids_pure _ _⟩
      · exact avoids_pure _ _

end Pipeline

end CPUDelaySim
