import CPUDelaySim.Cpu.Pipeline
import CPUDelaySim.Cache.Answers
import CPUDelaySim.Riscv.Run

/-!
# When instructions leave MEM

A memory instruction waits in MEM for its flag in `mem_end_map`, which the callback of the data
cache sets, or EXE itself for a store that failed.  The flags are named by slots that come round
again, and `excRedirect` drops the instructions but not their flags.  So one thing has to be kept:
no trap is taken while a flag is set.  Then a flag, the slot it is of and what the data cache
still owes are about the instructions in EXE and MEM (`Back.Sound`), which every stage keeps.

The log of the data cache is the one of its own model, so an answer is an event there, and
`Inst.Answered` finds the one that belongs to an access by its position.  `Sound` has the flags and
what the cache owes on one side, the instructions in EXE and MEM on the other: each flag that is
set is that of an access answered, and the request that is open that of one pending.

A failed `sc` never goes to the data cache; EXE sets its flag at once (`failedSc_sound`), and that
is a flag which a trap in WB can strand.
-/

namespace CPUDelaySim

open Riscv

variable {δ π : Type}

/-! ### The stages from EXE on -/

/-- What the stages from EXE on hold. -/
structure Back where
  exe : Option Inst
  exeStallCycle : Word
  exeEnd : Bool
  mem : Option Inst
  wb : Option Inst
  memTail : Nat
  memEndMap : Nat → Bool
  dcache : CacheSystem DCache.Own

namespace Pipeline

/-- The stages from EXE on. -/
def back (s : Pipeline δ π) : Back :=
  ⟨s.exe, s.exeStallCycle, s.exeEnd, s.mem, s.wb, s.memTail, s.memEndMap, s.dcache⟩

/-- The stages from EXE on, and whether ID waits: what the stages before ID leave alone. -/
def latched (s : Pipeline δ π) : Back × Bool := (s.back, s.idWaitRedirect)

/-- The decoding works on the copy in ID; no stage from EXE on is touched, and the flag of ID
stays. -/
theorem preId_latched (P : Platform δ) (B : Predictor π) (inst : Option Inst)
    (s : Pipeline δ π) : Returns (s.preId P B inst) fun r => r.2.latched = s.latched := by
  unfold preId
  cases (if s.idRemainSize ≤ 0 then inst else s.idInst) with
  | none => exact returns_error _ _
  | some inst =>
      simp only [returns_bind]
      rintro ⟨paddr, exception, arch⟩ -
      dsimp only
      split
      · exact (returns_pure _ _).2 rfl
      · rw [returns_bind]
        rintro ⟨arch, info⟩ -
        dsimp only
        split
        · exact (returns_pure _ _).2 rfl
        · exact (returns_pure _ _).2 rfl

/-- Neither does the second half of an instruction touch them. -/
theorem stallStage_latched (P : Platform δ) (B : Predictor π) (s : Pipeline δ π) :
    Returns (s.stallStage P B) fun t => t.latched = s.latched := by
  unfold stallStage
  split
  · rw [returns_bind]
    refine (preId_latched P B s.idStallInst s).mono ?_
    rintro ⟨finish, t⟩ same
    dsimp only
    split
    · exact (returns_pure _ _).2 same
    · split
      · exact (returns_pure _ _).2 same
      · exact (returns_pure _ _).2 same
  · exact (returns_ok _ _).2 rfl

/-- Neither does the fetch. -/
theorem fetchStage_latched (P : Platform δ) (takes : Bool) (s : Pipeline δ π) :
    Returns (s.fetchStage P takes) fun t => t.latched = s.latched := by
  unfold fetchStage
  split
  · cases s.fetchInst with
    | none => exact returns_error _ _
    | some inst =>
        simp only [returns_bind]
        rintro ⟨inst, arch⟩ -
        dsimp only
        split
        · split
          · exact (returns_pure _ _).2 rfl
          · exact (returns_pure _ _).2 rfl
        · split
          · exact (returns_pure _ _).2 rfl
          · exact (returns_pure _ _).2 rfl
  · exact (returns_ok _ _).2 rfl

/-- Neither does the choice of the next block. -/
theorem nextFetch_latched (slot : Inst) (s : Pipeline δ π) :
    (s.nextFetch slot).latched = s.latched := by
  unfold nextFetch
  split
  · rfl
  · rfl

/-- Neither does an answer of the ICache. -/
theorem icacheAnswered_latched (P : Platform δ) (B : Predictor π) (s : Pipeline δ π) :
    Returns (s.icacheAnswered P B) fun t => t.latched = s.latched := by
  unfold icacheAnswered
  cases s.fetching with
  | nil => exact returns_error _ _
  | cons inst rest =>
      dsimp only
      split
      · rw [returns_bind]
        refine (preId_latched P B (some inst) _).mono ?_
        rintro ⟨finish, t⟩ same
        exact (returns_pure _ _).2 same
      · exact (returns_pure _ _).2 rfl

/-- The check of the next pc raises the flag of ID or redirects the front end, and keeps the
instruction. -/
theorem checkNext_back (B : Predictor π) (inst : Inst) (s : Pipeline δ π) :
    Returns (s.checkNext B inst) fun t => t.back = s.back ∧ t.idInst = s.idInst := by
  unfold checkNext
  dsimp only
  split_ifs
  · exact (returns_ok _ _).2 ⟨rfl, rfl⟩
  · exact (returns_ok _ _).2 ⟨rfl, rfl⟩
  · exact (returns_ok _ _).2 ⟨rfl, rfl⟩
  · exact (returns_ok _ _).2 ⟨rfl, rfl⟩
  · exact (returns_ok _ _).2 ⟨rfl, rfl⟩
  · exact returns_error _ _

/-- The call of `updateEnv` leaves the stages behind ID alone, and an instruction in ID. -/
theorem updateEnvAtId_back (P : Platform δ) (B : Predictor π) (inst : Inst) (s : Pipeline δ π) :
    Returns (s.updateEnvAtId P B inst) fun t => t.back = s.back ∧ t.idInst ≠ none := by
  unfold updateEnvAtId
  cases s.envInfo with
  | none => exact returns_error _ _
  | some info =>
      dsimp only
      rw [returns_bind]
      rintro ⟨target, arch⟩ -
      refine (checkNext_back B _ _).mono ?_
      rintro t ⟨same, held⟩
      exact ⟨same, by rw [held]; nofun⟩

/-- So does a turn of ID. -/
theorem idTurn_back (P : Platform δ) (B : Predictor π) {inst : Inst} {s : Pipeline δ π}
    (held : s.idInst = some inst) :
    Returns (s.idTurn P B inst) fun t => t.back = s.back ∧ t.idInst ≠ none := by
  have entered (u : Pipeline δ π) (same : u.back = s.back) (held : u.idInst ≠ none) :
      Returns (if !u.idWaitRedirect then u.updateEnvAtId P B (u.idInst.getD inst)
        else if 5000 < u.arch.tick - u.waitRedirectTick then .error (.aborts .exit)
        else .ok u) fun t => t.back = s.back ∧ t.idInst ≠ none := by
    split_ifs
    · exact (updateEnvAtId_back P B _ u).mono fun t done => ⟨done.1.trans same, done.2⟩
    · exact returns_error _ _
    · exact (returns_ok _ _).2 ⟨same, held⟩
  unfold idTurn
  dsimp only
  cases inst.excepts with
  | true => exact entered (s.handleException inst) rfl nofun
  | false => exact entered s rfl (by rw [held]; nofun)

/-- An instruction goes on from ID when there is none in EXE. -/
theorem idStage_back (P : Platform δ) (B : Predictor π) (s : Pipeline δ π) :
    Returns (s.idStage P B) fun t => t.back = s.back ∨
      s.exe = none ∧ ∃ inst : Inst, inst.access = none ∧
        t.back = { s.back with exe := some inst } := by
  unfold idStage
  split
  next ready =>
    rw [Bool.and_eq_true, Option.isNone_iff_eq_none] at ready
    cases held : s.idInst with
    | none => exact returns_error _ _
    | some inst =>
        dsimp only
        rw [returns_map]
        refine (idTurn_back P B held).mono ?_
        rintro t ⟨same, held'⟩
        obtain ⟨inst', held'⟩ := Option.ne_none_iff_exists'.1 held'
        refine .inr ⟨ready.2, { inst' with access := none }, rfl, ?_⟩
        rw [← same, enterExe, back, held']
        rfl
  · exact (returns_ok _ _).2 (.inl rfl)

end Pipeline

/-! ### What the flags mean -/

/-- `inst` goes to the data cache. -/
def Inst.accesses (inst : Inst) : Bool := !inst.excepts && inst.info.type.isMem

/-- The data cache has answered the request of the instruction itself, or it is a store that
failed. -/
def Inst.Answered (log : List Event) (inst : Inst) : Prop :=
  match inst.access with
  | none => False
  | some .failedSc => True
  | some (.request index) =>
      log[index]? = some (.accepted inst.memId) ∧ ∃ j, Answers log index j

/-- The data cache owes the answer to the request of the instruction. -/
def Inst.Pending (log : List Event) (inst : Inst) : Prop :=
  ∃ index, inst.access = some (.request index) ∧ log[index]? = some (.accepted inst.memId) ∧
    ∀ (k : Nat) (e : Event), index < k → log[k]? = some e → e.ofParent = true

/-- An answered instruction has had its access. -/
theorem Inst.Answered.access {log : List Event} {inst : Inst} (answered : inst.Answered log) :
    inst.access ≠ none := by
  intro none
  rw [Answered, none] at answered
  exact answered

/-- So has one whose answer is owed. -/
theorem Inst.Pending.access {log : List Event} {inst : Inst} (pending : inst.Pending log) :
    inst.access ≠ none := by
  obtain ⟨index, access, -⟩ := pending
  rw [access]
  nofun

/-- The log goes on. -/
theorem Inst.Answered.append {log : List Event} {inst : Inst} (answered : inst.Answered log)
    (out : List Event) : inst.Answered (log ++ out) := by
  unfold Answered at *
  cases access : inst.access with
  | none =>
      rw [access] at answered
      exact answered
  | some access' =>
      rw [access] at answered
      cases access' with
      | failedSc => trivial
      | request index =>
          obtain ⟨accepted, j, answers⟩ := answered
          have inside := (List.getElem?_eq_some_iff.1 accepted).1
          exact ⟨by rw [List.getElem?_append_left inside, accepted], j, answers.append out⟩

/-- What is still owed has not been answered: no event after the acceptance is for this side. -/
theorem Inst.Pending.not_answered {log : List Event} {inst : Inst} (pending : inst.Pending log) :
    ¬ inst.Answered log := by
  obtain ⟨index, access, -, since⟩ := pending
  rw [Answered, access]
  rintro ⟨-, j, answers⟩
  obtain ⟨id, -, answered⟩ := answers.own
  cases since j _ answers.before answered

/-- What the parent and the cache say to each other leaves a request pending. -/
theorem Inst.Pending.append {log out : List Event} {inst : Inst} (pending : inst.Pending log)
    (quiet : ∀ e ∈ out, e.ofParent = true) : inst.Pending (log ++ out) := by
  obtain ⟨index, access, accepted, since⟩ := pending
  have inside := (List.getElem?_eq_some_iff.1 accepted).1
  refine ⟨index, access, by rw [List.getElem?_append_left inside, accepted], ?_⟩
  intro k e later event
  by_cases old : k < log.length
  · rw [List.getElem?_append_left old] at event
    exact since k e later event
  · rw [List.getElem?_append_right (Nat.le_of_not_lt old)] at event
    exact quiet e (List.mem_of_getElem? event)

/-- The answer that is owed. -/
theorem Inst.Pending.answered {log : List Event} {inst : Inst} (pending : inst.Pending log) :
    inst.Answered (log ++ [.answered inst.memId]) := by
  obtain ⟨index, access, accepted, since⟩ := pending
  have inside := (List.getElem?_eq_some_iff.1 accepted).1
  have accepted' : (log ++ [.answered inst.memId])[index]? = some (.accepted inst.memId) := by
    rw [List.getElem?_append_left inside, accepted]
  rw [Answered, access]
  refine ⟨accepted', log.length, inside, ⟨_, accepted', List.getElem?_concat_length⟩, ?_⟩
  intro k e later early event
  rw [List.getElem?_append_left early] at event
  exact since k e later event

namespace Back

/-- The instructions whose accesses may be under way. -/
def InFlight (b : Back) (inst : Inst) : Prop := b.exe = some inst ∨ b.mem = some inst

/-- The slot an instruction in MEM must not have: that of the access in EXE, or the next one. -/
def nextSlot (b : Back) : Nat :=
  match b.exe with
  | none => b.memTail
  | some inst => if inst.access = none then b.memTail else inst.memId.toNat

/-- The flags, the slots and the data cache agree on the accesses under way. -/
structure Sound (p : PipelineParams) (b : Back) : Prop where
  one : b.dcache.OneRequest
  tracks : b.dcache.Tracks
  tail : b.memTail < p.retireSize
  empty : b.exe = none → b.exeStallCycle = 0 ∧ b.exeEnd = false
  settled : b.exeEnd = true → b.exeStallCycle = 0
  stalls : ∀ inst, b.exe = some inst → b.exeStallCycle ≠ 0 → inst.accesses = false
  begins : ∀ inst, b.exe = some inst → b.exeEnd = false → inst.access = none
  ends : ∀ inst, b.exe = some inst → b.exeEnd = true → inst.accesses = true → inst.access ≠ none
  waits : ∀ inst, b.mem = some inst → inst.accesses = true → inst.access ≠ none
  own : ∀ inst, b.InFlight inst → inst.access ≠ none → inst.accesses = true
  exeSlot : ∀ inst, b.exe = some inst → inst.access ≠ none → inst.memId.toNat ≠ b.memTail
  memSlot : ∀ inst, b.mem = some inst → inst.access ≠ none → inst.memId.toNat ≠ b.nextSlot
  marked : ∀ i, b.memEndMap i = true →
    ∃ inst, b.InFlight inst ∧ inst.memId.toNat = i ∧ inst.Answered b.dcache.log
  pending : ∀ id, waiting b.dcache.log = some id →
    ∃ inst, b.InFlight inst ∧ inst.memId = id ∧ inst.Pending b.dcache.log
  left : ∀ inst, b.wb = some inst → inst.accesses = true → inst.Answered b.dcache.log

variable {p : PipelineParams} {b : Back}

/-- WB empties: the slots of the other stages are as they were. -/
theorem Sound.retire (inv : b.Sound p) : Sound p { b with wb := none } :=
  { inv with left := fun _ held => nomatch held }

/-- An instruction leaves MEM, when what the flags and the data cache know is about EXE. -/
theorem Sound.leaveMem (inv : b.Sound p) (inst : Inst) {marks : Nat → Bool}
    (marked : ∀ i, marks i = true →
      ∃ inst, b.exe = some inst ∧ inst.memId.toNat = i ∧ inst.Answered b.dcache.log)
    (pending : ∀ inst, b.InFlight inst → inst.Pending b.dcache.log → b.exe = some inst)
    (left : inst.accesses = true → inst.Answered b.dcache.log) :
    Sound p { b with memEndMap := marks, mem := none, wb := some inst } := by
  refine { inv with
    waits := fun _ held => nomatch held
    memSlot := fun _ held => nomatch held
    own := ?_, marked := ?_, pending := ?_, left := ?_ }
  · rintro inst' (held | ⟨⟨⟩⟩)
    exact inv.own inst' (.inl held)
  · intro i mark
    obtain ⟨inst', held, slot, answered⟩ := marked i mark
    exact ⟨inst', .inl held, slot, answered⟩
  · intro id owed
    obtain ⟨inst', flight, slot, waits⟩ := inv.pending id owed
    exact ⟨inst', .inl (pending inst' flight waits), slot, waits⟩
  · rintro inst' ⟨⟩ accesses
    exact left accesses

/-- An instruction without an access leaves MEM. -/
theorem Sound.pass (inv : b.Sound p) {inst : Inst} (held : b.mem = some inst)
    (plain : inst.accesses = false) : Sound p { b with mem := none, wb := some inst } := by
  have elsewhere (inst' : Inst) (flight : b.InFlight inst') (started : inst'.access ≠ none) :
      b.exe = some inst' := by
    refine flight.resolve_right fun held' => ?_
    rw [held] at held'
    cases held'
    have accesses := inv.own inst (.inr held) started
    rw [plain] at accesses
    cases accesses
  refine inv.leaveMem inst ?_ ?_ (fun accesses => ?_)
  · intro i mark
    obtain ⟨inst', flight, slot, answered⟩ := inv.marked i mark
    exact ⟨inst', elsewhere inst' flight answered.access, slot, answered⟩
  · intro inst' flight waits
    exact elsewhere inst' flight waits.access
  · rw [plain] at accesses
    cases accesses

/-- An instruction with an access leaves MEM when its slot is marked: the mark is its own. -/
theorem Sound.leave (inv : b.Sound p) {inst : Inst} (held : b.mem = some inst)
    (accesses : inst.accesses = true) (mark : b.memEndMap inst.memId.toNat = true) :
    Sound p { b with
      memEndMap := Function.update b.memEndMap inst.memId.toNat false
      mem := none
      wb := some inst } := by
  have started := inv.waits inst held accesses
  have answered : inst.Answered b.dcache.log := by
    obtain ⟨inst', exe | mem, slot, answered⟩ := inv.marked _ mark
    · have next : b.nextSlot = inst'.memId.toNat := by
        rw [nextSlot, exe]
        exact if_neg answered.access
      exact absurd (slot.symm.trans next.symm) (inv.memSlot inst held started)
    · rw [held] at mem
      cases mem
      exact answered
  refine inv.leaveMem inst ?_ ?_ (fun _ => answered)
  · intro i mark'
    rcases eq_or_ne i inst.memId.toNat with rfl | other
    · rw [Function.update_self] at mark'
      cases mark'
    · rw [Function.update_of_ne other] at mark'
      obtain ⟨inst', flight, slot, answered'⟩ := inv.marked i mark'
      refine ⟨inst', flight.resolve_right fun mem => other ?_, slot, answered'⟩
      rw [held] at mem
      cases mem
      exact slot.symm
  · intro inst' flight waits
    refine flight.resolve_right fun mem => ?_
    rw [held] at mem
    cases mem
    exact waits.not_answered answered

/-- An instruction without an access waits in EXE, or is done. -/
theorem Sound.work (inv : b.Sound p) {inst : Inst} (held : b.exe = some inst)
    (plain : inst.accesses = false) {cycle : Word} {done : Bool}
    (settled : done = true → cycle = 0) :
    Sound p { b with exeStallCycle := cycle, exeEnd := done } := by
  have idle : inst.access = none := by
    by_contra started
    rw [inv.own inst (.inl held) started] at plain
    cases plain
  refine { inv with empty := ?_, settled := settled, stalls := ?_, begins := ?_, ends := ?_ }
  · intro none
    rw [held] at none
    cases none
  all_goals
    intro inst' held'
    obtain rfl : inst = inst' := Option.some.inj (held.symm.trans held')
  · exact fun _ => plain
  · exact fun _ => idle
  · intro _ accesses
    rw [plain] at accesses
    cases accesses

/-- Before its access, the instruction in EXE has taken no slot of `mem_end_map`. -/
theorem nextSlot_of_idle {inst : Inst} (held : b.exe = some inst) (idle : inst.access = none) :
    b.nextSlot = b.memTail := by
  rw [nextSlot, held]
  exact if_pos idle

/-- An access begins in EXE, at the slot the list goes on with. -/
theorem Sound.start (inv : b.Sound p) {inst inst' : Inst} (held : b.exe = some inst)
    (began : b.exeEnd = false) (cycle : b.exeStallCycle = 0) (access : inst'.access ≠ none)
    (accesses : inst'.accesses = true) (slot : inst'.memId.toNat = b.memTail)
    {marks : Nat → Bool} {dcache : CacheSystem DCache.Own} {out : List Event}
    (log : dcache.log = b.dcache.log ++ out) (one : dcache.OneRequest) (tracks : dcache.Tracks)
    (marked : ∀ i, marks i = true →
      b.memEndMap i = true ∨ i = inst'.memId.toNat ∧ inst'.Answered dcache.log)
    (pending : ∀ id, waiting dcache.log = some id →
      (∃ inst, b.mem = some inst ∧ inst.memId = id ∧ inst.Pending dcache.log) ∨
        inst'.memId = id ∧ inst'.Pending dcache.log) :
    Sound p { b with
      exe := some inst'
      exeEnd := true
      memTail := (b.memTail + 1) % p.retireSize
      memEndMap := marks
      dcache := dcache } := by
  have idle : inst.access = none := inv.begins inst held began
  have tail := inv.tail
  have nine := p.nine_le
  have further : inst'.memId.toNat ≠ (b.memTail + 1) % p.retireSize := by
    rw [slot]
    -- The slot before the next one differs from it, also where the list goes round.
    rcases Nat.lt_or_ge (b.memTail + 1) p.retireSize with inside | last
    · rw [Nat.mod_eq_of_lt inside]
      omega
    · rw [show b.memTail + 1 = p.retireSize by omega, Nat.mod_self]
      omega
  refine ⟨one, tracks, Nat.mod_lt _ (by omega), (fun none => nomatch none), fun _ => cycle, ?_,
    (fun _ _ began => nomatch began), ?_, inv.waits, ?_, ?_, ?_, ?_, ?_, ?_⟩
  · intro _ _ stalled
    exact absurd cycle stalled
  · rintro _ ⟨⟩ - -
    exact access
  · rintro inst'' (⟨⟨⟩⟩ | mem) started
    · exact accesses
    · exact inv.own inst'' (.inr mem) started
  · rintro _ ⟨⟩ -
    exact further
  · intro inst'' mem started
    have other := inv.memSlot inst'' mem started
    rw [nextSlot_of_idle held idle, ← slot] at other
    rw [nextSlot]
    dsimp only
    rwa [if_neg access]
  · intro i mark
    rcases marked i mark with old | ⟨rfl, answered⟩
    · -- A flag was set for an instruction that has begun; the one in EXE had not.
      obtain ⟨inst'', exe | mem, slot', answered⟩ := inv.marked i old
      · rw [held] at exe
        cases exe
        exact absurd idle answered.access
      · exact ⟨inst'', .inr mem, slot', log ▸ answered.append out⟩
    · exact ⟨inst', .inl rfl, rfl, answered⟩
  · intro id owed
    rcases pending id owed with ⟨inst'', mem, slot', waits⟩ | ⟨slot', waits⟩
    · exact ⟨inst'', .inr mem, slot', waits⟩
    · exact ⟨inst', .inl rfl, slot', waits⟩
  · intro inst'' held' accesses'
    exact log ▸ (inv.left inst'' held' accesses').append out

/-- A request is refused, and tried again. -/
theorem Sound.refused (inv : b.Sound p) {inst inst' : Inst} (held : b.exe = some inst)
    (began : b.exeEnd = false) (access : inst'.access = none)
    (accesses : inst'.accesses = inst.accesses) :
    Sound p { b with exe := some inst' } := by
  have idle : inst.access = none := inv.begins inst held began
  have elsewhere (inst'' : Inst) (flight : b.InFlight inst'') (started : inst''.access ≠ none) :
      b.mem = some inst'' := by
    refine flight.resolve_left fun held' => ?_
    rw [held] at held'
    cases held'
    exact started idle
  refine { inv with
    empty := fun none => nomatch none
    stalls := ?_, begins := ?_, ends := ?_, own := ?_, exeSlot := ?_, memSlot := ?_
    marked := ?_, pending := ?_ }
  · rintro _ ⟨⟩ stalled
    rw [accesses]
    exact inv.stalls inst held stalled
  · rintro _ ⟨⟩ -
    exact access
  · intro _ _ done
    rw [began] at done
    cases done
  · rintro inst'' (⟨⟨⟩⟩ | mem) started
    · exact absurd access started
    · exact inv.own inst'' (.inr mem) started
  · rintro _ ⟨⟩ started
    exact absurd access started
  · intro inst'' mem started
    have other := inv.memSlot inst'' mem started
    rw [nextSlot_of_idle held idle] at other
    rw [nextSlot]
    dsimp only
    rwa [if_pos access]
  · intro i mark
    obtain ⟨inst'', flight, slot, answered⟩ := inv.marked i mark
    exact ⟨inst'', .inr (elsewhere inst'' flight answered.access), slot, answered⟩
  · intro id owed
    obtain ⟨inst'', flight, slot, waits⟩ := inv.pending id owed
    exact ⟨inst'', .inr (elsewhere inst'' flight waits.access), slot, waits⟩

/-- Requests and snoops that go to the level below change nothing of what waits. -/
theorem waiting_quiet {log out : List Event} (quiet : ∀ e ∈ out, e.ofParent = true) :
    waiting (log ++ out) = waiting log := by
  rw [waiting_append]
  induction out with
  | nil => rfl
  | cons e rest ih =>
      have pass := quiet e List.mem_cons_self
      have same : await (waiting log) e = waiting log := by
        cases e <;> first | rfl | cases pass
      rw [List.foldl_cons, same]
      exact ih fun e' mem => quiet e' (List.mem_cons_of_mem e mem)

/-- The data cache goes on without an answer. -/
theorem Sound.quiet (inv : b.Sound p) {dcache : CacheSystem DCache.Own} {out : List Event}
    (quiet : ∀ e ∈ out, e.ofParent = true) (log : dcache.log = b.dcache.log ++ out)
    (one : dcache.OneRequest) (tracks : dcache.Tracks) : Sound p { b with dcache := dcache } := by
  refine { inv with one := one, tracks := tracks, marked := ?_, pending := ?_, left := ?_ }
  · intro i mark
    obtain ⟨inst, flight, slot, answered⟩ := inv.marked i mark
    exact ⟨inst, flight, slot, log ▸ answered.append out⟩
  · intro id owed
    dsimp only at owed
    rw [log, waiting_quiet quiet] at owed
    obtain ⟨inst, flight, slot, pending⟩ := inv.pending id owed
    exact ⟨inst, flight, slot, log ▸ pending.append quiet⟩
  · intro inst held accesses
    exact log ▸ (inv.left inst held accesses).append out

/-- The data cache answers the request that is pending. -/
theorem Sound.answer (inv : b.Sound p) {dcache : CacheSystem DCache.Own} {out : List Event}
    {id : BitVec 16} (quiet : ∀ e ∈ out, e.ofParent = true) (owed : waiting b.dcache.log = some id)
    (log : dcache.log = b.dcache.log ++ (out ++ [.answered id]))
    (one : dcache.OneRequest) (tracks : dcache.Tracks) :
    Sound p
      { b with memEndMap := Function.update b.memEndMap id.toNat true, dcache := dcache } := by
  refine { inv with one := one, tracks := tracks, marked := ?_, pending := ?_, left := ?_ }
  · intro i mark
    rcases eq_or_ne i id.toNat with rfl | other
    · obtain ⟨inst, flight, rfl, pending⟩ := inv.pending id owed
      refine ⟨inst, flight, rfl, ?_⟩
      dsimp only
      rw [log, ← List.append_assoc]
      exact (pending.append quiet).answered
    · dsimp only at mark
      rw [Function.update_of_ne other] at mark
      obtain ⟨inst, flight, slot, answered⟩ := inv.marked i mark
      exact ⟨inst, flight, slot, log ▸ answered.append _⟩
  · intro id' owed'
    dsimp only at owed'
    rw [log, ← List.append_assoc, waiting_append] at owed'
    cases owed'
  · intro inst held accesses
    exact log ▸ (inv.left inst held accesses).append _

/-- The instruction in EXE goes on to MEM. -/
theorem Sound.enterMem (inv : b.Sound p) (done : b.exeEnd = true) (free : b.mem = none) :
    Sound p { b with exeEnd := false, exe := none, mem := b.exe } := by
  have flight (inst : Inst) (flight : b.InFlight inst) : b.exe = some inst := by
    refine flight.resolve_right fun mem => ?_
    rw [free] at mem
    cases mem
  refine { inv with
    empty := fun _ => ⟨inv.settled done, rfl⟩
    settled := fun done => nomatch done
    stalls := fun _ held => nomatch held
    begins := fun _ held => nomatch held
    ends := fun _ held => nomatch held
    exeSlot := fun _ held => nomatch held
    waits := ?_, own := ?_, memSlot := ?_, marked := ?_, pending := ?_ }
  · intro inst held accesses
    exact inv.ends inst held done accesses
  · rintro inst (⟨⟨⟩⟩ | held) started
    exact inv.own inst (.inl held) started
  · intro inst held started
    exact inv.exeSlot inst held started
  · intro i mark
    obtain ⟨inst, under, slot, answered⟩ := inv.marked i mark
    exact ⟨inst, .inr (flight inst under), slot, answered⟩
  · intro id owed
    obtain ⟨inst, under, slot, pending⟩ := inv.pending id owed
    exact ⟨inst, .inr (flight inst under), slot, pending⟩

/-- An instruction comes to EXE. -/
theorem Sound.enterExe (inv : b.Sound p) (free : b.exe = none) {inst : Inst}
    (idle : inst.access = none) : Sound p { b with exe := some inst } := by
  have began := (inv.empty free).2
  have flight (inst : Inst) (flight : b.InFlight inst) : b.mem = some inst := by
    refine flight.resolve_left fun exe => ?_
    rw [free] at exe
    cases exe
  refine { inv with
    empty := fun none => nomatch none
    stalls := ?_, begins := ?_, ends := ?_, own := ?_, exeSlot := ?_, memSlot := ?_
    marked := ?_, pending := ?_ }
  · intro _ _ stalled
    exact absurd (inv.empty free).1 stalled
  · rintro _ ⟨⟩ -
    exact idle
  · intro _ _ done
    rw [began] at done
    cases done
  · rintro inst' (⟨⟨⟩⟩ | mem) started
    · exact absurd idle started
    · exact inv.own inst' (.inr mem) started
  · rintro _ ⟨⟩ started
    exact absurd idle started
  · intro inst' mem started
    have other := inv.memSlot inst' mem started
    rw [nextSlot, free] at other
    rw [nextSlot]
    dsimp only at *
    rwa [if_pos idle]
  · intro i mark
    obtain ⟨inst', under, slot, answered⟩ := inv.marked i mark
    exact ⟨inst', .inr (flight inst' under), slot, answered⟩
  · intro id owed
    obtain ⟨inst', under, slot, pending⟩ := inv.pending id owed
    exact ⟨inst', .inr (flight inst' under), slot, pending⟩

/-- A trap drops what is in EXE and MEM, and the data cache forgets what it owes. -/
theorem Sound.trap (inv : b.Sound p) (unmarked : ∀ i, b.memEndMap i = false)
    {dcache : CacheSystem DCache.Own} (log : dcache.log = b.dcache.log ++ [.redirected])
    (one : dcache.OneRequest) (tracks : dcache.Tracks) :
    Sound p { b with
      exe := none, exeStallCycle := 0, exeEnd := false, mem := none, wb := none
      dcache := dcache } := by
  have gone {inst : Inst} {q : Prop} (held : none = some inst) : q := nomatch held
  refine ⟨one, tracks, inv.tail, fun _ => ⟨rfl, rfl⟩, (fun done => nomatch done),
    fun _ held => gone held, fun _ held => gone held, fun _ held => gone held,
    fun _ held => gone held, ?_, fun _ held => gone held, fun _ held => gone held, ?_, ?_,
    fun _ held => gone held⟩
  · rintro inst (⟨⟨⟩⟩ | ⟨⟨⟩⟩)
  · intro i mark
    dsimp only at mark
    rw [unmarked i] at mark
    cases mark
  · intro id owed
    dsimp only at owed
    rw [log, waiting_append] at owed
    cases owed

end Back

/-! ### One step -/

namespace Pipeline

variable {P : Platform δ} {p : PipelineParams} {B : Predictor π} {s : Pipeline δ π}

/-- What a call of the data cache leaves of the other stages. -/
theorem callDCache_back (p : PipelineParams) (j : CacheStep) (s : Pipeline δ π) :
    Returns (s.callDCache p j) fun t => ∃ dcache,
      CacheSystem.step (dCache p.dcache) s.dcache j = .ok dcache ∧
        t = { s with dcache := dcache } := by
  unfold callDCache
  cases CacheSystem.step (dCache p.dcache) s.dcache j with
  | error _ => exact returns_error _ _
  | ok dcache => exact (returns_ok _ _).2 ⟨dcache, rfl, rfl⟩

/-- The data cache keeps its own invariants. -/
theorem dcache_step {b : Back} (inv : b.Sound p) {j : CacheStep} {dcache : CacheSystem DCache.Own}
    (moved : CacheSystem.step (dCache p.dcache) b.dcache j = .ok dcache) :
    dcache.OneRequest ∧ dcache.Tracks := by
  have moves := CacheSystem.step_moves (dCache_contract p.dcache) moved
  exact ⟨inv.one.moves moves, inv.tracks.moves inv.one moves⟩

/-- WB retires, or a trap clears what is behind it. -/
theorem retire_sound (inv : s.back.Sound p) : s.retire.back.Sound p := inv.retire

/-- A trap that finds no mark leaves none. -/
theorem wbStage_sound (inv : s.back.Sound p)
    (clean : ∀ inst, s.wb = some inst → inst.excepts = true → ∀ i, s.memEndMap i = false) :
    Returns (s.wbStage p B) fun t => t.back.Sound p := by
  unfold wbStage
  cases held : s.wb with
  | none => exact (returns_ok _ _).2 inv
  | some inst =>
      dsimp only
      split
      next excepts =>
        rw [returns_map]
        refine (callDCache_back p .redirect _).mono ?_
        rintro _ ⟨dcache, moved, rfl⟩
        have kept := dcache_step inv moved
        have log : dcache.log = s.dcache.log ++ [.redirected] := by
          cases moved
          rfl
        exact inv.trap (clean inst held excepts) log kept.1 kept.2
      · exact (returns_ok _ _).2 (retire_sound inv)

/-- The hand-over to WB takes the mark of the slot away, which is that of the instruction. -/
theorem memStage_sound (inv : s.back.Sound p) : s.memStage.back.Sound p := by
  unfold memStage
  cases held : s.mem with
  | none => exact inv
  | some inst =>
      dsimp only
      split_ifs with plain mark
      · refine inv.pass held ?_
        rw [Inst.accesses]
        cases excepts : inst.excepts with
        | true => rfl
        | false =>
            rw [excepts] at plain
            simpa using plain
      · have accesses : inst.accesses = true := by
          rw [Inst.accesses]
          simpa using plain
        exact inv.leave held accesses mark
      · exact inv

/-- The hand-over to MEM keeps the instruction and its slot. -/
theorem enterMem_sound (inv : s.back.Sound p) : s.enterMem.back.Sound p := by
  unfold enterMem
  split
  next ready =>
    rw [Bool.and_eq_true, Option.isNone_iff_eq_none] at ready
    exact inv.enterMem ready.1 ready.2
  · exact inv

/-- The slot at the tail fits the id of a request. -/
theorem tail_toNat (inv : s.back.Sound p) : (BitVec.ofNat 16 s.memTail).toNat = s.memTail := by
  have tail : s.memTail < p.retireSize := inv.tail
  have le := p.le
  rw [BitVec.toNat_ofNat, Nat.mod_eq_of_lt (by omega)]

section Access

variable {inst : Inst} (inv : s.back.Sound p) (held : s.exe = some inst)
  (began : s.exeEnd = false) (cycle : s.exeStallCycle = 0)

include inv held began cycle

/-- A load or store takes the next slot with the request that it sends. -/
theorem memLookup_sound (type : FetchType) (kind : SnoopReq) (accesses : inst.accesses = true) :
    Returns (s.memLookup P p type kind inst) fun t => t.back.Sound p := by
  unfold memLookup
  simp only [returns_bind]
  rintro ⟨paddr, exception, arch⟩ -
  refine (callDCache_back p _ _).mono ?_
  rintro _ ⟨dcache, moved, rfl⟩
  have kept := dcache_step inv moved
  split
  next taken =>
    have log : dcache.log = s.dcache.log ++ [.accepted (BitVec.ofNat 16 s.memTail)] := by
      cases moved
      exact congrArg (s.dcache.log ++ ·) (if_pos taken)
    refine (returns_pure _ _).2 ?_
    refine inv.start held began cycle ?_ ?_ ?_ log kept.1 kept.2 (fun i mark => .inl mark) ?_
    · rintro ⟨⟩
    · exact accesses
    · exact tail_toNat inv
    · intro id owed
      rw [log, waiting_append] at owed
      refine .inr ⟨Option.some.inj owed, s.dcache.log.length, rfl, ?_, ?_⟩
      · rw [log]
        exact List.getElem?_concat_length
      · intro k e later event
        have bound := (List.getElem?_eq_some_iff.1 event).1
        rw [log, List.length_append, List.length_singleton] at bound
        omega
  next refused =>
    have log : dcache.log = s.dcache.log ++ [] := by
      cases moved
      exact congrArg (s.dcache.log ++ ·) (if_neg refused)
    refine (returns_pure _ _).2 ?_
    have quiet := inv.quiet (List.forall_mem_nil _) log kept.1 kept.2
    exact quiet.refused held began (inv.begins inst held began) rfl

/-- A store that is known to fail. -/
theorem failedSc_sound (accesses : inst.accesses = true) :
    Back.Sound p { s.back with
      exe := some { inst with
        memId := BitVec.ofNat 16 s.memTail, access := some .failedSc }
      exeEnd := true
      memTail := (s.memTail + 1) % p.retireSize
      memEndMap := Function.update s.memEndMap (BitVec.ofNat 16 s.memTail).toNat true } := by
  refine inv.start held began cycle ?_ ?_ ?_ (List.append_nil _).symm inv.one inv.tracks ?_ ?_
  · nofun
  · exact accesses
  · exact tail_toNat inv
  · intro i mark
    rcases eq_or_ne i (BitVec.ofNat 16 s.memTail).toNat with rfl | other
    · exact .inr ⟨rfl, trivial⟩
    · rw [Function.update_of_ne other] at mark
      exact .inl mark
  · intro id owed
    obtain ⟨inst', exe | mem, slot, pending⟩ := inv.pending id owed
    · have same : s.exe = some inst' := exe
      rw [held] at same
      cases same
      exact absurd (inv.begins inst held began) pending.access
    · exact .inl ⟨inst', mem, slot, pending⟩

/-- A turn of the claim on EXE: only an instruction with an access sends a request. -/
theorem execute_sound (quiet : inst.excepts = false) :
    Returns (s.execute P p B inst) fun t => t.back.Sound p := by
  have memory (isMem : inst.info.type.isMem = true) : inst.accesses = true := by
    rw [Inst.accesses, quiet, isMem]
    rfl
  have other (notMem : inst.info.type.isMem = false) : inst.accesses = false := by
    rw [Inst.accesses, notMem, Bool.and_false]
  have stalls (notMem : inst.info.type.isMem = false) (c : Word) :
      Back.Sound p { s.back with exeStallCycle := c } := by
    refine inv.work held (other notMem) ?_
    intro done
    exact absurd done (ne_true_of_eq_false began)
  have ends (notMem : inst.info.type.isMem = false) :
      Back.Sound p { s.back with exeEnd := true } :=
    inv.work held (other notMem) fun _ => cycle
  have lookup := memLookup_sound (P := P) inv held began cycle
  unfold execute
  cases type : inst.info.type with
  | load | lr => exact lookup _ _ (memory (by rw [type]; rfl))
  | store | amo => exact lookup _ _ (memory (by rw [type]; rfl))
  | sc =>
      have accesses := memory (by rw [type]; rfl)
      dsimp only
      split
      · exact (returns_ok _ _).2 (failedSc_sound inv held began cycle accesses)
      · exact lookup _ _ accesses
  | mult | div | fadd | fmul | fma | fdiv | fsqrt | fmiscComplex =>
      exact (returns_ok _ _).2 (stalls (by rw [type]; rfl) _)
  | cond | indirect | indCall | indPush | pop | popPush =>
      dsimp only
      split <;> exact (returns_ok _ _).2 (ends (by rw [type]; rfl))
  | fence | sfence =>
      dsimp only
      rw [returns_bind]
      refine (callDCache_back p .flush s).mono ?_
      rintro _ ⟨dcache, moved, rfl⟩
      -- A flush of the data cache answers nobody.
      have kept := dcache_step inv moved
      have log : dcache.log = s.dcache.log ++ [] := by
        cases moved
        exact (List.append_nil _).symm
      exact (returns_pure _ _).2 ((ends (by rw [type]; rfl)).quiet
        (List.forall_mem_nil _) log kept.1 kept.2)
  | direct | push | ifence | int | csrwr | sret | mret | fmiscSimple =>
      exact (returns_ok _ _).2 (ends (by rw [type]; rfl))

end Access

/-- A turn of EXE, also of an exception or of an instruction that counts its cycles. -/
theorem exeTurn_sound {inst : Inst} (inv : s.back.Sound p) (held : s.exe = some inst) :
    Returns (s.exeTurn P p B inst) fun t => t.back.Sound p := by
  unfold exeTurn
  by_cases stalled : s.exeStallCycle ≠ 0
  · rw [if_pos stalled]
    refine (returns_ok _ _).2 (inv.work held (inv.stalls inst held stalled) ?_)
    intro ended
    by_contra going
    rw [if_neg going] at ended
    exact stalled (inv.settled ended)
  rw [if_neg stalled]
  split_ifs with done excepts
  · exact (returns_ok _ _).2 inv
  · have plain : inst.accesses = false := by
      rw [Inst.accesses, excepts]
      rfl
    exact (returns_ok _ _).2 (inv.work held plain fun _ => not_not.1 stalled)
  · exact execute_sound inv held (Bool.eq_false_iff.2 done) (not_not.1 stalled)
      (Bool.eq_false_iff.2 excepts)

/-- The EXE stage keeps the slots of the three stages in order. -/
theorem exeStage_sound (inv : s.back.Sound p) :
    Returns (s.exeStage P p B) fun t => t.back.Sound p := by
  unfold exeStage
  cases held : s.exe with
  | none => exact (returns_ok _ _).2 inv
  | some inst =>
      dsimp only
      rw [returns_map]
      exact (exeTurn_sound inv held).mono fun t done => enterMem_sound done

/-- What comes from ID has had no access yet. -/
theorem idStage_sound (inv : s.back.Sound p) :
    Returns (s.idStage P B) fun t => t.back.Sound p := by
  refine (idStage_back P B s).mono ?_
  rintro t (same | ⟨free, inst, idle, entered⟩)
  · rw [same]
    exact inv
  · rw [entered]
    exact inv.enterExe free idle

/-- The marks are set answer by answer. -/
theorem memAnswered_append (memEndMap : Nat → Bool) (out out' : List Event) :
    memAnswered memEndMap (out ++ out') = memAnswered (memAnswered memEndMap out) out' := by
  induction out generalizing memEndMap with
  | nil => rfl
  | cons e rest ih => cases e <;> exact ih _

/-- What is not for this side sets no mark. -/
theorem memAnswered_quiet (memEndMap : Nat → Bool) {out : List Event}
    (quiet : ∀ e ∈ out, e.ofParent = true) : memAnswered memEndMap out = memEndMap := by
  induction out with
  | nil => rfl
  | cons e rest ih =>
      have rest := ih fun e' mem => quiet e' (List.mem_cons_of_mem e mem)
      have silent := quiet e List.mem_cons_self
      cases e with
      | requested fetch => exact rest
      | served fetch => exact rest
      | accepted id => cases silent
      | answered id => cases silent
      | redirected => cases silent

/-- A tick or an answer of the DCache marks the slot that its request has been given, which is
that of a waiting instruction. -/
theorem runDCache_sound (inv : s.back.Sound p) {j : CacheStep}
    (which : (∃ accepts, j = .tick accepts false) ∨ ∃ index, j = .answer index false) :
    Returns (s.runDCache p j) fun t => t.back.Sound p := by
  unfold runDCache
  rw [returns_bind]
  refine (callDCache_back p j s).mono ?_
  rintro _ ⟨dcache, moved, rfl⟩
  have kept := dcache_step inv moved
  have moves := CacheSystem.step_moves (dCache_contract p.dcache) moved
  obtain ⟨out, quiet, log | ⟨id, owed, log⟩⟩ := inv.tracks.tells inv.one moves which
  · have same : memAnswered s.memEndMap (dcache.log.drop s.dcache.log.length) = s.memEndMap := by
      rw [show dcache.log = s.dcache.log ++ out from log, List.drop_left]
      exact memAnswered_quiet _ quiet
    refine (returns_pure _ _).2 ?_
    rw [back, same]
    exact inv.quiet quiet log kept.1 kept.2
  · have marks : memAnswered s.memEndMap (dcache.log.drop s.dcache.log.length) =
        Function.update s.memEndMap id.toNat true := by
      rw [show dcache.log = s.dcache.log ++ (out ++ [.answered id]) from log, List.drop_left,
        memAnswered_append, memAnswered_quiet _ quiet]
      rfl
    refine (returns_pure _ _).2 ?_
    rw [back, marks]
    exact inv.answer quiet owed log kept.1 kept.2

/-- What `exec` does after the WB stage. -/
theorem exec_latched (P : Platform δ) (p : PipelineParams) (B : Predictor π) (takes : Bool)
    (slot : Inst) (s : Pipeline δ π) :
    Returns (s.exec P p B takes slot) fun t =>
      ∃ u v w, s.wbStage p B = .ok u ∧ u.memStage.exeStage P p B = .ok v ∧
        v.idStage P B = .ok w ∧ t.latched = w.latched := by
  unfold exec
  split
  · exact returns_error _ _
  · simp only [returns_bind, returns_pure]
    intro u retired v executed w entered
    refine (stallStage_latched P B w).mono ?_
    intro w' stalled
    refine (fetchStage_latched P takes w').mono ?_
    intro w'' fetched
    have next := nextFetch_latched slot w''
    exact ⟨u, v, w, retired, executed, entered, next.trans (fetched.trans stalled)⟩

/-- A trap is taken while a slot is marked. -/
def Strands (s : Pipeline δ π) (j : PipelineStep δ) : Prop :=
  (∃ takes slot, j = .exec takes slot) ∧ (∃ inst, s.wb = some inst ∧ inst.excepts = true) ∧
    ∃ i, s.memEndMap i = true

/-- Every step keeps the invariant, unless it takes a trap while a slot is marked. -/
theorem step_sound (inv : s.back.Sound p) {j : PipelineStep δ} (clean : ¬ s.Strands j) :
    Returns (s.step P p B j) fun t => t.back.Sound p := by
  cases j with
  | exec takes slot =>
      refine (exec_latched P p B takes slot s).mono ?_
      rintro t ⟨u, v, w, retired, executed, entered, same⟩
      rw [show t.back = w.back from congrArg Prod.fst same]
      refine idStage_sound (exeStage_sound (memStage_sound ?_) _ executed) _ entered
      refine wbStage_sound inv ?_ _ retired
      intro inst held excepts i
      by_contra mark
      exact clean ⟨⟨takes, slot, rfl⟩, ⟨inst, held, excepts⟩, i, Bool.not_eq_false _ ▸ mark⟩
  | icacheAnswer =>
      refine (icacheAnswered_latched P B s).mono ?_
      intro t same
      rw [show t.back = s.back from congrArg Prod.fst same]
      exact inv
  | dcacheTick accepts => exact runDCache_sound inv (.inl ⟨accepts, rfl⟩)
  | dcacheAnswer index => exact runDCache_sound inv (.inr ⟨index, rfl⟩)
  | device dev irq => exact (returns_ok _ _).2 inv

end Pipeline

/-! ### Nothing leaves MEM early -/

/-- A slot is marked only while the instruction it was marked for is in EXE or MEM, and what
has left MEM for WB has been answered. -/
def Back.OnTime (b : Back) : Prop :=
  (∀ i, b.memEndMap i = true →
    ∃ inst, b.InFlight inst ∧ inst.memId.toNat = i ∧ inst.Answered b.dcache.log) ∧
  ∀ inst, b.wb = some inst → inst.accesses = true → inst.Answered b.dcache.log

namespace Pipeline

variable {P : Platform δ} {p : PipelineParams} {B : Predictor π} {s t : Pipeline δ π}

/-- Nothing has been asked, and nothing is marked. -/
theorem afterLoad_sound (arch : RiscvArch δ) (pred : π) (startPc : Word) :
    (afterLoad p arch pred startPc).back.Sound p where
  one := CacheSystem.start_oneRequest p.dcache _ _
  tracks := CacheSystem.start_tracks p.dcache _ _
  tail := Nat.lt_of_lt_of_le (show 0 < 9 by decide) p.nine_le
  empty _ := ⟨rfl, rfl⟩
  settled done := nomatch done
  stalls _ held := nomatch held
  begins _ held := nomatch held
  ends _ held := nomatch held
  waits _ held := nomatch held
  own := by rintro inst (⟨⟨⟩⟩ | ⟨⟨⟩⟩)
  exeSlot _ held := nomatch held
  memSlot _ held := nomatch held
  marked _ mark := nomatch mark
  pending _ owed := nomatch owed
  left _ held := nomatch held

/-- A mark a trap leaves behind is nobody's. -/
theorem strands_late {j : PipelineStep δ} (strands : s.Strands j)
    (moved : s.step P p B j = .ok t) : ¬ t.back.OnTime := by
  obtain ⟨⟨takes, slot, rfl⟩, ⟨inst, held, excepts⟩, i, mark⟩ := strands
  obtain ⟨u, v, w, retired, executed, entered, kept⟩ := exec_latched P p B takes slot s t moved
  have same : t.back = w.back := congrArg Prod.fst kept
  have dropped : u.exe = none ∧ u.mem = none ∧ u.memEndMap = s.memEndMap := by
    rw [wbStage, held] at retired
    dsimp only at retired
    rw [if_pos excepts] at retired
    refine (returns_map retire _ fun u => u.exe = none ∧ u.mem = none ∧
      u.memEndMap = s.memEndMap).2 ?_ u retired
    refine (callDCache_back p .redirect _).mono ?_
    rintro _ ⟨dcache, -, rfl⟩
    exact ⟨rfl, rfl, rfl⟩
  obtain ⟨exe, mem, marks⟩ := dropped
  have passed : u.memStage = u := by
    rw [memStage, mem]
  rw [passed, exeStage, exe] at executed
  cases executed
  have idle (inst : Inst) (flight : t.back.InFlight inst) : inst.access = none := by
    rw [same] at flight
    rcases idStage_back P B _ w entered with kept | ⟨-, inst', idle, kept⟩
    · rw [kept] at flight
      rcases flight with exe' | mem'
      · cases exe.symm.trans exe'
      · cases mem.symm.trans mem'
    · rw [kept] at flight
      rcases flight with ⟨⟨⟩⟩ | mem'
      · exact idle
      · cases mem.symm.trans mem'
  have marked : t.back.memEndMap i = true := by
    rw [same]
    rcases idStage_back P B _ w entered with kept | ⟨-, inst', -, kept⟩
    · rw [kept]
      exact (congrFun marks i).trans mark
    · rw [kept]
      exact (congrFun marks i).trans mark
  rintro ⟨onTime, -⟩
  obtain ⟨inst', flight, -, answered⟩ := onTime i marked
  exact answered.access (idle inst' flight)

/-- In a run every slot is marked for an instruction in EXE or MEM, and memory instructions
leave MEM answered, exactly when no trap is taken while a slot is marked. `excRedirect` drops
what is in EXE and MEM and leaves `mem_end_map`, so the mark waits for the next instruction that
gets the slot. The log of the data cache says what has been answered. -/
theorem onTime_iff (P : Platform δ) (p : PipelineParams) (B : Predictor π) (arch : RiscvArch δ)
    (pred : π) (startPc : Word) (steps : List (PipelineStep δ)) :
    (∀ before, before <+: steps →
      Returns (runSteps (step P p B) (afterLoad p arch pred startPc) before)
        fun s => s.back.OnTime) ↔
      ∀ s j, Visits (step P p B) (afterLoad p arch pred startPc) steps s j →
        ∀ t, s.step P p B j = .ok t → ¬ s.Strands j := by
  have onTime (u : Pipeline δ π) (inv : u.back.Sound p) : u.back.OnTime := ⟨inv.marked, inv.left⟩
  have start : (afterLoad p arch pred startPc : Pipeline δ π).back.Sound p :=
    afterLoad_sound arch pred startPc
  have keeps (u : Pipeline δ π) (j : PipelineStep δ) (t : Pipeline δ π) (inv : u.back.Sound p)
      (good : ¬ (u.Strands j ∧ ∃ t, u.step P p B j = .ok t)) (moved : u.step P p B j = .ok t) :
      t.back.Sound p ∧ t.back.OnTime := by
    have kept := step_sound inv (fun strands => good ⟨strands, t, moved⟩) t moved
    exact ⟨kept, onTime t kept⟩
  have breaks (u : Pipeline δ π) (j : PipelineStep δ) (_ : u.back.Sound p)
      (bad : u.Strands j ∧ ∃ t, u.step P p B j = .ok t) :
      ∃ t, u.step P p B j = .ok t ∧ ¬ t.back.OnTime := by
    obtain ⟨strands, t, moved⟩ := bad
    exact ⟨t, moved, strands_late strands moved⟩
  refine (runSteps_prefix_returns_iff (fun u : Pipeline δ π => u.back.Sound p) keeps breaks start
    (onTime _ start) steps).trans ?_
  constructor
  · intro good u j visit t moved strands
    exact good u j visit ⟨strands, t, moved⟩
  · rintro good u j visit ⟨strands, t, moved⟩
    exact good u j visit t moved strands

end Pipeline

/-- `auipc ra, 0; addi ra, ra, 16; csrw mtvec, ra; ecall`, and where that traps to, nine times
`sc.w t0, sp, (ra)` and `lw t1, 0(ra)`. -/
def trapImage : Memory Unit :=
  imageOf ([0x00000097, 0x01008093, 0x30509073, 0x00000073] ++ List.replicate 9 0x1820a2af ++
    [0x0000a303])

/-- Ten slots, as configured, and every unit takes one cycle. -/
def tenSlots : PipelineParams :=
  ⟨10, 1, 1, 1, 1, 1, 1, 1, 1, { CacheParams.shipped with way := 4, way_pos := by decide },
    by decide, by decide⟩

/-- A tick, and a block that comes at once. -/
def execFetched : List (PipelineStep Unit) := [.exec true .zero, .icacheAnswer]

/-- Up to the tick `lw` leaves MEM at. -/
def trapSteps : List (PipelineStep Unit) :=
  .exec true .zero :: (List.replicate 7 execFetched).flatten ++
    .exec true .zero :: (List.replicate 10 execFetched).flatten ++
    List.replicate 3 (.exec true .zero)

/-- The store behind the trap fails, and the trap drops it.  After nine more that fail `lw` comes
to its slot, and leaves MEM with its flag. -/
theorem not_onTime_trapSteps :
    ¬ ∀ before, before <+: trapSteps →
      Returns (runSteps (Pipeline.step (ramOnly 4096) tenSlots fallThrough)
        (.afterLoad tenSlots (Machine.reset archCfg trapImage).arch () 0x80000000) before)
        fun s => s.back.OnTime := by
  intro all
  obtain ⟨s, ran, seen⟩ := exists_ok_of_toOption
    (show (runSteps (Pipeline.step (ramOnly 4096) tenSlots fallThrough)
        (.afterLoad tenSlots (Machine.reset archCfg trapImage).arch () 0x80000000)
        trapSteps).toOption.map (fun s =>
          (s.wb.map fun inst => (inst.accesses, inst.access), s.dcache.log)) =
        some (some (true, some (.request 1)), [.redirected, .accepted 0]) by decide +kernel)
  rw [Prod.mk.injEq, Option.map_eq_some_iff] at seen
  obtain ⟨⟨inst, held, loads⟩, log⟩ := seen
  rw [Prod.mk.injEq] at loads
  have answered := (all trapSteps (List.prefix_refl _) s ran).2 inst held loads.1
  rw [Inst.Answered, loads.2] at answered
  obtain ⟨-, j, answers⟩ := answered
  obtain ⟨id, -, told⟩ := answers.own
  have mem := List.mem_of_getElem? told
  rw [show s.back.dcache.log = _ from log] at mem
  simp at mem

end CPUDelaySim
