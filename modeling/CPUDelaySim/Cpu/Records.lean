import CPUDelaySim.Cpu.MemEnd
import CPUDelaySim.Cpu.PredictorLog
import CPUDelaySim.Cpu.Training

/-!
# Whose record a redirect reads

An instruction takes the index of its record along from `preId` to EXE and WB.  An instruction whose
fetch page faults, in `exec` or in `preId`, has no call of `predict`: its index is what its object
held before, and the redirect of its trap restores the histories from there.

Every other call reads the record of its own instruction.  No more than three calls of `predict`
lie between that for a trap and its redirect, so four records are enough (`readsOwn_iff`).

`Tagged` is the pipeline with an owner written beside each stage: the event of the ring with which
the instruction there took its record.  The pipeline does not see it.  `Owns` says that the index
an instruction carries is the one of that event and how few records were handed out since, and
`Sound` asks it of every stage that may still read, except for an instruction whose fetch has
faulted.

Each stage has one lemma with two conclusions: `Sound` goes on, and the log grows by reads that
belong to the instruction in the stage (`Grows`).  What lies between a record and its last read is
bounded by the stages ahead of it that hold an instruction.
-/

namespace CPUDelaySim

open Riscv

variable {δ π ρ : Type}

/-! ### Who reads -/

/-- The pipeline with numbers, for each stage the event with which the instruction there took its
record, and for each event of the log the owner of the instruction that caused it. -/
structure Tagged (δ π : Type) where
  run : Numbered δ π
  id : Option Nat
  exe : Option Nat
  mem : Option Nat
  wb : Option Nat
  owners : List (Option Nat)

namespace Tagged

/-- Nothing has been called. -/
def start (s : Pipeline δ π) : Tagged δ π := ⟨.start s, none, none, none, none, []⟩

section Defs

variable (ring : π → Ring ρ) (t : Tagged δ π) (u : Pipeline δ π)

/-- The log before the stage. -/
def log : List (RingEvent ρ) := (ring t.run.pipe.pred).log

/-- What the stage adds to the log is the owner's. -/
def assign (owner : Option Nat) : List (Option Nat) :=
  t.owners ++ List.replicate ((ring u.pred).log.length - (t.log ring).length) owner

/-- After WB: what it has added to the log is the owner's in WB. -/
def afterWb : Tagged δ π :=
  { t with run := t.run.afterWb u, owners := t.assign ring u t.wb }

/-- After MEM: an instruction that is handed over takes its stamp along. -/
def afterMem : Tagged δ π :=
  { t with
    run := t.run.afterMem u
    wb := if t.run.pipe.mem.isSome && u.mem.isNone then t.mem else t.wb }

/-- After EXE: an instruction that is handed over takes its stamp along. -/
def afterExe : Tagged δ π :=
  { t with
    run := t.run.afterExe u
    mem := if t.run.pipe.exe.isSome && u.exe.isNone then t.exe else t.mem
    owners := t.assign ring u t.exe }

/-- After ID: an instruction that is handed over takes its stamp along. -/
def afterId : Tagged δ π :=
  { t with
    run := t.run.afterId u
    exe := if t.run.pipe.idValid && t.run.pipe.exe.isNone then t.id else t.exe
    owners := t.assign ring u t.id }

/-- The event with which the instruction that comes to ID takes its record, if it takes one. -/
def taken : Option Nat :=
  if (t.log ring).length < (ring u.pred).log.length then some (t.log ring).length else none

/-- An instruction has come to ID, or not. -/
def afterFill : Tagged δ π :=
  if !t.run.pipe.idValid && u.idValid then
    { t with
      run := { t.run with pipe := u }
      id := t.taken ring u
      owners := t.assign ring u (t.taken ring u) }
  else { t with run := { t.run with pipe := u } }

end Defs

/-- `exec`. -/
def exec (P : Platform δ) (p : PipelineParams) (B : Predictor π) (ring : π → Ring ρ) (takes : Bool)
    (slot : Inst) (t : Tagged δ π) : Except Halt (Tagged δ π) :=
  if 5000 < t.run.pipe.arch.tick - t.run.pipe.wbTick then .error (.aborts .exit)
  else do
    let u ← t.run.pipe.wbStage p B
    let t := t.afterWb ring u
    let t := t.afterMem t.run.pipe.memStage
    let u ← t.run.pipe.exeStage P p B
    let t := t.afterExe ring u
    let u ← t.run.pipe.idStage P B
    let t := t.afterId ring u
    let u ← t.run.pipe.stallStage P B
    let t := t.afterFill ring u
    let u ← t.run.pipe.fetchStage P takes
    let t := t.afterFill ring u
    let u := t.run.pipe.nextFetch slot
    let u := { u with arch := { u.arch with tick := u.arch.tick + 1 } }
    return { t with run := { t.run with pipe := u } }

/-- A step, with the owner of what it adds to the log. -/
def step (P : Platform δ) (p : PipelineParams) (B : Predictor π) (ring : π → Ring ρ)
    (t : Tagged δ π) : PipelineStep δ → Except Halt (Tagged δ π)
  | .exec takes slot => t.exec P p B ring takes slot
  | .icacheAnswer => (t.run.pipe.icacheAnswered P B).map (t.afterFill ring)
  | .dcacheTick accepts => (t.run.pipe.step P p B (.dcacheTick accepts)).map (t.afterFill ring)
  | .dcacheAnswer index => (t.run.pipe.step P p B (.dcacheAnswer index)).map (t.afterFill ring)
  | .device dev irq => (t.run.pipe.step P p B (.device dev irq)).map (t.afterFill ring)

section Run

variable (ring : π → Ring ρ) (t : Tagged δ π) (u : Pipeline δ π)

@[simp] theorem afterWb_run : (t.afterWb ring u).run = t.run.afterWb u := rfl

@[simp] theorem afterMem_run : (t.afterMem u).run = t.run.afterMem u := rfl

@[simp] theorem afterExe_run : (t.afterExe ring u).run = t.run.afterExe u := rfl

@[simp] theorem afterId_run : (t.afterId ring u).run = t.run.afterId u := rfl

@[simp] theorem afterFill_run : (t.afterFill ring u).run = { t.run with pipe := u } := by
  unfold afterFill
  split <;> rfl

end Run

/-- The owners are not read. -/
theorem step_run (P : Platform δ) (p : PipelineParams) (B : Predictor π) (ring : π → Ring ρ)
    (t : Tagged δ π) (j : PipelineStep δ) :
    (t.step P p B ring j).map run = t.run.step P p B j := by
  have between (x : Except Halt (Pipeline δ π)) :
      (x.map (t.afterFill ring)).map run = t.run.onPipe x := by
    cases x with
    | error e => rfl
    | ok u => exact congrArg Except.ok (afterFill_run ring t u)
  cases j with
  | exec takes slot =>
      rw [step, Numbered.step, exec, Numbered.exec]
      split
      · rfl
      · cases t.run.pipe.wbStage p B with
        | error e => rfl
        | ok u =>
            simp only [bind, Except.bind, afterWb_run, afterMem_run, afterExe_run, afterId_run,
              afterFill_run]
            split
            · rfl
            · split
              · rfl
              · split
                · rfl
                · split <;> rfl
  | icacheAnswer => exact between (t.run.pipe.icacheAnswered P B)
  | dcacheTick accepts => exact between (t.run.pipe.step P p B (.dcacheTick accepts))
  | dcacheAnswer index => exact between (t.run.pipe.step P p B (.dcacheAnswer index))
  | device dev irq => exact between (t.run.pipe.step P p B (.device dev irq))

/-! ### The records of the stages -/

/-- The instruction has taken the record it has the index of with the event `stamp`, and no more
than `d` others have been taken since. -/
def Owns (log : List (RingEvent ρ)) (stamp : Option Nat) (inst : Inst) (d : Nat) : Prop :=
  ∃ k record, stamp = some k ∧ log[k]? = some (.takes inst.bpMetaIdx record) ∧
    Ring.since log k ≤ d

/-- An instruction whose fetch has faulted has taken none. -/
def Unpredicted (stage : Option Inst) (stamp : Option Nat) : Prop :=
  ∀ inst, stage = some inst → inst.faulted = true → stamp = none

/-- An instruction that is yet to be executed, and a trap, has its record, unless its fetch has
faulted or it is dropped.  Since a trap left ID, each of the stages behind it has been filled once;
`bound` is what a trap in WB allows. -/
structure Sound (ring : π → Ring ρ) (size bound : Nat) (t : Tagged δ π) : Prop where
  queued : t.run.Queued
  calm : t.run.pipe.front.Calm
  low : t.run.pipe.Low
  kept : (ring t.run.pipe.pred).Kept size
  length : t.owners.length = (t.log ring).length
  id : t.run.pipe.idValid = true → ∀ inst, t.run.pipe.idInst = some inst →
    Owns (t.log ring) t.id inst 0 ∨
      inst.excepts = true ∧ (inst.faulted = true ∨ t.run.pipe.idWaitRedirect = true)
  exe : ∀ inst, t.run.pipe.exe = some inst →
    Owns (t.log ring) t.exe inst t.run.pipe.idValid.toNat ∨
      inst.excepts = true ∧ (inst.faulted = true ∨ t.run.exe = none) ∨
      inst.excepts = false ∧ t.run.pipe.exeEnd = true
  mem : ∀ inst, t.run.pipe.mem = some inst → inst.excepts = true →
    inst.faulted = true ∨ t.run.mem = none ∨
      Owns (t.log ring) t.mem inst (t.run.pipe.exe.isSome.toNat + t.run.pipe.idValid.toNat)
  wb : ∀ inst, t.run.pipe.wb = some inst → inst.excepts = true →
    inst.faulted = true ∨ Owns (t.log ring) t.wb inst bound
  idFault : t.run.pipe.idValid = true → Unpredicted t.run.pipe.idInst t.id
  exeFault : Unpredicted t.run.pipe.exe t.exe
  memFault : Unpredicted t.run.pipe.mem t.mem
  wbFault : Unpredicted t.run.pipe.wb t.wb

/-- The log goes on, and nobody reads another's record. -/
structure Grows (ring : π → Ring ρ) (size : Nat) (t t' : Tagged δ π) : Prop where
  log : t.log ring <+: t'.log ring
  owners : t.owners <+: t'.owners
  own : Ring.ReadsOwn size (t.log ring) t.owners → Ring.ReadsOwn size (t'.log ring) t'.owners

section Steps

variable {P : Platform δ} {p : PipelineParams} {B : Predictor π} {size bound : Nat}
variable {ring : π → Ring ρ} {t t' t'' : Tagged δ π} {u : Pipeline δ π} {inst : Inst}

/-- A step that adds nothing to the log, and no owner, has read nobody's record. -/
theorem Grows.of_same (log : t'.log ring = t.log ring) (owners : t'.owners = t.owners) :
    t.Grows ring size t' := by
  refine ⟨?_, ?_, ?_⟩
  · exact log ▸ List.prefix_refl _
  · exact owners ▸ List.prefix_refl _
  · rw [log, owners]
    exact fun own => own

/-- What two steps in a row read is what each of them reads. -/
theorem Grows.trans (first : t.Grows ring size t') (second : t'.Grows ring size t'') :
    t.Grows ring size t'' :=
  ⟨first.log.trans second.log, first.owners.trans second.owners, second.own ∘ first.own⟩

/-- More records may be taken after the own one than have to be. -/
theorem Owns.mono {log : List (RingEvent ρ)} {stamp : Option Nat} {d d' : Nat}
    (owns : Owns log stamp inst d) (le : d ≤ d') : Owns log stamp inst d' := by
  obtain ⟨k, record, stamped, taken, recent⟩ := owns
  exact ⟨k, record, stamped, taken, recent.trans le⟩

/-- Owning speaks of the index of an instruction only, so that what a stage does to the rest of
the instruction does not matter. -/
theorem Owns.of_index {log : List (RingEvent ρ)} {stamp : Option Nat} {d : Nat} {inst' : Inst}
    (owns : Owns log stamp inst d) (index : inst'.bpMetaIdx = inst.bpMetaIdx) :
    Owns log stamp inst' d := by
  rw [Owns, index]
  exact owns

/-- Reads take no record: what was owned before them is owned after them. -/
theorem Owns.reads {r : Ring ρ} {stamp : Option Nat} {d : Nat} (owns : Owns r.log stamp inst d)
    (slot : Int) (n : Nat) : Owns (r.reads slot n).log stamp inst d := by
  obtain ⟨k, record, stamped, taken, recent⟩ := owns
  obtain ⟨counted, found⟩ := Ring.since_reads r slot n (List.getElem?_eq_some_iff.1 taken).1
  exact ⟨k, record, stamped, found.trans taken, counted.trans_le recent⟩

/-- A call of `predict` for another instruction puts one more record behind the own one. -/
theorem Owns.take {r : Ring ρ} {stamp : Option Nat} {d : Nat} (owns : Owns r.log stamp inst d)
    (record : ρ) : Owns (r.take size record).log stamp inst (d + 1) := by
  obtain ⟨k, record', stamped, taken, recent⟩ := owns
  have bound := (List.getElem?_eq_some_iff.1 taken).1
  refine ⟨k, record', stamped, ?_, ?_⟩
  · rw [Ring.log_take, List.getElem?_append_left bound]
    exact taken
  · rw [Ring.log_take, Ring.since_append bound]
    exact Nat.add_le_add_right recent 1

/-- The record that has just been taken. -/
theorem owns_taken (r : Ring ρ) (record : ρ) (index : inst.bpMetaIdx = r.next) :
    Owns (r.take size record).log (some r.log.length) inst 0 := by
  refine ⟨r.log.length, record, rfl, ?_, ?_⟩
  · rw [Ring.log_take, List.getElem?_concat_length, index]
  · rw [Ring.log_take, Ring.since, List.drop_eq_nil_of_le (by simp)]
    rfl

/-- A stage that reads `n` times has added `n` entries to the owners, all with its own stamp. -/
theorem assign_reads {slot : Int} {n : Nat}
    (reads : ring u.pred = (ring t.run.pipe.pred).reads slot n) (stamp : Option Nat) :
    t.assign ring u stamp = t.owners ++ List.replicate n stamp := by
  rw [assign, reads, Ring.length_reads, log, Nat.add_sub_cancel_left]

/-- A stage reads what its instruction owns. -/
theorem grows_reads (kept : (ring t.run.pipe.pred).Kept size)
    (length : t.owners.length = (t.log ring).length) {slot : Int} {n : Nat} {stamp : Option Nat}
    (reads : ring u.pred = (ring t.run.pipe.pred).reads slot n)
    (right : n = 0 ∨ ∃ inst d, slot = Inst.bpMetaIdx inst ∧
      Owns (t.log ring) stamp inst d ∧ d < size)
    (log : t'.log ring = (ring u.pred).log) (owners : t'.owners = t.assign ring u stamp) :
    t.Grows ring size t' := by
  rw [assign_reads reads] at owners
  rw [reads] at log
  refine ⟨?_, ?_, ?_⟩
  · rw [log]
    exact Ring.prefix_reads _ _ _
  · rw [owners]
    exact List.prefix_append _ _
  · rw [log, owners]
    intro own
    rcases right with rfl | ⟨inst, d, rfl, ⟨k, record, rfl, taken, recent⟩, less⟩
    · rw [List.replicate_zero, List.append_nil]
      exact own
    · exact own.reads length kept taken (recent.trans_lt less) n

/-- There is one owner for each event of the log, also after the reads of a stage. -/
theorem length_reads {slot : Int} {n : Nat} {stamp : Option Nat}
    (length : t.owners.length = (t.log ring).length)
    (reads : ring u.pred = (ring t.run.pipe.pred).reads slot n) :
    (t.assign ring u stamp).length = (ring u.pred).log.length := by
  rw [assign_reads reads, List.length_append, List.length_replicate, reads, Ring.length_reads,
    length, log]

/-- The fetch page fault is one of the exceptions. -/
theorem faulted_excepts (faulted : inst.faulted = true) : inst.excepts = true := by
  rw [Inst.excepts, beq_iff_eq.1 faulted]
  rfl

/-- WB, without a trap, takes no number away from EXE and MEM. -/
theorem afterWb_calm (run : Numbered δ π) (u : Pipeline δ π)
    (calm : holdsTrap run.pipe.wb = false) :
    (run.afterWb u).exe = run.exe ∧ (run.afterWb u).mem = run.mem := by
  unfold Numbered.afterWb
  cases held : run.pipe.wb with
  | none => exact ⟨rfl, rfl⟩
  | some inst =>
      rw [held, holdsTrap, Option.any_some] at calm
      dsimp only
      rw [if_neg (ne_true_of_eq_false calm)]
      exact ⟨rfl, rfl⟩

/-- Nothing is held in an empty stage. -/
theorem forall_held_none (q : Inst → Prop) : ∀ inst, none = some inst → q inst := nofun

/-- An empty stage holds no instruction whose fetch has faulted. -/
theorem unpredicted_none (stamp : Option Nat) : Unpredicted none stamp := by
  intro inst held
  cases held

/-- The log after WB is that of the predictor it leaves. -/
theorem afterWb_log (t : Tagged δ π) (u : Pipeline δ π) :
    (t.afterWb ring u).log ring = (ring u.pred).log := by
  rw [Tagged.log, afterWb_run, Numbered.afterWb_pipe]

/-- An instruction whose fetch has faulted is a trap. -/
theorem any_faulted_of_calm {stage : Option Inst} (calm : holdsTrap stage = false) :
    stage.any Inst.faulted = false := by
  cases stage with
  | none => rfl
  | some inst =>
      by_contra faulted
      rw [Option.any_some, Bool.not_eq_false] at faulted
      cases calm.symm.trans (faulted_excepts faulted)

section Wb

variable (queued : (t.run.afterWb u).Queued) (empty : u.wb = none) (low : u.Low)

include queued empty low

/-- WB retires an instruction that is no trap: nothing is read, and every stage keeps the record
it has. -/
theorem retire_sound (sound : t.Sound ring size bound) (calm : holdsTrap t.run.pipe.wb = false)
    (front : u.front = t.run.pipe.front) (pred : u.pred = t.run.pipe.pred)
    (exe : u.exe = t.run.pipe.exe) (mem : u.mem = t.run.pipe.mem)
    (ended : u.exeEnd = t.run.pipe.exeEnd) (bound' : Nat) :
    (t.afterWb ring u).Sound ring size bound' ∧ t.Grows ring size (t.afterWb ring u) := by
  have pipe := Numbered.afterWb_pipe t.run u
  have same : ring u.pred = (ring t.run.pipe.pred).reads 0 0 := by
    rw [pred]
    rfl
  have valid : u.idValid = t.run.pipe.idValid := congrArg Front.idValid front
  have inst : u.idInst = t.run.pipe.idInst := congrArg Front.idInst front
  have waits : u.idWaitRedirect = t.run.pipe.idWaitRedirect := congrArg Front.idWaitRedirect front
  have log : (t.afterWb ring u).log ring = t.log ring := by
    rw [afterWb_log, pred]
    rfl
  obtain ⟨number, memNumber⟩ := afterWb_calm t.run u calm
  refine ⟨⟨queued, ?_, ?_, ?_, ?_, ?_, ?_, ?_, ?_, ?_, ?_, ?_, ?_⟩,
    grows_reads sound.kept sound.length same (.inl rfl) (afterWb_log t u) rfl⟩
  all_goals try rw [afterWb_run, pipe]
  · rw [front]
    exact sound.calm
  · exact low
  · rw [pred]
    exact sound.kept
  · rw [afterWb_log]
    exact length_reads sound.length same
  · rw [valid, inst, waits, log]
    exact sound.id
  · rw [exe, valid, ended, log, number]
    exact sound.exe
  · rw [mem, exe, valid, log, memNumber]
    exact sound.mem
  · rw [empty]
    exact forall_held_none _
  · rw [valid, inst]
    exact sound.idFault
  · rw [exe]
    exact sound.exeFault
  · rw [mem]
    exact sound.memFault
  · rw [empty]
    exact unpredicted_none _

/-- The trap in WB redirects: the stages behind it are emptied, and so is ID. -/
theorem trap_sound (sound : t.Sound ring size bound) (exe : u.exe = none) (mem : u.mem = none)
    (front : u.front = t.run.pipe.front.redirected)
    (read : ring u.pred = (ring t.run.pipe.pred).read inst.bpMetaIdx) (bound' : Nat) :
    (t.afterWb ring u).Sound ring size bound' := by
  have pipe := Numbered.afterWb_pipe t.run u
  have one : ring u.pred = (ring t.run.pipe.pred).reads inst.bpMetaIdx 1 := read
  have valid : u.idValid = false := congrArg Front.idValid front
  refine ⟨queued, ?_, ?_, ?_, ?_, ?_, ?_, ?_, ?_, ?_, ?_, ?_, ?_⟩
  all_goals try rw [afterWb_run, pipe]
  · rw [front]
    exact sound.calm.redirected
  · exact low
  · rw [read]
    exact sound.kept.read _
  · rw [afterWb_log]
    exact length_reads sound.length one
  · rw [valid]
    rintro ⟨⟩
  · rw [exe]
    exact forall_held_none _
  · rw [mem]
    exact forall_held_none _
  · rw [empty]
    exact forall_held_none _
  · rw [valid]
    rintro ⟨⟩
  · rw [exe]
    exact unpredicted_none _
  · rw [mem]
    exact unpredicted_none _
  · rw [empty]
    exact unpredicted_none _

end Wb

/-- The redirect of a trap whose fetch has not faulted reads the record of the trap. -/
theorem trap_grows (sound : t.Sound ring size bound) (less : bound < size)
    (held : t.run.pipe.wb = some inst) (traps : inst.excepts = true)
    (read : ring u.pred = (ring t.run.pipe.pred).read inst.bpMetaIdx)
    (calm : inst.faulted = false) : t.Grows ring size (t.afterWb ring u) := by
  have one : ring u.pred = (ring t.run.pipe.pred).reads inst.bpMetaIdx 1 := read
  refine grows_reads sound.kept sound.length one (.inr ⟨inst, bound, rfl, ?_, less⟩)
    (afterWb_log t u) rfl
  rcases sound.wb inst held traps with faulted | owns
  · cases calm.symm.trans faulted
  · exact owns

/-- The redirect of a trap whose fetch has faulted reads a record that nobody has taken for it. -/
theorem trap_owners (sound : t.Sound ring size bound) (held : t.run.pipe.wb = some inst)
    (read : ring u.pred = (ring t.run.pipe.pred).read inst.bpMetaIdx)
    (faulted : inst.faulted = true) : (t.afterWb ring u).owners = t.owners ++ [none] := by
  have one : ring u.pred = (ring t.run.pipe.pred).reads inst.bpMetaIdx 1 := read
  have missing : t.wb = none := sound.wbFault inst held faulted
  have added : (t.afterWb ring u).owners = t.owners ++ List.replicate 1 t.wb :=
    assign_reads one t.wb
  rw [added, missing]
  rfl

/-- WB reads the record of a trap; the trap of a fetch that faulted has none. -/
theorem wbStage_sound (onRing : B.OnRing size ring)
    (sound : t.Sound ring size (2 + t.run.pipe.idValid.toNat)) (large : 4 ≤ size) (bound' : Nat) :
    Returns (t.run.pipe.wbStage p B) fun u => (t.afterWb ring u).Sound ring size bound' ∧
      u.wb = none ∧
      (t.run.pipe.wb.any Inst.faulted = false → t.Grows ring size (t.afterWb ring u)) ∧
      (t.run.pipe.wb.any Inst.faulted = true → ∃ slot,
        (t.afterWb ring u).log ring = ((ring t.run.pipe.pred).read slot).log ∧
          (t.afterWb ring u).owners = t.owners ++ [none]) := by
  intro u ran
  obtain ⟨queued, empty⟩ := Numbered.wbStage_queued sound.queued u ran
  obtain ⟨low, reads⟩ := Pipeline.wbStage_reads onRing t.run.pipe u ran
  rcases reads with ⟨calm, front, pred, exe, mem, ended⟩ |
    ⟨inst, held, traps, exe, mem, front, read⟩
  · obtain ⟨retired, grows⟩ := retire_sound queued empty (low sound.low) sound calm front pred exe
      mem ended bound'
    refine ⟨retired, empty, fun _ => grows, ?_⟩
    intro faulted
    cases (any_faulted_of_calm calm).symm.trans faulted
  · refine ⟨trap_sound queued empty (low sound.low) sound exe mem front read bound', empty, ?_, ?_⟩
    · rw [held, Option.any_some]
      have one := Bool.toNat_le t.run.pipe.idValid
      exact trap_grows sound (by omega) held traps read
    · rw [held, Option.any_some]
      intro faulted
      exact ⟨inst.bpMetaIdx, by rw [afterWb_log, read], trap_owners sound held read faulted⟩

/-- A trap comes to WB with two stages behind it. -/
theorem memStage_sound (sound : t.Sound ring size bound) (free : t.run.pipe.wb = none) :
    (t.afterMem t.run.pipe.memStage).Sound ring size (1 + t.run.pipe.idValid.toNat) ∧
      t.Grows ring size (t.afterMem t.run.pipe.memStage) := by
  have queued : (t.afterMem t.run.pipe.memStage).run.Queued :=
    (Numbered.memStage_queued sound.queued free).1
  rcases Pipeline.memStage_cases t.run.pipe with ⟨stays, -⟩ | ⟨inst, marks, held, leaves⟩
  · have same : t.afterMem t.run.pipe.memStage = t := by
      rw [stays, afterMem, Numbered.afterMem, if_neg (by cases t.run.pipe.mem <;> simp),
        if_neg (by cases t.run.pipe.mem <;> simp)]
    rw [same]
    refine ⟨{ sound with wb := ?_ }, Grows.of_same rfl rfl⟩
    intro inst held
    cases free.symm.trans held
  · have after : t.afterMem t.run.pipe.memStage =
        { t with
          run := { t.run with
            pipe := { t.run.pipe with memEndMap := marks, mem := none, wb := some inst }
            mem := none
            wb := t.run.mem }
          wb := t.mem } := by
      rw [leaves, afterMem, Numbered.afterMem, if_pos (by rw [held]; rfl),
        if_pos (by rw [held]; rfl)]
    rw [after] at queued
    rw [after]
    refine ⟨⟨queued, sound.calm, sound.low, sound.kept, sound.length, sound.id, sound.exe, ?_, ?_,
      sound.idFault, sound.exeFault, unpredicted_none _, ?_⟩, Grows.of_same rfl rfl⟩
    · intro inst' held'
      cases held'
    · intro inst' held' traps
      obtain rfl : inst = inst' := Option.some.inj held'
      rcases sound.mem inst held traps with faulted | unnumbered | owns
      · exact .inl faulted
      · -- what comes to WB has a number
        have full := queued.wbHeld
        rw [unnumbered] at full
        cases full
      · refine .inr (owns.mono ?_)
        exact Nat.add_le_add_right (Bool.toNat_le _) _
    · intro inst' held' faulted
      obtain rfl : inst = inst' := Option.some.inj held'
      exact sound.memFault inst held faulted

/-- Whether an instruction traps, and whether its fetch has faulted, is read from its
`DecodeInfo`. -/
theorem excepts_of_info {inst' : Inst} (info : inst'.info = inst.info) :
    inst'.excepts = inst.excepts ∧ inst'.faulted = inst.faulted := by
  rw [Inst.excepts, Inst.excepts, Inst.faulted, Inst.faulted, info]
  exact ⟨rfl, rfl⟩

section ExeTurn

variable (calm : holdsTrap t.run.pipe.mem = false) (held : t.run.pipe.exe = some inst)
variable (turn : Pipeline.ExeTurn inst t.run.pipe u)
variable (queued : Numbered.Queued { t.run with pipe := u })
variable (reads : Pipeline.ExeReads ring inst t.run.pipe u)

include calm held turn queued reads

/-- A turn of EXE leaves the stages other than EXE what they own. It redirects or it does not; in
EXE there is the same instruction, with whatever the turn has made of its claim. -/
theorem exeTurned_sound (sound : t.Sound ring size (1 + t.run.pipe.idValid.toNat))
    (front : u.front = t.run.pipe.front ∨ u.front = t.run.pipe.front.redirected) {n : Nat}
    (same : ring u.pred = (ring t.run.pipe.pred).reads inst.bpMetaIdx n)
    (exe : ∀ inst', u.exe = some inst' → Owns (ring u.pred).log t.exe inst' u.idValid.toNat ∨
      inst'.excepts = true ∧ (inst'.faulted = true ∨ t.run.exe = none) ∨
      inst'.excepts = false ∧ u.exeEnd = true) :
    Sound ring size 2 { t with
      run := { t.run with pipe := u }
      owners := t.assign ring u t.exe } := by
  have kept {stamp : Option Nat} {i : Inst} {d : Nat} (owns : Owns (t.log ring) stamp i d) :
      Owns (ring u.pred).log stamp i d := by
    rw [same]
    exact Owns.reads owns _ _
  refine ⟨queued, ?_, reads.low sound.low, ?_, length_reads sound.length same, ?_, exe, ?_, ?_, ?_,
    ?_, ?_, ?_⟩
  · change u.front.Calm
    rcases front with front | front
    · rw [front]
      exact sound.calm
    · rw [front]
      exact sound.calm.redirected
  · change (ring u.pred).Kept size
    rw [same]
    exact sound.kept.reads _ _
  · intro valid i held
    rcases front with front | front
    · -- A redirect empties ID; without one it holds what it held.
      have valid := (congrArg Front.idValid front).symm.trans valid
      have held := (congrArg Front.idInst front).symm.trans held
      rcases sound.id valid i held with owns | ⟨traps, waits⟩
      · exact .inl (kept owns)
      · exact .inr ⟨traps, waits.imp_right (congrArg Front.idWaitRedirect front).trans⟩
    · cases (congrArg Front.idValid front).symm.trans valid
  · -- no trap is in MEM
    intro i held traps
    rw [← turn.mem, show u.mem = some i from held, holdsTrap, Option.any_some, traps] at calm
    cases calm
  · intro i held traps
    have le := Bool.toNat_le t.run.pipe.idValid
    rcases sound.wb i (turn.wb.symm.trans held) traps with fault | owns
    · exact .inl fault
    · exact .inr (kept (owns.mono (by omega)))
  · intro valid
    rcases front with front | front
    · have valid := (congrArg Front.idValid front).symm.trans valid
      have held : u.idInst = t.run.pipe.idInst := congrArg Front.idInst front
      change Unpredicted u.idInst t.id
      rw [held]
      exact sound.idFault valid
    · cases (congrArg Front.idValid front).symm.trans valid
  · obtain ⟨inst', held', info, -⟩ := reads.held
    intro i here fault
    obtain rfl : inst' = i := Option.some.inj (held'.symm.trans here)
    exact sound.exeFault inst held ((excepts_of_info info).2 ▸ fault)
  · change Unpredicted u.mem t.mem
    rw [turn.mem]
    exact sound.memFault
  · change Unpredicted u.wb t.wb
    rw [turn.wb]
    exact sound.wbFault

/-- A turn of EXE: a branch that is turned for the first time reads its own record, and is
done with it. -/
theorem exeTurn_sound (sound : t.Sound ring size (1 + t.run.pipe.idValid.toNat))
    (large : 4 ≤ size) :
    Sound ring size 2 { t with
        run := { t.run with pipe := u }
        owners := t.assign ring u t.exe } ∧
      t.Grows ring size { t with
        run := { t.run with pipe := u }
        owners := t.assign ring u t.exe } := by
  obtain ⟨inst', held', info, index⟩ := reads.held
  obtain ⟨excepts, faulted⟩ := excepts_of_info info
  have turned := exeTurned_sound calm held turn queued reads sound
  rcases reads.reads with ⟨front, same⟩ | ⟨quiet, began, ended, front, n, same⟩
  · have none : ring u.pred = (ring t.run.pipe.pred).reads inst.bpMetaIdx 0 := same
    refine ⟨turned (.inl front) none ?_,
      grows_reads sound.kept sound.length none (.inl rfl) rfl rfl⟩
    intro i here
    obtain rfl : inst' = i := Option.some.inj (held'.symm.trans here)
    have valid : u.idValid = t.run.pipe.idValid := congrArg Front.idValid front
    rw [same, valid, excepts, faulted]
    rcases sound.exe inst held with owns | trap | ⟨calm, ended⟩
    · exact .inl (owns.of_index index)
    · exact .inr (.inl trap)
    · exact .inr (.inr ⟨calm, reads.ended ended⟩)
  · have le := Bool.toNat_le t.run.pipe.idValid
    refine ⟨turned front same ?_, grows_reads sound.kept sound.length same
      (.inr ⟨inst, t.run.pipe.idValid.toNat, rfl, ?_, by omega⟩) rfl rfl⟩
    · intro i here
      obtain rfl : inst' = i := Option.some.inj (held'.symm.trans here)
      exact .inr (.inr ⟨excepts.trans quiet, ended⟩)
    · rcases sound.exe inst held with owns | ⟨traps, -⟩ | ⟨-, done⟩
      · exact owns
      · cases quiet.symm.trans traps
      · cases began.symm.trans done

end ExeTurn

/-- The hand-over to MEM. -/
theorem enterMem_sound (sound : t.Sound ring size bound) (calm : holdsTrap t.run.pipe.mem = false)
    (full : t.run.pipe.exe.isSome = true) (acted : t.run.pipe.pending = false) :
    Sound ring size bound { t with
      run := t.run.afterExe t.run.pipe.enterMem
      mem :=
        if t.run.pipe.exe.isSome && t.run.pipe.enterMem.exe.isNone then t.exe else t.mem } := by
  have queued := Numbered.enterMem_queued sound.queued calm full acted
  by_cases ready : t.run.pipe.exeEnd && t.run.pipe.mem.isNone
  · have entered : t.run.pipe.enterMem =
        { t.run.pipe with exeEnd := false, exe := none, mem := t.run.pipe.exe } := if_pos ready
    have after : t.run.afterExe t.run.pipe.enterMem =
        { t.run with
          pipe := { t.run.pipe with exeEnd := false, exe := none, mem := t.run.pipe.exe }
          exe := none
          mem := t.run.exe } := by
      rw [entered, Numbered.afterExe, if_pos (by rw [full]; rfl)]
    rw [after] at queued ⊢
    rw [entered, if_pos (by rw [full]; rfl)]
    refine ⟨queued, sound.calm, sound.low, sound.kept, sound.length, sound.id, ?_, ?_, sound.wb,
      sound.idFault, unpredicted_none _, sound.exeFault, sound.wbFault⟩
    · intro inst held
      cases held
    · intro inst held traps
      rcases sound.exe inst held with owns | ⟨-, fault | unnumbered⟩ | ⟨quiet, -⟩
      · exact .inr (.inr (owns.mono (Nat.le_add_left _ _)))
      · exact .inl fault
      · exact .inr (.inl unnumbered)
      · cases quiet.symm.trans traps
  · have stays : t.run.pipe.enterMem = t.run.pipe := if_neg ready
    have same : t.run.afterExe t.run.pipe = t.run := by
      rw [Numbered.afterExe, if_neg (by cases t.run.pipe.exe <;> simp)]
    rw [stays, same, if_neg (by cases t.run.pipe.exe <;> simp)]
    exact sound

/-- The EXE stage as a whole, a turn and then the hand-over to MEM. After it a trap in WB keeps
ID waiting, or ID is empty. -/
theorem exeStage_sound (onRing : B.OnRing size ring)
    (sound : t.Sound ring size (1 + t.run.pipe.idValid.toNat)) (large : 4 ≤ size)
    (calm : holdsTrap t.run.pipe.mem = false)
    (trapWaits : holdsTrap t.run.pipe.wb = true → t.run.pipe.idWaitRedirect = true) :
    Returns (t.run.pipe.exeStage P p B) fun u => (t.afterExe ring u).Sound ring size 2 ∧
      t.Grows ring size (t.afterExe ring u) ∧
      (holdsTrap u.wb = true → u.idWaitRedirect = true ∨ u.idValid = false) := by
  have moves : Returns (t.run.pipe.exeStage P p B) fun u =>
      (t.afterExe ring u).Sound ring size 2 ∧ t.Grows ring size (t.afterExe ring u) := by
    unfold Pipeline.exeStage
    cases held : t.run.pipe.exe with
    | none =>
        have same : t.afterExe ring t.run.pipe = t := by
          have run : t.run.afterExe t.run.pipe = t.run := by
            rw [Numbered.afterExe, held]
            rfl
          rw [afterExe, run, held, assign, log, Nat.sub_self, List.replicate_zero, List.append_nil]
          rfl
        refine (returns_ok _ _).2 ?_
        rw [same]
        -- Nothing is in EXE, and the bound of WB is only made larger.
        refine ⟨{ sound with wb := ?_ }, Grows.of_same rfl rfl⟩
        intro inst held traps
        have le := Bool.toNat_le t.run.pipe.idValid
        exact (sound.wb inst held traps).imp_right fun owns => owns.mono (by omega)
    | some inst =>
        dsimp only
        rw [returns_map]
        intro u ran
        have turn := Pipeline.exeTurn_exeTurn held sound.queued.settled u ran
        have reads := Pipeline.exeTurn_reads onRing held u ran
        have queued := (Numbered.exeTurn_queued sound.queued calm trapWaits held turn).1
        obtain ⟨turned, grows⟩ := exeTurn_sound calm held turn queued reads sound large
        obtain ⟨inst', held', -⟩ := turn.held
        have full : u.exe.isSome = true := by rw [held']; rfl
        have entered :=
          enterMem_sound turned (by rw [← turn.mem] at calm; exact calm) full turn.acted
        have same : t.afterExe ring u.enterMem = { t with
            run := Numbered.afterExe { t.run with pipe := u } u.enterMem
            mem := if u.exe.isSome && u.enterMem.exe.isNone then t.exe else t.mem
            owners := t.assign ring u t.exe } := by
          rw [afterExe, assign, assign, Pipeline.enterMem_pred, held, full, Numbered.afterExe,
            Numbered.afterExe, held,
            full]
          rfl
        rw [same]
        refine ⟨entered, grows.trans (Grows.of_same ?_ rfl)⟩
        have pipe := Numbered.afterExe_pipe { t.run with pipe := u } u.enterMem
        rw [log, log, pipe, Pipeline.enterMem_pred]
  intro u ran
  obtain ⟨entered, grows⟩ := moves u ran
  exact ⟨entered, grows, (Numbered.exeStage_queued sound.queued calm trapWaits u ran).2⟩

/-- ID reads the record of its instruction, or none at all. -/
theorem idReads_reads (reads : Pipeline.IdReads ring inst t.run.pipe u) :
    ∃ n, ring u.pred = (ring t.run.pipe.pred).reads inst.bpMetaIdx n ∧
      (n = 0 ∨ inst.excepts = false ∧ t.run.pipe.idWaitRedirect = false) := by
  rcases reads.reads with ⟨-, none⟩ | ⟨quiet, going, -, one⟩
  · exact ⟨0, none, .inl rfl⟩
  · exact ⟨1, one, .inr ⟨quiet, going⟩⟩

/-- A turn of ID leaves a calm front: its own trap has the flag up. -/
theorem idTurn_calm (calm : t.run.pipe.front.Calm)
    (reads : Pipeline.IdReads ring inst t.run.pipe u) {inst' : Inst} (held : u.idInst = some inst')
    (waits : u.idWaitRedirect =
      (t.run.pipe.idWaitRedirect || (inst'.excepts || inst'.redirects))) :
    u.enterExe.front.Calm := by
  have fetching : ∀ i ∈ u.fetching, i.excepts = false := by
    rcases reads.reads with ⟨same, -⟩ | ⟨-, -, none, -⟩
    · rw [same]
      exact calm.fetching
    · rw [none]
      exact List.forall_mem_nil _
  refine ⟨fun i here => calm.fetched i (reads.fetched.symm.trans here), fetching,
    fun i here => calm.stalled i (reads.stalled.symm.trans here), ?_⟩
  intro _ _ i here traps
  obtain rfl : inst' = i := Option.some.inj (held.symm.trans here)
  change u.idWaitRedirect = true
  rw [waits, traps, Bool.true_or, Bool.or_true]

section HandOver

variable (ready : (t.run.pipe.idValid && t.run.pipe.exe.isNone) = true)
variable (held : t.run.pipe.idInst = some inst)
variable (reads : Pipeline.IdReads ring inst t.run.pipe u)

include ready held reads

/-- What comes to EXE owns what it has owned in ID, unless it is a trap that is dropped. -/
theorem handOver_owns (sound : t.Sound ring size bound) {inst' : Inst}
    (held' : u.idInst = some inst') :
    Owns (ring u.pred).log t.id inst' 0 ∨
      inst'.excepts = true ∧ (inst'.faulted = true ∨ (t.run.afterId u.enterExe).exe = none) := by
  obtain ⟨inst'', held'', code, index⟩ := reads.held
  obtain rfl : inst'' = inst' := Option.some.inj (held''.symm.trans held')
  have excepts : inst''.excepts = inst.excepts := congrArg RiscvArch.exceptionValid code
  have faulted : inst''.faulted = inst.faulted := congrArg (· == excIPF) code
  obtain ⟨valid, -⟩ := Bool.and_eq_true_iff.1 ready
  obtain ⟨n, same, -⟩ := idReads_reads reads
  rcases sound.id valid inst held with owns | ⟨traps, fault | waiting⟩
  · rw [same]
    exact .inl (Owns.reads (owns.of_index index) _ _)
  · exact .inr ⟨excepts.trans traps, .inl (faulted.trans fault)⟩
  · refine .inr ⟨excepts.trans traps, .inr ?_⟩
    rw [Numbered.afterId, if_pos ready, if_pos waiting]

/-- ID reads for its own instruction only. -/
theorem handOver_grows (sound : t.Sound ring size bound) (pos : 0 < size) :
    t.Grows ring size (t.afterId ring u.enterExe) := by
  obtain ⟨valid, -⟩ := Bool.and_eq_true_iff.1 ready
  obtain ⟨n, same, right⟩ := idReads_reads reads
  have same : ring u.enterExe.pred = (ring t.run.pipe.pred).reads inst.bpMetaIdx n := same
  have log : (t.afterId ring u.enterExe).log ring = (ring u.enterExe.pred).log := by
    rw [Tagged.log, afterId_run, Numbered.afterId_pipe]
  refine grows_reads sound.kept sound.length same ?_ log rfl
  rcases right with none | ⟨quiet, going⟩
  · exact .inl none
  · rcases sound.id valid inst held with owns | ⟨traps, -⟩
    · exact .inr ⟨inst, 0, rfl, owns, pos⟩
    · cases quiet.symm.trans traps

/-- What ID hands over goes to EXE with its record, and ID is empty. -/
theorem handOver_sound (sound : t.Sound ring size 2)
    (queued : (t.run.afterId u.enterExe).Queued) (back : u.back = t.run.pipe.back)
    {inst' : Inst} (held' : u.idInst = some inst')
    (waits : u.idWaitRedirect =
      (t.run.pipe.idWaitRedirect || (inst'.excepts || inst'.redirects))) :
    (t.afterId ring u.enterExe).Sound ring size 2 := by
  obtain ⟨valid, free⟩ := Bool.and_eq_true_iff.1 ready
  have free := Option.isNone_iff_eq_none.1 free
  have pipe := Numbered.afterId_pipe t.run u.enterExe
  have mem : u.mem = t.run.pipe.mem := congrArg Back.mem back
  have wb : u.wb = t.run.pipe.wb := congrArg Back.wb back
  have exe : u.enterExe.exe = some { inst' with access := none } := by
    rw [Pipeline.enterExe, held']
    rfl
  have stamp : (t.afterId ring u.enterExe).exe = t.id := if_pos ready
  have memNumber : (t.run.afterId u.enterExe).mem = t.run.mem :=
    (Prod.mk.inj (Training.afterId_kept t.run u.enterExe)).1
  have log : (t.afterId ring u.enterExe).log ring = (ring u.pred).log := by
    rw [Tagged.log, afterId_run, pipe]
    rfl
  obtain ⟨n, same, -⟩ := idReads_reads reads
  have kept {stamp : Option Nat} {i : Inst} {d : Nat} (owns : Owns (t.log ring) stamp i d) :
      Owns ((t.afterId ring u.enterExe).log ring) stamp i d := by
    rw [log, same]
    exact Owns.reads owns _ _
  refine ⟨queued, ?_, ?_, ?_, ?_, ?_, ?_, ?_, ?_, ?_, ?_, ?_, ?_⟩
  all_goals try rw [afterId_run, pipe]
  · exact idTurn_calm sound.calm reads held' waits
  · exact (reads.low sound.low).of_same rfl rfl
  · change (ring u.pred).Kept size
    rw [same]
    exact sound.kept.reads _ _
  · rw [log]
    exact length_reads (u := u.enterExe) sound.length same
  · rintro ⟨⟩
  · intro i entered
    obtain rfl := Option.some.inj (exe.symm.trans entered)
    rw [stamp, log]
    exact (handOver_owns ready held reads sound held').imp (fun owns => owns.of_index rfl) .inl
  · intro i here traps
    rw [memNumber]
    rcases sound.mem i (mem.symm.trans here) traps with fault | unnumbered | owns
    · exact .inl fault
    · exact .inr (.inl unnumbered)
    · refine .inr (.inr (kept ?_))
      -- ID was full and EXE empty, so the bound is the one from before.
      rw [free, valid] at owns
      rw [exe]
      exact owns
  · intro i here traps
    exact (sound.wb i (wb.symm.trans here) traps).imp_right kept
  · rintro ⟨⟩
  · rw [exe, stamp]
    -- The turn of ID leaves the code that says whether the fetch faulted.
    obtain ⟨inst'', held'', code, -⟩ := reads.held
    obtain rfl : inst'' = inst' := Option.some.inj (held''.symm.trans held')
    intro i entered fault
    obtain rfl := Option.some.inj entered
    have faulted : inst''.faulted = inst.faulted := congrArg (· == excIPF) code
    exact sound.idFault valid inst held (faulted.symm.trans fault)
  · change Unpredicted u.mem t.mem
    rw [mem]
    exact sound.memFault
  · change Unpredicted u.wb t.wb
    rw [wb]
    exact sound.wbFault

end HandOver

/-- ID hands over an instruction with its record; one without a call of `updateEnv` is dropped. -/
theorem idStage_sound (onRing : B.OnRing size ring) (sound : t.Sound ring size 2)
    (large : 4 ≤ size) (trapWaits : holdsTrap t.run.pipe.wb = true →
      t.run.pipe.idWaitRedirect = true ∨ t.run.pipe.idValid = false) :
    Returns (t.run.pipe.idStage P B) fun u => (t.afterId ring u).Sound ring size 2 ∧
      t.Grows ring size (t.afterId ring u) := by
  have queued := Numbered.idStage_queued (P := P) (B := B) sound.queued trapWaits
  by_cases ready : t.run.pipe.idValid && t.run.pipe.exe.isNone
  · obtain ⟨valid, free⟩ := Bool.and_eq_true_iff.1 ready
    have free := Option.isNone_iff_eq_none.1 free
    unfold Pipeline.idStage at queued ⊢
    rw [if_pos ready] at queued ⊢
    cases held : t.run.pipe.idInst with
    | none => exact returns_error _ _
    | some inst =>
        rw [held] at queued
        dsimp only at queued ⊢
        rw [returns_map] at queued ⊢
        intro u ran
        have reads := Pipeline.idTurn_reads onRing held u ran
        obtain ⟨back, inst', held', waits⟩ := Pipeline.idTurn_waits held u ran
        obtain ⟨inst'', held'', code, index⟩ := reads.held
        obtain rfl : inst'' = inst' := Option.some.inj (held''.symm.trans held')
        exact ⟨handOver_sound ready held reads sound (queued u ran) back held'' waits,
          handOver_grows ready held reads sound (by omega)⟩
  · have stays : t.run.pipe.idStage P B = .ok t.run.pipe := if_neg ready
    rw [stays, returns_ok]
    have same : t.afterId ring t.run.pipe = t := by
      have run : t.run.afterId t.run.pipe = t.run := by
        rw [Numbered.afterId, if_neg ready]
      rw [afterId, run, if_neg ready, assign, log, Nat.sub_self, List.replicate_zero,
        List.append_nil]
    rw [same]
    exact ⟨sound, Grows.of_same rfl rfl⟩

/-- Nothing comes to ID. -/
theorem afterFill_still (valid : u.idValid = t.run.pipe.idValid) :
    t.afterFill ring u = { t with run := { t.run with pipe := u } } := by
  refine if_neg ?_
  rw [valid]
  cases t.run.pipe.idValid <;> simp

/-- A step that leaves the predictor, ID and the stages behind it alone keeps what everybody
owns. -/
theorem still_sound (sound : t.Sound ring size bound) (issued : u.issued = t.run.pipe.issued)
    (same : ring u.pred = ring t.run.pipe.pred) (valid : u.idValid = t.run.pipe.idValid)
    (held : u.idInst = t.run.pipe.idInst) (calm : u.front.Calm) (low : u.Low) :
    (t.afterFill ring u).Sound ring size bound ∧ t.Grows ring size (t.afterFill ring u) := by
  have exe : u.exe = t.run.pipe.exe := congrArg (fun l => l.1.1) issued
  have mem : u.mem = t.run.pipe.mem := congrArg (fun l => l.1.2.1) issued
  have wb : u.wb = t.run.pipe.wb := congrArg (fun l => l.1.2.2) issued
  have ended : u.exeEnd = t.run.pipe.exeEnd := congrArg (fun l => l.2.1.1) issued
  have waits : u.idWaitRedirect = t.run.pipe.idWaitRedirect := congrArg (fun l => l.2.2) issued
  have log :
      (⟨{ t.run with pipe := u }, t.id, t.exe, t.mem, t.wb, t.owners⟩ : Tagged δ π).log ring =
      t.log ring := by
    rw [Tagged.log, Tagged.log, same]
  rw [afterFill_still valid]
  refine ⟨⟨sound.queued.of_issued issued, calm, low, ?_, ?_, ?_, ?_, ?_, ?_, ?_, ?_, ?_, ?_⟩,
    Grows.of_same log rfl⟩
  · change (ring u.pred).Kept size
    rw [same]
    exact sound.kept
  · rw [log]
    exact sound.length
  · rw [log, valid, held, waits]
    exact sound.id
  · rw [log, exe, valid, ended]
    exact sound.exe
  · rw [log, mem, exe, valid]
    exact sound.mem
  · rw [log, wb]
    exact sound.wb
  · rw [valid, held]
    exact sound.idFault
  · rw [exe]
    exact sound.exeFault
  · rw [mem]
    exact sound.memFault
  · rw [wb]
    exact sound.wbFault

section Fill

variable (issued : u.issued = t.run.pipe.issued) (was : t.run.pipe.idValid = false)
variable (now : u.idValid = true)

include was now

/-- An instruction has come to ID. -/
theorem afterFill_filled : t.afterFill ring u = { t with
    run := { t.run with pipe := u }
    id := t.taken ring u
    owners := t.assign ring u (t.taken ring u) } := by
  refine if_pos ?_
  rw [was, now]
  rfl

include issued

/-- With an instruction in ID, the others have one record more behind theirs at most. -/
theorem filled_sound (sound : t.Sound ring size (2 + t.run.pipe.idValid.toNat))
    (calm : u.front.Calm) (low : u.Low) (held : u.idInst = some inst)
    (own : Owns (ring u.pred).log (t.taken ring u) inst 0 ∨
      inst.excepts = true ∧ (inst.faulted = true ∨ t.run.pipe.idWaitRedirect = true))
    (kept : (ring u.pred).Kept size)
    (length : (t.assign ring u (t.taken ring u)).length = (ring u.pred).log.length)
    (fault : inst.faulted = true → t.taken ring u = none)
    (later : ∀ stamp (i : Inst) d, Owns (t.log ring) stamp i d →
      Owns (ring u.pred).log stamp i (d + 1)) :
    (t.afterFill ring u).Sound ring size (2 + u.idValid.toNat) := by
  have exe : u.exe = t.run.pipe.exe := congrArg (fun l => l.1.1) issued
  have mem : u.mem = t.run.pipe.mem := congrArg (fun l => l.1.2.1) issued
  have wb : u.wb = t.run.pipe.wb := congrArg (fun l => l.1.2.2) issued
  have ended : u.exeEnd = t.run.pipe.exeEnd := congrArg (fun l => l.2.1.1) issued
  have waits : u.idWaitRedirect = t.run.pipe.idWaitRedirect := congrArg (fun l => l.2.2) issued
  -- ID is filled, so one record more may have been taken since those behind it.
  rw [afterFill_filled was now]
  refine ⟨sound.queued.of_issued issued, calm, low, kept, length, ?_, ?_, ?_, ?_, ?_, ?_, ?_, ?_⟩
  · intro _ i held'
    obtain rfl : inst = i := Option.some.inj (held.symm.trans held')
    exact own.imp_right fun trap => ⟨trap.1, trap.2.imp_right waits.trans⟩
  · intro i held
    rcases sound.exe i (exe.symm.trans held) with owns | other
    · rw [was] at owns
      dsimp only
      rw [now]
      exact .inl (later _ _ _ owns)
    · exact .inr (other.imp_right fun done => ⟨done.1, ended.trans done.2⟩)
  · intro i held traps
    rcases sound.mem i (mem.symm.trans held) traps with fault | unnumbered | owns
    · exact .inl fault
    · exact .inr (.inl unnumbered)
    · rw [was] at owns
      dsimp only
      rw [now, exe]
      exact .inr (.inr (later _ _ _ owns))
  · intro i held traps
    rcases sound.wb i (wb.symm.trans held) traps with fault | owns
    · exact .inl fault
    · rw [was] at owns
      rw [now]
      exact .inr (later _ _ _ owns)
  · intro _ i held' faulted
    obtain rfl : inst = i := Option.some.inj (held.symm.trans held')
    exact fault faulted
  · change Unpredicted u.exe t.exe
    rw [exe]
    exact sound.exeFault
  · change Unpredicted u.mem t.mem
    rw [mem]
    exact sound.memFault
  · change Unpredicted u.wb t.wb
    rw [wb]
    exact sound.wbFault

/-- ID is filled without a call of `predict`: by a trap that waits, or by one whose fetch has
faulted. -/
theorem fillTrap_sound (sound : t.Sound ring size (2 + t.run.pipe.idValid.toNat))
    (calm : u.front.Calm) (low : u.Low) (held : u.idInst = some inst)
    (same : ring u.pred = ring t.run.pipe.pred)
    (trap : inst.excepts = true ∧ (inst.faulted = true ∨ t.run.pipe.idWaitRedirect = true)) :
    (t.afterFill ring u).Sound ring size (2 + u.idValid.toNat) ∧
      t.Grows ring size (t.afterFill ring u) := by
  have none : t.taken ring u = none := if_neg (by rw [same]; exact Nat.lt_irrefl _)
  have zero : ring u.pred = (ring t.run.pipe.pred).reads 0 0 := same
  constructor
  · refine filled_sound issued was now sound calm low held (.inr trap)
      (by rw [same]; exact sound.kept) (length_reads sound.length zero) (fun _ => none) ?_
    intro stamp i d owns
    rw [same]
    exact owns.mono (Nat.le_succ _)
  · have log : (t.afterFill ring u).log ring = (ring u.pred).log := by
      rw [Tagged.log, afterFill_run]
    exact grows_reads sound.kept sound.length zero (.inl rfl) log
      (congrArg Tagged.owners (afterFill_filled was now))

end Fill

section Take

variable {record : ρ} {n : Nat}
variable (same : ring u.pred =
  ((ring t.run.pipe.pred).take size record).reads inst.bpMetaIdx n)

include same

/-- The call of `predict` and the reads after it. -/
theorem length_taken : (ring u.pred).log.length = (t.log ring).length + (1 + n) := by
  rw [same, Ring.length_reads, Ring.log_take, List.length_append, Nat.add_assoc]
  rfl

/-- The instruction in ID has taken its record with the first event of the stage. -/
theorem taken_eq : t.taken ring u = some (t.log ring).length := by
  have length := length_taken same
  exact if_pos (by omega)

/-- All that the stage adds to the log belongs to the instruction in ID. -/
theorem assign_taken : t.assign ring u (t.taken ring u) =
    t.owners ++ [some (t.log ring).length] ++ List.replicate n (some (t.log ring).length) := by
  rw [assign, length_taken same, Nat.add_sub_cancel_left, Nat.add_comm 1 n, List.replicate_succ,
    taken_eq same, List.append_cons]

/-- The reads that follow a call of `predict` read the record that has just been taken. -/
theorem grows_taken (sound : t.Sound ring size bound) (pos : 0 < size)
    (was : t.run.pipe.idValid = false) (now : u.idValid = true)
    (index : inst.bpMetaIdx = (ring t.run.pipe.pred).next) :
    t.Grows ring size (t.afterFill ring u) := by
  have log : (t.afterFill ring u).log ring = (ring u.pred).log := by
    rw [Tagged.log, afterFill_run]
  have owners : (t.afterFill ring u).owners = t.assign ring u (t.taken ring u) :=
    congrArg Tagged.owners (afterFill_filled was now)
  refine ⟨?_, ?_, ?_⟩
  · rw [log, same]
    have first : t.log ring <+: ((ring t.run.pipe.pred).take size record).log :=
      List.prefix_append _ _
    exact first.trans (Ring.prefix_reads _ _ _)
  · rw [owners]
    exact List.prefix_append _ _
  · rw [log, same, owners, assign_taken same]
    intro own
    obtain ⟨k, record', stamped, taken, recent⟩ : Owns
        ((ring t.run.pipe.pred).take size record).log (some (t.log ring).length) inst 0 :=
      owns_taken (ring t.run.pipe.pred) record index
    obtain rfl := Option.some.inj stamped
    refine (own.take sound.length record _).reads ?_ (sound.kept.take record) taken
      (recent.trans_lt pos) n
    rw [List.length_append, sound.length, Ring.log_take, List.length_append]
    rfl

end Take

/-- ID has been empty, and is filled: with a call of `predict`, or by a trap without one. -/
theorem fill_sound (sound : t.Sound ring size (2 + t.run.pipe.idValid.toNat)) (pos : 0 < size)
    (issued : u.issued = t.run.pipe.issued) (was : t.run.pipe.idValid = false)
    (now : u.idValid = true) (calm : u.front.Calm) (low : u.Low) (held : u.idInst = some inst)
    (fills : ring u.pred = ring t.run.pipe.pred ∧ inst.excepts = true ∧
        (inst.faulted = true ∨ t.run.pipe.idWaitRedirect = true) ∨
      inst.faulted = false ∧ inst.bpMetaIdx = (ring t.run.pipe.pred).next ∧
        ∃ record n, ring u.pred =
          ((ring t.run.pipe.pred).take size record).reads inst.bpMetaIdx n) :
    (t.afterFill ring u).Sound ring size (2 + u.idValid.toNat) ∧
      t.Grows ring size (t.afterFill ring u) := by
  rcases fills with ⟨same, trap⟩ | ⟨plain, index, record, n, same⟩
  · exact fillTrap_sound issued was now sound calm low held same trap
  · have owns : Owns ((ring t.run.pipe.pred).take size record).log (some (t.log ring).length)
        inst 0 := owns_taken (ring t.run.pipe.pred) record index
    refine ⟨filled_sound issued was now sound calm low held ?_ ?_ ?_ ?_ ?_,
      grows_taken same sound pos was now index⟩
    · rw [taken_eq same, same]
      exact .inl (owns.reads _ n)
    · rw [same]
      exact (sound.kept.take record).reads _ n
    · rw [assign_taken same, length_taken same]
      simp only [List.length_append, List.length_replicate, List.length_singleton, sound.length]
      omega
    · intro faulted
      cases plain.symm.trans faulted
    · intro stamp i d owns
      rw [same]
      exact (owns.take record).reads _ n

/-- `preId` fills ID, and what is done to the flags after it does not matter. -/
theorem preId_sound (onRing : B.OnRing size ring) (pos : 0 < size)
    (sound : t.Sound ring size (2 + t.run.pipe.idValid.toNat)) (was : t.run.pipe.idValid = false)
    (s : Pipeline δ π) (latched : s.latched = t.run.pipe.latched) (pred : s.pred = t.run.pipe.pred)
    (low : s.Low) (fetched : s.fetchInst = t.run.pipe.fetchInst)
    (fetching : ∀ i ∈ s.fetching, Inst.excepts i = false)
    (stalled : ∀ i, s.idStallInst = some i → i.excepts = false) {wrapper : Option Inst}
    (calm : ∀ i, wrapper = some i → i.excepts = false)
    (remain : s.idRemainSize = t.run.pipe.idRemainSize) (copied : s.idInst = t.run.pipe.idInst) :
    Returns (s.preId P B wrapper) fun r => r.2.idValid = s.idValid ∧
      ∀ u : Pipeline δ π, u.idValid = true →
      u.latched = r.2.latched → u.fetchInst = r.2.fetchInst →
      u.fetching = r.2.fetching → u.idStallInst = r.2.idStallInst →
      u.idInst = r.2.idInst → u.pred = r.2.pred → (r.2.Low → u.Low) →
      (t.afterFill ring u).Sound ring size (2 + u.idValid.toNat) ∧
        t.Grows ring size (t.afterFill ring u) := by
  cases chosen : (if s.idRemainSize ≤ 0 then wrapper else s.idInst) with
  | none =>
      unfold Pipeline.preId
      rw [chosen]
      exact returns_error _ _
  | some i =>
      have trap (traps : i.excepts = true) : t.run.pipe.idWaitRedirect = true := by
        split at chosen
        · cases (calm i chosen).symm.trans traps
        · rename_i more
          exact sound.calm.copied was (by rw [remain] at more; exact Int.not_le.1 more) i
            (copied.symm.trans chosen) traps
      intro r ran
      have reads := Pipeline.preId_reads onRing chosen r ran
      refine ⟨reads.valid, ?_⟩
      intro u now same fetched' fetching' stalled' held' pred' low'
      have issued := Pipeline.issued_of_latched
        (same.trans ((Pipeline.preId_latched P B wrapper s r ran).trans latched))
      obtain ⟨inst, held, prepared⟩ := reads.prepared
      refine fill_sound sound pos issued was now ⟨?_, ?_, ?_, ?_⟩ (low' (reads.low low))
        (held'.trans held) ?_
      · intro i held
        exact sound.calm.fetched i
          (fetched.symm.trans (reads.fetched.symm.trans (fetched'.symm.trans held)))
      · intro i mem
        exact fetching i (reads.fetching i (fetching' ▸ mem))
      · intro i held
        exact stalled i (reads.stalled.symm.trans (stalled'.symm.trans held))
      · intro empty
        cases now.symm.trans empty
      · rw [pred', ← pred]
        rcases prepared with ⟨same, traps, reason⟩ | ⟨calm, index, taken⟩
        · exact .inl ⟨same, traps, reason.imp_right trap⟩
        · exact .inr ⟨calm low, index, taken⟩

/-- The second half of a fetch that ID has been waiting for fills ID, by the same `preId`. -/
theorem stallStage_sound (onRing : B.OnRing size ring) (pos : 0 < size)
    (sound : t.Sound ring size (2 + t.run.pipe.idValid.toNat)) :
    Returns (t.run.pipe.stallStage P B) fun u =>
      (t.afterFill ring u).Sound ring size (2 + u.idValid.toNat) ∧
        t.Grows ring size (t.afterFill ring u) := by
  unfold Pipeline.stallStage
  split
  next ready =>
    rw [Bool.and_eq_true, Bool.not_eq_true'] at ready
    have calm := sound.calm
    rw [returns_bind]
    refine (preId_sound onRing pos sound ready.1 _ rfl rfl sound.low rfl calm.fetching calm.stalled
      calm.stalled rfl rfl).mono ?_
    rintro ⟨finish, v⟩ ⟨-, fills⟩
    dsimp only
    split
    · exact (returns_pure _ _).2 (fills _ rfl rfl rfl rfl rfl rfl rfl fun low => low)
    · split
      · exact (returns_pure _ _).2 (fills _ rfl rfl rfl rfl rfl rfl rfl fun low => low)
      · exact (returns_pure _ _).2 (fills _ rfl rfl rfl rfl rfl rfl rfl fun low => low)
  next => exact (returns_ok _ _).2 (still_sound sound rfl rfl rfl rfl sound.calm sound.low)

/-- The answer of the ICache fills ID, or waits if ID is still full. -/
theorem icacheAnswered_sound (onRing : B.OnRing size ring) (pos : 0 < size)
    (sound : t.Sound ring size (2 + t.run.pipe.idValid.toNat)) :
    Returns (t.run.pipe.icacheAnswered P B) fun u =>
      (t.afterFill ring u).Sound ring size (2 + u.idValid.toNat) ∧
        t.Grows ring size (t.afterFill ring u) := by
  have calm := sound.calm
  unfold Pipeline.icacheAnswered
  cases waiting : t.run.pipe.fetching with
  | nil => exact returns_error _ _
  | cons inst rest =>
      have all : ∀ i ∈ inst :: rest, Inst.excepts i = false := waiting ▸ calm.fetching
      have rest_calm : ∀ i ∈ rest, Inst.excepts i = false :=
        fun i mem => all i (List.mem_cons_of_mem _ mem)
      have inst_calm : ∀ i, some inst = some i → i.excepts = false := by
        rintro i ⟨⟩
        exact all inst List.mem_cons_self
      dsimp only
      split
      next empty =>
        rw [Bool.not_eq_true'] at empty
        rw [returns_bind]
        refine (preId_sound onRing pos sound empty
          { t.run.pipe with fetching := rest, idValid := true } rfl rfl (sound.low.of_same rfl rfl)
          rfl rest_calm calm.stalled inst_calm rfl rfl).mono ?_
        rintro ⟨finish, v⟩ ⟨valid, fills⟩
        exact (returns_pure _ _).2 (fills _ valid rfl rfl rfl rfl rfl rfl fun low => low)
      next full =>
        refine (returns_pure _ _).2
          (still_sound sound rfl rfl rfl rfl ⟨calm.fetched, rest_calm, inst_calm, ?_⟩
          (sound.low.of_same rfl rfl))
        exact calm.copied

/-- The fetch of an instruction fills ID only if the translation faults, with a trap that has
taken no record. -/
theorem fetchStage_sound (pos : 0 < size) (sound : t.Sound ring size (2 + t.run.pipe.idValid.toNat))
    (takes : Bool) :
    Returns (t.run.pipe.fetchStage P takes) fun u =>
      (t.afterFill ring u).Sound ring size (2 + u.idValid.toNat) ∧
        t.Grows ring size (t.afterFill ring u) := by
  have calm := sound.calm
  unfold Pipeline.fetchStage
  split
  next ready =>
    rw [Bool.and_eq_true, Bool.not_eq_true'] at ready
    cases held : t.run.pipe.fetchInst with
    | none => exact returns_error _ _
    | some inst =>
        dsimp only
        rw [returns_bind]
        refine (Pipeline.translateFetch_faulted P inst t.run.pipe
          (calm.fetched inst held)).mono ?_
        rintro ⟨inst, arch⟩ ⟨priv, fault⟩
        have fetched (i : Inst) (held : some inst = some i) (traps : i.excepts = true) :
            i.faulted = true := by
          cases held
          exact fault traps
        dsimp only
        split
        next excepts =>
          split
          next =>
            -- A block whose fetch has faulted goes to ID, or it stays where it is.
            refine (returns_pure _ _).2 (fill_sound sound pos rfl ready.2 rfl ?_
              (sound.low.of_same priv rfl) rfl (.inl ⟨rfl, excepts, .inl (fault excepts)⟩))
            exact ⟨fetched, calm.fetching, calm.stalled, nofun⟩
          next =>
            exact (returns_pure _ _).2
              (still_sound sound rfl rfl rfl rfl
                ⟨fetched, calm.fetching, calm.stalled, calm.copied⟩ (sound.low.of_same priv rfl))
        next plain =>
          split
          next =>
            refine (returns_pure _ _).2
              (still_sound sound rfl rfl rfl rfl ⟨fetched, ?_, calm.stalled, calm.copied⟩
                (sound.low.of_same priv rfl))
            intro i mem
            rcases List.mem_append.1 mem with old | new
            · exact calm.fetching i old
            · rw [List.mem_singleton.1 new]
              exact Bool.eq_false_iff.2 plain
          next =>
            exact (returns_pure _ _).2
              (still_sound sound rfl rfl rfl rfl
                ⟨fetched, calm.fetching, calm.stalled, calm.copied⟩ (sound.low.of_same priv rfl))
  next => exact (returns_ok _ _).2 (still_sound sound rfl rfl rfl rfl sound.calm sound.low)

/-- The next instruction to fetch has no exception, and the tick is not looked at. -/
theorem nextFetch_sound (sound : t.Sound ring size (2 + t.run.pipe.idValid.toNat)) (slot : Inst)
    (tick : Word) {u : Pipeline δ π} (next : u = t.run.pipe.nextFetch slot) :
    let v := { u with arch := { u.arch with tick := tick } }
    Sound ring size (2 + v.idValid.toNat) { t with run := { t.run with pipe := v } } ∧
      t.Grows ring size { t with run := { t.run with pipe := v } } := by
  have calm := sound.calm
  have still : u.pred = t.run.pipe.pred ∧ u.idValid = t.run.pipe.idValid ∧
      u.idInst = t.run.pipe.idInst ∧ u.issued = t.run.pipe.issued ∧ u.front.Calm ∧ u.Low := by
    have fresh (info : DecodeInfo) (i : Inst) (code : i.info = { info with exception := excNone })
        (traps : i.excepts = true) : i.faulted = true := by
      rw [Inst.excepts, code] at traps
      cases traps
    rw [next]
    unfold Pipeline.nextFetch
    split
    · refine ⟨rfl, rfl, rfl, rfl, ⟨?_, calm.fetching, calm.stalled, calm.copied⟩,
        sound.low.of_same rfl rfl⟩
      rintro i ⟨⟩
      exact fresh slot.info _ rfl
    · exact ⟨rfl, rfl, rfl, rfl, calm, sound.low⟩
  obtain ⟨pred, valid, held, issued, front, low⟩ := still
  intro v
  have valid : v.idValid = t.run.pipe.idValid := valid
  have result := still_sound (u := v) sound issued (congrArg ring pred) valid held front
    (low.of_same rfl rfl)
  rw [afterFill_still valid] at result
  rw [valid]
  exact result

/-- A step in which no trap of a fetch that faulted is in WB leaves what is owned alone; the
redirect of such a trap reads for nobody. -/
theorem exec_sound (onRing : B.OnRing size ring)
    (sound : t.Sound ring size (2 + t.run.pipe.idValid.toNat)) (large : 4 ≤ size) (takes : Bool)
    (slot : Inst) :
    Returns (t.exec P p B ring takes slot) fun u =>
      u.Sound ring size (2 + u.run.pipe.idValid.toNat) ∧
      (t.run.pipe.wb.any Inst.faulted = false → t.Grows ring size u) ∧
      (t.run.pipe.wb.any Inst.faulted = true → ∃ slot,
        ((ring t.run.pipe.pred).read slot).log <+: u.log ring ∧
        t.owners ++ [none] <+: u.owners) := by
  have pos : 0 < size := by omega
  unfold exec
  split
  · exact returns_error _ _
  simp only [returns_bind, returns_pure]
  intro u ran
  obtain ⟨retired, free, grows, fault⟩ :=
    wbStage_sound onRing sound large (2 + u.idValid.toNat) u ran
  have pipe : (t.afterWb ring u).run.pipe = u := Numbered.afterWb_pipe t.run u
  generalize t.afterWb ring u = t₁ at retired grows fault pipe ⊢
  subst pipe
  -- The stages in their order; each state is named, and the one before forgotten.
  obtain ⟨left, grows₁⟩ := memStage_sound retired free
  obtain ⟨-, calm, trapWaits⟩ := Numbered.memStage_queued retired.queued free
  have pipe : (t₁.afterMem t₁.run.pipe.memStage).run.pipe = t₁.run.pipe.memStage :=
    Numbered.afterMem_pipe t₁.run _
  have valid : t₁.run.pipe.memStage.idValid = t₁.run.pipe.idValid := by
    rcases Pipeline.memStage_cases t₁.run.pipe with ⟨stays, -⟩ | ⟨inst, marks, -, leaves⟩
    · rw [stays]
    · rw [leaves]
  generalize t₁.afterMem t₁.run.pipe.memStage = t₂ at left grows₁ pipe ⊢
  rw [← pipe] at calm trapWaits valid
  rw [← valid] at left
  intro v executed
  obtain ⟨entered, grows₂, trapWaits⟩ := exeStage_sound onRing left large calm trapWaits v executed
  have pipe : (t₂.afterExe ring v).run.pipe = v := Numbered.afterExe_pipe t₂.run v
  generalize t₂.afterExe ring v = t₃ at entered grows₂ pipe ⊢
  subst pipe
  intro w decoded
  obtain ⟨handed, grows₃⟩ := idStage_sound onRing entered large trapWaits w decoded
  have pipe : (t₃.afterId ring w).run.pipe = w := Numbered.afterId_pipe t₃.run w
  generalize t₃.afterId ring w = t₄ at handed grows₃ pipe ⊢
  subst pipe
  intro x stalled
  have handed : t₄.Sound ring size (2 + t₄.run.pipe.idValid.toNat) :=
    -- What fills the stages before ID takes one record more than a trap in WB counts.
    { handed with wb := fun inst held traps =>
        (handed.wb inst held traps).imp_right fun owns => owns.mono (Nat.le_add_right _ _) }
  obtain ⟨filled, grows₄⟩ := stallStage_sound onRing pos handed x stalled
  have pipe : (t₄.afterFill ring x).run.pipe = x := by rw [afterFill_run]
  generalize t₄.afterFill ring x = t₅ at filled grows₄ pipe ⊢
  subst pipe
  intro y fetched
  obtain ⟨filled, grows₅⟩ := fetchStage_sound pos filled takes y fetched
  have pipe : (t₅.afterFill ring y).run.pipe = y := by rw [afterFill_run]
  generalize t₅.afterFill ring y = t₆ at filled grows₅ pipe ⊢
  subst pipe
  obtain ⟨next, grows₆⟩ := nextFetch_sound filled slot
    ((t₆.run.pipe.nextFetch slot).arch.tick + 1) rfl
  have later := grows₁.trans (grows₂.trans (grows₃.trans (grows₄.trans (grows₅.trans grows₆))))
  refine ⟨next, fun calm => (grows calm).trans later, fun faulted => ?_⟩
  obtain ⟨slot', log, owners⟩ := fault faulted
  exact ⟨slot', log ▸ later.log, owners ▸ later.owners⟩

/-- A step that leaves fetch and ID alone. -/
theorem still_of_front (sound : t.Sound ring size (2 + t.run.pipe.idValid.toNat))
    (issued : u.issued = t.run.pipe.issued) (pred : u.pred = t.run.pipe.pred)
    (front : u.front = t.run.pipe.front)
    (priv : u.arch.state.get .priv = t.run.pipe.arch.state.get .priv)
    (env : u.envInfo = t.run.pipe.envInfo) :
    (t.afterFill ring u).Sound ring size (2 + u.idValid.toNat) ∧
      t.Grows ring size (t.afterFill ring u) := by
  have valid : u.idValid = t.run.pipe.idValid := congrArg Front.idValid front
  rw [valid]
  refine still_sound sound issued (congrArg ring pred) valid (congrArg Front.idInst front) ?_
    (sound.low.of_same priv env)
  rw [front]
  exact sound.calm

/-- Every step keeps what is owned. No step reads another's record but the redirect of a trap
whose fetch has faulted, and that one reads for nobody. -/
theorem step_sound (onRing : B.OnRing size ring)
    (sound : t.Sound ring size (2 + t.run.pipe.idValid.toNat)) (large : 4 ≤ size)
    (j : PipelineStep δ) :
    Returns (t.step P p B ring j) fun u =>
      u.Sound ring size (2 + u.run.pipe.idValid.toNat) ∧
      (¬ t.run.pipe.RedirectsFault j → t.Grows ring size u) ∧
      (t.run.pipe.RedirectsFault j → ∃ slot,
        ((ring t.run.pipe.pred).read slot).log <+: u.log ring ∧
        t.owners ++ [none] <+: u.owners) := by
  have pos : 0 < size := by omega
  have between {x : Except Halt (Pipeline δ π)} (moves : Returns x fun u =>
      (t.afterFill ring u).Sound ring size (2 + u.idValid.toNat) ∧
        t.Grows ring size (t.afterFill ring u)) :
      Returns (x.map (t.afterFill ring)) fun u =>
        u.Sound ring size (2 + u.run.pipe.idValid.toNat) ∧
        (¬ False → t.Grows ring size u) ∧
        (False → ∃ slot, ((ring t.run.pipe.pred).read slot).log <+: u.log ring ∧
          t.owners ++ [none] <+: u.owners) := by
    rw [returns_map]
    refine moves.mono ?_
    rintro u ⟨moved, grows⟩
    rw [afterFill_run]
    exact ⟨moved, fun _ => grows, False.elim⟩
  have ticks (i : CacheStep) : Returns (t.run.pipe.runDCache p i) fun u =>
      (t.afterFill ring u).Sound ring size (2 + u.idValid.toNat) ∧
        t.Grows ring size (t.afterFill ring u) := by
    intro u ran
    obtain ⟨front, pred, arch, env⟩ := Pipeline.runDCache_front p i t.run.pipe u ran
    exact still_of_front sound (Pipeline.runDCache_issued p i t.run.pipe u ran) pred front
      (by rw [arch]) env
  cases j with
  | exec takes slot =>
      refine (exec_sound onRing sound large takes slot).mono ?_
      rintro u ⟨moved, grows, fault⟩
      refine ⟨moved, fun calm => grows ?_, fault⟩
      exact Bool.eq_false_iff.2 calm
  | icacheAnswer => exact between (icacheAnswered_sound onRing pos sound)
  | dcacheTick accepts => exact between (ticks (.tick accepts false))
  | dcacheAnswer index => exact between (ticks (.answer index false))
  | device dev irq =>
      have moved : Returns (t.run.pipe.step P p B (.device dev irq)) fun u =>
          (t.afterFill ring u).Sound ring size (2 + u.idValid.toNat) ∧
            t.Grows ring size (t.afterFill ring u) := by
        refine (returns_ok _ _).2 (still_of_front sound rfl rfl rfl ?_ rfl)
        cases irq with
        | none => rfl
        | some irq => exact ArchState.get_set_of_ne _ _ (by decide)
      exact between moved

/-- Nothing has been taken. -/
theorem start_sound {arch : RiscvArch δ} (mode : arch.state.get .priv < 4) {pred : π}
    {slots : Nat → ρ} (unused : ring pred = ⟨slots, 0, []⟩) (startPc : Word) :
    (start (Pipeline.afterLoad p arch pred startPc)).Sound ring size 2 := by
  refine ⟨Numbered.start_queued arch pred startPc,
    ⟨forall_held_none _, List.forall_mem_nil _, forall_held_none _, nofun⟩, ⟨mode, nofun, nofun⟩,
    ?_, ?_, nofun, forall_held_none _, forall_held_none _, forall_held_none _, nofun,
    unpredicted_none _, unpredicted_none _, unpredicted_none _⟩
  · change (ring pred).Kept size
    rw [unused]
    exact Ring.kept_start slots
  · change 0 = (ring pred).log.length
    rw [unused]
    rfl

end Steps

/-- In a run of a pipeline with a predictor on a ring of four or more records every redirect and
every update reads the record that was taken for its own instruction, exactly when no redirect is
that of a fetch that has faulted. -/
theorem readsOwn_iff {B : Predictor π} {size : Nat} {ring : π → Ring ρ}
    (onRing : B.OnRing size ring) (large : 4 ≤ size) (P : Platform δ) (p : PipelineParams)
    {arch : RiscvArch δ} (mode : arch.state.get .priv < 4) {pred : π} {slots : Nat → ρ}
    (unused : ring pred = ⟨slots, 0, []⟩) (startPc : Word) (steps : List (PipelineStep δ)) :
    (∀ before, before <+: steps →
      Returns (runSteps (step P p B ring) (start (.afterLoad p arch pred startPc)) before)
        fun t => Ring.ReadsOwn size (t.log ring) t.owners) ↔
      ∀ t j, Visits (step P p B ring) (start (.afterLoad p arch pred startPc)) steps t j →
        ∀ u, t.step P p B ring j = .ok u → ¬ t.run.pipe.RedirectsFault j := by
  have empty : Ring.ReadsOwn size ((Tagged.start (.afterLoad p arch pred startPc)).log ring)
      (Tagged.start (.afterLoad p arch pred startPc)).owners := by
    intro m slot record found
    rw [show (Tagged.start (Pipeline.afterLoad p arch pred startPc)).log ring = (ring pred).log
      from rfl, unused] at found
    cases found
  let inv (t : Tagged δ π) : Prop := t.Sound ring size (2 + t.run.pipe.idValid.toNat) ∧
    Ring.ReadsOwn size (t.log ring) t.owners
  have start : inv (Tagged.start (.afterLoad p arch pred startPc)) :=
    ⟨start_sound mode unused startPc, empty⟩
  have keeps (t : Tagged δ π) (j : PipelineStep δ) (u : Tagged δ π) (held : inv t)
      (good : ¬ (t.run.pipe.RedirectsFault j ∧ ∃ u, t.step P p B ring j = .ok u))
      (moved : t.step P p B ring j = .ok u) :
      inv u ∧ Ring.ReadsOwn size (u.log ring) u.owners := by
    obtain ⟨sound, grows, -⟩ := step_sound onRing held.1 large j u moved
    have own := (grows fun fault => good ⟨fault, u, moved⟩).own held.2
    exact ⟨⟨sound, own⟩, own⟩
  have breaks (t : Tagged δ π) (j : PipelineStep δ) (held : inv t)
      (bad : t.run.pipe.RedirectsFault j ∧ ∃ u, t.step P p B ring j = .ok u) :
      ∃ u, t.step P p B ring j = .ok u ∧ ¬ Ring.ReadsOwn size (u.log ring) u.owners := by
    obtain ⟨fault, u, moved⟩ := bad
    obtain ⟨slot, log, owners⟩ := (step_sound onRing held.1 large j u moved).2.2 fault
    exact ⟨u, moved, Ring.not_readsOwn_of_prefix held.1.length log owners⟩
  refine (runSteps_prefix_returns_iff inv keeps breaks start empty steps).trans ?_
  constructor
  · intro good t j visit u moved fault
    exact good t j visit ⟨fault, u, moved⟩
  · rintro good t j visit ⟨fault, u, moved⟩
    exact good t j visit u moved fault

end Tagged

/-- Throughout a run every redirect and every update of `PipePredictor` reads the record that
`predict` took for its own instruction, and that no later `predict` has taken since. -/
def RecordsOwn {σ μ : Type} (C : PipePredictor σ μ) (P : Platform δ) (p : PipelineParams)
    (s : Pipeline δ (LoggedPredictor σ μ)) (steps : List (PipelineStep δ)) : Prop :=
  ∀ before, before <+: steps →
    Returns (runSteps (Tagged.step P p C.logged LoggedPredictor.ring) (.start s) before)
      fun t => Ring.ReadsOwn C.retireSize (t.log LoggedPredictor.ring) t.owners

/-- With four records or more, each is read only for the instruction it was taken for, exactly
when WB never redirects for a fetch that has faulted. Such an instruction is handed on without a
call of `predict`, with the index its `Inst` had before. The tags of `Tagged` follow the records
through the stages, and at most three records are taken between the one of an instruction and
its last redirect. -/
theorem recordsOwn_iff {σ μ : Type} (C : PipePredictor σ μ) (large : 4 ≤ C.retireSize)
    (P : Platform δ) (p : PipelineParams) {arch : RiscvArch δ} (mode : arch.state.get .priv < 4)
    (metas : Nat → PipeRecord μ) (other : σ) (startPc : Word) (steps : List (PipelineStep δ)) :
    RecordsOwn C P p (.afterLoad p arch ⟨PipePredictor.afterLoad metas other, []⟩ startPc) steps ↔
      ∀ t j, Visits (Tagged.step P p C.logged LoggedPredictor.ring)
          (.start (.afterLoad p arch ⟨PipePredictor.afterLoad metas other, []⟩ startPc)) steps t j →
        ∀ u, t.step P p C.logged LoggedPredictor.ring j = .ok u →
          ¬ t.run.pipe.RedirectsFault j :=
  Tagged.readsOwn_iff C.logged_onRing large P p mode rfl startPc steps

/-! ### A trap without a record -/

instance (s : Pipeline δ π) (j : PipelineStep δ) : Decidable (s.RedirectsFault j) := by
  cases j <;> unfold Pipeline.RedirectsFault <;> infer_instance

/-- The trap of an `ecall` and the jump behind it read their own records. -/
theorem recordsOwn_iff_jumpSteps :
    RecordsOwn twoTables (ramOnly 4096) tenSlots
      (.afterLoad tenSlots (Machine.reset archCfg jumpImage).arch
        ⟨PipePredictor.afterLoad (fun _ => blankRecord) (), []⟩ 0x80000000) jumpSteps := by
  have mode : (Machine.reset archCfg jumpImage).arch.state.get .priv < 4 := by decide +kernel
  refine (recordsOwn_iff twoTables (by decide) (ramOnly 4096) tenSlots mode
    (fun _ => blankRecord) () 0x80000000 jumpSteps).2 ?_
  have calm := (trail_iff
    (Tagged.step (ramOnly 4096) tenSlots twoTables.logged LoggedPredictor.ring)
    (fun t j => ¬ t.run.pipe.RedirectsFault j)
    (.start (.afterLoad tenSlots (Machine.reset archCfg jumpImage).arch
      ⟨PipePredictor.afterLoad (fun _ => blankRecord) (), []⟩ 0x80000000)) jumpSteps).1
    (by decide +kernel)
  intro t j visit u moved
  exact calm t j visit

/-- `addi t0, x0, 1; slli t0, t0, 44; addi t0, t0, 1; slli t0, t0, 19; csrw satp, t0`: a page
table that is empty. -/
def satpImage : Memory Unit :=
  imageOf [0x00100293, 0x02c29293, 0x00128293, 0x01329293, 0x18029073]

/-- `arch.cfg` with `priv=1`. -/
def supervisorCfg : List (StateWord × Word) := [(.misa, 9223372036856090927), (.priv, 1)]

/-- Up to the tick WB redirects for the fetch behind `csrw`. -/
def satpSteps : List (PipelineStep Unit) :=
  .exec true .zero :: (List.replicate 5 execFetched).flatten ++
    List.replicate 6 (.exec true .zero)

/-- The fetch behind `csrw` faults without a call of `predict`, and the redirect of its trap reads
the record of the first `addi`. -/
theorem not_recordsOwn_satpSteps :
    ¬ RecordsOwn twoTables (ramOnly 4096) tenSlots
      (.afterLoad tenSlots (Machine.reset supervisorCfg satpImage).arch
        ⟨PipePredictor.afterLoad (fun _ => blankRecord) (), []⟩ 0x80000000) satpSteps := by
  intro all
  obtain ⟨t, ran, seen⟩ := exists_ok_of_toOption
    (show (runSteps (Tagged.step (ramOnly 4096) tenSlots twoTables.logged LoggedPredictor.ring)
        (.start (.afterLoad tenSlots (Machine.reset supervisorCfg satpImage).arch
          ⟨PipePredictor.afterLoad (fun _ => blankRecord) (), []⟩ 0x80000000))
        satpSteps).toOption.map (fun t =>
          (((t.log LoggedPredictor.ring)[6]?).map RingEvent.isTake, t.owners[6]?)) =
        some (some false, some none) by decide +kernel)
  rw [Prod.mk.injEq, Option.map_eq_some_iff] at seen
  obtain ⟨⟨e, last, reads⟩, owner⟩ := seen
  cases e with
  | takes slot record => cases reads
  | reads slot record =>
      obtain ⟨k, owned, -⟩ := all satpSteps (List.prefix_refl _) t ran 6 slot record last
      rw [owner] at owned
      cases owned

end CPUDelaySim
