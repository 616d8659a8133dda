import CPUDelaySim.Riscv.FetchPages
import CPUDelaySim.Riscv.Run
import Mathlib.Logic.Relation

/-!
# The processors without a pipeline

`AtomicCPU` and `CacheCPU` are to run one instruction after another.  `Sequential` is the
machine that does: it translates the pc, and takes the page fault of the fetch or executes the
instruction at the translated address.

`AtomicCPU` tests the code of the translation against zero, where `EXC_NONE` is 31, so it never
decodes.  `CacheCPU` marks a faulting fetch as an instruction to decode, so the fault is never
taken.  `driversFollow_iff` says that each is sequential exactly on the other one's runs: the
first as long as every fetch faults, the second as long as none does.

`Sequential` is no third processor: its step is a call of `translateAddr`, of `decode` or
`handleException`, and of `updateEnv`.  What a driver does besides, the tick of the counters and
of the devices, is `Between`: it moves `mip` and no other word, and neither RAM nor the translation
switches.

For `CacheCPU` the address of a fetch is kept from one call of `exec` to a later one, and the
cache answers in between; `Ready` says that it is still where the pc leads.  For `AtomicCPU` there
is nothing to keep, except that its record has been set by nothing but faults (`Unread`).
-/

namespace CPUDelaySim

open Riscv RiscvArch

variable {δ : Type}

/-! ### The sequential machine -/

/-- `RiscvArch` between two instructions, with the record and the pc of a processor. -/
structure Sequential (δ : Type) where
  arch : RiscvArch δ
  info : DecodeInfo
  pc : Word

namespace Sequential

/-- The record is applied. -/
def update (P : Platform δ) (arch : RiscvArch δ) (info : DecodeInfo) :
    Except Abort (Sequential δ) := do
  let (pc, arch) ← arch.updateEnv P info
  return ⟨arch, info, pc⟩

/-- The instruction at a physical address is decoded and applied. -/
def execute (P : Platform δ) (q : Sequential δ) (paddr : Word) : Except Abort (Sequential δ) := do
  let (arch, info) ← q.arch.decode P q.pc paddr q.info
  update P arch info

/-- The instruction page fault at the pc is taken. -/
def fault (P : Platform δ) (q : Sequential δ) : Except Abort (Sequential δ) :=
  let r := q.arch.handleException excIPF q.pc q.info
  update P r.1 r.2

/-- One sequential step. -/
def step (P : Platform δ) (q : Sequential δ) : Except Abort (Sequential δ) := do
  let (paddr, exception, arch) ← q.arch.translateAddr P q.pc .ifetch excNone
  let q := { q with arch := arch }
  if exceptionValid exception then q.fault P else q.execute P paddr

/-- `inst_count++`. -/
def retire (q : Sequential δ) : Sequential δ :=
  { q with arch := { q.arch with instret := q.arch.instret + 1 } }

/-- `upTick`. -/
def upTick (q : Sequential δ) : Sequential δ :=
  { q with arch := { q.arch with tick := q.arch.tick + 1 } }

/-- The devices tick and may publish an interrupt vector. -/
def devices (q : Sequential δ) (dev : δ) (irq : Option Word) : Sequential δ :=
  let arch : RiscvArch δ := { q.arch with memory := { q.arch.memory with dev := dev } }
  { q with arch := arch.irqListener irq }

/-- The fetch at the pc has a translation. -/
def Translates (P : Platform δ) (q : Sequential δ) : Prop :=
  ∃ paddr arch, q.arch.translateAddr P q.pc .ifetch excNone = .ok (paddr, excNone, arch)

/-- The fetch at the pc faults. -/
def Faults (P : Platform δ) (q : Sequential δ) : Prop :=
  ∃ paddr arch, q.arch.translateAddr P q.pc .ifetch excNone = .ok (paddr, excIPF, arch)

/-- The privilege is a mode of two bits. -/
def Low (q : Sequential δ) : Prop := q.arch.state.get .priv < 4

/-- What is not an instruction moves at most the devices, `mip`, the counters and `env->pc`,
and what the record holds. -/
structure Between (q r : Sequential δ) : Prop where
  pc : r.pc = q.pc
  state : ∀ w, w ≠ .mip → r.arch.state.get w = q.arch.state.get w
  ram : r.arch.memory.ram = q.arch.memory.ram
  ifetchMmuState : r.arch.ifetchMmuState = q.arch.ifetchMmuState
  dataMmuState : r.arch.dataMmuState = q.arch.dataMmuState

/-- A sequential step, or what is between two of them. -/
def Moves (P : Platform δ) (q r : Sequential δ) : Prop :=
  (∃ t, q.step P = .ok t ∧ r = t.retire) ∨ Between q r

section Steps

variable {P : Platform δ} {q r : Sequential δ}

/-- Nothing has come between. -/
theorem Between.refl (q : Sequential δ) : Between q q := ⟨rfl, fun _ _ => rfl, rfl, rfl, rfl⟩

/-- What comes between two calls may come in two parts. -/
theorem Between.trans {t : Sequential δ} (first : Between q r) (second : Between r t) :
    Between q t where
  pc := second.pc.trans first.pc
  state w apart := (second.state w apart).trans (first.state w apart)
  ram := second.ram.trans first.ram
  ifetchMmuState := second.ifetchMmuState.trans first.ifetchMmuState
  dataMmuState := second.dataMmuState.trans first.dataMmuState

/-- Between two calls the page tables and the modes stay. -/
theorem Between.sameTables (between : Between q r) : SameTables q.arch r.arch where
  ram := between.ram
  ifetch := between.ifetchMmuState
  data := between.dataMmuState
  satp := between.state _ (by decide)
  priv := between.state _ (by decide)
  mstatus := between.state _ (by decide)

/-- The mode stays, so that it is one of the four. -/
theorem Between.low (between : Between q r) (low : q.Low) : r.Low := by
  rw [Low, between.state _ (by decide)]
  exact low

/-- A device may change, and its interrupt line with it. -/
theorem between_devices (q : Sequential δ) (dev : δ) (irq : Option Word) :
    Between q (q.devices dev irq) where
  pc := rfl
  state _ apart := irqListener_get _ irq apart
  ram := by cases irq <;> rfl
  ifetchMmuState := by cases irq <;> rfl
  dataMmuState := by cases irq <;> rfl

/-- A translation moves what a device read moves. -/
theorem between_of_frame {arch : RiscvArch δ} (frame : ReadFrame q.arch arch) :
    Between q { q with arch := arch } where
  pc := rfl
  state _ apart := frame.get apart
  ram := frame.exec.ram
  ifetchMmuState := frame.exec.ifetchMmuState
  dataMmuState := frame.exec.dataMmuState

/-- `handleException` moves `env->pc` and the record. -/
theorem between_handleException (q : Sequential δ) (exception : Word) :
    Between q { q with
      arch := (q.arch.handleException exception q.pc q.info).1
      info := (q.arch.handleException exception q.pc q.info).2 } := by
  unfold handleException
  split <;> exact ⟨rfl, fun _ _ => rfl, rfl, rfl, rfl⟩

/-- A fetch is translated, faults, or finds no table. -/
theorem fetch_cases (P : Platform δ) (q : Sequential δ) :
    q.Translates P ∨ q.Faults P ∨
      ∃ e, q.arch.translateAddr P q.pc .ifetch excNone = .error e := by
  cases ran : q.arch.translateAddr P q.pc .ifetch excNone with
  | error e => exact .inr (.inr ⟨e, rfl⟩)
  | ok r =>
      obtain ⟨paddr, code, arch⟩ := r
      rcases translateAddr_code ran with rfl | rfl
      · exact .inl ⟨paddr, arch, ran⟩
      · exact .inr (.inl ⟨paddr, arch, ran⟩)

/-- An executed record holds no instruction page fault. -/
theorem execute_not_fault (low : q.Low) (paddr : Word) :
    Returns (q.execute P paddr) fun r => r.info.exception ≠ excIPF := by
  simp only [execute, update, returns_bind, returns_pure]
  refine (decode_not_fault low q.pc paddr q.info).mono ?_
  rintro ⟨arch, info⟩ code next _
  exact code

/-- The modes that `updateEnv` enters have two bits. -/
theorem update_low {arch : RiscvArch δ} {info : DecodeInfo}
    (kept : Machine.Keeps (· < 4) (fun _ => True) ⟨arch, some info⟩) :
    Returns (update P arch info) Low := by
  have closed : Machine.Closed (· < 4) fun _ => True :=
    ⟨by decide, by decide, trivial, fun _ _ _ _ => trivial⟩
  have low (v : Word) : v &&& 0x3 < 4 := by
    rw [and_three]
    generalize v.setWidth 2 = u
    revert u
    decide
  have updated := Machine.updateEnv_keeps closed P kept ⟨fun _ => low _, fun _ => low _⟩
  simp only [Machine.step, returns_bind, returns_pure] at updated
  simp only [update, returns_bind, returns_pure]
  exact updated.mono fun r keeps => keeps.priv

/-- A call leaves one of the four modes. -/
theorem execute_low (low : q.Low) (paddr : Word) : Returns (q.execute P paddr) Low := by
  rw [execute, returns_bind]
  refine (decode_spec P q.arch q.pc paddr q.info).mono ?_
  rintro ⟨arch, info⟩ spec
  obtain ⟨b, apart⟩ := spec.apart
  refine update_low (Machine.keeps_record ?_ (fun _ => apart _ (not_targets_priv b)) trivial)
  rw [spec.frame.get .priv (by decide) (by decide) (by decide)]
  exact low

/-- A record with the instruction page fault traps, with what it holds in `exc_data`. -/
theorem update_of_fault (P : Platform δ) (arch : RiscvArch δ) {info : DecodeInfo}
    (code : info.exception = excIPF) :
    update P arch info =
      .ok ⟨(arch.trap info info.excData).2, info, (arch.trap info info.excData).1⟩ := by
  rw [update, updateEnv_fault P arch (by rw [code]; decide)]
  rfl

/-- A trap goes to supervisor or to machine mode. -/
theorem trap_low (arch : RiscvArch δ) (info : DecodeInfo) (tval : Word) :
    (arch.trap info tval).2.state.get .priv < 4 := by
  rcases trap_priv arch info tval with entered | entered
  · rw [entered]
    decide
  · rw [entered]
    decide

/-- A translated instruction is executed, in the machine as it is. -/
theorem step_of_translates {paddr : Word} {arch : RiscvArch δ}
    (ran : q.arch.translateAddr P q.pc .ifetch excNone = .ok (paddr, excNone, arch)) :
    q.step P = q.execute P paddr := by
  have same := translateAddr_same ran
  subst same
  rw [step, ran]
  rfl

/-- A faulting fetch traps with the cause `EXC_IPF`, and the pc as the trap value. -/
theorem step_of_faults {paddr : Word} {arch : RiscvArch δ}
    (ran : q.arch.translateAddr P q.pc .ifetch excNone = .ok (paddr, excIPF, arch)) :
    q.step P = update P { arch with pc := q.pc }
      { q.info with excData := q.pc, exception := excIPF } := by
  rw [step, ran]
  rfl

end Steps

end Sequential

/-- Why a processor stops. -/
inductive Stop
  | machine (why : Abort)
  /-- `updateEnv` with `env->info` null. -/
  | noRecord
  /-- An answer that the instruction cache does not owe. -/
  | unasked

/-- A call of the machine. -/
def Stop.ofArch {α : Type} (x : Except Abort α) : Except Stop α := x.mapError .machine

/-- What the core returns is no stop. -/
@[simp] theorem Stop.ofArch_ok {α : Type} (a : α) : Stop.ofArch (.ok a) = .ok a := rfl

/-- What holds of what the core returns holds of it here. -/
theorem Stop.returns_ofArch {α : Type} {x : Except Abort α} {Q : α → Prop} (h : Returns x Q) :
    Returns (Stop.ofArch x) Q := by
  cases x with
  | error e => exact returns_error _ _
  | ok a =>
      rw [ofArch_ok, returns_ok]
      exact h a rfl

/-! ### `AtomicCPU` -/

/-- `class AtomicCPU`. -/
structure AtomicCpu (δ : Type) extends Sequential δ where
  /-- `env->info` is `info`, no longer null. -/
  current : Bool

/-- What happens to the processor. -/
inductive AtomicCpuStep (δ : Type)
  | exec
  | devices (dev : δ) (irq : Option Word)

namespace AtomicCpu

/-- `afterLoad`. -/
def afterLoad (arch : RiscvArch δ) : AtomicCpu δ := ⟨⟨arch, .zero, startPc⟩, false⟩

/-- The test of the code and its two branches. -/
def prepare (P : Platform δ) (c : AtomicCpu δ) (paddr exception : Word) :
    Except Abort (AtomicCpu δ) :=
  if exception ≠ 0 then
    let r := c.arch.handleException exception c.pc c.info
    .ok { c with arch := r.1, info := r.2, current := c.current || exception == excIPF }
  else do
    let (arch, info) ← c.arch.decode P c.pc paddr c.info
    return { c with arch := arch, info := info, current := true }

/-- `updateEnv` and the counters. -/
def finish (P : Platform δ) (c : AtomicCpu δ) : Except Stop (AtomicCpu δ) :=
  if c.current then
    (Stop.ofArch (Sequential.update P c.arch c.info)).map fun q => ⟨q.upTick.retire, true⟩
  else .error .noRecord

/-- `exec`. -/
def exec (P : Platform δ) (c : AtomicCpu δ) : Except Stop (AtomicCpu δ) := do
  let (paddr, exception, arch) ← Stop.ofArch (c.arch.translateAddr P c.pc .ifetch excNone)
  let c ← Stop.ofArch (prepare P { c with arch := arch } paddr exception)
  c.finish P

/-- What happens to `AtomicCPU`. -/
def step (P : Platform δ) (c : AtomicCpu δ) : AtomicCpuStep δ → Except Stop (AtomicCpu δ)
  | .exec => c.exec P
  | .devices dev irq => .ok { c with toSequential := c.toSequential.devices dev irq }

/-- A call of `exec` is one sequential step. -/
def Follows (P : Platform δ) (c : AtomicCpu δ) : Prop :=
  c.exec P = (Stop.ofArch (c.toSequential.step P)).map fun q => ⟨q.upTick.retire, true⟩

/-- The record has been set by nothing but a page fault. -/
structure Unread (c : AtomicCpu δ) : Prop where
  low : c.Low
  stale : c.current = true → c.info.exception = excIPF

section Exec

variable {P : Platform δ} {c : AtomicCpu δ}

/-- A fetch without a fault is not decoded: what `updateEnv` finds is the record of the fault
before it. -/
theorem exec_of_translates {paddr : Word} {arch : RiscvArch δ}
    (ran : c.arch.translateAddr P c.pc .ifetch excNone = .ok (paddr, excNone, arch)) :
    c.exec P = c.finish P := by
  have same := translateAddr_same ran
  subst same
  have kept : prepare P c paddr excNone = .ok c := by
    rw [prepare, if_pos (by decide), handleException, if_neg (by decide),
      show (excNone == excIPF) = false by decide, Bool.or_false]
  rw [exec, ran]
  change (Stop.ofArch (prepare P c paddr excNone) >>= finish P) = _
  rw [kept]
  rfl

/-- A faulting fetch traps. -/
theorem exec_of_faults {paddr : Word} {arch : RiscvArch δ}
    (ran : c.arch.translateAddr P c.pc .ifetch excNone = .ok (paddr, excIPF, arch)) :
    c.exec P = (Stop.ofArch (Sequential.update P { arch with pc := c.pc }
      { c.info with excData := c.pc, exception := excIPF })).map
        fun q => ⟨q.upTick.retire, true⟩ := by
  have left : prepare P { c with arch := arch } paddr excIPF = .ok
      ⟨⟨{ arch with pc := c.pc }, { c.info with excData := c.pc, exception := excIPF }, c.pc⟩,
        true⟩ := by
    rw [prepare, if_pos (by decide), handleException, if_pos rfl, beq_self_eq_true,
      Bool.or_true]
  rw [exec, ran]
  change (Stop.ofArch (prepare P { c with arch := arch } paddr excIPF) >>= finish P) = _
  rw [left]
  rfl

/-- `exec` is a sequential step exactly when it decodes nothing. -/
theorem follows_iff (unread : c.Unread) : c.Follows P ↔ ¬ c.Translates P := by
  rcases Sequential.fetch_cases P c.toSequential with ⟨paddr, arch, ran⟩ | ⟨paddr, arch, ran⟩ | stop
  · refine iff_of_false ?_ (not_not_intro ⟨paddr, arch, ran⟩)
    rw [Follows, exec_of_translates ran, Sequential.step_of_translates ran, finish]
    cases held : c.current with
    | false =>
        rw [if_neg Bool.false_ne_true]
        cases c.toSequential.execute P paddr <;> nofun
    | true =>
        -- The stale record has the code of the fault, a decoded one has not.
        have stale := unread.stale held
        rw [if_pos rfl, Sequential.update_of_fault P _ stale]
        cases executed : c.toSequential.execute P paddr with
        | error e => nofun
        | ok r =>
            intro same
            have info := congrArg (fun d : AtomicCpu δ => d.info) (Except.ok.inj same)
            refine Sequential.execute_not_fault unread.low paddr r executed ?_
            rw [← stale]
            exact congrArg DecodeInfo.exception info.symm
  · refine iff_of_true ?_ ?_
    · rw [Follows, exec_of_faults ran, Sequential.step_of_faults ran]
    · rintro ⟨paddr', arch', other⟩
      cases ran.symm.trans other
  · obtain ⟨e, stop⟩ := stop
    refine iff_of_true ?_ ?_
    · rw [Follows, exec, Sequential.step, stop]
      rfl
    · rintro ⟨paddr, arch, other⟩
      cases stop.symm.trans other

/-- `AtomicCPU::exec` sets the record for a page fault only. -/
theorem exec_unread (unread : c.Unread) : Returns (c.exec P) Unread := by
  rcases Sequential.fetch_cases P c.toSequential with ⟨paddr, arch, ran⟩ | ⟨paddr, arch, ran⟩ | stop
  · rw [exec_of_translates ran, finish]
    cases held : c.current with
    | false => exact returns_error _ _
    | true =>
        have stale := unread.stale held
        rw [if_pos rfl, Sequential.update_of_fault P _ stale]
        exact (returns_ok _ _).2 ⟨Sequential.trap_low _ _ _, fun _ => stale⟩
  · rw [exec_of_faults ran, Sequential.update_of_fault P _ rfl]
    exact (returns_ok _ _).2 ⟨Sequential.trap_low _ _ _, fun _ => rfl⟩
  · obtain ⟨e, stop⟩ := stop
    rw [exec, stop]
    exact returns_error _ _

/-- So does each of its steps, and what comes between them. -/
theorem step_unread (unread : c.Unread) (j : AtomicCpuStep δ) : Returns (c.step P j) Unread := by
  cases j with
  | exec => exact exec_unread unread
  | devices dev irq =>
      exact (returns_ok _ _).2
        ⟨(Sequential.between_devices c.toSequential dev irq).low unread.low, unread.stale⟩

/-- At first the record has not been set. -/
theorem afterLoad_unread {arch : RiscvArch δ} (low : arch.state.get .priv < 4) :
    (afterLoad arch).Unread := ⟨low, nofun⟩

end Exec

/-- Every call of `exec` in a run is one sequential step. -/
def RunFollows (P : Platform δ) (c : AtomicCpu δ) (steps : List (AtomicCpuStep δ)) : Prop :=
  ∀ t, Visits (step P) c steps t .exec → t.Follows P

/-- A run is sequential exactly as long as no fetch has a translation. -/
theorem runFollows_iff (P : Platform δ) {c : AtomicCpu δ} (unread : c.Unread)
    (steps : List (AtomicCpuStep δ)) :
    c.RunFollows P steps ↔ ∀ t, Visits (step P) c steps t .exec → ¬ t.Translates P := by
  refine forall_congr' fun t => forall_congr' fun visit => ?_
  exact follows_iff (visit.invariant unread fun u i _ held => step_unread held i)

end AtomicCpu

/-! ### `CacheCPU` -/

/-- `class CacheCPU`. -/
structure CacheCpu (δ : Type) extends Sequential δ where
  paddr : Word
  instValid : Bool
  /-- The lookups the instruction cache has accepted and not answered. -/
  owed : Nat

/-- What happens to the processor.  An `exec` takes what its uninitialised local `exception`
holds, and whether the instruction cache accepts the lookup. -/
inductive CacheCpuStep (δ : Type)
  | exec (junk : Word) (accepts : Bool)
  | icacheCallback
  | devices (dev : δ) (irq : Option Word)

namespace CacheCpu

/-- `afterLoad`; `paddr` is not initialised. -/
def afterLoad (arch : RiscvArch δ) (paddr : Word) : CacheCpu δ :=
  ⟨⟨arch, .zero, startPc⟩, paddr, false, 0⟩

/-- The processor after a valid instruction. -/
def commit (c : CacheCpu δ) (q : Sequential δ) : CacheCpu δ :=
  { c with toSequential := q.retire, instValid := false }

/-- The block under `inst_valid`.  The flush of an `IFENCE` only delays later answers. -/
def execute (P : Platform δ) (c : CacheCpu δ) : Except Abort (CacheCpu δ) :=
  if c.instValid then (c.toSequential.execute P c.paddr).map c.commit else .ok c

/-- The fetch of the next instruction. -/
def request (P : Platform δ) (c : CacheCpu δ) (junk : Word) (accepts : Bool) :
    Except Abort (CacheCpu δ) := do
  let (paddr, exception, arch) ← c.arch.translateAddr P c.pc .ifetch junk
  if exception ≠ 0 then
    let r := arch.handleException exception c.pc c.info
    return { c with arch := r.1, info := r.2, paddr := paddr, instValid := true }
  else return { c with arch := arch, paddr := paddr, owed := c.owed + accepts.toNat }

/-- `exec`. -/
def exec (P : Platform δ) (c : CacheCpu δ) (junk : Word) (accepts : Bool) :
    Except Abort (CacheCpu δ) := do
  let c ← c.execute P
  let c ← c.request P junk accepts
  return { c with toSequential := c.upTick }

/-- What happens to `CacheCPU`. -/
def step (P : Platform δ) (c : CacheCpu δ) : CacheCpuStep δ → Except Stop (CacheCpu δ)
  | .exec junk accepts => Stop.ofArch (c.exec P junk accepts)
  | .icacheCallback =>
      if 0 < c.owed then .ok { c with instValid := true, owed := c.owed - 1 }
      else .error .unasked
  | .devices dev irq => .ok { c with toSequential := c.toSequential.devices dev irq }

/-- A valid instruction is one sequential step, and nothing else is a step. -/
def Follows (P : Platform δ) (c : CacheCpu δ) : CacheCpuStep δ → Prop
  | .exec junk accepts =>
      (c.instValid = true → c.execute P = (c.toSequential.step P).map c.commit) ∧
        (c.instValid = false → c.execute P = .ok c) ∧
        Returns (c.execute P) fun d => Returns (d.request P junk accepts) fun e =>
          Sequential.Between d.toSequential e.toSequential.upTick
  | j => Returns (c.step P j) fun d => Sequential.Between c.toSequential d.toSequential

/-- The address a fetch is translated to. -/
def fetchTarget (P : Platform δ) (q : Sequential δ) : Option Word :=
  if q.arch.mmuOn .ifetch then sv39 P q.arch.memory.ram q.arch.state q.pc .ifetch else some q.pc

/-- The tables of the fetch are mapped, and `paddr` is where it leads. -/
structure Fetched (P : Platform δ) (c : CacheCpu δ) : Prop where
  mapped : c.arch.mmuOn .ifetch = true → PtesMapped P c.arch c.pc
  address : ∀ pa, fetchTarget P c.toSequential = some pa → c.paddr = pa

/-- An instruction that is valid, or may be made so by an answer, was fetched at the pc. -/
structure Ready (P : Platform δ) (c : CacheCpu δ) : Prop where
  low : c.Low
  fetched : c.instValid = true ∨ 0 < c.owed → c.Fetched P

section Fetch

variable {P : Platform δ} {q r : Sequential δ} {c : CacheCpu δ}

/-- What comes between two calls does not move the block to fetch. -/
theorem fetchTarget_between (between : Sequential.Between q r) :
    fetchTarget P r = fetchTarget P q := by
  have same := between.sameTables
  rw [fetchTarget, fetchTarget, same.mmuOn, same.sv39, between.pc]

/-- Nor does it move the entries of its walk. -/
theorem mapped_between (between : Sequential.Between q r) :
    (r.arch.mmuOn .ifetch = true → PtesMapped P r.arch r.pc) ↔
      (q.arch.mmuOn .ifetch = true → PtesMapped P q.arch q.pc) := by
  have same := between.sameTables
  rw [same.mmuOn, between.pc, same.ptesMapped]

/-- A translation needs its tables, and gives the target or the fault. -/
theorem translateAddr_target (mapped : q.arch.mmuOn .ifetch = true → PtesMapped P q.arch q.pc)
    (exception : Word) :
    ∃ paddr arch, ReadFrame q.arch arch ∧ q.arch.translateAddr P q.pc .ifetch exception =
      match fetchTarget P q with
      | some pa => .ok (pa, exception, arch)
      | none => .ok (paddr, excIPF, arch) := by
  cases on : q.arch.mmuOn .ifetch with
  | false =>
      refine ⟨0, q.arch, .refl _, ?_⟩
      rw [fetchTarget, on, translateAddr, on]
      rfl
  | true =>
      rw [fetchTarget, on]
      exact translateAddr_eq on (mapped on) exception

/-- A translation that returns has found its entries where they can be read. -/
theorem mapped_of_ok {exception : Word} {x : Word × Word × RiscvArch δ}
    (ran : q.arch.translateAddr P q.pc .ifetch exception = .ok x) :
    q.arch.mmuOn .ifetch = true → PtesMapped P q.arch q.pc :=
  fun on => ptesMapped_of_ok on ran

/-- What was fetched stays so between instructions. -/
theorem Fetched.between {d : CacheCpu δ} (fetched : c.Fetched P)
    (between : Sequential.Between c.toSequential d.toSequential) (paddr : d.paddr = c.paddr) :
    d.Fetched P where
  mapped := (mapped_between between).2 fetched.mapped
  address pa target := by
    rw [paddr]
    rw [fetchTarget_between between] at target
    exact fetched.address pa target

/-- The fetch moves nothing but its results, and leaves the address of the pc. -/
theorem request_spec (P : Platform δ) (c : CacheCpu δ) (junk : Word) (accepts : Bool) :
    Returns (c.request P junk accepts) fun d =>
      Sequential.Between c.toSequential d.toSequential ∧ d.Fetched P := by
  rw [request, returns_bind]
  rintro ⟨paddr, exception, arch⟩ ran
  have frame : ReadFrame c.arch arch := translateAddr_frame P c.arch c.pc .ifetch junk _ ran
  have moved := Sequential.between_of_frame (q := c.toSequential) frame
  have address : ∀ pa, fetchTarget P c.toSequential = some pa → paddr = pa := by
    intro pa target
    obtain ⟨paddr', arch', -, again⟩ := translateAddr_target (mapped_of_ok ran) junk
    rw [target] at again
    exact congrArg (fun x => x.1) (Except.ok.inj (ran.symm.trans again))
  -- On either branch the machine is the one the translation left, up to `env->pc`.
  have fetched {d : CacheCpu δ} (between : Sequential.Between c.toSequential d.toSequential)
      (paddr' : d.paddr = paddr) : d.Fetched P :=
    ⟨(mapped_between between).2 (mapped_of_ok ran), fun pa target => by
      rw [paddr', address pa (by rw [← fetchTarget_between between]; exact target)]⟩
  dsimp only
  split
  · have trapped := moved.trans (Sequential.between_handleException _ exception)
    exact (returns_pure _ _).2 ⟨trapped, fetched trapped rfl⟩
  · exact (returns_pure _ _).2 ⟨moved, fetched moved rfl⟩

/-- The tick is not read. -/
theorem between_upTick (q : Sequential δ) : Sequential.Between q q.upTick :=
  ⟨rfl, fun _ _ => rfl, rfl, rfl, rfl⟩

/-- A tick leaves the fetch of the next instruction done. -/
theorem exec_ready (low : c.Low) (junk : Word) (accepts : Bool) :
    Returns (c.exec P junk accepts) (Ready P) := by
  have executed : Returns (c.execute P) fun d => d.Low := by
    unfold execute
    split
    · rw [returns_map]
      exact (Sequential.execute_low low c.paddr).mono fun q low => low
    · exact (returns_ok _ _).2 low
  simp only [exec, returns_bind, returns_pure]
  refine executed.mono ?_
  intro d low
  refine (request_spec P d junk accepts).mono ?_
  rintro e ⟨between, fetched⟩
  exact ⟨(between.trans (between_upTick _)).low low,
    fun _ => fetched.between (between_upTick e.toSequential) rfl⟩

/-- In every step of `CacheCPU`, an instruction that is valid, or that an answer will make
valid, was fetched at the pc. -/
theorem step_ready (ready : c.Ready P) (j : CacheCpuStep δ) : Returns (c.step P j) (Ready P) := by
  cases j with
  | exec junk accepts => exact Stop.returns_ofArch (exec_ready ready.low junk accepts)
  | icacheCallback =>
      rw [step]
      split
      · rename_i owed
        have fetched := ready.fetched (.inr owed)
        exact (returns_ok _ _).2 ⟨ready.low, fun _ => ⟨fetched.mapped, fetched.address⟩⟩
      · exact returns_error _ _
  | devices dev irq =>
      have between := Sequential.between_devices c.toSequential dev irq
      refine (returns_ok _ _).2 ⟨between.low ready.low, ?_⟩
      intro valid
      exact (ready.fetched valid).between between rfl

/-- At first nothing is valid and nothing is owed. -/
theorem afterLoad_ready {arch : RiscvArch δ} (low : arch.state.get .priv < 4) (paddr : Word) :
    (afterLoad arch paddr).Ready P := by
  refine ⟨low, ?_⟩
  rintro (valid | owed)
  · cases valid
  · exact absurd owed (Nat.lt_irrefl 0)

/-- A valid instruction is a sequential step exactly when its fetch did not fault. -/
theorem execute_iff (ready : c.Ready P) (valid : c.instValid = true) :
    c.execute P = (c.toSequential.step P).map c.commit ↔ ¬ c.Faults P := by
  have fetched := ready.fetched (.inl valid)
  obtain ⟨paddr, arch, -, ran⟩ := translateAddr_target fetched.mapped excNone
  rw [execute, if_pos valid]
  cases target : fetchTarget P c.toSequential with
  | some pa =>
      rw [target] at ran
      refine iff_of_true ?_ ?_
      · rw [Sequential.step_of_translates ran, fetched.address pa target]
      · rintro ⟨paddr', arch', faults⟩
        cases ran.symm.trans faults
  | none =>
      rw [target] at ran
      refine iff_of_false ?_ (not_not_intro ⟨paddr, arch, ran⟩)
      -- What is decoded at the address the walk had reached has not the code of the fault.
      rw [Sequential.step_of_faults ran, Sequential.update_of_fault P _ rfl]
      cases executed : c.toSequential.execute P c.paddr with
      | error e => nofun
      | ok r =>
          intro same
          have info := congrArg (fun d : CacheCpu δ => d.info) (Except.ok.inj same)
          exact Sequential.execute_not_fault ready.low c.paddr r executed
            (congrArg DecodeInfo.exception info)

/-- A step of the processor follows the sequential machine unless it decodes what a faulting
fetch left. -/
theorem follows_iff (ready : c.Ready P) (j : CacheCpuStep δ) :
    c.Follows P j ↔
      ∀ junk accepts, j = .exec junk accepts → c.instValid = true → ¬ c.Faults P := by
  cases j with
  | exec junk accepts =>
      have waits : Returns (c.execute P) fun d => Returns (d.request P junk accepts) fun e =>
          Sequential.Between d.toSequential e.toSequential.upTick := by
        intro d _
        refine (request_spec P d junk accepts).mono ?_
        rintro e ⟨between, -⟩
        exact between.trans (between_upTick _)
      constructor
      · rintro follows _ _ - valid
        exact (execute_iff ready valid).1 (follows.1 valid)
      · intro sound
        refine ⟨fun valid => (execute_iff ready valid).2 (sound _ _ rfl valid), ?_, waits⟩
        intro invalid
        rw [execute, invalid]
        rfl
  | icacheCallback =>
      refine iff_of_true ?_ nofun
      rw [Follows, step]
      · split
        · exact (returns_ok _ _).2 (.refl _)
        · exact returns_error _ _
      · nofun
  | devices dev irq =>
      refine iff_of_true ?_ nofun
      exact (returns_ok _ _).2 (Sequential.between_devices c.toSequential dev irq)

end Fetch

/-- Every step of a run follows the sequential machine. -/
def RunFollows (P : Platform δ) (c : CacheCpu δ) (steps : List (CacheCpuStep δ)) : Prop :=
  ∀ t j, Visits (step P) c steps t j → t.Follows P j

/-- A run is sequential exactly as long as no valid instruction has a faulting fetch. -/
theorem runFollows_iff (P : Platform δ) {c : CacheCpu δ} (ready : c.Ready P)
    (steps : List (CacheCpuStep δ)) :
    c.RunFollows P steps ↔ ∀ t junk accepts, Visits (step P) c steps t (.exec junk accepts) →
      t.instValid = true → ¬ t.Faults P := by
  have visited {t : CacheCpu δ} {j : CacheCpuStep δ} (visit : Visits (step P) c steps t j) :
      t.Ready P := visit.invariant ready fun u i _ held => step_ready held i
  constructor
  · intro follows t junk accepts visit
    exact (follows_iff (visited visit) _).1 (follows t _ visit) junk accepts rfl
  · intro sound t j visit
    refine (follows_iff (visited visit) j).2 ?_
    rintro junk accepts rfl
    exact sound t junk accepts visit

/-- A run that follows the sequential machine is one of its runs: no instruction is skipped,
repeated or executed anywhere but at the pc. -/
theorem runFollows_moves {P : Platform δ} {c : CacheCpu δ} {steps : List (CacheCpuStep δ)}
    (follows : c.RunFollows P steps) :
    Returns (runSteps (step P) c steps) fun t =>
      Relation.ReflTransGen (Sequential.Moves P) c.toSequential t.toSequential := by
  refine runSteps_prefix_invariant .refl ?_ (List.prefix_refl steps)
  intro t j visit reached
  have follows := follows t j visit
  cases j with
  | exec junk accepts =>
      obtain ⟨valid, invalid, waits⟩ := follows
      refine Stop.returns_ofArch ?_
      simp only [exec, returns_bind, returns_pure]
      intro d executed e requested
      have stepped : Relation.ReflTransGen (Sequential.Moves P) c.toSequential d.toSequential := by
        cases held : t.instValid with
        | false =>
            cases executed.symm.trans (invalid held)
            exact reached
        | true =>
            rw [valid held] at executed
            cases ran : t.toSequential.step P with
            | error e =>
                rw [ran] at executed
                cases executed
            | ok q =>
                rw [ran] at executed
                cases executed
                exact reached.tail (.inl ⟨q, ran, rfl⟩)
      exact stepped.tail (.inr (waits d executed e requested))
  | icacheCallback => exact follows.mono fun d between => reached.tail (.inr between)
  | devices dev irq => exact follows.mono fun d between => reached.tail (.inr between)

end CacheCpu

/-- `AtomicCPU` is sequential exactly on the runs in which every fetch it makes faults, and
`CacheCPU` exactly on those in which no fetch does whose instruction it then executes. The first
tests `if (exception)`, and the code for no exception is not zero; the second sets `inst_valid`
after a page fault as well. -/
theorem driversFollow_iff (P : Platform δ) (arch : RiscvArch δ) (paddr : Word)
    (mode : arch.state.get .priv < 4) (calls : List (AtomicCpuStep δ))
      (steps : List (CacheCpuStep δ)) :
    ((AtomicCpu.afterLoad arch).RunFollows P calls ↔
        ∀ t, Visits (AtomicCpu.step P) (.afterLoad arch) calls t .exec → ¬ t.Translates P) ∧
      ((CacheCpu.afterLoad arch paddr).RunFollows P steps ↔
        ∀ t junk accepts,
          Visits (CacheCpu.step P) (.afterLoad arch paddr) steps t (.exec junk accepts) →
            t.instValid = true → ¬ t.Faults P) :=
  ⟨AtomicCpu.runFollows_iff P (AtomicCpu.afterLoad_unread mode) calls,
    CacheCpu.runFollows_iff P (CacheCpu.afterLoad_ready mode paddr) steps⟩

/-- A machine whose first fetch is translated by the table. -/
theorem driversFollow_iff_gigapage :
    ((AtomicCpu.afterLoad gigapage).RunFollows (ramOnly 4096) [.exec] ↔
        ∀ t, Visits (AtomicCpu.step (ramOnly 4096)) (.afterLoad gigapage) [.exec] t .exec →
          ¬ t.Translates (ramOnly 4096)) ∧
      ((CacheCpu.afterLoad gigapage 0).RunFollows (ramOnly 4096) [.exec 0 true] ↔
        ∀ t junk accepts, Visits (CacheCpu.step (ramOnly 4096)) (.afterLoad gigapage 0)
          [.exec 0 true] t (.exec junk accepts) →
            t.instValid = true → ¬ t.Faults (ramOnly 4096)) :=
  driversFollow_iff (ramOnly 4096) gigapage 0 (by decide +kernel) [.exec] [.exec 0 true]

/-- A root table that maps the gigapage of RAM to itself, not to be executed.  The first word of
the gigapage is a `nop`. -/
def dataPage : RiscvArch Unit := supervisor 0x8000000000080000 [0x13, 0, 0, 0, 0x200000c7, 0]

/-- After reset `AtomicCPU` applies a record that is not there, and `CacheCPU` executes the
`nop`. -/
theorem not_driversFollow_dataPage :
    ¬ (AtomicCpu.afterLoad (RiscvArch.reset archCfg (imageOf [0x13]))).RunFollows (ramOnly 4096)
        [.exec] ∧
      ¬ (CacheCpu.afterLoad dataPage 0).RunFollows (ramOnly 4096)
        [.exec 0 true, .exec 0 true] := by
  constructor
  · intro follows
    have same := congrArg (fun x => x.toOption.isSome) (follows _ (.here _ _ _))
    revert same
    decide +kernel
  · intro follows
    obtain ⟨t, moved, seen⟩ := exists_ok_of_toOption
      (show ((CacheCpu.afterLoad dataPage 0).step (ramOnly 4096) (.exec 0 true)).toOption.map
          (fun t => (t.instValid, (t.execute (ramOnly 4096)).toOption.map (·.info.exception),
            ((t.toSequential.step (ramOnly 4096)).map t.commit).toOption.map
              (·.info.exception))) = some (true, some excNone, some excIPF) by decide +kernel)
    rw [Prod.mk.injEq, Prod.mk.injEq] at seen
    obtain ⟨valid, executed, expected⟩ := seen
    have same := (follows t (.exec 0 true) (.later moved (.here _ _ _))).1 valid
    rw [same, expected] at executed
    revert executed
    decide

end CPUDelaySim
