import CPUDelaySim.Cpu.Pipeline
import CPUDelaySim.Cpu.Sequential

/-!
# The callers of `translateAddr`

Loads and stores translate in `decode`, and each processor translates its fetches; `PipelineCPU`
translates the address of a load or store once more in EXE, for the data cache.  Wherever the page
tables can be read the answer is that of `sv39` for all of them.

They differ in what they make of a page fault.  `ld_*`, `st_*`, `AtomicCPU`, and the fetch and
`preId` of `PipelineCPU` test the code and go no further.  `CacheCPU` sets `inst_valid` and so
decodes at the address the walk had come to, and EXE does not look at `mem_exception`.
-/

namespace CPUDelaySim

open Riscv RiscvArch

variable {δ : Type}

/-- The callers of `translateAddr`. -/
inductive Translator
  /-- `ld_*`. -/
  | load
  /-- `st_*`. -/
  | store
  /-- `trans_sc_*`, and the store of its commit. -/
  | storeConditional
  /-- `AtomicCPU::exec`. -/
  | atomicFetch
  /-- `CacheCPU::exec`. -/
  | cacheFetch
  /-- `PipelineCPU::exec`, for the block in fetch. -/
  | pipelineFetch
  /-- `PipelineCPU::preId`. -/
  | pipelineId
  /-- `PipelineCPU::exec`, for a load in EXE. -/
  | exeLoad
  /-- `PipelineCPU::exec`, for a store in EXE. -/
  | exeStore
  deriving DecidableEq

namespace Translator

/-- The access type it asks for. -/
def type : Translator → FetchType
  | .load | .exeLoad => .lfetch
  | .store | .storeConditional | .exeStore => .sfetch
  | .atomicFetch | .cacheFetch | .pipelineFetch | .pipelineId => .ifetch

/-- Whether the caller leaves an access out when its translation has reported a fault. -/
def heeds : Translator → Bool
  | .cacheFetch | .exeLoad | .exeStore => false
  | _ => true

/-- With the page fault of the fetch taken instead of an instruction: the trap makes no access. -/
def trapped (q : Sequential δ) (b : RiscvArch δ) : Sequential δ :=
  let info := { q.info with excData := q.pc, exception := excIPF }
  let r := ({ b with pc := q.pc } : RiscvArch δ).trap info q.pc
  ⟨r.2, info, r.1⟩

/-- The caller performs no access after a translation that has faulted, from a machine `a` at the
address `va`.  A load, a store and a fetch end with the machine that the walk left.  `CacheCPU` has
no lookup on the way and nothing to decode, `PipelineCPU` no new block in its instruction cache and
nothing decoded in `preId`, and EXE leaves the data cache as it was. -/
def Refrains (P : Platform δ) (a : RiscvArch δ) (va : Word) : Translator → Prop
  | .load => ∀ (width : Width) (info : DecodeInfo), width.misaligned va = false →
      ∃ paddr b, a.translateAddr P va .lfetch excNone = .ok (paddr, excLPF, b) ∧
        ld P width ⟨a, info⟩ va = .ok (0, ⟨b, { info with exception := excLPF }⟩)
  | .store => ∀ (width : Width) (info : DecodeInfo), width.misaligned va = false →
      ∃ paddr b, a.translateAddr P va .sfetch excNone = .ok (paddr, excSPF, b) ∧
        st P width ⟨a, info⟩ va = .ok ⟨b, { info with exception := excSPF }⟩
  | .storeConditional => ∀ (rd : BitVec 5) (addr : ArchState → Word) (width : Width)
      (src : ArchState → Word) (info : DecodeInfo), addr a.state = va →
        Returns ((Body.sc rd addr width src).exec P ⟨a, info⟩) fun r =>
          r.2.info.exception = excNone → r.2.info.dst0.data ≠ 0
  | .atomicFetch => ∀ c : AtomicCpu δ, c.arch = a → c.pc = va →
      ∃ paddr b, a.translateAddr P va .ifetch excNone = .ok (paddr, excIPF, b) ∧
        c.exec P = .ok ⟨(trapped c.toSequential b).upTick.retire, true⟩
  | .cacheFetch => ∀ c : CacheCpu δ, c.arch = a → c.pc = va → ∀ junk accepts,
      Returns (c.request P junk accepts) fun d => d.owed = c.owed ∧ d.execute P = .ok d
  | .pipelineFetch => ∀ (π : Type) (s : Pipeline δ π) (inst : Inst), s.arch = a →
      s.fetchInst = some inst → inst.pc = va → inst.excepts = false → ∀ takes,
        ∃ t, s.fetchStage P takes = .ok t ∧ t.fetching = s.fetching
  | .pipelineId => ∀ (π : Type) (B : Predictor π) (s : Pipeline δ π) (block : Option Inst)
      (inst : Inst), (if s.idRemainSize ≤ 0 then block else s.idInst) = some inst → s.arch = a →
        s.pc = va → ∃ paddr b held remain,
          a.translateAddr P va .ifetch inst.info.exception = .ok (paddr, excIPF, b) ∧
            s.preId P B block =
              .ok (true, ({ s with arch := b, idRemainSize := remain } :
                Pipeline δ π).handleException held)
  | .exeLoad => ∀ (π : Type) (p : PipelineParams) (s : Pipeline δ π) (inst : Inst), s.arch = a →
      inst.info.excData = va →
        Returns (s.memLookup P p .lfetch .readShared inst) fun t => t.dcache = s.dcache
  | .exeStore => ∀ (π : Type) (p : PipelineParams) (s : Pipeline δ π) (inst : Inst), s.arch = a →
      inst.info.excData = va →
        Returns (s.memLookup P p .sfetch .writeBack inst) fun t => t.dcache = s.dcache

section Callers

variable {P : Platform δ} {a : RiscvArch δ} {va : Word}

/-! ### The callers that test the code -/

/-- `AtomicCPU` fetches nothing after a fault: it takes the trap of the record. -/
theorem atomicFetch_refrains (on : a.mmuOn .ifetch = true) (mapped : PtesMapped P a va)
    (unmapped : sv39 P a.memory.ram a.state va .ifetch = none) :
    Refrains P a va .atomicFetch := by
  rintro c rfl rfl
  obtain ⟨paddr, b, ran⟩ := translateAddr_of_unmapped on mapped unmapped excNone
  refine ⟨paddr, b, ran, ?_⟩
  rw [AtomicCpu.exec_of_faults ran, Sequential.update_of_fault P _ rfl]
  rfl

/-- A store-conditional whose page faults is not committed. -/
theorem storeConditional_refrains (on : a.mmuOn .sfetch = true)
    (unmapped : sv39 P a.memory.ram a.state va .sfetch = none) :
    Refrains P a va .storeConditional := by
  intro rd addr width src info aims r executed silent stores
  obtain ⟨-, -, pa, mapping⟩ :=
    exec_sc_translated on rd addr width src info aims r executed silent stores
  cases unmapped.symm.trans mapping

/-- The fetch stage asks the ICache for nothing after a fault. -/
theorem pipelineFetch_refrains (on : a.mmuOn .ifetch = true) (mapped : PtesMapped P a va)
    (unmapped : sv39 P a.memory.ram a.state va .ifetch = none) :
    Refrains P a va .pipelineFetch := by
  rintro π s inst rfl held rfl silent takes
  unfold Pipeline.fetchStage
  by_cases fetches : (s.fetchValid && !s.idValid) = true
  · obtain ⟨paddr, b, ran⟩ := translateAddr_of_unmapped on mapped unmapped inst.info.exception
    have translated : s.translateFetch P inst = .ok ({ inst with
        paddr := paddr, info := { inst.info with exception := excIPF } }, b) := by
      rw [Pipeline.translateFetch, silent, if_neg Bool.false_ne_true, ran]
      rfl
    rw [if_pos fetches, held]
    dsimp only
    rw [translated]
    by_cases alone : (s.fetching.isEmpty && !s.idStallValid) = true
    · refine ⟨_, if_pos alone, rfl⟩
    · refine ⟨_, if_neg alone, rfl⟩
  · rw [if_neg fetches]
    exact ⟨s, rfl, rfl⟩

/-- ID decodes nothing after a fault. -/
theorem pipelineId_refrains (on : a.mmuOn .ifetch = true) (mapped : PtesMapped P a va)
    (unmapped : sv39 P a.memory.ram a.state va .ifetch = none) :
    Refrains P a va .pipelineId := by
  rintro π B s block inst held rfl rfl
  obtain ⟨paddr, b, ran⟩ := translateAddr_of_unmapped on mapped unmapped inst.info.exception
  refine ⟨paddr, b, { inst with paddr := paddr, info := { inst.info with exception := excIPF } },
    if s.idRemainSize ≤ 0 then s.idRemainSize + inst.size.toNat else s.idRemainSize, ran, ?_⟩
  unfold Pipeline.preId
  rw [held]
  dsimp only
  rw [ran]
  rfl

/-! ### The callers that do not -/

/-- `CacheCPU` has an instruction to decode after every fetch that faults. -/
theorem not_cacheFetch_refrains (on : a.mmuOn .ifetch = true) (mapped : PtesMapped P a va)
    (unmapped : sv39 P a.memory.ram a.state va .ifetch = none) :
    ¬ Refrains P a va .cacheFetch := by
  intro refrains
  obtain ⟨paddr, b, ran⟩ := translateAddr_of_unmapped on mapped unmapped 0
  let c : CacheCpu δ := ⟨⟨a, .zero, va⟩, 0, false, 0⟩
  have left : ∃ d, c.request P 0 true = .ok d ∧ d.instValid = true := by
    refine ⟨{ c with
      arch := (b.handleException excIPF va c.info).1
      info := (b.handleException excIPF va c.info).2
      paddr := paddr, instValid := true }, ?_, rfl⟩
    unfold CacheCpu.request
    rw [show c.arch.translateAddr P c.pc .ifetch 0 = _ from ran]
    rfl
  obtain ⟨d, requested, valid⟩ := left
  have kept := (refrains c rfl rfl 0 true d requested).2
  rw [CacheCpu.execute, if_pos valid] at kept
  -- what has been decoded is no longer valid
  cases executed : d.toSequential.execute P d.paddr with
  | error e =>
      rw [executed] at kept
      cases kept
  | ok q =>
      rw [executed] at kept
      have invalid := congrArg CacheCpu.instValid (Except.ok.inj kept)
      cases invalid.trans valid

/-- EXE asks the data cache whatever the translation has reported. -/
theorem not_exe_refrains {type : FetchType} {kind : SnoopReq} (on : a.mmuOn type = true)
    (mapped : PtesMapped P a va) (unmapped : sv39 P a.memory.ram a.state va type = none) :
    ¬ ∀ (π : Type) (p : PipelineParams) (s : Pipeline δ π) (inst : Inst), s.arch = a →
      inst.info.excData = va →
        Returns (s.memLookup P p type kind inst) fun t => t.dcache = s.dcache := by
  intro refrains
  obtain ⟨paddr, b, ran⟩ := translateAddr_of_unmapped on mapped unmapped excNone
  let p : PipelineParams :=
    ⟨10, 1, 1, 1, 1, 1, 1, 1, 1, CacheParams.shipped, by decide, by decide⟩
  let s : Pipeline δ Unit := .afterLoad p a () 0
  let inst : Inst := { Inst.zero with info := { DecodeInfo.zero with excData := va } }
  have asked : ∀ t, s.memLookup P p type kind inst = .ok t →
      t.dcache.cache.idleReqValid = true := by
    intro t looked
    unfold Pipeline.memLookup at looked
    rw [show s.arch.translateAddr P inst.info.excData type excNone = _ from ran] at looked
    cases looked
    rfl
  have looked : ∃ t, s.memLookup P p type kind inst = .ok t := by
    unfold Pipeline.memLookup
    rw [show s.arch.translateAddr P inst.info.excData type excNone = _ from ran]
    exact ⟨_, rfl⟩
  obtain ⟨t, looked⟩ := looked
  have valid := asked t looked
  rw [refrains Unit p s inst rfl rfl t looked] at valid
  cases valid

/-! ### Translation follows the tables -/

/-- What becomes of a page fault, caller by caller. -/
theorem refrains_iff (caller : Translator) (on : a.mmuOn caller.type = true)
    (mapped : PtesMapped P a va)
    (unmapped : sv39 P a.memory.ram a.state va caller.type = none) :
    caller.Refrains P a va ↔ caller.heeds = true := by
  have goesOn (not : ¬ caller.Refrains P a va) (heedless : ¬ caller.heeds = true) :
      caller.Refrains P a va ↔ caller.heeds = true :=
    iff_of_false not heedless
  cases caller with
  | load =>
      exact iff_of_true (fun width info => ld_of_unmapped on mapped unmapped width info) rfl
  | store =>
      exact iff_of_true (fun width info => st_of_unmapped on mapped unmapped width info) rfl
  | storeConditional => exact iff_of_true (storeConditional_refrains on unmapped) rfl
  | atomicFetch => exact iff_of_true (atomicFetch_refrains on mapped unmapped) rfl
  | cacheFetch => exact goesOn (not_cacheFetch_refrains on mapped unmapped) (by decide)
  | pipelineFetch => exact iff_of_true (pipelineFetch_refrains on mapped unmapped) rfl
  | pipelineId => exact iff_of_true (pipelineId_refrains on mapped unmapped) rfl
  | exeLoad => exact goesOn (not_exe_refrains on mapped unmapped) (by decide)
  | exeStore => exact goesOn (not_exe_refrains on mapped unmapped) (by decide)

end Callers

/-- A translation that `caller` asks for reads three entries at most, and ends with the address of
`sv39` or with the fault of the access.  After a fault the caller performs no access, and what an
`sc` leaves to be stored is stored at the address of `sv39`. -/
structure FollowsSv39 (P : Platform δ) (a : RiscvArch δ) (va : Word) (caller : Translator)
    (exception : Word) : Prop where
  reads : ∃ entries : List Word, entries.length ≤ 3 ∧
    ∀ W : RiscvArch δ → Word → Nat → Prop, (∀ p ∈ entries, ∀ b, W b p 8) →
      TranslateAll P W a va caller.type
  ends : ∃ paddr code b, a.translateAddr P va caller.type exception = .ok (paddr, code, b) ∧
    ReadFrame a b ∧
    (∀ pa, sv39 P a.memory.ram a.state va caller.type = some pa →
      paddr = pa ∧ code = exception) ∧
    (sv39 P a.memory.ram a.state va caller.type = none → code = caller.type.pageFault)
  refrains : sv39 P a.memory.ram a.state va caller.type = none → caller.Refrains P a va
  sc : caller = .storeConditional →
    ∀ rd addr width src info, addr a.state = va → Fresh info →
      Returns ((Body.sc rd addr width src).exec P ⟨a, info⟩) fun r =>
        r.2.info.exception = excNone → r.2.info.dst0.data = 0 →
        Returns (commitDsts r.2.arch.state r.2.info) fun s =>
          ∃ pa b, sv39 P a.memory.ram a.state va .sfetch = some pa ∧
            ({ r.2.arch with state := s } : RiscvArch δ).translateAddr P r.2.info.excData .sfetch
              excNone = .ok (pa, excNone, b)

/-- With translation on, an access is translated by the tables, and left out when they do not map
it, exactly when every entry read on the way is in RAM or claimed by a device and, for a caller
that does not test the code, the tables map the address. -/
theorem followsSv39_iff (P : Platform δ) (a : RiscvArch δ) (va : Word) (caller : Translator)
    (on : a.mmuOn caller.type = true) (exception : Word) :
    FollowsSv39 P a va caller exception ↔
      PtesMapped P a va ∧
        (caller.heeds = false → (sv39 P a.memory.ram a.state va caller.type).isSome = true) := by
  constructor
  · intro follows
    obtain ⟨paddr, code, b, ran, -⟩ := follows.ends
    have mapped := ptesMapped_of_ok on ran
    refine ⟨mapped, ?_⟩
    intro heedless
    cases mapping : sv39 P a.memory.ram a.state va caller.type with
    | some pa => rfl
    | none =>
        have heeds := (refrains_iff caller on mapped mapping).1 (follows.refrains mapping)
        cases heedless.symm.trans heeds
  · rintro ⟨mapped, translated⟩
    refine ⟨⟨_, pteReads_length_le P a.memory.ram a.state va, ?_⟩, ?_, ?_, ?_⟩
    · intro W entries _
      rw [root_eq]
      exact walkAll_of_visited fun t read => entries _ (List.mem_map_of_mem read)
    · obtain ⟨paddr, b, frame, ran⟩ := translateAddr_eq on mapped exception
      cases mapping : sv39 P a.memory.ram a.state va caller.type with
      | none =>
          rw [mapping] at ran
          refine ⟨paddr, _, b, ran, frame, ?_, fun _ => rfl⟩
          rintro pa ⟨⟩
      | some pa =>
          rw [mapping] at ran
          refine ⟨pa, exception, b, ran, frame, ?_, ?_⟩
          · rintro pa' ⟨⟩
            exact ⟨rfl, rfl⟩
          · rintro ⟨⟩
    · intro unmapped
      refine (refrains_iff caller on mapped unmapped).2 ?_
      cases heeds : caller.heeds with
      | true => rfl
      | false =>
          have some := translated heeds
          rw [unmapped] at some
          cases some
    · rintro rfl rd addr width src info aims fresh
      exact sc_translated on mapped rd addr width src info aims fresh

/-- The fetch of `CacheCPU` from the gigapage of RAM is translated by its table. -/
theorem followsSv39_iff_gigapage :
    FollowsSv39 (ramOnly 4096) gigapage 0x80000000 .cacheFetch excNone ↔
      PtesMapped (ramOnly 4096) gigapage 0x80000000 ∧
        (Translator.cacheFetch.heeds = false →
          (sv39 (ramOnly 4096) gigapage.memory.ram gigapage.state 0x80000000 .ifetch).isSome =
            true) :=
  followsSv39_iff (ramOnly 4096) gigapage 0x80000000 .cacheFetch (by decide +kernel) excNone

/-- With a `satp` whose table is at address 0, where there is no RAM, the walk reads in front of
the `ram` array.  And `CacheCPU` decodes after a fetch from an address without a mapping. -/
theorem not_followsSv39_emptyRoot :
    ¬ FollowsSv39 (ramOnly 4096) (supervisor 0x8000000000000000 []) 0x80000000 .load excNone ∧
      ¬ FollowsSv39 (ramOnly 4096) gigapage 0x40000000 .cacheFetch excNone := by
  constructor
  · intro follows
    obtain ⟨paddr, code, b, ran, -⟩ := follows.ends
    have stopped : ((supervisor 0x8000000000000000 []).translateAddr (ramOnly 4096) 0x80000000
        .lfetch excNone).toOption.isSome = false := by decide +kernel
    rw [show Translator.load.type = .lfetch from rfl] at ran
    rw [ran] at stopped
    cases stopped
  · intro follows
    have on : gigapage.mmuOn .ifetch = true := by decide +kernel
    have unmapped : sv39 (ramOnly 4096) gigapage.memory.ram gigapage.state 0x40000000 .ifetch =
        none := by decide +kernel
    obtain ⟨paddr, code, b, ran, -⟩ := follows.ends
    exact not_cacheFetch_refrains on (ptesMapped_of_ok on ran) unmapped (follows.refrains unmapped)

end Translator

end CPUDelaySim
