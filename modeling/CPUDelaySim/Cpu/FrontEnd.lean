import CPUDelaySim.Cpu.Retire
import CPUDelaySim.Riscv.PcAlign
import CPUDelaySim.Riscv.Sv39

/-!
# The stages before EXE

Fetch runs ahead of ID by the blocks of four bytes that it asked for, from the first one of which
nothing is decoded up to `pred_pc`.  `id_remain_size` says where ID stands before that block: it
counts the bytes of the last block that are not decoded or, below zero, those of the next block
that the last instruction ended in.  `FrontEnd.Aligned` is what the two cursors, the blocks and the
flags between fetch and ID agree on.

A block that arrives while another one waits in `id_stall_inst` takes its place, so the stages
keep this only as long as none does.

`Blocks` is a run of consecutive blocks, and `Stands` relates a pc to the block it lies in or
before.  `Aligned` puts the two together, with one clause for each of the flags.  It is kept by
three kinds of change, and each has its lemma: ID goes on with a block (`Aligned.goOn`), a block is
asked for (`Aligned.ask`), and a block arrives (`Aligned.answer`).

`PreId` and `FrontEnd.Decodes` list what decoding may find in a block, at the level of the record
and of the cursors; nothing after them unfolds `preId`.
-/

namespace CPUDelaySim

open Riscv RiscvArch

variable {δ π : Type}

/-! ### Blocks -/

/-- Blocks that follow each other, from one address up to another. -/
def Blocks : Word → List Inst → Word → Prop
  | start, [], stop => start = stop
  | start, inst :: rest, stop => inst.pc = start ∧ inst.size = 4 ∧ Blocks (start + 4) rest stop

/-- Two runs of blocks, one behind the other. -/
theorem blocks_append {start stop : Word} {l m : List Inst} :
    Blocks start (l ++ m) stop ↔ ∃ middle, Blocks start l middle ∧ Blocks middle m stop := by
  induction l generalizing start with
  | nil =>
      constructor
      · intro rest
        exact ⟨start, rfl, rest⟩
      · rintro ⟨_, rfl, rest⟩
        exact rest
  | cons inst l ih =>
      simp only [List.cons_append, Blocks, ih]
      constructor
      · rintro ⟨pc, size, middle, first, second⟩
        exact ⟨middle, ⟨pc, size, first⟩, second⟩
      · rintro ⟨middle, ⟨pc, size, first⟩, second⟩
        exact ⟨pc, size, middle, first, second⟩

/-- ID stands at `pc` before the block at `start`: `remain` bytes are between them, or the block
is begun by as many. -/
def Stands (pc : Word) (remain : Int) (start : Word) : Prop :=
  remain = 0 ∧ pc = start ∨ remain = 2 ∧ pc + 2 = start ∨ remain = -2 ∧ pc = start + 2

/-- ID may begin the next block when nothing of the last one is left. -/
theorem Stands.next {pc start : Word} {remain : Int} (stands : Stands pc remain start)
    (done : remain ≤ 0) :
    remain + 4 = 4 ∧ pc = start ∨ remain + 4 = 2 ∧ pc = start + 2 := by
  rcases stands with ⟨rfl, here⟩ | ⟨rfl, -⟩ | ⟨rfl, here⟩
  · exact .inl ⟨rfl, here⟩
  · omega
  · exact .inr ⟨rfl, here⟩

/-- An instruction of a block that `left` bytes are left of moves ID on. -/
theorem Stands.after {pc block : Word} {left : Int} {size : Byte}
    (stands : left = 4 ∧ pc = block ∨ left = 2 ∧ pc = block + 2) (length : size = 2 ∨ size = 4) :
    Stands (pc + size.setWidth 64) (left - size.toNat) (block + 4) := by
  rcases stands with ⟨rfl, rfl⟩ | ⟨rfl, rfl⟩ <;> rcases length with rfl | rfl
  · exact .inr (.inl ⟨by decide, by bv_omega⟩)
  · exact .inl ⟨by decide, rfl⟩
  · exact .inl ⟨by decide, by bv_omega⟩
  · exact .inr (.inr ⟨by decide, by bv_omega⟩)

/-! ### What the stages hold -/

/-- The stages before EXE. -/
structure FrontEnd where
  predPc : Word
  pc : Word
  fetchValid : Bool
  fetchInst : Option Inst
  fetching : List Inst
  idValid : Bool
  idInst : Option Inst
  idStallValid : Bool
  idStallDecMore : Bool
  idStallInstValid : Bool
  idStallInst : Option Inst
  idRemainSize : Int

namespace Pipeline

/-- The stages before EXE. -/
def frontEnd (s : Pipeline δ π) : FrontEnd :=
  ⟨s.predPc, s.pc, s.fetchValid, s.fetchInst, s.fetching, s.idValid, s.idInst, s.idStallValid,
    s.idStallDecMore, s.idStallInstValid, s.idStallInst, s.idRemainSize⟩

end Pipeline

/-- What the pipeline takes for granted of its predictor: every jump is predicted taken, and a
direct one to its target. -/
structure Predictor.Jumps (B : Predictor π) : Prop where
  direct : ∀ pc info state, info.type.isDirect = true →
    (B.predict pc info state).1.taken = true ∧
      (B.predict pc info state).1.nextPc = info.dst2.data
  jump : ∀ pc info state, info.type.isJump = true → (B.predict pc info state).1.taken = true

/-- An instruction that ID decoded at `pc`, and that does not trap. -/
structure Inst.Placed (pc : Word) (inst : Inst) : Prop where
  quiet : inst.excepts = false
  size : inst.size = 4
  realPc : inst.realPc = pc
  place : pc = inst.pc ∨ pc = inst.pc + 2
  length : inst.info.instSize = 2 ∨ inst.info.instSize = 4
  direct : inst.info.type.isDirect = true → inst.taken = true ∧ inst.nextPc = inst.info.dst2.data
  jump : inst.info.type.isJump = true → inst.taken = true

namespace FrontEnd

/-- What `dropFetches` leaves. -/
def drop (target : Word) (f : FrontEnd) : FrontEnd :=
  { f with
    idStallValid := false
    idStallDecMore := false
    idStallInstValid := false
    idRemainSize := 0
    fetchValid := false
    fetching := []
    predPc := target }

/-- The block that has arrived and waits for ID.  Once ID has begun it, it stays in
`id_stall_inst` while some of it is left. -/
def stalled (f : FrontEnd) : List Inst :=
  if f.idStallInstValid && (f.idStallDecMore || decide (f.idRemainSize ≤ 0)) then
    f.idStallInst.toList
  else []

/-- The blocks that have arrived or are owed. -/
def asked (f : FrontEnd) : List Inst := f.stalled ++ f.fetching

/-- The block in fetch. -/
def inFetch (f : FrontEnd) : List Inst := if f.fetchValid then f.fetchInst.toList else []

/-- The instruction in ID: the blocks go on where it was predicted to, or behind it. -/
def Leads (f : FrontEnd) (start : Word) (inst : Inst) : Prop :=
  inst.taken = true ∧ f.idRemainSize = 0 ∧ start = inst.nextPc ∨
    inst.taken = false ∧ inst.pc + 4 = start ∧
      Stands (f.pc + inst.info.instSize.setWidth 64) f.idRemainSize start

/-- The cursors, the blocks and the flags agree; the first block not begun is at `start`. -/
structure Aligned (f : FrontEnd) (start : Word) : Prop where
  blocks : Blocks start (f.asked ++ f.inFetch) f.predPc
  quiet : ∀ inst ∈ f.asked, inst.excepts = false
  stalls : f.idStallValid = (f.idStallDecMore || f.idStallInstValid)
  waits : f.idStallInstValid = true → f.idStallInst.isSome = true
  more : f.idStallDecMore = true → 0 < f.idRemainSize
  rest : 0 < f.idRemainSize → f.idStallValid = true ∧
    ∃ inst, f.idInst = some inst ∧ inst.excepts = false ∧ inst.size = 4 ∧ inst.pc + 4 = start
  empty : f.idValid = false → Stands f.pc f.idRemainSize start
  held : f.idValid = true → ∃ inst, f.idInst = some inst ∧ inst.Placed f.pc ∧ f.Leads start inst

/-- The front is in order, unless ID holds a trap, which drops what is behind it. -/
def Sound (f : FrontEnd) : Prop :=
  f.idValid = true ∧ holdsTrap f.idInst = true ∨ ∃ start, f.Aligned start

/-- Nothing is fetched. -/
theorem drop_aligned (f : FrontEnd) (target : Word) (empty : f.idValid = false)
    (here : f.pc = target) : (f.drop target).Aligned target where
  blocks := rfl
  quiet _ mem := by cases mem
  stalls := rfl
  waits := by rintro ⟨⟩
  more := by rintro ⟨⟩
  rest more := absurd more (Int.lt_irrefl 0)
  empty _ := .inl ⟨rfl, here⟩
  held valid := by cases valid.symm.trans empty

end FrontEnd

/-! ### `preId` -/

/-- An instruction without an exception. -/
theorem Inst.excepts_eq_false {inst : Inst} :
    inst.excepts = false ↔ inst.info.exception = excNone := by
  rw [Inst.excepts, RiscvArch.exceptionValid, bne_eq_false_iff_eq]

/-- The instruction that `preId` decodes at the pc out of a block, as it is predicted. -/
def Inst.decodedAt (B : Predictor π) (state : π) (pc paddr : Word) (info : DecodeInfo)
    (block : Inst) : Inst :=
  let prediction := (B.predict pc info state).1
  { block with
    paddr := paddr
    info := info
    realSize := info.instSize
    realPc := pc
    bpMetaIdx := prediction.metaIdx
    nextPc := prediction.nextPc
    taken := prediction.taken }

namespace Pipeline

variable {P : Platform δ} {p : PipelineParams} {B : Predictor π} {s t : Pipeline δ π}

/-- `decode` and `predict` have returned, and `remain` bytes are left. -/
def predicted (B : Predictor π) (arch : RiscvArch δ) (info : DecodeInfo) (remain : Int)
    (s : Pipeline δ π) : Pipeline δ π :=
  { s with
    arch := arch
    pred := (B.predict s.pc info s.pred).2
    envInfo := some info
    idRemainSize := remain }

/-- The instruction is predicted taken. -/
def jump (B : Predictor π) (inst : Inst) (s : Pipeline δ π) : Pipeline δ π :=
  let inst := { inst with realTarget := inst.nextPc }
  { s.frontRedirect B inst with idInst := some inst }

/-- What `preId` makes of a block that `left` bytes are left of: the fetch at the pc faults, or
the instruction is decoded, and predicted taken or not. -/
inductive PreId (P : Platform δ) (B : Predictor π) (s : Pipeline δ π) (block : Inst) (left : Int) :
    Bool × Pipeline δ π → Prop
  | faults (paddr : Word) (arch : RiscvArch δ)
      (ran : s.arch.translateAddr P s.pc .ifetch excNone = .ok (paddr, excIPF, arch)) :
      PreId P B s block left (true, handleException
        { block with paddr := paddr, info := { block.info with exception := excIPF } }
        { s with arch := arch, idRemainSize := left })
  | jumps (paddr : Word) (slot info : DecodeInfo) (arch : RiscvArch δ)
      (ran : s.arch.translateAddr P s.pc .ifetch excNone = .ok (paddr, excNone, s.arch))
      (decoded : s.arch.decode P s.pc paddr slot = .ok (arch, info))
      (taken : (block.decodedAt B s.pred s.pc paddr info).taken = true) :
      PreId P B s block left (true, (s.predicted B arch info left).jump B
        (block.decodedAt B s.pred s.pc paddr info))
  | falls (paddr : Word) (slot info : DecodeInfo) (arch : RiscvArch δ)
      (ran : s.arch.translateAddr P s.pc .ifetch excNone = .ok (paddr, excNone, s.arch))
      (decoded : s.arch.decode P s.pc paddr slot = .ok (arch, info))
      (falls : (block.decodedAt B s.pred s.pc paddr info).taken = false) :
      PreId P B s block left (decide (left - info.instSize.toNat ≤ 0),
        { s.predicted B arch info (left - info.instSize.toNat) with
          idInst := some (block.decodedAt B s.pred s.pc paddr info) })

/-- `preId` on a block that does not trap. -/
theorem preId_spec {inst : Option Inst} {block : Inst} {left : Int}
    (source : (if s.idRemainSize ≤ 0 then inst else s.idInst) = some block)
    (quiet : block.excepts = false)
    (bytes : (if s.idRemainSize ≤ 0 then s.idRemainSize + block.size.toNat
      else s.idRemainSize) = left) :
    Returns (s.preId P B inst) (PreId P B s block left) := by
  have code := Inst.excepts_eq_false.1 quiet
  unfold preId
  rw [source]
  dsimp only
  rw [bytes, code, returns_bind]
  rintro ⟨paddr, exception, arch⟩ moved
  cases translated : s.arch.translateAddr P s.pc .ifetch excNone with
  | error e =>
      rw [translated] at moved
      cases moved
  | ok r =>
      rw [translated] at moved
      cases moved
      rcases translateAddr_code translated with rfl | rfl
      · have same := translateAddr_same translated
        subst same
        have plain : ({ block with
            paddr := paddr, info := { block.info with exception := excNone } } : Inst).excepts =
            false := rfl
        dsimp only
        rw [if_neg (by rw [plain]; decide), returns_bind]
        rintro ⟨arch', info⟩ decoding
        cases decoded : s.arch.decode P s.pc paddr { block.info with exception := excNone } with
        | error e =>
            rw [decoded] at decoding
            cases decoding
        | ok d =>
            rw [decoded] at decoding
            cases decoding
            dsimp only
            split
            next taken =>
              exact (returns_pure _ _).2 (.jumps paddr _ info arch' translated decoded taken)
            next falls =>
              exact (returns_pure _ _).2
                (.falls paddr _ info arch' translated decoded (Bool.eq_false_iff.2 falls))
      · exact (returns_pure _ _).2 (.faults paddr arch translated)

end Pipeline

/-! ### What `preId` does to the front -/

/-- What `preId` makes of the front, with a block that `left` bytes are left of. -/
inductive FrontEnd.Decodes (f : FrontEnd) (block : Inst) (left : Int) : Bool → FrontEnd → Prop
  | traps {finish : Bool} {g : FrontEnd} {inst : Inst} (held : g.idInst = some inst)
      (excepts : inst.excepts = true) (pc : g.pc = f.pc) (valid : g.idValid = f.idValid) :
      Decodes f block left finish g
  | jumps {inst : Inst} (placed : inst.Placed f.pc) (taken : inst.taken = true) :
      Decodes f block left true { f.drop inst.nextPc with idInst := some inst }
  | falls {inst : Inst} (placed : inst.Placed f.pc) (falls : inst.taken = false)
      (pc : inst.pc = block.pc) :
      Decodes f block left (decide (left - inst.info.instSize.toNat ≤ 0))
        { f with idInst := some inst, idRemainSize := left - inst.info.instSize.toNat }

/-- The instruction out of a block, at one of its two places. -/
theorem Inst.decodedAt_placed {B : Predictor π} (jumps : B.Jumps) {state : π} {pc paddr : Word}
    {info : DecodeInfo} {block : Inst} {left : Int} (size : block.size = 4)
    (stands : left = 4 ∧ pc = block.pc ∨ left = 2 ∧ pc = block.pc + 2)
    (length : info.instSize = 2 ∨ info.instSize = 4)
    (quiet : (block.decodedAt B state pc paddr info).excepts = false) :
    (block.decodedAt B state pc paddr info).Placed pc where
  quiet := quiet
  size := size
  realPc := rfl
  place := stands.imp And.right And.right
  length := length
  direct := jumps.direct pc info state
  jump := jumps.jump pc info state

namespace Pipeline

variable {P : Platform δ} {p : PipelineParams} {B : Predictor π} {s t : Pipeline δ π}

/-- A decoding goes on by one instruction in its block, or jumps out of it. -/
theorem PreId.decodes {block : Inst} {left : Int} {r : Bool × Pipeline δ π} (jumps : B.Jumps)
    (size : block.size = 4)
    (stands : left = 4 ∧ s.pc = block.pc ∨ left = 2 ∧ s.pc = block.pc + 2)
    (pre : PreId P B s block left r) : s.frontEnd.Decodes block left r.1 r.2.frontEnd := by
  cases pre with
  | faults paddr arch ran => exact .traps rfl rfl rfl rfl
  | jumps paddr slot info arch ran decoded taken =>
      cases excepts : (block.decodedAt B s.pred s.pc paddr info).excepts with
      | true => exact .traps rfl excepts rfl rfl
      | false =>
          have length := decode_instSize P s.arch s.pc paddr slot _ decoded
          have placed := Inst.decodedAt_placed jumps size stands length excepts
          let inst := block.decodedAt B s.pred s.pc paddr info
          have placed : Inst.Placed s.frontEnd.pc { inst with realTarget := inst.nextPc } :=
            ⟨placed.quiet, placed.size, placed.realPc, placed.place, placed.length, placed.direct,
              placed.jump⟩
          exact .jumps placed taken
  | falls paddr slot info arch ran decoded falls =>
      cases excepts : (block.decodedAt B s.pred s.pc paddr info).excepts with
      | true => exact .traps rfl excepts rfl rfl
      | false =>
          have length := decode_instSize P s.arch s.pc paddr slot _ decoded
          exact .falls (Inst.decodedAt_placed jumps size stands length excepts) falls rfl

end Pipeline

namespace FrontEnd

variable {f g : FrontEnd} {start : Word}

/-- A decoding does not make the instruction valid itself. -/
theorem Decodes.idValid {block : Inst} {left : Int} {finish : Bool}
    (decodes : f.Decodes block left finish g) : g.idValid = f.idValid := by
  cases decodes with
  | traps held excepts pc valid => exact valid
  | jumps => rfl
  | falls => rfl

/-! ### A block arrives -/

/-- Nothing waits for ID. -/
theorem stalled_of_not (free : f.idStallInstValid = false) : f.stalled = [] := by
  rw [stalled, free]
  rfl

/-- What is asked of the ICache is what is being fetched. -/
theorem asked_of_not (free : f.idStallInstValid = false) : f.asked = f.fetching := by
  rw [asked, stalled_of_not free]
  rfl

/-- A block that is decoded to its end waits no more. -/
theorem asked_of_done (more : f.idStallDecMore = false) (done : f.idRemainSize ≤ 0) :
    f.asked = (if f.idStallInstValid then f.idStallInst.toList else []) ++ f.fetching := by
  rw [asked, stalled, more, decide_eq_true done, Bool.false_or, Bool.and_true]

/-- An instruction that falls through is in ID, and the blocks go on behind its own. -/
theorem aligned_of_falls {inst : Inst} (blocks : Blocks start (f.asked ++ f.inFetch) f.predPc)
    (quiet : ∀ later ∈ f.asked, later.excepts = false)
    (stalls : f.idStallValid = (f.idStallDecMore || f.idStallInstValid))
    (waits : f.idStallInstValid = true → f.idStallInst.isSome = true)
    (more : f.idStallDecMore = true → 0 < f.idRemainSize)
    (left : 0 < f.idRemainSize → f.idStallValid = true) (valid : f.idValid = true)
    (held : f.idInst = some inst) (placed : inst.Placed f.pc) (falls : inst.taken = false)
    (ends : inst.pc + 4 = start)
    (stands : Stands (f.pc + inst.info.instSize.setWidth 64) f.idRemainSize start) :
    f.Aligned start where
  blocks := blocks
  quiet := quiet
  stalls := stalls
  waits := waits
  more := more
  rest some := ⟨left some, inst, held, placed.quiet, placed.size, ends⟩
  empty idle := by cases valid.symm.trans idle
  held _ := ⟨inst, held, placed, .inr ⟨falls, ends, stands⟩⟩

/-- An instruction that is predicted taken is in ID, and nothing else is. -/
theorem aligned_of_jumps {inst : Inst} (valid : f.idValid = true) (placed : inst.Placed f.pc)
    (taken : inst.taken = true) :
    Aligned { f.drop inst.nextPc with idInst := some inst } inst.nextPc where
  blocks := rfl
  quiet := by rintro _ ⟨⟩
  stalls := rfl
  waits := by rintro ⟨⟩
  more := by rintro ⟨⟩
  rest left := absurd left (Int.lt_irrefl 0)
  empty idle := by cases valid.symm.trans idle
  held _ := ⟨inst, rfl, placed, .inl ⟨taken, rfl, rfl⟩⟩

/-- Between ticks nothing is left of a block, if ID is empty. -/
theorem Aligned.done (aligned : f.Aligned start) (unstalled : f.idStallValid = false) :
    f.idRemainSize ≤ 0 ∧ f.idStallDecMore = false ∧ f.idStallInstValid = false := by
  have flags := aligned.stalls
  rw [unstalled, eq_comm, Bool.or_eq_false_iff] at flags
  refine ⟨?_, flags⟩
  by_contra more
  obtain ⟨valid, -⟩ := aligned.rest (Int.not_le.1 more)
  cases valid.symm.trans unstalled

/-- A block arrives while ID is busy and no other one waits. -/
theorem Aligned.hold {inst : Inst} {rest : List Inst} (aligned : f.Aligned start)
    (valid : f.idValid = true) (free : f.idStallInstValid = false)
    (owed : f.fetching = inst :: rest) :
    Aligned { f with
      fetching := rest
      idStallValid := true
      idStallInst := some inst
      idStallInstValid := true } start := by
  have more : f.idStallDecMore = true ∨ f.idRemainSize ≤ 0 := by
    by_contra neither
    rw [not_or, Int.not_le] at neither
    obtain ⟨stalls, -⟩ := aligned.rest neither.2
    rw [aligned.stalls, free, Bool.or_false] at stalls
    exact neither.1 stalls
  -- The list of the blocks is the same one.
  have same : asked { f with
      fetching := rest
      idStallValid := true
      idStallInst := some inst
      idStallInstValid := true } = f.asked := by
    have waits : (f.idStallDecMore || decide (f.idRemainSize ≤ 0)) = true := by
      rw [Bool.or_eq_true, decide_eq_true_iff]
      exact more
    rw [asked, asked, stalled_of_not free, owed, stalled]
    dsimp only
    rw [waits]
    rfl
  refine ⟨?_, ?_, ?_, fun _ => rfl, aligned.more, ?_, ?_, aligned.held⟩
  · rw [same]
    exact aligned.blocks
  · rw [same]
    exact aligned.quiet
  · exact (Bool.or_true _).symm
  · intro left
    obtain ⟨-, block⟩ := aligned.rest left
    exact ⟨rfl, block⟩
  · intro empty
    cases valid.symm.trans empty

/-- The oldest block that is owed is the one ID is to begin, if no other one waits. -/
theorem Aligned.oldest {inst : Inst} {rest : List Inst} (aligned : f.Aligned start)
    (free : f.idStallInstValid = false) (owed : f.fetching = inst :: rest) :
    inst.excepts = false ∧ inst.size = 4 ∧ inst.pc = start ∧
      Blocks (start + 4) (rest ++ f.inFetch) f.predPc ∧ ∀ later ∈ rest, later.excepts = false := by
  have blocks := aligned.blocks
  have quiet := aligned.quiet
  rw [asked, stalled_of_not free, owed] at blocks quiet
  obtain ⟨pc, size, further⟩ := blocks
  exact ⟨quiet inst List.mem_cons_self, size, pc, further,
    fun later mem => quiet later (List.mem_cons_of_mem _ mem)⟩

/-- A block arrives, and goes to ID. -/
theorem Aligned.answer {inst : Inst} {rest : List Inst} {finish : Bool} (aligned : f.Aligned start)
    (idle : f.idValid = false) (unstalled : f.idStallValid = false)
    (owed : f.fetching = inst :: rest)
    (decodes : Decodes { f with fetching := rest, idValid := true } inst (f.idRemainSize + 4)
      finish g) :
    Sound { g with idStallValid := !finish, idStallDecMore := !finish } := by
  obtain ⟨done, more, free⟩ := aligned.done unstalled
  obtain ⟨quiet, size, pc, further, laterQuiet⟩ := aligned.oldest free owed
  have stands := (aligned.empty idle).next done
  cases decodes with
  | traps held excepts pc valid =>
      refine .inl ⟨valid, ?_⟩
      change holdsTrap g.idInst = true
      rw [held]
      exact excepts
  | @jumps decoded placed taken =>
      exact .inr ⟨decoded.nextPc,
        aligned_of_jumps (f := { f with fetching := rest, idValid := true }) rfl placed taken⟩
  | @falls decoded placed falls block =>
      have ends : decoded.pc + 4 = start + 4 := by rw [block, pc]
      refine .inr ⟨start + 4, aligned_of_falls ?_ ?_ ?_ ?_ ?_ ?_ rfl rfl placed falls ends
        (Stands.after stands placed.length)⟩
      · rw [asked_of_not]
        · exact further
        · exact free
      · rw [asked_of_not]
        · exact laterQuiet
        · exact free
      · dsimp only
        rw [free, Bool.or_false]
      · exact fun waits => absurd waits (ne_true_of_eq_false free)
      · intro waits
        simpa using waits
      · intro left
        simpa using left

/-! ### ID goes on with what waits -/

/-- The flags after `preId` on what waits. -/
def afterStall (finish : Bool) (f : FrontEnd) : FrontEnd :=
  if f.idStallDecMore then
    { f with
      idValid := true
      idStallDecMore := !finish
      idStallValid := !(finish && !f.idStallInstValid) }
  else if f.idStallInstValid then
    { f with idValid := true, idStallInstValid := !finish, idStallValid := !finish }
  else { f with idValid := true }

/-- ID goes on with a block of which `left` bytes are not decoded: it begins the one that waits,
or decodes the rest of its last one. -/
structure GoesOn (f : FrontEnd) (start : Word) (block : Inst) (left : Int) : Prop where
  source : (if f.idRemainSize ≤ 0 then f.idStallInst else f.idInst) = some block
  bytes : (if f.idRemainSize ≤ 0 then f.idRemainSize + block.size.toNat else f.idRemainSize) = left
  quiet : block.excepts = false
  size : block.size = 4
  stands : left = 4 ∧ f.pc = block.pc ∨ left = 2 ∧ f.pc = block.pc + 2
  which : f.idStallDecMore = false ∧ f.idStallInstValid = true ∧ block.pc = start ∧
      f.asked = block :: f.fetching ∨
    0 < f.idRemainSize ∧ left = 2 ∧ block.pc + 4 = start

/-- What waits for ID goes on with the block that ID is in, or with the next one. -/
theorem Aligned.goesOn (aligned : f.Aligned start) (idle : f.idValid = false)
    (stalled : f.idStallValid = true) : ∃ block left, f.GoesOn start block left := by
  by_cases done : f.idRemainSize ≤ 0
  · have more : f.idStallDecMore = false := by
      by_contra more
      exact absurd (aligned.more (Bool.eq_true_of_not_eq_false more)) (Int.not_lt.2 done)
    have waits : f.idStallInstValid = true := by
      rw [← stalled, aligned.stalls, more, Bool.false_or]
    obtain ⟨block, held⟩ := Option.isSome_iff_exists.1 (aligned.waits waits)
    have asked : f.asked = block :: f.fetching := by
      rw [FrontEnd.asked, FrontEnd.stalled, waits, more, held, decide_eq_true done]
      rfl
    have blocks := aligned.blocks
    rw [asked] at blocks
    obtain ⟨pc, size, -⟩ := blocks
    have quiet := aligned.quiet block (by rw [asked]; exact List.mem_cons_self)
    have stands := (aligned.empty idle).next done
    refine ⟨block, f.idRemainSize + 4, ?_, ?_, quiet, size, ?_, .inl ⟨more, waits, pc, asked⟩⟩
    · rw [if_pos done, held]
    · rw [if_pos done, size]
      rfl
    · rw [pc]
      exact stands
  · have left := Int.not_le.1 done
    obtain ⟨-, block, held, quiet, size, ends⟩ := aligned.rest left
    rcases aligned.empty idle with ⟨none, -⟩ | ⟨two, here⟩ | ⟨begun, -⟩
    · omega
    · refine ⟨block, 2, ?_, ?_, quiet, size, .inr ⟨rfl, ?_⟩, .inr ⟨left, rfl, ends⟩⟩
      · rw [if_neg done, held]
      · rw [if_neg done, two]
      · have same : f.pc + 2 = block.pc + 4 := here.trans ends.symm
        bv_omega
    · omega

/-- After a stall ID holds an instruction. -/
@[simp] theorem afterStall_idValid (finish : Bool) (f : FrontEnd) :
    (f.afterStall finish).idValid = true := by
  unfold afterStall
  split_ifs <;> rfl

/-- The end of a stall does not change it. -/
@[simp] theorem afterStall_idInst (finish : Bool) (f : FrontEnd) :
    (f.afterStall finish).idInst = f.idInst := by
  unfold afterStall
  split_ifs <;> rfl

/-- The block that waits is begun with an instruction that falls through. -/
theorem Aligned.goOn_begun {block decoded : Inst} {left : Int} (aligned : f.Aligned start)
    (more : f.idStallDecMore = false) (waits : f.idStallInstValid = true)
    (asked : f.asked = block :: f.fetching) (placed : decoded.Placed f.pc)
    (falls : decoded.taken = false) (ends : decoded.pc + 4 = start + 4)
    (after : Stands (f.pc + decoded.info.instSize.setWidth 64) left (start + 4)) :
    ({ f with idInst := some decoded, idRemainSize := left }.afterStall
      (decide (left ≤ 0))).Aligned (start + 4) := by
  have blocks := aligned.blocks
  have quiet := aligned.quiet
  rw [asked] at blocks quiet
  obtain ⟨-, -, further⟩ := blocks
  rw [afterStall, if_neg (by rw [more]; exact Bool.false_ne_true), if_pos waits]
  -- The block waits on for its second half, or it is finished: either way it is begun.
  have none : FrontEnd.asked { f with
      idInst := some decoded
      idRemainSize := left
      idValid := true
      idStallInstValid := !decide (left ≤ 0)
      idStallValid := !decide (left ≤ 0) } = f.fetching := by
    rw [FrontEnd.asked, FrontEnd.stalled]
    dsimp only
    rw [more, Bool.false_or, Bool.not_and_self]
    rfl
  refine aligned_of_falls ?_ ?_ ?_ ?_ ?_ ?_ rfl rfl placed falls ends after
  · rw [none]
    exact further
  · rw [none]
    exact fun later mem => quiet later (List.mem_cons_of_mem _ mem)
  · dsimp only
    rw [more, Bool.false_or]
  · exact fun _ => aligned.waits waits
  · exact fun more' => absurd more' (ne_true_of_eq_false more)
  · intro some
    simpa using some

/-- The rest of a block is decoded, and nothing is left of it. -/
theorem Aligned.goOn_rest {decoded : Inst} {left : Int} (aligned : f.Aligned start)
    (stalled : f.idStallValid = true) (rest : 0 < f.idRemainSize) (done : left ≤ 0)
    (placed : decoded.Placed f.pc) (falls : decoded.taken = false)
    (ends : decoded.pc + 4 = start)
    (after : Stands (f.pc + decoded.info.instSize.setWidth 64) left start) :
    ({ f with idInst := some decoded, idRemainSize := left }.afterStall
      (decide (left ≤ 0))).Aligned start := by
  have none : f.asked = (if f.idStallDecMore && f.idStallInstValid then
      f.idStallInst.toList else []) ++ f.fetching := by
    rw [FrontEnd.asked, FrontEnd.stalled, decide_eq_false (Int.not_le.2 rest), Bool.or_false,
      Bool.and_comm]
  rw [decide_eq_true done, afterStall]
  dsimp only
  -- The block behind the rest: it came already, it is still awaited, or none waits.
  split_ifs with more waits
  · rw [more, Bool.true_and] at none
    refine aligned_of_falls ?_ ?_ ?_ ?_ ?_ ?_ rfl rfl placed falls ends after
    · rw [asked_of_done rfl done, ← none]
      exact aligned.blocks
    · rw [asked_of_done rfl done, ← none]
      exact aligned.quiet
    · dsimp only
      rw [Bool.true_and, Bool.not_not, Bool.not_true, Bool.false_or]
    · exact aligned.waits
    · rintro ⟨⟩
    · exact fun some => absurd done (Int.not_le.2 some)
  · rw [Bool.eq_false_iff.2 more, Bool.false_and, if_neg Bool.false_ne_true,
      List.nil_append] at none
    have blocks := aligned.blocks
    have quiet := aligned.quiet
    rw [none] at blocks quiet
    refine aligned_of_falls ?_ ?_ ?_ ?_ ?_ ?_ rfl rfl placed falls ends after
    · rw [asked_of_not rfl]
      exact blocks
    · rw [asked_of_not rfl]
      exact quiet
    · dsimp only
      rw [Bool.eq_false_iff.2 more]
      rfl
    · rintro ⟨⟩
    · exact fun more' => absurd more' more
    · exact fun some => absurd done (Int.not_le.2 some)
  · rw [aligned.stalls, Bool.or_eq_true] at stalled
    exact absurd stalled (not_or.2 ⟨more, waits⟩)

/-- ID goes on with what waits. -/
theorem Aligned.goOn {block : Inst} {left : Int} {finish : Bool} (aligned : f.Aligned start)
    (stalled : f.idStallValid = true) (goes : f.GoesOn start block left)
    (decodes : f.Decodes block left finish g) : Sound (g.afterStall finish) := by
  cases decodes with
  | traps held excepts pc valid =>
      -- A trap in ID: nothing that is fetched is needed any more.
      refine .inl ⟨afterStall_idValid finish g, ?_⟩
      rw [afterStall_idInst, held]
      exact excepts
  | @jumps decoded placed taken =>
      exact .inr ⟨decoded.nextPc,
        aligned_of_jumps (f := { f with idValid := true }) rfl placed taken⟩
  | @falls decoded placed falls block' =>
      have after := Stands.after goes.stands placed.length
      -- ID begins the block that waits, or goes on with the rest of its last one.
      rcases goes.which with ⟨more, waits, pc, asked⟩ | ⟨rest, two, ends⟩
      · rw [pc] at after
        have ends : decoded.pc + 4 = start + 4 := by rw [block', pc]
        exact .inr ⟨start + 4, aligned.goOn_begun more waits asked placed falls ends after⟩
      · have done : left - decoded.info.instSize.toNat ≤ 0 := by
          rcases placed.length with length | length <;> rw [two, length] <;> decide
        rw [ends] at after
        have ends : decoded.pc + 4 = start := by rw [block', ends]
        exact .inr ⟨start, aligned.goOn_rest stalled rest done placed falls ends after⟩

/-! ### Fetch -/

/-- The block in fetch. -/
theorem inFetch_of_valid {inst : Inst} (valid : f.fetchValid = true)
    (held : f.fetchInst = some inst) : f.inFetch = [inst] := by
  rw [inFetch, if_pos valid, held]
  rfl

/-- No block is in fetch. -/
theorem inFetch_of_not (free : f.fetchValid = false) : f.inFetch = [] := by
  rw [inFetch, free]
  rfl

/-- The block in fetch is translated, and stays there. -/
theorem Aligned.translate {inst inst' : Inst} (aligned : f.Aligned start)
    (valid : f.fetchValid = true) (held : f.fetchInst = some inst) (pc : inst'.pc = inst.pc)
    (size : inst'.size = inst.size) : Aligned { f with fetchInst := some inst' } start := by
  obtain ⟨blocks, quiet, stalls, waits, more, rest, empty, held'⟩ := aligned
  refine ⟨?_, quiet, stalls, waits, more, rest, empty, held'⟩
  rw [inFetch_of_valid valid held, blocks_append] at blocks
  obtain ⟨middle, first, begins, four, ends⟩ := blocks
  rw [inFetch_of_valid (f := { f with fetchInst := some inst' }) valid rfl]
  exact blocks_append.2 ⟨middle, first, pc.trans begins, size.trans four, ends⟩

/-- The block in fetch is asked for. -/
theorem Aligned.ask {inst : Inst} (aligned : f.Aligned start) (valid : f.fetchValid = true)
    (held : f.fetchInst = some inst) (silent : inst.excepts = false) :
    Aligned { f with fetching := f.fetching ++ [inst], fetchValid := false } start := by
  obtain ⟨blocks, quiet, stalls, waits, more, rest, empty, held'⟩ := aligned
  have asked : FrontEnd.asked { f with fetching := f.fetching ++ [inst], fetchValid := false } =
      f.asked ++ [inst] := (List.append_assoc _ _ _).symm
  refine ⟨?_, ?_, stalls, waits, more, rest, empty, held'⟩
  · rw [asked, inFetch_of_not rfl, List.append_nil]
    rw [inFetch_of_valid valid held] at blocks
    exact blocks
  · rw [asked]
    intro later mem
    rcases List.mem_append.1 mem with earlier | now
    · exact quiet later earlier
    · rw [List.mem_singleton.1 now]
      exact silent

/-- The next block is to be fetched. -/
theorem Aligned.nextBlock {inst : Inst} (aligned : f.Aligned start) (free : f.fetchValid = false)
    (pc : inst.pc = f.predPc) (size : inst.size = 4) :
    Aligned { f with fetchInst := some inst, predPc := f.predPc + 4, fetchValid := true }
      start := by
  obtain ⟨blocks, quiet, stalls, waits, more, rest, empty, held⟩ := aligned
  refine ⟨?_, quiet, stalls, waits, more, rest, empty, held⟩
  rw [inFetch_of_not free, List.append_nil] at blocks
  exact blocks_append.2 ⟨f.predPc, blocks, pc, size, rfl⟩

/-! ### ID hands its instruction over -/

/-- Behind an instruction in ID the pc goes on where it was predicted to, or behind it. -/
theorem Aligned.leave {inst inst' : Inst} {target : Word} (aligned : f.Aligned start)
    (valid : f.idValid = true) (held : f.idInst = some inst)
    (same : inst'.excepts = inst.excepts ∧ inst'.size = inst.size ∧ inst'.pc = inst.pc)
    (taken : inst.taken = true → target = inst.nextPc)
    (falls : inst.taken = false → target = f.pc + inst.info.instSize.setWidth 64) :
    Aligned { f with pc := target, idInst := some inst', idValid := false } start := by
  obtain ⟨excepts, size, pc⟩ := same
  obtain ⟨blocks, quiet, stalls, waits, more, rest, -, held'⟩ := aligned
  obtain ⟨_, held'', placed, leads⟩ := held' valid
  cases held.symm.trans held''
  refine ⟨blocks, quiet, stalls, waits, more, ?_, ?_, ?_⟩
  · intro left
    obtain ⟨stalled, _, held'', silent, four, ends⟩ := rest left
    cases held.symm.trans held''
    exact ⟨stalled, inst', rfl, excepts.trans silent, size.trans four, by rw [pc, ends]⟩
  · intro _
    rcases leads with ⟨predicted, none, goes⟩ | ⟨predicted, -, stands⟩
    · exact .inl ⟨none, (taken predicted).trans goes.symm⟩
    · dsimp only
      rw [falls predicted]
      exact stands
  · rintro ⟨⟩

end FrontEnd

end CPUDelaySim
