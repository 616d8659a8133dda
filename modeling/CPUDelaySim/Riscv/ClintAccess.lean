import CPUDelaySim.Device.ClintBytes
import CPUDelaySim.Riscv.ClintLines
import CPUDelaySim.Riscv.LoadStore

/-!
# The guest's loads and stores to the CLINT

A load or store of the guest reaches the CLINT through `ld_*` in `decode`, or through `st_*`
there and the commit of `updateEnv`.  A run is a sequence of such instructions between which
nothing else moves the CLINT; what it should do is said by a byte memory beside it, the bytes
last stored (`Lawful`).  An instruction obeys that law exactly when it meets a condition on
its offset and operand (`Meets`), and so does a run (`clintBytes_iff`).

`memory` is what a byte memory would hold after the access, and `Meets` the condition under which
the CLINT holds the same.  A load has to be of eight bytes and begin at a register, since
`Clint::read` stores eight wherever it is asked to, and a narrower buffer is overrun.  For a store
the condition compares what its register keeps of the operand with the bytes there should be, those
that the store covers and those that it does not.
-/

namespace CPUDelaySim.Riscv

variable {δ σ : Type}

open RiscvArch Mmio

/-! ### Loads and stores of any register -/

namespace MemInstr

/-- The width of a load, and what it makes of the value that `ld_*` returns. -/
def loads (m : MemInstr) : Option (Width × (Word → Word)) :=
  match m.body with
  | .load _ _ width ext | .fload _ _ width ext => some (width, ext)
  | _ => none

/-- The width of a store, and the eight bytes it puts in its record. -/
def stores (m : MemInstr) : Option (Width × (ArchState → Word)) :=
  match m.body with
  | .store _ width data => some (width, fun s => width.truncate (data s))
  | .fstore _ width data => some (width, data)
  | _ => none

/-- A load to an integer register or to one of the unit. -/
theorem body_of_loads {m : MemInstr} {width : Width} {ext : Word → Word}
    (load : m.loads = some (width, ext)) :
    ∃ rd, m.body = .load rd m.address width ext ∨ m.body = .fload rd m.address width ext := by
  cases m with
  | load op rd rs1 imm =>
      cases op <;> cases load <;> exact ⟨rd, .inl rfl⟩
  | fload size rd rs1 imm =>
      cases size <;> cases load <;> exact ⟨rd, .inr rfl⟩
  | store width rs2 rs1 imm => cases width <;> cases load
  | fstore size rs2 rs1 imm => cases size <;> cases load
  | amo op size aqrl rd rs1 rs2 => cases op <;> cases size <;> cases load
  | lr size aqrl rd rs1 => cases size <;> cases load
  | sc size aqrl rd rs1 rs2 => cases size <;> cases load
  | compact op k base r | stack op k r names =>
      cases op with
      | lw | ld =>
          cases load
          exact ⟨_, .inl rfl⟩
      | fld =>
          cases load
          exact ⟨_, .inr rfl⟩
      | sw | sd | fsd => cases load

/-- A store from an integer register or from one of the unit. -/
theorem body_of_stores {m : MemInstr} {width : Width} {operand : ArchState → Word}
    (store : m.stores = some (width, operand)) :
    (∃ data, m.body = .store m.address width data ∧ operand = fun s => width.truncate (data s)) ∨
      m.body = .fstore m.address width operand := by
  cases m with
  | store width rs2 rs1 imm =>
      cases width <;> cases store <;> exact .inl ⟨_, rfl, rfl⟩
  | fstore size rs2 rs1 imm =>
      cases size <;> cases store <;> exact .inr rfl
  | load op rd rs1 imm => cases op <;> cases store
  | fload size rd rs1 imm => cases size <;> cases store
  | amo op size aqrl rd rs1 rs2 => cases op <;> cases size <;> cases store
  | lr size aqrl rd rs1 => cases size <;> cases store
  | sc size aqrl rd rs1 rs2 => cases size <;> cases store
  | compact op k base r | stack op k r names =>
      cases op with
      | sw | sd =>
          cases store
          exact .inl ⟨_, rfl, rfl⟩
      | fsd =>
          cases store
          exact .inr rfl
      | lw | ld | fld => cases store

section Passes

variable {P : Platform δ} {m : MemInstr} {arch a : RiscvArch δ} {vaddr paddr : Word}
variable {d : RiscvArch δ × DecodeInfo}

/-- A load reads its address from a machine with the devices of `a`, and its record takes what
is left in the buffer. -/
theorem Passes.reads (passes : m.Passes P arch a vaddr paddr d) {width : Width}
    {ext : Word → Word} (load : m.loads = some (width, ext)) :
    d.2.type = .load ∧ ∃ ha, d.1.physical P (m.address d.1.state) .lfetch = some ha ∧
      ∃ b : RiscvArch δ, b.memory = a.memory ∧ ∃ raw plain,
        b.paddrRead P ha width.bytes P.junk = .ok (raw, plain, d.1) ∧
          d.2.dst0.data = ext (width.extend raw) := by
  obtain ⟨i, done, -, ran⟩ := passes.ran
  have silent := passes.silent
  obtain ⟨e, info⟩ := d
  -- With the FPU on, a floating-point load is one of the same shape on a dirtied state.
  obtain ⟨ctx, rd, memory, loaded⟩ : ∃ (ctx : Ctx δ) (rd : StateWord),
      ctx.arch.memory = a.memory ∧ ∃ data c, ld P width ctx (m.address ctx.arch.state) =
        .ok (data, c) ∧ (⟨e, info⟩ : Ctx δ) = (c.setDst0 rd (ext data)).setType .load := by
    obtain ⟨rd, body | body⟩ := body_of_loads load
    · rw [body] at ran
      simp only [Body.exec, bind_eq_ok] at ran
      obtain ⟨⟨data, c⟩, loaded, result⟩ := ran
      cases result
      exact ⟨(bodyCtx a vaddr paddr i).setExcData _, .gpr rd, rfl, data, c, loaded, rfl⟩
    · rw [body] at ran
      simp only [Body.exec, requireFpu] at ran
      split at ran
      · cases ran
        exact absurd silent (by decide : excII ≠ excNone)
      · rw [bind_eq_ok] at ran
        obtain ⟨⟨data, c⟩, loaded, result⟩ := ran
        cases result
        exact ⟨(bodyCtx a vaddr paddr i).setState _, .fpr rd, rfl, data, c, loaded, rfl⟩
  obtain ⟨data, c, loaded, result⟩ := loaded
  cases result
  have frame := (ld_memStep P width ctx _ _ loaded).frame
  have gpr (k : BitVec 5) : c.arch.state.gpr k = ctx.arch.state.gpr k := frame.get (by rintro ⟨⟩)
  have address : m.address c.arch.state = m.address ctx.arch.state := by
    cases m <;> simp only [address, gpr]
  refine ⟨rfl, ?_⟩
  cases ld_outcome P width _ _ _ loaded with
  | misaligned skew => exact absurd silent (by decide : excLAM ≠ excNone)
  | fault aligned translated => exact absurd silent (by decide : excLPF ≠ excNone)
  | @read ha raw plain b aligned translated value =>
      refine ⟨ha, ?_, ctx.arch, memory, raw, plain, value, rfl⟩
      change b.physical P (m.address b.state) .lfetch = some ha
      rw [show m.address b.state = m.address ctx.arch.state from address,
        show b.physical P _ .lfetch = _ from frame.sameTables.physical]
      exact translated.physical

/-- A store leaves its address and its operand in the record. -/
theorem Passes.prepares (passes : m.Passes P arch a vaddr paddr d) {width : Width}
    {operand : ArchState → Word} (store : m.stores = some (width, operand)) :
    d.1.memory = a.memory ∧ d.2.type = .store ∧ d.2.dst1.data = operand a.state ∧
      d.1.physical P (m.address d.1.state) .sfetch = some d.2.dst2.data := by
  obtain ⟨i, done, -, ran⟩ := passes.ran
  have silent := passes.silent
  obtain ⟨e, info⟩ := d
  obtain ⟨ctx, arch, prepared⟩ : ∃ ctx : Ctx δ, ctx.arch = (bodyCtx a vaddr paddr i).arch ∧
      ∃ c, st P width ctx (m.address ctx.arch.state) = .ok c ∧
        (⟨e, info⟩ : Ctx δ) = (c.setData1 (operand a.state)).setType .store := by
    rcases body_of_stores store with ⟨data, body, rfl⟩ | body
    · rw [body] at ran
      simp only [Body.exec, bind_eq_ok] at ran
      obtain ⟨c, prepared, result⟩ := ran
      cases result
      exact ⟨(bodyCtx a vaddr paddr i).setExcData (m.address a.state), rfl, c, prepared, rfl⟩
    · rw [body] at ran
      simp only [Body.exec, bind_eq_ok] at ran
      obtain ⟨c, prepared, result⟩ := ran
      cases result
      exact ⟨bodyCtx a vaddr paddr i, rfl, c, prepared, rfl⟩
  obtain ⟨c, prepared, result⟩ := prepared
  cases result
  cases st_outcome P width _ _ _ prepared with
  | misaligned skew => exact absurd silent (by decide : excSAM ≠ excNone)
  | fault aligned translated => exact absurd silent (by decide : excSPF ≠ excNone)
  | prepared aligned translated =>
      refine ⟨?_, rfl, rfl, translated.physical⟩
      change ctx.arch.memory = a.memory
      rw [arch]
      rfl

end Passes

end MemInstr

/-! ### Runs of the guest -/

/-- An instruction of the guest, and the machine before it, after its fetch, after `decode` with
the record, and after `updateEnv`. -/
structure GuestStep (σ : Type) where
  instr : MemInstr
  vaddr : Word
  paddr : Word
  before : RiscvArch (Devices σ)
  fetched : RiscvArch (Devices σ)
  decoded : RiscvArch (Devices σ) × DecodeInfo
  after : RiscvArch (Devices σ)

/-- What an instruction moves to or from the CLINT: a load some bytes of the window, a store a
register or one half. -/
inductive ClintTransfer
  | load (ha : Word) (width : Width) (ext : Word → Word)
  | store (r : ClintReg) (p : RegPart) (data : Word)

/-- The memory after the access. -/
def ClintTransfer.memory (m : Word → Byte) : ClintTransfer → Word → Byte
  | .load _ _ _ => m
  | .store r p data => storeBytes m (r.offset + p.start) p.bytes data

/-- The condition: a load is one of eight bytes and starts where a register does, and a store
fits. -/
def ClintTransfer.Meets (B : Board σ) (m : Word → Byte) : ClintTransfer → Prop
  | .load ha width _ => width.bytes = 8 ∧ ∃ r : ClintReg, ha - B.clintBase = r.offset
  | .store r p data => Mmio.Clint.StoreFits m r data p

section Guest

variable (B : Board σ) (P : Platform (Devices σ))

/-- The instruction is decoded and committed, and makes the access. -/
inductive GuestStep.Makes (s : GuestStep σ) : ClintTransfer → Prop
  | load {width : Width} {ext : Word → Word} {ha pc : Word}
      (passes : s.instr.Passes P s.before s.fetched s.vaddr s.paddr s.decoded)
      (committed : s.decoded.1.updateEnv P s.decoded.2 = .ok (pc, s.after))
      (load : s.instr.loads = some (width, ext))
      (address : s.decoded.1.physical P (s.instr.address s.decoded.1.state) .lfetch = some ha)
      (window : clintClaims B ha = true) : s.Makes (.load ha width ext)
  | store {width : Width} {operand : ArchState → Word} {ha pc : Word} {r : ClintReg}
      {p : RegPart}
      (passes : s.instr.Passes P s.before s.fetched s.vaddr s.paddr s.decoded)
      (committed : s.decoded.1.updateEnv P s.decoded.2 = .ok (pc, s.after))
      (store : s.instr.stores = some (width, operand))
      (address : s.decoded.1.physical P (s.instr.address s.decoded.1.state) .sfetch = some ha)
      (window : clintClaims B ha = true) (place : ha - B.clintBase = r.offset + p.start)
      (bytes : width.bytes = p.bytes) : s.Makes (.store r p (operand s.fetched.state))

/-- Accesses one after the other, between which nothing moves the CLINT. -/
inductive ClintRun : Mmio.Clint → List (GuestStep σ × ClintTransfer) → Prop
  | done (c : Mmio.Clint) : ClintRun c []
  | access {s : GuestStep σ} {t : ClintTransfer} {rest : List (GuestStep σ × ClintTransfer)}
      (makes : s.Makes B P t) (next : ClintRun s.after.memory.dev.clint rest) :
      ClintRun s.before.memory.dev.clint ((s, t) :: rest)

/-- The law for one access.  A load defines its bytes, whatever the buffer held, and no others,
and has the register take them, those of the memory if it is to a register or a half.  After an
access the registers are as the memory is. -/
def GuestStep.Obeys (s : GuestStep σ) (m : Word → Byte) (t : ClintTransfer) : Prop :=
  (match t with
    | .load ha width ext => ∃ raw,
        (∀ buf, ∃ r, Memory.paddrRead P.map s.fetched.memory ha width.bytes buf = .ok r ∧
          r.value = raw ∧ r.stray = []) ∧
        s.decoded.2.dst0.data = ext (width.extend raw) ∧
        ∀ (r : ClintReg) (p : RegPart), ha - B.clintBase = r.offset + p.start →
          width.bytes = p.bytes → raw = loadBytes m (ha - B.clintBase) width.bytes
    | .store _ _ _ => True) ∧
  s.after.memory.dev.clint.Holds (t.memory m)

/-- Every access obeys the law of the memory that the ones before it left. -/
def Lawful : (Word → Byte) → List (GuestStep σ × ClintTransfer) → Prop
  | _, [] => True
  | m, (s, t) :: rest => s.Obeys B P m t ∧ Lawful (t.memory m) rest

/-- Every access meets its condition on that memory. -/
def Meets : (Word → Byte) → List (GuestStep σ × ClintTransfer) → Prop
  | _, [] => True
  | m, (_, t) :: rest => t.Meets B m ∧ Meets (t.memory m) rest

end Guest

section OneAccess

variable {B : Board σ} {size : Nat} {float : SoftFloat} {junk : Word}
variable {s : GuestStep σ} {t : ClintTransfer}

/-- The fetch of an instruction that passes leaves the CLINT as it was. -/
theorem Passes.clint
    (passes : s.instr.Passes (onBoard B size float junk) s.before s.fetched s.vaddr s.paddr
      s.decoded) : s.fetched.memory.dev.clint = s.before.memory.dev.clint := by
  obtain ⟨slot, ⟨i, fetched, -⟩, -⟩ := passes.decoded
  exact fetch_wired (readClosed_clint B size float junk s.before.memory.dev.clint)
    (show Wired _ s.before from rfl) s.paddr slot _ fetched

/-- What is read in the window: the bytes of the CLINT over the buffer, and past it. -/
theorem paddrRead_window (a : RiscvArch (Devices σ)) {ha : Word} (window : clintClaims B ha = true)
    (n : Nat) (buf : Word) :
    Memory.paddrRead (onBoard B size float junk).map a.memory ha n buf = .ok
      ⟨Memory.overlay n buf (a.memory.dev.clint.read (ha - B.clintBase)), true, a.memory, none,
        (a.memory.dev.clint.read (ha - B.clintBase)).drop n⟩ := by
  rw [Memory.paddrRead, deviceAt_clint window size float junk]
  rfl

/-- The record of a load stores nothing. -/
theorem updateStore_load {P : Platform (Devices σ)} {a : RiscvArch (Devices σ)} {info : DecodeInfo}
    (type : info.type = .load) : updateStore P a info = none := by
  rw [updateStore]
  split
  · cases (commitDsts a.state info).toOption with
    | none => rfl
    | some s => simp only [Option.bind_eq_bind, Option.bind_some, commitStore, type]
  · rfl

/-- The record of a store that is committed stores its operand at its address. -/
theorem updateStore_store {P : Platform (Devices σ)} {a : RiscvArch (Devices σ)}
    {info : DecodeInfo} (silent : info.exception = excNone) (type : info.type = .store)
    {r : Word × RiscvArch (Devices σ)} (committed : a.updateEnv P info = .ok r) :
    updateStore P a info = some (info.dst2.data, info.dst1.data) := by
  rw [updateEnv_commit P a silent] at committed
  simp only [commit, bind_eq_ok] at committed
  obtain ⟨s, wrote, -⟩ := committed
  rw [updateStore, if_pos silent, wrote]
  simp only [Except.toOption, Option.bind_eq_bind, Option.bind_some, commitStore, type]

/-- One access obeys the law exactly when it meets its condition. -/
theorem obeys_iff (makes : s.Makes B (onBoard B size float junk) t) {m : Word → Byte}
    (held : s.before.memory.dev.clint.Holds m) :
    s.Obeys B (onBoard B size float junk) m t ↔ t.Meets B m := by
  cases makes with
  | @load width ext ha pc passes committed load address window =>
      obtain ⟨type, ha', address', b, memory, raw, plain, read, data⟩ := passes.reads load
      obtain rfl : ha = ha' := Option.some.inj (address.symm.trans address')
      have clint := Passes.clint passes
      rw [← clint] at held
      -- the read leaves the machine, and `updateEnv` stores nothing
      rw [RiscvArch.paddrRead, paddrRead_window b window, memory] at read
      have value := congrArg Prod.fst (Except.ok.inj read)
      have left := congrArg (fun r => r.2.2.memory.dev.clint) (Except.ok.inj read)
      dsimp only at value left
      have after : s.after.memory.dev.clint = s.fetched.memory.dev.clint := by
        rw [updateEnv_clint B size float junk _ _ _ committed, updateStore_load type]
        exact left.symm
      have reads (buf : Word) : ∃ r, Memory.paddrRead (onBoard B size float junk).map
          s.fetched.memory ha width.bytes buf = .ok r ∧
          r.value = Memory.overlay width.bytes buf
            (s.fetched.memory.dev.clint.read (ha - B.clintBase)) ∧
          r.stray = (s.fetched.memory.dev.clint.read (ha - B.clintBase)).drop width.bytes :=
        ⟨_, paddrRead_window s.fetched window width.bytes buf, rfl, rfl⟩
      rw [GuestStep.Obeys, after]
      refine (and_iff_left held).trans ?_
      rw [ClintTransfer.Meets, ← Mmio.Clint.read_fits_iff s.fetched.memory.dev.clint _
        width.bytes_pos width.bytes_le]
      -- Both say that no byte is left to the buffer, for every content of it.
      constructor
      · rintro ⟨raw', defined, -⟩
        refine ⟨?_, raw', fun buf => ?_⟩
        · obtain ⟨r, ran, -, none⟩ := defined 0
          obtain ⟨r', ran', -, rest⟩ := reads 0
          rw [ran, Except.ok.injEq] at ran'
          rw [← rest, ← ran', none]
        · obtain ⟨r, ran, same, -⟩ := defined buf
          obtain ⟨r', ran', same', -⟩ := reads buf
          rw [ran, Except.ok.injEq] at ran'
          rw [← same, ran', same']
      · rintro ⟨fits, raw', defined⟩
        refine ⟨raw', fun buf => ?_, ?_, fun r p place bytes => ?_⟩
        · obtain ⟨r, ran, same, rest⟩ := reads buf
          exact ⟨r, ran, same.trans (defined buf), rest.trans fits⟩
        · rw [data, ← value, defined]
        · -- it starts with a register, so what it reads is there
          obtain ⟨-, r', start⟩ := (Mmio.Clint.read_fits_iff _ _ width.bytes_pos width.bytes_le).1
            ⟨fits, raw', defined⟩
          rw [← defined 0, start]
          exact held.overlay_read r' width.bytes_le 0
  | @store width operand ha pc r p passes committed store address window place bytes =>
      obtain ⟨memory, type, data, address'⟩ := passes.prepares store
      obtain rfl : ha = _ := Option.some.inj (address.symm.trans address')
      have clint := Passes.clint passes
      have after : s.after.memory.dev.clint =
          (s.before.memory.dev.clint.write (r.offset + p.start) (operand s.fetched.state)).1 := by
        rw [updateEnv_clint B size float junk _ _ _ committed,
          updateStore_store passes.silent type committed, clintAfter, if_pos window, place, data,
          memory, clint]
      rw [GuestStep.Obeys, after]
      exact (and_iff_right trivial).trans (held.write_iff r p _)

/-- Then the registers are as the memory is. -/
theorem GuestStep.Obeys.held {P : Platform (Devices σ)} {m : Word → Byte}
    (obeys : s.Obeys B P m t) : s.after.memory.dev.clint.Holds (t.memory m) := obeys.2

end OneAccess

/-- A run obeys the law of a byte memory exactly when its accesses meet their conditions, where
the memory starts with what the registers hold: a load is of eight bytes and starts where a
register does, since `Clint::read` stores eight whatever the buffer, and a store keeps all of its
operand and, if it is to a half, finds the upper half as it leaves it. In that memory two stores
to the halves of a register are one store to all of it. -/
theorem clintBytes_iff {B : Board σ} (size : Nat) (float : SoftFloat) (junk : Word) {c : Mmio.Clint}
    {run : List (GuestStep σ × ClintTransfer)} (runs : ClintRun B (onBoard B size float junk) c run)
    {m : Word → Byte} (held : c.Holds m) :
    (Lawful B (onBoard B size float junk) m run ↔ Meets B m run) ∧
      ∀ (m' : Word → Byte) (r : ClintReg) (low high : Word),
        (ClintTransfer.store r .high high).memory ((ClintTransfer.store r .low low).memory m') =
          (ClintTransfer.store r .whole (high.setWidth 32 ++ low.setWidth 32)).memory m' := by
  constructor
  · induction runs generalizing m with
    | done => exact Iff.rfl
    | @access s t rest makes next ih =>
        rw [Lawful, Meets]
        constructor
        · rintro ⟨obeys, later⟩
          exact ⟨(obeys_iff makes held).1 obeys, (ih obeys.held).1 later⟩
        · rintro ⟨meets, later⟩
          have obeys := (obeys_iff makes held).2 meets
          exact ⟨obeys, (ih obeys.held).2 later⟩
  · intro m' r low high
    have low' : r.offset + RegPart.start .low = r.offset := BitVec.add_zero _
    have whole : r.offset + RegPart.start .whole = r.offset := BitVec.add_zero _
    simp only [ClintTransfer.memory, low', whole]
    exact storeBytes_halves m' r.offset low high

/-! ### Examples -/

/-- The step of an instruction at an untranslated pc, if it is the one there and raises
nothing. -/
def GuestStep.execute (P : Platform (Devices σ)) (a : RiscvArch (Devices σ)) (instr : MemInstr)
    (pc : Word) : Option (GuestStep σ) := do
  let (rvc, fetched, i) ← (a.fetch P pc .zero).toOption
  let d ← (a.decode P pc pc .zero).toOption
  let r ← (d.1.updateEnv P d.2).toOption
  if rvc = instr.rvc ∧ i.inst = instr.word ∧ d.2.exception = excNone then
    some ⟨instr, pc, pc, a, fetched, d, r.2⟩
  else none

/-- What a step that has been executed says of its parts. -/
theorem GuestStep.execute_some {P : Platform (Devices σ)} {a : RiscvArch (Devices σ)}
    {instr : MemInstr} {pc : Word} {s : GuestStep σ} (ran : execute P a instr pc = some s) :
    s.before = a ∧ s.instr = instr ∧
      s.instr.Passes P s.before s.fetched s.vaddr s.paddr s.decoded ∧
      ∃ next, s.decoded.1.updateEnv P s.decoded.2 = .ok (next, s.after) := by
  have ok {α : Type} {e : Except Abort α} {x : α} (some : e.toOption = some x) : e = .ok x := by
    cases e <;> cases some
    rfl
  simp only [execute, Option.bind_eq_bind, Option.bind_eq_some_iff] at ran
  obtain ⟨⟨rvc, fetched, i⟩, fetch, d, decoded, r, committed, ran⟩ := ran
  split at ran
  · rename_i fits
    obtain ⟨rfl, word, silent⟩ := fits
    cases ran
    exact ⟨rfl, rfl, ⟨⟨.zero, ⟨i, ok fetch, word⟩, ok decoded⟩, silent⟩, r.1, ok committed⟩
  · cases ran

/-- A board with nothing but a CLINT. -/
def clintBoard : Board Unit := ⟨0x2000000, [], []⟩

def clintPlatform : Platform (Devices Unit) := onBoard clintBoard 4096 ⟨fun _ _ _ _ => none⟩ 0

/-- A machine at a word, with the address of `mtimecmp`, whose bits are all set, in `ra`. -/
def atMtimecmp (word : BitVec 32) : RiscvArch (Devices Unit) :=
  let a := RiscvArch.reset archCfg ⟨(imageOf [word]).ram, .init, ⟨0, 0, -1, false⟩, ()⟩
  { a with state := a.state.set (.gpr 1) 0x2004000 }

/-- What its CLINT holds. -/
def mtimecmpSet (o : Word) : Byte := if 0x4000 ≤ o ∧ o < 0x4008 then 0xff else 0

/-- The state of the example holds its bytes. -/
theorem mtimecmpSet_held : Mmio.Clint.Holds ⟨0, 0, -1, false⟩ mtimecmpSet := by
  intro r
  cases r <;> decide

/-- A store to `mtimecmp` is a run of one access. -/
theorem atMtimecmp_run {word : BitVec 32} {instr : MemInstr} {width : Width}
    {operand : ArchState → Word} {s : GuestStep Unit}
    (ran : GuestStep.execute clintPlatform (atMtimecmp word) instr 0x80000000 = some s)
    (store : instr.stores = some (width, operand)) (place : s.decoded.2.dst2.data = 0x2004000)
    {p : RegPart} (start : p.start = 0) (bytes : width.bytes = p.bytes) :
    ClintRun clintBoard clintPlatform ⟨0, 0, -1, false⟩
      [(s, .store .mtimecmp p s.decoded.2.dst1.data)] := by
  obtain ⟨before, rfl, passes, pc, committed⟩ := GuestStep.execute_some ran
  obtain ⟨-, -, data, address⟩ := passes.prepares store
  rw [place] at address
  rw [data, show (⟨0, 0, -1, false⟩ : Mmio.Clint) = s.before.memory.dev.clint by rw [before]; rfl]
  exact .access (.store passes committed store address (by decide) (by rw [start]; rfl) bytes)
    (.done _)

/-- `sw zero, 0(ra)` clears the upper half of `mtimecmp`. -/
theorem not_clintBytes :
    ∃ s, ClintRun clintBoard clintPlatform ⟨0, 0, -1, false⟩
        [(s, .store .mtimecmp .low s.decoded.2.dst1.data)] ∧
      s.after.memory.dev.clint.mtimecmp = 0 ∧
      ¬ Lawful clintBoard clintPlatform mtimecmpSet
        [(s, .store .mtimecmp .low s.decoded.2.dst1.data)] := by
  obtain ⟨s, ran, seen⟩ := Option.map_eq_some_iff.1
    (show (GuestStep.execute clintPlatform (atMtimecmp 0x0000a023) (.store .w 0 1 0)
        0x80000000).map (fun s => (s.decoded.2.dst2.data, s.after.memory.dev.clint.mtimecmp)) =
      some (0x2004000, 0) by decide +kernel)
  simp only [Prod.mk.injEq] at seen
  refine ⟨s, atMtimecmp_run ran rfl seen.1 rfl rfl, seen.2, ?_⟩
  rintro ⟨⟨-, held⟩, -⟩
  -- byte 4 of the register was not stored to
  have byte := held .mtimecmp 4 (by decide)
  rw [ClintReg.get, seen.2, ClintTransfer.memory, storeBytes_outside (by decide)] at byte
  revert byte
  decide

/-- `sd zero, 0(ra)` stores all of it. -/
theorem clintBytes_iff_wholeStore :
    ∃ s, ClintRun clintBoard clintPlatform ⟨0, 0, -1, false⟩
        [(s, .store .mtimecmp .whole s.decoded.2.dst1.data)] ∧
      Lawful clintBoard clintPlatform mtimecmpSet
        [(s, .store .mtimecmp .whole s.decoded.2.dst1.data)] := by
  obtain ⟨s, ran, place⟩ := Option.map_eq_some_iff.1
    (show (GuestStep.execute clintPlatform (atMtimecmp 0x0000b023) (.store .d 0 1 0)
        0x80000000).map (fun s => s.decoded.2.dst2.data) = some 0x2004000 by decide +kernel)
  have run := atMtimecmp_run ran rfl place (p := .whole) rfl rfl
  exact ⟨s, run, (clintBytes_iff 4096 _ 0 run mtimecmpSet_held).1.2 ⟨rfl, trivial⟩⟩

end CPUDelaySim.Riscv
