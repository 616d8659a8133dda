import CPUDelaySim.Riscv.MemAccess
import CPUDelaySim.Riscv.MemInstr

/-!
# Read-modify-write instructions

An AMO body loads, then calls the store that only checks and translates, and `updateEnv`
writes what the record holds.  Both checks leave their code in one field, so the store has
the last word: it faults wherever the load does, because a page that is writable is readable.

What remains is the walk itself, which reads its entries wherever the tables point.

`AmoOutcome` lists the ends of the body, each with the record it leaves, and the law is then one
case for each.  `Accessible` asks that a load and a store would be sent to one address: a page that
can be read and not written has to fault as a store.
-/

namespace CPUDelaySim.Riscv

variable {δ : Type}

open RiscvArch

/-! ### The operations -/

/-- The width of the access. -/
def WordSize.width : WordSize → Width
  | w => .w
  | d => .d

/-- The operation on the old word and the source. -/
def AmoOp.result {n : Nat} (op : AmoOp) (old src : BitVec n) : BitVec n :=
  match op with
  | add => old + src
  | swap => src
  | xor => old ^^^ src
  | or => old ||| src
  | and => old &&& src
  | min => if src.slt old then src else old
  | max => if old.slt src then src else old
  | minu => if src.ult old then src else old
  | maxu => if old.ult src then src else old

/-- What it leaves in memory, computed at the width of the access. -/
def AmoOp.written (op : AmoOp) (size : WordSize) (old src : Word) : Word :=
  match size with
  | .w => (op.result (old.setWidth 32) (src.setWidth 32)).setWidth 64
  | .d => op.result old src

/-- A word that has been extended is read back. -/
theorem setWidth_signExtend (v : BitVec 32) : (v.signExtend 64).setWidth 32 = v := by
  apply BitVec.eq_of_getLsbD_eq
  intro i bound
  rw [BitVec.getLsbD_setWidth, BitVec.getLsbD_signExtend]
  simp [bound, show i < 64 by omega]

/-- Extended by their signs, words compare as signed numbers. -/
theorem slt_signExtend (v u : BitVec 32) : (v.signExtend 64).slt (u.signExtend 64) = v.slt u := by
  simp [BitVec.slt, BitVec.toInt_signExtend_of_le]

/-- Extended by zeros, words compare as unsigned numbers. -/
theorem ult_setWidth (v u : BitVec 32) : (v.setWidth 64).ult (u.setWidth 64) = v.ult u := by
  have small (x : BitVec 32) : x.toNat % 2 ^ 64 = x.toNat := Nat.mod_eq_of_lt (by omega)
  simp only [BitVec.ult, BitVec.toNat_setWidth, small]

namespace MemInstr

/-- The body of an AMO computes the operation, whatever `int` types it goes through. -/
theorem body_amo (op : AmoOp) (size : WordSize) (aqrl : BitVec 2) (rd rs1 rs2 : BitVec 5) :
    ∃ f : Word → Word → Word,
      (amo op size aqrl rd rs1 rs2).body =
        .amo rd (fun s => s.gpr rs1) size.width (fun s => s.gpr rs2) f ∧
      ∀ old src, size.width.truncate (f (size.width.extend old) src) = op.written size old src := by
  cases size with
  | d => cases op <;> exact ⟨_, rfl, fun _ _ => rfl⟩
  | w =>
      -- The 32-bit results are those of the operands cut to 32 bits.
      have cut (old : Word) : (Width.w.extend old).setWidth 32 = old.setWidth 32 :=
        setWidth_signExtend _
      cases op with
      | swap => exact ⟨_, rfl, fun _ _ => rfl⟩
      | add =>
          refine ⟨_, rfl, fun old src => congrArg (BitVec.setWidth 64) ?_⟩
          rw [BitVec.setWidth_add _ _ (by omega), WordSize.width, cut]
          rfl
      | xor | or | and =>
          refine ⟨_, rfl, fun old src => congrArg (BitVec.setWidth 64) ?_⟩
          simp only [BitVec.setWidth_xor, BitVec.setWidth_or, BitVec.setWidth_and,
            WordSize.width, cut]
          rfl
      | min | max =>
          refine ⟨_, rfl, fun old src => congrArg (BitVec.setWidth 64) ?_⟩
          simp only [sext32, WordSize.width, cut, slt_signExtend, apply_ite (BitVec.setWidth 32)]
          rfl
      | minu | maxu =>
          refine ⟨_, rfl, fun old src => congrArg (BitVec.setWidth 64) ?_⟩
          simp only [lo32, WordSize.width, cut, ult_setWidth, apply_ite (BitVec.setWidth 32)]
          rfl

end MemInstr

/-! ### The body -/

/-- The bytes of an access. -/
def RiscvArch.wordAt (a : RiscvArch δ) (ha : Word) (width : Width) : Word :=
  Memory.load a.memory.ram (Memory.ramIndex ha) width.bytes

section Body

variable {P : Platform δ} {width : Width} {va : Word}

/-- The access at `va` is aligned, and goes to one address for loads and for stores. -/
structure Accessible (P : Platform δ) (width : Width) (a : RiscvArch δ) (va ha : Word) : Prop where
  aligned : width.misaligned va = false
  readable : a.physical P va .lfetch = some ha
  writable : a.physical P va .sfetch = some ha

/-- Where the pc is does not matter to an access. -/
theorem accessible_at {width : Width} {a : RiscvArch δ} {vaddr paddr ha : Word} :
    Accessible P width (a.at vaddr paddr) va ha ↔ Accessible P width a va ha :=
  ⟨fun access => ⟨access.aligned, access.readable, access.writable⟩,
    fun access => ⟨access.aligned, access.readable, access.writable⟩⟩

/-- The code that a store leaves at an address it cannot access. -/
def storeFault (width : Width) (va : Word) : Word :=
  if width.misaligned va then excSAM else excSPF

/-- The record of an AMO. -/
def amoRecord (rd : BitVec 5) (width : Width) (va ha old new : Word) (ctx : Ctx δ) : Ctx δ :=
  ((((((ctx.setExcData va).setWidth2 width.bytes).setWidth2 width.bytes).setData2
    ha).setData1 (width.truncate new)).setDst0 (.gpr rd) old).setType .amo

/-- How the body of an AMO ends. -/
inductive AmoOutcome (P : Platform δ) (rd : BitVec 5) (width : Width) (f : Word → Word → Word)
    (va src : Word) (ctx : Ctx δ) : Ctx δ → Prop
  | refused {c : Ctx δ} (blocked : ∀ ha, ¬ Accessible P width ctx.arch va ha)
      (frame : ReadFrame ctx.arch c.arch) (code : c.info.exception = storeFault width va) :
      AmoOutcome P rd width f va src ctx c
  | done {ha old : Word} (access : Accessible P width ctx.arch va ha)
      (loaded : old = width.extend (ctx.arch.wordAt ha width)) :
      AmoOutcome P rd width f va src ctx (amoRecord rd width va ha old (f old src) ctx)

/-- An atomic operation moves what its reads move, in `decode`. -/
theorem AmoOutcome.frame {rd : BitVec 5} {f : Word → Word → Word} {src : Word} {ctx c : Ctx δ}
    (outcome : AmoOutcome P rd width f va src ctx c) : ReadFrame ctx.arch c.arch := by
  cases outcome with
  | refused blocked frame code => exact frame
  | done access loaded => exact .refl _

/-- A body that can walk to its address, and finds RAM there, is done or refused. -/
theorem exec_amo_outcome (rd : BitVec 5) (addr data : ArchState → Word) (f : Word → Word → Word)
    (ctx : Ctx δ) (at_va : addr ctx.arch.state = va)
    (walkable : width.misaligned va = false → Walkable P ctx.arch va)
    (ram : width.misaligned va = false → ∀ ha, ctx.arch.physical P va .lfetch = some ha →
      RamAddress P ha width.bytes) :
    ∃ r, (Body.amo rd addr width data f).exec P ctx = .ok r ∧
      AmoOutcome P rd width f va (data ctx.arch.state) ctx r.2 := by
  simp only [Body.exec, at_va]
  cases skew : width.misaligned va with
  | true =>
      have blocked (ha : Word) : ¬ Accessible P width ctx.arch va ha := by
        intro access
        rw [access.aligned] at skew
        cases skew
      -- Both accesses find the address misaligned, and the store's code is the one that stays.
      have loaded : ld P width (ctx.setExcData va) va = .ok _ := ld_misaligned skew
      have stored : st P width ((ctx.setExcData va).raise excLAM) va = .ok _ := st_misaligned skew
      simp only [loaded, stored, bind, Except.bind]
      exact ⟨_, rfl, .refused blocked (.refl _) (by rw [storeFault, skew]; rfl)⟩
  | false =>
      have fault : excSPF = storeFault width va := by
        rw [storeFault, skew]
        rfl
      rcases translate_cases (walkable skew) (by decide : FetchType.lfetch ≠ .ifetch) with
        ⟨ha, readable, translated⟩ | ⟨unreadable, ha, b, frame, faults⟩
      · have loaded : ld P width (ctx.setExcData va) va = .ok _ :=
          ld_of_ram skew translated (ram skew ha readable)
        rcases translate_cases (walkable skew) (by decide : FetchType.sfetch ≠ .ifetch) with
          ⟨ha', writable, translated'⟩ | ⟨unwritable, ha', b, frame, faults⟩
        · obtain rfl : ha = ha' :=
            Option.some.inj (readable.symm.trans (physical_lfetch writable))
          have stored : st P width ((ctx.setExcData va).setWidth2 width.bytes) va = .ok _ :=
            st_of_translates skew translated'
          simp only [loaded, stored, bind, Except.bind]
          exact ⟨_, rfl, .done ⟨skew, readable, writable⟩ rfl⟩
        · have stored : st P width ((ctx.setExcData va).setWidth2 width.bytes) va = .ok _ :=
            st_of_fault skew faults
          simp only [loaded, stored, bind, Except.bind]
          refine ⟨_, rfl, .refused (fun ha access => ?_) frame fault⟩
          cases unwritable.symm.trans access.writable
      · -- What cannot be loaded cannot be stored either, and the store is asked last.
        have loaded : ld P width (ctx.setExcData va) va = .ok _ := ld_of_fault skew faults
        have unwritable : b.physical P va .sfetch = none := by
          rw [frame.sameTables.physical]
          cases writable : ctx.arch.physical P va .sfetch with
          | none => rfl
          | some ha => cases unreadable.symm.trans (physical_lfetch writable)
        have walkable' : Walkable P b va := frame.sameTables.walkable.2 (walkable skew)
        rcases translate_cases walkable' (by decide : FetchType.sfetch ≠ .ifetch) with
          ⟨ha', writable, -⟩ | ⟨-, ha', c, rest, faults'⟩
        · cases unwritable.symm.trans writable
        · have stored : st P width
              (({ ctx.setExcData va with arch := b } : Ctx δ).raise excLPF) va = .ok _ :=
            st_of_fault skew faults'
          simp only [loaded, stored, bind, Except.bind]
          refine ⟨_, rfl, .refused (fun ha access => ?_) (frame.trans rest) fault⟩
          cases unreadable.symm.trans access.readable

end Body

/-! ### From `decode` to `updateEnv` -/

/-- Neither a register nor a byte of RAM changed. -/
structure Untouched (a b : RiscvArch δ) : Prop where
  gpr : ∀ i, b.state.get (.gpr i) = a.state.get (.gpr i)
  fpr : ∀ i, b.state.get (.fpr i) = a.state.get (.fpr i)
  ram : b.memory.ram = a.memory.ram

/-- A trap writes its own registers only. -/
theorem untouched_trap {a b : RiscvArch δ} {vaddr paddr : Word}
    (frame : ReadFrame (a.at vaddr paddr) b) (info : DecodeInfo) (tval : Word) :
    Untouched a (b.trap info tval).2 := by
  refine ⟨fun i => ?_, fun i => ?_, ?_⟩
  · rw [trap_get _ _ _ (by simp [trapWords])]
    exact frame.get (by simp)
  · rw [trap_get _ _ _ (by simp [trapWords])]
    exact frame.get (by simp)
  · rw [trap_memory]
    exact frame.exec.ram

/-- An interrupt is a trap with no address. -/
theorem updateEnv_irq (P : Platform δ) (a : RiscvArch δ) {info : DecodeInfo}
    (irq : info.exception.msb = true) : a.updateEnv P info = .ok (a.trap info 0) := by
  rw [updateEnv, isIrq, if_pos irq]

namespace MemInstr

/-- `decode` of a memory instruction, once its body has run. -/
theorem decode_of_exec {P : Platform δ} {m : MemInstr} {arch a : RiscvArch δ}
    {vaddr paddr : Word} {slot i : DecodeInfo}
    (fetched : arch.fetch P paddr slot = .ok (m.rvc, a, i))
    (word : i.inst = m.word) {r : Bool × Ctx δ}
    (ran : m.body.exec P (bodyCtx a vaddr paddr i) = .ok r) :
    arch.decode P vaddr paddr slot = .ok (r.2.arch, report r.2) := by
  rw [decode_eq, fetched]
  change ((selected i.inst m.rvc).exec P (bodyCtx a vaddr paddr i) >>= _) = _
  rw [word, m.selected_eq, ran]
  rfl

/-- What `decode` has returned comes from the body of the instruction. -/
theorem exec_of_decode {P : Platform δ} {m : MemInstr} {arch a : RiscvArch δ}
    {vaddr paddr : Word} {slot i : DecodeInfo}
    (fetched : arch.fetch P paddr slot = .ok (m.rvc, a, i))
    (word : i.inst = m.word) {d : RiscvArch δ × DecodeInfo}
    (decoded : arch.decode P vaddr paddr slot = .ok d) :
    ∃ r, m.body.exec P (bodyCtx a vaddr paddr i) = .ok r ∧ d = (r.2.arch, report r.2) := by
  rw [decode_eq, fetched] at decoded
  change ((selected i.inst m.rvc).exec P (bodyCtx a vaddr paddr i) >>= _) = _ at decoded
  rw [word, m.selected_eq, bind_eq_ok] at decoded
  obtain ⟨r, ran, result⟩ := decoded
  cases result
  exact ⟨r, ran, rfl⟩

/-- The bytes at `ha` are replaced by the result of the operation on them. -/
structure ReadModifyWrite (op : AmoOp) (size : WordSize) (rd rs2 : BitVec 5) (a : RiscvArch δ)
    (vaddr ha : Word) (r : Word × RiscvArch δ) : Prop where
  next : r.1 = vaddr + 4
  state : r.2.state =
    (a.state.set (.gpr rd) (size.width.extend (a.wordAt ha size.width))).set (.gpr 0) 0
  memory : WritesBytes a r.2 ha size.width.bytes
    (op.written size (a.wordAt ha size.width) (a.state.gpr rs2))

/-- What becomes of an AMO that was fetched, leaving `a`, and decoded into `d`. -/
structure AmoLaw (P : Platform δ) (op : AmoOp) (size : WordSize) (rd rs1 rs2 : BitVec 5)
    (a : RiscvArch δ) (vaddr : Word) (d : RiscvArch δ × DecodeInfo) (r : Word × RiscvArch δ) :
    Prop where
  /-- Without an exception it is done, at an address that may be read and written. -/
  done : d.2.exception = excNone → ∃ ha, Accessible P size.width a (a.state.gpr rs1) ha ∧
    ReadModifyWrite op size rd rs2 a vaddr ha r
  /-- It raises no other exception than a store's, and only where it cannot be done. -/
  refused : irqException d.1.state = none → d.2.exception ≠ excNone →
    d.2.exception = storeFault size.width (a.state.gpr rs1) ∧
      ∀ ha, ¬ Accessible P size.width a (a.state.gpr rs1) ha
  /-- A trap, an interrupt's as well, leaves registers and RAM alone. -/
  trapped : d.2.exception ≠ excNone → Untouched a r.2

/-- `decode` and `updateEnv` return, and do so. -/
def MeetsAmo (P : Platform δ) (op : AmoOp) (size : WordSize) (rd rs1 rs2 : BitVec 5)
    (arch a : RiscvArch δ) (vaddr paddr : Word) (slot : DecodeInfo) : Prop :=
  ∃ d r, arch.decode P vaddr paddr slot = .ok d ∧ d.1.updateEnv P d.2 = .ok r ∧
    AmoLaw P op size rd rs1 rs2 a vaddr d r

section AmoLaw

variable {P : Platform δ} {op : AmoOp} {size : WordSize} {rd rs1 rs2 : BitVec 5}
variable {a : RiscvArch δ} {vaddr paddr : Word} {i : DecodeInfo} {c : Ctx δ}

/-- An interrupt is taken in place of the instruction. -/
theorem amoLaw_of_irq {irq : Word} (pending : irqException c.arch.state = some irq)
    (frame : ReadFrame (a.at vaddr paddr) c.arch) :
    ∃ r, c.arch.updateEnv P (report c) = .ok r ∧
      AmoLaw P op size rd rs1 rs2 a vaddr (c.arch, report c) r := by
  have top := irqException_msb pending
  have reported : (report c).exception = irq := by
    rw [report_exception, pending]
    rfl
  refine ⟨_, updateEnv_irq P c.arch (by rw [reported, top]), ?_, ?_, ?_⟩
  · intro silent
    rw [← reported, show (report c).exception = excNone from silent] at top
    cases top
  · intro none
    cases pending.symm.trans none
  · exact fun _ => untouched_trap frame _ _

/-- A refused AMO traps with its own fault. -/
theorem amoLaw_of_refused (calm : irqException c.arch.state = none)
    (blocked : ∀ ha, ¬ Accessible P size.width a (a.state.gpr rs1) ha)
    (frame : ReadFrame (a.at vaddr paddr) c.arch)
    (code : c.info.exception = storeFault size.width (a.state.gpr rs1)) :
    ∃ r, c.arch.updateEnv P (report c) = .ok r ∧
      AmoLaw P op size rd rs1 rs2 a vaddr (c.arch, report c) r := by
  have reported : (report c).exception = storeFault size.width (a.state.gpr rs1) := by
    rw [report_exception, calm]
    exact code
  have fault : (report c).exception ∈ faultCodes := by
    rw [reported, storeFault]
    split <;> decide
  refine ⟨_, updateEnv_fault P c.arch fault, ?_, ?_, ?_⟩
  · intro silent
    rw [show (report c).exception = excNone from silent] at fault
    exact absurd fault (by decide)
  · exact fun _ _ => ⟨reported, blocked⟩
  · exact fun _ => untouched_trap frame _ _

/-- A done AMO commits its record. -/
theorem amoLaw_of_done {ha old : Word} {f : Word → Word → Word}
    (calm : irqException c.arch.state = none) (length : i.instSize.setWidth 64 = 4)
    (written : ∀ old src, size.width.truncate (f (size.width.extend old) src) =
      op.written size old src)
    (ram : RamAddress P ha size.width.bytes)
    (access : Accessible P size.width a (a.state.gpr rs1) ha)
    (loaded : old = size.width.extend (a.wordAt ha size.width))
    (record : c = amoRecord rd size.width (a.state.gpr rs1) ha old (f old (a.state.gpr rs2))
      (bodyCtx a vaddr paddr i)) :
    ∃ r, c.arch.updateEnv P (report c) = .ok r ∧
      AmoLaw P op size rd rs1 rs2 a vaddr (c.arch, report c) r := by
  have fresh := fresh_cleared i
  have quiet : report c = c.info := by rw [report, calm]
  rw [quiet]
  subst record
  have silent : (amoRecord rd size.width (a.state.gpr rs1) ha old (f old (a.state.gpr rs2))
    (bodyCtx a vaddr paddr i)).info.exception = excNone := rfl
  refine ⟨_, updateEnv_write_ram silent (.inr rfl)
    (commitDsts_full rfl fresh.mask1 fresh.mask2) rfl ram, ?_, ?_, ?_⟩
  · refine fun _ => ⟨ha, access, ?_, ?_, ?_⟩
    · exact congrArg (fun n => vaddr + n) length
    · rw [committed_state, loaded]
      rfl
    · rw [← written, ← loaded]
      exact writesBytes_of_committed (show _ =
        (a.at vaddr paddr).committed (a.state.set (.gpr rd) old) _ from rfl)
  · exact fun _ loud => absurd silent loud
  · exact fun loud => absurd silent loud

end AmoLaw

/-- An AMO in RAM meets its specification exactly when its address can be walked, or is
misaligned. Any of the eighteen operations reads its place, writes the result back to the same
place, and returns what it has read, extended to the register; the failing inputs are tables
outside RAM. -/
theorem meetsAmo_iff (P : Platform δ) (op : AmoOp) (size : WordSize) (aqrl : BitVec 2)
    (rd rs1 rs2 : BitVec 5) {arch a : RiscvArch δ} {vaddr paddr : Word} {slot : DecodeInfo}
    (fetches : Fetches P arch paddr slot false (amo op size aqrl rd rs1 rs2).word a)
    (ram : size.width.misaligned (a.state.gpr rs1) = false →
      ∀ ha, a.physical P (a.state.gpr rs1) .lfetch = some ha →
        RamAddress P ha size.width.bytes) :
    MeetsAmo P op size rd rs1 rs2 arch a vaddr paddr slot ↔
      size.width.misaligned (a.state.gpr rs1) = true ∨ Walkable P a (a.state.gpr rs1) := by
  obtain ⟨f, body, written⟩ := body_amo op size aqrl rd rs1 rs2
  obtain ⟨i, fetched, word⟩ := fetches
  constructor
  · -- If the instruction is decoded at all, the walk has read its entries.
    rintro ⟨d, r, decoded, -, -⟩
    obtain ⟨r, ran, -⟩ := exec_of_decode (m := amo op size aqrl rd rs1 rs2) fetched word decoded
    rw [body] at ran
    simp only [Body.exec, bind_eq_ok] at ran
    obtain ⟨⟨old, c⟩, loaded, -⟩ := ran
    cases ld_outcome P size.width _ _ _ loaded with
    | misaligned skew => exact .inl skew
    | fault aligned faults =>
        refine .inr (show Walkable P (a.at vaddr paddr) _ from walkable_of_ok ?_ faults)
        decide
    | read aligned translated =>
        refine .inr (show Walkable P (a.at vaddr paddr) _ from walkable_of_ok ?_ translated)
        decide
  · intro walks
    have walkable (aligned : size.width.misaligned (a.state.gpr rs1) = false) :
        Walkable P a (a.state.gpr rs1) := by
      rcases walks with skew | walkable
      · rw [aligned] at skew
        cases skew
      · exact walkable
    obtain ⟨⟨done, c⟩, ran, outcome⟩ := exec_amo_outcome (P := P) rd (fun s => s.gpr rs1)
      (fun s => s.gpr rs2) f (bodyCtx a vaddr paddr i) rfl walkable ram
    rw [← body] at ran
    have decoded := decode_of_exec (m := amo op size aqrl rd rs1 rs2) fetched word ran
    have law : ∃ r, c.arch.updateEnv P (report c) = .ok r ∧
        AmoLaw P op size rd rs1 rs2 a vaddr (c.arch, report c) r := by
      -- An interrupt takes the place of the instruction, which is decoded again later.
      cases pending : irqException c.arch.state with
      | some irq => exact amoLaw_of_irq pending outcome.frame
      | none =>
          cases outcome with
          | refused blocked frame code =>
              exact amoLaw_of_refused pending
                (fun ha access => blocked ha (accessible_at.2 access)) frame code
          | @done ha old access loaded =>
              have ram : RamAddress P ha size.width.bytes := ram access.aligned ha access.readable
              exact amoLaw_of_done pending (instSize_eq fetched) written ram
                (accessible_at.1 access) loaded rfl
    obtain ⟨r, updated, law⟩ := law
    exact ⟨_, r, decoded, updated, law⟩

/-- `amoadd.w x2, x3, (x1)` in S-mode, with the address of RAM in `x1` and a root table
outside it. -/
def amoProgram (satp : Word) : RiscvArch Unit :=
  let arch := supervisor satp [(amo .add .w 0 2 1 3).word, 0, 0, 0, 0x200000cf, 0]
  { arch with state := arch.state.set (.gpr 1) 0x80000000 }

/-- With the root table in RAM the address is walked to the gigapage. -/
theorem meetsAmo_iff_gigapage :
    MeetsAmo (ramOnly 4096) .add .w 2 1 3 (amoProgram 0x8000000000080000)
        (amoProgram 0x8000000000080000) 0x80000000 0x80000000 .zero ↔
      WordSize.w.width.misaligned ((amoProgram 0x8000000000080000).state.gpr 1) = true ∨
        Walkable (ramOnly 4096) (amoProgram 0x8000000000080000)
          ((amoProgram 0x8000000000080000).state.gpr 1) :=
  meetsAmo_iff (ramOnly 4096) .add .w 0 2 1 3 ⟨_, rfl, by decide +kernel⟩ (by
    intro _ ha translated
    have address : (amoProgram 0x8000000000080000).physical (ramOnly 4096)
        ((amoProgram 0x8000000000080000).state.gpr 1) .lfetch = some 0x80000000 := by
      decide +kernel
    cases address.symm.trans translated
    exact ⟨rfl, by decide⟩)

/-- The root table at address zero is read past the end of RAM. -/
theorem not_meetsAmo_rootZero :
    ¬ MeetsAmo (ramOnly 4096) .add .w 2 1 3 (amoProgram 0x8000000000000000)
        (amoProgram 0x8000000000000000) 0x80000000 0x80000000 .zero := by
  rintro ⟨d, r, decoded, -, -⟩
  have aborts : ((amoProgram 0x8000000000000000).decode (ramOnly 4096) 0x80000000 0x80000000
      .zero).toOption.map (fun d => d.2.exception) = none := by decide +kernel
  rw [decoded] at aborts
  cases aborts

end MemInstr

end CPUDelaySim.Riscv
