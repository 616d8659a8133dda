import CPUDelaySim.Riscv.Atomics
import CPUDelaySim.Riscv.PcAlign

/-!
# The reservation of load-reserved and store-conditional

`LR` commits an address and a value to two words of `ArchState`, and `SC` compares with both.
The words do not say how wide the `LR` was, nor that there has been one: they are zero after
reset.  So the run is followed together with the last `LR` or `SC` that it committed, and what
is shown of an `SC` is what the two words and that history say together.

An `SC` that finds the address and the value without an `LR` of its width succeeds all the
same; every other one does what it should.

`Tracks` relates the two words to what was reserved last, and `Sound` is kept by every call, since
no other instruction commits to these words (`Body.Reserves`).  An `sc` in hand was decoded before
it commits, and other calls may lie between; `Held` says that nothing has moved since that it
looked at.

The condition `Stray` speaks of the machine before the step: an `sc` is about to be committed that
finds its address and value in the words, without an `lr` of its width.
-/

namespace CPUDelaySim.Riscv

variable {δ : Type}

open RiscvArch

/-! ### History -/

/-- What an `LR` reserved: its width, its address and the value it loaded. -/
structure Reservation where
  width : Width
  va : Word
  value : Word
  deriving DecidableEq, Repr

/-- The reservation after a record is committed. -/
def reserve (info : DecodeInfo) (reserved : Option Reservation) : Option Reservation :=
  match recordBody info with
  | .lr _ _ width => some ⟨width, info.excData, info.dst0.data⟩
  | .sc _ _ _ _ => none
  | _ => reserved

/-- A processor model with the reservation that the last committed `LR` or `SC` left. -/
structure Hart (δ : Type) extends Driver δ where
  reserved : Option Reservation

namespace Hart

/-- After a reset no load-reserved has been executed. -/
def reset (config : List (StateWord × Word)) (memory : Memory δ) : Hart δ :=
  ⟨Driver.reset config memory, none⟩

/-- The reservation after a call. -/
def reservedBy (h : Hart δ) : DriverCall δ → Option Reservation
  | .updateEnv =>
      match h.machine.info with
      | none => h.reserved
      | some info => if info.exception = excNone then reserve info h.reserved else h.reserved
  | _ => h.reserved

/-- A call, and the reservation after it. -/
def step (P : Platform δ) (h : Hart δ) (c : DriverCall δ) : Except Abort (Hart δ) := do
  let d ← h.toDriver.step P c
  return ⟨d, h.reservedBy c⟩

end Hart

/-- The record is that of a memory instruction. -/
def RecordOf (m : MemInstr) (info : DecodeInfo) : Prop :=
  info.inst = m.word ∧ info.instSize = if m.rvc then 2 else 4

/-- The record of a memory instruction says which body it comes from. -/
theorem RecordOf.body {m : MemInstr} {info : DecodeInfo} (record : RecordOf m info) :
    recordBody info = m.body := by
  obtain ⟨word, size⟩ := record
  have flag : (info.instSize == 2) = m.rvc := by
    rw [size]
    cases m.rvc <;> rfl
  rw [recordBody, word, flag, m.selected_eq]

/-- The body of a store-conditional. -/
theorem body_sc (size : WordSize) (aqrl : BitVec 2) (rd rs1 rs2 : BitVec 5) :
    (MemInstr.sc size aqrl rd rs1 rs2).body =
      .sc rd (fun s => s.gpr rs1) size.width (fun s => s.gpr rs2) := by
  cases size <;> rfl

/-! ### The law -/

/-- How an `SC` at `va` ends, from the machine `a` in the machine `b`. -/
inductive ScEnds (P : Platform δ) (width : Width) (rd : BitVec 5) (va src : Word)
    (reserved : Option Reservation) (a b : RiscvArch δ) : Prop
  /-- The last `LR` or `SC` was an `LR` of the width and the address, RAM holds what it loaded,
  and the bytes there become the source. -/
  | done {ha value : Word} (matching : reserved = some ⟨width, va, value⟩)
      (access : Accessible P width a va ha) (zero : b.state.get (.gpr rd) = 0)
      (stored : RamAddress P ha width.bytes →
        width.extend (a.wordAt ha width) = value ∧ WritesBytes a b ha width.bytes src)
  | failed (one : b.state.get (.gpr rd) = if rd = 0 then 0 else 1) (same : b.memory = a.memory)

/-- What an `SC` does, and that no `SC` can be aligned to what it leaves reserved. -/
structure ScLaw (P : Platform δ) (size : WordSize) (rd rs1 rs2 : BitVec 5)
    (reserved : Option Reservation) (a b : RiscvArch δ) : Prop where
  ends : ScEnds P size.width rd (a.state.gpr rs1) (a.state.gpr rs2) reserved a b
  gone : ∀ other : WordSize, other.width.misaligned (b.state.get .loadRes) = true

namespace Hart

/-- The next `updateEnv` does what an `SC` should, if it commits one. -/
def MeetsSc (P : Platform δ) (h : Hart δ) : Prop :=
  ∀ (info : DecodeInfo) (size : WordSize) (aqrl : BitVec 2) (rd rs1 rs2 : BitVec 5)
    (r : Word × RiscvArch δ),
    h.machine.info = some info → info.exception = excNone →
    RecordOf (.sc size aqrl rd rs1 rs2) info → h.machine.arch.updateEnv P info = .ok r →
    ScLaw P size rd rs1 rs2 h.reserved h.machine.arch r.2

/-- The next `updateEnv` commits an `SC` that finds its address and the value there in the
two words, and no `LR` of its width has put them in since the last `SC`. -/
def Stray (P : Platform δ) (h : Hart δ) : Prop :=
  ∃ (info : DecodeInfo) (size : WordSize) (aqrl : BitVec 2) (rd rs1 rs2 : BitVec 5) (ha : Word),
    h.machine.info = some info ∧ info.exception = excNone ∧
    RecordOf (.sc size aqrl rd rs1 rs2) info ∧
    (h.reserved.map Reservation.width ≠ some size.width) ∧
    h.machine.arch.state.gpr rs1 = h.machine.arch.state.get .loadRes ∧
    Accessible P size.width h.machine.arch (h.machine.arch.state.gpr rs1) ha ∧
    (RamAddress P ha size.width.bytes →
      size.width.extend (h.machine.arch.wordAt ha size.width) =
        h.machine.arch.state.get .loadVal)

end Hart

/-! ### Between `decode` and `updateEnv` -/

/-- Nothing moved that an access looks at. -/
structure Steady (a b : RiscvArch δ) : Prop where
  get : ∀ w, w ≠ .mip → b.state.get w = a.state.get w
  ram : b.memory.ram = a.memory.ram
  ifetch : b.ifetchMmuState = a.ifetchMmuState
  data : b.dataMmuState = a.dataMmuState

section Steady

variable {a b c : RiscvArch δ}

/-- Two steps in a row that leave the memory and the modes alone. -/
theorem Steady.trans (first : Steady a b) (second : Steady b c) : Steady a c where
  get w apart := (second.get w apart).trans (first.get w apart)
  ram := second.ram.trans first.ram
  ifetch := second.ifetch.trans first.ifetch
  data := second.data.trans first.data

/-- The page tables are in memory. -/
theorem Steady.sameTables (steady : Steady a b) : SameTables a b where
  ram := steady.ram
  ifetch := steady.ifetch
  data := steady.data
  satp := steady.get _ (by decide)
  priv := steady.get _ (by decide)
  mstatus := steady.get _ (by decide)

/-- The word at an address is in memory. -/
theorem Steady.wordAt (steady : Steady a b) (ha : Word) (width : Width) :
    b.wordAt ha width = a.wordAt ha width := by
  rw [RiscvArch.wordAt, RiscvArch.wordAt, steady.ram]

/-- An address stays accessible. -/
theorem Steady.accessible {P : Platform δ} {width : Width} {va ha : Word}
    (steady : Steady a b) (access : Accessible P width a va ha) : Accessible P width b va ha where
  aligned := access.aligned
  readable := by rw [steady.sameTables.physical]; exact access.readable
  writable := by rw [steady.sameTables.physical]; exact access.writable

/-- A read leaves the memory and the modes alone. -/
theorem steady_of_frame (frame : ReadFrame a b) : Steady a b where
  get _ apart := frame.get apart
  ram := frame.exec.ram
  ifetch := frame.exec.ifetchMmuState
  data := frame.exec.dataMmuState

/-- So does a device that changes between two calls. -/
theorem steady_environment (a : RiscvArch δ) (dev : δ) (irq : Option Word)
    (tick instret : Word) :
    Steady a (({ a with memory := { a.memory with dev := dev }, tick := tick, instret := instret } :
      RiscvArch δ).irqListener irq) where
  get _ apart := irqListener_get _ irq apart
  ram := by cases irq <;> rfl
  ifetch := by cases irq <;> rfl
  data := by cases irq <;> rfl

end Steady

/-- A record without an exception is what its body left, and nothing moved since. -/
def Held (P : Platform δ) (a : RiscvArch δ) (info : DecodeInfo) : Prop :=
  info.exception = excNone →
    ∃ ctx done b, Fresh ctx.info ∧ (recordBody info).exec P ctx = .ok (done, ⟨b, info⟩) ∧
      Steady b a

/-- A record that is waiting stays right while the memory and the modes do. -/
theorem Held.steady {P : Platform δ} {a b : RiscvArch δ} {info : DecodeInfo}
    (held : Held P a info) (steady : Steady a b) : Held P b info := by
  intro silent
  obtain ⟨ctx, done, arch, fresh, ran, since⟩ := held silent
  exact ⟨ctx, done, arch, fresh, ran, since.trans steady⟩

/-- What `decode` leaves is held. -/
theorem decode_held (P : Platform δ) (arch : RiscvArch δ) (vaddr paddr : Word)
    (slot : DecodeInfo) :
    Returns (arch.decode P vaddr paddr slot) fun r => Held P r.1 r.2 := by
  rw [decode_returns]
  refine (fetch_instSize P arch paddr slot).mono ?_
  rintro ⟨rvc, a, i⟩ size ⟨done, c⟩ executed silent
  have spec := exec_spec P _ _ (fresh_cleared i) (done, c) executed
  have body : recordBody (report c) = selected i.inst rvc := recordBody_report spec size
  refine ⟨bodyCtx a vaddr paddr i, done, c.arch, fresh_cleared i, ?_, steady_of_frame (.refl _)⟩
  rw [body, report_of_silent silent]
  exact executed

/-! ### The bodies -/

section Bodies

variable {P : Platform δ} {rd : BitVec 5} {addr src : ArchState → Word} {width : Width}
variable {ctx : Ctx δ}

/-- The record of an `LR` that raised nothing. -/
structure LrRecord (rd : BitVec 5) (info : DecodeInfo) : Prop where
  dst0 : info.dst0 = Dst.full (.gpr rd) info.dst0.data
  dst1 : info.dst1 = Dst.full .loadVal info.dst0.data
  dst2 : info.dst2 = Dst.full .loadRes info.excData
  type : info.type = .lr

/-- A load-reserved leaves the address and the value in its record, for `load_res` and
`load_val`. -/
theorem exec_lrRecord :
    Returns ((Body.lr rd addr width).exec P ctx) fun r => LrRecord rd r.2.info := by
  simp only [Body.exec, returns_bind, returns_pure]
  refine (ld_spec P width (ctx.setExcData (addr ctx.arch.state)) _).mono ?_
  rintro ⟨dest, c⟩ ⟨-, info⟩
  have kept : c.info.excData = addr ctx.arch.state := info.keeps.2.2.2.2.2.2.1
  refine ⟨rfl, rfl, ?_, rfl⟩
  change Dst.full .loadRes (addr ctx.arch.state) = Dst.full .loadRes c.info.excData
  rw [kept]

/-- How the body of an `SC` ends, if it raises nothing. -/
inductive ScOutcome (P : Platform δ) (rd : BitVec 5) (width : Width) (va src : Word)
    (ctx c : Ctx δ) : Prop
  | failed (frame : ReadFrame ctx.arch c.arch) (dst0 : c.info.dst0 = Dst.full (.gpr rd) 1)
  | done {ha : Word} (frame : ReadFrame ctx.arch c.arch)
      (named : va = ctx.arch.state.get .loadRes) (access : Accessible P width ctx.arch va ha)
      (walkable : Walkable P ctx.arch va)
      (holds : RamAddress P ha width.bytes →
        width.extend (ctx.arch.wordAt ha width) = ctx.arch.state.get .loadVal)
      (dst0 : c.info.dst0 = Dst.full (.gpr rd) 0) (excData : c.info.excData = va)
      (bytes : c.info.dst2.idx = BitVec.ofNat 16 width.bytes) (data : c.info.dst2.data = src)

/-- The comparison. -/
theorem scFails_outcome {va : Word} :
    Returns (scFails P width ctx va) fun r =>
      (r.1 = true ∧ ReadFrame ctx.arch r.2.arch) ∨
        (r.2.info.exception ∈ [excLAM, excLPF]) ∨
        ∃ ha raw plain b, r.1 = (width.extend raw != ctx.arch.state.get .loadVal) ∧
          r.2 = ({ ctx with arch := b } : Ctx δ).setWidth2 width.bytes ∧
          va = ctx.arch.state.get .loadRes ∧ width.misaligned va = false ∧
          Translates P ctx.arch va .lfetch ha ∧
          ctx.arch.paddrRead P ha width.bytes P.junk = .ok (raw, plain, b) := by
  unfold scFails
  by_cases named : va = ctx.arch.state.get .loadRes
  · rw [if_neg (not_not_intro named), returns_bind]
    refine (ld_outcome P width ctx va).mono ?_
    rintro _ (skew | ⟨aligned, translated⟩ | @⟨ha, raw, plain, b, aligned, translated, value⟩)
    · exact (returns_pure _ _).2 (.inr (.inl (.head _)))
    · exact (returns_pure _ _).2 (.inr (.inl (.tail _ (.head _))))
    · refine (returns_pure _ _).2 (.inr (.inr ⟨ha, raw, plain, b, ?_, rfl, named, aligned,
        translated, value⟩))
      have kept : b.state.get .loadVal = ctx.arch.state.get .loadVal :=
        (paddrRead_frame P ctx.arch ha width.bytes P.junk _ value).get (by decide)
      change (width.extend raw != b.state.get .loadVal) = _
      rw [kept]
  · rw [if_pos named, returns_ok]
    exact .inl ⟨rfl, .refl _⟩

/-- The record of an `SC` that raised nothing. -/
structure ScRecord (info : DecodeInfo) : Prop where
  dst1 : info.dst1 = Dst.full .loadRes fullMask
  mask2 : info.dst2.mask = 0#64
  type : info.type = .sc

/-- A store-conditional succeeds exactly if the reservation is for its address and the value
there has not changed. -/
theorem exec_sc_outcome (fresh : Fresh ctx.info) :
    Returns ((Body.sc rd addr width src).exec P ctx) fun r => r.2.info.exception = excNone →
      ScRecord r.2.info ∧
        ScOutcome P rd width (addr ctx.arch.state) (src ctx.arch.state) ctx r.2 := by
  intro r ran silent
  simp only [Body.exec, bind_eq_ok] at ran
  obtain ⟨⟨fail, c⟩, compared, c', finished, result⟩ := ran
  cases result
  have silent : c'.info.exception = excNone := silent
  have first := scFails_memStep P width _ _ _ compared
  obtain ⟨second, -⟩ := scResult_memStep P rd width fail _ _ c c' finished
  -- No code is taken back, so the comparison raised nothing either.
  have quiet : c.info.exception = excNone := by
    have code := second.code
    rw [show c'.info.exception = excNone from silent] at code
    simp only [List.mem_cons, List.not_mem_nil, or_false] at code
    rcases code with h | h | h | h | h
    · exact h.symm
    all_goals exact absurd h (by decide)
  refine ⟨⟨rfl, (second.mask2.trans first.mask2).trans fresh.mask2, rfl⟩, ?_⟩
  rcases scFails_outcome _ compared with
    ⟨failed, frame⟩ | loud | ⟨ha, raw, plain, b, verdict, same, named, aligned, loads, value⟩
  · -- The address differs: the comparison ends before it loads.
    change fail = true at failed
    rw [failed] at finished
    cases finished
    exact .failed frame rfl
  · change c.info.exception ∈ _ at loud
    rw [quiet] at loud
    exact absurd loud (by decide)
  · change c = _ at same
    subst same
    have frame : ReadFrame ctx.arch b := paddrRead_frame P _ ha width.bytes P.junk _ value
    cases fail with
    | true =>
        rw [scResult, if_pos rfl] at finished
        cases finished
        exact .failed frame rfl
    | false =>
        rw [scResult, if_neg (by rintro ⟨⟩), bind_eq_ok] at finished
        obtain ⟨c, stored, result⟩ := finished
        cases result
        cases st_outcome P width _ _ c stored with
        | misaligned skew => exact absurd silent (by decide : excSAM ≠ excNone)
        | fault aligned faults => exact absurd silent (by decide : excSPF ≠ excNone)
        | @prepared ha' aligned stores =>
            have writable : ctx.arch.physical P (addr ctx.arch.state) .sfetch = some ha' := by
              rw [← frame.sameTables.physical]
              exact stores.physical
            -- What can be stored can be loaded, at the same place.
            obtain rfl : ha = ha' :=
              Option.some.inj (loads.physical.symm.trans (physical_lfetch writable))
            have access : Accessible P width ctx.arch (addr ctx.arch.state) ha :=
              ⟨aligned, loads.physical, writable⟩
            refine .done frame named access (walkable_of_ok (by decide) loads) ?_ rfl rfl rfl rfl
            intro ram
            obtain ⟨rfl, -⟩ := paddrRead_ramAddress ram value
            exact bne_eq_false_iff_eq.1 verdict.symm

end Bodies

/-! ### Commits -/

section Commits

variable {P : Platform δ} {a b : RiscvArch δ} {info : DecodeInfo} {rd : BitVec 5}
variable {r : Word × RiscvArch δ}

/-- The state words after the commit loop of an `LR`. -/
theorem LrRecord.commitDsts (record : LrRecord rd info) (s : ArchState) :
    commitDsts s info = .ok (((s.set (.gpr rd) info.dst0.data).set .loadVal info.dst0.data).set
      .loadRes info.excData) := by
  simp only [RiscvArch.commitDsts, bind_eq_ok]
  exact ⟨_, commit_full record.dst0, _, commit_full record.dst1, commit_full record.dst2⟩

/-- And of an `SC`. -/
theorem ScRecord.commitDsts {v : Word} (record : ScRecord info)
    (dst0 : info.dst0 = Dst.full (.gpr rd) v) (s : ArchState) :
    commitDsts s info = .ok ((s.set (.gpr rd) v).set .loadRes fullMask) := by
  simp only [RiscvArch.commitDsts, bind_eq_ok]
  exact ⟨_, commit_full dst0, _, commit_full record.dst1,
    ArchState.commit_of_mask_zero _ record.mask2⟩

/-- A committed `LR` leaves what it reserved in the two words. -/
theorem LrRecord.commit (record : LrRecord rd info) :
    Returns (a.commit P info) fun r =>
      r.2.state.get .loadRes = info.excData ∧ r.2.state.get .loadVal = info.dst0.data := by
  intro r ran
  refine ⟨commit_get_of P a info ?_ (by decide) (by decide) r ran,
    commit_get_of P a info ?_ (by decide) (by decide) r ran⟩
  · rw [record.commitDsts, returns_ok, ArchState.get_set_self]
  · rw [record.commitDsts, returns_ok, ArchState.get_set_of_ne _ _ (by decide),
      ArchState.get_set_self]

/-- A committed `SC` leaves an address that no access is aligned to. -/
theorem ScRecord.gone {v : Word} (record : ScRecord info)
    (dst0 : info.dst0 = Dst.full (.gpr rd) v) (ran : a.commit P info = .ok r)
    (other : WordSize) : other.width.misaligned (r.2.state.get .loadRes) = true := by
  have full : r.2.state.get .loadRes = fullMask := by
    refine commit_get_of P a info ?_ (by decide) (by decide) r ran
    rw [record.commitDsts dst0, returns_ok, ArchState.get_set_self]
  rw [full]
  cases other <;> decide

/-- Its first destination goes to `rd`, unless that is `x0`. -/
theorem ScRecord.dest {v : Word} (record : ScRecord info)
    (dst0 : info.dst0 = Dst.full (.gpr rd) v) (ran : a.commit P info = .ok r) :
    r.2.state.get (.gpr rd) = if rd = 0 then 0 else v := by
  split
  · rename_i zero
    subst zero
    simp only [RiscvArch.commit, bind_eq_ok] at ran
    obtain ⟨s, -, c, -, result⟩ := ran
    cases result
    rw [updateMMUState_state, ArchState.get_set_self]
  · rename_i other
    refine commit_get_of P a info ?_ (by simp) (by simpa using other) r ran
    rw [record.commitDsts dst0, returns_ok, ArchState.get_set_of_ne _ _ (by simp),
      ArchState.get_set_self]

/-- A failing `SC` writes no memory. -/
theorem ScRecord.memory_of_one (record : ScRecord info)
    (dst0 : info.dst0 = Dst.full (.gpr rd) 1) (ran : a.commit P info = .ok r) :
    r.2.memory = a.memory := by
  simp only [RiscvArch.commit, bind_eq_ok] at ran
  obtain ⟨s, -, c, moved, result⟩ := ran
  have fails : info.dst0.data ≠ 0 := by
    rw [dst0]
    exact (by decide : (1 : Word) ≠ 0)
  rw [commitMemory, record.type] at moved
  change (if info.dst0.data = 0 then _ else _) = _ at moved
  rw [if_neg fails] at moved
  cases moved
  cases result
  rfl

/-- A succeeding one writes its source where the address is translated to once more. -/
theorem ScRecord.writesBytes {width : Width} {ha : Word} (record : ScRecord info)
    (dst0 : info.dst0 = Dst.full (.gpr rd) 0) (bytes : info.dst2.idx = BitVec.ofNat 16 width.bytes)
    (walkable : Walkable P a info.excData)
    (writable : a.physical P info.excData .sfetch = some ha) (ram : RamAddress P ha width.bytes)
    (ran : a.commit P info = .ok r) : WritesBytes a r.2 ha width.bytes info.dst2.data := by
  simp only [RiscvArch.commit, record.commitDsts dst0] at ran
  rw [bind_eq_ok] at ran
  obtain ⟨s, committed, ran⟩ := ran
  rw [bind_eq_ok] at ran
  obtain ⟨c, moved, result⟩ := ran
  cases committed
  generalize words : (a.state.set (.gpr rd) 0).set .loadRes fullMask = s at moved
  have word {w : StateWord} (gpr : w ≠ .gpr rd) (res : w ≠ .loadRes) :
      s.get w = a.state.get w := by
    rw [← words, ArchState.get_set_of_ne _ _ res, ArchState.get_set_of_ne _ _ gpr]
  have tables : SameTables a { a with state := s } :=
    ⟨rfl, rfl, rfl, word (by simp) (by decide), word (by simp) (by decide),
      word (by simp) (by decide)⟩
  have translates : Translates P ({ a with state := s } : RiscvArch δ) info.excData .sfetch ha := by
    rcases translate_cases (tables.walkable.2 walkable) (by decide : FetchType.sfetch ≠ .ifetch)
      with ⟨ha', physical, translates⟩ | ⟨faults, -⟩
    · rw [tables.physical, writable] at physical
      cases physical
      exact translates
    · rw [tables.physical, writable] at faults
      cases faults
  have succeeds : info.dst0.data = 0 := by rw [dst0]; rfl
  rw [commitMemory, record.type] at moved
  change (if info.dst0.data = 0 then _ else _) = _ at moved
  rw [if_pos succeeds, translates] at moved
  change storeOperand P { a with state := s } ha info.dst2.idx info.dst2.data = _ at moved
  rw [bytes, storeOperand_ram _ ram] at moved
  cases moved
  cases result
  exact writesBytes_of_committed (show _ = (a.at a.pc a.paddr).committed s _ from rfl)

end Commits

/-! ### The invariant -/

/-- The two words hold what is reserved. -/
def Tracks (s : ArchState) (reserved : Option Reservation) : Prop :=
  ∀ r, reserved = some r → s.get .loadRes = r.va ∧ s.get .loadVal = r.value

/-- The registers of the reservation are those of the last one as long as nobody writes them. -/
theorem Tracks.kept {s s' : ArchState} {reserved : Option Reservation}
    (tracks : Tracks s reserved) (res : s'.get .loadRes = s.get .loadRes)
    (val : s'.get .loadVal = s.get .loadVal) : Tracks s' reserved := by
  intro r held
  rw [res, val]
  exact tracks r held

/-- The bodies that write the words of the reservation. -/
def Body.Reserves : Body → Prop
  | .lr _ _ _ | .sc _ _ _ _ => True
  | _ => False

/-- No other body has a destination in the two words. -/
theorem not_targets_reservation {b : Body} (plain : ¬ b.Reserves) {w : StateWord}
    (word : w = .loadRes ∨ w = .loadVal) : ¬ b.targets w := by
  intro target
  cases b with
  | lr | sc => exact plain trivial
  | csr =>
      rcases target with rfl | ⟨-, target⟩
      · simp at word
      · rcases csrTargets_isCsrWord target with h | ⟨i, rfl⟩ | ⟨i, rfl⟩
        · rcases word with rfl | rfl <;> exact absurd h (by decide)
        · simp at word
        · simp at word
  | fp dst =>
      have aimed : w = dst.word := target
      subst aimed
      cases dst <;> simp [DstReg.word] at word
  | compute | jal | jalr | load | amo | fload =>
      cases show w = _ from target
      simp at word
  | _ => exact target

/-- A commit leaves the two words as `reserve` has them. -/
theorem commit_tracks {P : Platform δ} {a : RiscvArch δ} {info : DecodeInfo}
    {reserved : Option Reservation} (held : Held P a info) (silent : info.exception = excNone)
    (tracks : Tracks a.state reserved) :
    Returns (a.commit P info) fun r => Tracks r.2.state (reserve info reserved) := by
  obtain ⟨ctx, done, b, fresh, ran, -⟩ := held silent
  have spec := exec_spec P _ ctx fresh _ ran
  intro r committed
  unfold reserve
  cases body : recordBody info with
  | lr rd addr width =>
      rw [body] at ran
      obtain ⟨res, val⟩ := (exec_lrRecord _ ran).commit r committed
      rintro _ ⟨⟩
      exact ⟨res, val⟩
  | sc => exact nofun
  | _ =>
      have kept {w : StateWord} (word : w = .loadRes ∨ w = .loadVal) :
          r.2.state.get w = a.state.get w := by
        refine commit_get P a info (spec.apart w ?_) ?_ ?_ r committed
        · rw [body]
          exact not_targets_reservation id word
        · rcases word with rfl | rfl <;> decide
        · rcases word with rfl | rfl <;> decide
      exact tracks.kept (kept (.inl rfl)) (kept (.inr rfl))

namespace Hart

variable {P : Platform δ} {h : Hart δ}

/-- The two words are what the history says, and the record in hand is what its body left. -/
structure Sound (P : Platform δ) (h : Hart δ) : Prop where
  tracks : Tracks h.machine.arch.state h.reserved
  held : ∀ info, h.machine.info = some info → Held P h.machine.arch info

/-- After a reset there is no reservation. -/
theorem reset_sound (P : Platform δ) (config : List (StateWord × Word)) (memory : Memory δ) :
    (reset config memory).Sound P := ⟨nofun, nofun⟩

/-- Nothing but `updateEnv` moves the two words. -/
theorem Sound.moved (sound : h.Sound P) {m : Machine δ}
    (record : ∀ info, m.info = some info → Held P m.arch info)
    (get : ∀ w, w ≠ .mip → w ≠ .mstatus → w ≠ .fp →
      m.arch.state.get w = h.machine.arch.state.get w) :
    Sound P ⟨{ h.toDriver with machine := m }, h.reserved⟩ :=
  ⟨sound.tracks.kept (get _ (by decide) (by decide) (by decide))
    (get _ (by decide) (by decide) (by decide)), record⟩

/-- `updateEnv` writes the two registers for a load-reserved, and clears them for a
store-conditional. -/
theorem updateEnv_tracks (sound : h.Sound P) {info : DecodeInfo}
    (record : h.machine.info = some info) :
    Returns (h.machine.arch.updateEnv P info) fun r =>
      Tracks r.2.state (h.reservedBy .updateEnv) := by
  simp only [reservedBy, record]
  rcases updateEnv_cases P h.machine.arch info with
    ⟨code, tval, ran⟩ | ⟨code, ran⟩ | ⟨code, ran⟩ | ⟨code, ran⟩ | ⟨-, ran⟩
  · rw [ran, returns_ok, if_neg code]
    exact sound.tracks.kept (trap_get _ _ _ (by decide)) (trap_get _ _ _ (by decide))
  · rw [ran, returns_ok, if_neg (by rw [code]; decide)]
    exact sound.tracks.kept rfl rfl
  · rw [ran, returns_ok, if_neg (by rw [code]; decide)]
    exact sound.tracks.kept rfl rfl
  · rw [ran, if_pos code]
    exact commit_tracks (sound.held info record) code sound.tracks
  · rw [ran]
    exact returns_error _ _

/-- Every call keeps the invariant. -/
theorem step_sound (sound : h.Sound P) (c : DriverCall δ) :
    Returns (h.step P c) (Sound P) := by
  simp only [step, returns_bind, returns_pure]
  intro d stepped
  cases c with
  | updateEnv =>
      simp only [Driver.step] at stepped
      cases record : h.machine.info with
      | none =>
          rw [record] at stepped
          cases stepped
      | some info =>
          rw [record, bind_eq_ok] at stepped
          obtain ⟨r, ran, result⟩ := stepped
          cases result
          exact ⟨updateEnv_tracks sound record r ran, by rintro info ⟨⟩⟩
  | decode paddr slot =>
      simp only [Driver.step, Driver.call, Machine.step, bind_eq_ok] at stepped
      obtain ⟨m, ⟨r, decoded, left⟩, result⟩ := stepped
      cases left
      cases result
      refine sound.moved ?_ (decode_spec P _ _ paddr slot r decoded).frame.get
      rintro info ⟨⟩
      exact decode_held P _ _ paddr slot r decoded
  | fetchFault slot =>
      cases stepped
      refine sound.moved ?_ fun _ _ _ _ => rfl
      rintro info ⟨⟩ silent
      exact absurd silent (by decide : excIPF ≠ excNone)
  | translateAddr vaddr type =>
      simp only [Driver.step, Driver.call, Machine.step, bind_eq_ok] at stepped
      obtain ⟨m, ⟨r, translated, left⟩, result⟩ := stepped
      cases left
      cases result
      have frame := translateAddr_frame P _ vaddr type excNone r translated
      refine sound.moved ?_ fun w mip _ _ => frame.get mip
      exact fun info record => (sound.held info record).steady (steady_of_frame frame)
  | environment dev irq tick instret =>
      cases stepped
      have steady := steady_environment h.machine.arch dev irq tick instret
      refine sound.moved ?_ fun w mip _ _ => steady.get w mip
      exact fun info record => (sound.held info record).steady steady

end Hart

/-! ### Runs -/

namespace Hart

variable {P : Platform δ} {h : Hart δ}

/-- An `SC` that is not stray does what it should. -/
theorem Sound.meetsSc (sound : h.Sound P) (guarded : ¬ h.Stray P) : h.MeetsSc P := by
  intro info size aqrl rd rs1 rs2 r held silent record ran
  obtain ⟨ctx, done, b, fresh, executed, since⟩ := sound.held info held silent
  rw [record.body, body_sc] at executed
  obtain ⟨left, outcome⟩ := exec_sc_outcome fresh _ executed silent
  rw [updateEnv_commit P _ silent] at ran
  cases outcome with
  | failed frame dst0 =>
      exact ⟨.failed (left.dest dst0 ran) (left.memory_of_one dst0 ran), left.gone dst0 ran⟩
  | @done ha frame named access walkable holds dst0 excData bytes data =>
      have steady : Steady ctx.arch h.machine.arch := (steady_of_frame frame).trans since
      have word {w : StateWord} (apart : w ≠ .mip) :
          ctx.arch.state.get w = h.machine.arch.state.get w := (steady.get w apart).symm
      have address : ctx.arch.state.gpr rs1 = h.machine.arch.state.gpr rs1 := word (by simp)
      have source : ctx.arch.state.gpr rs2 = h.machine.arch.state.gpr rs2 := word (by simp)
      rw [address] at named access walkable excData
      rw [source] at data
      rw [word (by decide)] at named
      have access := steady.accessible access
      have holds (ram : RamAddress P ha size.width.bytes) :
          size.width.extend (h.machine.arch.wordAt ha size.width) =
            h.machine.arch.state.get .loadVal := by
        rw [steady.wordAt, holds ram]
        exact word (by decide)
      refine ⟨?_, left.gone dst0 ran⟩
      by_cases matching : h.reserved.map Reservation.width = some size.width
      · obtain ⟨res, last, width⟩ := Option.map_eq_some_iff.1 matching
        obtain ⟨va, value⟩ := sound.tracks res last
        have same : res = ⟨size.width, h.machine.arch.state.gpr rs1, res.value⟩ := by
          rw [named, va, ← width]
        refine .done (last.trans (congrArg some same)) access ?_ fun ram => ⟨?_, ?_⟩
        · rw [left.dest dst0 ran]
          split <;> rfl
        · rw [holds ram, value]
        · rw [← data]
          refine left.writesBytes dst0 bytes ?_ ?_ ram ran
          · rw [excData]
            exact steady.sameTables.walkable.2 walkable
          · rw [excData]
            exact access.writable
      · exact absurd ⟨info, size, aqrl, rd, rs1, rs2, ha, held, silent, record, matching, named,
          access, holds⟩ guarded

/-- If the record in hand is that of an `SC`, the last `LR` had its width. -/
def Matched (h : Hart δ) : Bool :=
  match h.machine.info.map recordBody with
  | some (.sc _ _ width _) => h.reserved.map Reservation.width == some width
  | _ => true

/-- A store-conditional that has the width of the last load-reserved is not stray. -/
theorem not_stray_of_matched (matched : h.Matched = true) : ¬ h.Stray P := by
  rintro ⟨info, size, aqrl, rd, rs1, rs2, ha, held, -, record, other, -⟩
  rw [Matched, held, Option.map_some, record.body, body_sc] at matched
  exact other (eq_of_beq matched)

end Hart

/-- Throughout a run every committed `SC` does what it should. -/
def Reserves (P : Platform δ) (h : Hart δ) (calls : List (DriverCall δ)) : Prop :=
  ∀ t, Visits (Hart.step P) h calls t .updateEnv → t.MeetsSc P

/-- A run from reset without a stray `SC` is one in which an `SC` writes 0 after an `LR` of its
address and width, and the others write 1 and no memory. A stray `SC` finds its address in
`load_res` and its value in `load_val` although the last `LR` or `SC` was none of its width: the
two words do not say how wide the `LR` was, nor that there was one. -/
theorem reserves_of_not_stray (P : Platform δ) (config : List (StateWord × Word))
    (memory : Memory δ) (calls : List (DriverCall δ))
    (guarded : ∀ t, Visits (Hart.step P) (Hart.reset config memory) calls t .updateEnv →
      ¬ t.Stray P) :
    Reserves P (Hart.reset config memory) calls := by
  intro t visit
  have sound : t.Sound P :=
    visit.invariant (Hart.reset_sound P config memory) fun u i _ sound => Hart.step_sound sound i
  exact sound.meetsSc (guarded t visit)

/-- `auipc x1, 0; addi x1, x1, 64`, then a load-reserved to `x2` and a store-conditional of
`x4` to `x3`, both at the zeroed bytes that `x1` points at. -/
def pairProgram (lr sc : WordSize) : Hart Unit :=
  Hart.reset archCfg (imageOf
    [0x00000097, 0x04008093, (MemInstr.lr lr 0 2 1).word, (MemInstr.sc sc 0 3 1 4).word])

/-- A load-reserved and its store-conditional. -/
def pairCalls : List (DriverCall Unit) :=
  [.decode 0x80000000 .zero, .updateEnv, .decode 0x80000004 .zero, .updateEnv,
    .decode 0x80000008 .zero, .updateEnv, .decode 0x8000000c .zero, .updateEnv]

/-- `lr.d` and `sc.d`. -/
theorem reserves_pair_d : Reserves (ramOnly 4096) (pairProgram .d .d) pairCalls := by
  have matched : ∀ n < 8, (runSteps (Hart.step (ramOnly 4096)) (pairProgram .d .d)
      (pairCalls.take n)).toOption.all Hart.Matched = true := by decide +kernel
  refine reserves_of_not_stray (ramOnly 4096) archCfg _ pairCalls fun t visit => ?_
  obtain ⟨before, after, split, ran⟩ := (visits_iff ..).1 visit
  have length := congrArg List.length split
  rw [List.length_append, List.length_cons] at length
  rw [show pairCalls.length = 8 from rfl] at length
  have here := matched before.length (by omega)
  rw [split, List.take_left] at here
  change (runSteps _ (Hart.reset _ _) before).toOption.all _ = true at here
  rw [ran] at here
  exact Hart.not_stray_of_matched here

/-- `lr.w` and `sc.d`: the `sc.d` succeeds. -/
theorem not_reserves_pair_wd : ¬ Reserves (ramOnly 4096) (pairProgram .w .d) pairCalls := by
  intro meets
  obtain ⟨t, ran, seen⟩ := exists_ok_of_toOption
    (show (runSteps (Hart.step (ramOnly 4096)) (pairProgram .w .d)
        (pairCalls.take 7)).toOption.map (fun t => (t.reserved.map Reservation.width,
          t.machine.info.map fun i => (i.exception, i.inst, i.instSize),
          (t.machine.info.bind fun i => (t.machine.arch.updateEnv (ramOnly 4096) i).toOption).map
            fun r => r.2.state.get (.gpr 3))) =
      some (some .w, some (excNone, (MemInstr.sc .d 0 3 1 4).word, 4), some 0) by decide +kernel)
  simp only [Prod.mk.injEq] at seen
  obtain ⟨width, fields, updated⟩ := seen
  obtain ⟨info, held, fields⟩ := Option.map_eq_some_iff.1 fields
  simp only [Prod.mk.injEq] at fields
  obtain ⟨silent, word, size⟩ := fields
  rw [held] at updated
  obtain ⟨r, returned, zero⟩ := exists_ok_of_toOption updated
  obtain ⟨law, -⟩ := meets t ((visits_iff ..).2 ⟨_, [], rfl, ran⟩) info .d 0 3 1 4 r held silent
    ⟨word, size⟩ returned
  cases law with
  | done matching access written stored =>
      rw [matching] at width
      cases width
  | failed one same =>
      rw [zero] at one
      exact absurd one (by decide)

end CPUDelaySim.Riscv
