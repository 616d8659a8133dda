import CPUDelaySim.Riscv.MemAccess
import CPUDelaySim.Riscv.MemInstr
import CPUDelaySim.Riscv.MmuState

/-!
# Loads and stores

The integer loads and stores, in both sizes of encoding, from `decode` to the end of
`updateEnv`: which bytes are read or written, what becomes of the register, and that
nothing else moves.  A load after a store at the same address finds the same leaf of the
page tables, unless the store hit one of the entries on the way, and so the bytes stored.

`AccessLaws` collects the statements for loads, for stores and for a store followed by a load, each
with its frame.  The instruction is given as a `MemInstr`, so both sizes of encoding share one
proof; `Passes` stands for everything up to the end of `decode`.

`KeepsPtes` is what the pair asks of its store: one that hits an entry which the load is translated
by may send the load elsewhere.
-/

namespace CPUDelaySim.Riscv

variable {δ : Type}

open RiscvArch

/-! ### What the instructions do -/

/-- The width of the load. -/
def LoadOp.width : LoadOp → Width
  | lb | lbu => .b
  | lh | lhu => .h
  | lw | lwu => .w
  | ld => .d

/-- The register value of the loaded bytes. -/
def LoadOp.value (op : LoadOp) (bytes : Word) : Word :=
  match op with
  | lb => (bytes.setWidth 8).signExtend 64
  | lh => (bytes.setWidth 16).signExtend 64
  | lw => (bytes.setWidth 32).signExtend 64
  | ld => bytes
  | lbu => (bytes.setWidth 8).setWidth 64
  | lhu => (bytes.setWidth 16).setWidth 64
  | lwu => (bytes.setWidth 32).setWidth 64

/-- What the body of a load makes of the value that `ld_*` returns. -/
def LoadOp.ext : LoadOp → Word → Word
  | .lbu => fun v => v &&& 0xff
  | .lhu => fun v => v &&& 0xffff
  | .lwu => lo32
  | _ => id

namespace MemInstr

/-- The instruction as a load into a register. -/
def asLoad : MemInstr → Option (LoadOp × BitVec 5)
  | load op rd _ _ => some (op, rd)
  | compact .lw _ _ r => some (.lw, compactReg r)
  | compact .ld _ _ r => some (.ld, compactReg r)
  | stack .lw _ r _ => some (.lw, r)
  | stack .ld _ r _ => some (.ld, r)
  | _ => none

/-- The instruction as a store of a register. -/
def asStore : MemInstr → Option (Width × BitVec 5)
  | store width rs2 _ _ => some (width, rs2)
  | compact .sw _ _ r => some (.w, compactReg r)
  | compact .sd _ _ r => some (.d, compactReg r)
  | stack .sw _ r _ => some (.w, r)
  | stack .sd _ r _ => some (.d, r)
  | _ => none

/-- The instruction is fetched, leaving `a`, and decoded into `d` without an exception. -/
structure Passes (P : Platform δ) (m : MemInstr) (arch a : RiscvArch δ) (vaddr paddr : Word)
    (d : RiscvArch δ × DecodeInfo) : Prop where
  decoded : ∃ slot, Fetches P arch paddr slot m.rvc m.word a ∧
    arch.decode P vaddr paddr slot = .ok d
  silent : d.2.exception = excNone

/-- A load of the bytes at `ha` from the machine `a`. -/
structure LoadsFrom (m : MemInstr) (op : LoadOp) (rd : BitVec 5) (a : RiscvArch δ)
    (vaddr ha : Word) (r : Word × RiscvArch δ) : Prop where
  next : r.1 = vaddr + instBytes m.rvc
  state : r.2.state = (a.state.set (.gpr rd) (op.value
    (Memory.load a.memory.ram (Memory.ramIndex ha) op.width.bytes))).set (.gpr 0) 0
  memory : r.2.memory = a.memory

/-- A store of the low bytes of `rs2` at `ha` from the machine `a`. -/
structure StoresTo (m : MemInstr) (width : Width) (rs2 : BitVec 5) (a : RiscvArch δ)
    (vaddr ha : Word) (r : Word × RiscvArch δ) : Prop where
  next : r.1 = vaddr + instBytes m.rvc
  state : r.2.state = a.state.set (.gpr 0) 0
  memory : WritesBytes a r.2 ha width.bytes (a.state.gpr rs2)

/-! ### Bodies -/

/-- A load, compressed or not, is one body. -/
theorem body_of_asLoad {m : MemInstr} {op : LoadOp} {rd : BitVec 5}
    (load : m.asLoad = some (op, rd)) : m.body = .load rd m.address op.width op.ext := by
  cases m with
  | load op' rd' rs1 imm =>
      cases load
      cases op <;> rfl
  | compact op' k base r | stack op' k r names =>
      cases op' with
      | lw | ld =>
          cases load
          rfl
      | fld | sw | sd | fsd => cases load
  | store | fload | fstore | amo | lr | sc => cases load

/-- A store, compressed or not, is one body. -/
theorem body_of_asStore {m : MemInstr} {width : Width} {rs2 : BitVec 5}
    (store : m.asStore = some (width, rs2)) :
    m.body = .store m.address width fun s => s.gpr rs2 := by
  cases m with
  | store width' rs2' rs1 imm =>
      cases store
      cases width <;> rfl
  | compact op' k base r | stack op' k r names =>
      cases op' with
      | sw | sd =>
          cases store
          rfl
      | lw | ld | fld | fsd => cases store
  | load | fload | fstore | amo | lr | sc => cases store

/-- Under a mask of ones, the sign that was extended is lost. -/
theorem and_ones_signExtend (n : Nat) (v : Word) {mask : Word}
    (ones : mask = (BitVec.allOnes n).setWidth 64) :
    (v.setWidth n).signExtend 64 &&& mask = (v.setWidth n).setWidth 64 := by
  subst ones
  apply BitVec.eq_of_getLsbD_eq
  intro i bound
  rw [BitVec.getLsbD_and, BitVec.getLsbD_signExtend, BitVec.getLsbD_setWidth,
    BitVec.getLsbD_setWidth, BitVec.getLsbD_allOnes]
  by_cases low : i < n
  · simp [low, bound]
  · simp [low]

/-- The low half of a word that has been extended. -/
theorem lo32_signExtend (v : BitVec 32) : lo32 (v.signExtend 64) = v.setWidth 64 := by
  apply BitVec.eq_of_getLsbD_eq
  intro i bound
  simp only [lo32, BitVec.getLsbD_setWidth, BitVec.getLsbD_signExtend]
  by_cases low : i < 32
  · simp [low, bound]
  · simp [low, BitVec.getLsbD_of_ge v i (by omega)]

/-- The cast of the body and the extension of the name agree. -/
theorem ext_value (op : LoadOp) (raw : Word) : op.ext (op.width.extend raw) = op.value raw := by
  cases op with
  | lb | lh | lw | ld => rfl
  | lbu => exact and_ones_signExtend 8 raw (by decide)
  | lhu => exact and_ones_signExtend 16 raw (by decide)
  | lwu => exact lo32_signExtend (raw.setWidth 32)

section Passes

variable {P : Platform δ} {m : MemInstr} {arch a : RiscvArch δ} {vaddr paddr : Word}
variable {d : RiscvArch δ × DecodeInfo}

/-- The fetch of an instruction that passes moves what a read moves. -/
theorem Passes.fetchFrame (passes : m.Passes P arch a vaddr paddr d) : ReadFrame arch a := by
  obtain ⟨slot, ⟨i, fetched, -⟩, -⟩ := passes.decoded
  exact fetch_frame P arch paddr slot _ fetched

/-- What an instruction that passes has been decoded into: its body ran on a cleared record,
and raised nothing. -/
theorem Passes.ran (passes : m.Passes P arch a vaddr paddr d) :
    ∃ i done, i.instSize.setWidth 64 = instBytes m.rvc ∧
      m.body.exec P (bodyCtx a vaddr paddr i) = .ok (done, ⟨d.1, d.2⟩) := by
  obtain ⟨⟨slot, ⟨i, fetched, word⟩, decoded⟩, silent⟩ := passes
  have size := instSize_eq fetched
  rw [decode_eq, fetched] at decoded
  change ((selected i.inst m.rvc).exec P (bodyCtx a vaddr paddr i) >>= _) = _ at decoded
  rw [word, m.selected_eq, bind_eq_ok] at decoded
  obtain ⟨⟨done, ctx⟩, ran, result⟩ := decoded
  cases result
  refine ⟨i, done, size, ?_⟩
  rw [ran]
  change Except.ok (done, ctx) = .ok (done, ⟨ctx.arch, report ctx⟩)
  rw [report_of_silent silent]

/-- The address of a load was translated, and its record commits what RAM holds there. -/
theorem Passes.load (passes : m.Passes P arch a vaddr paddr d) {op : LoadOp} {rd : BitVec 5}
    (load : m.asLoad = some (op, rd)) :
    ∃ ha, a.physical P (m.address a.state) .lfetch = some ha ∧
      (RamAddress P ha op.width.bytes →
        ∃ r, d.1.updateEnv P d.2 = .ok r ∧ m.LoadsFrom op rd a vaddr ha r) := by
  obtain ⟨i, done, size, ran⟩ := passes.ran
  have silent := passes.silent
  have fresh := fresh_cleared i
  obtain ⟨b, info⟩ := d
  rw [body_of_asLoad load] at ran
  simp only [Body.exec, bind_eq_ok] at ran
  obtain ⟨⟨data, c⟩, loaded, result⟩ := ran
  cases result
  -- A fault would have left its code in the record.
  cases ld_outcome P op.width _ _ _ loaded with
  | misaligned skew => exact absurd silent (by decide : excLAM ≠ excNone)
  | fault aligned translated => exact absurd silent (by decide : excLPF ≠ excNone)
  | @read ha raw plain b aligned translated value =>
      refine ⟨ha, translated.physical, fun ram => ?_⟩
      obtain ⟨rfl, rfl⟩ := paddrRead_ramAddress ram value
      refine ⟨_, updateEnv_registers silent ⟨by rintro ⟨⟩, by rintro ⟨⟩, by rintro ⟨⟩⟩
        (commitDsts_full rfl fresh.mask1 fresh.mask2), ?_⟩
      refine ⟨?_, ?_, rfl⟩
      · rw [← size]
        rfl
      · rw [← ext_value]
        rfl

/-- The address of a store was translated, and its record commits the bytes there. -/
theorem Passes.store (passes : m.Passes P arch a vaddr paddr d) {width : Width} {rs2 : BitVec 5}
    (store : m.asStore = some (width, rs2)) :
    ∃ ha, a.physical P (m.address a.state) .sfetch = some ha ∧
      (RamAddress P ha width.bytes →
        ∃ r, d.1.updateEnv P d.2 = .ok r ∧ m.StoresTo width rs2 a vaddr ha r) := by
  obtain ⟨i, done, size, ran⟩ := passes.ran
  have silent := passes.silent
  have fresh := fresh_cleared i
  obtain ⟨b, info⟩ := d
  rw [body_of_asStore store] at ran
  simp only [Body.exec, bind_eq_ok] at ran
  obtain ⟨c, stored, result⟩ := ran
  cases result
  cases st_outcome P width _ _ _ stored with
  | misaligned skew => exact absurd silent (by decide : excSAM ≠ excNone)
  | fault aligned translated => exact absurd silent (by decide : excSPF ≠ excNone)
  | @prepared ha aligned translated =>
      refine ⟨ha, translated.physical, fun ram => ?_⟩
      refine ⟨_, updateEnv_write_ram silent (.inl rfl)
        (commitDsts_none fresh.mask0 fresh.mask1 fresh.mask2) rfl ram, ?_, ?_, ?_⟩
      · rw [← size]
        rfl
      · rw [committed_state]
        rfl
      · exact .of_truncate (writesBytes_of_committed (show _ =
          (a.at vaddr paddr).committed a.state _ from rfl))

end Passes

/-! ### A load after a store -/

/-- A load reads its own bytes only. -/
theorem value_load (op : LoadOp) {ram : Nat → Byte} {index : Nat} {v : Word}
    (bytes : ∀ i < op.width.bytes, ram (index + i) = byteAt v i) :
    op.value (Memory.load ram index op.width.bytes) = op.value v := by
  have same := load_setWidth op.width.bytes_le bytes
  cases op with
  | ld => simpa [LoadOp.width, Width.bytes, LoadOp.value] using same
  | lb | lh | lw => exact congrArg (BitVec.signExtend 64) same
  | lbu | lhu | lwu => exact congrArg (BitVec.setWidth 64) same

end MemInstr

section ReadBack

variable {P : Platform δ} {a b : RiscvArch δ} {va : Word}

/-- The entries that a data access to `va` is translated by in `a` hold the same in `b`. -/
def RiscvArch.KeepsPtes (P : Platform δ) (a b : RiscvArch δ) (va : Word) : Prop :=
  a.dataMmuState = true → ∀ p ∈ pteReads P a.memory.ram a.state va,
    Memory.load b.memory.ram (Memory.ramIndex p) 8 = Memory.load a.memory.ram (Memory.ramIndex p) 8

/-- An entry depends on its eight bytes only. -/
theorem pteSlot_congr {ram ram' : Nat → Byte} {table : Word} {level : Nat}
    (same : Memory.load ram' (Memory.ramIndex (entryAddr va level table)) 8 =
      Memory.load ram (Memory.ramIndex (entryAddr va level table)) 8) :
    pteSlot P ram' va table level = pteSlot P ram va table level := by
  unfold pteSlot pteAt
  rw [same]

/-- Whatever the access, the address comes from the leaf. -/
theorem sv39_unique {ram ram' : Nat → Byte} {s s' : ArchState} {type type' : FetchType}
    {pa pa' : Word}
    (found : Slot.find (pteSlot P ram' va) 2 (satpRoot s') =
      Slot.find (pteSlot P ram va) 2 (satpRoot s))
    (first : sv39 P ram s va type = some pa) (second : sv39 P ram' s' va type' = some pa') :
    pa' = pa := by
  obtain ⟨pte, level, path, -, -, rfl⟩ := (sv39_eq_some_iff P ram s va type pa).1 first
  obtain ⟨pte', level', path', -, -, rfl⟩ := (sv39_eq_some_iff P ram' s' va type' pa').1 second
  rw [← Slot.find_eq_some_iff] at path path'
  have leaf := path'.symm.trans (found.trans path)
  cases leaf
  rfl

/-- With the entries kept, a load is translated to where the store went. -/
theorem physical_unique (data : b.dataMmuState = a.dataMmuState)
    (satp : b.state.get .satp = a.state.get .satp) (keeps : a.KeepsPtes P b va) {ha ha' : Word}
    (stored : a.physical P va .sfetch = some ha) (loaded : b.physical P va .lfetch = some ha') :
    ha' = ha := by
  have switch : b.mmuOn .lfetch = a.mmuOn .sfetch := data
  rw [physical] at stored loaded
  rw [switch] at loaded
  cases on : a.mmuOn .sfetch with
  | false =>
      rw [on] at stored loaded
      cases stored
      cases loaded
      rfl
  | true =>
      rw [on] at stored loaded
      refine sv39_unique ?_ stored loaded
      have root : satpRoot b.state = satpRoot a.state := by rw [satpRoot, satpRoot, satp]
      rw [root]
      refine Slot.find_of_visited fun t read => pteSlot_congr ?_
      exact keeps on _ (List.mem_map_of_mem read)

end ReadBack

namespace MemInstr

/-- The switch of the data accesses is not moved by a store. -/
theorem StoresTo.dataMmuState {m : MemInstr} {width : Width} {rs2 : BitVec 5}
    {a : RiscvArch δ} {vaddr ha : Word} {r : Word × RiscvArch δ}
    (stores : m.StoresTo width rs2 a vaddr ha r) (before : MmuStateCurrent a)
    (after : MmuStateCurrent r.2) : r.2.dataMmuState = a.dataMmuState := by
  have words {w : StateWord} (apart : w ≠ .gpr 0) : r.2.state.get w = a.state.get w := by
    rw [stores.state]
    exact ArchState.get_set_of_ne _ _ apart
  rw [after.data, before.data]
  simp only [effectiveMode, words (by decide : StateWord.satp ≠ .gpr 0),
    words (by decide : StateWord.priv ≠ .gpr 0), words (by decide : StateWord.mstatus ≠ .gpr 0)]

/-- What the integer loads and stores do, on every machine. -/
structure AccessLaws (P : Platform δ) : Prop where
  /-- A load without an exception puts the bytes of RAM into `rd`. -/
  load : ∀ (m : MemInstr) (op : LoadOp) (rd : BitVec 5) (arch a : RiscvArch δ)
    (vaddr paddr : Word) (d : RiscvArch δ × DecodeInfo), m.asLoad = some (op, rd) →
    m.Passes P arch a vaddr paddr d →
    ∃ ha, a.physical P (m.address a.state) .lfetch = some ha ∧
      (RamAddress P ha op.width.bytes →
        ∃ r, d.1.updateEnv P d.2 = .ok r ∧ m.LoadsFrom op rd a vaddr ha r)
  /-- A store without an exception puts the low bytes of `rs2` into RAM. -/
  store : ∀ (m : MemInstr) (width : Width) (rs2 : BitVec 5) (arch a : RiscvArch δ)
    (vaddr paddr : Word) (d : RiscvArch δ × DecodeInfo), m.asStore = some (width, rs2) →
    m.Passes P arch a vaddr paddr d →
    ∃ ha, a.physical P (m.address a.state) .sfetch = some ha ∧
      (RamAddress P ha width.bytes →
        ∃ r, d.1.updateEnv P d.2 = .ok r ∧ m.StoresTo width rs2 a vaddr ha r)
  /-- A load of the same address and width finds what was stored, from any machine with the
  tables that the store left. -/
  readBack : ∀ (m m' : MemInstr) (op : LoadOp) (rs2 rd : BitVec 5)
    (arch a arch' a' : RiscvArch δ) (vaddr paddr vaddr' paddr' ha : Word)
    (d d' : RiscvArch δ × DecodeInfo) (r : Word × RiscvArch δ),
    m.asStore = some (op.width, rs2) → m'.asLoad = some (op, rd) →
    MmuStateCurrent arch → m.Passes P arch a vaddr paddr d →
    a.physical P (m.address a.state) .sfetch = some ha → RamAddress P ha op.width.bytes →
    d.1.updateEnv P d.2 = .ok r → SameTables r.2 arch' →
    m'.Passes P arch' a' vaddr' paddr' d' → m'.address a'.state = m.address a.state →
    a.KeepsPtes P r.2 (m.address a.state) →
    ∃ r', d'.1.updateEnv P d'.2 = .ok r' ∧
      r'.2.state = (a'.state.set (.gpr rd) (op.value (a.state.gpr rs2))).set (.gpr 0) 0
  /-- The switches are up to date in every run, and `x0` is zero. -/
  reached : ∀ t : Machine δ, t.Reachable P →
    MmuStateCurrent t.arch ∧ t.arch.state.get (.gpr 0) = 0

/-- The laws hold of `decode` and `updateEnv`, whatever the platform, for the integer loads and
stores in both sizes of encoding: what a load returns, which bytes a store writes and which it
leaves, and that a load after a store returns what was stored. -/
theorem accessLaws (P : Platform δ) : AccessLaws P where
  load _ _ _ _ _ _ _ _ load passes := passes.load load
  store _ _ _ _ _ _ _ _ store passes := passes.store store
  readBack := by
    intro m m' op rs2 rd arch a arch' a' vaddr paddr vaddr' paddr' ha d d' r store load current
      passes stored ram left tables passes' address keeps
    obtain ⟨ha₀, stored₀, done⟩ := passes.store store
    obtain rfl : ha = ha₀ := Option.some.inj (stored.symm.trans stored₀)
    obtain ⟨r₀, left₀, stores⟩ := done ram
    obtain rfl : r = r₀ := Except.ok.inj (left.symm.trans left₀)
    -- The load is translated as the store was: same switch, same root, same entries.
    have data : r.2.dataMmuState = a.dataMmuState :=
      stores.dataMmuState (current.sameTables passes.fetchFrame.sameTables)
        (mmuStateCurrent_updateEnv P d.1 d.2 r left)
    have satp : r.2.state.get .satp = a.state.get .satp := by
      rw [stores.state]
      exact ArchState.get_set_of_ne _ _ (by decide)
    have here : SameTables r.2 a' := tables.trans passes'.fetchFrame.sameTables
    obtain ⟨ha', loaded, done'⟩ := passes'.load load
    have kept : a.KeepsPtes P a' (m.address a.state) := by
      intro on p read
      rw [here.ram]
      exact keeps on p read
    rw [address] at loaded
    obtain rfl : ha' = ha :=
      physical_unique (here.data.trans data) (here.satp.trans satp) kept stored loaded
    obtain ⟨r', left', loads⟩ := done' ram
    refine ⟨r', left', ?_⟩
    have bytes : ∀ i < op.width.bytes,
        a'.memory.ram (Memory.ramIndex ha' + i) = byteAt (a.state.gpr rs2) i := by
      rw [here.ram]
      exact stores.memory.bytes
    rw [loads.state, value_load op bytes]
  reached _ reached := ⟨reached.current, reached.zero⟩

/-! ### A halfword that is stored and loaded -/

/-- `sh a0, 8(ra)`. -/
def shA0 : MemInstr := .store .h 10 1 8

/-- `lhu a1, 8(ra)`. -/
def lhuA1 : MemInstr := .load .lhu 11 1 8

/-- The two in RAM, with `ra` in RAM too, at the first of them. -/
def shThenLhu : RiscvArch Unit :=
  let arch := RiscvArch.reset archCfg (imageOf [shA0.word, lhuA1.word])
  { arch with state := (arch.state.set (.gpr 1) 0x80000100).set (.gpr 10) 0xfedc8001 }

/-- What the fetch and the decoding of both give, with the commit between them. -/
def shThenLhuRun : Except Abort ((Bool × RiscvArch Unit × DecodeInfo) ×
    (RiscvArch Unit × DecodeInfo) × (Word × RiscvArch Unit) ×
    (Bool × RiscvArch Unit × DecodeInfo) × (RiscvArch Unit × DecodeInfo)) := do
  let f ← shThenLhu.fetch (ramOnly 4096) 0x80000000 .zero
  let d ← shThenLhu.decode (ramOnly 4096) 0x80000000 0x80000000 .zero
  let r ← d.1.updateEnv (ramOnly 4096) d.2
  let f' ← r.2.fetch (ramOnly 4096) 0x80000004 .zero
  let d' ← r.2.decode (ramOnly 4096) 0x80000004 0x80000004 .zero
  return (f, d, r, f', d')

/-- Both are what they are in RAM, and raise nothing. -/
theorem shThenLhuRun_passes : shThenLhuRun.toOption.any (fun x =>
    x.1.1 == shA0.rvc && x.1.2.2.inst == shA0.word && x.2.1.2.exception == excNone &&
      x.1.2.1.physical (ramOnly 4096) (shA0.address x.1.2.1.state) .sfetch == some 0x80000108 &&
      x.1.2.1.dataMmuState == false && x.2.2.2.1.1 == lhuA1.rvc &&
      x.2.2.2.1.2.2.inst == lhuA1.word && x.2.2.2.2.2.exception == excNone &&
      lhuA1.address x.2.2.2.1.2.1.state == shA0.address x.1.2.1.state &&
      x.1.2.1.state.gpr 10 == 0xfedc8001) = true := by
  decide +kernel

/-- The load finds the low half of `a0`, extended with zeros. -/
theorem accessLaws_shThenLhu : ∃ f d r f' d' r', shThenLhuRun = .ok (f, d, r, f', d') ∧
    d'.1.updateEnv (ramOnly 4096) d'.2 = .ok r' ∧
    r'.2.state = (f'.2.1.state.set (.gpr 11) 0x8001).set (.gpr 0) 0 := by
  have passes := shThenLhuRun_passes
  cases whole : shThenLhuRun with
  | error e =>
      rw [whole] at passes
      cases passes
  | ok x =>
      obtain ⟨⟨rvc, a, i⟩, d, r, ⟨rvc', a', i'⟩, d'⟩ := x
      rw [whole] at passes
      simp only [Except.toOption, Option.any_some, Bool.and_eq_true, beq_iff_eq] at passes
      obtain ⟨⟨⟨⟨⟨⟨⟨⟨⟨first, word⟩, silent⟩, place⟩, off⟩, second⟩, word'⟩, silent'⟩, same⟩,
        held⟩ := passes
      simp only [shThenLhuRun, bind_eq_ok] at whole
      obtain ⟨_, fetched, _, decoded, _, left, _, fetched', _, decoded', result⟩ := whole
      cases result
      subst first second
      have current : MmuStateCurrent shThenLhu := ⟨by decide +kernel, by decide +kernel⟩
      obtain ⟨r', left', state⟩ := (accessLaws (ramOnly 4096)).readBack shA0 lhuA1 .lhu 10 11
        shThenLhu a r.2 a' 0x80000000 0x80000000 0x80000004 0x80000004 0x80000108 d d' r rfl rfl
        current ⟨⟨.zero, ⟨i, fetched, word⟩, decoded⟩, silent⟩ place ⟨rfl, by decide⟩ left
        ⟨rfl, rfl, rfl, rfl, rfl, rfl⟩ ⟨⟨.zero, ⟨i', fetched', word'⟩, decoded'⟩, silent'⟩ same
        (fun on => absurd (on.symm.trans off) (by decide))
      refine ⟨_, d, r, _, d', r', rfl, left', ?_⟩
      rw [state, held]
      rfl

end MemInstr

end CPUDelaySim.Riscv
