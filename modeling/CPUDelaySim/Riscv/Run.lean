import CPUDelaySim.Riscv.DecodeSpec

/-!
# Runs of the machine

A processor model drives `RiscvArch` by calls, and the devices and the clock move
between them.  `Machine` is `RiscvArch` with the record `env->info` points at, a call
is a step, and a run is any sequence of calls from reset: every driver, whatever it
predicts or squashes, makes one of these runs.

The drivers reuse their `DecodeInfo` records.  A call that fills one takes the contents
it happens to hold as an argument, so a run may pass it anything.

The model keeps the calls apart that the source lets a driver make in any order.  The lemmas
`…_get` and `…_avoids` are the interface for invariants: which words of the state a call may
change, and which aborts it cannot end in.  `updateEnv_cases` is the inversion of `updateEnv`, and
every invariant over runs goes through it.

`Keeps` is a first such invariant, kept general for use elsewhere: a set of modes, and a set of
codes that records carry in them.
-/

namespace CPUDelaySim.Riscv

open RiscvArch

/-- `RiscvArch` and the record `env->info` points at; the pointer starts out null. -/
structure Machine (δ : Type) where
  arch : RiscvArch δ
  info : Option DecodeInfo

/-- What happens to the machine between two states. -/
inductive Call (δ : Type)
  | decode (vaddr paddr : Word) (slot : DecodeInfo)
  | handleException (exception paddr : Word) (slot : DecodeInfo)
  | translateAddr (vaddr : Word) (type : FetchType)
  | updateEnv
  /-- A device ticks and may publish an interrupt vector; the counters move. -/
  | environment (dev : δ) (irq : Option Word) (tick instret : Word)

namespace Machine

variable {δ : Type}

/-- The machine after `afterLoad` and `initConfig`. -/
def reset (config : List (StateWord × Word)) (memory : Memory δ) : Machine δ :=
  ⟨RiscvArch.reset config memory, none⟩

/-- One call. -/
def step (P : Platform δ) (m : Machine δ) : Call δ → Except Abort (Machine δ)
  | .decode vaddr paddr slot => do
      let (arch, info) ← m.arch.decode P vaddr paddr slot
      return ⟨arch, some info⟩
  | .handleException exception paddr slot =>
      if exception = excIPF then
        let r := m.arch.handleException exception paddr slot
        .ok ⟨r.1, some r.2⟩
      else .ok m
  | .translateAddr vaddr type => do
      let (_, _, arch) ← m.arch.translateAddr P vaddr type excNone
      return { m with arch := arch }
  | .updateEnv =>
      match m.info with
      | none => .error .nullPointer
      | some info => do
          let (_, arch) ← m.arch.updateEnv P info
          return { m with arch := arch }
  | .environment dev irq tick instret =>
      let arch : RiscvArch δ :=
        { m.arch with
          memory := { m.arch.memory with dev := dev }, tick := tick, instret := instret }
      .ok { m with arch := arch.irqListener irq }

/-- The privilege mode of the machine. -/
def priv (m : Machine δ) : Word := m.arch.state.get .priv

/-- The next `updateEnv` executes a record with this code. -/
def Executes (m : Machine δ) (code : Word) : Prop :=
  ∃ info, m.info = some info ∧ info.exception = code

/-- The calls that execute the word at an untranslated pc. -/
def execAt (pc : Word) : List (Call δ) := [.decode pc pc .zero, .updateEnv]

end Machine

/-- A platform with `size` bytes of RAM, no device and no soft-float library. -/
def ramOnly (size : Nat) : Platform Unit where
  map := { size := size, devices := [] }
  float := ⟨fun _ _ _ _ => none⟩
  junk := 0

/-- RAM that starts with the given little-endian words. -/
def imageOf (words : List (BitVec 32)) : Memory Unit where
  ram a := byteAt ((words.getD (a / 4) 0).setWidth 64) (a % 4)
  dev := ()

/-- `arch.cfg`, as the configurations under `configs/` have it. -/
def archCfg : List (StateWord × Word) :=
  [(.misa, 9223372036856090927), (.mstatus, 42949672960), (.priv, 3)]

/-! ### Steps -/

namespace RiscvArch

variable {δ : Type}

/-- `updateMMUState` writes the cached translation state only. -/
@[simp] theorem updateMMUState_state (arch : RiscvArch δ) :
    arch.updateMMUState.state = arch.state := rfl

/-- A published interrupt vector moves `mip` only. -/
theorem irqListener_get (arch : RiscvArch δ) (irq : Option Word) {w : StateWord}
    (apart : w ≠ .mip) : (arch.irqListener irq).state.get w = arch.state.get w := by
  cases irq with
  | none => rfl
  | some mip => exact ArchState.get_set_of_ne _ _ apart

/-- A write may reach a device, and through it `mip`. -/
theorem paddrWrite_get (P : Platform δ) (arch : RiscvArch δ) (paddr : Word) (size : Nat)
    (data : Word) {w : StateWord} (apart : w ≠ .mip) :
    Returns (arch.paddrWrite P paddr size data) fun a =>
      a.state.get w = arch.state.get w := by
  simp only [paddrWrite, returns_bind, returns_pure]
  intro r _
  exact irqListener_get _ r.2 apart

/-- The store of a memory operand changes no register but `mip`. -/
theorem storeOperand_get (P : Platform δ) (arch : RiscvArch δ) (paddr : Word)
    (size : BitVec 16) (data : Word) {w : StateWord} (apart : w ≠ .mip) :
    Returns (storeOperand P arch paddr size data) fun a =>
      a.state.get w = arch.state.get w := by
  unfold storeOperand
  split
  · exact returns_error _ _
  · exact paddrWrite_get P arch paddr _ data apart

/-- The memory write of a commit leaves the state words, `mip` apart. -/
theorem commitMemory_get (P : Platform δ) (arch : RiscvArch δ) (info : DecodeInfo)
    {w : StateWord} (apart : w ≠ .mip) :
    Returns (commitMemory P arch info) fun a => a.state.get w = arch.state.get w := by
  unfold commitMemory
  split
  · exact storeOperand_get P arch _ _ _ apart
  · exact storeOperand_get P arch _ _ _ apart
  · split
    · rw [returns_bind]
      refine (translateAddr_frame P arch _ .sfetch _).mono ?_
      rintro ⟨ha, exception, a⟩ translated
      refine (storeOperand_get P a ha _ _ apart).mono ?_
      intro a' stored
      exact stored.trans (translated.get apart)
    · exact (returns_ok _ _).2 rfl
  · exact (returns_ok _ _).2 rfl

/-- A commit leaves the words as its commit loop leaves them. -/
theorem commit_get_of (P : Platform δ) (arch : RiscvArch δ) (info : DecodeInfo) {w : StateWord}
    {v : Word} (kept : Returns (commitDsts arch.state info) fun s => s.get w = v)
    (mip : w ≠ .mip) (zero : w ≠ .gpr 0) :
    Returns (arch.commit P info) fun r => r.2.state.get w = v := by
  simp only [commit, returns_bind, returns_pure]
  intro s committed
  refine (commitMemory_get P _ info mip).mono ?_
  intro a stored
  rw [updateMMUState_state, ArchState.get_set_of_ne _ _ zero, stored]
  exact kept s committed

/-- A commit leaves the words its destinations are apart from. -/
theorem commit_get (P : Platform δ) (arch : RiscvArch δ) (info : DecodeInfo) {w : StateWord}
    (apart : Apart info w) (mip : w ≠ .mip) (zero : w ≠ .gpr 0) :
    Returns (arch.commit P info) fun r => r.2.state.get w = arch.state.get w :=
  commit_get_of P arch info (fun _ committed => commitDsts_get committed apart) mip zero

/-- The configuration leaves the words that it has no name for. -/
theorem initConfig_get (s : ArchState) (config : List (StateWord × Word)) {w : StateWord}
    (unnamed : w ∉ configWords) : (initConfig s config).get w = s.get w := by
  induction config generalizing s with
  | nil => rfl
  | cons entry config ih =>
      change (initConfig (if entry.1 ∈ configWords then s.set entry.1 entry.2 else s)
        config).get w = _
      rw [ih]
      split
      · rename_i named
        refine ArchState.get_set_of_ne _ _ ?_
        rintro rfl
        exact unnamed named
      · rfl

/-! ### Why a commit stops

A translation can only overrun the `ram` array; a commit can also find a destination
outside the state, or a store wider than its operand. -/

/-- A read ends in no abort but the one outside RAM. -/
theorem paddrRead_avoids {e : Abort} (ram : e ≠ .ramOverrun) (P : Platform δ)
    (arch : RiscvArch δ) (paddr : Word) (size : Nat) (buf : Word) :
    Avoids e (arch.paddrRead P paddr size buf) := by
  simp only [paddrRead, avoids_bind, avoids_pure]
  refine ⟨?_, fun _ _ => trivial⟩
  rcases Memory.paddrRead_cases P.map arch.memory paddr size buf with ⟨-, r, h⟩ | ⟨-, h⟩
  · rw [h]; exact avoids_ok _ _
  · rw [h, avoids_error]; exact ram.symm

/-- A write ends in no abort but the one outside RAM. -/
theorem paddrWrite_avoids {e : Abort} (ram : e ≠ .ramOverrun) (P : Platform δ)
    (arch : RiscvArch δ) (paddr : Word) (size : Nat) (data : Word) :
    Avoids e (arch.paddrWrite P paddr size data) := by
  simp only [paddrWrite, avoids_bind, avoids_pure]
  refine ⟨?_, fun _ _ => trivial⟩
  rcases Memory.paddrWrite_cases P.map arch.memory paddr size data with ⟨-, r, h⟩ | ⟨-, h⟩
  · rw [h]; exact avoids_ok _ _
  · rw [h, avoids_error]; exact ram.symm

/-- One level of a walk reads once. -/
theorem walkTurn_avoids {e : Abort} (ram : e ≠ .ramOverrun) (P : Platform δ) (vaddr : Word)
    (level : Nat) (paddr : Word) (arch : RiscvArch δ) :
    Avoids e (walkTurn P vaddr level paddr arch) := by
  simp only [walkTurn, avoids_bind]
  refine ⟨paddrRead_avoids ram P arch _ 8 _, ?_⟩
  rintro ⟨val, plain, a⟩ _
  cases plain with
  | false => exact avoids_pure _ _
  | true => cases classify ⟨val⟩ <;> exact avoids_pure _ _

/-- A walk is a sequence of reads. -/
theorem walk_avoids {e : Abort} (ram : e ≠ .ramOverrun) (P : Platform δ) (vaddr : Word)
    (level : Nat) (paddr : Word) (arch : RiscvArch δ) :
    Avoids e (walk P vaddr level paddr arch) := by
  induction level generalizing paddr arch with
  | zero =>
      rw [walk, avoids_bind]
      refine ⟨walkTurn_avoids ram P vaddr 0 paddr arch, ?_⟩
      intro turn _
      cases turn <;> exact avoids_pure _ _
  | succ level ih =>
      rw [walk, avoids_bind]
      refine ⟨walkTurn_avoids ram P vaddr (level + 1) paddr arch, ?_⟩
      intro turn _
      cases turn with
      | done r => exact avoids_pure _ _
      | next paddr a => exact ih paddr a

/-- A translation is a walk, if it is anything. -/
theorem translateAddr_avoids {e : Abort} (ram : e ≠ .ramOverrun) (P : Platform δ)
    (arch : RiscvArch δ) (vaddr : Word) (type : FetchType) (exception : Word) :
    Avoids e (arch.translateAddr P vaddr type exception) := by
  unfold translateAddr
  split
  · exact avoids_pure _ _
  · rw [avoids_bind]
    refine ⟨walk_avoids ram P vaddr 2 _ arch, ?_⟩
    intro r _
    cases r.leaf with
    | none => exact avoids_pure _ _
    | some leaf =>
        dsimp only
        split_ifs <;> exact avoids_pure _ _

/-- A destination is written, or its offset is bad. -/
theorem commitDst_avoids {e : Abort} (offset : e ≠ .badOffset) (s : ArchState) (d : Dst) :
    Avoids e (s.commit d) := by
  unfold ArchState.commit
  split
  · exact avoids_ok _ _
  · split
    · exact avoids_ok _ _
    · rw [avoids_error]; exact offset.symm

/-- A memory operand is stored, or it is outside RAM, or it is wider than its field. -/
theorem storeOperand_avoids {e : Abort} (ram : e ≠ .ramOverrun) (wide : e ≠ .infoOverrun)
    (P : Platform δ) (arch : RiscvArch δ) (paddr : Word) (size : BitVec 16) (data : Word) :
    Avoids e (storeOperand P arch paddr size data) := by
  unfold storeOperand
  split
  · rw [avoids_error]; exact wide.symm
  · exact paddrWrite_avoids ram P arch paddr _ data

/-- The memory operands of a record, one after the other. -/
theorem commitMemory_avoids {e : Abort} (ram : e ≠ .ramOverrun) (wide : e ≠ .infoOverrun)
    (P : Platform δ) (arch : RiscvArch δ) (info : DecodeInfo) :
    Avoids e (commitMemory P arch info) := by
  unfold commitMemory
  split
  · exact storeOperand_avoids ram wide P arch _ _ _
  · exact storeOperand_avoids ram wide P arch _ _ _
  · split
    · rw [avoids_bind]
      refine ⟨translateAddr_avoids ram P arch _ .sfetch _, ?_⟩
      rintro ⟨ha, exception, a⟩ _
      exact storeOperand_avoids ram wide P a _ _ _
    · exact avoids_ok _ _
  · exact avoids_ok _ _

/-- The commit of a record aborts for what one of its parts aborts for. -/
theorem commit_avoids {e : Abort} (ram : e ≠ .ramOverrun) (wide : e ≠ .infoOverrun)
    (offset : e ≠ .badOffset) (P : Platform δ) (arch : RiscvArch δ) (info : DecodeInfo) :
    Avoids e (arch.commit P info) := by
  simp only [commit, commitDsts, avoids_bind, returns_bind, avoids_pure]
  refine ⟨⟨commitDst_avoids offset _ _, fun s _ => ⟨commitDst_avoids offset _ _, ?_⟩⟩, ?_⟩
  · exact fun s _ => commitDst_avoids offset _ _
  · exact fun s _ s' _ s'' _ => ⟨commitMemory_avoids ram wide P _ info, fun _ _ => trivial⟩

/-! ### Trap entry -/

/-- The words trap entry writes. -/
def trapWords : List StateWord :=
  [.stval, .sepc, .scause, .mtval, .mepc, .mcause, .mstatus, .priv]

/-- `xcause`, `xepc` and `xtval` of the mode the trap enters. -/
def TrapRegisters (s : ArchState) (delegated : Prop) (cause epc tval : Word) : Prop :=
  (delegated → s.get .scause = cause ∧ s.get .sepc = epc ∧ s.get .stval = tval) ∧
    (¬ delegated → s.get .mcause = cause ∧ s.get .mepc = epc ∧ s.get .mtval = tval)

/-- A trap to supervisor mode writes the words of a trap only. -/
theorem trapS_get (s : ArchState) (pc cause tval : Word) {w : StateWord}
    (other : w ∉ trapWords) : (trapS s pc cause tval).get w = s.get w := by
  simp only [trapWords, List.mem_cons, List.not_mem_nil, or_false, not_or] at other
  obtain ⟨h1, h2, h3, -, -, -, h4, h5⟩ := other
  simp [trapS, ArchState.get_set_of_ne, h1, h2, h3, h4, h5]

/-- A trap to machine mode writes the words of a trap only. -/
theorem trapM_get (s : ArchState) (pc cause tval : Word) {w : StateWord}
    (other : w ∉ trapWords) : (trapM s pc cause tval).get w = s.get w := by
  simp only [trapWords, List.mem_cons, List.not_mem_nil, or_false, not_or] at other
  obtain ⟨-, -, -, h1, h2, h3, h4, h5⟩ := other
  simp [trapM, ArchState.get_set_of_ne, h1, h2, h3, h4, h5]

/-- A trap writes the registers of the mode it enters, and no other word. -/
theorem trap_get (arch : RiscvArch δ) (info : DecodeInfo) (tval : Word) {w : StateWord}
    (other : w ∉ trapWords) : (arch.trap info tval).2.state.get w = arch.state.get w := by
  unfold trap
  split
  · exact trapS_get _ _ _ _ other
  · exact trapM_get _ _ _ _ other

/-- A trap does not touch the memory. -/
theorem trap_memory (arch : RiscvArch δ) (info : DecodeInfo) (tval : Word) :
    (arch.trap info tval).2.memory = arch.memory := by
  unfold trap
  split <;> rfl

/-- What a trap leaves in its registers, whichever mode it goes to. -/
theorem trap_registers (arch : RiscvArch δ) (info : DecodeInfo) (tval : Word) :
    TrapRegisters (arch.trap info tval).2.state (edelegValid arch.state info = true)
      info.exception arch.pc tval := by
  unfold trap
  split
  · rename_i delegated
    refine ⟨fun _ => ?_, fun h => absurd delegated h⟩
    simp [trapS, ArchState.get_set]
  · rename_i direct
    refine ⟨fun h => absurd h direct, fun _ => ?_⟩
    simp [trapM, ArchState.get_set]

/-- The privilege a trap enters is S or M. -/
theorem trap_priv (arch : RiscvArch δ) (info : DecodeInfo) (tval : Word) :
    (arch.trap info tval).2.state.get .priv = modeS ∨
      (arch.trap info tval).2.state.get .priv = modeM := by
  unfold trap
  split
  · exact .inl (ArchState.get_set_self _ _ _)
  · exact .inr (ArchState.get_set_self _ _ _)

/-- SRET takes the mode from two bits of `mstatus` from `SPP` on. -/
theorem doSret_priv (arch : RiscvArch δ) :
    arch.doSret.2.state.get .priv = (arch.state.get .mstatus >>> 8) &&& 0x3 := by
  simp [doSret, ArchState.get_set]

/-- MRET takes the mode from `MPP`. -/
theorem doMret_priv (arch : RiscvArch δ) :
    arch.doMret.2.state.get .priv = (arch.state.get .mstatus >>> 11) &&& 0x3 := by
  simp [doMret, ArchState.get_set]

end RiscvArch

/-! ### The cases of `updateEnv` -/

variable {δ : Type}

/-- A code with a case in `updateEnv` other than the error exits. -/
def HandledCode (code : Word) : Prop :=
  code.msb = true ∨ code ∈ faultCodes ∨ code ∈ callCodes ∨ code = excSRET ∨ code = excMRET ∨
    code = excNone

instance (code : Word) : Decidable (HandledCode code) := by unfold HandledCode; infer_instance

/-- The case of `updateEnv` that a record takes. -/
inductive UpdateCase (P : Platform δ) (arch : RiscvArch δ) (info : DecodeInfo) : Prop
  | trap (code : info.exception ≠ excNone) (tval : Word)
      (entered : arch.updateEnv P info = .ok (arch.trap info tval))
  | sret (code : info.exception = excSRET) (returned : arch.updateEnv P info = .ok arch.doSret)
  | mret (code : info.exception = excMRET) (returned : arch.updateEnv P info = .ok arch.doMret)
  | commit (code : info.exception = excNone)
      (committed : arch.updateEnv P info = arch.commit P info)
  | exit (unhandled : ¬ HandledCode info.exception)
      (stopped : arch.updateEnv P info = .error .exit)

/-- `updateEnv` traps, returns from a trap, commits the record or stops. -/
theorem updateEnv_cases (P : Platform δ) (arch : RiscvArch δ) (info : DecodeInfo) :
    UpdateCase P arch info := by
  by_cases irq : isIrq info
  · refine .trap ?_ 0 (by rw [updateEnv, if_pos irq])
    intro code
    rw [isIrq, code] at irq
    cases irq
  by_cases double : info.exception ∈ [excDT, excSC, excHE]
  · refine .exit ?_ (by rw [updateEnv, if_neg irq, if_pos double])
    simp only [List.mem_cons, List.not_mem_nil, or_false] at double
    rcases double with h | h | h <;> rw [h] <;> decide
  by_cases fault : info.exception ∈ faultCodes
  · refine .trap ?_ info.excData (by rw [updateEnv, if_neg irq, if_neg double, if_pos fault])
    intro code
    rw [code] at fault
    exact absurd fault (by decide)
  by_cases call : info.exception ∈ callCodes
  · refine .trap ?_ 0 (by rw [updateEnv, if_neg irq, if_neg double, if_neg fault, if_pos call])
    intro code
    rw [code] at call
    exact absurd call (by decide)
  by_cases sret : info.exception = excSRET
  · exact .sret sret
      (by rw [updateEnv, if_neg irq, if_neg double, if_neg fault, if_neg call, if_pos sret])
  by_cases mret : info.exception = excMRET
  · exact .mret mret (by
      rw [updateEnv, if_neg irq, if_neg double, if_neg fault, if_neg call, if_neg sret,
        if_pos mret])
  by_cases none : info.exception = excNone
  · exact .commit none (by
      rw [updateEnv, if_neg irq, if_neg double, if_neg fault, if_neg call, if_neg sret,
        if_neg mret, if_pos none])
  · refine .exit ?_ (by
      rw [updateEnv, if_neg irq, if_neg double, if_neg fault, if_neg call, if_neg sret,
        if_neg mret, if_neg none])
    rintro (h | h | h | h | h | h)
    · exact irq h
    · exact fault h
    · exact call h
    · exact sret h
    · exact mret h
    · exact none h

/-- The record of an SRET is returned from. -/
theorem updateEnv_sret (P : Platform δ) (arch : RiscvArch δ) {info : DecodeInfo}
    (code : info.exception = excSRET) : arch.updateEnv P info = .ok arch.doSret := by
  rw [updateEnv, if_neg, if_neg, if_neg, if_neg, if_pos code]
  all_goals first | rw [isIrq, code] | rw [code]
  all_goals decide

/-- The record of an MRET is returned from. -/
theorem updateEnv_mret (P : Platform δ) (arch : RiscvArch δ) {info : DecodeInfo}
    (code : info.exception = excMRET) : arch.updateEnv P info = .ok arch.doMret := by
  rw [updateEnv, if_neg, if_neg, if_neg, if_neg, if_neg, if_pos code]
  all_goals first | rw [isIrq, code] | rw [code]
  all_goals decide

/-- Without an exception `updateEnv` commits the record. -/
theorem updateEnv_commit (P : Platform δ) (arch : RiscvArch δ) {info : DecodeInfo}
    (code : info.exception = excNone) : arch.updateEnv P info = arch.commit P info := by
  rcases updateEnv_cases P arch info with
    ⟨other, -, -⟩ | ⟨other, -⟩ | ⟨other, -⟩ | ⟨-, h⟩ | ⟨other, -⟩
  · exact absurd code other
  · exact absurd (other.symm.trans code) (by decide)
  · exact absurd (other.symm.trans code) (by decide)
  · exact h
  · rw [code] at other
    exact absurd (by decide) other

/-- No fault has the bit of an interrupt. -/
theorem faultCodes_msb {code : Word} (fault : code ∈ faultCodes) : code.msb = false := by
  simp only [faultCodes, List.mem_cons, List.not_mem_nil, or_false] at fault
  rcases fault with rfl | rfl | rfl | rfl | rfl | rfl | rfl | rfl <;> rfl

/-- A fault traps with what the record holds in `exc_data`. -/
theorem updateEnv_fault (P : Platform δ) (a : RiscvArch δ) {info : DecodeInfo}
    (fault : info.exception ∈ faultCodes) :
    a.updateEnv P info = .ok (a.trap info info.excData) := by
  have sync : ¬ isIrq info = true := by
    rw [isIrq, faultCodes_msb fault]
    nofun
  have single : info.exception ∉ [excDT, excSC, excHE] := by
    simp only [faultCodes, List.mem_cons, List.not_mem_nil, or_false] at fault
    rcases fault with h | h | h | h | h | h | h | h <;> rw [h] <;> decide
  rw [updateEnv, if_neg sync, if_neg single, if_pos fault]

/-! ### Invariants of runs -/

/-- U, S or M. -/
def LegalPriv (priv : Word) : Prop := priv = modeU ∨ priv = modeS ∨ priv = modeM

instance (priv : Word) : Decidable (LegalPriv priv) := by unfold LegalPriv; infer_instance

/-- Two bits of a word, as a word. -/
theorem and_three (v : Word) : v &&& 0x3 = (v.setWidth 2).setWidth 64 := by
  apply BitVec.eq_of_getLsbD_eq
  intro i bound
  rw [BitVec.getLsbD_and, show (0x3 : Word) = (BitVec.allOnes 2).setWidth 64 from rfl,
    BitVec.getLsbD_setWidth, BitVec.getLsbD_setWidth, BitVec.getLsbD_setWidth,
    BitVec.getLsbD_allOnes]
  cases v.getLsbD i <;> simp [bound]

namespace Machine

/-- The mode is one of `modes`, the record's code one of `codes`, and a record that is
to be committed leaves the mode alone. -/
structure Keeps (modes codes : Word → Prop) (m : Machine δ) : Prop where
  priv : modes m.priv
  apart : ∀ info, m.info = some info → info.exception = excNone → Apart info .priv
  code : ∀ info, m.info = some info → codes info.exception

/-- Traps enter `modes`, and every code that can be left in them is in `codes`. -/
structure Closed (modes codes : Word → Prop) : Prop where
  enterS : modes modeS
  enterM : modes modeM
  fault : codes excIPF
  decoded : ∀ priv code, modes priv → decodeCode priv code → codes code

/-- The mode that a return of the next step loads is one of `modes`. -/
def ReturnsInto (modes : Word → Prop) (m : Machine δ) : Prop :=
  (m.Executes excMRET → modes ((m.arch.state.get .mstatus >>> 11) &&& 0x3)) ∧
    (m.Executes excSRET → modes ((m.arch.state.get .mstatus >>> 8) &&& 0x3))

section Keeps

variable {modes codes : Word → Prop} {m : Machine δ}

/-- A machine with a record keeps its mode if the record does not write it. -/
theorem keeps_record {arch : RiscvArch δ} {info : DecodeInfo}
    (priv : modes (arch.state.get .priv))
    (apart : info.exception = excNone → Apart info .priv) (code : codes info.exception) :
    Keeps modes codes ⟨arch, some info⟩ where
  priv := priv
  apart _ h := by cases h; exact apart
  code _ h := by cases h; exact code

/-- Another state of the same mode, with the same record. -/
theorem Keeps.with_arch (kept : m.Keeps modes codes) {arch : RiscvArch δ}
    (priv : modes (arch.state.get .priv)) : Keeps modes codes { m with arch := arch } :=
  ⟨priv, kept.apart, kept.code⟩

/-- `updateEnv` changes the mode by traps and returns only. -/
theorem updateEnv_keeps (closed : Closed modes codes) (P : Platform δ)
    (kept : m.Keeps modes codes) (returns : m.ReturnsInto modes) :
    Returns (m.step P .updateEnv) (Keeps modes codes) := by
  simp only [step]
  cases record : m.info with
  | none => exact returns_error _ _
  | some info =>
      simp only [returns_bind, returns_pure]
      have keep : Returns (m.arch.updateEnv P info) fun r =>
          modes (r.2.state.get .priv) := by
        rcases updateEnv_cases P m.arch info with
          ⟨-, tval, h⟩ | ⟨code, h⟩ | ⟨code, h⟩ | ⟨code, h⟩ | ⟨-, h⟩
        · rw [h, returns_ok]
          rcases trap_priv m.arch info tval with entered | entered
          · rw [entered]
            exact closed.enterS
          · rw [entered]
            exact closed.enterM
        · rw [h, returns_ok, doSret_priv]
          exact returns.2 ⟨info, record, code⟩
        · rw [h, returns_ok, doMret_priv]
          exact returns.1 ⟨info, record, code⟩
        · rw [h]
          have apart := kept.apart info record code
          refine (commit_get P m.arch info apart (by decide) (by decide)).mono ?_
          intro r same
          rw [same]
          exact kept.priv
        · rw [h]
          exact returns_error _ _
      refine keep.mono ?_
      intro r priv
      exact ⟨priv, fun _ h => kept.apart _ (record.trans h),
        fun _ h => kept.code _ (record.trans h)⟩

/-- Every call keeps the modes and the codes, if the return it executes does. -/
theorem step_keeps (closed : Closed modes codes) (P : Platform δ)
    (kept : m.Keeps modes codes) (c : Call δ)
    (returns : c = .updateEnv → m.ReturnsInto modes) :
    Returns (m.step P c) (Keeps modes codes) := by
  cases c with
  | decode vaddr paddr slot =>
      simp only [step, returns_bind, returns_pure]
      refine (decode_spec P m.arch vaddr paddr slot).mono ?_
      rintro ⟨arch, info⟩ spec
      obtain ⟨b, apart⟩ := spec.apart
      refine keeps_record ?_ (fun _ => apart _ (not_targets_priv b))
        (closed.decoded _ _ kept.priv spec.code)
      rw [spec.frame.get .priv (by decide) (by decide) (by decide)]
      exact kept.priv
  | handleException exception paddr slot =>
      simp only [step]
      split
      · rename_i fault
        simp only [handleException, if_pos fault, returns_ok]
        subst fault
        exact keeps_record kept.priv (by intro code; cases code) closed.fault
      · exact (returns_ok _ _).2 kept
  | translateAddr vaddr type =>
      simp only [step, returns_bind, returns_pure]
      refine (translateAddr_frame P m.arch vaddr type excNone).mono ?_
      rintro ⟨paddr, exception, arch⟩ frame
      refine kept.with_arch ?_
      rw [frame.get (by decide)]
      exact kept.priv
  | updateEnv => exact updateEnv_keeps closed P kept (returns rfl)
  | environment dev irq tick instret =>
      refine (returns_ok _ _).2 (kept.with_arch ?_)
      rw [irqListener_get _ irq (by decide)]
      exact kept.priv

/-- A reset machine has no record. -/
theorem reset_keeps {config : List (StateWord × Word)}
    (priv : modes ((initConfig ArchState.zero config).get .priv)) (memory : Memory δ) :
    Keeps modes codes (reset config memory) where
  priv := priv
  apart _ h := by cases h
  code _ h := by cases h

end Keeps

/-- The states of the runs from reset, the configured mode being U, S or M. -/
def Reachable (P : Platform δ) (m : Machine δ) : Prop :=
  ∃ config memory calls, LegalPriv ((initConfig ArchState.zero config).get .priv) ∧
    runSteps (step P) (reset config memory) calls = .ok m

/-- A mode has two bits, whatever the returns load. -/
theorem Reachable.priv_lt {P : Platform δ} {m : Machine δ} (reached : m.Reachable P) :
    m.priv < 4 := by
  obtain ⟨config, memory, calls, legal, ran⟩ := reached
  have closed : Closed (· < 4) fun _ => True :=
    ⟨by decide, by decide, trivial, fun _ _ _ _ => trivial⟩
  have low (v : Word) : v &&& 0x3 < 4 := by
    rw [and_three]
    generalize v.setWidth 2 = u
    revert u
    decide
  have start : (initConfig ArchState.zero config).get .priv < 4 := by
    rcases legal with h | h | h <;> rw [h] <;> decide
  have kept := runSteps_invariant
    (fun m c (kept : Keeps (· < 4) (fun _ => True) m) =>
      step_keeps closed P kept c fun _ => ⟨fun _ => low _, fun _ => low _⟩)
    (reset_keeps start memory) calls
  exact (kept m ran).priv

/-- `x0` reads zero between calls: `updateEnv` clears it after a commit, and nothing else
writes a register. -/
theorem step_zero (P : Platform δ) {m : Machine δ} (zero : m.arch.state.get (.gpr 0) = 0)
    (c : Call δ) : Returns (m.step P c) fun m' => m'.arch.state.get (.gpr 0) = 0 := by
  cases c with
  | decode vaddr paddr slot =>
      simp only [step, returns_bind, returns_pure]
      refine (decode_spec P m.arch vaddr paddr slot).mono ?_
      intro r spec
      rw [spec.frame.get (.gpr 0) (by decide) (by decide) (by decide)]
      exact zero
  | handleException exception paddr slot =>
      simp only [step]
      split
      · rename_i fault
        rw [returns_ok, handleException, if_pos fault]
        exact zero
      · exact (returns_ok _ _).2 zero
  | translateAddr vaddr type =>
      simp only [step, returns_bind, returns_pure]
      refine (translateAddr_frame P m.arch vaddr type excNone).mono ?_
      intro r frame
      rw [frame.get (by decide)]
      exact zero
  | updateEnv =>
      simp only [step]
      cases m.info with
      | none => exact returns_error _ _
      | some info =>
          simp only [returns_bind, returns_pure]
          rcases updateEnv_cases P m.arch info with
            ⟨-, tval, h⟩ | ⟨-, h⟩ | ⟨-, h⟩ | ⟨-, h⟩ | ⟨-, h⟩
          · rw [h, returns_ok, trap_get _ _ _ (by decide)]
            exact zero
          · rw [h, returns_ok]
            exact zero
          · rw [h, returns_ok]
            exact zero
          · rw [h]
            simp only [RiscvArch.commit, returns_bind, returns_pure]
            intro s _ a _
            rw [updateMMUState_state, ArchState.get_set_self]
          · rw [h]
            exact returns_error _ _
  | environment dev irq tick instret =>
      refine (returns_ok _ _).2 ?_
      rw [irqListener_get _ irq (by decide)]
      exact zero

/-- `x0` is zero in every reachable machine. -/
theorem Reachable.zero {P : Platform δ} {m : Machine δ} (reached : m.Reachable P) :
    m.arch.state.get (.gpr 0) = 0 := by
  obtain ⟨config, memory, calls, -, ran⟩ := reached
  have start : (reset config memory).arch.state.get (.gpr 0) = 0 :=
    initConfig_get _ config (by decide)
  exact runSteps_invariant (fun m c zero => step_zero P zero c) start calls m ran

end Machine

end CPUDelaySim.Riscv
