import CPUDelaySim.Riscv.Run

/-!
# Trap entry

What `updateEnv` does with an interrupt or a synchronous exception, against the entry the
privileged architecture describes.  Two records of registers say where the two target
modes keep their trap state; `Enters` lists every change and what stays, once for both.

The trap is taken as described for every state and every cause but one.  `1 << exception_idx`
is an `int`, so the mask of interrupt 31 extends to the bits 32 to 63 of `mideleg`.

`TrapMode` is a record of names, so `Enters` is one statement for both modes and the proofs for S
and M differ in the bits of `mstatus` only (`StatusEntered`).  The frame is part of it: no word
but those listed has changed.
-/

namespace CPUDelaySim.Riscv

variable {δ : Type}

open RiscvArch

/-! ### Causes -/

/-- The synchronous codes the machine raises. -/
def syncCodes : List Nat := [2, 3, 4, 5, 6, 7, 8, 9, 11, 12, 13, 15]

/-- A trap's cause: an interrupt below 32, or a synchronous code. -/
structure TrapCause where
  irq : Bool
  number : Nat
  known : if irq then number < 32 else number ∈ syncCodes

namespace TrapCause

/-- No synchronous code is 31. -/
theorem irq_of_last (c : TrapCause) (last : c.number = 31) : c.irq = true := by
  obtain ⟨irq, number, known⟩ := c
  cases irq with
  | true => rfl
  | false =>
      subst last
      exact absurd known (by decide)

/-- The code the cause registers hold. -/
def code (c : TrapCause) : Word :=
  if c.irq then irqMask ||| BitVec.ofNat 64 c.number else BitVec.ofNat 64 c.number

/-- The trap value: nothing for interrupts, environment calls and breakpoints. -/
def tval (c : TrapCause) (excData : Word) : Word :=
  if c.irq || c.number ∈ [3, 8, 9, 11] then 0 else excData

/-- The cause's bit is set in the delegation register, below M. -/
def Delegated (c : TrapCause) (s : ArchState) : Prop :=
  s.get .priv ≠ modeM ∧ (s.get (if c.irq then .mideleg else .medeleg)).getLsbD c.number = true

instance (c : TrapCause) (s : ArchState) : Decidable (c.Delegated s) := by
  unfold Delegated; infer_instance

/-- A cause has five bits. -/
theorem number_lt (c : TrapCause) : c.number < 32 := by
  obtain ⟨irq, number, known⟩ := c
  cases irq with
  | true => exact known
  | false =>
      have small : ∀ n ∈ syncCodes, n < 32 := by decide
      exact small number known

end TrapCause

/-! ### The entry of a mode -/

/-- Where a mode keeps its trap state: four registers, and the fields of `mstatus`. -/
structure TrapMode where
  mode : Word
  epc : StateWord
  cause : StateWord
  tval : StateWord
  tvec : StateWord
  ie : Nat
  pie : Nat
  pp : Nat
  ppWidth : Nat

/-- The registers of a trap to supervisor mode. -/
def TrapMode.supervisor : TrapMode :=
  ⟨modeS, .sepc, .scause, .stval, .stvec, 1, 5, 8, 1⟩

/-- The registers of a trap to machine mode. -/
def TrapMode.machine : TrapMode :=
  ⟨modeM, .mepc, .mcause, .mtval, .mtvec, 3, 7, 11, 2⟩

/-- The words an entry writes. -/
def TrapMode.words (t : TrapMode) : List StateWord := [t.epc, t.cause, t.tval, .mstatus, .priv]

/-- `mstatus` after an entry from `priv`: the interrupt enable is stacked and cleared, and
`priv` becomes the previous mode. -/
def TrapMode.StatusEntered (t : TrapMode) (priv mstatus mstatus' : Word) : Prop :=
  ∀ i < 64, mstatus'.getLsbD i =
    if i = t.ie then false
    else if i = t.pie then mstatus.getLsbD t.ie
    else if t.pp ≤ i ∧ i < t.pp + t.ppWidth then priv.getLsbD (i - t.pp)
    else mstatus.getLsbD i

/-- The address a cause is sent to. -/
def TrapCause.target (c : TrapCause) (tvec : Word) : Word :=
  let base := tvec &&& ~~~3
  if c.irq ∧ tvec &&& 3 ≠ 0 then base + 4 * BitVec.ofNat 64 c.number else base

/-- The machine takes the trap `c` from `a` into the mode `t`, at the next pc `r.1`. -/
structure TrapMode.Enters (t : TrapMode) (c : TrapCause) (excData : Word) (a : RiscvArch δ)
    (r : Word × RiscvArch δ) : Prop where
  epc : r.2.state.get t.epc = a.pc
  cause : r.2.state.get t.cause = c.code
  tval : r.2.state.get t.tval = c.tval excData
  status : t.StatusEntered (a.state.get .priv) (a.state.get .mstatus) (r.2.state.get .mstatus)
  priv : r.2.state.get .priv = t.mode
  raised : a.state.get .priv ≤ t.mode
  target : r.1 = c.target (a.state.get t.tvec)
  frame : ∀ w, w ∉ t.words → r.2.state.get w = a.state.get w
  memory : r.2.memory = a.memory

/-! ### The status word -/

/-- The status word both branches of `updateEnv` compute, bit by bit. -/
theorem stacked_getLsbD {ie pp width : Nat} {m priv mask pie : Word} (apart : ie + 4 < pp)
    (low : priv.toNat < 2 ^ width)
    (masked : ∀ i < 64, mask.getLsbD i =
      decide (i = ie ∨ i = ie + 4 ∨ pp ≤ i ∧ i < pp + width))
    (stacked : ∀ i < 64, pie.getLsbD i = decide (i = ie + 4)) {i : Nat} (bound : i < 64) :
    ((m &&& ~~~mask) ||| (priv <<< pp) ||| ((m <<< 4) &&& pie)).getLsbD i =
      if i = ie then false
      else if i = ie + 4 then m.getLsbD ie
      else if pp ≤ i ∧ i < pp + width then priv.getLsbD (i - pp)
      else m.getLsbD i := by
  have high {j : Nat} (h : width ≤ j) : priv.getLsbD j = false :=
    Nat.testBit_lt_two_pow (Nat.lt_of_lt_of_le low (Nat.pow_le_pow_right (by decide) h))
  simp only [BitVec.getLsbD_or, BitVec.getLsbD_and, BitVec.getLsbD_not, BitVec.getLsbD_shiftLeft,
    masked i bound, stacked i bound, bound, decide_true, Bool.true_and]
  by_cases enable : i = ie
  · simp [enable, show ie < pp by omega]
  by_cases previous : i = ie + 4
  · simp [previous, apart]
  by_cases inside : pp ≤ i ∧ i < pp + width
  · simp [enable, previous, inside]
  · have outside : i < pp ∨ priv.getLsbD (i - pp) = false := by
      by_cases below : i < pp
      · exact .inl below
      · exact .inr (high (by omega))
    rcases outside with below | outside
    · simp [enable, previous, inside, below]
    · simp [enable, previous, inside, outside]

/-- What a trap to supervisor mode does to `mstatus`, seen from the modes below. -/
theorem trapS_mstatus (s : ArchState) (pc cause tval : Word)
    (low : s.get .priv = modeU ∨ s.get .priv = modeS) :
    TrapMode.supervisor.StatusEntered (s.get .priv) (s.get .mstatus)
      ((trapS s pc cause tval).get .mstatus) := by
  have bit : (s.get .priv).toNat < 2 ^ 1 := by
    rcases low with h | h <;> rw [h] <;> decide
  intro i bound
  exact stacked_getLsbD (by decide) bit (by decide) (by decide) bound

/-- What a trap to machine mode does to `mstatus`. -/
theorem trapM_mstatus (s : ArchState) (pc cause tval : Word) (legal : LegalPriv (s.get .priv)) :
    TrapMode.machine.StatusEntered (s.get .priv) (s.get .mstatus)
      ((trapM s pc cause tval).get .mstatus) := by
  have bits : (s.get .priv).toNat < 2 ^ 2 := by
    rcases legal with h | h | h <;> rw [h] <;> decide
  intro i bound
  exact stacked_getLsbD (by decide) bits (by decide) (by decide) bound

/-! ### Delegation -/

namespace TrapCause

variable {info : DecodeInfo}

/-- The bit of an interrupt in the code of a cause. -/
theorem isIrq_of_code (c : TrapCause) (code : info.exception = c.code) : isIrq info = c.irq := by
  have small : ∀ n : Fin 32, (irqMask ||| BitVec.ofNat 64 n.1).msb = true ∧
      (BitVec.ofNat 64 n.1).msb = false := by decide
  rw [isIrq, code, TrapCause.code]
  cases c.irq with
  | true => exact (small ⟨c.number, c.number_lt⟩).1
  | false => exact (small ⟨c.number, c.number_lt⟩).2

/-- `exception_mask` is the cause's bit, and for 31 all bits from there. -/
theorem exceptionMask_of_code (c : TrapCause) (code : info.exception = c.code) :
    exceptionMask info =
      if c.number = 31 then 0xffffffff80000000 else BitVec.twoPow 64 c.number := by
  have number : ∀ n : Fin 32, ((irqMask ||| BitVec.ofNat 64 n.1) &&& ~~~irqMask).toNat = n.1 ∧
      (BitVec.ofNat 64 n.1 &&& ~~~irqMask).toNat = n.1 := by decide
  have mask : ∀ n : Fin 32, (1#32 <<< n.1).signExtend 64 =
      if n.1 = 31 then 0xffffffff80000000 else BitVec.twoPow 64 n.1 := by decide
  have index : (info.exception &&& ~~~irqMask).toNat = c.number := by
    rw [code, TrapCause.code]
    cases c.irq with
    | true => exact (number ⟨c.number, c.number_lt⟩).1
    | false => exact (number ⟨c.number, c.number_lt⟩).2
  rw [exceptionMask, index]
  exact mask ⟨c.number, c.number_lt⟩

end TrapCause

/-- The bits from 31 on. -/
theorem and_highMask (v : Word) :
    v &&& 0xffffffff80000000 ≠ 0 ↔ v.getLsbD 31 = true ∨ v >>> 32 ≠ 0 := by
  have mask : ∀ i : Fin 64, (0xffffffff80000000 : Word).getLsbD i = decide (31 ≤ i.1) := by
    decide
  constructor
  · intro live
    by_contra none
    simp only [not_or, Bool.not_eq_true, ne_eq, not_not] at none
    refine live (BitVec.eq_of_getLsbD_eq fun i bound => ?_)
    have upper : v.getLsbD i = (v >>> 32).getLsbD (i - 32) ∨ i ≤ 31 := by
      by_cases low : i ≤ 31
      · exact .inr low
      · exact .inl (by rw [BitVec.getLsbD_ushiftRight, show 32 + (i - 32) = i by omega])
    rw [BitVec.getLsbD_and, mask ⟨i, bound⟩]
    rcases upper with upper | low
    · simp [upper, none.2]
    · by_cases edge : i = 31
      · subst edge
        rw [none.1]
        rfl
      · simp [show ¬ 31 ≤ i by omega]
  · rintro set zero
    have clear {i : Nat} (low : 31 ≤ i) (bound : i < 64) : v.getLsbD i = false := by
      have here : (v &&& 0xffffffff80000000).getLsbD i = false := by
        rw [zero]
        exact BitVec.getLsbD_zero
      rw [BitVec.getLsbD_and, mask ⟨i, bound⟩, decide_eq_true low, Bool.and_true] at here
      exact here
    rcases set with bit | upper
    · rw [clear (by decide) (by decide)] at bit
      cases bit
    · refine upper (BitVec.eq_of_getLsbD_eq fun i bound => ?_)
      rw [BitVec.getLsbD_ushiftRight]
      by_cases inside : 32 + i < 64
      · simp [clear (by omega) inside]
      · simp [BitVec.getLsbD_of_ge v (32 + i) (by omega)]

/-- `edeleg_valid` is the cause's bit, but for interrupt 31, whose mask runs on to bit 63. -/
theorem edelegValid_iff (s : ArchState) (c : TrapCause) {info : DecodeInfo}
    (code : info.exception = c.code) :
    edelegValid s info = true ↔
      c.Delegated s ∨ c.number = 31 ∧ s.get .priv ≠ modeM ∧ s.get .mideleg >>> 32 ≠ 0 := by
  rw [edelegValid, c.isIrq_of_code code, c.exceptionMask_of_code code, Bool.and_eq_true,
    bne_iff_ne, bne_iff_ne, TrapCause.Delegated]
  by_cases last : c.number = 31
  · rw [if_pos last, c.irq_of_last last, if_pos rfl, if_pos rfl, and_highMask, last]
    tauto
  · have nonzero : ∀ n : Fin 32, BitVec.twoPow 64 n.1 ≠ 0#64 := by decide
    have bit := nonzero ⟨c.number, c.number_lt⟩
    rw [if_neg last, BitVec.and_twoPow]
    cases c.irq <;> simp [last, bit, and_comm]

/-! ### The entry -/

/-- `updateEnv` takes the trap: into S exactly when it is delegated, and into M otherwise. -/
def TakesTrap (P : Platform δ) (a : RiscvArch δ) (c : TrapCause) (info : DecodeInfo) : Prop :=
  ∃ r, a.updateEnv P info = .ok r ∧
    (if c.Delegated a.state then TrapMode.supervisor else TrapMode.machine).Enters c
      info.excData a r

/-- A known cause is a trap with its own trap value. -/
theorem updateEnv_trap (P : Platform δ) (a : RiscvArch δ) (c : TrapCause) {info : DecodeInfo}
    (code : info.exception = c.code) :
    a.updateEnv P info = .ok (a.trap info (c.tval info.excData)) := by
  have irq := c.isIrq_of_code code
  obtain ⟨interrupt, number, known⟩ := c
  cases interrupt with
  | true => rw [updateEnv, if_pos irq, TrapCause.tval, Bool.true_or, if_pos rfl]
  | false =>
      have sorted : ∀ n ∈ syncCodes, BitVec.ofNat 64 n ∉ [excDT, excSC, excHE] ∧
          if n ∈ [3, 8, 9, 11] then BitVec.ofNat 64 n ∉ faultCodes ∧ BitVec.ofNat 64 n ∈ callCodes
          else BitVec.ofNat 64 n ∈ faultCodes := by decide
      obtain ⟨fatal, value⟩ := sorted number known
      change info.exception = BitVec.ofNat 64 number at code
      rw [← code] at fatal value
      rw [updateEnv, if_neg (by rw [irq]; exact Bool.false_ne_true), if_neg fatal, TrapCause.tval,
        Bool.false_or]
      by_cases call : number ∈ [3, 8, 9, 11]
      · rw [if_pos call] at value
        rw [if_neg value.1, if_pos value.2, if_pos (decide_eq_true call)]
      · rw [if_neg call] at value
        rw [if_pos value, if_neg (by simpa using call)]

/-- Both vectors send a cause to the address the architecture gives. -/
theorem vectorAddr_eq (c : TrapCause) (tvec : Word) :
    vectorAddr c.irq tvec c.code = c.target tvec := by
  have offset : ∀ n : Fin 32, ((irqMask ||| BitVec.ofNat 64 n.1) &&& 0x1f) <<< 2 =
      4 * BitVec.ofNat 64 n.1 := by decide
  have here := offset ⟨c.number, c.number_lt⟩
  rw [vectorAddr, TrapCause.target, TrapCause.code]
  cases c.irq with
  | true => simp only [Bool.true_and, bne_iff_ne, true_and, if_true, here]; rfl
  | false => rfl

/-- Entry in S-mode. -/
theorem trapS_enters (a : RiscvArch δ) (c : TrapCause) {info : DecodeInfo}
    (code : info.exception = c.code) (low : a.state.get .priv = modeU ∨ a.state.get .priv = modeS)
    (delegated : edelegValid a.state info = true) :
    TrapMode.supervisor.Enters c info.excData a (a.trap info (c.tval info.excData)) := by
  rw [trap, if_pos delegated]
  refine ⟨?_, ?_, ?_, ?_, ?_, ?_, ?_, ?_, rfl⟩
  · simp [TrapMode.supervisor, trapS, ArchState.get_set]
  · simp [TrapMode.supervisor, trapS, ArchState.get_set, code]
  · simp [TrapMode.supervisor, trapS, ArchState.get_set]
  · exact trapS_mstatus a.state a.pc _ _ low
  · simp [TrapMode.supervisor, trapS]
  · rcases low with h | h <;> rw [h] <;> decide
  · have cause :
        (trapS a.state a.pc info.exception (c.tval info.excData)).get .scause = c.code := by
      simp [trapS, ArchState.get_set, code]
    have vector := trapS_get a.state a.pc info.exception (c.tval info.excData)
      (w := .stvec) (by decide)
    dsimp only
    rw [cause, vector, c.isIrq_of_code code]
    exact vectorAddr_eq c _
  · intro w other
    simp only [TrapMode.words, TrapMode.supervisor, List.mem_cons, List.not_mem_nil, or_false,
      not_or] at other
    obtain ⟨h1, h2, h3, h4, h5⟩ := other
    simp [trapS, ArchState.get_set_of_ne, h1, h2, h3, h4, h5]

/-- Entry in M-mode. -/
theorem trapM_enters (a : RiscvArch δ) (c : TrapCause) {info : DecodeInfo}
    (code : info.exception = c.code) (legal : LegalPriv (a.state.get .priv))
    (direct : edelegValid a.state info = false) :
    TrapMode.machine.Enters c info.excData a (a.trap info (c.tval info.excData)) := by
  rw [trap, if_neg (by rw [direct]; decide)]
  refine ⟨?_, ?_, ?_, ?_, ?_, ?_, ?_, ?_, rfl⟩
  · simp [TrapMode.machine, trapM, ArchState.get_set]
  · simp [TrapMode.machine, trapM, ArchState.get_set, code]
  · simp [TrapMode.machine, trapM, ArchState.get_set]
  · exact trapM_mstatus a.state a.pc _ _ legal
  · simp [TrapMode.machine, trapM]
  · rcases legal with h | h | h <;> rw [h] <;> decide
  · have cause :
        (trapM a.state a.pc info.exception (c.tval info.excData)).get .mcause = c.code := by
      simp [trapM, ArchState.get_set, code]
    have vector := trapM_get a.state a.pc info.exception (c.tval info.excData)
      (w := .mtvec) (by decide)
    dsimp only
    rw [cause, vector, c.isIrq_of_code code]
    exact vectorAddr_eq c _
  · intro w other
    simp only [TrapMode.words, TrapMode.machine, List.mem_cons, List.not_mem_nil, or_false,
      not_or] at other
    obtain ⟨h1, h2, h3, h4, h5⟩ := other
    simp [trapM, ArchState.get_set_of_ne, h1, h2, h3, h4, h5]

/-- Every trap is taken as described, except interrupt 31 below M when `mideleg` has no bit 31
but one above it: that one is delegated all the same, since `1 << 31` is a negative `int` and
has all the bits above when it is widened. The description covers the cause, the value, the
stacked bits of `mstatus`, the mode, the target, and that nothing else changes. -/
theorem takesTrap_iff (P : Platform δ) (a : RiscvArch δ) (legal : LegalPriv (a.state.get .priv))
    (c : TrapCause) (info : DecodeInfo) (code : info.exception = c.code) :
    TakesTrap P a c info ↔
      ¬ (c.number = 31 ∧ a.state.get .priv ≠ modeM ∧
        (a.state.get .mideleg).getLsbD 31 = false ∧ a.state.get .mideleg >>> 32 ≠ 0) := by
  have taken := updateEnv_trap P a c code
  have low (below : a.state.get .priv ≠ modeM) :
      a.state.get .priv = modeU ∨ a.state.get .priv = modeS := by
    rcases legal with h | h | h
    · exact .inl h
    · exact .inr h
    · exact absurd h below
  have valid := edelegValid_iff a.state c code
  constructor
  · rintro ⟨r, ran, enters⟩ ⟨last, below, clear, upper⟩
    have wrong := trapS_enters a c code (low below) (valid.2 (.inr ⟨last, below, upper⟩))
    have direct : ¬ c.Delegated a.state := by
      rintro ⟨-, bit⟩
      rw [c.irq_of_last last, if_pos rfl, last, clear] at bit
      cases bit
    rw [if_neg direct] at enters
    cases ran.symm.trans taken
    exact absurd (wrong.priv.symm.trans enters.priv) (by decide)
  · intro sound
    refine ⟨_, taken, ?_⟩
    by_cases delegated : c.Delegated a.state
    · rw [if_pos delegated]
      exact trapS_enters a c code (low delegated.1) (valid.2 (.inl delegated))
    · rw [if_neg delegated]
      refine trapM_enters a c code legal (Bool.eq_false_iff.2 fun delegates => ?_)
      rcases valid.1 delegates with h | ⟨last, below, upper⟩
      · exact delegated h
      · refine sound ⟨last, below, Bool.eq_false_iff.2 fun bit => delegated ⟨below, ?_⟩, upper⟩
        rw [c.irq_of_last last, if_pos rfl, last]
        exact bit

/-- U-mode, with bit 32 of `mideleg` set by the configuration. -/
def highDelegMachine : RiscvArch Unit :=
  RiscvArch.reset [(.priv, 0), (.mideleg, 0x100000000)] (imageOf [])

/-- An interrupt of line 31, as `decode` records it. -/
def interrupt31 : DecodeInfo := { DecodeInfo.zero with exception := irqMask ||| 31 }

/-- Interrupt 31 with a delegation that is set above bit 31. -/
theorem takesTrap_iff_highDelegMachine :
    TakesTrap (ramOnly 4096) highDelegMachine ⟨true, 31, by decide⟩ interrupt31 ↔
      ¬ (31 = 31 ∧ highDelegMachine.state.get .priv ≠ modeM ∧
        (highDelegMachine.state.get .mideleg).getLsbD 31 = false ∧
        highDelegMachine.state.get .mideleg >>> 32 ≠ 0) :=
  takesTrap_iff (ramOnly 4096) highDelegMachine (by decide) ⟨true, 31, by decide⟩ interrupt31 rfl

/-- The interrupt is delegated though its own bit is clear. -/
theorem not_takesTrap_highDelegMachine :
    ¬ TakesTrap (ramOnly 4096) highDelegMachine ⟨true, 31, by decide⟩ interrupt31 := by
  rintro ⟨r, ran, enters⟩
  have direct : ¬ TrapCause.Delegated ⟨true, 31, by decide⟩ highDelegMachine.state := by decide
  rw [if_neg direct] at enters
  have mode : (highDelegMachine.trap interrupt31 0).2.state.get .priv = modeS := by decide
  cases ran.symm.trans (show highDelegMachine.updateEnv (ramOnly 4096) interrupt31 =
    .ok (highDelegMachine.trap interrupt31 0) by rfl)
  exact absurd (mode.symm.trans enters.priv) (by decide)

end CPUDelaySim.Riscv
