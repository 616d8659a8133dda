import CPUDelaySim.Riscv.TrapEntry

/-!
# Trap and return

A trap stacks the mode, the interrupt enable and the pc in the registers of the mode it
enters, and the return from that mode unstacks them.  The handler in between may take
traps of its own: a handler in S-mode may be interrupted by any number of trips to
M-mode, each of which uses its own fields of `mstatus`.

`Machine.Handler` is what the handler may do.  Its own code leaves `mstatus` and `xepc`
as it finds them; a nested trip does not leave `mstatus` alone, only the fields of S.

`statusBits` are the bits of `mstatus` that a return to a level or below reads.  A trip to M leaves
those of S as they were (`trip_statusBits`), so an induction over `Handler` goes through although
a nested trip does write `mstatus`.  `SameLevel` is its statement, and `Restores` what the
interrupted code sees.
-/

namespace CPUDelaySim.Riscv

variable {δ : Type}

open RiscvArch

/-! ### Trips -/

/-- The modes a trap is taken to. -/
inductive TrapLevel
  | supervisor
  | machine

namespace TrapLevel

/-- The registers of the level. -/
def registers : TrapLevel → TrapMode
  | .supervisor => .supervisor
  | .machine => .machine

/-- The code of the level's return. -/
def returnCode : TrapLevel → Word
  | .supervisor => excSRET
  | .machine => excMRET

/-- The bits of `mstatus` a return to this level or below reads.  Bit 9 is the low bit of
`VS`, which `SRET` reads with `SPP`. -/
def statusBits : TrapLevel → List Nat
  | .supervisor => [1, 5, 8, 9]
  | .machine => [1, 5, 8, 9, 3, 7, 11, 12]

end TrapLevel

/-- The record is an interrupt or an exception that `updateEnv` traps. -/
def Traps (info : DecodeInfo) : Prop :=
  isIrq info = true ∨ info.exception ∈ faultCodes ∨ info.exception ∈ callCodes

/-- Neither a return nor a commit is a trap. -/
theorem Traps.ne {info : DecodeInfo} (traps : Traps info) {code : Word}
    (other : code ∈ [excSRET, excMRET, excNone]) : info.exception ≠ code := by
  have apart : code.msb = false ∧ code ∉ faultCodes ∧ code ∉ callCodes := by
    simp only [List.mem_cons, List.not_mem_nil, or_false] at other
    rcases other with rfl | rfl | rfl <;> decide
  obtain ⟨sync, fault, call⟩ := apart
  rintro rfl
  rcases traps with h | h | h
  · rw [isIrq, sync] at h
    cases h
  · exact fault h
  · exact call h

/-- `updateEnv` takes the trap of a record that has one. -/
theorem Traps.updateEnv {info : DecodeInfo} (traps : Traps info) (P : Platform δ)
    (a : RiscvArch δ) : ∃ tval, a.updateEnv P info = .ok (a.trap info tval) := by
  rcases updateEnv_cases P a info with
    ⟨-, tval, h⟩ | ⟨code, -⟩ | ⟨code, -⟩ | ⟨code, -⟩ | ⟨unhandled, -⟩
  · exact ⟨tval, h⟩
  · exact absurd code (traps.ne (by decide))
  · exact absurd code (traps.ne (by decide))
  · exact absurd code (traps.ne (by decide))
  · rcases traps with h | h | h
    · exact absurd (.inl h) unhandled
    · exact absurd (.inr (.inl h)) unhandled
    · exact absurd (.inr (.inr (.inl h))) unhandled

namespace Machine

/-- The next `updateEnv` takes a trap to the level `l` and leaves `m'`. -/
structure TrapsInto (P : Platform δ) (l : TrapLevel) (m m' : Machine δ) : Prop where
  pending : ∃ info, m.info = some info ∧ Traps info
  stepped : m.step P .updateEnv = .ok m'
  entered : m'.priv = l.registers.mode

/-- The next `updateEnv` executes the return of the level `l`, to `pc`, and leaves `m'`. -/
def ReturnsTo (P : Platform δ) (l : TrapLevel) (m : Machine δ) (pc : Word) (m' : Machine δ) :
    Prop :=
  ∃ info arch, m.info = some info ∧ info.exception = l.returnCode ∧
    m.arch.updateEnv P info = .ok (pc, arch) ∧ m' = { m with arch := arch }

/-- What happens between a trap to the level `l` and the return from it. -/
inductive Handler (P : Platform δ) : TrapLevel → Machine δ → Machine δ → Prop
  /-- Calls that leave `mstatus` and `xepc` as they find them. -/
  | code {l : TrapLevel} {m m' : Machine δ} (calls : List (Call δ))
      (ran : runSteps (step P) m calls = .ok m')
      (status : m'.arch.state.get .mstatus = m.arch.state.get .mstatus)
      (epc : m'.arch.state.get l.registers.epc = m.arch.state.get l.registers.epc) :
      Handler P l m m'
  /-- A trip to M-mode and back, whose handler leaves `sepc` alone. -/
  | nested {m m₁ m₂ m' : Machine δ} {pc : Word} (entry : m.TrapsInto P .machine m₁)
      (inner : Handler P .machine m₁ m₂)
      (sepc : m₂.arch.state.get .sepc = m₁.arch.state.get .sepc)
      (exit : m₂.ReturnsTo P .machine pc m') : Handler P .supervisor m m'
  | append {l : TrapLevel} {m m₁ m' : Machine δ} (first : Handler P l m m₁)
      (rest : Handler P l m₁ m') : Handler P l m m'

end Machine

/-! ### Entry -/

/-- No trap is delegated from machine mode. -/
theorem edelegValid_priv {s : ArchState} {info : DecodeInfo}
    (delegated : edelegValid s info = true) : s.get .priv ≠ modeM := by
  rw [edelegValid, Bool.and_eq_true, bne_iff_ne] at delegated
  exact bne_iff_ne.1 delegated.2

/-- A trap goes to supervisor mode if it is delegated, and to machine mode otherwise. -/
theorem trap_state (arch : RiscvArch δ) (info : DecodeInfo) (tval : Word) :
    (arch.trap info tval).2.state =
      if edelegValid arch.state info then trapS arch.state arch.pc info.exception tval
      else trapM arch.state arch.pc info.exception tval := by
  rw [trap]
  split <;> rfl

/-- The registers a trap to the level `l` leaves. -/
inductive Entered (s : ArchState) (pc : Word) : TrapLevel → ArchState → Prop
  | supervisor (cause tval : Word) (below : s.get .priv ≠ modeM) :
      Entered s pc .supervisor (trapS s pc cause tval)
  | machine (cause tval : Word) : Entered s pc .machine (trapM s pc cause tval)

/-- What the state is after the entry. -/
theorem Machine.TrapsInto.state {P : Platform δ} {l : TrapLevel} {m m' : Machine δ}
    (entry : m.TrapsInto P l m') : Entered m.arch.state m.arch.pc l m'.arch.state := by
  obtain ⟨⟨info, record, traps⟩, stepped, entered⟩ := entry
  obtain ⟨tval, taken⟩ := traps.updateEnv P m.arch
  simp only [Machine.step, record, taken] at stepped
  cases stepped
  change (m.arch.trap info tval).2.state.get .priv = _ at entered
  change Entered _ _ l (m.arch.trap info tval).2.state
  rw [trap_state] at entered ⊢
  split at entered
  · rename_i delegated
    rw [if_pos delegated]
    cases l with
    | supervisor => exact .supervisor _ _ (edelegValid_priv delegated)
    | machine => exact absurd (entered.symm.trans (ArchState.get_set_self _ _ _)) (by decide)
  · rename_i direct
    rw [if_neg direct]
    cases l with
    | supervisor => exact absurd (entered.symm.trans (ArchState.get_set_self _ _ _)) (by decide)
    | machine => exact .machine _ _

/-- An entry in M-mode leaves the bits below `MPP` that are not its own. -/
theorem trapM_mstatus_low (s : ArchState) (pc cause tval : Word) {i : Nat} (low : i < 11)
    (ie : i ≠ 3) (pie : i ≠ 7) :
    ((trapM s pc cause tval).get .mstatus).getLsbD i = (s.get .mstatus).getLsbD i := by
  have masked : ∀ i < 64, (mstatusMPP ||| mstatusMPIE ||| mstatusMIE).getLsbD i =
      decide (i = 3 ∨ i = 7 ∨ i = 11 ∨ i = 12) := by decide
  have stacked : ∀ i < 64, mstatusMPIE.getLsbD i = decide (i = 7) := by decide
  have entered : (trapM s pc cause tval).get .mstatus =
      (s.get .mstatus &&& ~~~(mstatusMPP ||| mstatusMPIE ||| mstatusMIE)) |||
        (s.get .priv <<< 11) ||| ((s.get .mstatus <<< 4) &&& mstatusMPIE) := by
    simp [trapM, ArchState.get_set]
  have bound : i < 64 := by omega
  rw [entered, BitVec.getLsbD_or, BitVec.getLsbD_or, BitVec.getLsbD_and, BitVec.getLsbD_and,
    BitVec.getLsbD_not, masked i bound, stacked i bound, BitVec.getLsbD_shiftLeft]
  simp [low, ie, pie, bound, show i ≠ 11 by omega, show i ≠ 12 by omega]

/-! ### Return -/

/-- The two bits of a mode, one by one. -/
theorem twoBits_getLsbD (v : Word) (n i : Nat) :
    ((v >>> n) &&& 0x3).getLsbD i = (decide (i < 2) && v.getLsbD (n + i)) := by
  rw [and_three, BitVec.getLsbD_setWidth, BitVec.getLsbD_setWidth, BitVec.getLsbD_ushiftRight]
  by_cases low : i < 2
  · simp [low, show i < 64 by omega]
  · simp [low]

/-- MRET moves `MPIE` to `MIE`, sets `MPIE` and leaves the other low bits. -/
theorem doMret_mstatus (a : RiscvArch δ) {i : Nat} (low : i < 11) :
    (a.doMret.2.state.get .mstatus).getLsbD i =
      if i = 3 then (a.state.get .mstatus).getLsbD 7
      else if i = 7 then true
      else (a.state.get .mstatus).getLsbD i := by
  have masks : ∀ mprv, mprv = mstatusMPRV ∨ mprv = 0 → ∀ i < 11,
      (mstatusMPP ||| mstatusMIE ||| mprv).getLsbD i = decide (i = 3) := by
    rintro mprv (rfl | rfl) <;> decide
  have enable : ∀ i < 64, mstatusMIE.getLsbD i = decide (i = 3) := by decide
  have previous : ∀ i < 64, mstatusMPIE.getLsbD i = decide (i = 7) := by decide
  have bound : i < 64 := by omega
  have returned : a.doMret.2.state.get .mstatus =
      (a.state.get .mstatus &&& ~~~(mstatusMPP ||| mstatusMIE |||
        if (a.state.get .mstatus >>> 11) &&& 0x3 ≠ modeM then mstatusMPRV else 0)) |||
        ((a.state.get .mstatus >>> 4) &&& mstatusMIE) ||| mstatusMPIE := by
    simp [doMret, ArchState.get_set]
  rw [returned, BitVec.getLsbD_or, BitVec.getLsbD_or, BitVec.getLsbD_and, BitVec.getLsbD_and,
    BitVec.getLsbD_not, masks _ (by split <;> simp) i low, enable i bound, previous i bound,
    BitVec.getLsbD_ushiftRight]
  by_cases mie : i = 3
  · simp [mie]
  · by_cases mpie : i = 7
    · simp [mpie]
    · simp [mie, mpie, bound]

/-- SRET moves `SPIE` to `SIE`. -/
theorem doSret_mstatus (a : RiscvArch δ) :
    (a.doSret.2.state.get .mstatus).getLsbD 1 = (a.state.get .mstatus).getLsbD 5 := by
  have returned : a.doSret.2.state.get .mstatus =
      (a.state.get .mstatus &&& ~~~(mstatusSPP ||| mstatusSIE ||| mstatusMPRV)) |||
        ((a.state.get .mstatus >>> 4) &&& mstatusSIE) ||| mstatusSPIE := by
    simp [doSret, ArchState.get_set]
  have masked : (mstatusSPP ||| mstatusSIE ||| mstatusMPRV).getLsbD 1 = true := by decide
  have enable : mstatusSIE.getLsbD 1 = true := by decide
  have previous : mstatusSPIE.getLsbD 1 = false := by decide
  rw [returned, BitVec.getLsbD_or, BitVec.getLsbD_or, BitVec.getLsbD_and, BitVec.getLsbD_and,
    BitVec.getLsbD_not, masked, enable, previous, BitVec.getLsbD_ushiftRight]
  simp

/-! ### The fields of a level -/

/-- `xepc` and the bits of `mstatus` that the return of `l` and those below it read. -/
structure SameLevel (l : TrapLevel) (s s' : ArchState) : Prop where
  epc : s'.get l.registers.epc = s.get l.registers.epc
  status : ∀ i ∈ l.statusBits, (s'.get .mstatus).getLsbD i = (s.get .mstatus).getLsbD i

/-- What two parts of a handler keep, the handler keeps. -/
theorem SameLevel.trans {l : TrapLevel} {s s' s'' : ArchState} (h : SameLevel l s s')
    (h' : SameLevel l s' s'') : SameLevel l s s'' :=
  ⟨h'.epc.trans h.epc, fun i bit => (h'.status i bit).trans (h.status i bit)⟩

/-- The return of M-mode, as `ReturnsTo` has it. -/
theorem Machine.ReturnsTo.mret {P : Platform δ} {m m' : Machine δ} {pc : Word}
    (exit : m.ReturnsTo P .machine pc m') :
    pc = m.arch.state.get .mepc ∧ m'.arch = m.arch.doMret.2 := by
  obtain ⟨info, arch, -, code, returned, rfl⟩ := exit
  cases (updateEnv_mret P m.arch code).symm.trans returned
  exact ⟨rfl, rfl⟩

/-- The return from supervisor mode is `doSret`. -/
theorem Machine.ReturnsTo.sret {P : Platform δ} {m m' : Machine δ} {pc : Word}
    (exit : m.ReturnsTo P .supervisor pc m') :
    pc = m.arch.state.get .sepc ∧ m'.arch = m.arch.doSret.2 := by
  obtain ⟨info, arch, -, code, returned, rfl⟩ := exit
  cases (updateEnv_sret P m.arch code).symm.trans returned
  exact ⟨rfl, rfl⟩

/-- Neither the entry in M-mode nor its return touches the fields of S. -/
theorem trip_statusBits {P : Platform δ} {m m₁ m₂ m' : Machine δ} {pc : Word}
    (entry : m.TrapsInto P .machine m₁) (inner : SameLevel .machine m₁.arch.state m₂.arch.state)
    (exit : m₂.ReturnsTo P .machine pc m') {i : Nat} (bit : i ∈ TrapLevel.supervisor.statusBits) :
    (m'.arch.state.get .mstatus).getLsbD i = (m.arch.state.get .mstatus).getLsbD i := by
  have apart : ∀ i ∈ TrapLevel.supervisor.statusBits,
      i < 11 ∧ i ≠ 3 ∧ i ≠ 7 ∧ i ∈ TrapLevel.machine.statusBits := by decide
  obtain ⟨low, ie, pie, kept⟩ := apart i bit
  have entered : (m₁.arch.state.get .mstatus).getLsbD i =
      (m.arch.state.get .mstatus).getLsbD i := by
    have state := entry.state
    generalize m₁.arch.state = s at state ⊢
    cases state with
    | machine cause tval => exact trapM_mstatus_low _ _ _ _ low ie pie
  rw [exit.mret.2, doMret_mstatus _ low, if_neg ie, if_neg pie, inner.status i kept, entered]

/-- A word that is neither a trap register of M nor a status is left by entry and return. -/
theorem trip_get {P : Platform δ} {m m₁ m₂ m' : Machine δ} {pc : Word}
    (entry : m.TrapsInto P .machine m₁) (exit : m₂.ReturnsTo P .machine pc m') {w : StateWord}
    (own : w ∉ TrapMode.machine.words) (kept : m₂.arch.state.get w = m₁.arch.state.get w) :
    m'.arch.state.get w = m.arch.state.get w := by
  have entered : m₁.arch.state.get w = m.arch.state.get w := by
    have state := entry.state
    generalize m₁.arch.state = s at state ⊢
    simp only [TrapMode.words, TrapMode.machine, List.mem_cons, List.not_mem_nil, or_false,
      not_or] at own
    obtain ⟨h1, h2, h3, h4, h5⟩ := own
    cases state with
    | machine cause tval => simp [trapM, ArchState.get_set_of_ne, h1, h2, h3, h4, h5]
  have returned : m₂.arch.doMret.2.state.get w = m₂.arch.state.get w := by
    simp only [TrapMode.words, TrapMode.machine, List.mem_cons, List.not_mem_nil, or_false,
      not_or] at own
    obtain ⟨-, -, -, h4, h5⟩ := own
    simp [doMret, ArchState.get_set_of_ne, h4, h5]
  rw [exit.mret.2, returned, kept, entered]

/-- Whatever a handler does, it keeps what the return of its level reads. -/
theorem Machine.Handler.same {P : Platform δ} {l : TrapLevel} {m m' : Machine δ}
    (handler : Handler P l m m') : SameLevel l m.arch.state m'.arch.state := by
  induction handler with
  | code calls ran status epc => exact ⟨epc, fun i _ => by rw [status]⟩
  | nested entry inner sepc exit same =>
      exact ⟨trip_get entry exit (by decide) sepc, fun _ bit => trip_statusBits entry same exit bit⟩
  | append first rest same same' => exact same.trans same'

/-! ### A trip -/

/-- The context a trip to the level `l` returns to. -/
structure Machine.Restores (l : TrapLevel) (m m₁ m₂ m' : Machine δ) (pc : Word) : Prop where
  pc : pc = m.arch.pc
  priv : m'.priv = m.priv
  enable : (m'.arch.state.get .mstatus).getLsbD l.registers.ie =
    (m.arch.state.get .mstatus).getLsbD l.registers.ie
  /-- A trip to M leaves `SPP`, `SPIE`, `SIE`, and `sepc` and `scause` when the handler does. -/
  status : l = .machine → ∀ i ∈ [1, 5, 8],
    (m'.arch.state.get .mstatus).getLsbD i = (m.arch.state.get .mstatus).getLsbD i
  supervisor : l = .machine → ∀ w ∈ [StateWord.sepc, .scause],
    m₂.arch.state.get w = m₁.arch.state.get w → m'.arch.state.get w = m.arch.state.get w

/-- A trip to M-mode returns to the mode `MPP` held. -/
theorem mode_eq_mpp {priv : Word} (legal : LegalPriv priv) {v : Word}
    (stacked : ∀ j < 2, v.getLsbD (11 + j) = priv.getLsbD j) : (v >>> 11) &&& 0x3 = priv := by
  have high : ∀ j, 2 ≤ j → priv.getLsbD j = false := by
    intro j above
    refine Nat.testBit_lt_two_pow (Nat.lt_of_lt_of_le ?_ (Nat.pow_le_pow_right (by decide) above))
    rcases legal with h | h | h <;> rw [h] <;> decide
  refine BitVec.eq_of_getLsbD_eq fun j _ => ?_
  rw [twoBits_getLsbD]
  by_cases low : j < 2
  · rw [decide_eq_true low, Bool.true_and, stacked j low]
  · rw [decide_eq_false low, Bool.false_and, high j (by omega)]

/-- A trip to S-mode returns to the mode `SPP` held, the bit above it being clear. -/
theorem mode_eq_spp {priv : Word} (legal : LegalPriv priv) (below : priv ≠ modeM) {v : Word}
    (stacked : v.getLsbD 8 = priv.getLsbD 0) (clear : v.getLsbD 9 = false) :
    (v >>> 8) &&& 0x3 = priv := by
  have high : ∀ j, 1 ≤ j → priv.getLsbD j = false := by
    intro j above
    refine Nat.testBit_lt_two_pow (Nat.lt_of_lt_of_le ?_ (Nat.pow_le_pow_right (by decide) above))
    rcases legal with h | h | h
    · rw [h]; decide
    · rw [h]; decide
    · exact absurd h below
  refine BitVec.eq_of_getLsbD_eq fun j _ => ?_
  rw [twoBits_getLsbD]
  rcases Nat.lt_or_ge j 2 with low | above
  · rcases Nat.le_one_iff_eq_zero_or_eq_one.1 (Nat.le_of_lt_succ low) with rfl | rfl
    · simpa using stacked
    · rw [clear, high 1 (by decide), Bool.and_false]
  · rw [decide_eq_false (by omega), Bool.false_and, high j (by omega)]

section Trip

variable {P : Platform δ} {m m₁ m₂ m' : Machine δ} {pc : Word}

/-- What an entry in S-mode stacks. -/
theorem Machine.TrapsInto.supervisor (entry : m.TrapsInto P .supervisor m₁)
    (legal : LegalPriv m.priv) :
    m₁.arch.state.get .sepc = m.arch.pc ∧ m.priv ≠ modeM ∧
      TrapMode.supervisor.StatusEntered m.priv (m.arch.state.get .mstatus)
        (m₁.arch.state.get .mstatus) := by
  have state := entry.state
  generalize m₁.arch.state = s at state ⊢
  cases state with
  | supervisor cause tval below =>
      refine ⟨by simp [trapS, ArchState.get_set], below, trapS_mstatus _ _ _ _ ?_⟩
      rcases legal with h | h | h
      · exact .inl h
      · exact .inr h
      · exact absurd h below

/-- What an entry in M-mode stacks. -/
theorem Machine.TrapsInto.machine (entry : m.TrapsInto P .machine m₁) (legal : LegalPriv m.priv) :
    m₁.arch.state.get .mepc = m.arch.pc ∧
      TrapMode.machine.StatusEntered m.priv (m.arch.state.get .mstatus)
        (m₁.arch.state.get .mstatus) := by
  have state := entry.state
  generalize m₁.arch.state = s at state ⊢
  cases state with
  | machine cause tval =>
      exact ⟨by simp [trapM, ArchState.get_set], trapM_mstatus _ _ _ _ legal⟩

/-- A trap to supervisor mode and its return restore the mode, the enable bit and the pc, if the
handler keeps the registers of its level. -/
theorem Machine.tripS_restores (legal : LegalPriv m.priv)
    (vs : m.arch.state.get .mstatus &&& 0x600 = 0) (entry : m.TrapsInto P .supervisor m₁)
    (same : SameLevel .supervisor m₁.arch.state m₂.arch.state)
    (exit : m₂.ReturnsTo P .supervisor pc m') : m.Restores .supervisor m₁ m₂ m' pc := by
  obtain ⟨epc, below, entered⟩ := entry.supervisor legal
  obtain ⟨returned, arch⟩ := exit.sret
  have clear : (m.arch.state.get .mstatus).getLsbD 9 = false := by
    have bit : (m.arch.state.get .mstatus &&& 0x600).getLsbD 9 = false := by rw [vs]; rfl
    rw [BitVec.getLsbD_and, show (0x600 : Word).getLsbD 9 = true by decide,
      Bool.and_true] at bit
    exact bit
  refine ⟨?_, ?_, ?_, nofun, nofun⟩
  · rw [returned, ← epc]
    exact same.epc
  · rw [Machine.priv, arch, doSret_priv]
    refine mode_eq_spp legal below ?_ ?_
    · rw [same.status 8 (by decide)]
      exact entered 8 (by decide)
    · rw [same.status 9 (by decide), ← clear]
      exact entered 9 (by decide)
  · rw [arch]
    refine (doSret_mstatus _).trans ((same.status 5 (by decide)).trans ?_)
    exact entered 5 (by decide)

/-- So do a trap to machine mode and its return. -/
theorem Machine.tripM_restores (legal : LegalPriv m.priv) (entry : m.TrapsInto P .machine m₁)
    (same : SameLevel .machine m₁.arch.state m₂.arch.state)
    (exit : m₂.ReturnsTo P .machine pc m') : m.Restores .machine m₁ m₂ m' pc := by
  obtain ⟨epc, entered⟩ := entry.machine legal
  obtain ⟨returned, arch⟩ := exit.mret
  refine ⟨?_, ?_, ?_, fun _ i bit => ?_, fun _ w own kept => ?_⟩
  · rw [returned, ← epc]
    exact same.epc
  · rw [Machine.priv, arch, doMret_priv]
    refine mode_eq_mpp legal fun j low => ?_
    rcases Nat.le_one_iff_eq_zero_or_eq_one.1 (Nat.le_of_lt_succ low) with rfl | rfl
    · rw [same.status 11 (by decide)]
      exact entered 11 (by decide)
    · rw [same.status 12 (by decide)]
      exact entered 12 (by decide)
  · rw [arch]
    refine (doMret_mstatus _ (by decide)).trans ((same.status 7 (by decide)).trans ?_)
    exact entered 7 (by decide)
  · have listed : ∀ i ∈ [1, 5, 8], i ∈ TrapLevel.supervisor.statusBits := by decide
    exact trip_statusBits entry same exit (listed i bit)
  · have apart : ∀ w ∈ [StateWord.sepc, .scause], w ∉ TrapMode.machine.words := by decide
    exact trip_get entry exit (apart w own) kept

end Trip

/-- A trap and the return from its handler restore the interrupted context, from every state in
a legal mode whose `VS` is clear, and however the handler is interrupted itself. A handler is a
run that ends in the mode it began in and may contain further trips, so the proof is an
induction over their nesting. -/
theorem Machine.trip_restores {P : Platform δ} {l : TrapLevel} {m m₁ m₂ m' : Machine δ}
    {pc : Word} (legal : LegalPriv m.priv) (vs : m.arch.state.get .mstatus &&& 0x600 = 0)
    (entry : m.TrapsInto P l m₁) (handler : Handler P l m₁ m₂) (exit : m₂.ReturnsTo P l pc m') :
    m.Restores l m₁ m₂ m' pc := by
  cases l with
  | supervisor => exact tripS_restores legal vs entry handler.same exit
  | machine => exact tripM_restores legal entry handler.same exit

/-! ### A nested run -/

/-- `ecall`, `sret`, `mret`. -/
def callImage : Memory Unit := imageOf [0x00000073, 0x10200073, 0x30200073]

/-- From U-mode to S-mode, from there to M-mode, and back twice. -/
def nestedCalls : List (Call Unit) :=
  [.decode 0x80000000 0x80000000 .zero, .updateEnv, .decode 0 0x80000000 .zero, .updateEnv,
    .decode 0 0x80000008 .zero, .updateEnv, .decode 4 0x80000004 .zero, .updateEnv]

/-- U-mode with its calls delegated, after the first `k` calls. -/
def nestedRun (k : Nat) : Machine Unit :=
  (nestedCalls.take k).foldl (fun m c => ((m.step (ramOnly 4096) c).toOption).getD m)
    (.reset [(.priv, 0), (.medeleg, 0x100)] callImage)

/-- One call of the nested example. -/
theorem nestedRun_step {k : Nat} {c : Call Unit} (call : nestedCalls[k]? = some c)
    (runs : ((nestedRun k).step (ramOnly 4096) c).toOption.isSome = true) :
    (nestedRun k).step (ramOnly 4096) c = .ok (nestedRun (k + 1)) := by
  have next : nestedRun (k + 1) =
      (((nestedRun k).step (ramOnly 4096) c).toOption).getD (nestedRun k) := by
    rw [nestedRun, List.take_add_one, call, List.foldl_append]
    rfl
  rw [next]
  cases stepped : (nestedRun k).step (ramOnly 4096) c with
  | error e =>
      rw [stepped] at runs
      cases runs
  | ok m => rfl

/-- A record of the nested example that `updateEnv` has used, with the mode and the status that
it leaves. -/
theorem nestedRun_code {k : Nat} {l : TrapLevel} {c : Call Unit}
    (call : nestedCalls[k]? = some c)
    (runs : ((nestedRun k).step (ramOnly 4096) c).toOption.isSome = true)
    (status : (nestedRun (k + 1)).arch.state.get .mstatus = (nestedRun k).arch.state.get .mstatus)
    (epc : (nestedRun (k + 1)).arch.state.get l.registers.epc =
      (nestedRun k).arch.state.get l.registers.epc) :
    Machine.Handler (ramOnly 4096) l (nestedRun k) (nestedRun (k + 1)) :=
  .code [c] (by rw [runSteps_cons, nestedRun_step call runs]; rfl) status epc

/-- A trap of the nested example. -/
theorem nestedRun_traps {k : Nat} {l : TrapLevel} (call : nestedCalls[k]? = some .updateEnv)
    (runs : ((nestedRun k).step (ramOnly 4096) .updateEnv).toOption.isSome = true)
    {c : Word} (known : c ∈ callCodes)
    (record : (nestedRun k).info.map (·.exception) = some c)
    (entered : (nestedRun (k + 1)).priv = l.registers.mode) :
    (nestedRun k).TrapsInto (ramOnly 4096) l (nestedRun (k + 1)) := by
  obtain ⟨info, held, rfl⟩ := Option.map_eq_some_iff.1 record
  exact ⟨⟨info, held, .inr (.inr known)⟩, nestedRun_step call runs, entered⟩

/-- A return of the nested example. -/
theorem nestedRun_returns {k : Nat} {l : TrapLevel} (call : nestedCalls[k]? = some .updateEnv)
    (runs : ((nestedRun k).step (ramOnly 4096) .updateEnv).toOption.isSome = true)
    (record : (nestedRun k).info.map (·.exception) = some l.returnCode) :
    ∃ pc, (nestedRun k).ReturnsTo (ramOnly 4096) l pc (nestedRun (k + 1)) := by
  obtain ⟨info, held, code⟩ := Option.map_eq_some_iff.1 record
  have stepped := nestedRun_step call runs
  simp only [Machine.step, held] at stepped
  obtain ⟨r, returned, same⟩ := (bind_eq_ok _ _ _).1 stepped
  refine ⟨r.1, info, r.2, held, code, returned, ?_⟩
  rw [held]
  exact (Except.ok.inj same).symm

/-- The call from U, whose handler calls M, returns to U. -/
theorem Machine.trip_restores_nestedRun : ∃ pc, Machine.Restores .supervisor (nestedRun 1)
    (nestedRun 2) (nestedRun 7) (nestedRun 8) pc := by
  obtain ⟨inner, mret⟩ := nestedRun_returns (k := 5) (l := .machine) rfl (by decide +kernel)
    (by decide +kernel)
  obtain ⟨pc, sret⟩ := nestedRun_returns (k := 7) (l := .supervisor) rfl (by decide +kernel)
    (by decide +kernel)
  have call : (nestedRun 1).TrapsInto (ramOnly 4096) .supervisor (nestedRun 2) :=
    nestedRun_traps rfl (by decide +kernel) (c := excECU) (by decide) (by decide +kernel)
      (by decide +kernel)
  have trip : Handler (ramOnly 4096) .supervisor (nestedRun 3) (nestedRun 6) :=
    .nested (nestedRun_traps rfl (by decide +kernel) (c := excECS) (by decide)
      (by decide +kernel) (by decide +kernel))
      (nestedRun_code rfl (by decide +kernel) (by decide +kernel) (by decide +kernel))
      (by decide +kernel) mret
  have before : Handler (ramOnly 4096) .supervisor (nestedRun 2) (nestedRun 3) :=
    nestedRun_code rfl (by decide +kernel) (by decide +kernel) (by decide +kernel)
  have after : Handler (ramOnly 4096) .supervisor (nestedRun 6) (nestedRun 7) :=
    nestedRun_code rfl (by decide +kernel) (by decide +kernel) (by decide +kernel)
  exact ⟨pc, trip_restores (by decide +kernel) (by decide +kernel) call
    (before.append (trip.append after)) sret⟩

end CPUDelaySim.Riscv
