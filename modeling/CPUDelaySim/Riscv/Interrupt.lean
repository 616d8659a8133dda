import CPUDelaySim.Riscv.Privilege

/-!
# Interrupt selection

An interrupt is pending when its bits in `mip` and `mie` are set.  Whether it is
enabled depends on where it is delivered: to M unless `mideleg` delegates it, and then
to S.  `decode` does not look at `mideleg`: one enable bit, chosen by the mode, lets
all pending interrupts through or none, it keeps the low 32 of them, and it reports
the one with the highest number.

`selects_iff` says exactly when that is the right choice, for any ranking of the
interrupts that are delivered to the same mode.

`Pending`, `Delegated` and `Enabled` are the architecture's, bit by bit over 64 lines; `Highest` is
what the 32-bit scan of `decode` finds.  `SelectsWhen` compares the two by mode and enable, and
takes the ranking as a parameter, so what it says does not hang on the order of the manual.
-/

namespace CPUDelaySim.Riscv

variable {δ : Type}

open RiscvArch

/-! ### What should be selected -/

/-- `mip.i` and `mie.i`. -/
def Pending (s : ArchState) (i : Nat) : Prop :=
  (s.get .mip).getLsbD i = true ∧ (s.get .mie).getLsbD i = true

/-- `mideleg.i`. -/
def Delegated (s : ArchState) (i : Nat) : Prop := (s.get .mideleg).getLsbD i = true

/-- `mstatus.MIE` and `mstatus.SIE`. -/
def MieSet (s : ArchState) : Prop := s.get .mstatus &&& mstatusMIE ≠ 0
/-- `mstatus.SIE` is set. -/
def SieSet (s : ArchState) : Prop := s.get .mstatus &&& mstatusSIE ≠ 0

instance (s : ArchState) : Decidable (MieSet s) := inferInstanceAs (Decidable (_ ≠ _))
instance (s : ArchState) : Decidable (SieSet s) := inferInstanceAs (Decidable (_ ≠ _))

/-- An interrupt to M is enabled below M, and in M under `MIE`; one to S is enabled
below S, in S under `SIE`, and never in M. -/
def Enabled (s : ArchState) (i : Nat) : Prop :=
  (¬ Delegated s i ∧ (s.get .priv < modeM ∨ MieSet s)) ∨
    (Delegated s i ∧ (s.get .priv = modeU ∨ (s.get .priv = modeS ∧ SieSet s)))

/-- Pending and enabled. -/
def Ready (s : ArchState) (i : Nat) : Prop := Pending s i ∧ Enabled s i

/-- Interrupts to M come before interrupts to S; `rank` orders those to one mode. -/
def Outranks (rank : Nat → Nat) (s : ArchState) (i j : Nat) : Prop :=
  (¬ Delegated s i ∧ Delegated s j) ∨ ((Delegated s i ↔ Delegated s j) ∧ rank i < rank j)

/-- The architectural order of the interrupts to one mode: machine before supervisor,
and external, software, timer in each; the others behind them. -/
def archRank (i : Nat) : Nat := [11, 3, 7, 9, 1, 5].idxOf i

/-- The code `decode` leaves is the right one: it is an interrupt exactly when one is
ready, and then the number of a ready one that none outranks. -/
structure Selects (rank : Nat → Nat) (s : ArchState) (code : Word) : Prop where
  reports : code.msb = true ↔ ∃ i, Ready s i
  best : code.msb = true → ∃ i, code = irqMask ||| BitVec.ofNat 64 i ∧ Ready s i ∧
    ∀ j, Ready s j → ¬ Outranks rank s j i

/-! ### What is selected -/

/-- The pending interrupts the 32-bit `irq_valids` has room for, and the largest. -/
def Highest (s : ArchState) (n : Nat) : Prop :=
  n < 32 ∧ Pending s n ∧ ∀ i, i < 32 → Pending s i → i ≤ n

/-- When the choice is right.  In M with `MIE` clear it always is.  In S with `SIE`
clear nothing is let through, so nothing that goes to M may be pending.  Elsewhere
everything is let through, so the highest-numbered pending interrupt must be enabled
and outranked by no ready one, or nothing may be ready or pending. -/
def SelectsWhen (rank : Nat → Nat) (s : ArchState) : Prop :=
  if s.get .priv = modeM ∧ ¬ MieSet s then True
  else if s.get .priv = 2 ∨ (s.get .priv = modeS ∧ ¬ SieSet s) then
    ∀ i, Pending s i → Delegated s i
  else
    (∃ n, Highest s n ∧ Ready s n ∧ ∀ j, Ready s j → ¬ Outranks rank s j n) ∨
      ((∀ i, i < 32 → ¬ Pending s i) ∧ ∀ i, ¬ Ready s i)

/-- There are 64 interrupts. -/
theorem pending_lt {s : ArchState} {i : Nat} (pending : Pending s i) : i < 64 := by
  by_contra high
  have := BitVec.getLsbD_of_ge (s.get .mip) i (by omega)
  rw [pending.1] at this
  cases this

/-- Bit `i` of the 32 bits that are kept. -/
theorem getLsbD_pending (s : ArchState) (i : Nat) :
    ((s.get .mip &&& s.get .mie).setWidth 32).getLsbD i = true ↔ i < 32 ∧ Pending s i := by
  simp only [BitVec.getLsbD_setWidth, BitVec.getLsbD_and, Bool.and_eq_true, decide_eq_true_eq,
    Pending]

/-- The highest set bit of a nonzero word. -/
theorem log2_spec {w : Nat} {v : BitVec w} (nonzero : v ≠ 0) :
    v.getLsbD v.toNat.log2 = true ∧ ∀ i, v.getLsbD i = true → i ≤ v.toNat.log2 := by
  have pos : v.toNat ≠ 0 := by
    intro h
    exact nonzero (BitVec.eq_of_toNat_eq h)
  refine ⟨Nat.testBit_log2 pos, ?_⟩
  intro i set
  rw [Nat.le_log2 pos]
  exact Nat.ge_two_pow_of_testBit set

/-- With the enable on, the highest pending interrupt is reported; with it off, or
nothing below 32 pending, none is. -/
theorem irqException_cases (s : ArchState) :
    (irqEnable s = true ∧ ∃ n, Highest s n ∧
        irqException s = some (irqMask ||| BitVec.ofNat 64 n)) ∨
      ((irqEnable s = false ∨ ∀ i, i < 32 → ¬ Pending s i) ∧ irqException s = none) := by
  unfold irqException irqValids
  cases enable : irqEnable s with
  | false => exact .inr ⟨.inl rfl, rfl⟩
  | true =>
      rw [if_pos rfl]
      by_cases nonzero : (s.get .mip &&& s.get .mie).setWidth 32 = 0
      · refine .inr ⟨.inr ?_, if_neg (by simp [nonzero])⟩
        intro i bound pending
        have := (getLsbD_pending s i).2 ⟨bound, pending⟩
        rw [nonzero] at this
        simp at this
      · obtain ⟨set, top⟩ := log2_spec nonzero
        refine .inl ⟨rfl, _, ⟨((getLsbD_pending s _).1 set).1, ((getLsbD_pending s _).1 set).2, ?_⟩,
          if_pos nonzero⟩
        intro i bound pending
        exact top i ((getLsbD_pending s i).2 ⟨bound, pending⟩)

/-! ### When it is the right one -/

/-- In M with `MIE` clear no interrupt is ready. -/
theorem not_ready_of_masked {s : ArchState} (priv : s.get .priv = modeM) (mie : ¬ MieSet s)
    (i : Nat) : ¬ Ready s i := by
  rintro ⟨-, ⟨-, below | set⟩ | ⟨-, user | ⟨super, -⟩⟩⟩
  · rw [priv] at below
    exact absurd below (by decide)
  · exact mie set
  · rw [priv] at user
    exact absurd user (by decide)
  · rw [priv] at super
    exact absurd super (by decide)

/-- Where S-mode interrupts are off, those delivered to M are the ready ones. -/
theorem ready_iff_of_super {s : ArchState}
    (masked : s.get .priv = 2 ∨ (s.get .priv = modeS ∧ ¬ SieSet s)) (i : Nat) :
    Ready s i ↔ Pending s i ∧ ¬ Delegated s i := by
  have below : s.get .priv < modeM := by
    rcases masked with h | ⟨h, -⟩ <;> rw [h] <;> decide
  constructor
  · rintro ⟨pending, ⟨machine, -⟩ | ⟨-, user | ⟨super, sie⟩⟩⟩
    · exact ⟨pending, machine⟩
    · rcases masked with h | ⟨h, -⟩ <;> rw [user] at h <;> exact absurd h (by decide)
    · rcases masked with h | ⟨-, h⟩
      · rw [super] at h
        exact absurd h (by decide)
      · exact absurd sie h
  · rintro ⟨pending, machine⟩
    exact ⟨pending, .inl ⟨machine, .inl below⟩⟩

/-- The enable bit that the source looks at is that of the mode it is in. -/
theorem irqEnable_iff (s : ArchState) :
    irqEnable s = true ↔ s.get .priv = modeU ∨ (s.get .priv = modeS ∧ SieSet s) ∨
      (s.get .priv = modeM ∧ MieSet s) := by
  have low : s.get .priv ≤ modeS ↔ s.get .priv = modeU ∨ s.get .priv = modeS := by
    constructor
    · intro h
      rcases Nat.le_one_iff_eq_zero_or_eq_one.1 (show (s.get .priv).toNat ≤ 1 from h) with h | h
      · exact .inl (BitVec.eq_of_toNat_eq h)
      · exact .inr (BitVec.eq_of_toNat_eq h)
    · rintro (h | h) <;> rw [h] <;> decide
  simp only [irqEnable, Bool.or_eq_true, Bool.and_eq_true, decide_eq_true_eq, bne_iff_ne,
    beq_iff_eq, low, SieSet, MieSet]
  tauto

/-- The code of a body is no interrupt: a mode below 4 does not carry `ecall`'s code
into the top bit. -/
theorem bodyCode_msb {priv code : Word} (small : priv < 4) (h : bodyCode priv code) :
    code.msb = false := by
  rcases h with listed | rfl
  · simp only [List.mem_cons, List.not_mem_nil, or_false] at listed
    rcases listed with rfl | rfl | rfl | rfl | rfl | rfl | rfl | rfl | rfl <;> decide
  · rcases eq_of_lt_four small with rfl | rfl | rfl | rfl <;> decide

/-- A mode outside M with the enable off masks S-mode interrupts. -/
theorem masked_of_not_enable {s : ArchState} (small : s.get .priv < 4)
    (off : irqEnable s = false) :
    (s.get .priv = modeM ∧ ¬ MieSet s) ∨ s.get .priv = 2 ∨
      (s.get .priv = modeS ∧ ¬ SieSet s) := by
  have h := (irqEnable_iff s).not.1 (by simp [off])
  have modes := eq_of_lt_four small
  simp only [modeU, modeS, modeM] at h ⊢
  tauto

/-- The number in a reported code. -/
theorem irqCode_inj {i j : Nat} (hi : i < 64) (hj : j < 64)
    (same : irqMask ||| BitVec.ofNat 64 i = irqMask ||| BitVec.ofNat 64 j) : i = j := by
  have number (k : Nat) : (irqMask ||| BitVec.ofNat 64 k).setWidth 32 = BitVec.ofNat 32 k := by
    rw [BitVec.setWidth_or, show irqMask.setWidth 32 = 0#32 from rfl, BitVec.zero_or,
      BitVec.setWidth_ofNat_of_le (by omega)]
  have h : BitVec.ofNat 32 i = BitVec.ofNat 32 j := by
    rw [← number i, ← number j, same]
  have := congrArg BitVec.toNat h
  simp only [BitVec.toNat_ofNat] at this
  omega

/-- There is one highest interrupt. -/
theorem Highest.unique {s : ArchState} {n n' : Nat} (h : Highest s n) (h' : Highest s n') :
    n = n' :=
  Nat.le_antisymm (h'.2.2 n h.1 h.2.1) (h.2.2 n' h'.1 h'.2.1)

/-- Without a report, the choice is right when nothing is ready. -/
theorem selects_none_iff (rank : Nat → Nat) (s : ArchState) {code : Word}
    (plain : code.msb = false) : Selects rank s code ↔ ∀ i, ¬ Ready s i := by
  constructor
  · intro h i ready
    have := h.reports.2 ⟨i, ready⟩
    rw [plain] at this
    cases this
  · intro none
    refine ⟨?_, ?_⟩
    · rw [plain]
      exact iff_of_false (by simp) fun ⟨i, ready⟩ => none i ready
    · intro irq
      rw [plain] at irq
      cases irq

/-- With a report, it is right when the number reported is that of a best ready one. -/
theorem selects_some_iff (rank : Nat → Nat) (s : ArchState) {n : Nat} (bound : n < 32) :
    Selects rank s (irqMask ||| BitVec.ofNat 64 n) ↔
      Ready s n ∧ ∀ j, Ready s j → ¬ Outranks rank s j n := by
  have msb : (irqMask ||| BitVec.ofNat 64 n).msb = true := by
    rw [BitVec.msb_or, show irqMask.msb = true from rfl, Bool.true_or]
  constructor
  · intro h
    obtain ⟨i, same, ready, best⟩ := h.best msb
    have : n = i := irqCode_inj (by omega) (pending_lt ready.1) same
    subst this
    exact ⟨ready, best⟩
  · rintro ⟨ready, best⟩
    exact ⟨iff_of_true msb ⟨n, ready⟩, fun _ => ⟨n, rfl, ready, best⟩⟩

/-- What `decode` reports is the right interrupt exactly under the condition, in any state of a
mode. -/
theorem selects_report_iff (rank : Nat → Nat) {s : ArchState} (small : s.get .priv < 4)
    {code : Word} (plain : code.msb = false) :
    Selects rank s ((irqException s).getD code) ↔ SelectsWhen rank s := by
  rcases irqException_cases s with ⟨on, n, highest, reported⟩ | ⟨silent, reported⟩
  · rw [reported, Option.getD_some, selects_some_iff rank s highest.1]
    have enable := (irqEnable_iff s).1 on
    have open' : ¬ (s.get .priv = modeM ∧ ¬ MieSet s) ∧
        ¬ (s.get .priv = 2 ∨ (s.get .priv = modeS ∧ ¬ SieSet s)) := by
      rcases enable with h | ⟨h, h'⟩ | ⟨h, h'⟩ <;> rw [h] <;>
        simp_all [modeU, modeS, modeM]
    rw [SelectsWhen, if_neg open'.1, if_neg open'.2]
    constructor
    · intro best
      exact .inl ⟨n, highest, best⟩
    · rintro (⟨n', highest', best⟩ | ⟨nothing, -⟩)
      · rwa [highest.unique highest']
      · exact absurd highest.2.1 (nothing n highest.1)
  · rw [reported, Option.getD_none, selects_none_iff rank s plain, SelectsWhen]
    split_ifs with masked super
    · exact iff_of_true (not_ready_of_masked masked.1 masked.2) trivial
    · simp only [ready_iff_of_super super, not_and, not_not]
    · have nothing : ∀ i, i < 32 → ¬ Pending s i := by
        rcases silent with off | nothing
        · rcases masked_of_not_enable small off with h | h
          · exact absurd h masked
          · exact absurd h super
        · exact nothing
      constructor
      · intro none
        exact .inr ⟨nothing, none⟩
      · rintro (⟨n, highest, -⟩ | ⟨-, none⟩)
        · exact absurd highest.2.1 (nothing n highest.1)
        · exact none

/-- In a reachable state, the interrupt `decode` reports is the right one, in the state `decode`
samples, exactly when `SelectsWhen` holds there. `irq_valids` has one enable for all that pends,
chosen by the mode, and the highest number wins; the theorem is for any ranking of what goes to
one mode. -/
theorem selects_iff (P : Platform δ) (rank : Nat → Nat) {m : Machine δ}
    (reached : m.Reachable P) (vaddr paddr : Word) (slot : DecodeInfo) :
    Returns (m.arch.decode P vaddr paddr slot) fun r =>
      (Selects rank r.1.state r.2.exception ↔ SelectsWhen rank r.1.state) := by
  refine (decode_spec P m.arch vaddr paddr slot).mono ?_
  rintro ⟨arch, info⟩ spec
  obtain ⟨code, raised, left⟩ := spec.reported
  have small := reached.priv_lt
  rw [left]
  refine selects_report_iff rank ?_ (bodyCode_msb small raised)
  rw [spec.frame.get .priv (by decide) (by decide) (by decide)]
  exact small

/-- `li t0, 0x88; csrw mie, t0; csrsi mstatus, 8`, then a CLINT raises its software and
its timer interrupt together. -/
def clintProgram : Machine Unit :=
  Machine.reset archCfg (imageOf [0x08800293, 0x30429073, 0x30046073, 0x00000013])

/-- The program up to its `nop`, then the CLINT. -/
def clintCalls : List (Call Unit) :=
  Machine.execAt 0x80000000 ++ Machine.execAt 0x80000004 ++ Machine.execAt 0x80000008 ++
    [.environment () (some 0x88) 0 0]

/-- The program comes to a machine in which both interrupts are pending and enabled. -/
theorem clintCalls_pends :
    ∃ m : Machine Unit, m.Reachable (ramOnly 4096) ∧
      ∃ r, m.arch.decode (ramOnly 4096) 0x8000000c 0x8000000c .zero = .ok r ∧
        r.2.exception = irqMask ||| BitVec.ofNat 64 7 ∧ r.1.state.get .mip = 0x88 ∧
        r.1.state.get .mie = 0x88 ∧ r.1.state.get .mideleg = 0 ∧
        r.1.state.get .mstatus = 0xa00000008 := by
  obtain ⟨r, ran, seen⟩ := exists_ok_of_toOption
    (show ((runSteps (Machine.step (ramOnly 4096)) clintProgram clintCalls >>= fun m =>
        m.arch.decode (ramOnly 4096) 0x8000000c 0x8000000c .zero).toOption.map fun r =>
          (r.2.exception, r.1.state.get .mip, r.1.state.get .mie, r.1.state.get .mideleg,
            r.1.state.get .mstatus)) =
        some (irqMask ||| BitVec.ofNat 64 7, 0x88, 0x88, 0, 0xa00000008) by decide +kernel)
  obtain ⟨m, reached, decoded⟩ := (bind_eq_ok _ _ _).1 ran
  simp only [Prod.mk.injEq] at seen
  exact ⟨m, ⟨archCfg, _, clintCalls, by decide, reached⟩, r, decoded, seen⟩

/-- With both interrupts pending, the one reported is the right one only if the condition
holds of `mip = mie = 0x88`. -/
theorem selects_iff_clintProgram :
    ∃ m : Machine Unit, m.Reachable (ramOnly 4096) ∧
      ∃ r, m.arch.decode (ramOnly 4096) 0x8000000c 0x8000000c .zero = .ok r ∧
        r.1.state.get .mip = 0x88 ∧ r.1.state.get .mie = 0x88 ∧
        (Selects archRank r.1.state r.2.exception ↔ SelectsWhen archRank r.1.state) := by
  obtain ⟨m, reached, r, decoded, -, mip, mie, -⟩ := clintCalls_pends
  exact ⟨m, reached, r, decoded, mip, mie,
    selects_iff (ramOnly 4096) archRank reached 0x8000000c 0x8000000c .zero r decoded⟩

/-- The timer interrupt, number 7, is reported over the software interrupt, number 3. -/
theorem not_selects_clintProgram :
    ∃ m : Machine Unit, m.Reachable (ramOnly 4096) ∧
      ∃ r, m.arch.decode (ramOnly 4096) 0x8000000c 0x8000000c .zero = .ok r ∧
        ¬ Selects archRank r.1.state r.2.exception := by
  obtain ⟨m, reached, r, decoded, code, mip, mie, mideleg, mstatus⟩ := clintCalls_pends
  refine ⟨m, reached, r, decoded, ?_⟩
  have direct (i : Nat) : ¬ Delegated r.1.state i := by
    simp [Delegated, mideleg]
  have software : Ready r.1.state 3 := by
    refine ⟨⟨by rw [mip]; decide, by rw [mie]; decide⟩, .inl ⟨direct 3, .inr ?_⟩⟩
    rw [MieSet, mstatus]
    decide
  rw [code, selects_some_iff archRank _ (by decide)]
  rintro ⟨-, best⟩
  exact best 3 software (.inr ⟨iff_of_false (direct 3) (direct 7), by decide⟩)

end CPUDelaySim.Riscv
