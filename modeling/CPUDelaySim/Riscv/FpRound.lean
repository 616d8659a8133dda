import CPUDelaySim.Riscv.FpTrap

/-!
# Rounding modes

The `rm` field of a floating-point instruction names one of five modes, or stands for the one
in `frm`, and two of its values are reserved.  `setrm` assigns the field to the library's own
enumeration, which puts the modes in another order and has three of its own above them.  So
the modes with the same number on both sides are right, and no other (`roundsAs_iff`).
-/

namespace CPUDelaySim.Riscv

variable {δ : Type}

open RiscvArch

/-! ### The two encodings -/

/-- The rounding modes of the manual. -/
inductive RoundingMode
  | rne | rtz | rdn | rup | rmm
  deriving DecidableEq, Repr

namespace RoundingMode

/-- The encoding in `rm` and `frm`; 5 and 6 are reserved, and 7 is no mode of its own. -/
def ofRm (rm : BitVec 3) : Option RoundingMode :=
  if rm = 0 then some rne
  else if rm = 1 then some rtz
  else if rm = 2 then some rdn
  else if rm = 3 then some rup
  else if rm = 4 then some rmm
  else none

/-- The mode of an instruction, when `frm` was last written so. -/
def resolve (rm frm : BitVec 3) : Option RoundingMode :=
  if rm = 7 then ofRm frm else ofRm rm

/-- `FloatRoundMode`. -/
def soft : RoundingMode → Byte
  | rne => 0
  | rdn => 1
  | rup => 2
  | rtz => 3
  | rmm => 4

/-- The field and the enumeration agree on two modes only. -/
theorem soft_resolve {rm frm : BitVec 3} {mode : RoundingMode}
    (resolved : resolve rm frm = some mode) :
    mode.soft = rm.setWidth 8 ↔ rm = 0 ∨ rm = 4 := by
  revert rm frm mode
  decide

/-- The static modes of the library. -/
theorem resolve_plain {rm : BitVec 3} (plain : rm = 0 ∨ rm = 4) (frm : BitVec 3) :
    ∃ mode, resolve rm frm = some mode := by
  rcases plain with rfl | rfl
  · exact ⟨rne, rfl⟩
  · exact ⟨rmm, rfl⟩

end RoundingMode

/-! ### The instructions with an `rm` field -/

/-- The values of `funct5` in `OP-FP` whose instructions have an `rm` field. -/
def rmFunct5 : List (BitVec 32) :=
  [0x00000000, 0x08000000, 0x10000000, 0x18000000, 0x58000000, 0x40000000, 0xc0000000, 0xd0000000]

/-- A fused operation, an arithmetic one, a root or a conversion. -/
def HasRm (word : BitVec 32) : Prop :=
  word &&& 0x7f ∈ [0x43, 0x47, 0x4b, 0x4f] ∨ word &&& 0x7f = 0x53 ∧ word &&& 0xf8000000 ∈ rmFunct5

/-- A body that rounds as the field says, and calls the library. -/
def Body.Rounds (b : Body) (rm : BitVec 3) : Prop :=
  ∃ dst op args box type, b = .fp dst (some rm) (.call op args box) type

/-- The row's body, if there is one, rounds as the field of its word says. -/
def Row.Rounds (r : Row) : Prop :=
  ∀ word, r.body word = .notImplemented ∨ (r.body word).Rounds (field word 12 3)

/-- A row that stops the simulator rounds nothing. -/
theorem rounds_of_exits {rows : List (BitVec 32 × BitVec 32)} : ∀ r ∈ exits rows, r.Rounds :=
  fun _ row word => .inl (exits_body row word)

/-- The fused operations round. -/
theorem fusedRows_rounds : ∀ r ∈ rows43 ++ rows47 ++ rows4B ++ rows4F, r.Rounds := by
  unfold rows43 rows47 rows4B rows4F
  simp only [List.forall_mem_append]
  simp only [List.forall_mem_cons]
  refine ⟨⟨⟨⟨⟨rounds_of_exits, ?_, fun _ none => nomatch none⟩, rounds_of_exits⟩, rounds_of_exits⟩,
    rounds_of_exits⟩, rounds_of_exits⟩
  exact fun word => .inr ⟨_, _, _, _, _, rfl⟩

/-- A row of `OP-FP` is one for an instruction without the field, or rounds as it says. -/
theorem rows53_rounds : ∀ r ∈ rows53,
    (r.mask &&& 0xf8000000 = 0xf8000000 ∧ r.value &&& 0xf8000000 ∉ rmFunct5) ∨ r.Rounds := by
  unfold rows53
  simp only [List.forall_mem_append]
  simp only [List.forall_mem_cons]
  repeat' refine And.intro ?_ ?_
  all_goals first
    | exact fun r row => .inr (rounds_of_exits r row)
    | exact fun _ none => nomatch none
    | exact .inl ⟨by decide, by decide⟩
    | exact .inr fun word => .inr ⟨_, _, _, _, _, rfl⟩

/-- An implemented instruction with an `rm` field rounds as that field says. -/
theorem selected_rounds {word : BitVec 32} (rm : HasRm word)
    (present : (selected word false).Implemented) :
    (selected word false).Rounds (field word 12 3) := by
  rcases selected_row word false with none | ⟨r, row, test, body⟩
  · rw [none] at present
    exact absurd present id
  rw [body] at present ⊢
  rw [if_neg (by nofun)] at row
  simp only [rows32] at row
  have rounds : r.Rounds := by
    rcases rm with fused | ⟨opcode, funct5⟩
    · apply fusedRows_rounds
      simp only [List.mem_cons, List.not_mem_nil, or_false] at fused
      simp only [List.mem_append]
      rcases fused with h | h | h | h <;> rw [h] at row
      · exact .inl (.inl (.inl row))
      · exact .inl (.inl (.inr row))
      · exact .inl (.inr row)
      · exact .inr row
    · rw [opcode] at row
      rcases rows53_rounds r row with ⟨covers, other⟩ | rounds
      · rw [← test, BitVec.and_assoc, covers] at other
        exact absurd funct5 other
      · exact rounds
  rcases rounds word with absent | rounds
  · rw [absent] at present
    exact absurd present id
  · exact rounds

/-! ### The call of the library -/

/-- Whatever the library is, the body is done once it has answered one call in this mode. -/
def Body.CallsIn (P : Platform δ) (b : Body) (ctx : Ctx δ) (mode : Byte) : Prop :=
  ∃ op args flags, ∃ k : Option (Word × BitVec 16) → Except Abort (Bool × Ctx δ),
    ∀ float, b.exec { P with float := float } ctx = k (float.call op args mode flags)

/-- The mode that `setrm` assigns is the field. -/
theorem setrm_floatRoundingMode (s : ArchState) (rm : BitVec 3) :
    (s.setrm rm).floatRoundingMode = rm.setWidth 8 := by
  apply BitVec.eq_of_getLsbD_eq
  intro i bound
  rw [ArchState.floatRoundingMode, ArchState.setrm, ArchState.get_set_self,
    BitVec.getLsbD_extractLsb', mergeMask_getLsbD,
    show (0xff00000000 : Word) = (BitVec.allOnes 8).setWidth 64 <<< 32 from rfl,
    BitVec.getLsbD_shiftLeft, BitVec.getLsbD_shiftLeft, BitVec.getLsbD_setWidth,
    BitVec.getLsbD_setWidth, BitVec.getLsbD_setWidth, BitVec.getLsbD_allOnes]
  have wide : 32 + i < 64 := by omega
  have above : ¬ 32 + i < 32 := by omega
  have short : i < 64 := by omega
  simp [bound, wide, above, short]

section Calls

variable {P : Platform δ} {b : Body} {rm : BitVec 3} {ctx : Ctx δ}

/-- With the unit on, the body calls the library in the mode with the field's number, and in
no other. -/
theorem callsIn_iff (rounds : b.Rounds rm) (on : ctx.arch.state.fpEnabled = true) (mode : Byte) :
    b.CallsIn P ctx mode ↔ mode = rm.setWidth 8 := by
  obtain ⟨dst, op, args, box, type, rfl⟩ := rounds
  let s := ctx.arch.state.dirtyFs.setrm rm
  let finish (r : Option (Word × BitVec 16)) : Except Abort (Bool × Ctx δ) :=
    r.elim (.error .softfloat) fun v =>
      .ok (true, (((ctx.setState ctx.arch.state.dirtyFs).setState
        (s.setFlags v.2)).setDst0 dst.word (box v.1)).setType type.instType)
  have calls (float : SoftFloat) :
      (Body.fp dst (some rm) (.call op args box) type).exec { P with float := float } ctx =
        finish (float.call op (args s) (rm.setWidth 8) s.floatExceptionFlags) := by
    simp only [Body.exec, requireFpu, on, Bool.not_true, Bool.false_eq_true, if_false, FpCalc.run]
    rw [show ((ctx.setState ctx.arch.state.dirtyFs).arch.state.rounded (some rm)) = s from rfl,
      setrm_floatRoundingMode]
    cases float.call op (args s) (rm.setWidth 8) s.floatExceptionFlags <;> rfl
  constructor
  · rintro ⟨op', args', flags', k, factors⟩
    by_contra other
    -- a library that answers in the other mode alone cannot be told from one that never does
    let never : SoftFloat := ⟨fun _ _ _ _ => none⟩
    let sometimes : SoftFloat := ⟨fun _ _ m _ => if m = mode then none else some (0, 0)⟩
    have same := (factors never).trans
      (show k (never.call op' args' mode flags') = k (sometimes.call op' args' mode flags') by
        simp [never, sometimes])
    rw [← factors sometimes, calls, calls] at same
    simp [never, sometimes, finish, Ne.symm other] at same
  · rintro rfl
    exact ⟨op, args s, s.floatExceptionFlags, finish, calls⟩

/-- With the unit off no mode matters. -/
theorem callsIn_off (rounds : b.Rounds rm) (off : ctx.arch.state.fpEnabled = false) (mode : Byte) :
    b.CallsIn P ctx mode := by
  obtain ⟨dst, op, args, box, type, rfl⟩ := rounds
  refine ⟨op, [], 0, fun _ => .ok (true, ctx.raise excII), fun float => ?_⟩
  simp only [Body.exec, requireFpu, off]
  rfl

/-- With the unit on it raises nothing. -/
theorem exec_rounds (rounds : b.Rounds rm) (on : ctx.arch.state.fpEnabled = true) :
    Returns (b.exec P ctx) fun r => r.2.info.exception = ctx.info.exception := by
  obtain ⟨dst, op, args, box, type, rfl⟩ := rounds
  simp only [Body.exec, requireFpu_returns, returns_bind, returns_pure]
  exact ⟨fun off => absurd (off.symm.trans on) (by rintro ⟨⟩), fun _ r _ => rfl⟩

end Calls

/-- What an instruction with an `rm` field should do when `frm` was last written so: run its
operation in the mode that is meant, or raise `EXC_II` if none is. -/
def RoundsAs (P : Platform δ) (arch a : RiscvArch δ) (vaddr paddr : Word) (slot i : DecodeInfo)
    (frm : BitVec 3) : Prop :=
  match RoundingMode.resolve (field i.inst 12 3) frm with
  | some mode => (selected i.inst false).CallsIn P (bodyCtx a vaddr paddr i) mode.soft
  | none => ∃ d, arch.decode P vaddr paddr slot = .ok d ∧ d.2.exception = excII

/-- Whatever `frm` was last written, an implemented instruction with an `rm` field does so
exactly when the unit is off or the field is RNE or RMM. `setrm` hands the field to the library
as it is, whose modes are numbered otherwise, and it looks neither at `frm` nor for the reserved
values. -/
theorem roundsAs_iff (P : Platform δ) {arch a : RiscvArch δ} (vaddr : Word) {paddr : Word}
    {slot i : DecodeInfo} (fetched : arch.fetch P paddr slot = .ok (false, a, i))
    (rm : HasRm i.inst) (present : (selected i.inst false).Implemented)
    (quiet : irqException a.state = none) (frm : BitVec 3) :
    RoundsAs P arch a vaddr paddr slot i frm ↔
      a.state.get .mstatus &&& mstatusFS = 0 ∨ field i.inst 12 3 = 0 ∨ field i.inst 12 3 = 4 := by
  have rounds := selected_rounds rm present
  have decode : arch.decode P vaddr paddr slot = (selected i.inst false).exec P
      (bodyCtx a vaddr paddr i) >>= fun r => .ok (r.2.arch, report r.2) := by
    rw [decode_eq, fetched]
    rfl
  by_cases unit : a.state.get .mstatus &&& mstatusFS = 0
  · -- the guard raises `EXC_II` before anything else
    refine iff_of_true ?_ (.inl unit)
    have off : (bodyCtx a vaddr paddr i).arch.state.fpEnabled = false := by
      change (a.state.get .mstatus &&& mstatusFS != 0) = false
      rw [unit]
      rfl
    unfold RoundsAs
    split
    · exact callsIn_off rounds off _
    · have guarded : (selected i.inst false).Guarded := by
        obtain ⟨dst, op, args, box, type, body⟩ := rounds
        rw [body]
        trivial
      obtain ⟨info, ran, illegal⟩ := exec_guarded (P := P) guarded off
      refine ⟨_, by rw [decode, ran]; rfl, ?_⟩
      rw [report_exception,
        show irqException (bodyCtx a vaddr paddr i).arch.state = none from quiet]
      exact illegal
  · have on : (bodyCtx a vaddr paddr i).arch.state.fpEnabled = true := by
      change (a.state.get .mstatus &&& mstatusFS != 0) = true
      simpa using unit
    unfold RoundsAs
    split
    · rename_i mode resolved
      rw [callsIn_iff rounds on, RoundingMode.soft_resolve resolved, or_iff_right unit]
    · -- A reserved mode is to be illegal, but the body raises nothing.
      rename_i reserved
      refine iff_of_false ?_ ?_
      · rintro ⟨d, decoded, illegal⟩
        rw [decode, bind_eq_ok] at decoded
        obtain ⟨r, ran, result⟩ := decoded
        have silent := exec_rounds rounds on r ran
        cases result
        rw [report_exception, silent] at illegal
        cases pending : irqException r.2.arch.state with
        | none =>
            rw [pending] at illegal
            cases illegal
        | some code =>
            rw [pending] at illegal
            -- An interrupt that pends hides the code, and its top bit tells it from `EXC_II`.
            have top := irqException_msb pending
            rw [show code = excII from illegal] at top
            cases top
      · rintro (off | plain)
        · exact unit off
        · obtain ⟨mode, resolved⟩ := RoundingMode.resolve_plain plain frm
          cases reserved.symm.trans resolved

/-- A dirty unit is on. -/
theorem fpEnabled_of_dirty {s : ArchState} (unit : s.get .mstatus &&& mstatusFS = mstatusFS) :
    s.fpEnabled = true := by
  rw [ArchState.fpEnabled, unit]
  decide

/-- A machine with the unit on, at an instruction. -/
def unitOn (word : BitVec 32) : RiscvArch Unit :=
  let a := RiscvArch.reset archCfg (imageOf [word])
  { a with state := a.state.dirtyFs }

/-- The word of the example is fetched with the unit dirty and no interrupt pending. -/
theorem unitOn_fetch (word : BitVec 32) (seen : ((unitOn word).fetch (ramOnly 4096) 0x80000000
      .zero).toOption.map (fun r => (r.1, r.2.2.inst, irqException r.2.1.state,
        r.2.1.state.get .mstatus &&& mstatusFS)) = some (false, word, none, mstatusFS)) :
    ∃ a i, (unitOn word).fetch (ramOnly 4096) 0x80000000 .zero = .ok (false, a, i) ∧
      i.inst = word ∧ irqException a.state = none ∧
      a.state.get .mstatus &&& mstatusFS = mstatusFS := by
  obtain ⟨⟨rvc, a, i⟩, fetched, seen⟩ := exists_ok_of_toOption seen
  simp only [Prod.mk.injEq] at seen
  obtain ⟨rfl, inst, quiet, unit⟩ := seen
  exact ⟨a, i, fetched, inst, quiet, unit⟩

/-- `fadd.s ft0, ft0, ft0, rtz` rounds down. -/
theorem not_roundsAs :
    ∃ a i, (unitOn 0x00001053).fetch (ramOnly 4096) 0x80000000 .zero = .ok (false, a, i) ∧
      (selected i.inst false).CallsIn (ramOnly 4096) (bodyCtx a 0x80000000 0x80000000 i)
        RoundingMode.rdn.soft ∧
      ¬ RoundsAs (ramOnly 4096) (unitOn 0x00001053) a 0x80000000 0x80000000 .zero i 0 := by
  obtain ⟨a, i, fetched, inst, -, unit⟩ := unitOn_fetch 0x00001053 (by decide +kernel)
  have on : (bodyCtx a 0x80000000 0x80000000 i).arch.state.fpEnabled = true :=
    fpEnabled_of_dirty unit
  have rounds : (selected i.inst false).Rounds 1 := by
    rw [inst]
    exact selected_rounds (.inr ⟨rfl, by decide⟩) trivial
  refine ⟨a, i, fetched, (callsIn_iff rounds on _).2 rfl, ?_⟩
  -- the field means RTZ, which is 3 in the library
  unfold RoundsAs
  rw [show RoundingMode.resolve (field i.inst 12 3) 0 = some .rtz by rw [inst]; rfl]
  intro calls
  have clash := (callsIn_iff rounds on _).1 calls
  revert clash
  decide

/-- `fadd.s ft0, ft0, ft0, rne` rounds to the nearest even. -/
theorem roundsAs_iff_nearest :
    ∃ a i, (unitOn 0x00000053).fetch (ramOnly 4096) 0x80000000 .zero = .ok (false, a, i) ∧
      RoundsAs (ramOnly 4096) (unitOn 0x00000053) a 0x80000000 0x80000000 .zero i 0 := by
  obtain ⟨a, i, fetched, inst, quiet, unit⟩ := unitOn_fetch 0x00000053 (by decide +kernel)
  refine ⟨a, i, fetched, (roundsAs_iff (ramOnly 4096) 0x80000000 fetched ?_ ?_ quiet 0).2 ?_⟩
  · rw [inst]
    exact .inr ⟨rfl, by decide⟩
  · rw [inst]
    trivial
  · rw [inst]
    exact .inr (.inl (by decide))

end CPUDelaySim.Riscv
