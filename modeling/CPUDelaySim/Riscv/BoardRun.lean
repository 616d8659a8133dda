import CPUDelaySim.Device.Board
import CPUDelaySim.Riscv.DeviceAccess
import CPUDelaySim.Riscv.Patch

/-!
# Runs of a machine on a board

On a board the devices no longer do what they like: the CLINT ticks, another device may
move and drive its lines, and each publishes what the handler's vector has become.  A
`BoardCall` is one of these or a call of the processor, and every board run is a run of
the `Machine` underneath.

`mip` has a second writer, the commit loop.  A destination aimed at it writes the bits of
its mask, and those of a decoded record lie in `delegable_ints` (`decode_maskedMip`).
-/

namespace CPUDelaySim.Riscv

variable {δ σ : Type}

open RiscvArch Mmio

/-! ### The platform and its calls -/

/-- The platform with the devices of a board. -/
def onBoard (B : Board σ) (size : Nat) (float : SoftFloat) (junk : Word) :
    Platform (Devices σ) where
  map := { size := size, devices := B.devices }
  float := float
  junk := junk

/-- What happens to a machine on a board between two states. -/
inductive BoardCall (σ : Type)
  | decode (vaddr paddr : Word) (slot : DecodeInfo)
  | handleException (exception paddr : Word) (slot : DecodeInfo)
  | translateAddr (vaddr : Word) (type : FetchType)
  | updateEnv
  | clintTick
  /-- Another device moves on its own and drives its lines. -/
  | other (state : σ) (levels : List (Mmio.Line × Bool))
  | clock (tick instret : Word)

namespace BoardCall

/-- The devices move and publish a vector; the counters stay. -/
def devicesMove (m : Machine (Devices σ)) (r : Devices σ × Option Word) : Call (Devices σ) :=
  .environment r.1 r.2 m.arch.tick m.arch.instret

/-- The call of the machine underneath. -/
def call (m : Machine (Devices σ)) : BoardCall σ → Call (Devices σ)
  | .decode vaddr paddr slot => .decode vaddr paddr slot
  | .handleException exception paddr slot => .handleException exception paddr slot
  | .translateAddr vaddr type => .translateAddr vaddr type
  | .updateEnv => .updateEnv
  | .clintTick => devicesMove m m.arch.memory.dev.clintTick
  | .other state levels =>
      devicesMove m (({ m.arch.memory.dev with other := state } : Devices σ).drive levels)
  | .clock tick instret => .environment m.arch.memory.dev none tick instret

/-- One call on a board. -/
def step (P : Platform (Devices σ)) (m : Machine (Devices σ)) (c : BoardCall σ) :
    Except Abort (Machine (Devices σ)) :=
  m.step P (c.call m)

/-- The calls that execute the word at an untranslated pc, with a tick of the CLINT after
them. -/
def execAt (pc : Word) : List (BoardCall σ) := [.decode pc pc .zero, .updateEnv, .clintTick]

/-- The lines the call drives are among those `ok` allows. -/
def Drives (ok : Mmio.Line → Prop) : BoardCall σ → Prop
  | .other _ levels => ∀ l ∈ levels, ok l.1
  | _ => True

end BoardCall

/-- The machine on a board at reset. -/
def boardReset (config : List (StateWord × Word)) (ram : Nat → Byte) (other : σ) :
    Machine (Devices σ) :=
  Machine.reset config ⟨ram, .init other⟩

/-! ### What the devices of a board keep -/

/-- The devices other than the CLINT drive lines that `ok` allows. -/
def BoardDrives (B : Board σ) (ok : Mmio.Line → Prop) : Prop :=
  ∀ p, p ∈ B.before ∨ p ∈ B.after → ∀ s addr size,
    (∀ l ∈ (p.read s addr size).2.2, ok l.1) ∧
      ∀ data, ∀ l ∈ (p.write s addr size data).2, ok l.1

/-- The relation survives a move of the other devices that drives lines `ok` allows. -/
def OtherClosed (ok : Mmio.Line → Prop) (J : Devices σ → Word → Prop) : Prop :=
  ∀ d mip state levels, (∀ l ∈ levels, ok l.1) → J d mip →
    J (({ d with other := state } : Devices σ).drive levels).1
      ((({ d with other := state } : Devices σ).drive levels).2.getD mip)

/-- The relation survives a write to the CLINT. -/
def ClintClosed (J : Devices σ → Word → Prop) : Prop :=
  ∀ d mip offset data, J d mip →
    J (({ d with clint := (d.clint.write offset data).1 } : Devices σ).drive
        (d.clint.write offset data).2).1
      ((({ d with clint := (d.clint.write offset data).1 } : Devices σ).drive
        (d.clint.write offset data).2).2.getD mip)

/-- A board drives some lines. -/
theorem boardDrives_any (B : Board σ) : BoardDrives B fun _ => True :=
  fun _ _ _ _ _ => ⟨fun _ _ => trivial, fun _ _ _ => trivial⟩

/-- A call drives some lines. -/
theorem drives_any (c : BoardCall σ) : c.Drives fun _ => True := by
  cases c with
  | other => exact fun _ _ => trivial
  | _ => trivial

/-- The machine is wired to the devices that moved. -/
theorem environment_wired (P : Platform (Devices σ)) {J : Devices σ → Word → Prop}
    {m : Machine (Devices σ)} (r : Devices σ × Option Word) (tick instret : Word)
    (held : J r.1 (r.2.getD (m.arch.state.get .mip))) :
    Returns (m.step P (.environment r.1 r.2 tick instret)) fun m' => Wired J m'.arch :=
  (returns_ok _ _).2 ((wired_afterAccess { m.arch with tick := tick, instret := instret }
    { m.arch.memory with dev := r.1 } r.2).2 held)

/-- A device of the board is the CLINT or a peripheral on the bus. -/
theorem mem_devices {B : Board σ} {d : Device (Devices σ)} (listed : d ∈ B.devices) :
    d = B.clint ∨ ∃ p, (p ∈ B.before ∨ p ∈ B.after) ∧ d = Board.onBus p := by
  simp only [Board.devices, List.mem_append, List.mem_map, List.mem_cons] at listed
  rcases listed with ⟨p, before, rfl⟩ | rfl | ⟨p, after, rfl⟩
  · exact .inr ⟨p, .inl before, rfl⟩
  · exact .inl rfl
  · exact .inr ⟨p, .inr after, rfl⟩

section Closed

variable {B : Board σ} {ok : Mmio.Line → Prop} {J : Devices σ → Word → Prop}
  (drives : BoardDrives B ok) (other : OtherClosed ok J)

include drives other

/-- A read on the bus keeps what each device keeps. -/
theorem readClosed_onBoard (size : Nat) (float : SoftFloat) (junk : Word) :
    ReadClosed (onBoard B size float junk).map J where
  read d listed dev mip addr n held := by
    rcases mem_devices listed with rfl | ⟨p, known, rfl⟩
    · exact held
    · exact other _ _ _ _ (drives p known dev.other addr n).1 held

/-- An access on the bus keeps what each device keeps. -/
theorem accessClosed_onBoard (clint : ClintClosed J) (size : Nat) (float : SoftFloat)
    (junk : Word) : AccessClosed (onBoard B size float junk).map J where
  toReadClosed := readClosed_onBoard drives other size float junk
  write d listed dev mip addr n data held := by
    rcases mem_devices listed with rfl | ⟨p, known, rfl⟩
    · exact clint _ _ _ _ held
    · exact other _ _ _ _ ((drives p known dev.other addr n).2 data) held

/-- Every call but `updateEnv` keeps the relation, if a tick does. -/
theorem step_wired_of_ne (size : Nat) (float : SoftFloat) (junk : Word)
    {m : Machine (Devices σ)} (wired : Wired J m.arch) {c : BoardCall σ} (allowed : c.Drives ok)
    (reads : c ≠ .updateEnv)
    (tick : c = .clintTick → ∀ d mip, J d mip → J d.clintTick.1 (d.clintTick.2.getD mip)) :
    Returns (c.step (onBoard B size float junk) m) fun m' => Wired J m'.arch := by
  have closed := readClosed_onBoard drives other size float junk
  cases c with
  | decode vaddr paddr slot =>
      simp only [BoardCall.step, BoardCall.call, Machine.step, returns_bind, returns_pure]
      exact decode_wired closed wired vaddr paddr slot
  | handleException exception paddr slot =>
      simp only [BoardCall.step, BoardCall.call, Machine.step]
      split
      · rename_i fault
        simp only [handleException, if_pos fault, returns_ok]
        exact wired
      · exact (returns_ok _ _).2 wired
  | translateAddr vaddr type =>
      simp only [BoardCall.step, BoardCall.call, Machine.step, returns_bind, returns_pure]
      exact translateAddr_wired closed wired vaddr type excNone
  | updateEnv => exact absurd rfl reads
  | clintTick => exact environment_wired _ _ _ _ (tick rfl _ _ wired)
  | other state levels => exact environment_wired _ _ _ _ (other _ _ _ _ allowed wired)
  | clock now instret => exact environment_wired _ (m.arch.memory.dev, none) now instret wired

/-- Every call keeps the relation, if a tick, a write to the CLINT and the commit loop do. -/
theorem step_wired (clint : ClintClosed J) (size : Nat) (float : SoftFloat) (junk : Word)
    {m : Machine (Devices σ)} (wired : Wired J m.arch) {c : BoardCall σ} (allowed : c.Drives ok)
    (tick : c = .clintTick → ∀ d mip, J d mip → J d.clintTick.1 (d.clintTick.2.getD mip))
    (committed : c = .updateEnv → ∀ info, m.info = some info → info.exception = excNone →
      Returns (commitDsts m.arch.state info) fun s => J m.arch.memory.dev (s.get .mip)) :
    Returns (c.step (onBoard B size float junk) m) fun m' => Wired J m'.arch := by
  by_cases update : c = .updateEnv
  swap
  · exact step_wired_of_ne drives other size float junk wired allowed update tick
  subst update
  simp only [BoardCall.step, BoardCall.call, Machine.step]
  cases record : m.info with
  | none => exact returns_error _ _
  | some info =>
      simp only [returns_bind, returns_pure]
      exact updateEnv_wired (accessClosed_onBoard drives other clint size float junk) wired
        (committed rfl info record)

end Closed

/-! ### The commit loop and `mip` -/

/-- Only the offset of `mip` reaches it. -/
theorem fieldAt_mip {off shift : Nat} (found : fieldAt off = some (.mip, shift)) :
    off = StateWord.mip.offset ∧ shift = 0 := by
  unfold fieldAt at found
  split_ifs at found
  all_goals try cases found
  simp only [Option.map_eq_some_iff, Prod.mk.injEq] at found
  obtain ⟨w, named, rfl, rfl⟩ := found
  refine ⟨?_, rfl⟩
  unfold scalarAt at named
  split at named <;> simp only [Option.some.injEq, reduceCtorEq] at named
  rfl

/-- The destination is aimed at a bit of `mip`. -/
def AimsAtMip (d : Dst) (k : Nat) : Prop := d.idx = StateWord.mip.idx ∧ d.mask.getLsbD k = true

instance (d : Dst) (k : Nat) : Decidable (AimsAtMip d k) := inferInstanceAs (Decidable (_ ∧ _))

/-- A committed destination moves the bits of `mip` it is aimed at, and no other. -/
theorem commit_mip {s s' : ArchState} {d : Dst} (h : s.commit d = .ok s') (k : Nat) :
    (s'.get .mip).getLsbD k =
      if AimsAtMip d k then d.data.getLsbD k else (s.get .mip).getLsbD k := by
  by_cases aimed : d.idx = StateWord.mip.idx
  · obtain ⟨idx, mask, data⟩ := d
    subst aimed
    rw [ArchState.commit_idx] at h
    cases h
    rw [ArchState.get_set_self, mergeMask_getLsbD]
    by_cases live : mask.getLsbD k = true <;> simp [AimsAtMip, live]
  · rw [if_neg fun aims => aimed aims.1]
    refine congrArg (·.getLsbD k) (ArchState.commit_get_of_ne h .mip (.inr ?_))
    intro shift found
    refine aimed (BitVec.eq_of_toNat_eq ?_)
    rw [(fieldAt_mip found).1, StateWord.idx_toNat]

/-- The bit of `mip` that the commit loop leaves, if a destination is aimed at it. -/
def mipCommitted (info : DecodeInfo) (k : Nat) : Option Bool :=
  if AimsAtMip info.dst2 k then some (info.dst2.data.getLsbD k)
  else if AimsAtMip info.dst1 k then some (info.dst1.data.getLsbD k)
  else if AimsAtMip info.dst0 k then some (info.dst0.data.getLsbD k)
  else none

/-- What a commit leaves of a bit of `mip`. -/
theorem commitDsts_mip (s : ArchState) (info : DecodeInfo) (k : Nat) :
    Returns (commitDsts s info) fun s' =>
      (s'.get .mip).getLsbD k = (mipCommitted info k).getD ((s.get .mip).getLsbD k) := by
  simp only [commitDsts, returns_bind]
  intro s₀ h₀ s₁ h₁ s₂ h₂
  rw [commit_mip h₂, commit_mip h₁, commit_mip h₀, mipCommitted]
  split_ifs <;> rfl

/-- The destinations aimed at `mip` keep to the bits of `delegable_ints`. -/
def MaskedMip (info : DecodeInfo) : Prop :=
  ∀ k, delegableInts.getLsbD k = false → mipCommitted info k = none

/-- A record that does not write `mip` does not write those two bits. -/
theorem maskedMip_of_apart {info : DecodeInfo} (apart : Apart info .mip) : MaskedMip info := by
  have dst {d : Dst} (h : DstApart d .mip) (k : Nat) : ¬ AimsAtMip d k := by
    rintro ⟨idx, live⟩
    rcases h with dead | apart
    · rw [dead] at live
      simp at live
    · refine apart 0 ?_
      rw [idx, StateWord.idx_toNat]
      exact fieldAt_offset .mip
  intro k _
  rw [mipCommitted, if_neg (dst apart.dst2 k), if_neg (dst apart.dst1 k),
    if_neg (dst apart.dst0 k)]

/-- `mip` and `sip` are the entries that write `mip`, and their masks lie in
`delegable_ints`. -/
theorem csrTable_mip : ∀ r ∈ csrTable, ∀ csrno, r.first ≤ csrno → csrno ≤ r.last →
    (r.ops csrno).targets .mip → ∃ op, (r.ops csrno).op = some op ∧ op.word = .mip ∧
      ∀ s k, (op.mask s).getLsbD k = true → delegableInts.getLsbD k = true := by
  simp only [csrTable, List.forall_mem_cons, CsrRow.one, CsrOps.rw, CsrOps.ro, CsrOps.rmw]
  refine ⟨?_, ?_, ?_, ?_, ?_, ?_, ?_, ?_, ?_, ?_, ?_, ?_, ?_, ?_, ?_, ?_, ?_, ?_, ?_, ?_, ?_,
    ?_, ?_, ?_, ?_, ?_, ?_, ?_, ?_, ?_, ?_, ?_, ?_, ?_, ?_, ?_, ?_, ?_, ?_, ?_, ?_,
    by rintro r ⟨⟩⟩
  all_goals intro csrno low high target
  case refine_24 => exact ⟨rmwMip, rfl, rfl, fun _ _ live => live⟩
  case refine_35 =>
    refine ⟨rmwSip, rfl, rfl, ?_⟩
    intro s k live
    simp only [rmwSip, BitVec.getLsbD_and, Bool.and_eq_true] at live
    exact live.1
  case refine_37 =>
    cases odd : (csrno.extractLsb' 0 2).getLsbD 0 with
    | true => simp only [CsrOps.targets, writePmpcfg, odd, if_true] at target
    | false =>
        simp only [CsrOps.targets, writePmpcfg, odd, Bool.false_eq_true, if_false] at target
        cases target
  all_goals first
    | exact target.elim
    | cases target; done
    | (rcases target with h | h; cases h; cases h)

/-- A CSR instruction writes `mip` under the mask of the bits that software may write. -/
theorem exec_csr_maskedMip (P : Platform δ) (rd : BitVec 5) (csrno : BitVec 12)
    (access : CsrAccess) (ctx : Ctx δ) (fresh : Fresh ctx.info) :
    Returns ((Body.csr rd csrno access).exec P ctx) fun r => MaskedMip r.2.info := by
  by_cases target : (Body.csr rd csrno access).targets .mip
  swap
  · exact (exec_spec P _ ctx fresh).mono fun r spec => maskedMip_of_apart (spec.apart _ target)
  obtain ⟨-, ops, registered, target⟩ := target.resolve_left (by simp)
  obtain ⟨op, found, word, masked⟩ := csrOps_of_table (p := fun _ ops =>
    ops.targets .mip → ∃ op, ops.op = some op ∧ op.word = .mip ∧
      ∀ s k, (op.mask s).getLsbD k = true → delegableInts.getLsbD k = true)
    (fun r row csrno low high => csrTable_mip r row csrno low high) registered target
  simp only [Body.exec, returns_bind, returns_pure, doCsr]
  cases checked : riscvCsrrwCheck csrno access.isWrite with
  | none =>
      have apart := fresh.apart .mip
      exact (returns_ok _ _).2 (maskedMip_of_apart ⟨apart.dst0, apart.dst1, apart.dst2⟩)
  | some ops' =>
      cases registered.symm.trans ((riscvCsrrwCheck_eq_some _ _ _).1 checked).1
      simp only [returns_bind, returns_pure, riscvCsrrw, found, returns_ok]
      intro k outside
      have dst2 : ¬ AimsAtMip ctx.info.dst2 k := by
        rintro ⟨-, live⟩
        rw [fresh.mask2] at live
        simp at live
      have dst1 : ¬ AimsAtMip ⟨op.word.idx, op.mask ctx.arch.state &&& access.mask ctx.arch.state,
          access.src ctx.arch.state⟩ k := by
        rintro ⟨-, live⟩
        simp only [BitVec.getLsbD_and, Bool.and_eq_true] at live
        rw [masked _ _ live.1] at outside
        cases outside
      have dst0 (data : Word) : ¬ AimsAtMip (Dst.full (.gpr rd) data) k := by
        rintro ⟨idx, -⟩
        have := congrArg BitVec.toNat idx
        have := rd.isLt
        simp [Dst.full, StateWord.offset] at *
        omega
      rw [mipCommitted, if_neg, if_neg, if_neg]
      · exact dst0 _
      · exact dst1
      · exact dst2

/-- A decoded record keeps to the bits of `delegable_ints`. -/
theorem decode_maskedMip (P : Platform δ) (arch : RiscvArch δ) (vaddr paddr : Word)
    (slot : DecodeInfo) :
    Returns (arch.decode P vaddr paddr slot) fun r => MaskedMip r.2 := by
  rw [decode_returns]
  rintro ⟨rvc, a, i⟩ -
  dsimp only
  have masked : Returns ((selected i.inst rvc).exec P (bodyCtx a vaddr paddr i)) fun r =>
      MaskedMip r.2.info := by
    by_cases csr : ∃ rd csrno access, selected i.inst rvc = .csr rd csrno access
    · obtain ⟨rd, csrno, access, csr⟩ := csr
      rw [csr]
      exact exec_csr_maskedMip P rd csrno access _ (fresh_cleared i)
    · refine (exec_spec P _ _ (fresh_cleared i)).mono fun r spec =>
        maskedMip_of_apart (spec.apart _ ?_)
      exact not_targets_plain (fun rd csrno access h => csr ⟨rd, csrno, access, h⟩) (by simp)
        (by simp) (by simp) (by simp)
  refine masked.mono ?_
  intro r held
  rw [report_eq]
  exact held

end CPUDelaySim.Riscv
