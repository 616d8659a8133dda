import CPUDelaySim.Riscv.Run

/-!
# The privilege mode

`priv` is written by trap entry, which enters S or M, and by the two returns, which
load it from two bits of `mstatus`.  Guest code writes both `MPP` bits, so an `MRET`
that finds them holding 2 leaves the machine in a mode that does not exist; an `SRET`
reads bit 9 of `mstatus` above `SPP`.  `privilegeLegal_iff` says that nothing else
goes wrong: a run keeps to the legal modes exactly when no return in it loads an
illegal one.
-/

namespace CPUDelaySim.Riscv

variable {δ : Type}

open RiscvArch

/-- In a legal mode every code `decode` leaves has a case. -/
theorem decodeCode_handled {priv code : Word} (legal : LegalPriv priv)
    (h : decodeCode priv code) : HandledCode code := by
  rcases h with irq | listed | call
  · exact .inl irq
  · simp only [List.mem_cons, List.not_mem_nil, or_false] at listed
    rcases listed with rfl | rfl | rfl | rfl | rfl | rfl | rfl | rfl | rfl <;> decide
  · rcases legal with rfl | rfl | rfl <;> subst call <;> decide

/-! ### One step -/

/-- The returns a step executes load a legal mode. -/
def Machine.ReturnLegal (m : Machine δ) : Prop :=
  (m.Executes excMRET → (m.arch.state.get .mstatus >>> 11) &&& 0x3 ≠ 2) ∧
    (m.Executes excSRET → (m.arch.state.get .mstatus).getLsbD 9 = false)

/-- What `MRET` loads from `MPP` is legal unless it is 2. -/
theorem legalPriv_mpp (v : Word) : LegalPriv (v &&& 0x3) ↔ v &&& 0x3 ≠ 2 := by
  rw [and_three]
  generalize v.setWidth 2 = u
  revert u
  decide

/-- What `SRET` loads is at most S exactly when the bit above `SPP` is clear. -/
theorem sret_le_modeS (mstatus : Word) :
    (mstatus >>> 8) &&& 0x3 ≤ modeS ↔ mstatus.getLsbD 9 = false := by
  have bit : mstatus.getLsbD 9 = ((mstatus >>> 8).setWidth 2).getLsbD 1 := by
    simp
  rw [and_three, bit]
  generalize (mstatus >>> 8).setWidth 2 = u
  revert u
  decide

/-- The modes up to supervisor mode are legal. -/
theorem legalPriv_of_le {v : Word} (h : v ≤ modeS) : LegalPriv v := by
  have : v.toNat ≤ 1 := h
  have small : v = 0 ∨ v = 1 := by
    rcases Nat.le_one_iff_eq_zero_or_eq_one.1 this with h | h
    · exact .inl (BitVec.eq_of_toNat_eq h)
    · exact .inr (BitVec.eq_of_toNat_eq h)
  rcases small with rfl | rfl <;> decide

namespace Machine

/-- A machine in a legal mode whose record has a handled code. -/
abbrev Sound (m : Machine δ) : Prop := m.Keeps LegalPriv HandledCode

/-- Every call keeps a sound machine sound, if the return it executes is legal. -/
theorem step_sound (P : Platform δ) {m : Machine δ} (sound : m.Sound) (c : Call δ)
    (returns : c = .updateEnv → m.ReturnLegal) : Returns (m.step P c) Sound := by
  refine step_keeps ⟨.inr (.inl rfl), .inr (.inr rfl), by decide, ?_⟩ P sound c ?_
  · intro priv code legal
    exact decodeCode_handled legal
  · intro update
    obtain ⟨mret, sret⟩ := returns update
    exact ⟨fun h => (legalPriv_mpp _).2 (mret h),
      fun h => legalPriv_of_le ((sret_le_modeS _).2 (sret h))⟩

/-- In a sound machine `updateEnv` does not reach an error exit. -/
theorem Keeps.avoids_exit (P : Platform δ) {m : Machine δ} (sound : m.Sound) :
    Avoids .exit (m.step P .updateEnv) := by
  simp only [step]
  cases record : m.info with
  | none => simp
  | some info =>
      have handled := sound.code info record
      rw [avoids_bind]
      refine ⟨?_, fun _ _ => avoids_pure _ _⟩
      rcases updateEnv_cases P m.arch info with
        ⟨-, tval, h⟩ | ⟨-, h⟩ | ⟨-, h⟩ | ⟨-, h⟩ | ⟨unhandled, -⟩
      · rw [h]; exact avoids_ok _ _
      · rw [h]; exact avoids_ok _ _
      · rw [h]; exact avoids_ok _ _
      · rw [h]; exact commit_avoids (by decide) (by decide) (by decide) P m.arch info
      · exact absurd handled unhandled

end Machine

/-! ### Runs -/

/-- Every return that the run executes loads a legal mode: `MRET` finds `MPP` other
than 2, `SRET` finds the bit above `SPP` clear. -/
def ReturnsLegal (P : Platform δ) (m : Machine δ) (calls : List (Call δ)) : Prop :=
  ∀ t, Visits (Machine.step P) m calls t .updateEnv → t.ReturnLegal

/-- The mode is legal along a run. -/
structure PrivilegeLegal (P : Platform δ) (m : Machine δ) (calls : List (Call δ)) :
    Prop where
  /-- In every state the run reaches, the mode is U, S or M. -/
  legal : ∀ before, before <+: calls →
    Returns (runSteps (Machine.step P) m before) fun t => LegalPriv t.priv
  /-- `updateEnv` never takes an error exit. -/
  noExit : ∀ t, Visits (Machine.step P) m calls t .updateEnv →
    Avoids .exit (t.step P .updateEnv)
  /-- `ecall` leaves 8, 9 or 11, unless an interrupt takes its place. -/
  ecall : ∀ t vaddr paddr slot, Visits (Machine.step P) m calls t (.decode vaddr paddr slot) →
    ∀ rvc arch info, t.arch.fetch P paddr slot = .ok (rvc, arch, info) →
      selected info.inst rvc = .ecall →
      Returns (t.arch.decode P vaddr paddr slot) fun r =>
        isIrq r.2 ∨ r.2.exception ∈ [excECU, excECS, excECM]
  /-- `SRET` returns to U or S. -/
  sret : ∀ t, Visits (Machine.step P) m calls t .updateEnv → t.Executes excSRET →
    Returns (t.step P .updateEnv) fun t' => t'.priv ≤ modeS

/-- `MRET` loads the two bits of `MPP`. -/
theorem step_mret (P : Platform δ) {m : Machine δ} (returned : m.Executes excMRET) :
    m.step P .updateEnv = .ok { m with arch := m.arch.doMret.2 } := by
  obtain ⟨info, record, code⟩ := returned
  simp only [Machine.step, record, updateEnv_mret P m.arch code]
  rfl

/-- `SRET` loads `SPP` and the bit above it. -/
theorem step_sret (P : Platform δ) {m : Machine δ} (returned : m.Executes excSRET) :
    m.step P .updateEnv = .ok { m with arch := m.arch.doSret.2 } := by
  obtain ⟨info, record, code⟩ := returned
  simp only [Machine.step, record, updateEnv_sret P m.arch code]
  rfl

/-- The mode `SRET` returns to is at most S exactly when the bit above `SPP` is clear. -/
theorem step_sret_priv (P : Platform δ) {m : Machine δ} (returned : m.Executes excSRET) :
    (Returns (m.step P .updateEnv) fun m' => m'.priv ≤ modeS) ↔
      (m.arch.state.get .mstatus).getLsbD 9 = false := by
  rw [step_sret P returned, returns_ok, ← sret_le_modeS, ← doSret_priv]
  rfl

/-- From a legal mode, `ecall` leaves one of its three codes. -/
theorem decode_ecall (P : Platform δ) (arch : RiscvArch δ) (vaddr paddr : Word)
    (slot : DecodeInfo) (legal : LegalPriv (arch.state.get .priv))
    (ecall : ∀ rvc a info, arch.fetch P paddr slot = .ok (rvc, a, info) →
      selected info.inst rvc = .ecall) :
    Returns (arch.decode P vaddr paddr slot) fun r =>
      isIrq r.2 ∨ r.2.exception ∈ [excECU, excECS, excECM] := by
  rw [decode_returns]
  refine ((fetch_frame P arch paddr slot).and_eq).mono ?_
  rintro ⟨rvc, a, info⟩ ⟨fetched, frame⟩
  rw [ecall rvc a info fetched]
  refine (returns_ok _ _).2 ?_
  simp only [isIrq, report_exception]
  cases reported : irqException _ with
  | some code => exact .inl (irqException_msb reported)
  | none =>
      right
      change excECU + a.state.get .priv ∈ _
      rw [frame.get (by decide)]
      rcases legal with h | h | h <;> rw [h] <;> decide

/-- A run from reset keeps to the legal modes exactly when every return in it loads one. Both
returns load two bits of `mstatus`, `SRET` one more than `SPP` has, and a guest may write 2 to
`MPP`; trap entry writes S and M only. -/
theorem privilegeLegal_iff (P : Platform δ) {config : List (StateWord × Word)}
    (legal : LegalPriv ((initConfig ArchState.zero config).get .priv)) (memory : Memory δ)
    (calls : List (Call δ)) :
    PrivilegeLegal P (Machine.reset config memory) calls ↔
      ReturnsLegal P (Machine.reset config memory) calls := by
  constructor
  · -- A return that loads an illegal mode breaks the run right after it.
    intro h t visit
    obtain ⟨before, after, rfl, ends⟩ := (visits_iff _ _ _ _ _).1 visit
    refine ⟨?_, ?_⟩
    · intro returned
      have reached := h.legal (before ++ [.updateEnv]) ⟨after, by simp⟩
      rw [runSteps_append, ends, returns_bind, returns_ok, runSteps_cons, step_mret P returned,
        returns_bind, returns_ok, runSteps_nil, returns_ok] at reached
      rw [← legalPriv_mpp, ← doMret_priv]
      exact reached
    · intro returned
      exact (step_sret_priv P returned).1 (h.sret t visit returned)
  · intro returns
    have start : (Machine.reset config memory).Sound := Machine.reset_keeps legal memory
    have preserved (u : Machine δ) (c : Call δ)
        (visit : Visits (Machine.step P) (Machine.reset config memory) calls u c)
        (sound : u.Sound) : Returns (u.step P c) Machine.Sound := by
      refine Machine.step_sound P sound c ?_
      rintro rfl
      exact returns u visit
    have sound (t : Machine δ) (c : Call δ)
        (visit : Visits (Machine.step P) (Machine.reset config memory) calls t c) :
        t.Sound := visit.invariant start preserved
    refine ⟨?_, ?_, ?_, ?_⟩
    · intro before part
      exact (runSteps_prefix_invariant start preserved part).mono fun t sound => sound.priv
    · intro t visit
      exact (sound t _ visit).avoids_exit P
    · intro t vaddr paddr slot visit rvc arch info fetched ecall
      refine decode_ecall P t.arch vaddr paddr slot (sound t _ visit).priv ?_
      intro rvc' a' info' fetched'
      rw [fetched] at fetched'
      cases fetched'
      exact ecall
    · intro t visit returned
      exact (step_sret_priv P returned).2 ((returns t visit).2 returned)

/-- `lui t6, 1; csrw mstatus, t6; mret`, from the shipped configuration. -/
def mretProgram : Machine Unit :=
  Machine.reset archCfg (imageOf [0x00001fb7, 0x300f9073, 0x30200073])

/-- The program up to its MRET. -/
def mretCalls : List (Call Unit) :=
  Machine.execAt 0x80000000 ++ Machine.execAt 0x80000004 ++ Machine.execAt 0x80000008

/-- The program of `mretProgram` meets the condition up to its second instruction. -/
theorem privilegeLegal_iff_mretProgram :
    PrivilegeLegal (ramOnly 4096) mretProgram (mretCalls.take 4) ↔
      ReturnsLegal (ramOnly 4096) mretProgram (mretCalls.take 4) :=
  privilegeLegal_iff (ramOnly 4096) (show LegalPriv _ by decide) _ _

/-- `MPP` is written with 2 and `MRET` loads it: the third instruction leaves the
machine in mode 2. -/
theorem not_privilegeLegal_mretProgram :
    ¬ PrivilegeLegal (ramOnly 4096) mretProgram mretCalls := by
  intro h
  have legal := h.legal _ (List.prefix_refl _)
  obtain ⟨m, ran, mode⟩ := exists_ok_of_toOption
    (show (runSteps (Machine.step (ramOnly 4096)) mretProgram mretCalls).toOption.map
      Machine.priv = some 2 by decide +kernel)
  have illegal : LegalPriv m.priv := legal m ran
  rw [mode] at illegal
  exact absurd illegal (by decide)

end CPUDelaySim.Riscv
