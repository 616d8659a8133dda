import CPUDelaySim.Riscv.Sv39

/-!
# Page permissions

The rules for a leaf of the page tables, with the mode an access is made for.  A load or
store under `MPRV` is made for the mode in `MPP`; `checkPermission` computes this mode and
then tests the page against `priv`, so the two differ where the modes see the page
differently and nothing else refuses it.
-/

namespace CPUDelaySim.Riscv

namespace RiscvArch

/-- `STATUS_MPRV`, `STATUS_MPP`. -/
def statusMprv (mstatus : Word) : Bool := mstatus &&& 0x20000 != 0
/-- `mstatus.MPP`. -/
def statusMpp (mstatus : Word) : Word := (mstatus >>> 11) &&& 0x3

/-- The mode an access is made for. -/
def effectiveMode (s : ArchState) (type : FetchType) : Word :=
  if statusMprv (s.get .mstatus) = true ∧ type ≠ .ifetch then statusMpp (s.get .mstatus)
  else s.get .priv

/-! ### The rules -/

/-- The rights of the page and its marks allow the access. -/
def Granted (s : ArchState) (pte : Pte) : FetchType → Prop
  | .ifetch => pte.x = true ∧ pte.a = true
  | .lfetch => (pte.r = true ∨ statusMxr (s.get .mstatus) = true ∧ pte.x = true) ∧ pte.a = true
  | .sfetch => pte.w = true ∧ pte.a = true ∧ pte.d = true

/-- User pages are for U-mode, and for the data of S-mode under `SUM`; U-mode has no
others. -/
def PageOfMode (s : ArchState) (pte : Pte) (type : FetchType) (mode : Word) : Prop :=
  (mode = modeU → pte.u = true) ∧
    (mode = modeS → pte.u = true → statusSum (s.get .mstatus) = true ∧ type ≠ .ifetch)

/-- What the architecture allows. -/
def Allowed (s : ArchState) (pte : Pte) (type : FetchType) : Prop :=
  Granted s pte type ∧ PageOfMode s pte type (effectiveMode s type)

instance (s : ArchState) (pte : Pte) (type : FetchType) : Decidable (Granted s pte type) := by
  unfold Granted
  cases type <;> infer_instance

/-- `priv` and `MPP` see the page alike. -/
def ModesAgree (s : ArchState) (pte : Pte) : Prop :=
  if pte.u = true then
    statusSum (s.get .mstatus) = true ∨
      (s.get .priv = modeS ↔ statusMpp (s.get .mstatus) = modeS)
  else (s.get .priv = modeU ↔ statusMpp (s.get .mstatus) = modeU)

/-- A mode that is not S sees a user page, S sees it under `SUM`. -/
theorem pageOfMode_user {s : ArchState} {pte : Pte} (user : pte.u = true) {type : FetchType}
    (data : type ≠ .ifetch) (mode : Word) :
    PageOfMode s pte type mode ↔ statusSum (s.get .mstatus) = true ∨ mode ≠ modeS := by
  unfold PageOfMode
  constructor
  · rintro ⟨-, supervisor⟩
    by_cases m : mode = modeS
    · exact .inl (supervisor m user).1
    · exact .inr m
  · rintro (sum | other)
    · exact ⟨fun _ => user, fun _ _ => ⟨sum, data⟩⟩
    · exact ⟨fun _ => user, fun m => absurd m other⟩

/-- A page that is not the user's belongs to the other modes. -/
theorem pageOfMode_supervisor {s : ArchState} {pte : Pte} (page : pte.u = false)
    (type : FetchType) (mode : Word) : PageOfMode s pte type mode ↔ mode ≠ modeU := by
  unfold PageOfMode
  rw [page]
  constructor
  · rintro ⟨user, -⟩ m
    cases user m
  · intro other
    exact ⟨fun m => absurd m other, fun _ u => nomatch u⟩

/-- Two modes see a page of data alike when `ModesAgree` says so. -/
theorem pageOfMode_iff_modesAgree {s : ArchState} {pte : Pte} {type : FetchType}
    (data : type ≠ .ifetch) :
    (PageOfMode s pte type (s.get .priv) ↔
        PageOfMode s pte type (statusMpp (s.get .mstatus))) ↔ ModesAgree s pte := by
  unfold ModesAgree
  cases page : pte.u with
  | true =>
      rw [pageOfMode_user page data, pageOfMode_user page data, if_pos rfl]
      tauto
  | false =>
      rw [pageOfMode_supervisor page, pageOfMode_supervisor page, if_neg (by decide)]
      exact not_iff_not

/-! ### The check -/

/-- `checkPermission` applies the rules for `priv`. -/
theorem checkPermission_iff_priv (s : ArchState) {pte : Pte} (leaf : pte.IsLeaf)
    (type : FetchType) :
    checkPermission s pte true type = true ↔
      Granted s pte type ∧ PageOfMode s pte type (s.get .priv) := by
  obtain ⟨⟨valid, -, pad⟩, -⟩ := leaf
  have user : (!(s.get .priv == modeU && !pte.u)) = true ↔
      (s.get .priv = modeU → pte.u = true) := by
    cases pte.u <;> simp
  have supervisor : (!(pte.u && (s.get .priv == modeS &&
      (!statusSum (s.get .mstatus) || type == .ifetch)))) = true ↔
        (s.get .priv = modeS → pte.u = true →
          statusSum (s.get .mstatus) = true ∧ type ≠ .ifetch) := by
    cases pte.u <;> cases statusSum (s.get .mstatus) <;> simp
    exact imp_iff_not_or.symm
  unfold checkPermission PageOfMode
  rw [← user, ← supervisor, valid, pad]
  clear user supervisor
  cases type with
  | ifetch =>
      simp only [Granted, Bool.true_and, Bool.and_true, Bool.not_false, Bool.and_eq_true]
      exact ⟨fun ⟨⟨reach, x⟩, a⟩ => ⟨⟨x, a⟩, reach⟩, fun ⟨⟨x, a⟩, reach⟩ => ⟨⟨reach, x⟩, a⟩⟩
  | lfetch =>
      simp only [Granted, Bool.true_and, Bool.and_true, Bool.not_false, Bool.and_eq_true,
        Bool.or_eq_true]
      exact ⟨fun ⟨⟨reach, r⟩, a⟩ => ⟨⟨r, a⟩, reach⟩, fun ⟨⟨r, a⟩, reach⟩ => ⟨⟨reach, r⟩, a⟩⟩
  | sfetch =>
      simp only [Granted, Bool.true_and, Bool.and_true, Bool.not_false, Bool.and_eq_true]
      exact ⟨fun ⟨⟨reach, w⟩, marks⟩ => ⟨⟨w, marks⟩, reach⟩,
        fun ⟨⟨w, marks⟩, reach⟩ => ⟨⟨reach, w⟩, marks⟩⟩

/-- Permissions go by the effective mode: an access is granted exactly when the
architecture allows it, and firmware that reads for U-mode stays out of supervisor pages. -/
structure UsesEffectiveMode (s : ArchState) (pte : Pte) (type : FetchType) : Prop where
  check : checkPermission s pte true type = true ↔ Allowed s pte type
  firmware : s.get .priv = modeM → statusMprv (s.get .mstatus) = true →
    statusMpp (s.get .mstatus) = modeU → type ≠ .ifetch → pte.u = false →
      checkPermission s pte true type = false

/-- The check is that of the architecture exactly when the access is a fetch, or `MPRV` is
clear, or the page refuses the access to every mode, or `priv` and `MPP` see the page alike.
`checkPermission` decides by `priv` whom the page is for, also for loads and stores made for the
mode in `MPP`. -/
theorem usesEffectiveMode_iff (s : ArchState) (pte : Pte) (leaf : pte.IsLeaf)
    (type : FetchType) :
    UsesEffectiveMode s pte type ↔
      type = .ifetch ∨ statusMprv (s.get .mstatus) = false ∨ ¬ Granted s pte type ∨
        ModesAgree s pte := by
  have check : (checkPermission s pte true type = true ↔ Allowed s pte type) ↔
      (Granted s pte type → (PageOfMode s pte type (s.get .priv) ↔
        PageOfMode s pte type (effectiveMode s type))) := by
    rw [checkPermission_iff_priv s leaf type, Allowed]
    tauto
  -- The clause on firmware is a case of the check.
  have whole : UsesEffectiveMode s pte type ↔
      (checkPermission s pte true type = true ↔ Allowed s pte type) := by
    refine ⟨fun uses => uses.check, fun same => ⟨same, ?_⟩⟩
    intro _ mprv mpp data page
    rw [Bool.eq_false_iff, Ne, same]
    rintro ⟨-, reach⟩
    rw [effectiveMode, if_pos ⟨mprv, data⟩, mpp, pageOfMode_supervisor page] at reach
    exact reach rfl
  rw [whole, check]
  by_cases moved : statusMprv (s.get .mstatus) = true ∧ type ≠ .ifetch
  · rw [effectiveMode, if_pos moved, pageOfMode_iff_modesAgree moved.2]
    constructor
    · intro same
      by_cases granted : Granted s pte type
      · exact .inr (.inr (.inr (same granted)))
      · exact .inr (.inr (.inl granted))
    · rintro (fetch | clear | refused | same) granted
      · exact absurd fetch moved.2
      · rw [moved.1] at clear
        cases clear
      · exact absurd granted refused
      · exact same
  · rw [effectiveMode, if_neg moved]
    refine ⟨fun _ => ?_, fun _ _ => Iff.rfl⟩
    by_cases fetch : type = .ifetch
    · exact .inl fetch
    · exact .inr (.inl (Bool.eq_false_iff.2 fun mprv => moved ⟨mprv, fetch⟩))

/-- Firmware in M-mode that accesses data for U-mode. -/
def mprvState : ArchState := (initConfig ArchState.zero archCfg).set .mstatus 0x20000

/-- A supervisor page, readable, writable and executable. -/
def supervisorPage : Pte := ⟨0x200000cf⟩

/-- With `MPRV` set, for a page of the supervisor. -/
theorem usesEffectiveMode_iff_mprv :
    UsesEffectiveMode mprvState supervisorPage .lfetch ↔
      FetchType.lfetch = .ifetch ∨ statusMprv (mprvState.get .mstatus) = false ∨
        ¬ Granted mprvState supervisorPage .lfetch ∨ ModesAgree mprvState supervisorPage :=
  usesEffectiveMode_iff mprvState supervisorPage (by decide) .lfetch

/-- The firmware loads from the supervisor page. -/
theorem not_usesEffectiveMode_mprv : ¬ UsesEffectiveMode mprvState supervisorPage .lfetch := by
  intro uses
  have refused := uses.firmware (by decide) (by decide) (by decide) (by decide) (by decide)
  have granted : checkPermission mprvState supervisorPage true .lfetch = true := by decide
  rw [refused] at granted
  cases granted

end RiscvArch

end CPUDelaySim.Riscv
