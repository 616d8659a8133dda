import CPUDelaySim.Riscv.BoardRun

/-!
# Pending bits that software owns

`rmw_mip` lets software set and clear SSIP, STIP and SEIP, and the commit loop keeps the
rest of `mip` while it does.  The listener does not return the favour: `irqListener` stores
the handler's vector over all of `mip`.  A bit that software wrote is lost as soon as a
device drives any other line, unless the handler happens to have the bit at the same level
(`pendingSurvive_iff`).

What software wrote last is followed beside the machine, and forgotten when the line of
the bit is driven itself.

`linesDriven` is read off the levels the handler was told, and not off the code of the devices, so
the theorem is about any board.  `Overwrites` is a condition on a step: some line is driven, and
the handler's level for a bit that software owns is not what software wrote.
-/

namespace CPUDelaySim.Riscv

variable {σ : Type}

open RiscvArch Mmio

/-! ### What a call does to the vector and to `mip` -/

/-- Some lines were driven, the vector went along, and `mip` is the last vector that was
published. -/
def Driven (d : Devices σ) (mip : Word) (d' : Devices σ) (mip' : Word) : Prop :=
  ∃ levels, d'.handler = d.handler.drive levels ∧
    mip' = (d.handler.published levels).getD mip

/-- No line has been driven. -/
theorem Driven.refl (d : Devices σ) (mip : Word) : Driven d mip d mip := ⟨[], rfl, rfl⟩

/-- Levels that are published in two parts. -/
theorem published_append (h : IrqHandler) (levels levels' : List (Mmio.Line × Bool)) (mip : Word) :
    ((h.drive levels).published levels').getD ((h.published levels).getD mip) =
      (h.published (levels ++ levels')).getD mip := by
  cases levels' with
  | nil => rw [List.append_nil]; rfl
  | cons l levels' =>
      simp only [IrqHandler.published, List.append_eq_nil_iff, reduceCtorEq, and_false, if_false,
        Option.getD_some, IrqHandler.drive, List.foldl_append]

/-- The handler moves as the driven lines say, whatever else moves with it. -/
theorem Driven.drive {d d' : Devices σ} {mip mip' : Word} (driven : Driven d mip d' mip')
    {moved : Devices σ} (same : moved.handler = d'.handler) (levels : List (Mmio.Line × Bool)) :
    Driven d mip (moved.drive levels).1 ((moved.drive levels).2.getD mip') := by
  obtain ⟨before, handler, rfl⟩ := driven
  refine ⟨before ++ levels, ?_, ?_⟩
  · rw [Devices.drive, same, handler]
    exact (List.foldl_append ..).symm
  · rw [Devices.drive, same, handler]
    exact published_append d.handler before levels mip

/-- The bit of `mip` that a call commits, if it commits one. -/
def mipWritten (m : Machine (Devices σ)) (b : Mmio.Line) : BoardCall σ → Option Bool
  | .updateEnv => do
      let info ← m.info
      if info.exception = excNone then mipCommitted info b else none
  | _ => none

/-- A call commits its bits to `mip`, and then the devices drive their lines. -/
theorem step_driven (B : Board σ) (size : Nat) (float : SoftFloat) (junk : Word)
    (m : Machine (Devices σ)) (c : BoardCall σ) :
    Returns (c.step (onBoard B size float junk) m) fun m' =>
      ∃ mip, (∀ b : Mmio.Line, mip.getLsbD b =
          (mipWritten m b c).getD ((m.arch.state.get .mip).getLsbD b)) ∧
        Driven m.arch.memory.dev mip m'.arch.memory.dev (m'.arch.state.get .mip) := by
  have other (mip : Word) : OtherClosed (fun _ => True) (Driven m.arch.memory.dev mip) :=
    fun _ _ _ levels _ driven => driven.drive rfl levels
  have clint (mip : Word) : ClintClosed (Driven m.arch.memory.dev mip) :=
    fun _ _ _ _ driven => driven.drive rfl _
  have start := Driven.refl m.arch.memory.dev (m.arch.state.get .mip)
  by_cases update : c = .updateEnv
  swap
  · have silent (b : Mmio.Line) : mipWritten m b c = none := by
      cases c with
      | updateEnv => exact absurd rfl update
      | _ => rfl
    refine (step_wired_of_ne (boardDrives_any B) (other _) size float junk start (drives_any c)
      update fun _ d mip driven => driven.drive rfl _).mono ?_
    intro m' driven
    exact ⟨_, fun b => by rw [silent, Option.getD_none], driven⟩
  subst update
  simp only [BoardCall.step, BoardCall.call, Machine.step]
  cases record : m.info with
  | none => exact returns_error _ _
  | some info =>
      simp only [returns_bind, returns_pure, mipWritten, record, Option.bind_eq_bind,
        Option.bind_some]
      by_cases code : info.exception = excNone
      · simp only [if_pos code]
        rw [updateEnv_commit _ _ code]
        cases committed : commitDsts m.arch.state info with
        | error e =>
            rw [commit, committed]
            exact returns_error _ _
        | ok s =>
            refine (commit_wired (accessClosed_onBoard (boardDrives_any B) (other (s.get .mip))
              (clint _) size float junk) ?_).mono ?_
            · rw [committed, returns_ok]
              exact Driven.refl _ _
            · intro r driven
              exact ⟨_, fun b => commitDsts_mip m.arch.state info b s committed, driven⟩
      · simp only [if_neg code, Option.getD_none]
        refine (updateEnv_wired (accessClosed_onBoard (boardDrives_any B) (other _) (clint _) size
          float junk) start fun silent => absurd silent code).mono ?_
        intro r driven
        exact ⟨_, fun _ => rfl, driven⟩

/-! ### What software wrote last -/

/-- SSIP, STIP and SEIP. -/
def softLines : List Mmio.Line := [1, 5, 9]

/-- The lines that the devices drove between two states, the latest first. -/
def linesDriven (m m' : Machine (Devices σ)) : List (Mmio.Line × Bool) :=
  m'.arch.memory.dev.handler.levels.take
    (m'.arch.memory.dev.handler.levels.length - m.arch.memory.dev.handler.levels.length)

/-- The bit of `mip` that software wrote last, after a call: forgotten if its own line was
driven. -/
def softAfter (m m' : Machine (Devices σ)) (c : BoardCall σ) (soft : Mmio.Line → Option Bool)
    (b : Mmio.Line) : Option Bool :=
  if b ∈ (linesDriven m m').map Prod.fst then none else (mipWritten m b c).or (soft b)

/-- A call on the board, with what software wrote last beside the machine. -/
def pendingStep (P : Platform (Devices σ)) (w : Machine (Devices σ) × (Mmio.Line → Option Bool))
    (c : BoardCall σ) : Except Abort (Machine (Devices σ) × (Mmio.Line → Option Bool)) := do
  let m ← c.step P w.1
  return (m, softAfter w.1 m c w.2)

/-- The bits of `mip` that software owns have the values it wrote last. -/
def Survives (w : Machine (Devices σ) × (Mmio.Line → Option Bool)) : Prop :=
  ∀ b ∈ softLines, ∀ v, w.2 b = some v → (w.1.arch.state.get .mip).getLsbD b = v

/-- A device drives a line while the handler has another level for one of the bits that
software wrote last, and that bit's own line stays as it is. -/
def Overwrites (P : Platform (Devices σ)) (w : Machine (Devices σ) × (Mmio.Line → Option Bool))
    (c : BoardCall σ) : Prop :=
  ∃ m, c.step P w.1 = .ok m ∧ linesDriven w.1 m ≠ [] ∧
    ∃ b ∈ softLines, ∃ v, softAfter w.1 m c w.2 b = some v ∧
      w.1.arch.memory.dev.handler.irq.getLsbD b ≠ v

/-- In every state of the run the bits survive. -/
def PendingSurvive (P : Platform (Devices σ)) (w : Machine (Devices σ) × (Mmio.Line → Option Bool))
    (calls : List (BoardCall σ)) : Prop :=
  ∀ before, before <+: calls → Returns (runSteps (pendingStep P) w before) Survives

/-- The lines that a call has driven. -/
theorem linesDriven_eq {m m' : Machine (Devices σ)} {levels : List (Mmio.Line × Bool)}
    (handler : m'.arch.memory.dev.handler = m.arch.memory.dev.handler.drive levels) :
    linesDriven m m' = levels.reverse := by
  rw [linesDriven, handler, IrqHandler.drive_levels, List.length_append, Nat.add_sub_cancel,
    List.take_left']
  rfl

/-- A call loses a bit exactly when the lines it drives overwrite one. -/
theorem survives_step_iff (B : Board σ) (size : Nat) (float : SoftFloat) (junk : Word)
    {w : Machine (Devices σ) × (Mmio.Line → Option Bool)} (held : Survives w) {c : BoardCall σ}
    {m : Machine (Devices σ)} (moved : c.step (onBoard B size float junk) w.1 = .ok m) :
    Survives (m, softAfter w.1 m c w.2) ↔ ¬ Overwrites (onBoard B size float junk) w c := by
  obtain ⟨mip, written, levels, handler, published⟩ :=
    step_driven B size float junk w.1 c m moved
  have lines := linesDriven_eq handler
  by_cases quiet : levels = []
  · subst quiet
    refine iff_of_true ?_ ?_
    · intro b soft v last
      simp only [softAfter, lines, List.reverse_nil, List.map_nil, List.not_mem_nil, if_false]
        at last
      change (m.arch.state.get .mip).getLsbD b = v
      rw [published, show (IrqHandler.published _ []).getD mip = mip from rfl, written]
      cases commits : mipWritten w.1 b c with
      | some v' =>
          rw [commits] at last
          exact Option.some.inj last
      | none =>
          rw [commits] at last
          exact held b soft v last
    · rintro ⟨m', moved', driven, -⟩
      cases moved.symm.trans moved'
      exact driven (by rw [lines]; rfl)
  · -- the whole vector is stored, and lines that were not driven have their old level in it
    have bit {b : Mmio.Line} (soft : b ∈ softLines) {v : Bool}
        (last : softAfter w.1 m c w.2 b = some v) :
        (m.arch.state.get .mip).getLsbD b = w.1.arch.memory.dev.handler.irq.getLsbD b := by
      have low : b.val < 31 := by
        simp only [softLines, List.mem_cons, List.not_mem_nil, or_false] at soft
        rcases soft with rfl | rfl | rfl <;> decide
      have apart : b ∉ levels.map Prod.fst := by
        intro driven
        rw [softAfter, lines, if_pos (by simpa using driven)] at last
        cases last
      rw [published, IrqHandler.published, if_neg quiet, Option.getD_some]
      refine IrqHandler.drive_getLsbD _ low fun l listed same => apart ?_
      exact List.mem_map.2 ⟨l, listed, Fin.ext same⟩
    constructor
    · rintro survives ⟨m', moved', -, b, soft, v, last, differs⟩
      cases moved.symm.trans moved'
      exact differs ((bit soft last).symm.trans (survives b soft v last))
    · intro keeps b soft v last
      by_contra lost
      refine keeps ⟨m, moved, ?_, b, soft, v, last, ?_⟩
      · rw [lines]
        simpa using quiet
      · rw [← bit soft last]
        exact lost

/-- The bits survive a run exactly when no step of it drives a line over one. A line that
changes publishes the whole vector of the handler, which `irqListener` assigns to `mip`, and the
vector does not have what software wrote. -/
theorem pendingSurvive_iff (B : Board σ) (size : Nat) (float : SoftFloat) (junk : Word)
    (config : List (StateWord × Word)) (ram : Nat → Byte) (other : σ)
    (calls : List (BoardCall σ)) :
    PendingSurvive (onBoard B size float junk) (boardReset config ram other, fun _ => none) calls ↔
      ∀ w c, Visits (pendingStep (onBoard B size float junk))
        (boardReset config ram other, fun _ => none) calls w c →
          ¬ Overwrites (onBoard B size float junk) w c := by
  refine runSteps_prefix_returns_iff Survives ?_ ?_ ?_ ?_ calls
  · intro w c w' held safe moved
    simp only [pendingStep, bind_eq_ok] at moved
    obtain ⟨m, moved, result⟩ := moved
    cases result
    have survives := (survives_step_iff B size float junk held moved).2 safe
    exact ⟨survives, survives⟩
  · intro w c held lost
    obtain ⟨m, moved, -⟩ := id lost
    refine ⟨(m, softAfter w.1 m c w.2), ?_, ?_⟩
    · rw [pendingStep, moved]
      rfl
    · exact fun survives => (survives_step_iff B size float junk held moved).1 survives lost
  · rintro b - v ⟨⟩
  · rintro b - v ⟨⟩

/-- `csrsi mip, 2; lui ra, 0x2004; li sp, -1; sd sp, 0(ra)`: SSIP, then the timer is put
off.  The CLINT raises its line at the first tick. -/
def ssipMachine : Machine (Devices Unit) :=
  boardReset archCfg (imageOf [0x34416073, 0x020040b7, 0xfff00113, 0x0020b023]).ram ()

def ssipCalls : List (BoardCall Unit) :=
  .clintTick :: BoardCall.execAt 0x80000000 ++ BoardCall.execAt 0x80000004 ++
    BoardCall.execAt 0x80000008 ++ BoardCall.execAt 0x8000000c

/-- The tick that lowers the timer line takes SSIP with it. -/
theorem not_pendingSurvive_ssip :
    ¬ PendingSurvive (onBoard ⟨0x2000000, [], []⟩ 4096 ⟨fun _ _ _ _ => none⟩ 0)
      (ssipMachine, fun _ => none) ssipCalls := by
  intro all
  obtain ⟨w, ran, seen⟩ := exists_ok_of_toOption
    (show (runSteps (pendingStep (onBoard ⟨0x2000000, [], []⟩ 4096 ⟨fun _ _ _ _ => none⟩ 0))
        (ssipMachine, fun _ => none) ssipCalls).toOption.map (fun w =>
          (w.2 1, (w.1.arch.state.get .mip).getLsbD 1)) = some (some true, false) by
      decide +kernel)
  simp only [Prod.mk.injEq] at seen
  have kept := all ssipCalls (List.prefix_refl _) w ran 1 (by decide) true seen.1
  rw [show (w.1.arch.state.get .mip).getLsbD (1 : Mmio.Line) = false from seen.2] at kept
  cases kept

end CPUDelaySim.Riscv
