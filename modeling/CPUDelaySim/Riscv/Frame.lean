import CPUDelaySim.Common.Outcome
import CPUDelaySim.Riscv.RiscvArch

/-!
# What decoding can change

Every body reaches memory through `paddrRead`, so all it can change outside the
record is what a device read changes, the state of the devices and `mip`, and what
the floating-point bodies assign, `mstatus.FS` and the floating-point word.  The
two relations of this module say exactly that, and each function that `decode`
calls is shown to stay within one of them.
-/

namespace CPUDelaySim.Riscv

variable {δ : Type}

namespace RiscvArch

/-- The machine with its devices in a state and `mip` holding a vector. -/
def withDevice (a : RiscvArch δ) (dev : δ) (mip : Word) : RiscvArch δ :=
  { a with memory := { a.memory with dev := dev }, state := a.state.set .mip mip }

/-- The machine differs at most in what a device read changes. -/
def ReadFrame (a a' : RiscvArch δ) : Prop := ∃ dev mip, a' = a.withDevice dev mip

/-- The device that is there, put there. -/
@[simp] theorem withDevice_self (a : RiscvArch δ) :
    a.withDevice a.memory.dev (a.state.get .mip) = a := by
  simp [withDevice]

/-- The last device that is put there counts. -/
@[simp] theorem withDevice_withDevice (a : RiscvArch δ) (dev dev' : δ) (mip mip' : Word) :
    (a.withDevice dev mip).withDevice dev' mip' = a.withDevice dev' mip' := by
  simp [withDevice]

/-- No device has been read. -/
theorem ReadFrame.refl (a : RiscvArch δ) : ReadFrame a a :=
  ⟨a.memory.dev, a.state.get .mip, (withDevice_self a).symm⟩

/-- Two reads in a row. -/
theorem ReadFrame.trans {a b c : RiscvArch δ} (first : ReadFrame a b)
    (second : ReadFrame b c) : ReadFrame a c := by
  obtain ⟨dev, mip, rfl⟩ := first
  obtain ⟨dev', mip', rfl⟩ := second
  exact ⟨dev', mip', withDevice_withDevice a dev dev' mip mip'⟩

/-- A read moves no register but `mip`. -/
theorem ReadFrame.get {a a' : RiscvArch δ} (frame : ReadFrame a a') {w : StateWord}
    (apart : w ≠ .mip) : a'.state.get w = a.state.get w := by
  obtain ⟨dev, mip, rfl⟩ := frame
  exact ArchState.get_set_of_ne _ _ apart

/-- A read does not move the pc. -/
theorem ReadFrame.pc {a a' : RiscvArch δ} (frame : ReadFrame a a') : a'.pc = a.pc := by
  obtain ⟨dev, mip, rfl⟩ := frame
  rfl

/-- What a device leaves of a read is in its frame. -/
theorem afterAccess_read (a : RiscvArch δ) {memory : Memory δ}
    (ram : memory.ram = a.memory.ram) (irq : Option Word) :
    ReadFrame a (a.afterAccess memory irq) := by
  have same : memory = { a.memory with dev := memory.dev } := by
    ext1
    · exact ram
    · rfl
  cases irq with
  | none =>
      refine ⟨memory.dev, a.state.get .mip, ?_⟩
      simp [afterAccess, irqListener, withDevice, ← same]
  | some mip =>
      refine ⟨memory.dev, mip, ?_⟩
      simp [afterAccess, irqListener, withDevice, ← same]

/-- A read by the core. -/
theorem paddrRead_frame (P : Platform δ) (a : RiscvArch δ) (paddr : Word) (size : Nat)
    (buf : Word) :
    Returns (a.paddrRead P paddr size buf) fun r => ReadFrame a r.2.2 := by
  simp only [paddrRead, returns_bind, returns_pure]
  intro r read
  exact afterAccess_read a (Memory.paddrRead_ram_eq read) r.irq

/-- The machine a turn of the walk leaves. -/
def WalkTurn.arch : WalkTurn δ → RiscvArch δ
  | .done r => r.arch
  | .next _ a => a

/-- A read that no device answered leaves the machine. -/
theorem paddrRead_plain {P : Platform δ} {a b : RiscvArch δ} {paddr buf val : Word} {size : Nat}
    (read : a.paddrRead P paddr size buf = .ok (val, true, b)) : b = a := by
  unfold paddrRead Memory.paddrRead at read
  cases claimed : Memory.deviceAt P.map paddr with
  | some d =>
      rw [claimed] at read
      cases read
  | none =>
      rw [claimed, bind_eq_ok] at read
      obtain ⟨r, read, result⟩ := read
      dsimp only at read
      split at read
      · cases read
        cases result
        rfl
      · cases read

/-- One level of a walk reads one entry. -/
theorem walkTurn_frame (P : Platform δ) (vaddr : Word) (level : Nat) (paddr : Word)
    (a : RiscvArch δ) :
    Returns (walkTurn P vaddr level paddr a) fun t => ReadFrame a t.arch := by
  simp only [walkTurn, returns_bind]
  refine (paddrRead_frame P a _ 8 _).mono ?_
  rintro ⟨val, plain, a'⟩ frame
  cases plain with
  | false => exact (returns_pure _ _).2 frame
  | true => cases classify ⟨val⟩ <;> exact (returns_pure _ _).2 frame

/-- A walk is a sequence of reads. -/
theorem walk_frame (P : Platform δ) (vaddr : Word) (level : Nat) (paddr : Word)
    (a : RiscvArch δ) :
    Returns (walk P vaddr level paddr a) fun r => ReadFrame a r.arch := by
  induction level generalizing paddr a with
  | zero =>
      rw [walk, returns_bind]
      refine (walkTurn_frame P vaddr 0 paddr a).mono ?_
      intro turn frame
      cases turn <;> exact (returns_pure _ _).2 frame
  | succ level ih =>
      rw [walk, returns_bind]
      refine (walkTurn_frame P vaddr (level + 1) paddr a).mono ?_
      intro turn frame
      cases turn with
      | done r => exact (returns_pure _ _).2 frame
      | next paddr' a' => exact (ih paddr' a').mono fun r rest => frame.trans rest

/-- A turn that does not fault read no device. -/
theorem walkTurn_same {P : Platform δ} {vaddr paddr : Word} {level : Nat} {a : RiscvArch δ} :
    Returns (walkTurn P vaddr level paddr a) fun t =>
      match t with
      | .done r => r.leaf.isSome = true → r.arch = a
      | .next _ b => b = a := by
  simp only [walkTurn, returns_bind]
  rintro ⟨val, plain, b⟩ read
  cases plain with
  | false => exact (returns_pure _ _).2 (by rintro ⟨⟩)
  | true =>
      have same := paddrRead_plain read
      cases classify ⟨val⟩ with
      | fault => exact (returns_pure _ _).2 (by rintro ⟨⟩)
      | leaf => exact (returns_pure _ _).2 fun _ => same
      | next => exact (returns_pure _ _).2 same

/-- Nor did a walk to a leaf. -/
theorem walk_same {P : Platform δ} {vaddr : Word} (level : Nat) (paddr : Word)
    (a : RiscvArch δ) :
    Returns (walk P vaddr level paddr a) fun r => r.leaf.isSome = true → r.arch = a := by
  induction level generalizing paddr a with
  | zero =>
      rw [walk, returns_bind]
      refine walkTurn_same.mono ?_
      intro turn same
      cases turn with
      | done r => exact (returns_pure _ _).2 same
      | next _ _ => exact (returns_pure _ _).2 nofun
  | succ level ih =>
      rw [walk, returns_bind]
      refine walkTurn_same.mono ?_
      intro turn same
      cases turn with
      | done r => exact (returns_pure _ _).2 same
      | next paddr' b =>
          have same : b = a := same
          rw [same]
          exact ih paddr' a

/-- A translation without a fault leaves the machine. -/
theorem translateAddr_same {P : Platform δ} {a b : RiscvArch δ} {vaddr paddr : Word}
    {type : FetchType} (ran : a.translateAddr P vaddr type excNone = .ok (paddr, excNone, b)) :
    b = a := by
  have loud : type.pageFault ≠ excNone := by cases type <;> decide
  unfold translateAddr at ran
  split at ran
  · cases ran
    rfl
  · rw [bind_eq_ok] at ran
    obtain ⟨r, walked, result⟩ := ran
    cases leaf : r.leaf with
    | none =>
        rw [leaf] at result
        exact absurd (congrArg (·.2.1) (Except.ok.inj result)) loud
    | some last =>
        have same := walk_same 2 _ a r walked (by rw [leaf]; rfl)
        rw [leaf] at result
        dsimp only at result
        split_ifs at result
        · exact absurd (congrArg (·.2.1) (Except.ok.inj result)) loud
        · exact absurd (congrArg (·.2.1) (Except.ok.inj result)) loud
        · cases result
          exact same

/-- A translation is a walk, if it is anything. -/
theorem translateAddr_frame (P : Platform δ) (a : RiscvArch δ) (vaddr : Word)
    (type : FetchType) (exception : Word) :
    Returns (a.translateAddr P vaddr type exception) fun r => ReadFrame a r.2.2 := by
  unfold translateAddr
  split
  · simpa using ReadFrame.refl a
  · rw [returns_bind]
    refine (walk_frame P vaddr 2 _ a).mono ?_
    intro r frame
    cases r.leaf with
    | none => simpa using frame
    | some leaf =>
        dsimp only
        split_ifs <;> simpa using frame

/-- The machine differs at most in what decoding an instruction changes. -/
structure ExecFrame (a a' : RiscvArch δ) : Prop where
  get : ∀ w, w ≠ .mip → w ≠ .mstatus → w ≠ .fp → a'.state.get w = a.state.get w
  mstatus : a'.state.get .mstatus = a.state.get .mstatus ∨
    a'.state.get .mstatus = a.state.get .mstatus ||| mstatusFS
  ram : a'.memory.ram = a.memory.ram
  ifetchMmuState : a'.ifetchMmuState = a.ifetchMmuState
  dataMmuState : a'.dataMmuState = a.dataMmuState
  pc : a'.pc = a.pc
  tick : a'.tick = a.tick
  instret : a'.instret = a.instret

/-- Nothing has been executed. -/
theorem ExecFrame.refl (a : RiscvArch δ) : ExecFrame a a :=
  ⟨fun _ _ _ _ => rfl, .inl rfl, rfl, rfl, rfl, rfl, rfl, rfl⟩

/-- A read is among the things that a body may do. -/
theorem ReadFrame.exec {a a' : RiscvArch δ} (frame : ReadFrame a a') : ExecFrame a a' := by
  obtain ⟨dev, mip, rfl⟩ := frame
  refine ⟨fun w apart _ _ => ArchState.get_set_of_ne _ _ apart, .inl ?_, rfl, rfl, rfl, rfl,
    rfl, rfl⟩
  exact ArchState.get_set_of_ne _ _ (by decide)

/-- Two parts of a body. -/
theorem ExecFrame.trans {a b c : RiscvArch δ} (first : ExecFrame a b)
    (second : ExecFrame b c) : ExecFrame a c where
  get w hmip hmstatus hfp := (second.get w hmip hmstatus hfp).trans (first.get w hmip hmstatus hfp)
  mstatus := by
    rcases second.mstatus with h | h <;> rcases first.mstatus with h' | h' <;>
      simp [h, h', BitVec.or_assoc]
  ram := second.ram.trans first.ram
  ifetchMmuState := second.ifetchMmuState.trans first.ifetchMmuState
  dataMmuState := second.dataMmuState.trans first.dataMmuState
  pc := second.pc.trans first.pc
  tick := second.tick.trans first.tick
  instret := second.instret.trans first.instret

end RiscvArch

open RiscvArch

/-! ### Loads and stores -/

/-- What a load leaves in the record. -/
inductive LdInfo (width : Width) (i : DecodeInfo) : DecodeInfo → Prop
  | misaligned : LdInfo width i { i with exception := excLAM }
  | pageFault : LdInfo width i { i with exception := excLPF }
  | loaded : LdInfo width i { i with dst2 := { i.dst2 with idx := BitVec.ofNat 16 width.bytes } }

/-- What a store leaves in the record. -/
inductive StInfo (width : Width) (i : DecodeInfo) : DecodeInfo → Prop
  | misaligned : StInfo width i { i with exception := excSAM }
  | pageFault : StInfo width i { i with exception := excSPF }
  | prepared (ha : Word) :
      StInfo width i { i with
        dst2 := { i.dst2 with idx := BitVec.ofNat 16 width.bytes, data := ha } }

/-- A load moves what a read may move, and its own fields of the record. -/
theorem ld_spec (P : Platform δ) (width : Width) (ctx : Ctx δ) (va : Word) :
    Returns (ld P width ctx va) fun r =>
      ReadFrame ctx.arch r.2.arch ∧ LdInfo width ctx.info r.2.info := by
  unfold ld
  split
  · exact (returns_pure _ _).2 ⟨.refl _, .misaligned⟩
  · rw [returns_bind]
    refine (translateAddr_frame P ctx.arch va .lfetch excNone).mono ?_
    rintro ⟨ha, exception, a⟩ translated
    dsimp only
    split
    · exact (returns_pure _ _).2 ⟨translated, .pageFault⟩
    · rw [returns_bind]
      refine (paddrRead_frame P a ha width.bytes P.junk).mono ?_
      rintro ⟨data, plain, a'⟩ read
      exact (returns_pure _ _).2 ⟨translated.trans read, .loaded⟩

/-- The check of a store moves what a read may move, and its own fields of the record. -/
theorem st_spec (P : Platform δ) (width : Width) (ctx : Ctx δ) (va : Word) :
    Returns (st P width ctx va) fun c =>
      ReadFrame ctx.arch c.arch ∧ StInfo width ctx.info c.info := by
  unfold st
  split
  · exact (returns_pure _ _).2 ⟨.refl _, .misaligned⟩
  · rw [returns_bind]
    refine (translateAddr_frame P ctx.arch va .sfetch excNone).mono ?_
    rintro ⟨ha, exception, a⟩ translated
    dsimp only
    split
    · exact (returns_pure _ _).2 ⟨translated, .pageFault⟩
    · exact (returns_pure _ _).2 ⟨translated, .prepared ha⟩

end CPUDelaySim.Riscv
