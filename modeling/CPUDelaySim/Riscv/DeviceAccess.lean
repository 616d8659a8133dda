import CPUDelaySim.Riscv.Run

/-!
# What the accesses to the devices keep

`RiscvArch` reaches the devices through `paddrRead` and `paddrWrite`, and the vector an
access publishes lands in `mip`.  So a relation between the devices and `mip` that every
access keeps is kept by whatever is built from accesses: by all of `decode`, and by
`updateEnv` as far as its commit loop keeps it.
-/

namespace CPUDelaySim.Riscv

variable {δ : Type}

open RiscvArch

/-- Every read of a device keeps the relation, with the vector it publishes in `mip`. -/
structure ReadClosed (map : MemoryMap δ) (J : δ → Word → Prop) : Prop where
  read : ∀ d ∈ map.devices, ∀ dev mip addr n, J dev mip →
    J (d.read dev addr n).dev ((d.read dev addr n).irq.getD mip)

/-- Every read and write does. -/
structure AccessClosed (map : MemoryMap δ) (J : δ → Word → Prop) : Prop
    extends ReadClosed map J where
  write : ∀ d ∈ map.devices, ∀ dev mip addr n data, J dev mip →
    J (d.write dev addr n data).1 ((d.write dev addr n data).2.getD mip)

/-- The relation holds between the devices and `mip` of the machine. -/
def RiscvArch.Wired (J : δ → Word → Prop) (a : RiscvArch δ) : Prop :=
  J a.memory.dev (a.state.get .mip)

namespace RiscvArch

variable {J : δ → Word → Prop}

/-- The wire looks at `mip` only. -/
theorem Wired.with_state {a : RiscvArch δ} (wired : Wired J a) {s : ArchState}
    (mip : s.get .mip = a.state.get .mip) : Wired J { a with state := s } := by
  rw [Wired] at wired ⊢
  rwa [mip]

/-- After an access the wire has to hold of the device that it leaves. -/
theorem wired_afterAccess (a : RiscvArch δ) (memory : Memory δ) (irq : Option Word) :
    Wired J (a.afterAccess memory irq) ↔ J memory.dev (irq.getD (a.state.get .mip)) := by
  cases irq with
  | none => rfl
  | some irq =>
      rw [Wired, afterAccess, irqListener, ArchState.get_set_self]
      rfl

variable {P : Platform δ}

section Reads

variable (closed : ReadClosed P.map J)

include closed

/-! ### Memory -/

/-- A read by the core keeps the wire, since the device does. -/
theorem paddrRead_wired {a : RiscvArch δ} (wired : Wired J a) (paddr : Word) (n : Nat)
    (buf : Word) : Returns (a.paddrRead P paddr n buf) fun r => Wired J r.2.2 := by
  simp only [paddrRead, returns_bind, returns_pure, wired_afterAccess]
  intro r read
  unfold Memory.paddrRead at read
  split at read
  · rename_i d claimed
    cases read
    exact closed.read d (List.mem_of_find?_eq_some claimed) _ _ paddr n wired
  · split at read
    · cases read
      exact wired
    · cases read

/-- So does one level of a walk. -/
theorem walkTurn_wired {a : RiscvArch δ} (wired : Wired J a) (vaddr : Word) (level : Nat)
    (paddr : Word) : Returns (walkTurn P vaddr level paddr a) fun t => Wired J t.arch := by
  simp only [walkTurn, returns_bind]
  refine (paddrRead_wired closed wired _ 8 _).mono ?_
  rintro ⟨val, plain, a'⟩ read
  cases plain with
  | false => exact (returns_pure _ _).2 read
  | true => cases classify ⟨val⟩ <;> exact (returns_pure _ _).2 read

/-- So does a walk. -/
theorem walk_wired {a : RiscvArch δ} (wired : Wired J a) (vaddr : Word) (level : Nat)
    (paddr : Word) : Returns (walk P vaddr level paddr a) fun r => Wired J r.arch := by
  induction level generalizing paddr a with
  | zero =>
      rw [walk, returns_bind]
      refine (walkTurn_wired closed wired vaddr 0 paddr).mono ?_
      intro turn turned
      cases turn <;> exact (returns_pure _ _).2 turned
  | succ level ih =>
      rw [walk, returns_bind]
      refine (walkTurn_wired closed wired vaddr (level + 1) paddr).mono ?_
      intro turn turned
      cases turn with
      | done r => exact (returns_pure _ _).2 turned
      | next paddr' a' => exact ih turned paddr'

/-- So does a translation. -/
theorem translateAddr_wired {a : RiscvArch δ} (wired : Wired J a) (vaddr : Word)
    (type : FetchType) (exception : Word) :
    Returns (a.translateAddr P vaddr type exception) fun r => Wired J r.2.2 := by
  unfold translateAddr
  split
  · exact (returns_pure _ _).2 wired
  · rw [returns_bind]
    refine (walk_wired closed wired vaddr 2 _).mono ?_
    intro r walked
    cases r.leaf with
    | none => exact (returns_pure _ _).2 walked
    | some leaf =>
        dsimp only
        split_ifs <;> exact (returns_pure _ _).2 walked

/-! ### Loads and stores -/

/-- So does a load. -/
theorem ld_wired {ctx : Ctx δ} (wired : Wired J ctx.arch) (width : Width) (va : Word) :
    Returns (ld P width ctx va) fun r => Wired J r.2.arch := by
  unfold ld
  split
  · exact (returns_pure _ _).2 wired
  · rw [returns_bind]
    refine (translateAddr_wired closed wired va .lfetch excNone).mono ?_
    rintro ⟨ha, exception, a⟩ translated
    dsimp only
    split
    · exact (returns_pure _ _).2 translated
    · rw [returns_bind]
      refine (paddrRead_wired closed translated ha width.bytes P.junk).mono ?_
      rintro ⟨data, plain, a'⟩ read
      exact (returns_pure _ _).2 read

/-- So does the check of a store. -/
theorem st_wired {ctx : Ctx δ} (wired : Wired J ctx.arch) (width : Width) (va : Word) :
    Returns (st P width ctx va) fun c => Wired J c.arch := by
  unfold st
  split
  · exact (returns_pure _ _).2 wired
  · rw [returns_bind]
    refine (translateAddr_wired closed wired va .sfetch excNone).mono ?_
    rintro ⟨ha, exception, a⟩ translated
    dsimp only
    split <;> exact (returns_pure _ _).2 translated

/-- So does the comparison of a store-conditional. -/
theorem scFails_wired {ctx : Ctx δ} (wired : Wired J ctx.arch) (width : Width) (va : Word) :
    Returns (scFails P width ctx va) fun r => Wired J r.2.arch := by
  unfold scFails
  split
  · exact (returns_ok _ _).2 wired
  · simp only [returns_bind, returns_pure]
    exact ld_wired closed wired width va

/-- So does its result. -/
theorem scResult_wired {ctx : Ctx δ} (wired : Wired J ctx.arch) (rd : BitVec 5)
    (width : Width) (fail : Bool) (va src : Word) :
    Returns (scResult P rd width fail va src ctx) fun c => Wired J c.arch := by
  unfold scResult
  split
  · exact (returns_ok _ _).2 wired
  · simp only [returns_bind, returns_pure]
    exact st_wired closed wired width va

/-! ### Bodies -/

omit closed in
/-- The state of the unit is not on the wire. -/
theorem Wired.dirtyFs {a : RiscvArch δ} (wired : Wired J a) :
    Wired J { a with state := a.state.dirtyFs } :=
  wired.with_state (dirtyFs_get _ (by decide))

/-- So does any body: what it reads is all that it accesses. -/
theorem exec_wired {ctx : Ctx δ} (wired : Wired J ctx.arch) (b : Body) :
    Returns (b.exec P ctx) fun r => Wired J r.2.arch := by
  cases b with
  | notImplemented => exact returns_error _ _
  | compute rd value type =>
      simp only [Body.exec]
      split
      · exact returns_error _ _
      · exact (returns_ok _ _).2 wired
  | jalr rd rs1 imm =>
      simp only [Body.exec]
      split <;> exact (returns_ok _ _).2 wired
  | load rd addr width ext | lr rd addr width =>
      simp only [Body.exec, returns_bind, returns_pure]
      have raised : Wired J (ctx.setExcData (addr ctx.arch.state)).arch := wired
      exact ld_wired closed raised width _
  | store addr width data | fstore addr width data =>
      simp only [Body.exec, returns_bind, returns_pure]
      exact st_wired closed (by exact wired) width _
  | fload rd addr width box =>
      simp only [Body.exec, requireFpu_returns, returns_bind, returns_pure]
      refine ⟨fun _ => wired, fun _ => ?_⟩
      have dirtied : Wired J (ctx.setState ctx.arch.state.dirtyFs).arch := wired.dirtyFs
      exact ld_wired closed dirtied width _
  | amo rd addr width data op =>
      simp only [Body.exec, returns_bind, returns_pure]
      have raised : Wired J (ctx.setExcData (addr ctx.arch.state)).arch := wired
      refine (ld_wired closed raised width _).mono ?_
      intro r loaded
      exact st_wired closed loaded width _
  | sc rd addr width src =>
      simp only [Body.exec, returns_bind, returns_pure]
      have raised : Wired J (ctx.setExcData (addr ctx.arch.state)).arch := wired
      refine (scFails_wired closed raised width _).mono ?_
      intro r compared
      exact scResult_wired closed compared rd width r.1 _ _
  | csr rd csrno access =>
      simp only [Body.exec, returns_bind, returns_pure]
      exact doCsr_arch (fun _ held => held.dirtyFs) P wired rd csrno access
  | fp dst rm fpCalc type =>
      simp only [Body.exec, requireFpu_returns, returns_bind, returns_pure]
      refine ⟨fun _ => wired, fun _ => ?_⟩
      refine (FpCalc.run_get P _ fpCalc).mono ?_
      intro r kept
      refine wired.with_state ((kept .mip (by decide)).trans ?_)
      cases rm with
      | none => exact dirtyFs_get _ (by decide)
      | some rm => exact (setrm_get _ rm (by decide)).trans (dirtyFs_get _ (by decide))
  | sret | mret =>
      simp only [Body.exec]
      split <;> exact (returns_ok _ _).2 wired
  | unsupported | cond | jal | simple | sfence | ebreak | ecall =>
      exact (returns_ok _ _).2 wired

/-! ### The three calls -/

/-- So does a fetch. -/
theorem fetch_wired {a : RiscvArch δ} (wired : Wired J a) (paddr : Word) (info : DecodeInfo) :
    Returns (a.fetch P paddr info) fun r => Wired J r.2.1 := by
  simp only [fetch, returns_bind, returns_pure]
  exact paddrRead_wired closed wired paddr 4 _

/-- All of `decode` keeps the relation. -/
theorem decode_wired {a : RiscvArch δ} (wired : Wired J a) (vaddr paddr : Word)
    (slot : DecodeInfo) : Returns (a.decode P vaddr paddr slot) fun r => Wired J r.1 := by
  rw [decode_returns]
  refine (fetch_wired closed wired paddr slot).mono ?_
  rintro ⟨rvc, a', i⟩ fetched
  have ready : Wired J (bodyCtx a' vaddr paddr i).arch := fetched
  exact exec_wired closed ready _

end Reads

variable (closed : AccessClosed P.map J)

include closed

/-- A write by the core keeps the wire, since the device does. -/
theorem paddrWrite_wired {a : RiscvArch δ} (wired : Wired J a) (paddr : Word) (n : Nat)
    (data : Word) : Returns (a.paddrWrite P paddr n data) (Wired J) := by
  simp only [paddrWrite, returns_bind, returns_pure, wired_afterAccess]
  cases claimed : Memory.deviceAt P.map paddr with
  | none =>
      intro r written
      obtain ⟨dev, silent⟩ := Memory.paddrWrite_dev claimed written
      rw [dev, silent]
      exact wired
  | some d =>
      rw [Memory.paddrWrite_device claimed, returns_ok]
      exact closed.write d (List.mem_of_find?_eq_some claimed) _ _ paddr n data wired

/-- So does the store of a memory operand. -/
theorem storeOperand_wired {a : RiscvArch δ} (wired : Wired J a) (paddr : Word)
    (size : BitVec 16) (data : Word) : Returns (storeOperand P a paddr size data) (Wired J) := by
  unfold storeOperand
  split
  · exact returns_error _ _
  · exact paddrWrite_wired closed wired paddr _ data

/-- So does the store of all of them. -/
theorem commitMemory_wired {a : RiscvArch δ} (wired : Wired J a) (info : DecodeInfo) :
    Returns (commitMemory P a info) (Wired J) := by
  unfold commitMemory
  split
  · exact storeOperand_wired closed wired _ _ _
  · exact storeOperand_wired closed wired _ _ _
  · split
    · rw [returns_bind]
      refine (translateAddr_wired closed.toReadClosed wired _ .sfetch _).mono ?_
      rintro ⟨ha, exception, a'⟩ translated
      exact storeOperand_wired closed translated _ _ _
    · exact (returns_ok _ _).2 wired
  · exact (returns_ok _ _).2 wired

/-- A commit keeps the relation if its commit loop does. -/
theorem commit_wired {a : RiscvArch δ} {info : DecodeInfo}
    (committed : Returns (commitDsts a.state info) fun s => J a.memory.dev (s.get .mip)) :
    Returns (a.commit P info) fun r => Wired J r.2 := by
  simp only [commit, returns_bind, returns_pure]
  intro s ran
  refine (commitMemory_wired closed (a := { a with state := s }) (committed s ran) info).mono ?_
  intro a' stored
  exact stored.with_state (ArchState.get_set_of_ne _ _ (by decide))

/-- Traps and returns leave the devices and `mip`. -/
theorem updateEnv_wired {a : RiscvArch δ} (wired : Wired J a) {info : DecodeInfo}
    (committed : info.exception = excNone →
      Returns (commitDsts a.state info) fun s => J a.memory.dev (s.get .mip)) :
    Returns (a.updateEnv P info) fun r => Wired J r.2 := by
  rcases updateEnv_cases P a info with ⟨-, tval, h⟩ | ⟨-, h⟩ | ⟨-, h⟩ | ⟨code, h⟩ | ⟨-, h⟩
  · rw [h, returns_ok, Wired, trap_memory, trap_get a info tval (by decide)]
    exact wired
  · rw [h, returns_ok]
    exact wired
  · rw [h, returns_ok]
    exact wired
  · rw [h]
    exact commit_wired closed (committed code)
  · rw [h]
    exact returns_error _ _

end RiscvArch

end CPUDelaySim.Riscv
