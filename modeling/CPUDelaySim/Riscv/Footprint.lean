import CPUDelaySim.Riscv.Sv39

/-!
# The places a call asks for

`RiscvArch::paddrRead` and `paddrWrite` check nothing.  What a call accesses is settled before
it: the registers give the virtual addresses, the page tables in RAM give the entries and the
places these lead to, and the record in `env->info` gives the place of a store.  The footprints
below say so, in terms of the state alone.

A machine stays inside its memory exactly when the guest asks for nothing outside.  No check
turns such a request into an access fault: `staysInside_iff` says so for whole runs.

No footprint speaks of what `decode` or `updateEnv` returns.  `translateFootprint` lists the entries
of a walk from the tables, `placeOf` gives the address it leads to, and `bodyFootprint` and
`operandFootprint` what the instruction or the record in hand asks for there.  Each function of
`RiscvArch` then has a lemma that it accesses nothing else, and one that it does access what is
asked for, or stops before.

`Machine.Raises` is about the report, wherever a call could leave one.  A call that is asked for a
place outside gives none that would keep it from the access.
-/

namespace CPUDelaySim.Riscv

variable {δ : Type}

open RiscvArch

/-- The access-fault code of an access type. -/
def FetchType.accessFault : FetchType → Word
  | ifetch => excIAF
  | lfetch => excLAF
  | sfetch => excSAF

/-- The codes that report an access of a type. -/
def FetchType.faults (type : FetchType) : List Word := [type.accessFault, type.pageFault]

/-- A physical access: its first byte, its size, and what it is for. -/
structure PhysAccess where
  paddr : Word
  size : Nat
  type : FetchType

/-! ### Footprints -/

section Footprints

variable (P : Platform δ)

/-- The entries that a translation reads. -/
def translateFootprint (type : FetchType) (a : RiscvArch δ) (va : Word) : List PhysAccess :=
  if a.mmuOn type then (pteReads P a.memory.ram a.state va).map fun p => ⟨p, 8, type⟩ else []

/-- The place of a virtual address, if it has one. -/
def placeOf (type : FetchType) (a : RiscvArch δ) (va : Word) : Option Word :=
  if a.mmuOn type then sv39 P a.memory.ram a.state va type else some va

/-- The place, or where the walk has come to when there is none. -/
def arrival (type : FetchType) (a : RiscvArch δ) (va : Word) : Word :=
  (placeOf P type a va).getD (reached P a.memory.ram va 2 (satpRoot a.state))

/-- An aligned load reads the entries of its address and its place. -/
def loadFootprint (width : Width) (a : RiscvArch δ) (va : Word) : List PhysAccess :=
  if width.misaligned va then []
  else
    translateFootprint P .lfetch a va ++
      (placeOf P .lfetch a va).toList.map fun p => ⟨p, width.bytes, .lfetch⟩

/-- An aligned store reads the entries of its address; what it stores waits for `updateEnv`. -/
def storeFootprint (width : Width) (a : RiscvArch δ) (va : Word) : List PhysAccess :=
  if width.misaligned va then [] else translateFootprint P .sfetch a va

/-- What a body asks for.  An AMO, and an `sc` that holds its reservation, load first; their
stores read the same entries again. -/
def bodyFootprint (b : Body) (a : RiscvArch δ) : List PhysAccess :=
  match b with
  | .load _ addr width _ | .lr _ addr width | .amo _ addr width _ _ =>
      loadFootprint P width a (addr a.state)
  | .store addr width _ | .fstore addr width _ => storeFootprint P width a (addr a.state)
  | .fload _ addr width _ =>
      if a.state.fpEnabled then
        loadFootprint P width { a with state := a.state.dirtyFs } (addr a.state.dirtyFs)
      else []
  | .sc _ addr width _ =>
      if addr a.state = a.state.get .loadRes then loadFootprint P width a (addr a.state) else []
  | _ => []

/-- The place of a store, unless it is wider than its operand. -/
def operandFootprint (paddr : Word) (size : BitVec 16) : List PhysAccess :=
  if size.toNat ≤ 8 then [⟨paddr, size.toNat, .sfetch⟩] else []

/-- What the commit of a record asks for.  The `sc` translates its address once more and does not
look at the code. -/
def commitFootprint (a : RiscvArch δ) (info : DecodeInfo) : List PhysAccess :=
  match info.type with
  | .amo | .store => operandFootprint info.dst2.data info.dst2.idx
  | .sc =>
      if info.dst0.data = 0 then
        translateFootprint P .sfetch a info.excData ++
          operandFootprint (arrival P .sfetch a info.excData) info.dst2.idx
      else []
  | _ => []

/-- What a call asks for. -/
def Machine.Designates (m : Machine δ) (c : Call δ) (x : PhysAccess) : Prop :=
  match c with
  | .decode vaddr paddr slot =>
      x = ⟨paddr, 4, .ifetch⟩ ∨
        ∃ rvc a i, m.arch.fetch P paddr slot = .ok (rvc, a, i) ∧
          x ∈ bodyFootprint P (selected i.inst rvc) (bodyCtx a vaddr paddr i).arch
  | .translateAddr vaddr type => x ∈ translateFootprint P type m.arch vaddr
  | .updateEnv =>
      ∃ info, m.info = some info ∧ info.exception = excNone ∧
        ∃ s, commitDsts m.arch.state info = .ok s ∧
          x ∈ commitFootprint P { m.arch with state := s } info
  | .handleException _ _ _ | .environment _ _ _ _ => False

/-- The call ends and reports an access of a type: in the record that it decodes, in the code of
the translation, or in the trap that it takes instead of the commit. -/
def Machine.Raises (m : Machine δ) (c : Call δ) (type : FetchType) : Prop :=
  match c with
  | .decode vaddr paddr slot =>
      ∃ r, m.arch.decode P vaddr paddr slot = .ok r ∧ r.2.exception ∈ type.faults
  | .translateAddr vaddr type' =>
      ∃ r, m.arch.translateAddr P vaddr type' excNone = .ok r ∧ r.2.1 ∈ type.faults
  | .updateEnv =>
      ∃ info code r, m.info = some info ∧ code ∈ type.faults ∧
        m.arch.updateEnv P info = .ok r ∧
        m.arch.updateEnv P { info with exception := code } = .ok r
  | .handleException _ _ _ | .environment _ _ _ _ => False

/-- The call accesses RAM and the ranges of the devices only, indexes the `ram` array inside its
bounds, and reports what it is asked for outside. -/
structure Machine.StaysInside (m : Machine δ) (c : Call δ) : Prop where
  performed : m.CallAll P (fun _ => Memory.Within P.map) (fun _ => Memory.Within P.map) c
  inBounds : Avoids .ramOverrun (m.step P c)
  raises : ∀ x, m.Designates P c x → ¬ Memory.Within P.map x.paddr x.size → m.Raises P c x.type

end Footprints

/-! ### Only what is asked for is accessed -/

section Performed

variable {P : Platform δ} {W : RiscvArch δ → Word → Nat → Prop} {a : RiscvArch δ} {va : Word}

/-- If the entries that an address designates may be read, the walk reads what it may. -/
theorem translateAll_of_footprint {type : FetchType}
    (asked : ∀ x ∈ translateFootprint P type a va, ∀ b, W b x.paddr x.size) :
    TranslateAll P W a va type := by
  intro on
  rw [root_eq]
  refine walkAll_of_visited fun t read => ?_
  refine asked ⟨entryAddr va t.2 t.1, 8, type⟩ ?_
  rw [translateFootprint, if_pos on]
  exact List.mem_map_of_mem (List.mem_map_of_mem read)

/-- Loads and stores read the entries of an address alike, in machines that translate alike. -/
theorem translateAll_of_same {type type' : FetchType} {b : RiscvArch δ} (same : SameTables a b)
    (data : b.mmuOn type' = a.mmuOn type)
    (asked : ∀ x ∈ translateFootprint P type a va, ∀ b, W b x.paddr x.size) :
    TranslateAll P W b va type' := by
  refine translateAll_of_footprint ?_
  intro x read
  rw [translateFootprint, data, pteReads, same.ram, same.satpRoot] at read
  rw [translateFootprint] at asked
  by_cases on : a.mmuOn type = true
  · rw [if_pos on] at read asked
    obtain ⟨p, entry, rfl⟩ := List.mem_map.1 read
    exact asked ⟨p, 8, type⟩ (List.mem_map_of_mem entry)
  · rw [if_neg on] at read
    cases read

/-- A silent translation comes to the place. -/
theorem placeOf_of_ok {type : FetchType} {ha : Word} {b : RiscvArch δ}
    (ran : a.translateAddr P va type excNone = .ok (ha, excNone, b)) :
    placeOf P type a va = some ha := by
  unfold placeOf
  by_cases on : a.mmuOn type = true
  · rw [if_pos on]
    exact sv39_of_silent on ran
  · rw [if_neg on]
    rw [translateAddr, if_pos (by simpa using on)] at ran
    cases ran
    rfl

/-- A translation comes to its arrival, whatever it reports. -/
theorem arrival_of_ok {type : FetchType} {ha exception : Word} {b : RiscvArch δ}
    (ran : a.translateAddr P va type excNone = .ok (ha, exception, b)) :
    arrival P type a va = ha := by
  unfold arrival placeOf
  by_cases on : a.mmuOn type = true
  · rw [if_pos on]
    obtain ⟨c, -, ends⟩ := translateAddr_eq_reached on (ptesMapped_of_ok on ran) excNone
    rw [ran] at ends
    cases mapping : sv39 P a.memory.ram a.state va type with
    | none =>
        rw [mapping] at ends
        cases ends
        rfl
    | some pa =>
        rw [mapping] at ends
        cases ends
        rfl
  · rw [if_neg on]
    rw [translateAddr, if_pos (by simpa using on)] at ran
    cases ran
    rfl

/-- If the accesses that a load designates may be made, it makes none but those that may. -/
theorem ldAll_of_footprint {width : Width}
    (asked : ∀ x ∈ loadFootprint P width a va, ∀ b, W b x.paddr x.size) :
    LdAll P W W width a va := by
  intro aligned
  rw [loadFootprint, if_neg (by rw [aligned]; decide)] at asked
  refine ⟨translateAll_of_footprint fun x read => asked x (List.mem_append_left _ read), ?_⟩
  intro ha exception b ran silent
  have none : exception = excNone := by simpa [exceptionValid] using silent
  subst none
  refine asked ⟨ha, width.bytes, .lfetch⟩ (List.mem_append_right _ ?_) b
  rw [placeOf_of_ok ran]
  exact List.mem_singleton_self _

/-- If the entries that a store designates may be read, its check reads what it may. -/
theorem stAll_of_footprint {width : Width}
    (asked : ∀ x ∈ storeFootprint P width a va, ∀ b, W b x.paddr x.size) :
    StAll P W width a va := by
  intro aligned
  rw [storeFootprint, if_neg (by rw [aligned]; decide)] at asked
  exact translateAll_of_footprint asked

/-- The store after a load of the same address. -/
theorem stAll_of_loadFootprint {width : Width} {b : RiscvArch δ} (same : SameTables a b)
    (asked : ∀ x ∈ loadFootprint P width a va, ∀ b, W b x.paddr x.size) :
    StAll P W width b va := by
  intro aligned
  rw [loadFootprint, if_neg (by rw [aligned]; decide)] at asked
  have data : b.mmuOn .sfetch = a.mmuOn .lfetch := same.mmuOn _
  exact translateAll_of_same same data fun x read => asked x (List.mem_append_left _ read)

/-- A body accesses what it asks for only. -/
theorem bodyAll_of_footprint {b : Body} {ctx : Ctx δ}
    (asked : ∀ x ∈ bodyFootprint P b ctx.arch, ∀ b, W b x.paddr x.size) :
    BodyAll P W W b ctx := by
  cases b with
  | load rd addr width ext | lr rd addr width => exact ldAll_of_footprint asked
  | store addr width data | fstore addr width data => exact stAll_of_footprint asked
  | fload rd addr width box =>
      intro on
      rw [bodyFootprint, if_pos on] at asked
      exact ldAll_of_footprint asked
  | amo rd addr width data op =>
      refine ⟨ldAll_of_footprint asked, ?_⟩
      intro r loaded
      exact stAll_of_loadFootprint (ld_spec P width _ _ r loaded).1.sameTables asked
  | sc rd addr width src =>
      rw [bodyFootprint] at asked
      constructor
      · intro reserved
        rw [if_pos reserved] at asked
        exact ldAll_of_footprint asked
      · intro c compared
        -- Without the reservation the comparison fails at once.
        have reserved : addr ctx.arch.state = ctx.arch.state.get .loadRes := by
          by_contra other
          unfold scFails at compared
          rw [if_pos (show addr ctx.arch.state ≠
            (ctx.setExcData (addr ctx.arch.state)).arch.state.get .loadRes from other)] at compared
          cases compared
        rw [if_pos reserved] at asked
        exact stAll_of_loadFootprint (scFails_memStep P width _ _ _ compared).frame.sameTables asked
  | _ => trivial

/-- If the accesses that a record designates may be made, its commit makes none but those that
may. -/
theorem commitMemoryAll_of_footprint {info : DecodeInfo}
    (asked : ∀ x ∈ commitFootprint P a info, ∀ b, W b x.paddr x.size) :
    CommitMemoryAll P W W a info := by
  have operand {paddr : Word} {size : BitVec 16} (narrow : size.toNat ≤ 8) :
      (⟨paddr, size.toNat, .sfetch⟩ : PhysAccess) ∈ operandFootprint paddr size := by
    rw [operandFootprint, if_pos narrow]
    exact List.mem_singleton_self _
  unfold commitFootprint at asked
  unfold CommitMemoryAll
  cases type : info.type with
  | amo | store =>
      rw [type] at asked
      intro narrow
      exact asked _ (operand narrow) a
  | sc =>
      rw [type] at asked
      intro succeeded
      dsimp only at asked
      rw [if_pos succeeded] at asked
      refine ⟨translateAll_of_footprint fun x read => asked x (List.mem_append_left _ read), ?_⟩
      intro ha exception b ran narrow
      rw [arrival_of_ok ran] at asked
      exact asked _ (List.mem_append_right _ (operand narrow)) b
  | _ => trivial

/-- A call accesses what it asks for only. -/
theorem callAll_of_designates {m : Machine δ} {c : Call δ}
    (asked : ∀ x, m.Designates P c x → ∀ b, W b x.paddr x.size) : m.CallAll P W W c := by
  cases c with
  | decode vaddr paddr slot =>
      refine ⟨asked ⟨paddr, 4, .ifetch⟩ (.inl rfl) _, ?_⟩
      intro rvc b i fetched
      exact bodyAll_of_footprint fun x read => asked x (.inr ⟨rvc, b, i, fetched, read⟩)
  | translateAddr vaddr type => exact translateAll_of_footprint asked
  | updateEnv =>
      intro info held silent s committed
      exact commitMemoryAll_of_footprint fun x read =>
        asked x ⟨info, held, silent, s, committed, read⟩
  | handleException | environment => trivial

end Performed

/-! ### All that is asked for is accessed -/

section Asked

variable {P : Platform δ} {W : Word → Nat → Prop} {a : RiscvArch δ} {va : Word}

/-- Where every read of the walk is one that may be made, the walk reads each entry that the
address designates. -/
theorem translateFootprint_of_all (mapped : ∀ p n, W p n → Memory.Mapped P.map p n)
    {type : FetchType} (performed : TranslateAll P (fun _ => W) a va type) :
    ∀ x ∈ translateFootprint P type a va, W x.paddr x.size := by
  intro x read
  rw [translateFootprint] at read
  by_cases on : a.mmuOn type = true
  · have reads := performed on
    rw [root_eq] at reads
    rw [if_pos on] at read
    obtain ⟨p, entry, rfl⟩ := List.mem_map.1 read
    obtain ⟨t, visited, rfl⟩ := List.mem_map.1 entry
    exact visited_of_walkAll mapped reads t visited
  · rw [if_neg on] at read
    cases read

/-- Where every read of the walk may be made, the entries are where they can be read. -/
theorem ptesMapped_of_all (mapped : ∀ p n, W p n → Memory.Mapped P.map p n) {type : FetchType}
    (on : a.mmuOn type = true) (performed : TranslateAll P (fun _ => W) a va type) :
    PtesMapped P a va := by
  intro q read
  refine mapped q 8 (translateFootprint_of_all mapped performed ⟨q, 8, type⟩ ?_)
  rw [translateFootprint, if_pos on]
  exact List.mem_map_of_mem read

/-- With its entries mapped, a translation comes to its arrival. -/
theorem translateAddr_of_arrival (mapped : ∀ p n, W p n → Memory.Mapped P.map p n)
    {type : FetchType} (performed : TranslateAll P (fun _ => W) a va type) :
    ∃ exception b, a.translateAddr P va type excNone = .ok (arrival P type a va, exception, b) ∧
      (placeOf P type a va ≠ none → exception = excNone) := by
  unfold arrival placeOf
  by_cases on : a.mmuOn type = true
  · obtain ⟨b, -, ran⟩ :=
      translateAddr_eq_reached on (ptesMapped_of_all mapped on performed) excNone
    rw [if_pos on]
    cases mapping : sv39 P a.memory.ram a.state va type with
    | none =>
        rw [mapping] at ran
        exact ⟨_, b, ran, fun place => absurd rfl place⟩
    | some pa =>
        rw [mapping] at ran
        exact ⟨_, b, ran, fun _ => rfl⟩
  · rw [if_neg on]
    refine ⟨excNone, a, ?_, fun _ => rfl⟩
    rw [translateAddr, if_pos (by simpa using on)]
    rfl

/-- Where every access of a load may be made, so may those that it designates. -/
theorem loadFootprint_of_all (mapped : ∀ p n, W p n → Memory.Mapped P.map p n) {width : Width}
    (performed : LdAll P (fun _ => W) (fun _ => W) width a va) :
    ∀ x ∈ loadFootprint P width a va, W x.paddr x.size := by
  intro x read
  rw [loadFootprint] at read
  cases aligned : width.misaligned va with
  | true =>
      rw [if_pos aligned] at read
      cases read
  | false =>
      obtain ⟨entries, place⟩ := performed aligned
      rw [if_neg (by rw [aligned]; decide)] at read
      rcases List.mem_append.1 read with entry | target
      · exact translateFootprint_of_all mapped entries x entry
      · obtain ⟨p, found, rfl⟩ := List.mem_map.1 target
        have found := Option.mem_toList.1 found
        obtain ⟨exception, b, ran, silent⟩ := translateAddr_of_arrival mapped entries
        rw [arrival, show placeOf P .lfetch a va = some p from found] at ran
        cases silent (by rw [show placeOf P .lfetch a va = some p from found]; rintro ⟨⟩)
        exact place p excNone b ran rfl

/-- Where every read of a store's check may be made, so may those that it designates. -/
theorem storeFootprint_of_all (mapped : ∀ p n, W p n → Memory.Mapped P.map p n) {width : Width}
    (performed : StAll P (fun _ => W) width a va) :
    ∀ x ∈ storeFootprint P width a va, W x.paddr x.size := by
  intro x read
  rw [storeFootprint] at read
  cases aligned : width.misaligned va with
  | true =>
      rw [if_pos aligned] at read
      cases read
  | false =>
      rw [if_neg (by rw [aligned]; decide)] at read
      exact translateFootprint_of_all mapped (performed aligned) x read

/-- A body accesses all that it asks for. -/
theorem bodyFootprint_of_all (mapped : ∀ p n, W p n → Memory.Mapped P.map p n) {b : Body}
    {ctx : Ctx δ} (performed : BodyAll P (fun _ => W) (fun _ => W) b ctx) :
    ∀ x ∈ bodyFootprint P b ctx.arch, W x.paddr x.size := by
  intro x read
  cases b with
  | load rd addr width ext | lr rd addr width => exact loadFootprint_of_all mapped performed x read
  | store addr width data | fstore addr width data =>
      exact storeFootprint_of_all mapped performed x read
  | amo rd addr width data op => exact loadFootprint_of_all mapped performed.1 x read
  | fload rd addr width box =>
      rw [bodyFootprint] at read
      split_ifs at read with on
      · exact loadFootprint_of_all mapped (performed on) x read
      · cases read
  | sc rd addr width src =>
      rw [bodyFootprint] at read
      split_ifs at read with reserved
      · exact loadFootprint_of_all mapped (performed.1 reserved) x read
      · cases read
  | _ => cases read

/-- Where every access of a commit may be made, so may those that the record designates. -/
theorem commitFootprint_of_all (mapped : ∀ p n, W p n → Memory.Mapped P.map p n)
    {info : DecodeInfo} (performed : CommitMemoryAll P (fun _ => W) (fun _ => W) a info) :
    ∀ x ∈ commitFootprint P a info, W x.paddr x.size := by
  have operand {paddr : Word} {size : BitVec 16} {x : PhysAccess}
      (read : x ∈ operandFootprint paddr size) :
      size.toNat ≤ 8 ∧ x = ⟨paddr, size.toNat, .sfetch⟩ := by
    rw [operandFootprint] at read
    split_ifs at read with narrow
    · exact ⟨narrow, List.mem_singleton.1 read⟩
    · cases read
  intro x read
  unfold commitFootprint at read
  unfold CommitMemoryAll at performed
  cases type : info.type with
  | amo | store =>
      rw [type] at read performed
      obtain ⟨narrow, rfl⟩ := operand read
      exact performed narrow
  | sc =>
      rw [type] at read performed
      dsimp only at read
      split_ifs at read with succeeded
      · obtain ⟨entries, stored⟩ := performed succeeded
        rcases List.mem_append.1 read with entry | target
        · exact translateFootprint_of_all mapped entries x entry
        · obtain ⟨narrow, rfl⟩ := operand target
          obtain ⟨exception, b, ran, -⟩ := translateAddr_of_arrival mapped entries
          exact stored _ exception b ran narrow
      · cases read
  | _ =>
      rw [type] at read
      cases read

/-- A call accesses all that it asks for. -/
theorem designates_of_callAll (mapped : ∀ p n, W p n → Memory.Mapped P.map p n) {m : Machine δ}
    {c : Call δ} (performed : m.CallAll P (fun _ => W) (fun _ => W) c) :
    ∀ x, m.Designates P c x → W x.paddr x.size := by
  intro x asked
  cases c with
  | decode vaddr paddr slot =>
      rcases asked with rfl | ⟨rvc, b, i, fetched, read⟩
      · exact performed.1
      · exact bodyFootprint_of_all mapped (performed.2 rvc b i fetched) x read
  | translateAddr vaddr type => exact translateFootprint_of_all mapped performed x asked
  | updateEnv =>
      obtain ⟨info, held, silent, s, committed, read⟩ := asked
      exact commitFootprint_of_all mapped (performed info held silent s committed) x read
  | handleException | environment => cases asked

end Asked

/-! ### Whole runs -/

/-- A call stays inside exactly when all it is asked for is inside. -/
theorem Machine.staysInside_iff (P : Platform δ) (m : Machine δ) (c : Call δ) :
    m.StaysInside P c ↔ ∀ x, m.Designates P c x → Memory.Within P.map x.paddr x.size := by
  constructor
  · intro inside
    exact designates_of_callAll (fun _ _ within => within.mapped) inside.performed
  · intro asked
    refine ⟨callAll_of_designates fun x wanted _ => asked x wanted, ?_, ?_⟩
    · rw [Machine.step_avoids_iff]
      exact callAll_of_designates fun x wanted _ => (asked x wanted).mapped
    · intro x wanted outside
      exact absurd (asked x wanted) outside

/-- The calls of a run from reset stay inside RAM and the devices, and report what they are
asked for elsewhere, exactly when they are asked for nothing elsewhere. The footprints are read
off the state before each call, so this says that no check stands between a request and its
access: `paddrRead` and `paddrWrite` index the array with whatever the registers and the tables
lead to. -/
theorem run_staysInside_iff (P : Platform δ) (config : List (StateWord × Word))
    (memory : Memory δ) (calls : List (Call δ)) :
    (∀ m c, Visits (Machine.step P) (Machine.reset config memory) calls m c →
        m.StaysInside P c) ↔
      ∀ m c, Visits (Machine.step P) (Machine.reset config memory) calls m c →
        ∀ x, m.Designates P c x → Memory.Within P.map x.paddr x.size := by
  simp only [Machine.staysInside_iff]

/-- The load of `lowLoadProgram` is asked for address 0, and indexes the array there. -/
theorem lowLoadProgram_strays :
    ¬ ∀ m c, Visits (Machine.step (ramOnly 4096)) lowLoadProgram (Machine.execAt 0x80000000) m c →
      m.StaysInside (ramOnly 4096) c := by
  intro inside
  refine lowLoadProgram_overruns ?_
  rw [runSteps_avoids_iff]
  intro m c visit
  exact (inside m c visit).inBounds

end CPUDelaySim.Riscv
