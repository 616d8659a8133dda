import CPUDelaySim.Riscv.FpRun
import CPUDelaySim.Riscv.MemAccess

/-!
# The floating-point unit switched off

With `mstatus.FS` at zero every instruction of the floating-point unit should be illegal.
Which words these are is a matter of their encoding (`IsFpWord`): six opcodes and the stores,
the CSR instructions on `fflags`, `frm` and `fcsr`, and the compressed loads and stores.  The
tables give each of them a body behind `REQUIRE_FPU`, or none, but for the stores, whose bodies
look at `mstatus` nowhere (`fpTraps_iff`).
-/

namespace CPUDelaySim.Riscv

variable {δ : Type}

open RiscvArch

/-! ### The words -/

/-- The opcodes of the unit but for the stores: loads, fused operations, and the rest. -/
def fpOpcodes : List (BitVec 32) := [0x07, 0x43, 0x47, 0x4b, 0x4f, 0x53]

/-- A store of a floating-point register: `STORE-FP`, or `C.FSD` and `C.FSDSP`. -/
def IsFpStore (word : BitVec 32) : Bool → Prop
  | false => word &&& 0x7f = 0x27
  | true => word &&& 0xe003 = 0xa000 ∨ word &&& 0xe003 = 0xa002

/-- An instruction of the unit. -/
def IsFpWord (word : BitVec 32) : Bool → Prop
  | false => word &&& 0x7f ∈ fpOpcodes ∨ IsFpStore word false ∨
      word &&& 0x7f = 0x73 ∧ word &&& 0x3000 ≠ 0 ∧ IsFpCsr (field word 20 12)
  | true => word &&& 0xe003 = 0x2000 ∨ word &&& 0xe003 = 0x2002 ∨ IsFpStore word true

/-- The body of a function that exists: it neither exits nor returns false. -/
def Body.Implemented : Body → Prop
  | .notImplemented | .unsupported => False
  | _ => True

/-- The body starts with `REQUIRE_FPU`, or goes through the callbacks that do. -/
def Body.Guarded : Body → Prop
  | .fp _ _ _ _ | .fload _ _ _ _ => True
  | .csr _ csrno _ => IsFpCsr csrno
  | _ => False

/-- The body stores a floating-point register. -/
def Body.IsFpStore : Body → Prop
  | .fstore _ _ _ => True
  | _ => False

/-! ### Their rows -/

/-- The body of a word is that of a row whose test it passes, if any. -/
theorem selected_row (word : BitVec 32) (rvc : Bool) :
    selected word rvc = .unsupported ∨
      ∃ r ∈ if rvc then rows16 else rows32 word, word &&& r.mask = r.value ∧
        selected word rvc = r.body word := by
  unfold selected
  cases found : (candidates word rvc).find? Body.accepts with
  | none => exact .inl rfl
  | some b =>
      have listed := List.mem_of_find?_eq_some found
      have offers : candidates word rvc = offered (if rvc then rows16 else rows32 word) word := by
        cases rvc <;> rfl
      rw [offers, offered, List.mem_filterMap] at listed
      obtain ⟨r, row, passes⟩ := listed
      split at passes
      · rename_i test
        cases passes
        exact .inr ⟨r, row, test, rfl⟩
      · cases passes

/-- What a row of the unit may hold. -/
def Body.fpRow (store : Bool) : Body → Bool
  | .fp _ _ _ _ | .fload _ _ _ _ => !store
  | .fstore _ _ _ => store
  | .notImplemented | .unsupported => true
  | _ => false

set_option maxRecDepth 2000 in
/-- The rows of the floating-point opcodes but the stores. -/
theorem fpRows_all (word : BitVec 32) :
    ((rows07 ++ rows43 ++ rows47 ++ rows4B ++ rows4F ++ rows53).all fun r =>
      (r.body word).fpRow false) = true := rfl

/-- The rows of the floating-point stores. -/
theorem rows27_all (word : BitVec 32) : (rows27.all fun r => (r.body word).fpRow true) = true := rfl

/-- The tests of the 16-bit table all look at the two fields of the switch. -/
theorem rows16_all (word : BitVec 32) :
    (rows16.all fun r => r.mask &&& 0xe003 == 0xe003 &&
      (if r.value &&& 0xe003 = 0x2000 ∨ r.value &&& 0xe003 = 0x2002 then
        (r.body word).fpRow false
      else if r.value &&& 0xe003 = 0xa000 ∨ r.value &&& 0xe003 = 0xa002 then
        (r.body word).fpRow true
      else true)) = true := rfl

/-- Such a row, implemented, needs the unit. -/
theorem guarded_of_fpRow {b : Body} (row : b.fpRow false = true) (present : b.Implemented) :
    b.Guarded ∧ ¬ b.IsFpStore := by
  cases b with
  | fp | fload => exact ⟨trivial, id⟩
  | notImplemented | unsupported => exact absurd present id
  | _ => cases row

/-- Such a row of the stores, implemented, is a floating-point store. -/
theorem isFpStore_of_fpRow {b : Body} (row : b.fpRow true = true) (present : b.Implemented) :
    b.IsFpStore := by
  cases b with
  | fstore => trivial
  | notImplemented | unsupported => exact absurd present id
  | _ => cases row

/-- A row that stops the simulator. -/
theorem exits_body {rows : List (BitVec 32 × BitVec 32)} {r : Row} (row : r ∈ exits rows)
    (word : BitVec 32) : r.body word = .notImplemented := by
  obtain ⟨test, -, rfl⟩ := List.mem_map.1 row
  rfl

/-- A row that a CSR instruction fails, or whose body carries the number in the word. -/
def Row.CsrAlike (r : Row) : Prop :=
  (r.mask &&& 0x3000 = 0x3000 ∧ r.value &&& 0x3000 = 0) ∨
    ∀ word, r.body word = .notImplemented ∨
      ∃ rd access, r.body word = .csr rd (field word 20 12) access

/-- The system rows are CSR rows, or they have no CSR form. -/
theorem rows73_csrAlike : ∀ r ∈ rows73, r.CsrAlike := by
  have absent {rows : List (BitVec 32 × BitVec 32)} : ∀ r ∈ exits rows, r.CsrAlike :=
    fun r row => .inr fun word => .inl (exits_body row word)
  have fails {mask value : BitVec 32} {body : BitVec 32 → Body}
      (covers : mask &&& 0x3000 = 0x3000) (zero : value &&& 0x3000 = 0) :
      Row.CsrAlike ⟨mask, value, body⟩ := .inl ⟨covers, zero⟩
  simp only [rows73, List.forall_mem_append, List.forall_mem_cons, List.not_mem_nil,
    IsEmpty.forall_iff, implies_true, and_true]
  refine ⟨⟨⟨⟨⟨⟨⟨⟨⟨⟨⟨?_, ?_⟩, absent⟩, ?_⟩, absent⟩, ?_, ?_⟩, absent⟩, ?_⟩, absent⟩, ?_, ?_, ?_⟩,
    absent⟩, ?_, ?_, ?_⟩
  case refine_7 | refine_8 | refine_9 | refine_10 | refine_11 | refine_12 =>
    exact .inr fun word => .inr ⟨_, _, rfl⟩
  all_goals exact fails (by decide) (by decide)

/-- A word with a CSR form comes to the CSR of its own number. -/
theorem csr_of_rows73 {r : Row} (row : r ∈ rows73) {word : BitVec 32}
    (test : word &&& r.mask = r.value) (immediate : word &&& 0x3000 ≠ 0) :
    r.body word = .notImplemented ∨
      ∃ rd access, r.body word = .csr rd (field word 20 12) access := by
  rcases rows73_csrAlike r row with ⟨covers, zero⟩ | body
  · rw [← test, BitVec.and_assoc, covers] at zero
    exact absurd zero immediate
  · exact body word

/-- A word with a floating-point opcode comes to such rows only. -/
theorem fpRow_of_opcode {word : BitVec 32} (opcode : word &&& 0x7f ∈ fpOpcodes) :
    ∀ r ∈ rows32 word, (r.body word).fpRow false = true := by
  intro r row
  apply List.all_eq_true.1 (fpRows_all word) r
  simp only [fpOpcodes, List.mem_cons, List.not_mem_nil, or_false] at opcode
  simp only [List.mem_append]
  simp only [rows32] at row
  rcases opcode with h | h | h | h | h | h <;> rw [h] at row
  · exact .inl (.inl (.inl (.inl (.inl row))))
  · exact .inl (.inl (.inl (.inl (.inr row))))
  · exact .inl (.inl (.inl (.inr row)))
  · exact .inl (.inl (.inr row))
  · exact .inl (.inr row)
  · exact .inr row

/-- A word of a floating-point store comes to such rows only. -/
theorem fpRow_of_store {word : BitVec 32} (store : IsFpStore word false) :
    ∀ r ∈ rows32 word, (r.body word).fpRow true = true := by
  intro r row
  apply List.all_eq_true.1 (rows27_all word) r
  simp only [rows32] at row
  rwa [show word &&& 0x7f = 0x27 from store] at row

/-- A row that a compressed word passes is one for its own fields. -/
theorem fpRow_of_rows16 {word : BitVec 32} {r : Row} (row : r ∈ rows16)
    (test : word &&& r.mask = r.value) :
    (word &&& 0xe003 = 0x2000 ∨ word &&& 0xe003 = 0x2002 → (r.body word).fpRow false = true) ∧
      (IsFpStore word true → (r.body word).fpRow true = true) := by
  have kind := List.all_eq_true.1 (rows16_all word) r row
  simp only [Bool.and_eq_true, beq_iff_eq] at kind
  obtain ⟨covers, kind⟩ := kind
  have fields : r.value &&& 0xe003 = word &&& 0xe003 := by
    rw [← test, BitVec.and_assoc, covers]
  rw [fields] at kind
  constructor
  · intro load
    rwa [if_pos load] at kind
  · intro store
    have other : ¬ (word &&& 0xe003 = 0x2000 ∨ word &&& 0xe003 = 0x2002) := by
      rcases store with h | h <;> rw [h] <;> decide
    rwa [if_neg other, if_pos (show _ ∨ _ from store)] at kind

/-- An implemented instruction of the unit is guarded exactly when it is not a store. -/
theorem guarded_of_fpWord {word : BitVec 32} {rvc : Bool} (fp : IsFpWord word rvc)
    (present : (selected word rvc).Implemented) :
    (¬ IsFpStore word rvc → (selected word rvc).Guarded) ∧
      (IsFpStore word rvc → (selected word rvc).IsFpStore) := by
  rcases selected_row word rvc with none | ⟨r, row, test, body⟩
  · rw [none] at present
    exact absurd present id
  rw [body] at present ⊢
  cases rvc with
  | false =>
      rw [if_neg (by nofun)] at row
      refine ⟨fun other => ?_, fun store => isFpStore_of_fpRow (fpRow_of_store store r row) present⟩
      rcases fp with opcode | store | ⟨system, immediate, csrno⟩
      · exact (guarded_of_fpRow (fpRow_of_opcode opcode r row) present).1
      · exact absurd store other
      · simp only [rows32] at row
        rw [system] at row
        rcases csr_of_rows73 row test immediate with absent | ⟨rd, access, csr⟩
        · rw [absent] at present
          exact absurd present id
        · rw [csr]
          exact csrno
  | true =>
      rw [if_pos rfl] at row
      obtain ⟨load, store⟩ := fpRow_of_rows16 row test
      refine ⟨fun other => ?_, fun s => isFpStore_of_fpRow (store s) present⟩
      rcases fp with h | h | s
      · exact (guarded_of_fpRow (load (.inl h)) present).1
      · exact (guarded_of_fpRow (load (.inr h)) present).1
      · exact absurd s other

/-! ### Execution with the unit off -/

variable {P : Platform δ}

/-- A guarded body raises `EXC_II` and does nothing else to the machine. -/
theorem exec_guarded {b : Body} (guarded : b.Guarded) {ctx : Ctx δ}
    (off : ctx.arch.state.fpEnabled = false) :
    ∃ info, b.exec P ctx = .ok (true, ⟨ctx.arch, info⟩) ∧ info.exception = excII := by
  cases b with
  | fp dst rm fpCalc type =>
      refine ⟨(ctx.raise excII).info, ?_, rfl⟩
      simp only [Body.exec, requireFpu, off]
      rfl
  | fload rd addr width box =>
      refine ⟨(ctx.raise excII).info, ?_, rfl⟩
      simp only [Body.exec, requireFpu, off]
      rfl
  | csr rd csrno access =>
      obtain ⟨v, rfl⟩ : ∃ v : FpView, csrno = v.csrno := by
        rcases guarded with rfl | rfl | rfl
        · exact ⟨.fflags, rfl⟩
        · exact ⟨.frm, rfl⟩
        · exact ⟨.fcsr, rfl⟩
      refine ⟨(((ctx.raise excII).setDst0 (.gpr rd) P.junk).setType .csrwr).info, ?_, rfl⟩
      simp only [Body.exec, FpView.doCsr_view_off v rd access off]
      rfl
  | _ => exact absurd guarded id

/-- A floating-point store raises a memory fault or nothing. -/
theorem exec_fpStore {b : Body} (store : b.IsFpStore) {ctx : Ctx δ}
    (fresh : ctx.info.exception = excNone) :
    Returns (b.exec P ctx) fun r => r.2.info.exception ≠ excII := by
  cases b with
  | fstore addr width data =>
      simp only [Body.exec, returns_bind, returns_pure]
      refine (st_memStep P width ctx _).mono ?_
      intro c step
      have code := step.code
      rw [fresh] at code
      change c.info.exception ≠ excII
      simp only [List.mem_cons, List.not_mem_nil, or_false] at code
      rcases code with h | h | h | h | h <;> rw [h] <;> decide
  | _ => exact absurd store id

/-- `decode` raises `EXC_II` and leaves the machine it fetched with, and `updateEnv` takes the
trap: memory, the devices and every word but those of a trap stay. -/
def FpTraps (P : Platform δ) (arch a : RiscvArch δ) (vaddr paddr : Word) (slot : DecodeInfo) :
    Prop :=
  ∃ info next arch', arch.decode P vaddr paddr slot = .ok (a.at vaddr paddr, info) ∧
    info.exception = excII ∧ (a.at vaddr paddr).updateEnv P info = .ok (next, arch') ∧
    arch'.memory = a.memory ∧ ∀ w ∉ trapWords, arch'.state.get w = a.state.get w

/-- With the unit off and no interrupt pending, an instruction of the unit that has a body is
illegal and changes nothing exactly when it is not a store. The bodies of the stores are the
only ones without the guard `REQUIRE_FPU`. -/
theorem fpTraps_iff (P : Platform δ) {arch a : RiscvArch δ} (vaddr : Word) {paddr : Word}
    {slot : DecodeInfo} {rvc : Bool} {word : BitVec 32}
    (fetched : Fetches P arch paddr slot rvc word a)
    (off : arch.state.get .mstatus &&& mstatusFS = 0) (quiet : irqException a.state = none)
    (fp : IsFpWord word rvc) (present : (selected word rvc).Implemented) :
    FpTraps P arch a vaddr paddr slot ↔ ¬ IsFpStore word rvc := by
  obtain ⟨i, fetch, rfl⟩ := fetched
  obtain ⟨guarded, stores⟩ := guarded_of_fpWord fp present
  have decode : arch.decode P vaddr paddr slot = (selected i.inst rvc).exec P
      (bodyCtx a vaddr paddr i) >>= fun r => .ok (r.2.arch, report r.2) := by
    rw [decode_eq, fetch]
    rfl
  constructor
  · rintro ⟨info, next, arch', decoded, illegal, -⟩ store
    rw [decode, bind_eq_ok] at decoded
    obtain ⟨r, ran, result⟩ := decoded
    have body := exec_fpStore (stores store) (fresh_cleared i).exception r ran
    -- an interrupt would have been reported, but that is another code
    rw [show info = report r.2 from (congrArg Prod.snd (Except.ok.inj result)).symm,
      report_exception] at illegal
    cases pending : irqException r.2.arch.state with
    | none =>
        rw [pending] at illegal
        exact body illegal
    | some code =>
        rw [pending] at illegal
        have top := irqException_msb pending
        rw [show code = excII from illegal] at top
        cases top
  · intro other
    have disabled : (bodyCtx a vaddr paddr i).arch.state.fpEnabled = false := by
      change (a.state.get .mstatus &&& mstatusFS != 0) = false
      rw [(fetch_frame P arch paddr slot _ fetch).get (by decide), off]
      rfl
    obtain ⟨info, ran, illegal⟩ := exec_guarded (P := P) (guarded other) disabled
    have reported : report ⟨a.at vaddr paddr, info⟩ = info := by
      rw [report, show irqException (a.at vaddr paddr).state = none from quiet]
    refine ⟨info, ((a.at vaddr paddr).trap info info.excData).1,
      ((a.at vaddr paddr).trap info info.excData).2, ?_, illegal,
      updateEnv_fault P _ (by rw [illegal]; decide), ?_, ?_⟩
    · rw [decode, ran]
      exact congrArg (fun i => Except.ok (a.at vaddr paddr, i)) reported
    · rw [trap_memory]
      rfl
    · intro w other
      rw [trap_get _ _ _ other]
      rfl

/-- A machine with the unit off, at an instruction, with an address of RAM in `ra`. -/
def unitOff (word : BitVec 32) : RiscvArch Unit :=
  let a := RiscvArch.reset archCfg (imageOf [word, 0, 0xffffffff, 0xffffffff])
  { a with state := a.state.set (.gpr 1) 0x80000008 }

/-- `fsd ft0, 0(ra)` raises nothing and puts the register into memory. -/
theorem not_fpTraps :
    (unitOff 0x0000b027).state.get .mstatus &&& mstatusFS = 0 ∧
      IsFpWord 0x0000b027 false ∧ (unitOff 0x0000b027).memory.ram 8 = 0xff ∧
      (∃ next arch', Completes (ramOnly 4096) (unitOff 0x0000b027) 0x80000000 0x80000000 .zero
        next arch' ∧ arch'.memory.ram 8 = 0) ∧
      ∀ a, ¬ FpTraps (ramOnly 4096) (unitOff 0x0000b027) a 0x80000000 0x80000000 .zero := by
  refine ⟨by decide +kernel, .inr (.inl rfl), by decide +kernel, ?_, ?_⟩
  · obtain ⟨d, decoded, updated⟩ := exists_ok_of_toOption
      (show ((unitOff 0x0000b027).decode (ramOnly 4096) 0x80000000 0x80000000 .zero).toOption.map
        (fun d => (d.1.updateEnv (ramOnly 4096) d.2).toOption.map fun r => r.2.memory.ram 8) =
          some (some 0) by decide +kernel)
    obtain ⟨r, committed, byte⟩ := exists_ok_of_toOption updated
    exact ⟨r.1, r.2, ⟨d, decoded, committed⟩, byte⟩
  · rintro a ⟨info, next, arch', decoded, illegal, -⟩
    have code : ((unitOff 0x0000b027).decode (ramOnly 4096) 0x80000000 0x80000000
        .zero).toOption.map (·.2.exception) = some excNone := by decide +kernel
    rw [decoded] at code
    cases illegal.symm.trans (Option.some.inj code)

/-- `fadd.s ft0, ft0, ft0` traps. -/
theorem fpTraps_iff_add :
    ∃ a, FpTraps (ramOnly 4096) (unitOff 0x00000053) a 0x80000000 0x80000000 .zero := by
  obtain ⟨⟨rvc, a, i⟩, fetched, seen⟩ := exists_ok_of_toOption
    (show ((unitOff 0x00000053).fetch (ramOnly 4096) 0x80000000 .zero).toOption.map
      (fun r => (r.1, r.2.2.inst, irqException r.2.1.state)) = some (false, 0x00000053, none) by
        decide +kernel)
  simp only [Prod.mk.injEq] at seen
  obtain ⟨rfl, word, quiet⟩ := seen
  have body : selected 0x00000053 false = transFaddS (extractRRm 0x00000053) := by
    rfl
  refine ⟨a, (fpTraps_iff (ramOnly 4096) 0x80000000 ⟨i, fetched, word⟩ (by decide +kernel) quiet
    (.inl (by decide)) ?_).2 (by unfold IsFpStore; decide)⟩
  rw [body]
  trivial

end CPUDelaySim.Riscv
