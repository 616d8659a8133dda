import CPUDelaySim.Common.BitField
import CPUDelaySim.Riscv.Run

/-!
# Encoded instructions

An instruction of the manual is a word with fields of its own; the decoder is a table of
tests on bits.  A `Pattern` holds the bits that an encoding fixes, and `dispatch` runs the
table on a pattern: a test that the known bits settle is passed or failed for every word
of the pattern alike, so one evaluation of the table finds the body of a whole family of
words, whatever their registers and immediates are.

The second half follows the body through `decode` and `updateEnv`.
-/

namespace CPUDelaySim.Riscv

variable {δ : Type}

/-! ### The table on a pattern -/

/-- Bits that are known of a word: those under `mask`, and tests that it fails. -/
structure Pattern where
  mask : BitVec 32
  value : BitVec 32
  avoid : List (BitVec 32 × BitVec 32)

/-- The word has the known bits. -/
structure Pattern.Holds (p : Pattern) (word : BitVec 32) : Prop where
  known : word &&& p.mask = p.value
  avoided : ∀ q ∈ p.avoid, word &&& q.1 ≠ q.2

/-- No word of the pattern passes the row's test. -/
def Row.Fails (r : Row) (p : Pattern) : Prop :=
  r.value &&& p.mask ≠ p.value &&& r.mask ∨ (r.mask, r.value) ∈ p.avoid

/-- Every word of the pattern passes the row's test. -/
def Row.Passes (r : Row) (p : Pattern) : Prop :=
  r.mask &&& p.mask = r.mask ∧ p.value &&& r.mask = r.value

instance (r : Row) (p : Pattern) : Decidable (r.Fails p) := by unfold Row.Fails; infer_instance
instance (r : Row) (p : Pattern) : Decidable (r.Passes p) := by unfold Row.Passes; infer_instance

/-- The body of the first row that is not failed, if the pattern settles it. -/
def dispatch (p : Pattern) : List Row → Option (BitVec 32 → Body)
  | [] => none
  | r :: rows =>
      if r.Fails p then dispatch p rows else if r.Passes p then some r.body else none

/-- A row that fails on a pattern fails on each of its words. -/
theorem Row.Fails.test {r : Row} {p : Pattern} {word : BitVec 32} (fails : r.Fails p)
    (holds : p.Holds word) : word &&& r.mask ≠ r.value := by
  intro test
  rcases fails with differ | avoided
  · apply differ
    rw [← test, ← holds.known]
    ac_rfl
  · exact holds.avoided _ avoided test

/-- A row that passes on a pattern passes on each of its words. -/
theorem Row.Passes.test {r : Row} {p : Pattern} {word : BitVec 32} (passes : r.Passes p)
    (holds : p.Holds word) : word &&& r.mask = r.value := by
  calc word &&& r.mask = word &&& (r.mask &&& p.mask) := by rw [passes.1]
    _ = p.value &&& r.mask := by rw [← holds.known]; ac_rfl
    _ = r.value := passes.2

/-- The bodies a table offers for a word, in order. -/
def offered (rows : List Row) (word : BitVec 32) : List Body :=
  rows.filterMap fun r => if word &&& r.mask = r.value then some (r.body word) else none

/-- What `dispatch` finds is the first body offered. -/
theorem offered_of_dispatch {p : Pattern} {word : BitVec 32} (holds : p.Holds word)
    {rows : List Row} {body : BitVec 32 → Body} (found : dispatch p rows = some body) :
    ∃ rest, offered rows word = body word :: rest := by
  induction rows with
  | nil => cases found
  | cons r rows ih =>
      rw [dispatch] at found
      split at found
      · rename_i fails
        obtain ⟨rest, same⟩ := ih found
        refine ⟨rest, ?_⟩
        rw [← same]
        exact List.filterMap_cons_none (if_neg (fails.test holds))
      · split at found
        · rename_i passes
          cases found
          exact ⟨_, List.filterMap_cons_some (if_pos (passes.test holds))⟩
        · cases found

/-- The rows that pass, tried in order, end at the body that the pattern is dispatched to. -/
theorem find_of_dispatch {p : Pattern} {word : BitVec 32} (holds : p.Holds word)
    {rows : List Row} {body : BitVec 32 → Body} (found : dispatch p rows = some body)
    (accepts : (body word).accepts = true) :
    ((offered rows word).find? Body.accepts).getD .unsupported = body word := by
  obtain ⟨rest, offers⟩ := offered_of_dispatch holds found
  rw [offers, List.find?_cons_of_pos accepts, Option.getD_some]

/-- The switch on the opcode sees known bits only. -/
theorem rows32_of_holds {p : Pattern} {word : BitVec 32} (holds : p.Holds word)
    (opcode : 0x7f &&& p.mask = 0x7f) : rows32 word = rows32 p.value := by
  have same : word &&& 0x7f = p.value &&& 0x7f := by
    calc word &&& 0x7f = word &&& (0x7f &&& p.mask) := by rw [opcode]
      _ = p.value &&& 0x7f := by rw [← holds.known]; ac_rfl
  simp only [rows32, same]

/-- The body of a 32-bit word, from the bits of its pattern. -/
theorem selected_of_dispatch {p : Pattern} {word : BitVec 32} (holds : p.Holds word)
    (opcode : 0x7f &&& p.mask = 0x7f) {body : BitVec 32 → Body}
    (found : dispatch p (rows32 p.value) = some body) (accepts : (body word).accepts = true) :
    selected word false = body word := by
  rw [← rows32_of_holds holds opcode] at found
  exact find_of_dispatch holds found accepts

/-- The body of a compressed word. -/
theorem selected16_of_dispatch {p : Pattern} {word : BitVec 32} (holds : p.Holds word)
    {body : BitVec 32 → Body} (found : dispatch p rows16 = some body)
    (accepts : (body word).accepts = true) : selected word true = body word :=
  find_of_dispatch holds found accepts

/-! ### The formats of 32-bit words -/

/-- The R format. -/
def wordR (funct7 : BitVec 7) (rs2 rs1 : BitVec 5) (funct3 : BitVec 3) (rd : BitVec 5)
    (opcode : BitVec 7) : BitVec 32 :=
  (funct7 ++ rs2 ++ rs1 ++ funct3 ++ rd ++ opcode :)

/-- The I format. -/
def wordI (imm : BitVec 12) (rs1 : BitVec 5) (funct3 : BitVec 3) (rd : BitVec 5)
    (opcode : BitVec 7) : BitVec 32 :=
  (imm ++ rs1 ++ funct3 ++ rd ++ opcode :)

/-- The I format of a shift by a six-bit amount. -/
def wordShift (funct6 shamt : BitVec 6) (rs1 : BitVec 5) (funct3 : BitVec 3) (rd : BitVec 5)
    (opcode : BitVec 7) : BitVec 32 :=
  (funct6 ++ shamt ++ rs1 ++ funct3 ++ rd ++ opcode :)

/-- The bits of `funct7`, `funct3` and the opcode. -/
def patternR (funct7 : BitVec 7) (funct3 : BitVec 3) (opcode : BitVec 7)
    (avoid : List (BitVec 32 × BitVec 32)) : Pattern :=
  ⟨0xfe00707f, wordR funct7 0 0 funct3 0 opcode, avoid⟩

/-- The bits of `funct3` and the opcode. -/
def patternI (funct3 : BitVec 3) (opcode : BitVec 7) : Pattern :=
  ⟨0x707f, wordI 0 0 funct3 0 opcode, []⟩

/-- The bits of an immediate that is part of the operation, of `funct3` and the opcode. -/
def patternUnary (imm : BitVec 12) (funct3 : BitVec 3) (opcode : BitVec 7) : Pattern :=
  ⟨0xfff0707f, wordI imm 0 funct3 0 opcode, []⟩

/-- The bits of `funct6`, `funct3` and the opcode. -/
def patternShift (funct6 : BitVec 6) (funct3 : BitVec 3) (opcode : BitVec 7) : Pattern :=
  ⟨0xfc00707f, wordShift funct6 0 0 funct3 0 opcode, []⟩

/-- The mask of a row acts on an R-type word field by field. -/
theorem wordR_and (funct7 funct7' : BitVec 7) (rs2 rs1 rs2' rs1' : BitVec 5)
    (funct3 funct3' : BitVec 3) (rd rd' : BitVec 5) (opcode opcode' : BitVec 7) :
    wordR funct7 rs2 rs1 funct3 rd opcode &&& wordR funct7' rs2' rs1' funct3' rd' opcode' =
      wordR (funct7 &&& funct7') (rs2 &&& rs2') (rs1 &&& rs1') (funct3 &&& funct3') (rd &&& rd')
        (opcode &&& opcode') := by
  refine BitVec.and_append.trans ?_
  simp only [BitVec.and_append]
  rfl

/-- The mask of a row acts on an I-type word field by field. -/
theorem wordI_and (imm imm' : BitVec 12) (rs1 rs1' : BitVec 5) (funct3 funct3' : BitVec 3)
    (rd rd' : BitVec 5) (opcode opcode' : BitVec 7) :
    wordI imm rs1 funct3 rd opcode &&& wordI imm' rs1' funct3' rd' opcode' =
      wordI (imm &&& imm') (rs1 &&& rs1') (funct3 &&& funct3') (rd &&& rd')
        (opcode &&& opcode') := by
  refine BitVec.and_append.trans ?_
  simp only [BitVec.and_append]
  rfl

/-- The mask of a row acts on the word of a shift field by field. -/
theorem wordShift_and (funct6 funct6' shamt shamt' : BitVec 6) (rs1 rs1' : BitVec 5)
    (funct3 funct3' : BitVec 3) (rd rd' : BitVec 5) (opcode opcode' : BitVec 7) :
    wordShift funct6 shamt rs1 funct3 rd opcode &&&
        wordShift funct6' shamt' rs1' funct3' rd' opcode' =
      wordShift (funct6 &&& funct6') (shamt &&& shamt') (rs1 &&& rs1') (funct3 &&& funct3')
        (rd &&& rd') (opcode &&& opcode') := by
  refine BitVec.and_append.trans ?_
  simp only [BitVec.and_append]
  rfl

/-- A word is of the pattern with its `funct7`, `funct3` and opcode. -/
theorem patternR_holds {funct7 : BitVec 7} {rs2 rs1 : BitVec 5} {funct3 : BitVec 3}
    {rd : BitVec 5} {opcode : BitVec 7} {avoid : List (BitVec 32 × BitVec 32)}
    (avoided : ∀ q ∈ avoid, wordR funct7 rs2 rs1 funct3 rd opcode &&& q.1 ≠ q.2) :
    (patternR funct7 funct3 opcode avoid).Holds (wordR funct7 rs2 rs1 funct3 rd opcode) := by
  have mask : (0xfe00707f : BitVec 32) =
      wordR (.allOnes 7) 0#5 0#5 (.allOnes 3) 0#5 (.allOnes 7) := rfl
  refine ⟨?_, avoided⟩
  rw [patternR, mask, wordR_and]
  simp only [BitVec.and_allOnes, BitVec.and_zero]
  rfl

/-- A word is of the pattern with its `funct3` and opcode. -/
theorem patternI_holds {imm : BitVec 12} {rs1 : BitVec 5} {funct3 : BitVec 3} {rd : BitVec 5}
    {opcode : BitVec 7} :
    (patternI funct3 opcode).Holds (wordI imm rs1 funct3 rd opcode) := by
  have mask : (0x707f : BitVec 32) = wordI 0#12 0#5 (.allOnes 3) 0#5 (.allOnes 7) := rfl
  refine ⟨?_, by simp [patternI]⟩
  rw [patternI, mask, wordI_and]
  simp only [BitVec.and_allOnes, BitVec.and_zero]
  rfl

/-- The pattern of an I-type word fixes the opcode. -/
theorem patternI_opcode {funct3 : BitVec 3} {opcode : BitVec 7} :
    0x7f &&& (patternI funct3 opcode).mask = 0x7f := by
  change (0x7f &&& 0x707f : BitVec 32) = 0x7f
  decide

/-- A word is of the pattern with its whole immediate, `funct3` and opcode. -/
theorem patternUnary_holds {imm : BitVec 12} {rs1 : BitVec 5} {funct3 : BitVec 3}
    {rd : BitVec 5} {opcode : BitVec 7} :
    (patternUnary imm funct3 opcode).Holds (wordI imm rs1 funct3 rd opcode) := by
  have mask : (0xfff0707f : BitVec 32) =
      wordI (.allOnes 12) 0#5 (.allOnes 3) 0#5 (.allOnes 7) := rfl
  refine ⟨?_, by simp [patternUnary]⟩
  rw [patternUnary, mask, wordI_and]
  simp only [BitVec.and_allOnes, BitVec.and_zero]
  rfl

/-- The word of a shift is of the pattern with its `funct6`, `funct3` and opcode. -/
theorem patternShift_holds {funct6 shamt : BitVec 6} {rs1 : BitVec 5} {funct3 : BitVec 3}
    {rd : BitVec 5} {opcode : BitVec 7} :
    (patternShift funct6 funct3 opcode).Holds
      (wordShift funct6 shamt rs1 funct3 rd opcode) := by
  have mask : (0xfc00707f : BitVec 32) =
      wordShift (.allOnes 6) 0#6 0#5 (.allOnes 3) 0#5 (.allOnes 7) := rfl
  refine ⟨?_, by simp [patternShift]⟩
  rw [patternShift, mask, wordShift_and]
  simp only [BitVec.and_allOnes, BitVec.and_zero]
  rfl

/-! ### The fields the decoder extracts -/

/-- A field of a field. -/
theorem field_sub (i : BitVec 32) (pos len sub n : Nat) (inside : sub + n ≤ len) :
    field i (pos + sub) n = (field i pos len).extractLsb' sub n := by
  apply BitVec.eq_of_getLsbD_eq
  intro j bound
  simp [bound, show sub + j < len by omega, Nat.add_assoc]

section Fields

variable (rs2 rs1 : BitVec 5) (funct3 : BitVec 3) (rd : BitVec 5) (opcode : BitVec 7)

/-- The fields of an R-type word are read back. -/
theorem fields_wordR (funct7 : BitVec 7) :
    let word := wordR funct7 rs2 rs1 funct3 rd opcode
    field word 20 5 = rs2 ∧ field word 15 5 = rs1 ∧ field word 7 5 = rd := by
  unfold field wordR
  refine ⟨?_, ?_, ?_⟩
  · rw [extractLsb'_above 13 rfl, extractLsb'_above 8 rfl, extractLsb'_above 5 rfl,
      extractLsb'_above 0 rfl, extractLsb'_last]
  · rw [extractLsb'_above 8 rfl, extractLsb'_above 3 rfl, extractLsb'_above 0 rfl,
      extractLsb'_last]
  · rw [extractLsb'_above 0 rfl, extractLsb'_last]

/-- The fields of an I-type word are read back. -/
theorem fields_wordI (imm : BitVec 12) :
    let word := wordI imm rs1 funct3 rd opcode
    field word 20 12 = imm ∧ field word 15 5 = rs1 ∧ field word 7 5 = rd := by
  unfold field wordI
  refine ⟨?_, ?_, ?_⟩
  · rw [extractLsb'_above 13 rfl, extractLsb'_above 8 rfl, extractLsb'_above 5 rfl,
      extractLsb'_above 0 rfl, BitVec.extractLsb'_eq_self]
  · rw [extractLsb'_above 8 rfl, extractLsb'_above 3 rfl, extractLsb'_above 0 rfl,
      extractLsb'_last]
  · rw [extractLsb'_above 0 rfl, extractLsb'_last]

/-- The arguments of an R-type word. -/
theorem extractR_wordR (funct7 : BitVec 7) :
    extractR (wordR funct7 rs2 rs1 funct3 rd opcode) = ⟨rd, rs1, rs2⟩ := by
  obtain ⟨second, first, dest⟩ := fields_wordR rs2 rs1 funct3 rd opcode funct7
  rw [extractR, second, first, dest]

/-- The arguments of an I-type word, with its immediate extended. -/
theorem extractI_wordI (imm : BitVec 12) :
    extractI (wordI imm rs1 funct3 rd opcode) = ⟨imm.signExtend 64, rs1, rd⟩ := by
  obtain ⟨value, first, dest⟩ := fields_wordI rs1 funct3 rd opcode imm
  rw [extractI, value, first, dest]

/-- The arguments of a word with one source register. -/
theorem extractR2_wordI (imm : BitVec 12) :
    extractR2 (wordI imm rs1 funct3 rd opcode) = ⟨rd, rs1⟩ := by
  obtain ⟨-, first, dest⟩ := fields_wordI rs1 funct3 rd opcode imm
  rw [extractR2, first, dest]

/-- The seventh bit of the decoder's amount is the lowest of `funct6`, which is clear in
every shift. -/
theorem extractSh_wordShift {funct6 : BitVec 6} (even : funct6.extractLsb' 0 1 = 0)
    (shamt : BitVec 6) :
    extractSh (wordShift funct6 shamt rs1 funct3 rd opcode) =
      ⟨shamt.setWidth 7, rs1, rd⟩ := by
  have amount : (funct6 ++ shamt).extractLsb' 0 7 = shamt.setWidth 7 := by
    apply BitVec.eq_of_getLsbD_eq
    intro i bound
    rw [BitVec.getLsbD_extractLsb', Nat.zero_add, BitVec.getLsbD_append, BitVec.getLsbD_setWidth]
    by_cases low : i < 6
    · simp [low, bound]
    · have bit : funct6.getLsbD 0 = false := by
        simpa using congrArg (fun v : BitVec 1 => v.getLsbD 0) even
      have top : i = 6 := by omega
      subst top
      simpa using bit
  obtain ⟨value, first, dest⟩ := fields_wordI rs1 funct3 rd opcode (funct6 ++ shamt)
  have inside : field (wordShift funct6 shamt rs1 funct3 rd opcode) 20 7 = shamt.setWidth 7 := by
    rw [← amount]
    exact (field_sub _ 20 12 0 7 (by decide)).trans (congrArg (BitVec.extractLsb' 0 7) value)
  rw [extractSh, inside, ArgShift.mk.injEq]
  exact ⟨rfl, first, dest⟩

/-- The arguments of the word of a shift by five bits. -/
theorem extractSh5_wordR (funct7 : BitVec 7) (shamt : BitVec 5) :
    extractSh5 (wordR funct7 shamt rs1 funct3 rd opcode) = ⟨shamt.setWidth 7, rs1, rd⟩ := by
  obtain ⟨value, first, dest⟩ := fields_wordR shamt rs1 funct3 rd opcode funct7
  rw [extractSh5, value, first, dest]

end Fields

/-! ### Shift amounts in registers -/

/-- Six bits of shift amount. -/
theorem sh6_eq (v : Word) : sh6 v = v.toNat % 64 := by
  rw [sh6, BitVec.toNat_and]
  exact Nat.and_two_pow_sub_one_eq_mod v.toNat 6

/-- Five bits of shift amount. -/
theorem sh5_eq (v : Word) : sh5 v = v.toNat % 32 := by
  rw [sh5, BitVec.toNat_and]
  exact Nat.and_two_pow_sub_one_eq_mod v.toNat 5

/-! ### The instruction at an address -/

open RiscvArch

/-- The fetch at an address yields the word, and leaves the machine `a`. -/
def Fetches (P : Platform δ) (arch : RiscvArch δ) (paddr : Word) (slot : DecodeInfo)
    (rvc : Bool) (word : BitVec 32) (a : RiscvArch δ) : Prop :=
  ∃ i, arch.fetch P paddr slot = .ok (rvc, a, i) ∧ i.inst = word

/-- The instruction is decoded, and `updateEnv` of its record returns. -/
def Completes (P : Platform δ) (arch : RiscvArch δ) (vaddr paddr : Word) (slot : DecodeInfo)
    (next : Word) (arch' : RiscvArch δ) : Prop :=
  ∃ d, arch.decode P vaddr paddr slot = .ok d ∧ d.1.updateEnv P d.2 = .ok (next, arch')

/-- The length of an instruction. -/
def instBytes (rvc : Bool) : Word := if rvc then 2 else 4

/-- The machine after an instruction that writes `rd` alone. -/
def RiscvArch.afterWrite (a : RiscvArch δ) (vaddr paddr : Word) (rd : BitVec 5) (dest : Word) :
    RiscvArch δ :=
  ({ a with
    pc := vaddr
    paddr := paddr
    state := (a.state.set (.gpr rd) dest).set (.gpr 0) 0 } : RiscvArch δ).updateMMUState

/-- Two writes of `rd` leave the same registers when the values agree or `rd` is `x0`. -/
theorem writes_eq_iff (s : ArchState) (rd : BitVec 5) {dest dest' : Word} :
    (s.set (.gpr rd) dest).set (.gpr 0) 0 = (s.set (.gpr rd) dest').set (.gpr 0) 0 ↔
      rd = 0 ∨ dest = dest' := by
  by_cases drop : rd = 0
  · subst drop
    simp
  · have other : StateWord.gpr rd ≠ .gpr 0 := fun same => drop (StateWord.gpr.inj same)
    rw [or_iff_right drop]
    constructor
    · intro same
      have read : ((s.set (.gpr rd) dest).set (.gpr 0) 0).get (.gpr rd) =
          ((s.set (.gpr rd) dest').set (.gpr 0) 0).get (.gpr rd) := by
        rw [same]
      rwa [ArchState.get_set_of_ne _ _ other, ArchState.get_set_of_ne _ _ other,
        ArchState.get_set_self, ArchState.get_set_self] at read
    · rintro rfl
      rfl

/-- `fetch` notes the length of the instruction. -/
theorem instSize_eq {P : Platform δ} {arch a : RiscvArch δ} {paddr : Word} {slot i : DecodeInfo}
    {rvc : Bool} (fetched : arch.fetch P paddr slot = .ok (rvc, a, i)) :
    i.instSize.setWidth 64 = instBytes rvc := by
  rw [show i.instSize = _ from fetch_instSize P arch paddr slot _ fetched]
  cases rvc <;> rfl

/-! ### Records without an exception -/

section Commit

variable {info : DecodeInfo} {s : ArchState}

/-- A destination that is aimed at a whole word. -/
theorem commit_full {d : Dst} {w : StateWord} {dest : Word} (aimed : d = Dst.full w dest) :
    s.commit d = .ok (s.set w dest) := by
  rw [aimed]
  refine (ArchState.commit_idx _ _ _ _).trans ?_
  exact congrArg (fun v => Except.ok (s.set w v)) (mergeMask_full _ dest)

/-- A record that writes one register. -/
theorem commitDsts_full {w : StateWord} {dest : Word} (dst0 : info.dst0 = Dst.full w dest)
    (mask1 : info.dst1.mask = 0#64) (mask2 : info.dst2.mask = 0#64) :
    commitDsts s info = .ok (s.set w dest) := by
  simp only [commitDsts, bind_eq_ok]
  exact ⟨_, commit_full dst0, _, ArchState.commit_of_mask_zero _ mask1,
    ArchState.commit_of_mask_zero _ mask2⟩

/-- A record that writes none. -/
theorem commitDsts_none (mask0 : info.dst0.mask = 0#64) (mask1 : info.dst1.mask = 0#64)
    (mask2 : info.dst2.mask = 0#64) : commitDsts s info = .ok s := by
  simp only [commitDsts, bind_eq_ok]
  exact ⟨_, ArchState.commit_of_mask_zero _ mask0, _, ArchState.commit_of_mask_zero _ mask1,
    ArchState.commit_of_mask_zero _ mask2⟩

/-- The machine once an access has been committed: registers, RAM, `x0`, the flags. -/
def RiscvArch.committed (a : RiscvArch δ) (s : ArchState) (ram : Nat → Byte) : RiscvArch δ :=
  ({ a with
    state := s.set (.gpr 0) 0
    memory := { a.memory with ram := ram } } : RiscvArch δ).updateMMUState

/-- What a commit leaves in the registers, `x0` put back to zero. -/
@[simp] theorem RiscvArch.committed_state (a : RiscvArch δ) (s : ArchState) (ram : Nat → Byte) :
    (a.committed s ram).state = s.set (.gpr 0) 0 := rfl

/-- What a commit leaves in memory. -/
@[simp] theorem RiscvArch.committed_memory (a : RiscvArch δ) (s : ArchState)
    (ram : Nat → Byte) : (a.committed s ram).memory = { a.memory with ram := ram } := rfl

variable {P : Platform δ} {a : RiscvArch δ}

/-- The record of an instruction that stores nothing is committed to the registers. -/
theorem updateEnv_registers (code : info.exception = excNone)
    (plain : info.type ≠ .amo ∧ info.type ≠ .store ∧ info.type ≠ .sc)
    (dsts : commitDsts a.state info = .ok s) :
    a.updateEnv P info = .ok (nextPc a.pc info, a.committed s a.memory.ram) := by
  have memory : commitMemory P { a with state := s } info = .ok { a with state := s } := by
    unfold commitMemory
    split
    · exact absurd ‹_› plain.1
    · exact absurd ‹_› plain.2.1
    · exact absurd ‹_› plain.2.2
    · rfl
  rw [updateEnv_commit P a code, commit, dsts]
  change (commitMemory P { a with state := s } info >>= _) = _
  rw [memory]
  rfl

end Commit

section Completes

variable {P : Platform δ} {arch a : RiscvArch δ} {vaddr paddr : Word} {slot i : DecodeInfo}
variable {rvc : Bool}

/-- With no interrupt, `updateEnv` runs on the record the body leaves. -/
theorem completes_iff {done : Bool} {ctx : Ctx δ}
    (fetched : arch.fetch P paddr slot = .ok (rvc, a, i))
    (ran : (selected i.inst rvc).exec P (bodyCtx a vaddr paddr i) = .ok (done, ctx))
    (quiet : irqException ctx.arch.state = none) {next : Word} {arch' : RiscvArch δ} :
    Completes P arch vaddr paddr slot next arch' ↔
      ctx.arch.updateEnv P ctx.info = .ok (next, arch') := by
  have decoded : arch.decode P vaddr paddr slot = .ok (ctx.arch, ctx.info) := by
    have silent : report ctx = ctx.info := by
      rw [report, quiet]
    rw [decode_eq, fetched]
    change ((selected i.inst rvc).exec P (bodyCtx a vaddr paddr i) >>= _) = _
    rw [ran, ← silent]
    rfl
  rw [Completes, decoded]
  constructor
  · rintro ⟨d, same, updated⟩
    cases same
    exact updated
  · intro updated
    exact ⟨_, rfl, updated⟩

/-- A body that stops the simulator completes nothing. -/
theorem not_completes {e : Abort} (fetched : arch.fetch P paddr slot = .ok (rvc, a, i))
    (stops : (selected i.inst rvc).exec P (bodyCtx a vaddr paddr i) = .error e) {next : Word}
    {arch' : RiscvArch δ} : ¬ Completes P arch vaddr paddr slot next arch' := by
  rintro ⟨d, decoded, -⟩
  rw [decode_eq, fetched] at decoded
  change ((selected i.inst rvc).exec P (bodyCtx a vaddr paddr i) >>= _) = _ at decoded
  rw [stops] at decoded
  cases decoded

/-- A record that writes one register is committed to the registers alone. -/
theorem updateEnv_write (P : Platform δ) (arch : RiscvArch δ) {info : DecodeInfo}
    (fresh : Fresh info) (w : StateWord) (dest : Word) (type : PlainType) :
    arch.updateEnv P { info with dst0 := Dst.full w dest, type := type.instType } =
      .ok (arch.pc + info.instSize.setWidth 64, ({ arch with
        state := (arch.state.set w dest).set (.gpr 0) 0 }).updateMMUState) := by
  let record : DecodeInfo := { info with dst0 := Dst.full w dest, type := type.instType }
  have code : record.exception = excNone := fresh.exception
  have plain : record.type ≠ .amo ∧ record.type ≠ .store ∧ record.type ≠ .sc := by
    cases type <;> exact ⟨nofun, nofun, nofun⟩
  have dsts : commitDsts arch.state record = .ok (arch.state.set w dest) :=
    commitDsts_full rfl fresh.mask1 fresh.mask2
  rw [updateEnv_registers code plain dsts]
  cases type <;> rfl

/-- An instruction that computes a register completes when its value is defined. -/
theorem completes_compute_iff {word : BitVec 32} {rd : BitVec 5}
    {value : ArchState → Word → Option Word} {type : PlainType}
    (fetches : Fetches P arch paddr slot rvc word a)
    (body : selected word rvc = .compute rd value type)
    (quiet : irqException a.state = none) {next : Word} {arch' : RiscvArch δ} :
    Completes P arch vaddr paddr slot next arch' ↔
      ∃ dest, value a.state vaddr = some dest ∧ next = vaddr + instBytes rvc ∧
        arch' = a.afterWrite vaddr paddr rd dest := by
  obtain ⟨i, fetched, rfl⟩ := fetches
  cases computed : value a.state vaddr with
  | none =>
      have stops : (selected i.inst rvc).exec P (bodyCtx a vaddr paddr i) =
          .error .undefinedArith := by
        simp only [body, Body.exec, bodyCtx, computed]
      refine ⟨fun completes => absurd completes (not_completes fetched stops), ?_⟩
      rintro ⟨dest, undefined, -⟩
      cases undefined
  | some dest =>
      let ctx := ((bodyCtx a vaddr paddr i).setDst0 (.gpr rd) dest).setType type.instType
      have ran : (selected i.inst rvc).exec P (bodyCtx a vaddr paddr i) = .ok (true, ctx) := by
        simp only [body, Body.exec, bodyCtx, computed]
        rfl
      have updated : ctx.arch.updateEnv P ctx.info =
          .ok (vaddr + instBytes rvc, a.afterWrite vaddr paddr rd dest) := by
        rw [← instSize_eq fetched]
        exact updateEnv_write P _ (fresh_cleared i) (.gpr rd) dest type
      rw [completes_iff fetched ran quiet, updated]
      constructor
      · intro same
        cases same
        exact ⟨dest, rfl, rfl, rfl⟩
      · rintro ⟨other, same, rfl, rfl⟩
        cases same
        rfl

end Completes

end CPUDelaySim.Riscv
