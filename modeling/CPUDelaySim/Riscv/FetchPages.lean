import CPUDelaySim.Riscv.Canonical
import CPUDelaySim.Riscv.Effects

/-!
# Instructions that cross a page

The halves of an instruction, each at the translation of its own address, against the four
bytes `decode` reads at the translation of the first.  The two agree inside a page; across
a page border they agree only if the pages are neighbours in memory, or happen to continue
with the same halfword.

`Fetches` is what `decode` has read when it returns, and `FetchesHalves` what the two translations
ask for.  Only the second half of a long instruction in the last halfword of its page can differ,
so `PagesContinue` asks of that case alone, and of nothing else.
-/

namespace CPUDelaySim.Riscv

variable {δ : Type}

namespace RiscvArch

/-- The part of `preId` that translates and decodes: the record comes with the code the
fetch stage left in it. -/
def preId (P : Platform δ) (arch : RiscvArch δ) (pc : Word) (info : DecodeInfo) :
    Except Abort (RiscvArch δ × DecodeInfo) := do
  let (paddr, exception, arch) ← arch.translateAddr P pc .ifetch info.exception
  let info := { info with exception := exception }
  if exceptionValid exception then return arch.handleException exception pc info
  else arch.decode P pc paddr info

/-! ### Halfwords -/

/-- The halfword in RAM at an address no device claims. -/
def halfAt (P : Platform δ) (m : Memory δ) (p : Word) : Option (BitVec 16) :=
  if (Memory.deviceAt P.map p).isNone ∧ Memory.InRam P.map p 2 then
    some ((Memory.load m.ram (Memory.ramIndex p) 2).setWidth 16)
  else none

/-- The low bits of a compressed instruction are not both set. -/
def isCompressed (half : BitVec 16) : Bool := half &&& 3 != 3

/-- A half-word in RAM, where no device claims it. -/
theorem halfAt_eq_some_iff {P : Platform δ} {m : Memory δ} {p : Word} {half : BitVec 16} :
    halfAt P m p = some half ↔ Memory.deviceAt P.map p = none ∧ Memory.InRam P.map p 2 ∧
      half = (Memory.load m.ram (Memory.ramIndex p) 2).setWidth 16 := by
  unfold halfAt
  constructor
  · intro found
    split at found
    · rename_i plain
      exact ⟨Option.isNone_iff_eq_none.1 plain.1, plain.2, (Option.some.inj found).symm⟩
    · cases found
  · rintro ⟨plain, inside, rfl⟩
    exact if_pos ⟨Option.isNone_iff_eq_none.2 plain, inside⟩

/-- Four bytes are two halfwords. -/
theorem load_halves (ram : Nat → Byte) (i : Nat) :
    (Memory.load ram i 4).setWidth 32 =
      ((Memory.load ram (i + 2) 2).setWidth 16 ++ (Memory.load ram i 2).setWidth 16 :
        BitVec 32) := by
  apply BitVec.eq_of_getLsbD_eq
  intro k bound
  rw [BitVec.getLsbD_setWidth, BitVec.getLsbD_append, BitVec.getLsbD_setWidth,
    BitVec.getLsbD_setWidth, Memory.load, Memory.load, Memory.load,
    joinBytes_getLsbD _ (by omega), joinBytes_getLsbD _ (by omega),
    joinBytes_getLsbD _ (by omega)]
  by_cases low : k < 16
  · simp [low, bound, List.getD, show k / 8 < 4 by omega, show k / 8 < 2 by omega]
  · simp [low, bound, List.getD, show k / 8 < 4 by omega, show (k - 16) / 8 < 2 by omega,
      show k - 16 < 16 by omega, show (k - 16) % 8 = k % 8 by omega,
      show i + 2 + (k - 16) / 8 = i + k / 8 by omega]

/-- The tag of a word is that of its first half. -/
theorem append_tag (low high : BitVec 16) :
    ((high ++ low : BitVec 32) &&& 3 != 3) = isCompressed low := by
  have tag : (high ++ low : BitVec 32) &&& 3 = (low &&& 3).setWidth 32 := by
    apply BitVec.eq_of_getLsbD_eq
    intro k bound
    have mask : ∀ k : Fin 32, (3 : BitVec 32).getLsbD k = decide (k.1 < 2) := by decide
    have mask' : ∀ k : Fin 32, (3 : BitVec 16).getLsbD k = decide (k.1 < 2) := by decide
    rw [BitVec.getLsbD_and, BitVec.getLsbD_append, BitVec.getLsbD_setWidth, BitVec.getLsbD_and,
      mask ⟨k, bound⟩, mask' ⟨k, bound⟩]
    by_cases inside : k < 2
    · simp [inside, show k < 16 by omega, bound]
    · simp [inside]
  rw [tag, isCompressed]
  generalize low &&& 3 = t
  have same : t.setWidth 32 = 3 ↔ t = 3 := by
    constructor
    · intro three
      have := congrArg (fun v => v.setWidth 16) three
      simpa using this
    · rintro rfl
      rfl
  by_cases three : t = 3
  · rw [three]
    rfl
  · rw [bne_iff_ne.2 three, bne_iff_ne.2 fun h => three (same.1 h)]

/-- The instruction in two half-words, the second of which may belong to the next one. -/
theorem fetchedInst_append (low high : BitVec 16) :
    fetchedInst (high ++ low) = if isCompressed low then low.setWidth 32 else high ++ low := by
  rw [fetchedInst, append_tag]
  cases isCompressed low with
  | false => rfl
  | true =>
      rw [if_pos rfl, if_pos rfl]
      apply BitVec.eq_of_getLsbD_eq
      intro k bound
      rw [BitVec.getLsbD_ushiftRight, BitVec.getLsbD_shiftLeft, BitVec.getLsbD_append,
        BitVec.getLsbD_setWidth, Nat.add_sub_cancel_left]
      by_cases inside : k < 16
      · simp [inside, bound, show 16 + k < 32 by omega]
      · simp [show ¬ 16 + k < 32 by omega, BitVec.getLsbD_of_ge low k (by omega)]

/-! ### The fetch -/

/-- The word that is fetched for a record. -/
def Fetches (P : Platform δ) (a : RiscvArch δ) (p : Word) (info : DecodeInfo)
    (inst : BitVec 32) (rvc : Bool) : Prop :=
  ∃ b i, a.fetch P p info = .ok (rvc, b, i) ∧ i.inst = inst

section Fetch

variable {P : Platform δ} {a : RiscvArch δ} {p : Word} {low : BitVec 16}

/-- The word at a halfword of RAM, if its four bytes are in RAM. -/
theorem fetch_of_half (first : halfAt P a.memory p = some low)
    (wide : Memory.InRam P.map p 4) (info : DecodeInfo) :
    Fetches P a p info
      (if isCompressed low then low.setWidth 32
        else (Memory.load a.memory.ram (Memory.ramIndex p + 2) 2).setWidth 16 ++ low)
      (isCompressed low) := by
  obtain ⟨plain, -, rfl⟩ := halfAt_eq_some_iff.1 first
  have read := Memory.paddrRead_ram plain wide a.memory (info.inst.setWidth 64)
  have halves := load_halves a.memory.ram (Memory.ramIndex p)
  generalize (Memory.load a.memory.ram (Memory.ramIndex p) 2).setWidth 16 = low at halves ⊢
  generalize (Memory.load a.memory.ram (Memory.ramIndex p + 2) 2).setWidth 16 = high
    at halves ⊢
  have fetched : a.fetch P p info = .ok (isCompressed low, a, { info with
      inst := fetchedInst (high ++ low), instSize := if isCompressed low then 2 else 4 }) := by
    rw [← append_tag low high, ← halves]
    simp only [fetch, paddrRead, read]
    rfl
  exact ⟨a, _, fetched, fetchedInst_append low high⟩

/-- A fetch reads four bytes. -/
theorem inRam_of_fetches (first : halfAt P a.memory p = some low) {info : DecodeInfo}
    {inst : BitVec 32} {rvc : Bool} (fetched : Fetches P a p info inst rvc) :
    Memory.InRam P.map p 4 := by
  obtain ⟨plain, -, -⟩ := halfAt_eq_some_iff.1 first
  obtain ⟨b, i, ran, -⟩ := fetched
  by_contra outside
  have stops : Memory.paddrRead P.map a.memory p 4 (info.inst.setWidth 64) =
      .error .ramOverrun := by
    rw [Memory.paddrRead, plain]
    exact if_neg outside
  simp only [fetch, paddrRead, stops] at ran
  cases ran

/-- The second half of the word is the next one in RAM. -/
theorem high_of_fetches (first : halfAt P a.memory p = some low)
    (long : isCompressed low = false) {info : DecodeInfo} {high : BitVec 16}
    (fetched : Fetches P a p info (high ++ low) false) :
    (Memory.load a.memory.ram (Memory.ramIndex p + 2) 2).setWidth 16 = high := by
  obtain ⟨b, i, ran, inst⟩ := fetch_of_half first (inRam_of_fetches first fetched) info
  obtain ⟨b', i', ran', inst'⟩ := fetched
  rw [long] at ran
  cases ran.symm.trans ran'
  rw [inst', long, if_neg Bool.false_ne_true] at inst
  exact ((BitVec.append_left_inj low).1 inst).symm

end Fetch

/-! ### Addresses in one page -/

/-- Two more inside a page leaves the page bits alone. -/
theorem samePage_add_two {pc : Word} (inside : pc.toNat % 4096 + 2 < 4096) :
    SamePage pc (pc + 2) := by
  have sum : (pc + 2).toNat = pc.toNat + 2 := by
    rw [BitVec.toNat_add]
    exact Nat.mod_eq_of_lt (by have := pc.isLt; simp; omega)
  intro i high _
  have page : (pc.toNat + 2) / 2 ^ 12 = pc.toNat / 2 ^ 12 := by omega
  have bit (n : Nat) : n.testBit i = (n / 2 ^ 12).testBit (i - 12) := by
    rw [Nat.testBit_div_two_pow, show i - 12 + 12 = i by omega]
  rw [BitVec.getLsbD, BitVec.getLsbD, sum, bit, page, ← bit]

/-- The target of a leaf moves with the offset. -/
theorem target_add_two {pc : Word} (inside : pc.toNat % 4096 + 2 < 4096) (pte : Pte)
    (level : Nat) : pte.target level (pc + 2) = pte.target level pc + 2 := by
  have sum : (pc + 2).toNat = pc.toNat + 2 := by
    rw [BitVec.toNat_add]
    exact Nat.mod_eq_of_lt (by have := pc.isLt; simp; omega)
  have divides : 4096 ∣ 2 ^ (12 + 9 * level) := Nat.pow_dvd_pow 2 (show 12 ≤ _ by omega)
  have offset : (pc.toNat + 2) % 2 ^ (12 + 9 * level) =
      pc.toNat % 2 ^ (12 + 9 * level) + 2 := by
    have low : pc.toNat % 2 ^ (12 + 9 * level) % 4096 = pc.toNat % 4096 :=
      Nat.mod_mod_of_dvd _ divides
    have small : pc.toNat % 2 ^ (12 + 9 * level) < 2 ^ (12 + 9 * level) :=
      Nat.mod_lt _ (Nat.two_pow_pos _)
    obtain ⟨pages, size⟩ := divides
    rw [Nat.add_mod, Nat.mod_eq_of_lt (show 2 < 2 ^ (12 + 9 * level) by omega)]
    exact Nat.mod_eq_of_lt (by omega)
  rw [Pte.target, Pte.target, sum, offset, ← Nat.add_assoc, BitVec.ofNat_add]
  rfl

section Page

variable {P : Platform δ} {a a₁ : RiscvArch δ} {pc p : Word}

/-- Inside a page two bytes further are two bytes further. -/
theorem sv39_add_two (inside : pc.toNat % 4096 + 2 < 4096) (ram : Nat → Byte) (s : ArchState)
    (type : FetchType) (mapping : sv39 P ram s pc type = some p) :
    sv39 P ram s (pc + 2) type = some (p + 2) := by
  unfold sv39 at mapping ⊢
  rw [(samePage_add_two inside).find_eq]
  cases found : Slot.find (pteSlot P ram pc) 2 (satpRoot s) with
  | none =>
      rw [found] at mapping
      cases mapping
  | some leaf =>
      obtain ⟨pte, level⟩ := leaf
      rw [found] at mapping
      dsimp only at mapping ⊢
      split at mapping
      · rename_i fits
        rw [if_pos fits, target_add_two inside, Option.some.inj mapping]
      · cases mapping

/-- Inside a page the next halfword is translated to the next halfword. -/
theorem translateAddr_add_two {exception : Word} (inside : pc.toNat % 4096 + 2 < 4096)
    (ran : a.translateAddr P pc .ifetch exception = .ok (p, excNone, a₁)) :
    ∃ b, a₁.translateAddr P (pc + 2) .ifetch excNone = .ok (p + 2, excNone, b) := by
  have plain (x : RiscvArch δ) (off : x.mmuOn .ifetch = false) (va e : Word) :
      x.translateAddr P va .ifetch e = .ok (va, e, x) := by
    rw [translateAddr, off]
    rfl
  cases enabled : a.mmuOn .ifetch with
  | false =>
      rw [plain a enabled] at ran
      cases ran
      exact ⟨a, plain a enabled _ _⟩
  | true =>
      have same : SameTables a a₁ :=
        (translateAddr_frame P a pc .ifetch exception _ ran).sameTables
      have mapped := ptesMapped_of_ok enabled ran
      obtain ⟨paddr, c, -, ends⟩ := translateAddr_eq enabled mapped exception
      have mapped' : PtesMapped P a₁ (pc + 2) :=
        same.ptesMapped.2 (((samePage_add_two inside).ptesMapped_iff a).2 mapped)
      obtain ⟨paddr', c', -, ends'⟩ := translateAddr_eq ((same.mmuOn _).trans enabled) mapped'
        excNone
      cases mapping : sv39 P a.memory.ram a.state pc .ifetch with
      | none =>
          rw [mapping] at ends
          have code := congrArg (fun r => r.2.1) (Except.ok.inj (ran.symm.trans ends))
          exact absurd code.symm (by decide : excIPF ≠ excNone)
      | some pa =>
          rw [mapping] at ends
          have address := congrArg (fun r => r.1) (Except.ok.inj (ran.symm.trans ends))
          rw [same.sv39, sv39_add_two inside _ _ _ mapping] at ends'
          rw [show p = pa from address]
          exact ⟨c', ends'⟩

end Page

/-- `decode` leaves no instruction page fault. -/
theorem decode_not_fault {P : Platform δ} {a : RiscvArch δ} (low : a.state.get .priv < 4)
    (vaddr paddr : Word) (slot : DecodeInfo) :
    Returns (a.decode P vaddr paddr slot) fun r => r.2.exception ≠ excIPF := by
  refine (decode_spec P a vaddr paddr slot).mono ?_
  intro r spec fault
  have code := spec.code
  rw [fault] at code
  rcases code with irq | listed | call
  · revert irq
    decide
  · revert listed
    decide
  · rcases eq_of_lt_four low with h | h | h | h <;> rw [h] at call <;> revert call <;> decide

/-! ### Both translations -/

section Fetched

variable (P : Platform δ) (a : RiscvArch δ) (pc : Word) (info : DecodeInfo)

/-- What a first half at the translation `p` of `pc` asks of `preId`: a compressed instruction
is that half; a longer one has its second half at the translation of `pc + 2`, or takes the
fault of that translation. -/
structure FetchesHalves (a₁ : RiscvArch δ) (p : Word) (low : BitVec 16) : Prop where
  short : isCompressed low = true → Fetches P a₁ p info (low.setWidth 32) true
  long : isCompressed low = false → ∀ p₂ b high,
    a₁.translateAddr P (pc + 2) .ifetch excNone = .ok (p₂, excNone, b) →
      halfAt P b.memory p₂ = some high → Fetches P a₁ p info (high ++ low) false
  fault : isCompressed low = false → ∀ p₂ b,
    a₁.translateAddr P (pc + 2) .ifetch excNone = .ok (p₂, excIPF, b) →
      ∃ c i, preId P a pc info = .ok (c, i) ∧ i.exception = excIPF ∧ i.excData = pc + 2

/-- The halves of the instruction at `pc` are fetched through their own translations. -/
def FetchesBothPages : Prop :=
  ∀ p a₁ low, a.translateAddr P pc .ifetch info.exception = .ok (p, excNone, a₁) →
    halfAt P a₁.memory p = some low → FetchesHalves P a pc info a₁ p low

/-- A compressed instruction has its four bytes in RAM.  A longer one in the last halfword of
its page has a successor page, and RAM goes on after the first half as that page begins. -/
def PagesContinue : Prop :=
  ∀ p a₁ low, a.translateAddr P pc .ifetch info.exception = .ok (p, excNone, a₁) →
    halfAt P a₁.memory p = some low →
      if isCompressed low then Memory.InRam P.map p 4
      else pc.toNat % 4096 = 4094 → ∀ p₂ code b,
        a₁.translateAddr P (pc + 2) .ifetch excNone = .ok (p₂, code, b) →
          code = excNone ∧ ∀ high, halfAt P b.memory p₂ = some high →
            Memory.InRam P.map p 4 ∧
              (Memory.load a₁.memory.ram (Memory.ramIndex p + 2) 2).setWidth 16 = high

variable {P a pc info}

/-- Past its translation, `preId` leaves no page fault. -/
theorem preId_not_fault (low : a.state.get .priv < 4) {p : Word} {a₁ c : RiscvArch δ}
    (ran : a.translateAddr P pc .ifetch info.exception = .ok (p, excNone, a₁))
    {i : DecodeInfo} (left : preId P a pc info = .ok (c, i)) : i.exception ≠ excIPF := by
  have decoded : a₁.decode P pc p { info with exception := excNone } = .ok (c, i) := by
    rw [preId, ran] at left
    exact left
  have frame := translateAddr_frame P a pc .ifetch info.exception _ ran
  exact decode_not_fault (by rw [frame.get (by decide)]; exact low) _ _ _ (c, i) decoded

/-- The halfword that follows in RAM, where the first two addresses are neighbours. -/
theorem halfAt_add_two {m : Memory δ} {p : Word} {low high : BitVec 16}
    (first : halfAt P m p = some low) (second : halfAt P m (p + 2) = some high) :
    Memory.InRam P.map p 4 ∧
      (Memory.load m.ram (Memory.ramIndex p + 2) 2).setWidth 16 = high := by
  obtain ⟨-, inside, -⟩ := halfAt_eq_some_iff.1 first
  obtain ⟨-, inside', rfl⟩ := halfAt_eq_some_iff.1 second
  have low : 0x80000000 ≤ p.toNat := by
    rcases inside with h | h
    · omega
    · exact h.1
  have sum : (p + 2).toNat = p.toNat + 2 := by
    have bound := p.isLt
    have wrapped : (p + 2).toNat = (p.toNat + 2) % 2 ^ 64 := BitVec.toNat_add p 2
    rcases inside' with h | h <;> omega
  have wide : p.toNat + 4 ≤ 0x80000000 + P.map.size := by
    rcases inside' with h | h <;> omega
  have index : Memory.ramIndex (p + 2) = Memory.ramIndex p + 2 := by
    unfold Memory.ramIndex
    omega
  exact ⟨.inr ⟨low, wide⟩, by rw [index]⟩

end Fetched

/-- The instruction at an even pc is fetched through both translations exactly when its page
continues in memory as it does in the page table. `decode` reads four bytes at the translation
of the pc, and the second half of an instruction may be on the next page; that page is not
translated. -/
theorem fetchesBothPages_iff (P : Platform δ) (a : RiscvArch δ) (pc : Word) (info : DecodeInfo)
    (even : pc.toNat % 2 = 0) (mode : a.state.get .priv < 4) :
    FetchesBothPages P a pc info ↔ PagesContinue P a pc info := by
  constructor
  · intro fetches p a₁ low ran first
    obtain ⟨short, long, fault⟩ := fetches p a₁ low ran first
    cases compressed : isCompressed low with
    | true => exact inRam_of_fetches first (short compressed)
    | false =>
        intro _ p₂ code b second
        have silent : code = excNone := by
          rcases translateAddr_code second with h | h
          · exact h
          · rw [show code = excIPF from h] at second
            obtain ⟨c, i, left, trap, -⟩ := fault compressed p₂ b second
            exact absurd trap (preId_not_fault mode ran left)
        refine ⟨silent, fun high here => ?_⟩
        rw [silent] at second
        have fetched := long compressed p₂ b high second here
        exact ⟨inRam_of_fetches first fetched, high_of_fetches first compressed fetched⟩
  · intro continues p a₁ low ran first
    have condition := continues p a₁ low ran first
    refine ⟨?_, ?_, ?_⟩
    · intro compressed
      rw [if_pos compressed] at condition
      have fetched := fetch_of_half first condition info
      rwa [if_pos compressed, compressed] at fetched
    · intro compressed p₂ b high second here
      have next : Memory.InRam P.map p 4 ∧
          (Memory.load a₁.memory.ram (Memory.ramIndex p + 2) 2).setWidth 16 = high := by
        by_cases last : pc.toNat % 4096 = 4094
        · rw [if_neg (by rw [compressed]; decide)] at condition
          exact (condition last p₂ excNone b second).2 high here
        · -- Inside the page the second half is at the next address.
          obtain ⟨c, along⟩ := translateAddr_add_two (by omega) ran
          have same := congrArg (fun r => r.1) (Except.ok.inj (second.symm.trans along))
          have frame := translateAddr_frame P a₁ (pc + 2) .ifetch excNone _ second
          refine halfAt_add_two first ?_
          rw [show p₂ = p + 2 from same] at here
          rw [← here, halfAt, halfAt, frame.exec.ram]
      have fetched := fetch_of_half first next.1 info
      rwa [compressed, if_neg Bool.false_ne_true, next.2] at fetched
    · intro compressed p₂ b second
      exfalso
      have silent : excIPF = excNone := by
        by_cases last : pc.toNat % 4096 = 4094
        · rw [if_neg (by rw [compressed]; decide)] at condition
          exact (condition last p₂ excIPF b second).1
        · obtain ⟨c, along⟩ := translateAddr_add_two (by omega) ran
          exact congrArg (fun r => r.2.1) (Except.ok.inj (second.symm.trans along))
      exact absurd silent (by decide)

/-- The gigapage of RAM is mapped and nothing after it; RAM has one page more, and the last
halfword of the gigapage is the first of a `nop`. -/
def lastHalfword : RiscvArch Unit :=
  { gigapage with
    memory := ⟨fun i => if i = 0x3ffffffe then 0x13 else gigapage.memory.ram i, ()⟩ }

/-- A record as the fetch stage leaves it. -/
def quietInfo : DecodeInfo := { DecodeInfo.zero with exception := excNone }

/-- An instruction that begins in the last two bytes of a page. -/
theorem fetchesBothPages_iff_lastHalfword :
    FetchesBothPages (ramOnly 0x40001000) lastHalfword 0xbffffffe quietInfo ↔
      PagesContinue (ramOnly 0x40001000) lastHalfword 0xbffffffe quietInfo :=
  fetchesBothPages_iff (ramOnly 0x40001000) lastHalfword 0xbffffffe quietInfo (by decide)
    (by decide +kernel)

/-- The `nop` is decoded, though its second half is not mapped. -/
theorem not_fetchesBothPages_lastHalfword :
    ¬ FetchesBothPages (ramOnly 0x40001000) lastHalfword 0xbffffffe quietInfo := by
  intro fetches
  obtain ⟨⟨p, code, a₁⟩, ran, ends⟩ := exists_ok_of_toOption
    (show (lastHalfword.translateAddr (ramOnly 0x40001000) 0xbffffffe .ifetch
      excNone).toOption.map (fun r => (r.1, r.2.1)) = some (0xbffffffe, excNone) by
        decide +kernel)
  cases ends
  have same := (translateAddr_frame _ lastHalfword 0xbffffffe .ifetch excNone _ ran).sameTables
  have first : halfAt (ramOnly 0x40001000) a₁.memory 0xbffffffe = some 0x13 := by
    rw [halfAt, same.ram]
    decide +kernel
  -- After the gigapage nothing is mapped.
  obtain ⟨⟨p₂, code₂, b⟩, ran₂, ends₂⟩ := exists_ok_of_toOption
    (show (lastHalfword.translateAddr (ramOnly 0x40001000) 0xc0000000 .ifetch
      excNone).toOption.map (fun r => r.2.1) = some FetchType.ifetch.pageFault by
        decide +kernel)
  cases ends₂
  have on : lastHalfword.mmuOn .ifetch = true := by decide +kernel
  obtain ⟨paddr, c, -, second⟩ := translateAddr_eq ((same.mmuOn _).trans on)
    (same.ptesMapped.2 (ptesMapped_of_ok on ran₂)) excNone
  rw [same.sv39, sv39_of_fault on ran₂] at second
  obtain ⟨d, i, left, trap, -⟩ :=
    (fetches _ a₁ 0x13 ran first).fault (by decide) paddr c second
  exact preId_not_fault (by decide +kernel) ran left trap

end RiscvArch

end CPUDelaySim.Riscv
