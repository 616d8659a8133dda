import CPUDelaySim.Pred.Code
import CPUDelaySim.Pred.Turns

/-!
# The addresses supplied to returns

The pointer of the stack goes round at the length of the last instruction: after four nested
calls of four bytes, or two of two bytes, it is 0 again, and the next return is supplied the
last slot of the array.  A call whose type is `IND_CALL` is not pushed at all, and one whose
type is `POP_PUSH` takes the place of the call around it.  `Shallow` is the code to which none
of this happens, and the code whose returns are all supplied the right address.

That other code is supplied a wrong address somewhere is argued on names: the code is followed
once with a name for every address it pushes and every slot it starts from, and two names can
be given different addresses.

The first half follows shallow code: `Kept` says that a return finds the slot of its call, and it
goes through the tree of calls by its own induction.  The second half uses `Name`: following the
code with names instead of addresses gives for each return the name it is supplied, and by
`Apart` the names can be given addresses so that a wrong name is a wrong address.  In a stack of 2
or 4 slots the length of an instruction may be the size, so the converse leaves these out.
-/

namespace CPUDelaySim

variable {V W : Type}

namespace Code

/-- Every return is supplied the address after its call. -/
def Exact (size : Nat) (code : Code) : Prop :=
  ∀ insts addrs, code.Runs insts addrs → ∀ ras,
    (preIdAll insts ⟨size, ras, 0⟩).map (fun r => supplied r.1) = some addrs

/-- Run from pointer `top`, every call is pushed, and its length does not bring the pointer
round. -/
def Shallow (top : Nat) : Code → Prop
  | done => True
  | .call inst inner _ rest =>
      (inst.type = .push ∨ inst.type = .indPush) ∧ top + 1 < inst.len ∧
        inner.Shallow (top + 1) ∧ rest.Shallow top

/-! ### Turns -/

/-- Where a call is in the code: `true` leads to the code it runs, `false` to the code after its
return. -/
abbrev Place := List Bool

end Code

/-- The turn of a call; the address it pushes with the size of the stack, and that with its
length. -/
def CallInst.turn (inst : CallInst) (pushed : V × V) : Turn V :=
  match inst.type with
  | .push | .indPush => .push inst.len pushed.2
  | .popPush => .swap inst.len pushed.1 pushed.2
  | _ => .skip

/-- A call that is typed as one pushes the address behind it. -/
theorem CallInst.turn_push {inst : CallInst} (push : inst.type = .push ∨ inst.type = .indPush)
    (pushed : V × V) : inst.turn pushed = .push inst.len pushed.2 := by
  unfold CallInst.turn
  rcases push with type | type <;> rw [type]

/-- What a call writes into the stack is one of the two addresses. -/
theorem CallInst.writes_turn {inst : CallInst} {pushed : V × V} {v : V}
    (wrote : (inst.turn pushed).Writes v) : v = pushed.1 ∨ v = pushed.2 := by
  unfold CallInst.turn at wrote
  split at wrote
  · exact .inr wrote
  · exact .inr wrote
  · exact wrote
  · exact wrote.elim

namespace Code

/-- The turns of the code, `pushed` at every place. -/
def turns : Code → (Place → V × V) → List (Turn V)
  | done, _ => []
  | .call inst inner ret rest, pushed =>
      inst.turn (pushed []) :: inner.turns (fun p => pushed (true :: p)) ++
        .pop ret.len :: rest.turns fun p => pushed (false :: p)

/-- The addresses the returns go back to. -/
def addrs : Code → (Place → V × V) → List V
  | done, _ => []
  | .call _ inner _ rest, pushed =>
      inner.addrs (fun p => pushed (true :: p)) ++
        (pushed []).2 :: rest.addrs fun p => pushed (false :: p)

/-- What the turns of code write is pushed somewhere in it. -/
theorem writes_turns (code : Code) (pushed : Place → V × V) {op : Turn V}
    (mem : op ∈ code.turns pushed) {v : V} (wrote : op.Writes v) :
    ∃ p, v = (pushed p).1 ∨ v = (pushed p).2 := by
  induction code generalizing pushed with
  | done => cases mem
  | call inst inner ret rest ihInner ihRest =>
      rw [turns, List.cons_append, List.mem_cons, List.mem_append, List.mem_cons] at mem
      rcases mem with rfl | mem | rfl | mem
      · exact ⟨[], CallInst.writes_turn wrote⟩
      · obtain ⟨p, found⟩ := ihInner _ mem
        exact ⟨true :: p, found⟩
      · exact wrote.elim
      · obtain ⟨p, found⟩ := ihRest _ mem
        exact ⟨false :: p, found⟩

/-- The turns with other names for the addresses. -/
theorem turns_comp (f : V → W) (code : Code) (pushed : Place → V × V) :
    code.turns (fun p => (f (pushed p).1, f (pushed p).2)) =
      (code.turns pushed).map (Turn.map f) := by
  induction code generalizing pushed with
  | done => rfl
  | call inst inner ret rest ihInner ihRest =>
      have first : inst.turn (f (pushed []).1, f (pushed []).2) =
          (inst.turn (pushed [])).map f := by
        unfold CallInst.turn
        split <;> rfl
      simp only [turns, List.cons_append, List.map_cons, List.map_append, first,
        ihInner fun p => pushed (true :: p), ihRest fun p => pushed (false :: p)]
      rfl

/-- The return addresses with other names. -/
theorem addrs_comp (f : V → W) (code : Code) (pushed : Place → V × V) :
    code.addrs (fun p => (f (pushed p).1, f (pushed p).2)) = (code.addrs pushed).map f := by
  induction code generalizing pushed with
  | done => rfl
  | call inst inner ret rest ihInner ihRest =>
      simp only [addrs, List.map_cons, List.map_append,
        ihInner fun p => pushed (true :: p), ihRest fun p => pushed (false :: p)]

/-! ### Runs -/

/-- A function of the places from the values at the first call, inside it and after it. -/
def atPlace (here : V) (inner rest : Place → V) : Place → V
  | [] => here
  | true :: p => inner p
  | false :: p => rest p

/-- A call that has been decoded takes its turn with the two addresses of its own. -/
theorem call_turn (inst : CallInst) {f : Fetched} (size : Nat)
    (called : Decoded inst.word f.pc f.info) :
    f.turn size =
      inst.turn (f.pc + BitVec.ofNat 64 size, f.pc + BitVec.ofNat 64 inst.len) := by
  obtain ⟨type, len⟩ := called.jump inst.jumpType_eq.1
  unfold Fetched.turn CallInst.turn
  rw [type, len]
  rcases inst.jumpType_eq.2 with h | h | h | h <;> rw [h] <;> rfl

/-- A return that has been decoded pops. -/
theorem return_turn (inst : ReturnInst) {f : Fetched} (size : Nat)
    (returned : Decoded inst.word f.pc f.info) : f.turn size = .pop inst.len := by
  obtain ⟨type, len⟩ := returned.jump inst.jumpType_eq
  unfold Fetched.turn
  rw [type, len]
  rfl

/-- The instructions of a run take the turns of the code. -/
theorem Runs.turns {code : Code} {insts : List Fetched} {as : List Word}
    (run : code.Runs insts as) (size : Nat) :
    ∃ pushed, insts.map (Fetched.turn size) = code.turns pushed ∧ as = code.addrs pushed := by
  induction run with
  | done => exact ⟨fun _ => (0, 0), rfl, rfl⟩
  | @call inst ret inner rest first last insts insts' as as' called ran returned ran' ih ih' =>
      obtain ⟨pushed, turned, rfl⟩ := ih
      obtain ⟨pushed', turned', rfl⟩ := ih'
      refine ⟨atPlace (first.pc + BitVec.ofNat 64 size, first.pc + BitVec.ofNat 64 inst.len)
        pushed pushed', ?_, rfl⟩
      rw [List.cons_append, List.map_cons, List.map_append, List.map_cons,
        call_turn inst size called, return_turn ret size returned, turned, turned']
      rfl

/-- The code can run with any addresses after its calls; the address a call would push with the
size of the stack is apart from it by a constant. -/
theorem exists_run (code : Code) {size : Nat} (fits : size < 2 ^ 64) (two : size ≠ 2)
    (four : size ≠ 4) :
    ∃ d : Place → Word, (∀ p, d p ≠ 0) ∧ ∀ after : Place → Word, ∃ insts,
      code.Runs insts (code.addrs fun p => (after p + d p, after p)) ∧
        insts.map (Fetched.turn size) = code.turns fun p => (after p + d p, after p) := by
  induction code with
  | done => exact ⟨fun _ => 1, fun _ => of_decide_eq_true rfl, fun _ => ⟨[], .done, rfl⟩⟩
  | call inst inner ret rest ihInner ihRest =>
      obtain ⟨d, nonzero, runs⟩ := ihInner
      obtain ⟨d', nonzero', runs'⟩ := ihRest
      refine ⟨atPlace (BitVec.ofNat 64 size - BitVec.ofNat 64 inst.len) d d', ?_, ?_⟩
      · have apart : BitVec.ofNat 64 size - BitVec.ofNat 64 inst.len ≠ 0 := by
          rcases inst.len_cases with len | len <;> bv_omega
        rintro (_ | ⟨_ | _, p⟩)
        · exact apart
        · exact nonzero' p
        · exact nonzero p
      · intro after
        obtain ⟨insts, run, turned⟩ := runs fun p => after (true :: p)
        obtain ⟨insts', run', turned'⟩ := runs' fun p => after (false :: p)
        obtain ⟨info, called⟩ :=
          exists_decoded inst.jumpType_eq.1 (after [] - BitVec.ofNat 64 inst.len)
        obtain ⟨info', returned⟩ := exists_decoded ret.jumpType_eq 0
        let guess : Guess := ⟨false, false, 0, 0⟩
        let first : Fetched := ⟨after [] - BitVec.ofNat 64 inst.len, info, guess, 0⟩
        let last : Fetched := ⟨0, info', guess, 0⟩
        have pushed : first.pc + BitVec.ofNat 64 inst.len = after [] := BitVec.sub_add_cancel ..
        have guessed : first.pc + BitVec.ofNat 64 size =
            after [] + (BitVec.ofNat 64 size - BitVec.ofNat 64 inst.len) := by
          change after [] - _ + _ = _
          rw [BitVec.sub_eq_add_neg, BitVec.sub_eq_add_neg, BitVec.add_assoc,
            BitVec.add_comm (-_)]
        refine ⟨first :: insts ++ last :: insts', ?_, ?_⟩
        · change Runs _ _ (_ ++ after [] :: _)
          rw [← pushed]
          exact .call called run returned run'
        · rw [List.cons_append, List.map_cons, List.map_append, List.map_cons,
            call_turn (f := first) inst size called, return_turn (f := last) ret size returned,
            turned, turned', pushed, guessed]
          rfl

/-! ### Shallow code -/

/-- Shallow code is supplied its own addresses, and leaves the stack below its pointer. -/
theorem Shallow.turns {size top : Nat} {code : Code} (shallow : code.Shallow top)
    (fits : top + code.depth ≤ size) (pushed : Place → V × V) (slots : Nat → V) :
    ∃ slots', CPUDelaySim.turns size (code.turns pushed) ⟨slots, top⟩ =
        some (code.addrs pushed, ⟨slots', top⟩) ∧ ∀ i < top, slots' i = slots i := by
  induction code generalizing top pushed slots with
  | done => exact ⟨slots, rfl, fun _ _ => rfl⟩
  | call inst inner ret rest ihInner ihRest =>
      obtain ⟨push, short, shallow, shallow'⟩ := shallow
      rw [depth] at fits
      let slots₁ := Function.update slots top (pushed []).2
      obtain ⟨slots₂, ran, kept⟩ :=
        ihInner shallow (by omega) (fun p => pushed (true :: p)) slots₁
      obtain ⟨slots₃, ran', kept'⟩ :=
        ihRest shallow' (by omega) (fun p => pushed (false :: p)) slots₂
      have called : turn size (inst.turn (pushed [])) ⟨slots, top⟩ =
          some ([], ⟨slots₁, top + 1⟩) := by
        rw [CallInst.turn_push push, turn, if_pos (by dsimp only; omega), Nat.mod_eq_of_lt short]
      have returned : turn size (.pop ret.len) ⟨slots₂, top + 1⟩ =
          some ([(pushed []).2], ⟨slots₂, top⟩) := by
        have own : slots₂ top = (pushed []).2 := by
          rw [kept top (Nat.lt_succ_self top)]
          exact Function.update_self ..
        rw [turn, if_pos (by rw [Ras.below_succ]; omega), Ras.below_succ, Ras.below_succ]
        exact own ▸ rfl
      refine ⟨slots₃, ?_, ?_⟩
      · rw [Code.turns, addrs, List.cons_append]
        refine turns_cons_eq_some.2 ⟨[], _, _, called, ?_, (List.nil_append _).symm⟩
        refine turns_append_eq_some.2 ⟨_, _, _, ran, ?_, rfl⟩
        exact turns_cons_eq_some.2 ⟨_, _, _, returned, ran', rfl⟩
      · intro i below
        rw [kept' i below, kept i (by omega)]
        exact Function.update_of_ne (by omega) ..

/-! ### Code whose returns find their addresses -/

/-- The calls of the forest itself that take the place of the call around it. -/
def swaps : Code → Nat
  | done => 0
  | .call inst _ _ rest => (if inst.type = .popPush then 1 else 0) + rest.swaps

/-- Run from pointer `top`, every return finds the slot of its call. -/
def Kept (top : Nat) : Code → Prop
  | done => True
  | .call inst inner _ rest =>
      inner.swaps = 0 ∧
        ((inst.type = .push ∨ inst.type = .indPush) ∧ top + 1 < inst.len ∧
            inner.Kept (top + 1) ∧ rest.Kept top ∨
          inst.type = .popPush ∧ 0 < top ∧ inner.Kept top ∧ rest.Kept (top - 1))

/-- Code that keeps the stack and swaps nothing is shallow. -/
theorem Kept.shallow {code : Code} {top : Nat} (kept : code.Kept top) (plain : code.swaps = 0) :
    code.Shallow top := by
  induction code generalizing top with
  | done => trivial
  | call inst inner ret rest ihInner ihRest =>
      rw [swaps, Nat.add_eq_zero_iff] at plain
      obtain ⟨inside, ⟨push, short, kept, kept'⟩ | ⟨swap, -⟩⟩ := kept
      · exact ⟨push, short, ihInner kept inside, ihRest kept' plain.2⟩
      · rw [if_pos swap] at plain
        cases plain.1

/-- Code without a call swaps nothing. -/
theorem swaps_eq_zero_of_depth {code : Code} (flat : code.depth = 0) : code.swaps = 0 := by
  cases code with
  | done => rfl
  | call inst inner ret rest =>
      rw [depth] at flat
      omega

/-- The turns of a call, what runs inside it, its return and what follows. -/
theorem turns_call {size : Nat} {inst : CallInst} {inner rest : Code} {ret : ReturnInst}
    {pushed : Place → V × V} {s s' : Stack V} {out : List V}
    (ran : CPUDelaySim.turns size ((call inst inner ret rest).turns pushed) s = some (out, s')) :
    ∃ s₁ s₂ outs outs', turn size (inst.turn (pushed [])) s = some ([], s₁) ∧
      CPUDelaySim.turns size (inner.turns fun p => pushed (true :: p)) s₁ = some (outs, s₂) ∧
      Ras.below size s₂.top < size ∧
      CPUDelaySim.turns size (rest.turns fun p => pushed (false :: p))
        ⟨s₂.slots, Ras.below ret.len s₂.top⟩ = some (outs', s') ∧
      out = outs ++ s₂.slots (Ras.below size s₂.top) :: outs' := by
  rw [Code.turns, List.cons_append, turns_cons_eq_some] at ran
  obtain ⟨first, s₁, later, called, following, rfl⟩ := ran
  obtain ⟨outs, s₂, later, ran, ending, rfl⟩ := turns_append_eq_some.1 following
  obtain ⟨third, s₃, outs', returned, ran', rfl⟩ := turns_cons_eq_some.1 ending
  have silent : first = [] := by
    unfold CallInst.turn at called
    split at called
    · exact (Prod.mk.inj (Option.some.inj (Option.ite_none_right_eq_some.1 called).2)).1.symm
    · exact (Prod.mk.inj (Option.some.inj (Option.ite_none_right_eq_some.1 called).2)).1.symm
    · exact (Prod.mk.inj (Option.some.inj (Option.ite_none_right_eq_some.1 called).2)).1.symm
    · exact (Prod.mk.inj (Option.some.inj called)).1.symm
  subst silent
  obtain ⟨inside, returned⟩ := Option.ite_none_right_eq_some.1 returned
  obtain ⟨rfl, rfl⟩ := Prod.mk.inj (Option.some.inj returned)
  exact ⟨s₁, s₂, outs, outs', called, ran, inside, ran', rfl⟩

/-- The turns of code supply an address to each of its returns. -/
theorem length_of_turns {size : Nat} {code : Code} {pushed : Place → V × V} {s s' : Stack V}
    {out : List V} (ran : CPUDelaySim.turns size (code.turns pushed) s = some (out, s')) :
    out.length = (code.addrs pushed).length := by
  induction code generalizing pushed s s' out with
  | done =>
      cases ran
      rfl
  | call inst inner ret rest ihInner ihRest =>
      obtain ⟨s₁, s₂, outs, outs', -, inside, -, after, rfl⟩ := turns_call ran
      rw [addrs, List.length_append, List.length_append, List.length_cons, List.length_cons,
        ihInner inside, ihRest after]

/-- The pushed addresses are different from each other and from what is pushed with the size of
the stack. -/
structure Apart (pushed : Place → V × V) : Prop where
  addr : ∀ p q, (pushed p).2 = (pushed q).2 → p = q
  guessed : ∀ p q, (pushed p).1 ≠ (pushed q).2

/-- The addresses of the parts are apart if those of the whole are. -/
theorem Apart.inside {pushed : Place → V × V} (apart : Apart pushed) (side : Bool) :
    Apart fun p => pushed (side :: p) :=
  ⟨fun _ _ same => (List.cons.inj (apart.addr _ _ same)).2, fun _ _ => apart.guessed _ _⟩

/-- What code pushes is not pushed elsewhere. -/
theorem Apart.turns_slots {pushed : Place → V × V} (apart : Apart pushed) {q : Place}
    {side : Bool} (other : ∀ p, side :: p ≠ q) {size : Nat} {code : Code} {s s' : Stack V}
    {out : List V}
    (ran : CPUDelaySim.turns size (code.turns fun p => pushed (side :: p)) s = some (out, s'))
    {i : Nat} (held : s'.slots i = (pushed q).2) : s.slots i = (pushed q).2 := by
  rcases CPUDelaySim.turns_slots ran i with kept | ⟨op, mem, wrote⟩
  · exact kept.symm.trans held
  · obtain ⟨p, guessed | addr⟩ := writes_turns code _ mem wrote
    · exact absurd (guessed.symm.trans held) (apart.guessed _ q)
    · exact absurd (apart.addr _ _ (addr.symm.trans held)) (other p)

/-- A call writes its own addresses: a slot that holds another one held it before. -/
theorem Apart.call_slots {pushed : Place → V × V} (apart : Apart pushed) {q : Place}
    (other : q ≠ []) {size : Nat} {inst : CallInst} {s s' : Stack V} {out : List V}
    (called : turn size (inst.turn (pushed [])) s = some (out, s')) {i : Nat}
    (held : s'.slots i = (pushed q).2) : s.slots i = (pushed q).2 := by
  rcases turn_slots called i with kept | wrote
  · exact kept.symm.trans held
  · rcases CallInst.writes_turn wrote with guessed | addr
    · exact absurd (guessed.symm.trans held) (apart.guessed _ q)
    · exact absurd (apart.addr _ _ (addr.symm.trans held)).symm other

/-- After a push only one slot holds its address. -/
theorem slot_of_push {size len : Nat} {addr : V} {s s' : Stack V} {out : List V}
    (fresh : ∀ i, s.slots i ≠ addr) (pushed : turn size (.push len addr) s = some (out, s')) :
    s.top < size ∧ s'.top = (s.top + 1) % len ∧ ∀ i, s'.slots i = addr → i = s.top := by
  obtain ⟨room, pushed⟩ := Option.ite_none_right_eq_some.1 pushed
  obtain ⟨-, rfl⟩ := Prod.mk.inj (Option.some.inj pushed)
  refine ⟨room, rfl, fun i held => ?_⟩
  by_contra other
  exact fresh i ((Function.update_of_ne other ..).symm.trans held)

/-- After a swap only one slot holds its address. -/
theorem slot_of_swap {size len : Nat} {guessed addr : V} {s s' : Stack V} {out : List V}
    (apart : guessed ≠ addr) (fresh : ∀ i, s.slots i ≠ addr)
    (swapped : turn size (.swap len guessed addr) s = some (out, s')) :
    s'.top = s.top ∧ ∀ i, s'.slots i = addr → i = Ras.below len s.top := by
  obtain ⟨-, swapped⟩ := Option.ite_none_right_eq_some.1 swapped
  obtain ⟨-, rfl⟩ := Prod.mk.inj (Option.some.inj swapped)
  refine ⟨rfl, fun i held => ?_⟩
  by_contra other
  have held : Function.update s.slots (Ras.below size s.top) guessed i = addr :=
    (Function.update_of_ne other ..).symm.trans held
  rcases eq_or_ne i (Ras.below size s.top) with rfl | other'
  · exact apart ((Function.update_self ..).symm.trans held)
  · exact fresh i ((Function.update_of_ne other' ..).symm.trans held)

/-- The pointer after the code inside a push, if its return reads the slot of the push: it is one
above, and not because it came round. -/
theorem top_of_push {size len top top' swaps : Nat} (len_cases : len = 2 ∨ len = 4)
    (low : top < 4) (room : top < size) (two : size ≠ 2) (four : size ≠ 4)
    (full : size = top + 1 → swaps = 0) (level : top' + swaps = (top + 1) % len)
    (back : Ras.below size top' = top) : top' = top + 1 ∧ swaps = 0 ∧ top + 1 < len := by
  have short : (top + 1) % len < len := Nat.mod_lt _ (by omega)
  have round : (top + 1) % len ≤ top + 1 := Nat.mod_le ..
  cases top' with
  | zero =>
      rw [Ras.below_zero] at back
      rcases len_cases with rfl | rfl <;> omega
  | succ t =>
      rw [Ras.below_succ] at back
      omega

/-- The pointer after the code inside a swap, if its return reads the slot of the swap. -/
theorem top_of_swap {size len top top' swaps : Nat} (len_cases : len = 2 ∨ len = 4)
    (room : top < size) (two : size ≠ 2) (four : size ≠ 4) (level : top' + swaps = top)
    (back : Ras.below size top' = Ras.below len top) : 0 < top ∧ top' = top ∧ swaps = 0 := by
  cases top with
  | zero =>
      obtain rfl : top' = 0 := by omega
      rw [Ras.below_zero, Ras.below_zero] at back
      rcases len_cases with rfl | rfl <;> omega
  | succ t =>
      rw [Ras.below_succ] at back
      cases top' with
      | zero =>
          rw [Ras.below_zero] at back
          omega
      | succ t' =>
          rw [Ras.below_succ] at back
          omega

/-- Code that is supplied its own addresses finds each in the slot of its call. -/
theorem kept_of_turns {size : Nat} {code : Code} {pushed : Place → V × V} {s s' : Stack V}
    (apart : Apart pushed) (fresh : ∀ i p, s.slots i ≠ (pushed p).2) (low : s.top < 4)
    (fits : s.top + code.depth ≤ size) (two : size ≠ 2) (four : size ≠ 4)
    (ran : CPUDelaySim.turns size (code.turns pushed) s = some (code.addrs pushed, s')) :
    code.Kept s.top ∧ s'.top + code.swaps = s.top := by
  induction code generalizing pushed s s' with
  | done =>
      cases ran
      exact ⟨trivial, rfl⟩
  | call inst inner ret rest ihInner ihRest =>
      obtain ⟨s₁, s₂, outs, outs', called, within, inside, after, split⟩ := turns_call ran
      rw [addrs] at split
      obtain ⟨inner_eq, later⟩ := List.append_inj split (length_of_turns within).symm
      obtain ⟨own, rest_eq⟩ := List.cons.inj later
      subst inner_eq rest_eq
      rw [depth] at fits
      -- only the call itself has pushed the address it is to be supplied
      have found : s₁.slots (Ras.below size s₂.top) = (pushed []).2 :=
        apart.turns_slots (fun p => List.cons_ne_nil true p) within own.symm
      have fresh₁ : ∀ i p, s₁.slots i ≠ (pushed (true :: p)).2 :=
        fun i p held => fresh i _ (apart.call_slots (List.cons_ne_nil true p) called held)
      have fresh₂ : ∀ i p, s₂.slots i ≠ (pushed (false :: p)).2 := by
        intro i p held
        have held₁ := apart.turns_slots (fun _ => by simp) within held
        exact fresh i _ (apart.call_slots (List.cons_ne_nil false p) called held₁)
      -- The induction is on the code: what the call runs, and what comes after its return.
      have keptInner := fun low fits => ihInner (apart.inside true) fresh₁ low fits within
      have keptRest := fun low fits =>
        ihRest (s := ⟨s₂.slots, Ras.below ret.len s₂.top⟩) (apart.inside false) fresh₂ low fits
          after
      have sound : (inst.type = .push ∨ inst.type = .indPush) ∨ inst.type = .popPush ∨
          inst.type = .indCall := or_assoc.2 inst.jumpType_eq.2
      rw [Kept, swaps]
      -- A call pushes, replaces the top, or leaves the stack alone.
      rcases sound with push | swap | ignored
      · rw [CallInst.turn_push push] at called
        obtain ⟨room, top₁, slot⟩ := slot_of_push (fun i => fresh i []) called
        have round : (s.top + 1) % inst.len ≤ s.top + 1 := Nat.mod_le ..
        have short : (s.top + 1) % inst.len < 4 := by
          rcases inst.len_cases with len | len <;> rw [len] <;> omega
        rw [top₁] at keptInner
        obtain ⟨keptIn, level⟩ := keptInner short (by omega)
        obtain ⟨top₂, plain, deep⟩ := top_of_push inst.len_cases low room two four
          (fun full => swaps_eq_zero_of_depth (by omega)) level (slot _ found)
        rw [top₂, Ras.below_succ] at keptRest
        obtain ⟨keptOut, level'⟩ := keptRest low (by dsimp only; omega)
        rw [Nat.mod_eq_of_lt deep] at keptIn
        have other : inst.type ≠ .popPush := by rcases push with type | type <;> simp [type]
        rw [if_neg other, Nat.zero_add]
        exact ⟨⟨plain, .inl ⟨push, deep, keptIn, keptOut⟩⟩, level'⟩
      · have swaps_eq : inst.turn (pushed []) = .swap inst.len (pushed []).1 (pushed []).2 := by
          rw [CallInst.turn, swap]
        rw [swaps_eq] at called
        obtain ⟨top₁, slot⟩ := slot_of_swap (apart.guessed [] []) (fun i => fresh i []) called
        rw [top₁] at keptInner
        obtain ⟨keptIn, level⟩ := keptInner low (by omega)
        obtain ⟨positive, top₂, plain⟩ := top_of_swap inst.len_cases (by omega) two four level
          (slot _ found)
        obtain ⟨t, top_eq⟩ := Nat.exists_eq_succ_of_ne_zero (Nat.ne_of_gt positive)
        rw [top₂, top_eq, Nat.succ_eq_add_one, Ras.below_succ] at keptRest
        obtain ⟨keptOut, level'⟩ := keptRest (by dsimp only; omega) (by dsimp only; omega)
        have below : s.top - 1 = t := by omega
        rw [if_pos swap, below]
        exact ⟨⟨plain, .inr ⟨swap, positive, keptIn, keptOut⟩⟩, by dsimp only at level'; omega⟩
      · -- a call that is not pushed is supplied what the stack held
        have nothing : inst.turn (pushed []) = .skip := by rw [CallInst.turn, ignored]
        rw [nothing] at called
        cases called
        exact absurd found (fresh _ _)

/-! ### Names -/

/-- A name for each value: what a slot held at first, and what is pushed at a place. -/
inductive Name
  | slot (i : Nat)
  | guessed (p : Place)
  | addr (p : Place)

/-- The names of what is pushed. -/
def named (p : Place) : Name × Name := (.guessed p, .addr p)

/-- Different places have different names. -/
theorem apart_named : Apart named :=
  ⟨fun _ _ same => Name.addr.inj same, fun _ _ same => Name.noConfusion same⟩

/-- The value of a name. -/
def Name.value (slots : Nat → Word) (d after : Place → Word) : Name → Word
  | .slot i => slots i
  | .guessed p => after p + d p
  | .addr p => after p

/-- A name whose value is always that of a pushed address is its name. -/
theorem Name.eq_addr {d : Place → Word} (nonzero : ∀ p, d p ≠ 0) {n : Name} {p : Place}
    (same : ∀ slots after, n.value slots d after = after p) : n = .addr p := by
  cases n with
  | slot i => exact absurd (same (fun _ => 1) fun _ => 0) (of_decide_eq_true rfl)
  | guessed q =>
      have value := same (fun _ => 0) fun _ => 0
      exact absurd ((BitVec.zero_add (d q)).symm.trans value) (nonzero q)
  | addr q =>
      by_contra other
      have apart : q ≠ p := fun same => other (congrArg Name.addr same)
      have value := same (fun _ => 0) (Function.update (fun _ => 0) p 1)
      rw [Name.value, Function.update_of_ne apart, Function.update_self] at value
      exact absurd value (of_decide_eq_true rfl)

/-- Names whose values are always those of pushed addresses are their names. -/
theorem names_eq {d : Place → Word} (nonzero : ∀ p, d p ≠ 0) {names names' : List Name}
    (pushed : ∀ n ∈ names', ∃ p, n = .addr p)
    (same : ∀ slots after,
      names.map (Name.value slots d after) = names'.map (Name.value slots d after)) :
    names = names' := by
  induction names generalizing names' with
  | nil =>
      cases names' with
      | nil => rfl
      | cons n' names' => exact nomatch same (fun _ => 0) fun _ => 0
  | cons n names ih =>
      cases names' with
      | nil => exact nomatch same (fun _ => 0) fun _ => 0
      | cons n' names' =>
          obtain ⟨p, rfl⟩ := pushed n' List.mem_cons_self
          rw [Name.eq_addr nonzero fun slots after => (List.cons.inj (same slots after)).1,
            ih (fun n mem => pushed n (List.mem_cons_of_mem _ mem))
              fun slots after => (List.cons.inj (same slots after)).2]

/-- A return address is that of some call. -/
theorem mem_addrs {code : Code} {pushed : Place → V × V} {v : V}
    (mem : v ∈ code.addrs pushed) : ∃ p, v = (pushed p).2 := by
  induction code generalizing pushed with
  | done => cases mem
  | call inst inner ret rest ihInner ihRest =>
      rw [addrs, List.mem_append, List.mem_cons] at mem
      rcases mem with mem | rfl | mem
      · obtain ⟨p, found⟩ := ihInner mem
        exact ⟨true :: p, found⟩
      · exact ⟨[], rfl⟩
      · obtain ⟨p, found⟩ := ihRest mem
        exact ⟨false :: p, found⟩

/-! ### Exact code -/

/-- The supplied addresses are those the turns supply. -/
theorem supplied_eq (insts : List Fetched) (size : Nat) (slots : Nat → Word) :
    (preIdAll insts ⟨size, slots, 0⟩).map (fun r => supplied r.1) =
      (CPUDelaySim.turns size (insts.map (Fetched.turn size)) ⟨slots, 0⟩).map Prod.fst := by
  have both := congrArg (Option.map Prod.fst) (preIdAll_turns insts ⟨size, slots, 0⟩)
  rw [Option.map_map, Option.map_map] at both
  exact both

/-- The returns of shallow code are supplied with the addresses behind their calls. -/
theorem Shallow.exact {size : Nat} {code : Code} (shallow : code.Shallow 0)
    (fits : code.depth ≤ size) : code.Exact size := by
  intro insts as run slots
  obtain ⟨pushed, turned, rfl⟩ := run.turns size
  obtain ⟨slots', ran, -⟩ := shallow.turns (le_of_eq_of_le (Nat.zero_add _) fits) pushed slots
  rw [supplied_eq, turned, ran]
  rfl

/-- Code that is not shallow is supplied with a wrong address in some run: with names for the
addresses it is the name of another slot. -/
theorem Exact.shallow {size : Nat} {code : Code} (exact : code.Exact size)
    (fits : code.depth ≤ size) (small : size < 2 ^ 31) (two : size ≠ 2) (four : size ≠ 4) :
    code.Shallow 0 := by
  obtain ⟨d, nonzero, runs⟩ := code.exists_run (Nat.lt_trans small (by decide)) two four
  have valued : ∀ slots after,
      (CPUDelaySim.turns size (code.turns named) ⟨.slot, 0⟩).map
          (fun r => r.1.map (Name.value slots d after)) =
        some ((code.addrs named).map (Name.value slots d after)) := by
    intro slots after
    obtain ⟨insts, run, turned⟩ := runs after
    have right := exact insts _ run slots
    rw [supplied_eq, turned] at right
    have mapped := turns_map (Name.value slots d after) size (code.turns named) ⟨.slot, 0⟩
    rw [← turns_comp] at mapped
    have firsts := congrArg (Option.map Prod.fst) mapped
    rw [Option.map_map] at firsts
    rw [← addrs_comp]
    exact firsts.symm.trans right
  cases ran : CPUDelaySim.turns size (code.turns named) ⟨Name.slot, 0⟩ with
  | none =>
      have value := valued (fun _ => 0) fun _ => 0
      rw [ran] at value
      cases value
  | some r =>
      obtain ⟨names, s'⟩ := r
      have same : names = code.addrs named := by
        refine names_eq nonzero (fun n => mem_addrs) fun slots after => ?_
        have value := valued slots after
        rw [ran] at value
        exact Option.some.inj value
      obtain ⟨kept, level⟩ := kept_of_turns apart_named (fun _ _ same => Name.noConfusion same)
        (by decide) (by dsimp only; omega) two four (same ▸ ran)
      exact kept.shallow (Nat.eq_zero_of_add_eq_zero_left level)

end Code

/-- Shallow code is supplied exact return addresses, and only shallow code is, except by a stack
whose size is the length of an instruction. Every taken prediction comes back to
`RAS::redirect`, whose pointer goes round at the length of the instruction, so a fourth nested
call returns it to the bottom. The proof supplies the code with addresses of its own and asks
where each one comes back. -/
theorem exact_iff_shallow (size : Nat) (code : Code) (fits : code.depth ≤ size)
    (small : size < 2 ^ 31) :
    (code.Shallow 0 → code.Exact size) ∧
      (size ≠ 2 → size ≠ 4 → code.Exact size → code.Shallow 0) :=
  ⟨fun shallow => shallow.exact fits, fun two four exact => exact.shallow fits small two four⟩

/-- `jal x1, 8`. -/
def jalX1 : CallInst := ⟨0x008000EF, 1, .inl rfl, .inl ⟨8, rfl⟩⟩

/-- `jalr x0, 0(x1)`. -/
def retX1 : ReturnInst := ⟨0x00008067, 0, 1, 0, rfl, .inl rfl, by decide⟩

/-- Calls nested `n` deep. -/
def nestedCalls : Nat → Code
  | 0 => .done
  | n + 1 => .call jalX1 (nestedCalls n) retX1 .done

/-- Three calls of four bytes, each inside the one before, are the deepest that come back right. -/
theorem exact_iff_shallow_threeCalls : (nestedCalls 3).Exact 16 := by
  have inner : (nestedCalls 1).Shallow 2 := ⟨.inl rfl, by decide, trivial, trivial⟩
  have middle : (nestedCalls 2).Shallow 1 := ⟨.inl rfl, by decide, inner, trivial⟩
  exact (exact_iff_shallow 16 (nestedCalls 3) (by decide) (by decide)).1
    ⟨.inl rfl, by decide, middle, trivial⟩

/-- The fourth of four nested calls brings the pointer back to 0. -/
theorem not_exact_fourCalls : (nestedCalls 4).depth ≤ 16 ∧ ¬ (nestedCalls 4).Exact 16 := by
  refine ⟨by decide, fun exact => ?_⟩
  have shallow := exact.shallow (by decide) (by decide) (by decide) (by decide)
  exact absurd shallow.2.2.1.2.2.1.2.2.1.2.1 (by decide)

/-- Their innermost return is supplied the last slot, and not address 16. -/
example :
    let jump (type : InstType) (pc : Word) : Fetched :=
      ⟨pc, { DecodeInfo.zero with type := type, instSize := 4 }, ⟨false, false, 0, 0⟩, 0⟩
    (preIdAll ([0, 4, 8, 12].map (jump .push) ++ [20, 16, 12, 8].map (jump .pop))
      ⟨16, fun _ => 0, 0⟩).map (fun r => supplied r.1) = some [0, 12, 8, 4] := by
  decide

end CPUDelaySim
