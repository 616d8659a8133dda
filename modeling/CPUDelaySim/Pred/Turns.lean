import CPUDelaySim.Pred.Ras

/-!
# What the predictions of jumps do to the stack

Predicting a jump and taking the prediction runs `RAS::predict` and then, from the pointer the
first one saved, `RAS::redirect`.  `Turn` is the net effect on the slots and the pointer, over
any type of values in the slots; `preIdAll_turns` says that a sequence of predictions takes the
turns of its instructions.  The values are only moved, so a turn commutes with every map of
values (`turns_map`): the code is followed once with names in the slots, for all addresses.
-/

namespace CPUDelaySim

variable {V W : Type}

/-- The net effect of `predict` and `redirect`.  `len` is the length of the instruction; `swap`
is `POP_PUSH`, which writes once with the size of the stack and once with the length. -/
inductive Turn (V : Type)
  | push (len : Nat) (addr : V)
  | swap (len : Nat) (guessed addr : V)
  | pop (len : Nat)
  | skip

/-- The slots and the pointer. -/
@[ext] structure Stack (V : Type) where
  slots : Nat → V
  top : Nat

namespace Turn

/-- The values a turn writes. -/
def Writes (v : V) : Turn V → Prop
  | push _ addr => v = addr
  | swap _ guessed addr => v = guessed ∨ v = addr
  | pop _ => False
  | skip => False

/-- The turn of other values. -/
def map (f : V → W) : Turn V → Turn W
  | push len addr => push len (f addr)
  | swap len guessed addr => swap len (f guessed) (f addr)
  | pop len => pop len
  | skip => skip

end Turn

/-- The stack of other values. -/
def Stack.map (f : V → W) (s : Stack V) : Stack W := ⟨f ∘ s.slots, s.top⟩

/-- A turn in a stack of `size` slots: the address supplied, if it is a return, and the stack. -/
def turn (size : Nat) : Turn V → Stack V → Option (List V × Stack V)
  | .push len addr, s =>
      if s.top < size then
        some ([], ⟨Function.update s.slots s.top addr, (s.top + 1) % len⟩)
      else none
  | .swap len guessed addr, s =>
      if Ras.below size s.top < size ∧ Ras.below len s.top < size then
        some ([], ⟨Function.update (Function.update s.slots (Ras.below size s.top) guessed)
          (Ras.below len s.top) addr, s.top⟩)
      else none
  | .pop len, s =>
      if Ras.below size s.top < size then
        some ([s.slots (Ras.below size s.top)], ⟨s.slots, Ras.below len s.top⟩)
      else none
  | .skip, s => some ([], s)

/-- A sequence of turns, with the addresses supplied. -/
def turns (size : Nat) : List (Turn V) → Stack V → Option (List V × Stack V)
  | [], s => some ([], s)
  | op :: rest, s => do
      let (first, s) ← turn size op s
      let (later, s) ← turns size rest s
      return (first ++ later, s)

/-! ### Sequences of turns -/

/-- The first turn, then the rest. -/
theorem turns_cons_eq_some {size : Nat} {op : Turn V} {rest : List (Turn V)} {s s' : Stack V}
    {out : List V} :
    turns size (op :: rest) s = some (out, s') ↔
      ∃ first t later, turn size op s = some (first, t) ∧
        turns size rest t = some (later, s') ∧ out = first ++ later := by
  simp only [turns, bind, Option.bind_eq_some_iff, Prod.exists, pure, Option.some.injEq,
    Prod.mk.injEq]
  constructor
  · rintro ⟨first, t, turned, later, _, followed, rfl, rfl⟩
    exact ⟨first, t, later, turned, followed, rfl⟩
  · rintro ⟨first, t, later, turned, followed, rfl⟩
    exact ⟨first, t, turned, later, s', followed, rfl, rfl⟩

/-- The turns of a concatenation. -/
theorem turns_append_eq_some {size : Nat} {ops rest : List (Turn V)} {s s' : Stack V}
    {out : List V} :
    turns size (ops ++ rest) s = some (out, s') ↔
      ∃ first t later, turns size ops s = some (first, t) ∧
        turns size rest t = some (later, s') ∧ out = first ++ later := by
  induction ops generalizing s out with
  | nil =>
      constructor
      · intro followed
        exact ⟨[], s, out, rfl, followed, rfl⟩
      · rintro ⟨_, _, later, ⟨⟩, followed, rfl⟩
        exact followed
  | cons op ops ih =>
      rw [List.cons_append, turns_cons_eq_some]
      constructor
      · rintro ⟨first, t, later, turned, followed, rfl⟩
        obtain ⟨second, u, last, middle, ended, rfl⟩ := ih.1 followed
        refine ⟨first ++ second, u, last, ?_, ended, (List.append_assoc ..).symm⟩
        exact turns_cons_eq_some.2 ⟨first, t, second, turned, middle, rfl⟩
      · rintro ⟨_, u, last, ran, followed, rfl⟩
        obtain ⟨first, t, second, turned, middle, rfl⟩ := turns_cons_eq_some.1 ran
        refine ⟨first, t, second ++ last, turned, ?_, List.append_assoc ..⟩
        exact ih.2 ⟨second, u, last, middle, followed, rfl⟩

/-- A slot keeps its value or has one that was written. -/
theorem turn_slots {size : Nat} {op : Turn V} {s s' : Stack V} {out : List V}
    (turned : turn size op s = some (out, s')) (i : Nat) :
    s'.slots i = s.slots i ∨ op.Writes (s'.slots i) := by
  cases op with
  | push len addr =>
      simp only [turn, Option.ite_none_right_eq_some, Option.some.injEq, Prod.mk.injEq] at turned
      obtain ⟨-, -, rfl⟩ := turned
      rcases eq_or_ne i s.top with rfl | other
      · exact .inr (Function.update_self ..)
      · exact .inl (Function.update_of_ne other ..)
  | swap len guessed addr =>
      simp only [turn, Option.ite_none_right_eq_some, Option.some.injEq, Prod.mk.injEq] at turned
      obtain ⟨-, -, rfl⟩ := turned
      rcases eq_or_ne i (Ras.below len s.top) with rfl | other
      · exact .inr (.inr (Function.update_self ..))
      rcases eq_or_ne i (Ras.below size s.top) with rfl | other'
      · exact .inr (.inl ((Function.update_of_ne other ..).trans (Function.update_self ..)))
      · exact .inl ((Function.update_of_ne other ..).trans (Function.update_of_ne other' ..))
  | pop len =>
      simp only [turn, Option.ite_none_right_eq_some, Option.some.injEq, Prod.mk.injEq] at turned
      obtain ⟨-, -, rfl⟩ := turned
      exact .inl rfl
  | skip =>
      cases turned
      exact .inl rfl

/-- What is in a slot after some turns was there before, or one of them has written it. -/
theorem turns_slots {size : Nat} {ops : List (Turn V)} {s s' : Stack V} {out : List V}
    (followed : turns size ops s = some (out, s')) (i : Nat) :
    s'.slots i = s.slots i ∨ ∃ op ∈ ops, op.Writes (s'.slots i) := by
  induction ops generalizing s out with
  | nil =>
      cases followed
      exact .inl rfl
  | cons op rest ih =>
      obtain ⟨first, t, later, turned, ended, rfl⟩ := turns_cons_eq_some.1 followed
      rcases ih ended with kept | ⟨op', mem, wrote⟩
      · rcases turn_slots turned i with kept' | wrote
        · exact .inl (kept.trans kept')
        · exact .inr ⟨op, List.mem_cons_self, kept ▸ wrote⟩
      · exact .inr ⟨op', List.mem_cons_of_mem op mem, wrote⟩

/-! ### Other values -/

/-- A turn does not look at the values. -/
theorem turn_map (f : V → W) (size : Nat) (op : Turn V) (s : Stack V) :
    turn size (op.map f) (s.map f) =
      (turn size op s).map fun r => (r.1.map f, r.2.map f) := by
  cases op with
  | push len addr =>
      simp only [turn, Turn.map, Stack.map]
      split
      · simp [Function.comp_update]
      · rfl
  | swap len guessed addr =>
      simp only [turn, Turn.map, Stack.map]
      split
      · simp [Function.comp_update]
      · rfl
  | pop len =>
      simp only [turn, Turn.map, Stack.map]
      split
      · rfl
      · rfl
  | skip => rfl

/-- The values are only moved. -/
theorem turns_map (f : V → W) (size : Nat) (ops : List (Turn V)) (s : Stack V) :
    turns size (ops.map (Turn.map f)) (s.map f) =
      (turns size ops s).map fun r => (r.1.map f, r.2.map f) := by
  induction ops generalizing s with
  | nil => rfl
  | cons op rest ih =>
      rw [List.map_cons, turns, turns, turn_map]
      cases turn size op s with
      | none => rfl
      | some r =>
          obtain ⟨first, t⟩ := r
          change (turns size (rest.map (Turn.map f)) (t.map f)).bind _ =
            Option.map _ ((turns size rest t).bind _)
          rw [ih]
          cases turns size rest t with
          | none => rfl
          | some r => simp

/-! ### The predictions -/

/-- The turn of an instruction. -/
def Fetched.turn (size : Nat) (inst : Fetched) : Turn Word :=
  let len := inst.info.instSize.toNat
  match inst.info.type with
  | .push | .indPush => .push len (inst.pc + BitVec.ofNat 64 len)
  | .popPush => .swap len (inst.pc + BitVec.ofNat 64 size) (inst.pc + BitVec.ofNat 64 len)
  | .pop => .pop len
  | _ => .skip

/-- The slots and the pointer of the `RAS`. -/
def Ras.stack (s : Ras) : Stack Word := ⟨s.ras, s.top⟩

/-- The state with another stack. -/
def Ras.withStack (s : Ras) (t : Stack Word) : Ras := ⟨s.size, t.slots, t.top⟩

/-- The addresses the stack supplied to returns. -/
def supplied (metas : List MetaInfo) : List Word :=
  (metas.filter fun m => m.stream.type = .pop).map fun m => m.stream.rasTarget

/-- What is supplied, prediction by prediction. -/
theorem supplied_cons (m : MetaInfo) (metas : List MetaInfo) :
    supplied (m :: metas) = supplied [m] ++ supplied metas := by
  unfold supplied
  rw [← List.map_append, ← List.filter_append, List.singleton_append]

/-- One prediction is one turn. -/
theorem preIdPredict_turn (inst : Fetched) (s : Ras) :
    (preIdPredict inst s).map (fun r => (supplied [r.1], r.2)) =
      (turn s.size (inst.turn s.size) s.stack).map fun r => (r.1, s.withStack r.2) := by
  obtain ⟨pc, info, guess, old⟩ := inst
  obtain ⟨size, ras, top⟩ := s
  simp only [preIdPredict, pipePredict, Fetched.turn]
  cases type : info.type with
  | push | indPush =>
      by_cases inside : top < size
      · simp [Ras.predict, Ras.redirect, Ras.write, Ras.stack, Ras.withStack, turn, supplied,
          inside]
      · simp [Ras.predict, Ras.write, Ras.stack, Ras.withStack, turn, inside]
  | popPush =>
      by_cases inside : Ras.below size top < size
      · by_cases inside' : Ras.below info.instSize.toNat top < size
        · simp [Ras.predict, Ras.redirect, Ras.read, Ras.write, Ras.stack, Ras.withStack, turn,
            supplied, inside, inside']
        · simp [Ras.predict, Ras.redirect, Ras.read, Ras.write, Ras.stack, Ras.withStack, turn,
            inside, inside']
      · simp [Ras.predict, Ras.read, Ras.stack, Ras.withStack, turn, inside]
  | pop =>
      by_cases inside : Ras.below size top < size
      · simp [Ras.predict, Ras.redirect, Ras.read, Ras.stack, Ras.withStack, turn, supplied,
          inside]
      · simp [Ras.predict, Ras.read, Ras.stack, Ras.withStack, turn, inside]
  | cond => cases taken : guess.taken <;>
      simp [Ras.predict, Ras.redirect, Ras.stack, Ras.withStack, turn, supplied, taken]
  | _ => simp [Ras.predict, Ras.redirect, Ras.stack, Ras.withStack, turn, supplied]

/-- Decoding a list of instructions takes their turns, and supplies what the turns return. -/
theorem preIdAll_turns (insts : List Fetched) (s : Ras) :
    (preIdAll insts s).map (fun r => (supplied r.1, r.2)) =
      (turns s.size (insts.map (Fetched.turn s.size)) s.stack).map fun r =>
        (r.1, s.withStack r.2) := by
  induction insts generalizing s with
  | nil => rfl
  | cons inst rest ih =>
      have first := preIdPredict_turn inst s
      rw [List.map_cons, preIdAll, turns]
      cases turned : turn s.size (inst.turn s.size) s.stack with
      | none =>
          rw [turned] at first
          rw [Option.map_eq_none_iff.1 first]
          rfl
      | some r =>
          obtain ⟨out, t⟩ := r
          rw [turned, Option.map_some, Option.map_eq_some_iff] at first
          obtain ⟨⟨metaInfo, u⟩, predicted, same⟩ := first
          simp only [Prod.mk.injEq] at same
          obtain ⟨rfl, rfl⟩ := same
          rw [predicted]
          have later : (preIdAll rest (s.withStack t)).map (fun r => (supplied r.1, r.2)) =
              (turns s.size (rest.map (Fetched.turn s.size)) t).map fun r =>
                (r.1, s.withStack r.2) := ih (s.withStack t)
          change Option.map _ ((preIdAll rest (s.withStack t)).bind _) =
            Option.map _ ((turns s.size _ t).bind _)
          cases followed : turns s.size (rest.map (Fetched.turn s.size)) t with
          | none =>
              rw [followed] at later
              rw [Option.map_eq_none_iff.1 later]
              rfl
          | some r =>
              obtain ⟨out, v⟩ := r
              rw [followed, Option.map_some, Option.map_eq_some_iff] at later
              obtain ⟨⟨metas, w⟩, ran, same⟩ := later
              simp only [Prod.mk.injEq] at same
              obtain ⟨rfl, rfl⟩ := same
              rw [ran]
              change some (supplied (metaInfo :: metas), _) = _
              rw [supplied_cons]
              rfl

end CPUDelaySim
