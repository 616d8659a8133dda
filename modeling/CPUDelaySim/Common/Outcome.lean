import Mathlib.Tactic.Common

/-!
# Reasoning about computations that may stop

A computation in `Except ε` either returns or stops with a reason.  Two predicates
say what matters about one: `Returns x Q`, every value `x` returns satisfies `Q`,
and `Avoids e x`, it does not stop for the reason `e`.  Each has a rule for every
way a computation is built, so a property of a long computation is taken apart
along its structure, and a rule for a whole run of a step function.

Nothing here mentions the simulator.

`Uniform` is a third one, for a computation that takes an argument it uses only in part: on all
arguments that agree there, it stops for one reason or returns alike.  `Visits.invariant`,
`runSteps_invariant` and `runSteps_avoids_iff` are the inductions over runs, used by every module
that has a step function.
-/

namespace CPUDelaySim

variable {ε α β σ ι : Type}

/-- Every value the computation returns satisfies `Q`. -/
def Returns (x : Except ε α) (Q : α → Prop) : Prop := ∀ a, x = .ok a → Q a

/-- The computation does not stop for the reason `e`. -/
def Avoids (e : ε) (x : Except ε α) : Prop := x ≠ .error e

instance [DecidableEq ε] (e : ε) (x : Except ε α) : Decidable (Avoids e x) :=
  match x with
  | .ok _ => isTrue (by rintro ⟨⟩)
  | .error e' => decidable_of_iff (e' ≠ e) (by simp [Avoids])

/-- A value that is returned is what has to satisfy the condition. -/
@[simp] theorem returns_ok (a : α) (Q : α → Prop) :
    Returns (.ok a : Except ε α) Q ↔ Q a := by
  constructor
  · intro h
    exact h a rfl
  · rintro h _ ⟨⟩
    exact h

/-- The same of `pure`. -/
@[simp] theorem returns_pure (a : α) (Q : α → Prop) :
    Returns (pure a : Except ε α) Q ↔ Q a := returns_ok a Q

/-- What stops returns nothing, so that there is nothing to satisfy. -/
@[simp] theorem returns_error (e : ε) (Q : α → Prop) :
    Returns (.error e : Except ε α) Q := by
  rintro _ ⟨⟩

/-- No condition is asked for. -/
@[simp] theorem returns_true (x : Except ε α) : Returns x (fun _ => True) ↔ True :=
  iff_true_intro fun _ _ => trivial

/-- The condition on a sequence is one on its first part. -/
@[simp] theorem returns_bind (x : Except ε α) (f : α → Except ε β) (Q : β → Prop) :
    Returns (x >>= f) Q ↔ Returns x fun a => Returns (f a) Q := by
  cases x with
  | error e => exact iff_of_true (returns_error e Q) (returns_error e _)
  | ok a => exact ⟨fun h => (returns_ok a _).2 h, fun h => (returns_ok a _).1 h⟩

/-- The condition on a mapped result, pulled back. -/
@[simp] theorem returns_map (f : α → β) (x : Except ε α) (Q : β → Prop) :
    Returns (x.map f) Q ↔ Returns x fun a => Q (f a) := by
  cases x with
  | error e => exact iff_of_true (returns_error e Q) (returns_error e _)
  | ok a => exact ⟨fun h => (returns_ok a _).2 (h _ rfl), fun h => (returns_ok _ Q).2 (h a rfl)⟩

/-- Consequence. -/
theorem Returns.mono {x : Except ε α} {Q R : α → Prop} (h : Returns x Q)
    (weaken : ∀ a, Q a → R a) : Returns x R :=
  fun a returned => weaken a (h a returned)

/-- Consequence, with the knowledge that the value was returned. -/
theorem Returns.and_eq {x : Except ε α} {Q : α → Prop} (h : Returns x Q) :
    Returns x fun a => x = .ok a ∧ Q a :=
  fun a returned => ⟨returned, h a returned⟩

/-- What returns does not stop. -/
@[simp] theorem avoids_ok (e : ε) (a : α) : Avoids e (.ok a : Except ε α) := by
  rintro ⟨⟩

/-- The same of `pure`. -/
@[simp] theorem avoids_pure (e : ε) (a : α) : Avoids e (pure a : Except ε α) :=
  avoids_ok e a

/-- What stops for another reason avoids this one. -/
@[simp] theorem avoids_error (e e' : ε) :
    Avoids e (.error e' : Except ε α) ↔ e' ≠ e := by
  simp [Avoids]

/-- A sequence avoids a reason to stop if its first part does, and the rest of what that
returns. -/
@[simp] theorem avoids_bind (e : ε) (x : Except ε α) (f : α → Except ε β) :
    Avoids e (x >>= f) ↔ Avoids e x ∧ Returns x fun a => Avoids e (f a) := by
  cases x with
  | error e' =>
      rw [show (Except.error e' >>= f) = .error e' from rfl]
      simp
  | ok a =>
      rw [show (Except.ok a >>= f) = f a from rfl]
      simp

/-- The value of a computation that returned is the value of its last step. -/
theorem bind_eq_ok (x : Except ε α) (f : α → Except ε β) (b : β) :
    (x >>= f) = .ok b ↔ ∃ a, x = .ok a ∧ f a = .ok b := by
  cases x with
  | error e => simp [bind, Except.bind]
  | ok a => simp [bind, Except.bind]

/-- A value computed from a computation that returned is computed from its result. -/
theorem exists_ok_of_toOption {x : Except ε α} {f : α → β} {b : β}
    (h : x.toOption.map f = some b) : ∃ a, x = .ok a ∧ f a = b := by
  cases x with
  | error e => cases h
  | ok a => exact ⟨a, rfl, Option.some.inj h⟩

/-! ### Hidden arguments -/

/-- A computation that uses an argument only as far as `H` fixes it: on all arguments
`H` allows it stops for one reason, or returns one function of them, which has `Q`. -/
def Uniform (H : ι → Prop) (x : ι → Except ε α) (Q : (ι → α) → Prop) : Prop :=
  (∃ e, ∀ i, H i → x i = .error e) ∨ ∃ g, Q g ∧ ∀ i, H i → x i = .ok (g i)

/-- A family of values. -/
theorem uniform_ok (H : ι → Prop) (g : ι → α) {Q : (ι → α) → Prop} (h : Q g) :
    Uniform H (fun i => (.ok (g i) : Except ε α)) Q :=
  .inr ⟨g, h, fun _ _ => rfl⟩

/-- A family that stops, for the same reason each. -/
theorem uniform_error (H : ι → Prop) (e : ε) (Q : (ι → α) → Prop) :
    Uniform H (fun _ => (.error e : Except ε α)) Q :=
  .inl ⟨e, fun _ _ => rfl⟩

/-- Two families, one after the other: the first stops or returns all over, and so does the
second. -/
theorem uniform_bind {H : ι → Prop} {x : ι → Except ε α} {f : ι → α → Except ε β}
    {Q : (ι → α) → Prop} {R : (ι → β) → Prop} (first : Uniform H x Q)
    (rest : ∀ g, Q g → Uniform H (fun i => f i (g i)) R) :
    Uniform H (fun i => x i >>= f i) R := by
  rcases first with ⟨e, stops⟩ | ⟨g, held, returns⟩
  · refine .inl ⟨e, ?_⟩
    intro i allowed
    change (x i >>= f i) = _
    rw [stops i allowed]
    rfl
  · rcases rest g held with ⟨e, stops⟩ | ⟨g', held', returns'⟩
    · refine .inl ⟨e, ?_⟩
      intro i allowed
      change (x i >>= f i) = _
      rw [returns i allowed]
      exact stops i allowed
    · refine .inr ⟨g', held', ?_⟩
      intro i allowed
      change (x i >>= f i) = _
      rw [returns i allowed]
      exact returns' i allowed

/-- A weaker condition. -/
theorem Uniform.mono {H : ι → Prop} {x : ι → Except ε α} {Q R : (ι → α) → Prop}
    (h : Uniform H x Q) (weaken : ∀ g, Q g → R g) : Uniform H x R := by
  rcases h with stops | ⟨g, held, returns⟩
  · exact .inl stops
  · exact .inr ⟨g, weaken g held, returns⟩

/-! ### Runs -/

/-- The run of a step function over a list of inputs. -/
def runSteps (step : σ → ι → Except ε σ) : σ → List ι → Except ε σ
  | s, [] => .ok s
  | s, i :: rest => do
      let s ← step s i
      runSteps step s rest

/-- Without steps, nothing happens. -/
@[simp] theorem runSteps_nil (step : σ → ι → Except ε σ) (s : σ) :
    runSteps step s [] = .ok s := rfl

/-- The first step, then the rest. -/
theorem runSteps_cons (step : σ → ι → Except ε σ) (s : σ) (i : ι) (rest : List ι) :
    runSteps step s (i :: rest) = step s i >>= fun s => runSteps step s rest := rfl

/-- A run over a concatenation is the run over its second part from where the first
one ends. -/
theorem runSteps_append (step : σ → ι → Except ε σ) (s : σ) (is js : List ι) :
    runSteps step s (is ++ js) = runSteps step s is >>= fun s => runSteps step s js := by
  induction is generalizing s with
  | nil => rfl
  | cons i rest ih =>
      rw [List.cons_append, runSteps_cons, runSteps_cons, bind_assoc]
      simp only [ih]

/-- The run goes on from where its first part ends. -/
theorem runSteps_append_of_ok {step : σ → ι → Except ε σ} {s t : σ} {is : List ι}
    (ran : runSteps step s is = .ok t) (js : List ι) :
    runSteps step s (is ++ js) = runSteps step t js := by
  rw [runSteps_append, ran]
  rfl

/-- The run and one more step. -/
theorem runSteps_concat {step : σ → ι → Except ε σ} {s t t' : σ} {is : List ι} {i : ι}
    (ran : runSteps step s is = .ok t) (moved : step t i = .ok t') :
    runSteps step s (is ++ [i]) = .ok t' := by
  rw [runSteps_append_of_ok ran, runSteps_cons, moved]
  rfl

/-- The states a run passes through in which a step is taken, with that step. -/
inductive Visits (step : σ → ι → Except ε σ) : σ → List ι → σ → ι → Prop
  | here (s : σ) (i : ι) (rest : List ι) : Visits step s (i :: rest) s i
  | later {s s' t : σ} {i j : ι} {rest : List ι} (moved : step s i = .ok s')
      (visit : Visits step s' rest t j) : Visits step s (i :: rest) t j

/-- A step is taken in the state a prefix of the run ends in. -/
theorem visits_iff (step : σ → ι → Except ε σ) (s t : σ) (is : List ι) (j : ι) :
    Visits step s is t j ↔
      ∃ before after, is = before ++ j :: after ∧ runSteps step s before = .ok t := by
  constructor
  · intro visit
    induction visit with
    | here u i rest => exact ⟨[], rest, rfl, rfl⟩
    | later moved _ ih =>
        obtain ⟨before, after, rfl, ends⟩ := ih
        refine ⟨_ :: before, after, rfl, ?_⟩
        rw [runSteps_cons, moved]
        exact ends
  · rintro ⟨before, after, rfl, ends⟩
    induction before generalizing s with
    | nil =>
        cases ends
        exact .here _ j after
    | cons i before ih =>
        rw [runSteps_cons, bind_eq_ok] at ends
        obtain ⟨s', moved, ends⟩ := ends
        exact .later moved (ih s' ends)

/-- Something of every step a run takes, read off by running it. -/
def trail (step : σ → ι → Except ε σ) (p : σ → ι → Prop) : σ → List ι → Prop
  | _, [] => True
  | s, i :: rest =>
      p s i ∧ match step s i with
        | .ok s' => trail step p s' rest
        | .error _ => True

instance decidableTrail (step : σ → ι → Except ε σ) (p : σ → ι → Prop)
    [∀ s i, Decidable (p s i)] : ∀ s is, Decidable (trail step p s is)
  | _, [] => isTrue trivial
  | s, i :: rest => by
      unfold trail
      cases step s i with
      | ok s' =>
          have := decidableTrail step p s' rest
          infer_instance
      | error e => infer_instance

/-- What holds along a run holds of each step that it takes, in the state in which it takes it.
-/
theorem trail_iff (step : σ → ι → Except ε σ) (p : σ → ι → Prop) (s : σ) (is : List ι) :
    trail step p s is ↔ ∀ t j, Visits step s is t j → p t j := by
  induction is generalizing s with
  | nil =>
      refine iff_of_true trivial ?_
      intro t j visit
      cases visit
  | cons i rest ih =>
      rw [trail]
      constructor
      · rintro ⟨first, later⟩ t j visit
        cases visit with
        | here => exact first
        | later moved visit =>
            rw [moved] at later
            exact (ih _).1 later t j visit
      · intro all
        refine ⟨all s i (.here s i rest), ?_⟩
        cases moved : step s i with
        | error e => trivial
        | ok s' => exact (ih s').2 fun t j visit => all t j (.later moved visit)

/-- What every step of the run preserves holds wherever one of its steps is taken. -/
theorem Visits.invariant {step : σ → ι → Except ε σ} {inv : σ → Prop} {s t : σ}
    {is : List ι} {j : ι} (visit : Visits step s is t j) (start : inv s)
    (preserved : ∀ u i, Visits step s is u i → inv u → Returns (step u i) inv) : inv t := by
  induction visit with
  | here => exact start
  | later moved _ ih =>
      refine ih (preserved _ _ (.here _ _ _) start _ moved) ?_
      intro u i visit
      exact preserved u i (.later moved visit)

/-- What every step of the run preserves holds wherever a prefix of it ends. -/
theorem runSteps_prefix_invariant {step : σ → ι → Except ε σ} {inv : σ → Prop} {s : σ}
    {is : List ι} (start : inv s)
    (preserved : ∀ u i, Visits step s is u i → inv u → Returns (step u i) inv)
    {before : List ι} (part : before <+: is) : Returns (runSteps step s before) inv := by
  induction before generalizing s is with
  | nil => exact (returns_ok s inv).2 start
  | cons i before ih =>
      obtain ⟨after, rfl⟩ := part
      rw [runSteps_cons, returns_bind]
      intro s' moved
      refine ih (preserved s i (.here s i _) start s' moved) ?_ (List.prefix_append before after)
      intro u k visit
      exact preserved u k (.later moved visit)

/-- What every step preserves holds wherever a run ends. -/
theorem runSteps_invariant {step : σ → ι → Except ε σ} {inv : σ → Prop}
    (preserved : ∀ s i, inv s → Returns (step s i) inv) {s : σ} (start : inv s)
    (is : List ι) : Returns (runSteps step s is) inv :=
  runSteps_prefix_invariant start (fun u i _ => preserved u i) (List.prefix_refl is)

/-- A run avoids a reason exactly when every step it takes does. -/
theorem runSteps_avoids_iff (e : ε) (step : σ → ι → Except ε σ) (s : σ) (is : List ι) :
    Avoids e (runSteps step s is) ↔ ∀ t j, Visits step s is t j → Avoids e (step t j) := by
  induction is generalizing s with
  | nil =>
      refine iff_of_true (avoids_ok e s) ?_
      intro t j visit
      cases visit
  | cons i rest ih =>
      rw [runSteps_cons, avoids_bind]
      constructor
      · rintro ⟨first, later⟩ t j visit
        cases visit with
        | here => exact first
        | later moved visit => exact (ih _).1 (later _ moved) t j visit
      · intro h
        refine ⟨h s i (.here s i rest), ?_⟩
        intro s' moved
        exact (ih s').2 fun t j visit => h t j (.later moved visit)

/-- When a step breaks what held, and only then: every prefix of a run ends well exactly when
no step it takes is a bad one. -/
theorem runSteps_prefix_returns_iff {step : σ → ι → Except ε σ} (inv : σ → Prop)
    {p : σ → Prop} {bad : σ → ι → Prop}
    (keeps : ∀ s i s', inv s → ¬ bad s i → step s i = .ok s' → inv s' ∧ p s')
    (breaks : ∀ s i, inv s → bad s i → ∃ s', step s i = .ok s' ∧ ¬ p s')
    {s : σ} (start : inv s) (holds : p s) (is : List ι) :
    (∀ before, before <+: is → Returns (runSteps step s before) p) ↔
      ∀ t j, Visits step s is t j → ¬ bad t j := by
  constructor
  · intro all t j visit
    -- the first bad step would be one of a run that ends well
    have good {u : σ} {i : ι} {rest : List ι} (held : inv u)
        (all : ∀ before, before <+: i :: rest → Returns (runSteps step u before) p) :
        ¬ bad u i := by
      intro broken
      obtain ⟨u', moved, lost⟩ := breaks u i held broken
      refine lost (all [i] ⟨rest, rfl⟩ u' ?_)
      rw [runSteps_cons, moved]
      rfl
    induction visit with
    | here u i rest => exact good start all
    | later moved visit ih =>
        obtain ⟨held, holds'⟩ := keeps _ _ _ start (good start all) moved
        refine ih held holds' ?_
        intro before part t' ran
        refine all (_ :: before) (List.cons_prefix_cons.2 ⟨rfl, part⟩) t' ?_
        rw [runSteps_cons, moved]
        exact ran
  · intro good before part
    have both : Returns (runSteps step s before) fun t => inv t ∧ p t := by
      refine runSteps_prefix_invariant ⟨start, holds⟩ ?_ part
      intro t j visit held t' moved
      exact keeps t j t' held.1 (good t j visit) moved
    exact both.mono fun t held => held.2

end CPUDelaySim
