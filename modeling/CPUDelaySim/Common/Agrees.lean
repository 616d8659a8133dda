import CPUDelaySim.Common.Outcome

/-!
# Two computations that end alike

A computation agrees with another one when both stop for the same reason or both return, and what
they return is related. Like `Returns` it has a rule for every way a computation is built, and a
rule for two step functions that run over the same inputs.

Nothing here mentions the simulator.
-/

namespace CPUDelaySim

variable {ε α β γ δ σ τ ι : Type}

/-- Both stop for one reason, or both return and the values are related. -/
inductive Agrees (R : α → β → Prop) : Except ε α → Except ε β → Prop
  | stops (e : ε) : Agrees R (.error e) (.error e)
  | returns {a : α} {b : β} (related : R a b) : Agrees R (.ok a) (.ok b)

variable {R : α → β → Prop} {S : γ → δ → Prop}

/-- Consequence. -/
theorem Agrees.mono {R' : α → β → Prop} {x : Except ε α} {y : Except ε β} (h : Agrees R x y)
    (weaken : ∀ a b, R a b → R' a b) : Agrees R' x y := by
  cases h with
  | stops e => exact .stops e
  | returns related => exact .returns (weaken _ _ related)

/-- Two sequences agree if their first parts do and the rest does on what those return. -/
theorem Agrees.bind {x : Except ε α} {y : Except ε β} {f : α → Except ε γ} {g : β → Except ε δ}
    (h : Agrees R x y) (rest : ∀ a b, R a b → Agrees S (f a) (g b)) :
    Agrees S (x >>= f) (y >>= g) := by
  cases h with
  | stops e => exact .stops e
  | returns related => exact rest _ _ related

/-- Steps that agree make runs that agree. -/
theorem agrees_runSteps {R : σ → τ → Prop} {step : σ → ι → Except ε σ}
    {step' : τ → ι → Except ε τ} {s : σ} {t : τ} (related : R s t) (is : List ι)
    (steps : ∀ s t, ∀ i ∈ is, R s t → Agrees R (step s i) (step' t i)) :
    Agrees R (runSteps step s is) (runSteps step' t is) := by
  induction is generalizing s t with
  | nil => exact .returns related
  | cons i rest ih =>
      refine (steps s t i List.mem_cons_self related).bind ?_
      intro a b related
      exact ih related fun s t j listed => steps s t j (List.mem_cons_of_mem i listed)

end CPUDelaySim
