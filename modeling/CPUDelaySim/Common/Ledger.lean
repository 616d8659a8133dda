import Mathlib.Tactic.Common

/-!
# Requests opened and closed

The log of a server that holds at most one request at a time, seen as marks: a request is
opened, a request is closed, the clock advances.  `follow` reads such a log and keeps the open
request with its age; `served_of_follow` says what a log it accepts promises.

Nothing here mentions the simulator.
-/

namespace CPUDelaySim

/-- How an event bears on a server. -/
inductive Mark (R : Type)
  | opened (request : R)
  | closed (request : R)
  | clock
  | other

namespace Mark

variable {R : Type}

/-- Neither opens nor closes a request. -/
def Quiet : Mark R → Prop
  | opened _ | closed _ => False
  | clock | other => True

/-- Time goes on. -/
def isClock : Mark R → Bool
  | clock => true
  | _ => false

/-- How often the clock advances. -/
def clocks (log : List (Mark R)) : Nat := log.countP isClock

/-- Requests are closed once, by their own answer, and not left open. -/
structure Served (bound : Nat) (log : List (Mark R)) : Prop where
  /-- What is closed was opened before, with nothing opened or closed in between. -/
  closed : ∀ before request after, log = before ++ .closed request :: after →
    ∃ earlier between, before = earlier ++ .opened request :: between ∧ ∀ e ∈ between, e.Quiet
  /-- What was opened `bound` clocks ago is closed, with nothing opened or closed in
  between. -/
  opened : ∀ before request after, log = before ++ .opened request :: after →
    bound ≤ clocks after →
    ∃ between later, after = between ++ .closed request :: later ∧ ∀ e ∈ between, e.Quiet

variable [DecidableEq R]

/-- The open request and its age after one more event; nothing, if a second request is opened
or another one than the open one is closed. -/
def follow (held : Option (R × Nat)) : Mark R → Option (Option (R × Nat))
  | opened request =>
      match held with
      | none => some (some (request, 0))
      | some _ => none
  | closed request =>
      match held with
      | none => none
      | some (request', _) => if request' = request then some none else none
  | clock => some (held.map fun (request, age) => (request, age + 1))
  | other => some held

/-- The event before which a request is open is the one that opened it, or it was open all
along. -/
theorem exists_opened {log : List (Mark R)} {held : Option (R × Nat)} {request : R} {age : Nat}
    (ran : log.foldlM follow held = some (some (request, age))) :
    (∃ earlier between, log = earlier ++ .opened request :: between ∧ ∀ e ∈ between, e.Quiet) ∨
      (∃ age, held = some (request, age)) ∧ ∀ e ∈ log, e.Quiet := by
  induction log generalizing held with
  | nil =>
      cases ran
      exact .inr ⟨⟨age, rfl⟩, nofun⟩
  | cons e log ih =>
      rw [List.foldlM_cons] at ran
      obtain ⟨held', followed, ran⟩ := Option.bind_eq_some_iff.1 ran
      rcases ih ran with ⟨earlier, between, split, quiet⟩ | ⟨⟨age', same⟩, quiet⟩
      · refine .inl ⟨e :: earlier, between, ?_, quiet⟩
        rw [split]
        rfl
      subst same
      have later (silent : e.Quiet) : ∀ e' ∈ e :: log, e'.Quiet :=
        List.forall_mem_cons.2 ⟨silent, quiet⟩
      cases e with
      | opened request' =>
          cases held with
          | some open_ => cases followed
          | none =>
              cases followed
              exact .inl ⟨[], log, rfl, quiet⟩
      | closed request' =>
          rcases held with _ | ⟨open_, age⟩
          · cases followed
          · dsimp only [follow] at followed
            split at followed <;> cases followed
      | clock =>
          rcases held with _ | ⟨open_, age⟩ <;> cases followed
          exact .inr ⟨⟨age, rfl⟩, later trivial⟩
      | other =>
          cases followed
          exact .inr ⟨⟨age', rfl⟩, later trivial⟩

/-- An open request is closed next, or still open and older by the clocks that went by. -/
theorem exists_closed {log : List (Mark R)} {held : Option (R × Nat)} {request : R} {age : Nat}
    (ran : log.foldlM follow (some (request, age)) = some held) :
    (∃ between later, log = between ++ .closed request :: later ∧ ∀ e ∈ between, e.Quiet) ∨
      held = some (request, age + clocks log) := by
  induction log generalizing age with
  | nil =>
      cases ran
      exact .inr rfl
  | cons e log ih =>
      rw [List.foldlM_cons] at ran
      obtain ⟨held', followed, ran⟩ := Option.bind_eq_some_iff.1 ran
      have later {age' : Nat} (ran : log.foldlM follow (some (request, age')) = some held)
          (silent : e.Quiet) (older : age' + clocks log = age + clocks (e :: log)) :
          (∃ between later, e :: log = between ++ .closed request :: later ∧
            ∀ e ∈ between, e.Quiet) ∨ held = some (request, age + clocks (e :: log)) := by
        rcases ih ran with ⟨between, later, split, quiet⟩ | still
        · refine .inl ⟨e :: between, later, ?_, List.forall_mem_cons.2 ⟨silent, quiet⟩⟩
          rw [split]
          rfl
        · rw [still, older]
          exact .inr rfl
      cases e with
      | opened request' => cases followed
      | closed request' =>
          dsimp only [follow] at followed
          split at followed
          · rename_i same
            subst same
            cases followed
            exact .inl ⟨[], log, rfl, nofun⟩
          · cases followed
      | clock =>
          cases followed
          refine later ran trivial ?_
          rw [clocks, clocks, List.countP_cons_of_pos rfl]
          omega
      | other =>
          cases followed
          exact later ran trivial rfl

/-- A log that can be followed, and leaves no request open for as long as `bound`. -/
theorem served_of_follow {bound : Nat} {log : List (Mark R)} {held : Option (R × Nat)}
    (ran : log.foldlM follow none = some held)
    (young : ∀ request age, held = some (request, age) → age < bound) : Served bound log := by
  constructor
  · rintro before request after rfl
    rw [List.foldlM_append] at ran
    obtain ⟨open_, first, rest⟩ := Option.bind_eq_some_iff.1 ran
    rw [List.foldlM_cons] at rest
    obtain ⟨closed, followed, -⟩ := Option.bind_eq_some_iff.1 rest
    rcases open_ with _ | ⟨request', age⟩
    · cases followed
    · dsimp only [follow] at followed
      split at followed
      · rename_i same
        subst same
        rcases exists_opened first with opened | ⟨⟨age, along⟩, -⟩
        · exact opened
        · cases along
      · cases followed
  · rintro before request after rfl late
    rw [List.foldlM_append] at ran
    obtain ⟨open_, -, rest⟩ := Option.bind_eq_some_iff.1 ran
    rw [List.foldlM_cons] at rest
    obtain ⟨opened, followed, rest⟩ := Option.bind_eq_some_iff.1 rest
    cases open_ with
    | some held => cases followed
    | none =>
        cases followed
        rcases exists_closed rest with closed | still
        · exact closed
        · have := young _ _ still
          omega

end Mark

end CPUDelaySim
