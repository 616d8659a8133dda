import Mathlib.Data.List.Nodup
import Mathlib.Logic.Relation
import Mathlib.Tactic.Common

/-!
# The end of a run

`ExitHandler::exit` of `common/exithandler.cpp`, `clearGlobal` and `main` of `main.cpp` and
`DBHandler::closeDB` of `common/dbhandler.cpp`, as calls on a stack.  In the body of
`ExitHandler::exit` the name `exit` is that of the class, so the call behind its loop is a call of
itself and not of the C library: once entered, it never ends (`exits_never_ends`).
-/

namespace CPUDelaySim

/-- The calls at the end of a run. -/
inductive ShutdownCall
  /-- `ExitHandler::exit`. -/
  | exit (code : Int)
  /-- The handler with this number. -/
  | handler (number : Nat) (code : Int)
  | clearGlobal
  /-- `Stats::writeback`. -/
  | writeback
  | closeDB
  /-- `pool.wait()`. -/
  | waitPool
  /-- `LogDB::close`. -/
  | close (db : Nat)
  | delete (db : Nat)
  /-- `spdlog::shutdown`. -/
  | shutdown
  /-- The line that `clearGlobal` prints. -/
  | print
  deriving DecidableEq, Repr

/-- What can be seen of the shutdown from outside. -/
inductive ShutdownEvent
  | ran (handler : Nat) | closed (db : Nat) | deleted (db : Nat)
  deriving DecidableEq, Repr

/-- What the program has registered: the calls that each handler makes, and the databases, each by
its constructor. -/
structure Registered where
  handlers : List (List ShutdownCall)
  dbs : List Nat
  distinct : dbs.Nodup

/-- A use of a database that was deleted. -/
inductive UseAfterFree
  | close (db : Nat) | delete (db : Nat)
  deriving DecidableEq, Repr

/-- The calls that are left to make, the next one first. -/
structure Shutdown where
  stack : List ShutdownCall
  alive : List Nat
  events : List ShutdownEvent
  deriving DecidableEq, Repr

namespace Shutdown

/-- What a call calls. -/
def body (r : Registered) : ShutdownCall → List ShutdownCall
  | .exit code => (List.range r.handlers.length).map (.handler · code) ++ [.exit code]
  | .handler number _ => r.handlers.getD number []
  | .clearGlobal => [.writeback, .closeDB, .shutdown, .print]
  | .closeDB => .waitPool :: r.dbs.flatMap fun db => [.close db, .delete db]
  | _ => []

/-- One call more. -/
def step (r : Registered) (s : Shutdown) : Except UseAfterFree Shutdown :=
  match s.stack with
  | [] => .ok s
  | call :: rest =>
      let s := { s with stack := body r call ++ rest }
      match call with
      | .handler number _ => .ok { s with events := s.events ++ [.ran number] }
      | .close db =>
          if db ∈ s.alive then .ok { s with events := s.events ++ [.closed db] }
          else .error (.close db)
      | .delete db =>
          if db ∈ s.alive then
            .ok { s with alive := s.alive.erase db, events := s.events ++ [.deleted db] }
          else .error (.delete db)
      | _ => .ok s

/-- The calls make one state another. -/
def Reaches (r : Registered) : Shutdown → Shutdown → Prop :=
  Relation.ReflTransGen fun s t => s.step r = .ok t

/-- How a run ends: `main` after its loop, or an error path. -/
inductive Way
  | finished | exits (code : Int)
  deriving DecidableEq, Repr

/-- The end of a run, with all databases open. -/
def start (r : Registered) : Way → Shutdown
  | .finished => ⟨[.clearGlobal], r.dbs, []⟩
  | .exits code => ⟨[.exit code], r.dbs, []⟩

/-- All calls return, each handler ran once, and each database was closed and deleted once. -/
def RunsOnce (r : Registered) (way : Way) : Prop :=
  ∃ t, Reaches r (start r way) t ∧ t.stack = [] ∧
    (∀ number < r.handlers.length, t.events.count (.ran number) = 1) ∧
    ∀ db ∈ r.dbs, t.events.count (.closed db) = 1 ∧ t.events.count (.deleted db) = 1

/-! ### An exit never ends -/

section Steps

variable {r : Registered} {s t : Shutdown} {code : Int}

/-- The call on top is replaced by what it calls. -/
theorem step_cons {call : ShutdownCall} {rest : List ShutdownCall} (next : s.stack = call :: rest)
    (moved : s.step r = .ok t) : t.stack = body r call ++ rest := by
  rw [step, next] at moved
  cases call with
  | close db | delete db =>
      dsimp only at moved
      split at moved
      · cases moved
        rfl
      · cases moved
  | _ =>
      cases moved
      rfl

/-- A call of `ExitHandler::exit` stays on the stack: the last thing it does is to call itself. -/
theorem step_exit_mem (waits : .exit code ∈ s.stack) (moved : s.step r = .ok t) :
    .exit code ∈ t.stack := by
  cases stack : s.stack with
  | nil =>
      rw [stack] at waits
      cases waits
  | cons call rest =>
      rw [step_cons stack moved]
      rw [stack] at waits
      rcases List.mem_cons.1 waits with here | later
      · subst here
        refine List.mem_append_left _ ?_
        exact List.mem_append_right _ List.mem_cons_self
      · exact List.mem_append_right _ later

/-- `ExitHandler::exit` does not return. -/
theorem exits_never_ends (reaches : Reaches r (start r (.exits code)) t) : t.stack ≠ [] := by
  have waits : .exit code ∈ t.stack := by
    induction reaches with
    | refl => exact List.mem_cons_self
    | tail _ moved ih => exact step_exit_mem ih moved
  exact List.ne_nil_of_mem waits

/-! ### The end of `main` -/

/-- The calls `main` leads to never include a handler. -/
def Plain : ShutdownCall → Prop
  | .exit _ | .handler _ _ => False
  | _ => True

/-- A plain call makes plain calls only. -/
theorem body_plain {call : ShutdownCall} (plain : Plain call) : ∀ c ∈ body r call, Plain c := by
  cases call with
  | exit | handler => exact plain.elim
  | clearGlobal => simp [body, Plain]
  | closeDB =>
      intro c member
      rcases List.mem_cons.1 member with rfl | member
      · trivial
      · obtain ⟨db, -, member⟩ := List.mem_flatMap.1 member
        rcases List.mem_pair.1 member with rfl | rfl
        · trivial
        · trivial
  | _ => exact fun c member => absurd member List.not_mem_nil

/-- A call that is no handler runs none. -/
theorem step_ran {call : ShutdownCall} {rest : List ShutdownCall} (next : s.stack = call :: rest)
    (plain : Plain call) (moved : s.step r = .ok t) {number : Nat}
    (ran : .ran number ∈ t.events) : .ran number ∈ s.events := by
  rw [step, next] at moved
  cases call with
  | exit | handler => exact plain.elim
  | close db | delete db =>
      dsimp only at moved
      split at moved
      · cases moved
        rcases List.mem_append.1 ran with before | now
        · exact before
        · cases List.mem_singleton.1 now
      · cases moved
  | _ =>
      cases moved
      exact ran

/-- After its loop `main` runs no handler. -/
theorem finished_runs_none (reaches : Reaches r (start r .finished) t) :
    (∀ c ∈ t.stack, Plain c) ∧ ∀ number, .ran number ∉ t.events := by
  induction reaches with
  | refl =>
      refine ⟨fun c member => ?_, fun number => List.not_mem_nil⟩
      rw [List.mem_singleton.1 member]
      trivial
  | @tail u v _ moved ih =>
      obtain ⟨plain, unran⟩ := ih
      cases stack : u.stack with
      | nil =>
          rw [step, stack] at moved
          cases moved
          exact ⟨plain, unran⟩
      | cons call rest =>
          rw [stack] at plain
          have here := plain call List.mem_cons_self
          refine ⟨fun c member => ?_,
            fun number ran => unran number (step_ran stack here moved ran)⟩
          rw [step_cons stack moved, List.mem_append] at member
          rcases member with inner | later
          · exact body_plain here c inner
          · exact plain c (List.mem_cons_of_mem _ later)

/-- What closing some databases leaves in the log. -/
def closes (dbs : List Nat) : List ShutdownEvent := dbs.flatMap fun db => [.closed db, .deleted db]

/-- The loop of `closeDB` over databases that are all open. -/
theorem reaches_closes (dbs : List Nat) (rest : List ShutdownCall) (events : List ShutdownEvent) :
    Reaches r ⟨(dbs.flatMap fun db => [.close db, .delete db]) ++ rest, dbs, events⟩
      ⟨rest, [], events ++ closes dbs⟩ := by
  induction dbs generalizing events with
  | nil =>
      have none : events ++ closes [] = events := List.append_nil events
      rw [none]
      exact .refl
  | cons db dbs ih =>
      have here : db ∈ db :: dbs := List.mem_cons_self
      have closed : step r ⟨.close db :: .delete db ::
          (dbs.flatMap fun db => [.close db, .delete db]) ++ rest, db :: dbs, events⟩ =
            .ok ⟨.delete db :: (dbs.flatMap fun db => [.close db, .delete db]) ++ rest, db :: dbs,
              events ++ [.closed db]⟩ := if_pos here
      have deleted : step r ⟨.delete db :: (dbs.flatMap fun db => [.close db, .delete db]) ++ rest,
          db :: dbs, events ++ [.closed db]⟩ =
            .ok ⟨(dbs.flatMap fun db => [.close db, .delete db]) ++ rest, dbs,
              events ++ [.closed db] ++ [.deleted db]⟩ := by
        refine (if_pos here).trans ?_
        rw [List.erase_cons_head]
        rfl
      refine Relation.ReflTransGen.head closed (Relation.ReflTransGen.head deleted ?_)
      have others := ih (events ++ [.closed db] ++ [.deleted db])
      have log : events ++ [.closed db] ++ [.deleted db] ++ closes dbs =
          events ++ closes (db :: dbs) := by
        rw [List.append_assoc, List.append_assoc]
        rfl
      rw [log] at others
      exact others

/-- After its loop `main` closes and deletes the databases. -/
theorem finished_reaches (r : Registered) :
    Reaches r (start r .finished) ⟨[], [], closes r.dbs⟩ := by
  have before : Reaches r (start r .finished)
      ⟨(r.dbs.flatMap fun db => [.close db, .delete db]) ++ [.shutdown, .print], r.dbs, []⟩ :=
    .head rfl (.head rfl (.head rfl (.head rfl .refl)))
  have after : Reaches r ⟨[.shutdown, .print], [], closes r.dbs⟩ ⟨[], [], closes r.dbs⟩ :=
    .head rfl (.head rfl .refl)
  exact (before.trans (reaches_closes r.dbs _ [])).trans after

/-- Each database is closed and deleted once. -/
theorem count_closes (dbs : List Nat) (db : Nat) :
    (closes dbs).count (.closed db) = dbs.count db ∧
      (closes dbs).count (.deleted db) = dbs.count db := by
  induction dbs with
  | nil => exact ⟨rfl, rfl⟩
  | cons first dbs ih =>
      have parts : closes (first :: dbs) = [.closed first, .deleted first] ++ closes dbs := rfl
      rw [parts, List.count_append, List.count_append, ih.1, ih.2, List.count_cons]
      by_cases same : first = db
      · subst same
        simp
        omega
      · simp [same]

/-- One round of an exit with the handler of `main`. -/
theorem reaches_round (only : r.handlers = [[.clearGlobal]]) (alive : List Nat)
    (events : List ShutdownEvent) :
    Reaches r ⟨[.exit code], alive, events⟩
      ⟨(r.dbs.flatMap fun db => [.close db, .delete db]) ++ [.shutdown, .print, .exit code],
        alive, events ++ [.ran 0]⟩ := by
  obtain ⟨handlers, dbs, distinct⟩ := r
  obtain rfl : handlers = [[.clearGlobal]] := only
  exact .head rfl (.head rfl (.head rfl (.head rfl (.head rfl (.head rfl .refl)))))

/-- With the handler of `main` the second round of an exit closes a database that is gone. -/
theorem exits_useAfterFree {db : Nat} {dbs : List Nat} (only : r.handlers = [[.clearGlobal]])
    (some : r.dbs = db :: dbs) :
    ∃ t, Reaches r (start r (.exits code)) t ∧ t.step r = .error (.close db) := by
  have first : Reaches r (start r (.exits code)) ⟨[.exit code], [], [.ran 0] ++ closes r.dbs⟩ :=
    ((reaches_round only r.dbs []).trans (reaches_closes r.dbs _ _)).trans
      (.head rfl (.head rfl .refl))
  refine ⟨_, first.trans (reaches_round only [] _), ?_⟩
  rw [some]
  rfl

end Steps

/-- Each handler and each database has its turn once if and only if `main` gets to the end of
its loop and there is no handler. The call `exit(code)` inside `ExitHandler::exit` is found in
the class, so it calls itself and the handlers run again; and at the end of its loop `main`
calls `clearGlobal` and no handler. -/
theorem runsOnce_iff (r : Registered) (way : Way) :
    RunsOnce r way ↔ way = .finished ∧ r.handlers = [] := by
  constructor
  · rintro ⟨t, reaches, done, ran, -⟩
    cases way with
    | exits code => exact absurd done (exits_never_ends reaches)
    | finished =>
        refine ⟨rfl, List.length_eq_zero_iff.1 ?_⟩
        by_contra some
        have first := ran 0 (Nat.pos_of_ne_zero some)
        rw [List.count_eq_zero_of_not_mem ((finished_runs_none reaches).2 0)] at first
        cases first
  · rintro ⟨rfl, none⟩
    refine ⟨_, finished_reaches r, rfl, ?_, fun db member => ?_⟩
    · rw [none]
      exact fun number low => absurd low (Nat.not_lt_zero number)
    · have once := List.count_eq_one_of_mem r.distinct member
      exact ⟨(count_closes r.dbs db).1.trans once, (count_closes r.dbs db).2.trans once⟩

/-- The handler of `main`, and a database. -/
def mainHandler : Registered := ⟨[[.clearGlobal]], [0], List.nodup_singleton 0⟩

/-- Both ways to end fail: an exit does not return, and `main` does not run its handler. -/
theorem not_runsOnce_mainHandler :
    ¬ RunsOnce mainHandler (.exits 1) ∧ ¬ RunsOnce mainHandler .finished := by
  refine ⟨?_, ?_⟩
  · rintro ⟨t, reaches, done, -⟩
    exact exits_never_ends reaches done
  · rintro ⟨t, reaches, -, ran, -⟩
    have first := ran 0 (Nat.one_pos)
    rw [List.count_eq_zero_of_not_mem ((finished_runs_none reaches).2 0)] at first
    cases first

end Shutdown

end CPUDelaySim
