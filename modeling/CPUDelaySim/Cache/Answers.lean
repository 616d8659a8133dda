import CPUDelaySim.Cache.System
import Mathlib.Data.List.Induction

/-!
# The answers a cache gives

The client is told about a lookup by a callback that carries the id of `lookup_req`, and
`lookup_req` is overwritten by every lookup the tick takes up.  What makes the answers right
is that a cache has at most one lookup it still owes an answer: the log says which
(`waiting`), and the members of the cache agree with it (`Tracks`).

`await` is what one event makes of the lookup that is owed, and `waiting` folds it over the log, so
that "the answer to its own lookup" is a statement about positions in the log (`Answers`) and not
about ids, which come round again.  `Owed` is the form that goes through an induction: every
answer in the log is one to the lookup owed at that moment.

`Tracks` carries the induction.  It holds in three steps of its own (`Tracks.ticks`,
`Tracks.moves`, `Tracks.tells`), which go by the relations of `Cache.Contract` and so serve both
caches.
-/

namespace CPUDelaySim

variable {O : Type}

/-! ### Logs -/

/-- An event that is between a cache and its parent. -/
def Event.ofParent : Event → Bool
  | .requested _ | .served _ => true
  | .accepted _ | .answered _ | .redirected => false

/-- Event `j` answers the lookup accepted by event `i`: it has the id of that lookup, and no
other lookup was accepted or answered in between, and no redirect made. -/
structure Answers (log : List Event) (i j : Nat) : Prop where
  before : i < j
  own : ∃ id, log[i]? = some (.accepted id) ∧ log[j]? = some (.answered id)
  between : ∀ k e, i < k → k < j → log[k]? = some e → e.ofParent = true

/-- A later lookup is accepted after the answer of an earlier one. -/
theorem Answers.lt_of_lt {log : List Event} {i j i' j' : Nat} (first : Answers log i j)
    (second : Answers log i' j') (earlier : i < i') : j < i' := by
  obtain ⟨id, -, answered⟩ := first.own
  obtain ⟨id', accepted, -⟩ := second.own
  by_contra late
  rcases Nat.lt_or_eq_of_le (Nat.le_of_not_lt late) with inside | same
  · cases first.between i' _ earlier inside accepted
  · rw [same, answered] at accepted
    cases accepted

/-- A lookup is answered once. -/
theorem Answers.unique {log : List Event} {i j j' : Nat} (first : Answers log i j)
    (second : Answers log i j') : j = j' := by
  have below {j j' : Nat} (first : Answers log i j) (second : Answers log i j') : ¬ j < j' := by
    intro less
    obtain ⟨id, -, answered⟩ := first.own
    cases second.between j _ first.before less answered
  have := below first second
  have := below second first
  omega

/-- An answer stays one as the log goes on. -/
theorem Answers.append {log : List Event} {i j : Nat} (answers : Answers log i j)
    (out : List Event) : Answers (log ++ out) i j := by
  obtain ⟨id, accepted, answered⟩ := answers.own
  have inside : j < log.length := by
    by_contra outside
    rw [List.getElem?_eq_none (by omega)] at answered
    cases answered
  have same (k : Nat) (le : k ≤ j) : (log ++ out)[k]? = log[k]? :=
    List.getElem?_append_left (by omega)
  refine ⟨answers.before, ⟨id, ?_, ?_⟩, ?_⟩
  · rw [same i (Nat.le_of_lt answers.before), accepted]
  · rw [same j (Nat.le_refl j), answered]
  · intro k e low high event
    rw [same k (Nat.le_of_lt high)] at event
    exact answers.between k e low high event

/-- Every answer is the answer to a lookup. -/
def Attributed (log : List Event) : Prop :=
  ∀ j id, log[j]? = some (.answered id) → ∃ i, Answers log i j

/-- The lookup that is owed an answer, after one more event. -/
def await (waiting : Option (BitVec 16)) : Event → Option (BitVec 16)
  | .accepted id => some id
  | .answered _ | .redirected => none
  | .requested _ | .served _ => waiting

/-- The id of the lookup that is owed an answer. -/
def waiting (log : List Event) : Option (BitVec 16) := log.foldl await none

/-- The request that waits, event by event. -/
@[simp] theorem waiting_append (log out : List Event) :
    waiting (log ++ out) = out.foldl await (waiting log) := List.foldl_append ..

/-- The lookup that is owed an answer was accepted, and since then the client was told
nothing and said nothing. -/
theorem waiting_eq_some {log : List Event} {id : BitVec 16} (owed : waiting log = some id) :
    ∃ i : Nat, log[i]? = some (.accepted id) ∧
      ∀ (k : Nat) (e : Event), i < k → log[k]? = some e → e.ofParent = true := by
  induction log using List.reverseRecOn with
  | nil => cases owed
  | append_singleton log e ih =>
      rw [waiting_append] at owed
      have last : (log ++ [e])[log.length]? = some e := List.getElem?_concat_length
      have older (pass : e.ofParent = true) (owed : waiting log = some id) :
          ∃ i : Nat, (log ++ [e])[i]? = some (.accepted id) ∧
            ∀ (k : Nat) (e' : Event), i < k → (log ++ [e])[k]? = some e' → e'.ofParent = true := by
        obtain ⟨i, accepted, since⟩ := ih owed
        have inside : i < log.length := (List.getElem?_eq_some_iff.1 accepted).1
        refine ⟨i, ?_, ?_⟩
        · rw [List.getElem?_append_left inside, accepted]
        · intro k e' later event
          by_cases old : k < log.length
          · rw [List.getElem?_append_left old] at event
            exact since k e' later event
          · have bound : k < (log ++ [e]).length := (List.getElem?_eq_some_iff.1 event).1
            have new : k = log.length := by simp at bound; omega
            rw [new, last] at event
            cases event
            exact pass
      cases e with
      | accepted id' =>
          cases owed
          refine ⟨log.length, last, ?_⟩
          intro k e' later event
          have bound := (List.getElem?_eq_some_iff.1 event).1
          simp at bound
          omega
      | answered id' => cases owed
      | redirected => cases owed
      | requested fetch => exact older rfl owed
      | served fetch => exact older rfl owed

/-- Events in which every answer is to the lookup that is owed one. -/
def Owed : Option (BitVec 16) → List Event → Prop
  | _, [] => True
  | waiting, e :: rest => (∀ id, e = .answered id → waiting = some id) ∧ Owed (await waiting e) rest

/-- One more event, which is an answer only to the request that waits. -/
theorem Attributed.concat {log : List Event} (attributed : Attributed log) (e : Event)
    (owed : ∀ id, e = .answered id → waiting log = some id) : Attributed (log ++ [e]) := by
  intro j id answered
  by_cases old : j < log.length
  · rw [List.getElem?_append_left old] at answered
    obtain ⟨i, answers⟩ := attributed j id answered
    exact ⟨i, answers.append [e]⟩
  · have bound := (List.getElem?_eq_some_iff.1 answered).1
    have new : j = log.length := by simp at bound; omega
    subst new
    rw [List.getElem?_concat_length] at answered
    obtain ⟨i, accepted, since⟩ := waiting_eq_some (owed id (Option.some.inj answered))
    have inside : i < log.length := (List.getElem?_eq_some_iff.1 accepted).1
    refine ⟨i, inside, ⟨id, ?_, ?_⟩, ?_⟩
    · rw [List.getElem?_append_left inside, accepted]
    · rw [List.getElem?_concat_length, answered]
    · intro k e' later early event
      rw [List.getElem?_append_left early] at event
      exact since k e' later event

/-- Several more events. -/
theorem Attributed.append {log out : List Event} (attributed : Attributed log)
    (owed : Owed (waiting log) out) : Attributed (log ++ out) := by
  induction out generalizing log with
  | nil => rwa [List.append_nil]
  | cons e rest ih =>
      rw [List.append_cons]
      refine ih (attributed.concat e owed.1) ?_
      rw [waiting_append]
      exact owed.2

/-- Telling the request that waits is owed. -/
theorem owed_told (id : BitVec 16) (reenters : Bool) : Owed (some id) (told id reenters) := by
  refine ⟨fun id' same => ?_, ?_⟩
  · cases same
    rfl
  · cases reenters with
    | false => trivial
    | true => exact ⟨nofun, trivial⟩

/-! ### What the cache remembers -/

namespace CacheSystem

/-- The lookup the log says is owed an answer is the one the cache holds. -/
structure Tracks (s : CacheSystem O) : Prop where
  asked : s.cache.idleReqValid = true → waiting s.log = some (s.cache.idleReq.id 0)
  missed : s.cache.state = .lookup ∧ s.cache.matched = false ∨ s.cache.state = .miss →
    waiting s.log = some (s.cache.lookupReq.id 0) ∧ s.cache.idleReqValid = false
  attributed : Attributed s.log

/-- At first nothing waits. -/
theorem start_tracks (p : CacheParams) (req : CacheReq) (own : O) :
    (start (.afterLoad p req own)).Tracks where
  asked := nofun
  missed := nofun
  attributed := nofun

/-- A tick takes up a request, answers the one it has, or does neither. -/
theorem Tracks.ticks {p : CacheParams} {accepts reenters : Bool} {s : CacheSystem O}
    {cache : CacheState O} {out : List Event} (inv : s.Tracks)
    (ticks : s.cache.Ticks p accepts reenters cache out) (requests : List (Fetch × Nat)) :
    Tracks { s with cache := cache, outstanding := requests, log := s.log ++ out } := by
  cases ticks with
  | flushed num on =>
      rw [List.append_nil]
      exact ⟨inv.asked, inv.missed, inv.attributed⟩
  | stays off resting =>
      rw [List.append_nil]
      exact ⟨inv.asked, inv.missed, inv.attributed⟩
  | hit req state own off ready waiting id found next =>
      refine ⟨nofun, ?_, ?_⟩
      · rcases next with rfl | rfl <;> nofun
      · refine inv.attributed.append ?_
        rw [inv.asked waiting]
        exact owed_told ..
  | missed req own off ready waiting id addr absent =>
      rw [List.append_nil]
      refine ⟨nofun, fun _ => ⟨?_, rfl⟩, inv.attributed⟩
      rw [id]
      exact inv.asked waiting
  | held req off state unmatched id why =>
      rw [List.append_nil]
      refine ⟨inv.asked, fun h => ?_, inv.attributed⟩
      rw [id]
      exact inv.missed h
  | sent req own off state unmatched clear taken id =>
      -- What is sent is the request that waits, and `lookup_req` still has its id.
      have before := inv.missed (.inl ⟨state, unmatched⟩)
      refine ⟨?_, fun _ => ?_, inv.attributed.append ⟨nofun, trivial⟩⟩
      · intro valid
        rw [before.2] at valid
        cases valid
      · rw [waiting_append, id]
        exact before
  | done state valid tagvs off answered next dropped kept =>
      rw [List.append_nil]
      refine ⟨fun h => inv.asked (dropped h), ?_, inv.attributed⟩
      rcases next with rfl | rfl <;> nofun

/-- Every step of the cache system keeps track of the request that waits. -/
theorem Tracks.moves {p : CacheParams} {c : Cache O} {inCallback : O → Bool} {strays : Bool}
    {s s' : CacheSystem O} {j : CacheStep} (inv : s.Tracks) (one : s.OneRequest)
    (moved : s.Moves p c inCallback strays j s') : s'.Tracks := by
  cases moved with
  | refused req => exact inv
  | accepted req off ready =>
      refine ⟨fun _ => ?_, ?_, inv.attributed.append ⟨nofun, trivial⟩⟩
      · rw [waiting_append]
        rfl
      · rintro (⟨looking, unmatched⟩ | miss) <;> rcases ready with at_ | ⟨at_, matched⟩ <;>
          simp_all
  | flushed num ran => exact ⟨inv.asked, inv.missed, inv.attributed⟩
  | redirected => exact ⟨nofun, nofun, inv.attributed.append ⟨nofun, trivial⟩⟩
  | ticked accepts reenters cache out ran ticks => exact inv.ticks ticks _
  | answered index reenters fetch flushes cache out owed ran fills =>
      have requests : s.outstanding ≠ [] := by
        rw [(one.eraseIdx owed).1]
        nofun
      have served : Attributed (s.log ++ [.served fetch]) := inv.attributed.append ⟨nofun, trivial⟩
      cases fills with
      | cancelled tagvs own wait installs =>
          refine ⟨?_, ?_, served⟩
          · rw [waiting_append]
            exact inv.asked
          · rw [waiting_append]
            exact inv.missed
      | delivered tagvs own state wait valid clear installs next why dropped =>
          -- An answer that is not cancelled finds the cache in its miss.
          have miss : s.cache.state = .miss := by
            refine (one.owed requests).resolve_right ?_
            rw [clear]
            nofun
          obtain ⟨waits, none⟩ := inv.missed (.inr miss)
          refine ⟨?_, ?_, ?_⟩
          · intro h
            rw [dropped h] at none
            cases none
          · rcases next with rfl | rfl <;> nofun
          · rw [List.append_cons]
            refine served.append ?_
            rw [waiting_append, waits]
            exact owed_told ..

/-- A tick or an answer of the parent tells the client at most one thing: what it is owed. -/
theorem Tracks.tells {p : CacheParams} {c : Cache O} {inCallback : O → Bool} {strays : Bool}
    {s s' : CacheSystem O} {j : CacheStep} (inv : s.Tracks) (one : s.OneRequest)
    (moved : s.Moves p c inCallback strays j s')
    (which : (∃ accepts, j = .tick accepts false) ∨ ∃ index, j = .answer index false) :
    ∃ out, (∀ e ∈ out, e.ofParent = true) ∧
      (s'.log = s.log ++ out ∨
        ∃ id, waiting s.log = some id ∧ s'.log = s.log ++ (out ++ [.answered id])) := by
  cases moved with
  | refused req | accepted req off ready | flushed num ran | redirected =>
      rcases which with ⟨_, other⟩ | ⟨_, other⟩ <;> cases other
  | ticked accepts reenters cache out ran ticks =>
      have silent : reenters = false := by
        rcases which with ⟨_, same⟩ | ⟨_, same⟩ <;> cases same
        rfl
      subst silent
      cases ticks with
      | hit req state own off ready waiting id found next =>
          exact ⟨[], nofun, .inr ⟨_, inv.asked waiting, rfl⟩⟩
      | sent req own off state unmatched clear taken id =>
          refine ⟨_, ?_, .inl rfl⟩
          intro e mem
          rw [List.mem_singleton.1 mem]
          rfl
      | _ => exact ⟨[], nofun, .inl rfl⟩
  | answered index reenters fetch flushes cache out owed ran fills =>
      have silent : reenters = false := by
        rcases which with ⟨_, same⟩ | ⟨_, same⟩ <;> cases same
        rfl
      subst silent
      have quiet : ∀ e ∈ [Event.served fetch], e.ofParent = true := by
        intro e mem
        rw [List.mem_singleton.1 mem]
        rfl
      cases fills with
      | cancelled tagvs own wait installs => exact ⟨_, quiet, .inl rfl⟩
      | delivered tagvs own state wait valid clear installs next why dropped =>
          have requests : s.outstanding ≠ [] := by
            rw [(one.eraseIdx owed).1]
            nofun
          have miss : s.cache.state = .miss := by
            refine (one.owed requests).resolve_right ?_
            rw [clear]
            nofun
          exact ⟨_, quiet, .inr ⟨_, (inv.missed (.inr miss)).1, rfl⟩⟩

/-- Nothing a cache does is misattributed. -/
structure Orderly (s : CacheSystem O) : Prop where
  /-- At most one request is outstanding. -/
  one : s.outstanding.length ≤ 1
  /-- Every answer has the id of a lookup accepted before it, with no redirect between. -/
  answers : Attributed s.log
  /-- A lookup is answered once. -/
  once : ∀ i j j', Answers s.log i j → Answers s.log i j' → j = j'
  /-- Answers come in the order of the lookups. -/
  order : ∀ i j i' j', Answers s.log i j → Answers s.log i' j' → i < i' → j < j'

/-- A cache that keeps the contract is orderly in every run. -/
theorem contract_orderly {p : CacheParams} {c : Cache O} {inCallback : O → Bool} {strays : Bool}
    {wrap : Int → Int} (contract : c.Contract p inCallback strays wrap) (req : CacheReq) (own : O)
    (steps : List CacheStep) :
    Returns (runSteps (step c) (start (.afterLoad p req own)) steps) Orderly := by
  have kept : Returns (runSteps (step c) (start (.afterLoad p req own)) steps)
      fun s => s.OneRequest ∧ s.Tracks := by
    refine runSteps_invariant ?_ ⟨start_oneRequest p req own, start_tracks p req own⟩ steps
    intro s j inv s' moved
    have moves := step_moves contract moved
    exact ⟨inv.1.moves moves, inv.2.moves inv.1 moves⟩
  refine kept.mono fun s inv => ⟨inv.1.one, inv.2.attributed, ?_, ?_⟩
  · intro i j j' first second
    exact first.unique second
  · intro i j i' j' first second earlier
    exact Nat.lt_trans (first.lt_of_lt second earlier) second.before

/-- Whatever the order of steps, both caches give every answer to its own lookup: at most one
request is out, the answers come in the order in which the lookups were accepted, each once and
with the id it was asked with, and none comes for a lookup from before a redirect. The steps may
come in any order, and the client may call `redirect` from the middle of an answer; `OneRequest`
and `Tracks` carry the proof. -/
theorem caches_orderly (p : CacheParams) (steps : List CacheStep) :
    Returns (runSteps (step (iCache p)) (start (ICache.afterLoad p)) steps) Orderly ∧
      Returns (runSteps (step (dCache p)) (start (DCache.afterLoad p)) steps) Orderly :=
  ⟨contract_orderly (iCache_contract p) _ _ steps, contract_orderly (dCache_contract p) _ _ steps⟩

end CacheSystem

end CPUDelaySim
