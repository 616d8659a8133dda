import Mathlib.Data.List.Induction
import Mathlib.Data.List.Infix
import Mathlib.Data.List.Nodup
import Mathlib.Data.List.Perm.Subperm
import Mathlib.Data.Nat.ModEq

/-!
# Rings of recycled records

`LinkList<T>` of `common/linklist.h`: nodes linked into a ring, of which the ones from `head`
up to `tail` are in use.  A list stores pointers that are pushed once, before it is used, and
then handed out by `next` and taken back by `pop`; so a pointer is named here by the number
of pushes before its own, which is also the number of its node.

`next` and `pop` never look at the other end.  As long as fewer pointers are in use than the
ring has nodes, the ring is a queue: `Queue`.
-/

namespace CPUDelaySim

/-- `LinkList<T>`.  With no node the pointers are null. -/
structure LinkList where
  count : Nat
  /-- `LinkNode::next`. -/
  link : Nat → Nat
  head : Nat
  tail : Nat
  sizeTail : Nat

namespace LinkList

/-- The list `LinkList()` makes. -/
def new : LinkList := ⟨0, fun _ => 0, 0, 0, 0⟩

/-- `LinkList::push`. -/
def push (l : LinkList) : LinkList :=
  let node := l.count
  if l.count = 0 then
    { count := 1, head := node, sizeTail := node, tail := node
      link := Function.update l.link node node }
  else
    { l with
      count := l.count + 1
      sizeTail := node
      link := Function.update (Function.update l.link l.sizeTail node) node l.head }

/-- The list after `n` calls of `push`. -/
def pushes : Nat → LinkList
  | 0 => new
  | n + 1 => (pushes n).push

/-- `LinkList::front`. -/
def front (l : LinkList) : Nat := l.head

/-- `LinkList::back`. -/
def back (l : LinkList) : Nat := l.tail

/-- `LinkList::next`. -/
def next (l : LinkList) : Nat × LinkList := (l.tail, { l with tail := l.link l.tail })

/-- `LinkList::pop`. -/
def pop (l : LinkList) : Nat × LinkList := (l.head, { l with head := l.link l.head })

/-- `LinkList::empty`. -/
def empty (l : LinkList) : Bool := l.head == l.tail

/-- `LinkList::full`. -/
def full (l : LinkList) : Bool := l.link l.tail == l.head

/-- `LinkList::one`. -/
def one (l : LinkList) : Bool := l.link l.head == l.tail

/-- After its `push_back`s the list is a ring of its nodes in order. -/
theorem pushes_succ (n : Nat) :
    (pushes (n + 1)).count = n + 1 ∧ (pushes (n + 1)).head = 0 ∧ (pushes (n + 1)).tail = 0 ∧
      (pushes (n + 1)).sizeTail = n ∧
      ∀ i ≤ n, (pushes (n + 1)).link i = if i = n then 0 else i + 1 := by
  induction n with
  | zero =>
      refine ⟨rfl, rfl, rfl, rfl, ?_⟩
      intro i bound
      obtain rfl := Nat.le_zero.1 bound
      rfl
  | succ n ih =>
      obtain ⟨count, head, tail, sizeTail, link⟩ := ih
      rw [pushes, push, if_neg (by omega)]
      refine ⟨by rw [count], head, tail, count, ?_⟩
      intro i bound
      simp only [count, head, sizeTail]
      by_cases new : i = n + 1
      · rw [new, Function.update_self, if_pos rfl]
      · rw [Function.update_of_ne new, if_neg new]
        by_cases last : i = n
        · rw [last, Function.update_self]
        · rw [Function.update_of_ne last, link i (by omega), if_neg last]

/-! ### The ring as a queue -/

/-- The node `k` steps after `i` in a ring of `n`. -/
def after (n i k : Nat) : Nat := (i + k) % n

/-- Going round stays inside. -/
theorem after_lt {n : Nat} (pos : 0 < n) (i k : Nat) : after n i k < n := Nat.mod_lt _ pos

/-- Nodes less than a round apart are different. -/
theorem after_inj {n i j k : Nat} (low : j < n) (low' : k < n)
    (same : after n i j = after n i k) : j = k := by
  have close : j ≡ k [MOD n] := Nat.ModEq.add_left_cancel' i same
  rwa [Nat.ModEq, Nat.mod_eq_of_lt low, Nat.mod_eq_of_lt low'] at close

/-- A ring of `n` nodes that has handed out the nodes `queue`, oldest first, and has one to
spare. -/
structure Queue (n : Nat) (l : LinkList) (queue : List Nat) : Prop where
  link : ∀ i < n, l.link i = after n i 1
  head : l.head < n
  tail : l.tail = after n l.head queue.length
  nodes : queue = (List.range queue.length).map (after n l.head)
  room : queue.length < n

/-- At first the queue is empty. -/
theorem pushes_queue {n : Nat} (pos : 0 < n) : (pushes n).Queue n [] := by
  obtain ⟨m, rfl⟩ : ∃ m, n = m + 1 := ⟨n - 1, by omega⟩
  obtain ⟨-, head, tail, -, link⟩ := pushes_succ m
  refine ⟨?_, by omega, ?_, rfl, pos⟩
  · intro i bound
    rw [link i (by omega), after]
    by_cases last : i = m
    · rw [if_pos last, last, Nat.mod_self]
    · rw [if_neg last, Nat.mod_eq_of_lt (by omega)]
  · rw [tail, head]
    simp [after]

variable {n : Nat} {l : LinkList} {queue : List Nat}

/-- No node is in the queue twice. -/
theorem Queue.nodup (q : l.Queue n queue) : queue.Nodup := by
  rw [q.nodes]
  refine List.Nodup.map_on ?_ List.nodup_range
  intro j low k low' same
  have room := q.room
  rw [List.mem_range] at low low'
  exact after_inj (by omega) (by omega) same

/-- The node `next` hands out is not in use. -/
theorem Queue.tail_not_mem (q : l.Queue n queue) : l.tail ∉ queue := by
  intro member
  rw [q.nodes, q.tail] at member
  obtain ⟨k, low, same⟩ := List.mem_map.1 member
  rw [List.mem_range] at low
  have room := q.room
  have := after_inj (by omega) room same
  omega

/-- The next node to fill is one of the ring. -/
theorem Queue.tail_lt (q : l.Queue n queue) : l.tail < n := by
  rw [q.tail]
  exact after_lt (by have := q.head; omega) _ _

/-- `next` hands out the node at the tail, which is not in the queue. -/
theorem Queue.next (q : l.Queue n queue) (room : queue.length + 1 < n) :
    l.next.2.Queue n (queue ++ [l.next.1]) := by
  refine ⟨q.link, q.head, ?_, ?_, by simpa using room⟩
  · rw [LinkList.next, q.link _ q.tail_lt, q.tail, List.length_append]
    simp [after, Nat.add_assoc]
  · have old : (List.range queue.length).map (after n l.next.2.head) = queue := q.nodes.symm
    rw [List.length_append, List.length_singleton, List.range_succ, List.map_append, old]
    simp [LinkList.next, q.tail]

/-- `pop` takes the node that has been in the queue for the longest time. -/
theorem Queue.pop {node : Nat} (q : l.Queue n (node :: queue)) :
    l.pop.1 = node ∧ l.pop.2.Queue n queue := by
  have pos : 0 < n := by have := q.head; omega
  have nodes := q.nodes
  rw [List.length_cons, List.range_succ_eq_map, List.map_cons, List.map_map] at nodes
  obtain ⟨first, rest⟩ := List.cons_eq_cons.1 nodes
  refine ⟨?_, q.link, ?_, ?_, ?_, ?_⟩
  · rw [first, after, Nat.add_zero, Nat.mod_eq_of_lt q.head]
    rfl
  · rw [LinkList.pop, q.link _ q.head]
    exact after_lt pos _ _
  · rw [LinkList.pop, q.link _ q.head]
    have tail := q.tail
    rw [List.length_cons] at tail
    dsimp only
    rw [tail, after, after, after, Nat.mod_add_mod, Nat.add_assoc, Nat.add_comm 1]
  · rw [LinkList.pop, q.link _ q.head]
    refine rest.trans (List.map_congr_left fun k _ => ?_)
    simp [after, Nat.add_assoc, Nat.add_comm 1]
  · have room := q.room
    rw [List.length_cons] at room
    omega

/-- `empty` is true of the empty queue. -/
theorem Queue.empty_iff (q : l.Queue n queue) : l.empty = true ↔ queue = [] := by
  have pos : 0 < n := by have := q.head; omega
  rw [LinkList.empty, beq_iff_eq, q.tail]
  constructor
  · intro same
    have start : after n l.head 0 = after n l.head queue.length := by
      rw [← same, after, Nat.add_zero, Nat.mod_eq_of_lt q.head]
    exact List.length_eq_zero_iff.1 (after_inj pos q.room start).symm
  · rintro rfl
    simp [after, Nat.mod_eq_of_lt q.head]

/-- The tail is as far from the head as the queue is long. -/
theorem Queue.after_eq_iff (q : l.Queue n queue) {k : Nat} (low : k < n) :
    after n l.head k = l.tail ↔ queue.length = k := by
  rw [q.tail]
  constructor
  · intro same
    exact (after_inj low q.room same).symm
  · rintro rfl
    rfl

/-- `one` is true of a queue of one node. -/
theorem Queue.one_iff (q : l.Queue n queue) (two : 2 ≤ n) : l.one = true ↔ queue.length = 1 := by
  rw [LinkList.one, beq_iff_eq, q.link _ q.head]
  exact q.after_eq_iff (by omega)

/-- `full` is true of a queue that has left one node free. -/
theorem Queue.full_iff (q : l.Queue n queue) : l.full = true ↔ queue.length + 1 = n := by
  have pos : 0 < n := by have := q.head; omega
  have room := q.room
  have around : after n (after n l.head queue.length) 1 = after n l.head (queue.length + 1) := by
    rw [after, after, after, Nat.mod_add_mod, Nat.add_assoc]
  have start : after n l.head 0 = l.head := by
    rw [after, Nat.add_zero, Nat.mod_eq_of_lt q.head]
  rw [LinkList.full, beq_iff_eq, q.link _ q.tail_lt, q.tail, around]
  constructor
  · intro same
    by_contra other
    have := after_inj (by omega) pos (same.trans start.symm)
    omega
  · intro last
    rw [last, after, Nat.add_mod_right, Nat.mod_eq_of_lt q.head]

/-! ### The nodes -/

/-- From each of the `n` nodes, `link` goes through all of them and comes back. -/
def Cycle (n : Nat) (l : LinkList) : Prop :=
  ∀ i < n, ((List.range n).map fun k => l.link^[k] i).Perm (List.range n) ∧ l.link^[n] i = i

/-- Following the links goes round the ring. -/
theorem Queue.iterate_link (q : l.Queue n queue) {i : Nat} (low : i < n) (k : Nat) :
    l.link^[k] i = after n i k := by
  have pos : 0 < n := by omega
  induction k with
  | zero => rw [after, Nat.add_zero, Nat.mod_eq_of_lt low]; rfl
  | succ k ih =>
      rw [Function.iterate_succ_apply', ih, q.link _ (after_lt pos i k), after, after, after,
        Nat.mod_add_mod, Nat.add_assoc]

/-- The links form one cycle through all of the nodes. -/
theorem Queue.cycle (q : l.Queue n queue) : l.Cycle n := by
  intro i low
  have pos : 0 < n := by omega
  have nodes : ((List.range n).map fun k => l.link^[k] i) = (List.range n).map (after n i) :=
    List.map_congr_left fun k _ => q.iterate_link low k
  have distinct : ((List.range n).map (after n i)).Nodup := by
    refine List.Nodup.map_on ?_ List.nodup_range
    intro j low' k low'' same
    exact after_inj (List.mem_range.1 low') (List.mem_range.1 low'') same
  have inside : (List.range n).map (after n i) ⊆ List.range n := by
    intro j member
    obtain ⟨k, -, rfl⟩ := List.mem_map.1 member
    exact List.mem_range.2 (after_lt pos i k)
  refine ⟨?_, ?_⟩
  · rw [nodes]
    exact (List.subperm_of_subset distinct inside).perm_of_length_le (by simp)
  · rw [q.iterate_link low, after, Nat.add_mod_right, Nat.mod_eq_of_lt low]

/-! ### The loop of a redirect -/

/-- `while (!empty()) pop();` with at most `fuel` looks at the condition: the number of calls of
`pop`, and the list the loop leaves. -/
def popAll : Nat → LinkList → Option (Nat × LinkList)
  | 0, _ => none
  | fuel + 1, l =>
    if l.empty then some (0, l) else (popAll fuel l.pop.2).map fun (k, l) => (k + 1, l)

/-- The loop that pops until the queue is empty ends after as many turns as there are nodes in
it. -/
theorem Queue.popAll (q : l.Queue n queue) (fuel : Nat) :
    l.popAll fuel =
      if queue.length < fuel then some (queue.length, { l with head := l.tail }) else none := by
  induction fuel generalizing l queue with
  | zero => rfl
  | succ fuel ih =>
      rw [LinkList.popAll]
      cases queue with
      | nil =>
          have same : l.head = l.tail := beq_iff_eq.1 (q.empty_iff.2 rfl)
          rw [if_pos (q.empty_iff.2 rfl), List.length_nil, if_pos (Nat.succ_pos fuel)]
          exact congrArg (fun node => some (0, { l with head := node })) same
      | cons node queue =>
          obtain ⟨-, rest⟩ := q.pop
          rw [if_neg fun none => List.cons_ne_nil _ _ (q.empty_iff.1 none), ih rest,
            List.length_cons]
          by_cases enough : queue.length < fuel
          · rw [if_pos enough, if_pos (Nat.succ_lt_succ enough)]
            rfl
          · rw [if_neg enough, if_neg fun more => enough (Nat.lt_of_succ_lt_succ more)]
            rfl

/-! ### Runs -/

/-- A call of the list. -/
inductive Call
  | next | pop
  deriving DecidableEq, Repr

/-- A list, and what the calls have returned. -/
structure Calls where
  list : LinkList
  nexts : List Nat
  pops : List Nat

/-- One call, and what has been handed out and taken back so far. -/
def Calls.step (s : Calls) : Call → Calls
  | .next => ⟨s.list.next.2, s.nexts ++ [s.list.next.1], s.pops⟩
  | .pop => ⟨s.list.pop.2, s.nexts, s.pops ++ [s.list.pop.1]⟩

/-- The calls after `n` pushes. -/
def Calls.run (n : Nat) (calls : List Call) : Calls := calls.foldl step ⟨pushes n, [], []⟩

/-- How many more calls of `next` there were than of `pop`. -/
def outstanding (calls : List Call) : Int := calls.count .next - calls.count .pop

/-- No call of `pop` is one too many, and at least one node is spare. -/
def Bounded (n : Nat) (calls : List Call) : Prop :=
  ∀ before, before <+: calls → 0 ≤ outstanding before ∧ outstanding before ≤ n - 1

/-- One more node is out after `next`. -/
theorem outstanding_next (calls : List Call) :
    outstanding (calls ++ [.next]) = outstanding calls + 1 := by
  rw [outstanding, outstanding, List.count_append, List.count_append]
  simp
  omega

/-- One node less is out after `pop`. -/
theorem outstanding_pop (calls : List Call) :
    outstanding (calls ++ [.pop]) = outstanding calls - 1 := by
  rw [outstanding, outstanding, List.count_append, List.count_append]
  simp
  omega

/-- What `next` has returned and `pop` has not is in use, in this order. -/
theorem Calls.run_queue (pos : 0 < n) (calls : List Call) (bounded : Bounded n calls) :
    ∃ queue, (run n calls).list.Queue n queue ∧ (run n calls).nexts = (run n calls).pops ++ queue ∧
      (queue.length : Int) = outstanding calls := by
  induction calls using List.reverseRecOn with
  | nil => exact ⟨[], pushes_queue pos, rfl, rfl⟩
  | append_singleton calls call ih =>
      obtain ⟨queue, q, returned, length⟩ :=
        ih fun before earlier => bounded before (earlier.trans (List.prefix_append _ _))
      obtain ⟨least, most⟩ := bounded _ (List.prefix_refl _)
      rw [run, List.foldl_append, ← run]
      cases call with
      | next =>
          rw [outstanding_next] at most
          refine ⟨queue ++ [(run n calls).list.tail], q.next (by omega), ?_, ?_⟩
          · change (run n calls).nexts ++ [(run n calls).list.tail] = _
            rw [returned, List.append_assoc]
            rfl
          · rw [outstanding_next, List.length_append, List.length_singleton]
            push_cast
            rw [length]
      | pop =>
          rw [outstanding_pop] at least ⊢
          cases queue with
          | nil =>
              rw [← length] at least
              exact absurd least (by decide)
          | cons node queue =>
              obtain ⟨first, rest⟩ := q.pop
              refine ⟨queue, rest, ?_, ?_⟩
              · change (run n calls).nexts =
                  ((run n calls).pops ++ [(run n calls).list.pop.1]) ++ queue
                rw [returned, first, List.append_assoc]
                rfl
              · rw [← length, List.length_cons]
                push_cast
                omega

/-- In every run of calls the list is a queue over one cycle of its nodes: `pop` hands out the
elements of `next` in their order, `empty`, `one` and `full` say how many there are, and the
loop of a redirect empties the list and ends. `Cycle` says where the nodes are, `Queue` which of
them are in use. -/
theorem calls_fifo (two : 2 ≤ n) (calls : List Call) (bounded : Bounded n calls) :
    let s := Calls.run n calls
    s.list.Cycle n ∧
      (∀ k < s.pops.length, s.pops[k]? = s.nexts[k]?) ∧
      (s.list.empty = true ↔ outstanding calls = 0) ∧
      (s.list.one = true ↔ outstanding calls = 1) ∧
      (s.list.full = true ↔ outstanding calls = n - 1) ∧
      ∀ fuel, s.list.popAll fuel =
        if (outstanding calls).toNat < fuel then
          some ((outstanding calls).toNat, { s.list with head := s.list.tail })
        else none := by
  obtain ⟨queue, q, returned, length⟩ := Calls.run_queue (by omega) calls bounded
  rw [← length]
  refine ⟨q.cycle, ?_, ?_, ?_, ?_, ?_⟩
  · intro k low
    rw [returned, List.getElem?_append_left low]
  · rw [q.empty_iff, ← List.length_eq_zero_iff]
    omega
  · rw [q.one_iff two]
    omega
  · rw [q.full_iff]
    omega
  · exact q.popAll

/-- Two nodes, of which one is in use. -/
theorem calls_fifo_twoNodes : (Calls.run 2 [.next, .pop, .next]).list.Cycle 2 :=
  have bounded : ∀ before ∈ [Call.next, .pop, .next].inits,
      0 ≤ outstanding before ∧ outstanding before ≤ (2 : Nat) - 1 := by decide
  (calls_fifo (Nat.le_refl 2) [.next, .pop, .next] fun before earlier =>
    bounded before ((List.mem_inits before _).2 earlier)).1

end LinkList

end CPUDelaySim
