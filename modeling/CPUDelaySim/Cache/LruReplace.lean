import CPUDelaySim.Cache.Cache
import CPUDelaySim.Common.Outcome
import Mathlib.Data.List.Induction
import Mathlib.Data.List.Nodup
import Mathlib.Data.List.Perm.Lattice

/-!
# The list of `LRUReplace`

`cache/replace/lru.cpp` with its iterators: a node of a `std::list` keeps its address when it is
spliced, and `lru_map` holds the address of the node of each way.  As long as every way has one
node in the list of its set, the three functions move that node and no other, so the lists are the
recency orders of their sets (`run_recency`).

The caches use `get` alone, on the ways the nodes hold: `LruList`.

`Inv` is about one set: the node addresses are distinct, every way has exactly one node, and the
map leads to it.  From it each function has one lemma (`Inv.insert`, `Inv.clear`, `Inv.get`),
which says which permutation of the ways it makes and that the other sets stand as they were.
`run_spec` is the induction over a run, of all sets at once.
-/

namespace CPUDelaySim

/-! ### Recency orders -/

/-- A call for one set. -/
inductive WayCall
  | insert (id : Nat) | clear (id : Nat) | get
  deriving DecidableEq, Repr

namespace WayCall

/-- `insert` and `get` move a way to the back, `clear` moves it to the front. -/
def order (order : List Nat) : WayCall → List Nat
  | insert id => order.erase id ++ [id]
  | clear id => id :: order.erase id
  | get => order.tail ++ order.take 1

/-- What the call returns. -/
def result (order : List Nat) : WayCall → List Nat
  | get => order.take 1
  | _ => []

/-- The order after some calls. -/
def recency (way : Nat) (calls : List WayCall) : List Nat := calls.foldl order (List.range way)

/-- What the calls return, from an order on. -/
def results : List Nat → List WayCall → List Nat
  | _, [] => []
  | old, c :: rest => result old c ++ results (order old c) rest

/-- The way is one of the set, and `get` has a way to return. -/
def Valid (way : Nat) : WayCall → Prop
  | insert id | clear id => id < way
  | get => 0 < way

instance (way : Nat) (c : WayCall) : Decidable (c.Valid way) := by
  cases c <;> unfold Valid <;> infer_instance

/-- One more call moves one way. -/
theorem recency_concat (way : Nat) (calls : List WayCall) (c : WayCall) :
    recency way (calls ++ [c]) = order (recency way calls) c := by
  rw [recency, List.foldl_append]
  rfl

/-- One more call returns what the order before it says. -/
theorem results_concat (old : List Nat) (calls : List WayCall) (c : WayCall) :
    results old (calls ++ [c]) = results old calls ++ result (calls.foldl order old) c := by
  induction calls generalizing old with
  | nil => exact List.append_nil _
  | cons d calls ih =>
      rw [List.cons_append, results, results, ih, List.append_assoc]
      rfl

end WayCall

/-! ### The list with its iterators -/

/-- A node of a `std::list<int>`; an iterator is the address of its node. -/
structure LruNode where
  address : Nat
  id : Nat
  deriving DecidableEq, Repr

/-- What the library leaves undefined. -/
inductive LruFault
  | badIterator | emptyList
  deriving DecidableEq, Repr

/-- `class LRUReplace`; the addresses from `fresh` on are not in use. -/
structure LruReplace where
  lruList : Nat → List LruNode
  lruMap : Nat → Nat → Option Nat
  fresh : Nat

/-- The node at `it`, and the others. -/
def split (nodes : List LruNode) (it : Nat) : List LruNode × List LruNode :=
  nodes.partition fun node => node.address == it

/-- `list.splice(list.end(), list, it)`. -/
def spliceEnd (nodes : List LruNode) (it : Nat) : List LruNode :=
  (split nodes it).2 ++ (split nodes it).1

/-- `list.splice(list.begin(), list, it)`. -/
def spliceBegin (nodes : List LruNode) (it : Nat) : List LruNode :=
  (split nodes it).1 ++ (split nodes it).2

namespace LruReplace

/-- `lru_map[i][j] = lru_list[i].insert(lru_list[i].end(), j)`. -/
def append (i j : Nat) (s : LruReplace) : LruReplace where
  lruList := Function.update s.lruList i (s.lruList i ++ [⟨s.fresh, j⟩])
  lruMap := Function.update s.lruMap i (Function.update (s.lruMap i) j (some s.fresh))
  fresh := s.fresh + 1

/-- `setParams`. -/
def setParams (set way : Nat) : LruReplace :=
  (List.range set).foldl
    (fun s i => (List.range way).foldl (fun s j => s.append i j) s)
    ⟨fun _ => [], fun _ _ => none, 0⟩

/-- The list of a set, spliced. -/
def setList (s : LruReplace) (set : Nat) (nodes : List LruNode) : LruReplace :=
  { s with lruList := Function.update s.lruList set nodes }

/-- `lru_map[set][id]`, an iterator of the list it is used on. -/
def iterator (s : LruReplace) (set id : Nat) : Except LruFault Nat :=
  match s.lruMap set id with
  | some it => if (s.lruList set).any (·.address == it) then .ok it else .error .badIterator
  | none => .error .badIterator

/-- `insert`. -/
def insert (s : LruReplace) (set id : Nat) : Except LruFault LruReplace := do
  let it ← s.iterator set id
  return s.setList set (spliceEnd (s.lruList set) it)

/-- `clear`. -/
def clear (s : LruReplace) (set id : Nat) : Except LruFault LruReplace := do
  let it ← s.iterator set id
  return s.setList set (spliceBegin (s.lruList set) it)

/-- `get`. -/
def get (s : LruReplace) (set : Nat) : Except LruFault (Nat × LruReplace) :=
  match s.lruList set with
  | [] => .error .emptyList
  | first :: _ => .ok (first.id, s.setList set (spliceEnd (s.lruList set) first.address))

/-- The ways in the order of their nodes. -/
def ways (s : LruReplace) : LruList := fun set => (s.lruList set).map LruNode.id

/-- Each way has one node in the list of its set, and the map points at it. -/
structure Inv (set way : Nat) (s : LruReplace) : Prop where
  distinct : ∀ i < set, ((s.lruList i).map LruNode.address).Nodup
  points : ∀ i < set, ∀ node ∈ s.lruList i, s.lruMap i node.id = some node.address
  complete : ∀ i < set, (s.ways i).Perm (List.range way)

/-! ### The start -/

/-- A way that is appended comes last in its set. -/
theorem append_lruList (i j : Nat) (s : LruReplace) :
    (s.append i j).lruList =
      Function.update s.lruList i (s.lruList i ++ [⟨s.fresh, j⟩]) := rfl

/-- Its iterator is the new node. -/
theorem append_lruMap (i j : Nat) (s : LruReplace) :
    (s.append i j).lruMap =
      Function.update s.lruMap i (Function.update (s.lruMap i) j (some s.fresh)) := rfl

/-- Every node is a new one. -/
theorem append_fresh (i j : Nat) (s : LruReplace) : (s.append i j).fresh = s.fresh + 1 := rfl

/-- The loop over the ways of a set. -/
theorem foldl_append_ways (s : LruReplace) (i way : Nat) (empty : s.lruList i = []) :
    let t := (List.range way).foldl (fun s j => s.append i j) s
    t.lruList = Function.update s.lruList i
        ((List.range way).map fun j => ⟨s.fresh + j, j⟩) ∧
      (∀ j < way, t.lruMap i j = some (s.fresh + j)) ∧
      (∀ k, k ≠ i → t.lruMap k = s.lruMap k) ∧ t.fresh = s.fresh + way := by
  induction way with
  | zero =>
      refine ⟨?_, nofun, fun _ _ => rfl, rfl⟩
      rw [List.range_zero, List.map_nil, ← empty]
      exact (Function.update_eq_self i s.lruList).symm
  | succ way ih =>
      obtain ⟨list, here, there, fresh⟩ := ih
      rw [List.range_succ, List.foldl_append]
      refine ⟨?_, ?_, ?_, ?_⟩
      · rw [List.foldl_cons, List.foldl_nil, append_lruList, list, fresh, Function.update_self,
          Function.update_idem, List.map_append]
        rfl
      · intro j low
        rw [List.foldl_cons, List.foldl_nil, append_lruMap, Function.update_self]
        by_cases last : j = way
        · rw [last, Function.update_self, fresh]
        · rw [Function.update_of_ne last, here j (by omega)]
      · intro k other
        rw [List.foldl_cons, List.foldl_nil, append_lruMap, Function.update_of_ne other,
          there k other]
      · rw [List.foldl_cons, List.foldl_nil, append_fresh, fresh, Nat.add_assoc]

/-- The loop over the sets. -/
theorem setParams_spec (set way : Nat) :
    (∀ i < set, (setParams set way).lruList i =
        (List.range way).map fun j => ⟨i * way + j, j⟩) ∧
      (∀ i < set, ∀ j < way, (setParams set way).lruMap i j = some (i * way + j)) ∧
      (∀ i, set ≤ i → (setParams set way).lruList i = []) ∧
      (setParams set way).fresh = set * way := by
  induction set with
  | zero => exact ⟨nofun, nofun, fun _ _ => rfl, by rw [Nat.zero_mul]; rfl⟩
  | succ set ih =>
      obtain ⟨list, map, rest, fresh⟩ := ih
      have next : setParams (set + 1) way =
          (List.range way).foldl (fun s j => s.append set j) (setParams set way) := by
        rw [setParams, List.range_succ, List.foldl_append]
        rfl
      obtain ⟨list', here, there, fresh'⟩ :=
        foldl_append_ways (setParams set way) set way (rest set (Nat.le_refl set))
      rw [← next] at list' here there fresh'
      rw [fresh] at list' here
      refine ⟨?_, ?_, ?_, ?_⟩
      · intro i low
        rw [list']
        by_cases last : i = set
        · rw [last, Function.update_self]
        · rw [Function.update_of_ne last, list i (by omega)]
      · intro i low j low'
        by_cases last : i = set
        · rw [last, here j low']
        · rw [there i last, map i (by omega) j low']
      · intro i high
        rw [list', Function.update_of_ne (by omega), rest i (by omega)]
      · rw [fresh', fresh, Nat.add_mul, Nat.one_mul]

/-- At first the ways of a set are in the order of their numbers. -/
theorem setParams_ways {set i : Nat} (way : Nat) (low : i < set) :
    (setParams set way).ways i = List.range way := by
  rw [ways, (setParams_spec set way).1 i low, List.map_map]
  exact List.map_id' _

/-- At first each way has one node, and its iterator is that. -/
theorem setParams_inv (set way : Nat) : (setParams set way).Inv set way := by
  obtain ⟨list, map, -, -⟩ := setParams_spec set way
  refine ⟨?_, ?_, ?_⟩
  · intro i low
    rw [list i low, List.map_map]
    refine List.Nodup.map_on ?_ List.nodup_range
    intro j _ k _ same
    exact Nat.add_left_cancel same
  · intro i low node member
    rw [list i low] at member
    obtain ⟨j, low', rfl⟩ := List.mem_map.1 member
    exact map i low j (List.mem_range.1 low')
  · intro i low
    rw [setParams_ways way low]

/-! ### The calls -/

section Nodes

variable {nodes : List LruNode} {node : LruNode}

/-- An iterator parts the list into its node and the others. -/
theorem split_of_mem (distinct : (nodes.map LruNode.address).Nodup)
    (distinct' : (nodes.map LruNode.id).Nodup) (member : node ∈ nodes) :
    (split nodes node.address).1 = [node] ∧
      ((split nodes node.address).2.map LruNode.id) = (nodes.map LruNode.id).erase node.id := by
  have same (other : LruNode) (here : other ∈ nodes) :
      other.address = node.address ↔ other = node :=
    ⟨fun address => List.inj_on_of_nodup_map distinct here member address, fun e => e ▸ rfl⟩
  have same' (other : LruNode) (here : other ∈ nodes) : other.id = node.id ↔ other = node :=
    ⟨fun id => List.inj_on_of_nodup_map distinct' here member id, fun e => e ▸ rfl⟩
  rw [split, List.partition_eq_filter_filter]
  constructor
  · have only : nodes.filter (fun other => other.address == node.address) =
        nodes.filter (· == node) :=
      List.filter_congr fun other here => by
        rw [Bool.eq_iff_iff, beq_iff_eq, beq_iff_eq]
        exact same other here
    rw [only, List.filter_beq, List.count_eq_one_of_mem (distinct.of_map _) member]
    rfl
  · rw [distinct'.erase_eq_filter, List.filter_map]
    refine congrArg (List.map LruNode.id) (List.filter_congr fun other here => ?_)
    rw [Function.comp_apply, Function.comp_apply, Bool.eq_iff_iff, Bool.not_eq_true', bne_iff_ne,
      beq_eq_false_iff_ne]
    exact not_congr ((same other here).trans (same' other here).symm)

end Nodes

variable {set way i id : Nat} {s : LruReplace}

/-- The iterator of a way is that of its node. -/
theorem Inv.iterator (inv : s.Inv set way) (low : i < set) (low' : id < way) :
    ∃ node ∈ s.lruList i, node.id = id ∧ s.iterator i id = .ok node.address := by
  have member : id ∈ s.ways i := (inv.complete i low).mem_iff.2 (List.mem_range.2 low')
  obtain ⟨node, here, rfl⟩ := List.mem_map.1 member
  refine ⟨node, here, rfl, ?_⟩
  have valid : (s.lruList i).any (fun other => other.address == node.address) = true :=
    List.any_eq_true.2 ⟨node, here, beq_self_eq_true _⟩
  rw [LruReplace.iterator, inv.points i low node here]
  exact if_pos valid

/-- The list of the set that is changed. -/
@[simp] theorem setList_self (s : LruReplace) (i : Nat) (nodes : List LruNode) :
    (s.setList i nodes).lruList i = nodes := Function.update_self ..

/-- The lists of the other sets. -/
theorem setList_of_ne {k : Nat} (other : k ≠ i) (nodes : List LruNode) :
    (s.setList i nodes).lruList k = s.lruList k := Function.update_of_ne other ..

/-- A change of the nodes of a set, seen as a change of its ways. -/
theorem ways_setList (s : LruReplace) (i : Nat) (nodes : List LruNode) :
    (s.setList i nodes).ways = Function.update s.ways i (nodes.map LruNode.id) := by
  funext k
  by_cases here : k = i
  · subst here
    rw [ways, setList_self, Function.update_self]
  · rw [ways, setList_of_ne here, Function.update_of_ne here, ways]

/-- A list put into another order. -/
theorem Inv.reorder (inv : s.Inv set way) {nodes : List LruNode} (low : i < set)
    (perm : nodes.Perm (s.lruList i)) :
    (s.setList i nodes).Inv set way := by
  refine ⟨?_, ?_, ?_⟩
  · intro k low'
    by_cases here : k = i
    · subst here
      rw [setList_self]
      exact (perm.map _).nodup_iff.2 (inv.distinct k low)
    · rw [setList_of_ne here]
      exact inv.distinct k low'
  · intro k low' node member
    by_cases here : k = i
    · subst here
      rw [setList_self] at member
      exact inv.points k low node (perm.mem_iff.1 member)
    · rw [setList_of_ne here] at member
      exact inv.points k low' node member
  · intro k low'
    by_cases here : k = i
    · subst here
      rw [ways, setList_self]
      exact (perm.map _).trans (inv.complete k low)
    · rw [ways, setList_of_ne here]
      exact inv.complete k low'

/-- Taking a node out leaves the others. -/
theorem split_perm (nodes : List LruNode) (it : Nat) :
    ((split nodes it).1 ++ (split nodes it).2).Perm nodes := by
  rw [split, List.partition_eq_filter_filter]
  exact List.filter_append_perm _ nodes

/-- A node moved to the end is still there once. -/
theorem spliceEnd_perm (nodes : List LruNode) (it : Nat) : (spliceEnd nodes it).Perm nodes :=
  List.perm_append_comm.trans (split_perm nodes it)

/-- A node moved to the front is still there once. -/
theorem spliceBegin_perm (nodes : List LruNode) (it : Nat) : (spliceBegin nodes it).Perm nodes :=
  split_perm nodes it

/-- No way is in its set twice. -/
theorem Inv.nodup_ways (inv : s.Inv set way) (low : i < set) : (s.ways i).Nodup :=
  (inv.complete i low).nodup_iff.2 List.nodup_range

/-- The ways after a way was spliced to the back. -/
theorem Inv.ways_spliceEnd (inv : s.Inv set way) (low : i < set) {node : LruNode}
    (member : node ∈ s.lruList i) :
    (s.setList i (spliceEnd (s.lruList i) node.address)).ways =
      Function.update s.ways i ((s.ways i).erase node.id ++ [node.id]) := by
  obtain ⟨only, others⟩ := split_of_mem (inv.distinct i low) (inv.nodup_ways low) member
  rw [ways_setList, spliceEnd, List.map_append, only, others]
  rfl

/-- The ways after a way was spliced to the front. -/
theorem Inv.ways_spliceBegin (inv : s.Inv set way) (low : i < set) {node : LruNode}
    (member : node ∈ s.lruList i) :
    (s.setList i (spliceBegin (s.lruList i) node.address)).ways =
      Function.update s.ways i (node.id :: (s.ways i).erase node.id) := by
  obtain ⟨only, others⟩ := split_of_mem (inv.distinct i low) (inv.nodup_ways low) member
  rw [ways_setList, spliceBegin, List.map_append, only, others]
  rfl

/-- `insert` moves its way to the end of the set. -/
theorem Inv.insert (inv : s.Inv set way) (low : i < set) (low' : id < way) :
    ∃ t, s.insert i id = .ok t ∧ t.Inv set way ∧
      t.ways = Function.update s.ways i (WayCall.order (s.ways i) (.insert id)) := by
  obtain ⟨node, member, rfl, valid⟩ := inv.iterator low low'
  refine ⟨_, ?_, inv.reorder low (spliceEnd_perm _ _), inv.ways_spliceEnd low member⟩
  rw [LruReplace.insert, valid]
  rfl

/-- `clear` moves its way to the front of the set. -/
theorem Inv.clear (inv : s.Inv set way) (low : i < set) (low' : id < way) :
    ∃ t, s.clear i id = .ok t ∧ t.Inv set way ∧
      t.ways = Function.update s.ways i (WayCall.order (s.ways i) (.clear id)) := by
  obtain ⟨node, member, rfl, valid⟩ := inv.iterator low low'
  refine ⟨_, ?_, inv.reorder low (spliceBegin_perm _ _), inv.ways_spliceBegin low member⟩
  rw [LruReplace.clear, valid]
  rfl

/-- `get` does to the ways what `LruList.get` does. -/
theorem Inv.get (inv : s.Inv set way) (low : i < set) (pos : 0 < way) :
    ∃ first t, s.get i = .ok (first, t) ∧ t.Inv set way ∧ (first, t.ways) = s.ways.get i ∧
      (s.ways i).take 1 = [first] := by
  have length := (inv.complete i low).length_eq
  cases nodes : s.lruList i with
  | nil =>
      rw [ways, nodes, List.length_range] at length
      exact absurd length (Nat.ne_of_lt pos)
  | cons node rest =>
      have member : node ∈ s.lruList i := by rw [nodes]; exact List.mem_cons_self
      have ways : s.ways i = node.id :: rest.map LruNode.id := by rw [LruReplace.ways, nodes]; rfl
      refine ⟨node.id, _, ?_, inv.reorder low (spliceEnd_perm _ node.address), ?_, ?_⟩
      · rw [LruReplace.get, nodes]
      · rw [inv.ways_spliceEnd low member, LruList.get, ways, List.erase_cons_head]
        rfl
      · rw [ways]
        rfl

end LruReplace

/-! ### Runs -/

/-- A call for a set. -/
structure LruCall where
  set : Nat
  call : WayCall
  deriving DecidableEq, Repr

/-- The calls for one set. -/
def callsOf (i : Nat) (calls : List LruCall) : List WayCall :=
  (calls.filter fun c => c.set == i).map LruCall.call

/-- What the calls of `get` for one set have returned. -/
def getsOf (i : Nat) (gets : List (Nat × Nat)) : List Nat :=
  (gets.filter fun g => g.1 == i).map Prod.snd

/-- The lists, and for each call of `get` its set and what it has returned. -/
structure LruCalls where
  lru : LruReplace
  gets : List (Nat × Nat)

namespace LruCalls

/-- One call, and what `get` has returned so far. -/
def step (s : LruCalls) (c : LruCall) : Except LruFault LruCalls :=
  match c.call with
  | .insert id => do return { s with lru := ← s.lru.insert c.set id }
  | .clear id => do return { s with lru := ← s.lru.clear c.set id }
  | .get => do
      let (id, lru) ← s.lru.get c.set
      return ⟨lru, s.gets ++ [(c.set, id)]⟩

/-- What one call does. -/
theorem step_spec {set way : Nat} {s : LruCalls} (inv : s.lru.Inv set way) {c : LruCall}
    (low : c.set < set) (valid : c.call.Valid way) :
    ∃ t, s.step c = .ok t ∧ t.lru.Inv set way ∧
      t.lru.ways = Function.update s.lru.ways c.set (WayCall.order (s.lru.ways c.set) c.call) ∧
      t.gets = s.gets ++ (WayCall.result (s.lru.ways c.set) c.call).map (Prod.mk c.set) := by
  obtain ⟨i, call⟩ := c
  change i < set at low
  cases call with
  | insert id =>
      obtain ⟨lru, done, inv', ways⟩ := inv.insert low valid
      refine ⟨⟨lru, s.gets⟩, ?_, inv', ways, (List.append_nil _).symm⟩
      dsimp only [step]
      rw [done]
      rfl
  | clear id =>
      obtain ⟨lru, done, inv', ways⟩ := inv.clear low valid
      refine ⟨⟨lru, s.gets⟩, ?_, inv', ways, (List.append_nil _).symm⟩
      dsimp only [step]
      rw [done]
      rfl
  | get =>
      obtain ⟨first, lru, done, inv', ways, chosen⟩ := inv.get low valid
      refine ⟨⟨lru, s.gets ++ [(i, first)]⟩, ?_, inv', congrArg Prod.snd ways, ?_⟩
      · dsimp only [step]
        rw [done]
        rfl
      · rw [WayCall.result, chosen]
        rfl

/-- After `setParams`. -/
def start (set way : Nat) : LruCalls := ⟨.setParams set way, []⟩

/-- The calls for one set, with one more call. -/
theorem callsOf_concat (i : Nat) (calls : List LruCall) (c : LruCall) :
    callsOf i (calls ++ [c]) =
      if c.set = i then callsOf i calls ++ [c.call] else callsOf i calls := by
  rw [callsOf, List.filter_append, List.map_append]
  by_cases here : c.set = i
  · simp [callsOf, here]
  · simp [callsOf, here]

/-- The results for one set, with those of one more call. -/
theorem getsOf_append (i j : Nat) (gets : List (Nat × Nat)) (ids : List Nat) :
    getsOf i (gets ++ ids.map (Prod.mk j)) = getsOf i gets ++ if j = i then ids else [] := by
  rw [getsOf, List.filter_append, List.map_append, List.filter_map, List.map_map]
  by_cases here : j = i
  · simp [getsOf, here, Function.comp_def]
  · simp [getsOf, here, Function.comp_def]

/-- What any number of calls do. -/
theorem run_spec {set way : Nat} (calls : List LruCall)
    (valid : ∀ c ∈ calls, c.set < set ∧ c.call.Valid way) :
    ∃ t, runSteps step (start set way) calls = .ok t ∧ t.lru.Inv set way ∧
      (∀ i < set, t.lru.ways i = WayCall.recency way (callsOf i calls)) ∧
      ∀ i < set, getsOf i t.gets = WayCall.results (List.range way) (callsOf i calls) := by
  induction calls using List.reverseRecOn with
  | nil =>
      exact ⟨start set way, rfl, LruReplace.setParams_inv set way,
        fun i low => LruReplace.setParams_ways way low, fun _ _ => rfl⟩
  | append_singleton calls c ih =>
      obtain ⟨s, ran, inv, orders, returned⟩ :=
        ih fun d member => valid d (List.mem_append_left _ member)
      obtain ⟨low, valid⟩ := valid c (List.mem_append_right _ List.mem_cons_self)
      obtain ⟨t, moved, inv', ways, gets⟩ := step_spec inv low valid
      refine ⟨t, runSteps_concat ran moved, inv', fun i low' => ?_, fun i low' => ?_⟩
      · rw [ways, callsOf_concat]
        by_cases here : c.set = i
        · subst here
          rw [Function.update_self, if_pos rfl, WayCall.recency_concat, orders _ low]
        · rw [Function.update_of_ne (Ne.symm here), if_neg here, orders i low']
      · rw [gets, getsOf_append, callsOf_concat, returned i low']
        by_cases here : c.set = i
        · subst here
          rw [if_pos rfl, if_pos rfl, WayCall.results_concat, orders _ low]
          rfl
        · rw [if_neg here, if_neg here, List.append_nil]

/-- In every run of valid calls the lists are the recency orders of their sets, each a
permutation of the ways; `lru_map` leads to the nodes, the sets do not touch each other, and
`get` returns the first way of its own. A node keeps its address when it is spliced, so no
iterator is ever invalid. -/
theorem run_recency {set way : Nat} (calls : List LruCall)
    (valid : ∀ c ∈ calls, c.set < set ∧ c.call.Valid way) :
    ∃ t, runSteps step (start set way) calls = .ok t ∧ ∀ i < set,
      (t.lru.ways i).Perm (List.range way) ∧
        ((t.lru.lruList i).map LruNode.address).Nodup ∧
        (∀ id < way, ∃ node ∈ t.lru.lruList i,
          node.id = id ∧ t.lru.lruMap i id = some node.address) ∧
        t.lru.ways i = WayCall.recency way (callsOf i calls) ∧
        getsOf i t.gets = WayCall.results (List.range way) (callsOf i calls) := by
  obtain ⟨t, ran, inv, orders, returned⟩ := run_spec calls valid
  refine ⟨t, ran, fun i low =>
    ⟨inv.complete i low, inv.distinct i low, fun id low' => ?_, orders i low, returned i low⟩⟩
  obtain ⟨node, member, rfl, -⟩ := inv.iterator low low'
  exact ⟨node, member, rfl, inv.points i low node member⟩

/-- Two sets of three ways: a way hit, one removed, and two chosen. -/
theorem run_recency_twoSets :
    ∃ t, runSteps step (start 2 3) [⟨0, .insert 0⟩, ⟨1, .get⟩, ⟨0, .clear 2⟩, ⟨0, .get⟩] = .ok t ∧
      getsOf 0 t.gets = [2] := by
  obtain ⟨t, ran, sets⟩ := @run_recency 2 3
    [⟨0, .insert 0⟩, ⟨1, .get⟩, ⟨0, .clear 2⟩, ⟨0, .get⟩] (by decide)
  exact ⟨t, ran, (sets 0 (by decide)).2.2.2.2⟩

end LruCalls

end CPUDelaySim
