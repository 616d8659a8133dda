import Mathlib.Data.Finset.Card
import Mathlib.Data.List.Pairwise
import Mathlib.Tactic.Common

/-!
# Recency

An access history is a list with the newest access first.  `Older h a b` says that `b` was
accessed after the last access of `a`, or that `a` never was; a queue that is rotated at every
access is in that order (`pairwise_rotate`).

The places of a store hold keys.  As long as every access leaves its key in its place (`Placed`),
the key in the place accessed longest ago is older than the keys of all other places, so as many
keys were accessed after it as there are other places (`card_since_of_oldest`).
-/

namespace CPUDelaySim

variable {α κ : Type} [DecidableEq α] [DecidableEq κ]

/-- The accesses after the last one of `a`. -/
def since (h : List α) (a : α) : List α := h.takeWhile fun x => decide (x ≠ a)

/-- The last access of `a`, if there is one, is older than that of `b`. -/
def Older (h : List α) (a b : α) : Prop := a ∉ h ∨ b ∈ since h a

/-- Of some places, this one was accessed longest ago. -/
def Oldest (h : List α) (places : List α) (a : α) : Prop := ∀ b ∈ places, b ≠ a → Older h a b

instance (h : List α) (a b : α) : Decidable (Older h a b) := by
  unfold Older
  infer_instance

instance (h : List α) (places : List α) (a : α) : Decidable (Oldest h places a) := by
  unfold Oldest
  infer_instance

/-- Nothing has come since the last one. -/
theorem since_cons_self (h : List α) (a : α) : since (a :: h) a = [] := by
  simp [since]

/-- One more has come. -/
theorem since_cons_of_ne {x a : α} (h : List α) (other : x ≠ a) :
    since (x :: h) a = x :: since h a := by
  simp [since, other]

/-- What has come since is in the history. -/
theorem mem_of_mem_since {h : List α} {a b : α} (mem : b ∈ since h a) : b ∈ h :=
  (List.takeWhile_prefix _).subset mem

/-- The newest access is newer than every other. -/
theorem older_cons_self {h : List α} {a x : α} (other : a ≠ x) : Older (x :: h) a x := by
  right
  rw [since_cons_of_ne h (Ne.symm other)]
  exact List.mem_cons_self

/-- An access of a third place changes nothing between two. -/
theorem Older.cons {h : List α} {a b x : α} (older : Older h a b) (other : a ≠ x) :
    Older (x :: h) a b := by
  rcases older with never | after
  · left
    rw [List.mem_cons, not_or]
    exact ⟨other, never⟩
  · right
    rw [since_cons_of_ne h (Ne.symm other)]
    exact List.mem_cons_of_mem x after

/-- Of two places that were accessed, one is the older. -/
theorem Older.asymm {h : List α} {a b : α} (accessed : a ∈ h) (older : Older h a b) :
    ¬ Older h b a := by
  induction h with
  | nil => cases accessed
  | cons x h ih =>
      have after := older.resolve_left (not_not.2 accessed)
      by_cases newest : x = a
      · rw [newest, since_cons_self] at after
        cases after
      · rw [since_cons_of_ne h newest] at after
        rintro (never | before)
        · exact never (mem_of_mem_since (h := x :: h) (a := a)
            (by rw [since_cons_of_ne h newest]; exact after))
        · by_cases other : x = b
          · rw [other, since_cons_self] at before
            cases before
          · rw [since_cons_of_ne h other] at before
            have here : a ∈ h := List.mem_of_ne_of_mem (Ne.symm newest) accessed
            refine ih here (.inr (List.mem_of_ne_of_mem (Ne.symm other) after)) (.inr ?_)
            exact List.mem_of_ne_of_mem (Ne.symm newest) before

/-- A queue in the order of the last accesses, rotated, is in the order after an access of its
head. -/
theorem pairwise_rotate {h : List α} {a : α} {queue : List α} (distinct : (a :: queue).Nodup)
    (ordered : (a :: queue).Pairwise (Older h)) :
    (queue ++ [a]).Pairwise (Older (a :: h)) := by
  obtain ⟨absent, -⟩ := List.nodup_cons.1 distinct
  have other (b : α) (mem : b ∈ queue) : b ≠ a := fun same => absent (same ▸ mem)
  rw [List.pairwise_append]
  refine ⟨?_, List.pairwise_singleton .., ?_⟩
  · exact (List.pairwise_cons.1 ordered).2.imp_of_mem fun mem _ older => older.cons (other _ mem)
  · intro b mem c last
    rw [List.mem_singleton.1 last]
    exact older_cons_self (other b mem)

/-- The head of an ordered queue is the oldest of its places. -/
theorem oldest_head {h : List α} {a : α} {queue : List α}
    (ordered : (a :: queue).Pairwise (Older h)) :
    Oldest h (a :: queue) a := by
  intro b mem other
  exact (List.pairwise_cons.1 ordered).1 b (List.mem_of_ne_of_mem other mem)

/-- Places that are both oldest were not accessed, unless they are the same. -/
theorem Oldest.unique {h : List α} {places : List α} {a b : α} (oldest : Oldest h places a)
    (oldest' : Oldest h places b) (mem : a ∈ places) (mem' : b ∈ places) (other : a ≠ b) :
    a ∉ h ∧ b ∉ h := by
  have first := oldest b mem' (Ne.symm other)
  have second := oldest' a mem other
  exact ⟨fun accessed => first.asymm accessed second, fun accessed => second.asymm accessed first⟩

/-! ### Keys in places -/

/-- Every place that was accessed holds the key of its last access, and that was the last access
of the key. -/
structure Placed (h : List (α × κ)) (content : α → Option κ) : Prop where
  place : ∀ a k, content a = some k → h.find? (fun e => decide (e.1 = a)) = some (a, k)
  key : ∀ a k, content a = some k → h.find? (fun e => decide (e.2 = k)) = some (a, k)
  full : ∀ e ∈ h, (content e.1).isSome = true

namespace Placed

variable {h : List (α × κ)} {content : α → Option κ}

/-- No two places hold one key. -/
theorem unique (placed : Placed h content) {a b : α} {k : κ} (here : content a = some k)
    (there : content b = some k) : a = b := by
  have same := (placed.key a k here).symm.trans (placed.key b k there)
  exact congrArg Prod.fst (Option.some.inj same)

/-- An access of the key a place holds. -/
theorem hit (placed : Placed h content) {a : α} {k : κ} (holds : content a = some k) :
    Placed ((a, k) :: h) content where
  place := by
    intro b l held
    by_cases same : a = b
    · subst same
      obtain rfl := Option.some.inj (holds.symm.trans held)
      exact List.find?_cons_of_pos (by simp)
    · rw [List.find?_cons_of_neg (by simpa using same)]
      exact placed.place b l held
  key := by
    intro b l held
    by_cases same : k = l
    · subst same
      obtain rfl := placed.unique holds held
      exact List.find?_cons_of_pos (by simp)
    · rw [List.find?_cons_of_neg (by simpa using same)]
      exact placed.key b l held
  full := by
    intro e mem
    rcases List.mem_cons.1 mem with rfl | mem
    · simp [holds]
    · exact placed.full e mem

/-- A key that no place holds takes a place. -/
theorem fill (placed : Placed h content) {a : α} {k : κ} (absent : ∀ b, content b ≠ some k) :
    Placed ((a, k) :: h) (Function.update content a (some k)) where
  place := by
    intro b l held
    by_cases same : a = b
    · subst same
      rw [Function.update_self] at held
      obtain rfl := Option.some.inj held
      exact List.find?_cons_of_pos (by simp)
    · rw [Function.update_of_ne (Ne.symm same)] at held
      rw [List.find?_cons_of_neg (by simpa using same)]
      exact placed.place b l held
  key := by
    intro b l held
    by_cases same : a = b
    · subst same
      rw [Function.update_self] at held
      obtain rfl := Option.some.inj held
      exact List.find?_cons_of_pos (by simp)
    · rw [Function.update_of_ne (Ne.symm same)] at held
      have other : k ≠ l := by
        rintro rfl
        exact absent b held
      rw [List.find?_cons_of_neg (by simpa using other)]
      exact placed.key b l held
  full := by
    intro e mem
    by_cases same : e.1 = a
    · rw [same, Function.update_self]
      rfl
    · rw [Function.update_of_ne same]
      rcases List.mem_cons.1 mem with rfl | mem
      · exact absurd rfl same
      · exact placed.full e mem

/-- A place accessed after another has a key accessed after that of the other. -/
theorem mem_since_key {a b : α} {k l : κ}
    (place : h.find? (fun e => decide (e.1 = a)) = some (a, k))
    (key : h.find? (fun e => decide (e.2 = k)) = some (a, k))
    (other : h.find? (fun e => decide (e.1 = b)) = some (b, l))
    (after : b ∈ since (h.map Prod.fst) a) : l ∈ since (h.map Prod.snd) k := by
  induction h with
  | nil => cases after
  | cons e h ih =>
      obtain ⟨x, y⟩ := e
      rw [List.map_cons] at after ⊢
      by_cases here : x = a
      · rw [here, since_cons_self] at after
        cases after
      · rw [since_cons_of_ne _ here] at after
        rw [List.find?_cons_of_neg (by simpa using here)] at place
        have distinct : y ≠ k := by
          rintro rfl
          rw [List.find?_cons_of_pos (by simp)] at key
          exact here (congrArg Prod.fst (Option.some.inj key))
        rw [List.find?_cons_of_neg (by simpa using distinct)] at key
        rw [since_cons_of_ne _ distinct]
        by_cases last : x = b
        · rw [List.find?_cons_of_pos (by simpa using last)] at other
          obtain ⟨rfl, rfl⟩ : x = b ∧ y = l := by simpa using other
          exact List.mem_cons_self
        · rw [List.find?_cons_of_neg (by simpa using last)] at other
          exact List.mem_cons_of_mem y
            (ih place key other (List.mem_of_ne_of_mem (Ne.symm last) after))

/-- After the key in the oldest place, one key was accessed for every other place. -/
theorem card_since_of_oldest (placed : Placed h content) {places : Finset α} {a : α} {k : κ}
    (holds : content a = some k) (oldest : ∀ b ∈ places, b ≠ a → Older (h.map Prod.fst) a b) :
    (places.erase a).card ≤ (since (h.map Prod.snd) k).toFinset.card := by
  have place := placed.place a k holds
  have accessed : a ∈ h.map Prod.fst := List.mem_map_of_mem (List.mem_of_find?_eq_some place)
  have after (b : α) (mem : b ∈ places.erase a) : b ∈ since (h.map Prod.fst) a := by
    obtain ⟨other, mem⟩ := Finset.mem_erase.1 mem
    exact (oldest b mem other).resolve_left (not_not.2 accessed)
  have held (b : α) (mem : b ∈ places.erase a) : ∃ l, content b = some l := by
    obtain ⟨⟨c, l⟩, here, rfl⟩ := List.mem_map.1 (mem_of_mem_since (after b mem))
    exact Option.isSome_iff_exists.1 (placed.full _ here)
  refine Finset.card_le_card_of_injOn (fun b => (content b).getD k) ?_ ?_
  · intro b mem
    obtain ⟨l, holds'⟩ := held b mem
    have key := mem_since_key place (placed.key a k holds) (placed.place b l holds') (after b mem)
    simpa [holds'] using key
  · intro b mem c mem' same
    obtain ⟨l, holds'⟩ := held b mem
    obtain ⟨m, holds''⟩ := held c mem'
    simp only [holds', holds'', Option.getD_some] at same
    exact placed.unique holds' (same ▸ holds'')

end Placed

end CPUDelaySim
