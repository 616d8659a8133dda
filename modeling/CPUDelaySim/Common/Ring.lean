import Mathlib.Data.List.Basic
import Mathlib.Logic.Function.Basic
import Mathlib.Data.Nat.ModEq
import Mathlib.Tactic.Common

/-!
# Records that go round

A ring hands out its slots one after another, and a slot is written when it is handed out.  A log
keeps what is handed out and what is read.

A slot keeps its record while fewer than `size` others are handed out (`Kept.record`).  Whoever
reads no later than that reads what was written for him (`ReadsOwn`).
-/

namespace CPUDelaySim

variable {ρ : Type}

/-- A slot is handed out with a record, or the record in a slot is read. -/
inductive RingEvent (ρ : Type)
  | takes (slot : Int) (record : ρ)
  | reads (slot : Int) (record : ρ)

/-- A record is taken. -/
def RingEvent.isTake : RingEvent ρ → Bool
  | .takes _ _ => true
  | .reads _ _ => false

/-- The slots, the one that is next, and the log. -/
structure Ring (ρ : Type) where
  slots : Nat → ρ
  next : Nat
  log : List (RingEvent ρ)

namespace Ring

/-- How many slots the log hands out. -/
def takes (log : List (RingEvent ρ)) : Nat := log.countP RingEvent.isTake

/-- How many slots the log hands out after the event at `k`. -/
def since (log : List (RingEvent ρ)) (k : Nat) : Nat := takes (log.drop (k + 1))

/-- The next slot is handed out. -/
def take (size : Nat) (record : ρ) (r : Ring ρ) : Ring ρ where
  slots := Function.update r.slots r.next record
  next := (r.next + 1) % size
  log := r.log ++ [.takes r.next record]

/-- A slot is read. -/
def read (slot : Int) (r : Ring ρ) : Ring ρ :=
  { r with log := r.log ++ [.reads slot (r.slots slot.toNat)] }

/-- A slot is read `n` times. -/
def reads (slot : Int) : Nat → Ring ρ → Ring ρ
  | 0, r => r
  | n + 1, r => reads slot n (r.read slot)

/-! ### Counting -/

section Counting

variable {log : List (RingEvent ρ)} {e e' : RingEvent ρ} {k : Nat}

/-- The records that are taken in two parts of a log. -/
theorem takes_append (log rest : List (RingEvent ρ)) :
    takes (log ++ rest) = takes log + takes rest :=
  List.countP_append

/-- What has been taken since, with more of the log. -/
theorem since_append (bound : k < log.length) (rest : List (RingEvent ρ)) :
    since (log ++ rest) k = since log k + takes rest := by
  rw [since, List.drop_append_of_le_length bound, takes_append]
  rfl

/-- The event at `k`, those before and those after it. -/
theorem takes_eq_add_since (here : log[k]? = some e) (isTake : e.isTake = true) :
    takes log = takes (log.take k) + 1 + since log k := by
  obtain ⟨bound, rfl⟩ := List.getElem?_eq_some_iff.1 here
  have split : log = log.take k ++ (log[k] :: log.drop (k + 1)) := by
    rw [List.getElem_cons_drop, List.take_append_drop]
  have counted : takes (log[k] :: log.drop (k + 1)) = since log k + 1 :=
    List.countP_cons_of_pos isTake
  calc takes log = takes (log.take k) + takes (log[k] :: log.drop (k + 1)) := by
        rw [← takes_append, ← split]
    _ = takes (log.take k) + 1 + since log k := by
        rw [counted]
        omega

/-- What is behind the end of the log is the event that is appended. -/
theorem getElem?_concat (found : (log ++ [e])[k]? = some e') :
    log[k]? = some e' ∨ k = log.length ∧ e = e' := by
  rcases Nat.lt_trichotomy k log.length with before | here | after
  · rw [List.getElem?_append_left before] at found
    exact .inl found
  · subst here
    rw [List.getElem?_concat_length] at found
    exact .inr ⟨rfl, Option.some.inj found⟩
  · rw [List.getElem?_eq_none (by simp; omega)] at found
    cases found

end Counting

/-! ### What a slot keeps -/

/-- The slots are handed out in turn, and each keeps its record until its turn comes again. -/
structure Kept (size : Nat) (r : Ring ρ) : Prop where
  next : r.next = takes r.log % size
  slot : ∀ (k : Nat) slot record, r.log[k]? = some (.takes slot record) →
    slot = ((takes (r.log.take k) % size : Nat) : Int)
  record : ∀ (k : Nat) slot record, r.log[k]? = some (.takes slot record) →
    since r.log k < size → r.slots slot.toNat = record

/-- Whoever reads has been handed out the slot he reads, gets the record that he put there, and
fewer than `size` slots, all of them others, have been handed out in between. -/
def ReadsOwn (size : Nat) (log : List (RingEvent ρ)) (owners : List (Option Nat)) : Prop :=
  ∀ (m : Nat) slot record, log[m]? = some (.reads slot record) →
    ∃ k, owners[m]? = some (some k) ∧ log[k]? = some (.takes slot record) ∧ k < m ∧
      since (log.take m) k < size ∧
      ∀ (j : Nat) other, k < j → j < m → log[j]? ≠ some (.takes slot other)

section Kept

variable {size : Nat} {r : Ring ρ} {slot : Int} {record : ρ} {k : Nat}

/-- Nothing has been handed out. -/
theorem kept_start (slots : Nat → ρ) : Kept size ⟨slots, 0, []⟩ := by
  refine ⟨(Nat.zero_mod size).symm, ?_, ?_⟩
  · intro k slot record found
    cases found
  · intro k slot record found
    cases found

/-- A read is the next event. -/
theorem log_read (r : Ring ρ) (slot : Int) :
    (r.read slot).log = r.log ++ [.reads slot (r.slots slot.toNat)] := rfl

/-- A record that is taken is the next event. -/
theorem log_take (r : Ring ρ) (size : Nat) (record : ρ) :
    (r.take size record).log = r.log ++ [.takes r.next record] := rfl

/-- A slot that is handed out is the next one. -/
theorem Kept.next_eq (kept : r.Kept size) (found : r.log[k]? = some (.takes slot record)) :
    r.next = (takes (r.log.take k) + 1 + since r.log k) % size := by
  rw [kept.next, takes_eq_add_since found rfl]

/-- Fewer than `size` turns later it is the turn of another slot. -/
theorem add_mod_ne {a d size : Nat} (pos : 0 < d) (less : d < size) :
    (a + d) % size ≠ a % size := by
  intro same
  have shifted : (a + d) % size = (a + 0) % size := same
  have equal := Nat.ModEq.add_left_cancel' a shifted
  rw [Nat.ModEq, Nat.mod_eq_of_lt less, Nat.zero_mod] at equal
  omega

/-- A record that is taken is in its slot. -/
theorem Kept.take (kept : r.Kept size) (record : ρ) : (r.take size record).Kept size := by
  refine ⟨?_, ?_, ?_⟩
  · change (r.next + 1) % size = takes (r.log ++ [_]) % size
    rw [takes_append, kept.next, Nat.mod_add_mod]
    rfl
  · intro k slot record' found
    rcases getElem?_concat found with old | ⟨rfl, new⟩
    · have bound := (List.getElem?_eq_some_iff.1 old).1
      rw [log_take, List.take_append_of_le_length bound.le]
      exact kept.slot k slot record' old
    · cases new
      rw [log_take, List.take_left, ← kept.next]
  · intro k slot record' found recent
    rcases getElem?_concat found with old | ⟨rfl, new⟩
    · have bound := (List.getElem?_eq_some_iff.1 old).1
      rw [log_take, since_append bound] at recent
      have once : takes [RingEvent.takes (r.next : Int) record] = 1 := rfl
      rw [once] at recent
      have other : slot.toNat ≠ r.next := by
        rw [kept.slot k slot record' old, kept.next_eq old, Int.toNat_natCast, add_assoc]
        exact (add_mod_ne (by omega) (by omega)).symm
      change Function.update r.slots r.next record slot.toNat = record'
      rw [Function.update_of_ne other]
      exact kept.record k slot record' old (by omega)
    · cases new
      change Function.update r.slots r.next record (r.next : Int).toNat = record
      rw [Int.toNat_natCast, Function.update_self]

/-- A read changes no slot. -/
theorem Kept.read (kept : r.Kept size) (slot : Int) : (r.read slot).Kept size := by
  refine ⟨?_, ?_, ?_⟩
  · rw [log_read, takes_append]
    exact kept.next
  · intro k slot' record found
    rcases getElem?_concat found with old | ⟨-, new⟩
    · have bound := (List.getElem?_eq_some_iff.1 old).1
      rw [log_read, List.take_append_of_le_length bound.le]
      exact kept.slot k slot' record old
    · cases new
  · intro k slot' record found recent
    rcases getElem?_concat found with old | ⟨-, new⟩
    · have bound := (List.getElem?_eq_some_iff.1 old).1
      rw [log_read, since_append bound] at recent
      exact kept.record k slot' record old recent
    · cases new

/-- Neither do several. -/
theorem Kept.reads (kept : r.Kept size) (slot : Int) (n : Nat) : (r.reads slot n).Kept size := by
  induction n generalizing r with
  | zero => exact kept
  | succ n ih => exact ih (kept.read slot)

end Kept

/-! ### What is read -/

section ReadsOwn

variable {size : Nat} {r : Ring ρ} {owners : List (Option Nat)} {slot : Int} {record : ρ} {k : Nat}

/-- The part of a log before its end stays as it was. -/
theorem ReadsOwn.old {log : List (RingEvent ρ)} {e : RingEvent ρ} {owner : Option Nat} {m : Nat}
    (own : ReadsOwn size log owners) (length : owners.length = log.length)
    (found : log[m]? = some (.reads slot record)) :
    ∃ k, (owners ++ [owner])[m]? = some (some k) ∧
      (log ++ [e])[k]? = some (.takes slot record) ∧ k < m ∧
      since ((log ++ [e]).take m) k < size ∧
      ∀ (j : Nat) other, k < j → j < m → (log ++ [e])[j]? ≠ some (.takes slot other) := by
  obtain ⟨k, owned, taken, before, recent, alone⟩ := own m slot record found
  have bound := (List.getElem?_eq_some_iff.1 found).1
  refine ⟨k, ?_, ?_, before, ?_, ?_⟩
  · rw [List.getElem?_append_left (by omega)]
    exact owned
  · rw [List.getElem?_append_left (by omega)]
    exact taken
  · rw [List.take_append_of_le_length bound.le]
    exact recent
  · intro j other after before
    rw [List.getElem?_append_left (by omega)]
    exact alone j other after before

/-- Taking a record is no read. -/
theorem ReadsOwn.take (own : ReadsOwn size r.log owners) (length : owners.length = r.log.length)
    (record : ρ) (owner : Option Nat) :
    ReadsOwn size (r.take size record).log (owners ++ [owner]) := by
  intro m slot record' found
  rcases getElem?_concat found with old | ⟨-, new⟩
  · exact own.old length old
  · cases new

/-- The slot of the owner, read in time. -/
theorem ReadsOwn.read (own : ReadsOwn size r.log owners) (length : owners.length = r.log.length)
    (kept : r.Kept size) (taken : r.log[k]? = some (.takes slot record))
    (recent : since r.log k < size) :
    ReadsOwn size (r.read slot).log (owners ++ [some k]) := by
  intro m slot' record' found
  rcases getElem?_concat found with old | ⟨rfl, new⟩
  · exact own.old length old
  · obtain ⟨rfl, rfl⟩ : slot = slot' ∧ r.slots slot.toNat = record' := by
      cases new
      exact ⟨rfl, rfl⟩
    have bound := (List.getElem?_eq_some_iff.1 taken).1
    refine ⟨k, ?_, ?_, bound, ?_, ?_⟩
    · rw [← length, List.getElem?_concat_length]
    · rw [log_read, List.getElem?_append_left bound, kept.record k slot record taken recent]
      exact taken
    · rw [log_read, List.take_left]
      exact recent
    · intro j other after before again
      rw [log_read, List.getElem?_append_left before] at again
      -- both turns are the slot's, and fewer than `size` apart
      have first := kept.slot k slot record taken
      have second := kept.slot j slot other again
      have turns := takes_eq_add_since again rfl
      rw [takes_eq_add_since taken rfl] at turns
      have later : takes (r.log.take k) + 1 ≤ takes (r.log.take j) := by
        have part :
            r.log.take j = r.log.take (k + 1) ++ (r.log.drop (k + 1)).take (j - (k + 1)) := by
          rw [← List.take_add, show k + 1 + (j - (k + 1)) = j by omega]
        have one : takes (r.log.take (k + 1)) = takes (r.log.take k) + 1 := by
          rw [List.take_add_one, taken, takes_append]
          rfl
        rw [part, takes_append, one]
        omega
      have same : (takes (r.log.take k) + (takes (r.log.take j) - takes (r.log.take k))) % size =
          takes (r.log.take k) % size := by
        rw [Nat.add_sub_cancel' (by omega)]
        exact Int.ofNat_inj.1 (second.symm.trans first)
      exact add_mod_ne (by omega) (by omega) same

/-- Reads take nothing, and leave the events before them. -/
theorem since_reads (r : Ring ρ) (slot : Int) (n : Nat) (bound : k < r.log.length) :
    since (r.reads slot n).log k = since r.log k ∧
      (r.reads slot n).log[k]? = r.log[k]? := by
  induction n generalizing r with
  | zero => exact ⟨rfl, rfl⟩
  | succ n ih =>
      obtain ⟨counted, found⟩ := ih (r.read slot) (by rw [log_read, List.length_append]; omega)
      refine ⟨counted.trans ?_, found.trans ?_⟩
      · rw [log_read, since_append bound]
        rfl
      · rw [log_read, List.getElem?_append_left bound]

/-- Each read is one event. -/
theorem length_reads (r : Ring ρ) (slot : Int) (n : Nat) :
    (r.reads slot n).log.length = r.log.length + n := by
  induction n generalizing r with
  | zero => rfl
  | succ n ih =>
      rw [reads, ih, log_read, List.length_append]
      exact Nat.add_right_comm _ _ _

/-- The log goes on. -/
theorem prefix_reads (r : Ring ρ) (slot : Int) (n : Nat) : r.log <+: (r.reads slot n).log := by
  induction n generalizing r with
  | zero => exact List.prefix_refl _
  | succ n ih => exact (List.prefix_append _ _).trans (ih (r.read slot))

/-- The reads of a record that is still in its slot are reads of the own record. -/
theorem ReadsOwn.reads (own : ReadsOwn size r.log owners) (length : owners.length = r.log.length)
    (kept : r.Kept size) (taken : r.log[k]? = some (.takes slot record))
    (recent : since r.log k < size) (n : Nat) :
    ReadsOwn size (r.reads slot n).log (owners ++ List.replicate n (some k)) := by
  induction n generalizing r owners with
  | zero => simpa [Ring.reads] using own
  | succ n ih =>
      obtain ⟨counted, found⟩ := since_reads r slot 1 (List.getElem?_eq_some_iff.1 taken).1
      have next := ih (own.read length kept taken recent)
        (by rw [log_read, List.length_append, List.length_append, length]; rfl) (kept.read slot)
        (found.trans taken) (counted ▸ recent)
      rw [List.replicate_succ, List.append_cons]
      exact next

/-- A slot read for nobody. -/
theorem not_readsOwn_of_prefix {log : List (RingEvent ρ)} {owners' : List (Option Nat)}
    (length : owners.length = r.log.length) (part : (r.read slot).log <+: log)
    (given : owners ++ [none] <+: owners') : ¬ ReadsOwn size log owners' := by
  intro own
  obtain ⟨rest, rfl⟩ := part
  obtain ⟨rest', rfl⟩ := given
  have found : ((r.read slot).log ++ rest)[r.log.length]? =
      some (.reads slot (r.slots slot.toNat)) := by
    rw [log_read, List.append_assoc, List.getElem?_append_right le_rfl, Nat.sub_self]
    rfl
  obtain ⟨k, owned, -⟩ := own _ _ _ found
  rw [List.append_assoc, ← length, List.getElem?_append_right le_rfl, Nat.sub_self] at owned
  cases owned

end ReadsOwn

end Ring

end CPUDelaySim
