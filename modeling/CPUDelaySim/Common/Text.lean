import Mathlib.Data.BitVec
import Mathlib.Data.List.DropRight

/-!
# Texts

Lines, trimming and numbers in the way of the C++ library: `std::getline`, `std::isspace`,
`std::stoi` and `std::stoull`, over lists of characters.  The two conversions take a number from
the start of a text and leave the rest alone; base 0 lets the text choose its base.

Nothing here mentions the simulator.
-/

namespace CPUDelaySim

/-! ### Lines and blanks -/

/-- The lines `std::getline` reads, up to the end of the text. -/
def getLines : List Char → List (List Char)
  | [] => []
  | c :: rest =>
      if c = '\n' then [] :: getLines rest
      else match getLines rest with
        | [] => [[c]]
        | line :: lines => (c :: line) :: lines

/-- `std::isspace` of the C locale. -/
def isSpace (c : Char) : Bool := c.toNat == 32 || (9 ≤ c.toNat && c.toNat ≤ 13)

/-- Blanks and nothing else. -/
def Blank (s : List Char) : Prop := ∀ c ∈ s, isSpace c = true

/-- A character that is no space is not in a blank. -/
theorem Blank.not_mem {b : List Char} (blank : Blank b) {c : Char} (solid : isSpace c = false) :
    c ∉ b := by
  intro member
  rw [blank c member] at solid
  cases solid

/-- The text without the blanks around it. -/
def trim (s : List Char) : List Char := (s.dropWhile isSpace).rdropWhile isSpace

/-- Trimming adds nothing. -/
theorem mem_of_mem_trim {s : List Char} {c : Char} (member : c ∈ trim s) : c ∈ s :=
  (List.dropWhile_suffix _).subset ((List.rdropWhile_prefix _ _).subset member)

/-- A text with no blank around it. -/
structure Solid (s : List Char) : Prop where
  first : ∃ c t, s = c :: t ∧ isSpace c = false
  last : ∃ t c, s = t ++ [c] ∧ isSpace c = false

/-- A text without any space is solid. -/
theorem Solid.of_forall {s : List Char} (some : s ≠ []) (all : ∀ c ∈ s, isSpace c = false) :
    Solid s := by
  constructor
  · obtain ⟨c, t, rfl⟩ := List.exists_cons_of_ne_nil some
    exact ⟨c, t, rfl, all c List.mem_cons_self⟩
  · refine ⟨s.dropLast, s.getLast some, (List.dropLast_concat_getLast some).symm, ?_⟩
    exact all _ (List.getLast_mem some)

/-- The same, by evaluation. -/
theorem Solid.of_all {s : List Char} (some : s ≠ []) (all : (s.all fun c => !isSpace c) = true) :
    Solid s :=
  .of_forall some fun c member => (Bool.not_eq_true' _).mp (List.all_eq_true.1 all c member)

/-- What stands between two texts does not matter. -/
theorem Solid.append {s t : List Char} (first : Solid s) (last : Solid t) (m : List Char) :
    Solid (s ++ m ++ t) := by
  obtain ⟨c, s, rfl, solid⟩ := first.first
  obtain ⟨t, d, rfl, solid'⟩ := last.last
  exact ⟨⟨c, s ++ m ++ (t ++ [d]), rfl, solid⟩,
    ⟨c :: s ++ m ++ t, d, (List.append_assoc ..).symm, solid'⟩⟩

/-- Trimming takes away the blanks around a text. -/
theorem Solid.trim {s b b' : List Char} (solid : Solid s) (blank : Blank b) (blank' : Blank b') :
    trim (b ++ s ++ b') = s := by
  obtain ⟨c, t, start, first⟩ := solid.first
  obtain ⟨t', d, stop, last⟩ := solid.last
  have front : (b ++ s ++ b').dropWhile isSpace = s ++ b' := by
    rw [List.append_assoc, List.dropWhile_append_of_pos blank, start, List.cons_append,
      List.dropWhile_cons_of_neg (by rw [first]; decide)]
  have back : b'.reverse.dropWhile isSpace = [] :=
    List.dropWhile_eq_nil_iff.2 fun x member => blank' x (List.mem_reverse.1 member)
  rw [CPUDelaySim.trim, front, List.rdropWhile, List.reverse_append,
    List.dropWhile_append_of_pos fun x member => blank' x (List.mem_reverse.1 member), stop,
    List.reverse_append, List.reverse_singleton, List.singleton_append,
    List.dropWhile_cons_of_neg (by rw [last]; decide), List.reverse_cons, List.reverse_reverse]

/-- Nothing is blank. -/
theorem blank_nil : Blank [] := fun _ member => absurd member List.not_mem_nil

/-- Two blanks in a row. -/
theorem Blank.append {b b' : List Char} (blank : Blank b) (blank' : Blank b') : Blank (b ++ b') :=
  List.forall_mem_append.2 ⟨blank, blank'⟩

/-- A blank is trimmed away. -/
theorem Blank.trim {b : List Char} (blank : Blank b) : trim b = [] := by
  rw [CPUDelaySim.trim, List.dropWhile_eq_nil_iff.2 blank]
  rfl

/-- What trimming leaves: nothing, or a text with no blank around it. -/
def Trimmed (s : List Char) : Prop := s = [] ∨ Solid s

/-- The blanks around a text that has been trimmed are trimmed away again. -/
theorem Trimmed.trim {s b b' : List Char} (trimmed : Trimmed s) (blank : Blank b)
    (blank' : Blank b') : trim (b ++ s ++ b') = s := by
  rcases trimmed with rfl | solid
  · rw [List.append_nil]
    exact (blank.append blank').trim
  · exact solid.trim blank blank'

/-- Every text is a trimmed one between blanks. -/
theorem exists_trimmed (s : List Char) :
    ∃ b t b', Blank b ∧ Trimmed t ∧ Blank b' ∧ s = b ++ t ++ b' := by
  refine ⟨s.takeWhile isSpace, CPUDelaySim.trim s, (s.dropWhile isSpace).rtakeWhile isSpace,
    fun c member => List.mem_takeWhile_imp member, ?_,
    fun c member => List.mem_rtakeWhile_imp member, ?_⟩
  · by_cases empty : CPUDelaySim.trim s = []
    · exact .inl empty
    · refine .inr ⟨?_, ?_⟩
      · obtain ⟨c, rest, start⟩ := List.exists_cons_of_ne_nil empty
        have some : s.dropWhile isSpace ≠ [] := by
          intro none
          rw [CPUDelaySim.trim, none] at empty
          exact empty rfl
        refine ⟨c, rest, start, ?_⟩
        obtain ⟨t, split⟩ := List.rdropWhile_prefix isSpace (s.dropWhile isSpace)
        rw [← CPUDelaySim.trim, start, List.cons_append] at split
        have head := List.head_dropWhile_not isSpace some
        have here : (s.dropWhile isSpace).head some = c := by
          simp [← split]
        rw [here] at head
        simpa using head
      · refine ⟨(CPUDelaySim.trim s).dropLast, (CPUDelaySim.trim s).getLast empty,
          (List.dropLast_concat_getLast empty).symm, ?_⟩
        have last := List.rdropWhile_last_not isSpace (s.dropWhile isSpace) empty
        exact Bool.eq_false_of_not_eq_true last
  · rw [CPUDelaySim.trim, List.append_assoc, List.rdropWhile_append_rtakeWhile,
      List.takeWhile_append_dropWhile]

/-- The first place of a character that the text before it does not have. -/
theorem idxOf?_append_cons {c : Char} {s : List Char} (absent : c ∉ s) (t : List Char) :
    (s ++ c :: t).idxOf? c = some s.length := by
  induction s with
  | nil => rw [List.nil_append, List.idxOf?_cons, if_pos (beq_self_eq_true c)]; rfl
  | cons d s ih =>
      obtain ⟨other, absent⟩ := not_or.1 (mt List.mem_cons.2 absent)
      rw [List.cons_append, List.idxOf?_cons, if_neg (by simpa using Ne.symm other), ih absent]
      rfl

/-! ### Numbers -/

/-- What the library throws. -/
inductive StdError
  | invalidArgument | outOfRange
  deriving DecidableEq, Repr

/-- The digit a character stands for. -/
def digitOf (c : Char) : Option Nat :=
  let n := c.toNat
  if 48 ≤ n ∧ n ≤ 57 then some (n - 48)
  else if 65 ≤ n ∧ n ≤ 90 then some (n - 55)
  else if 97 ≤ n ∧ n ≤ 122 then some (n - 87)
  else none

/-- A digit of a base. -/
def digit? (base : Nat) (c : Char) : Option Nat := (digitOf c).filter (· < base)

/-- The digits at the start of a text. -/
def readDigits (base : Nat) : List Char → List Nat
  | [] => []
  | c :: rest =>
      match digit? base c with
      | some d => d :: readDigits base rest
      | none => []

/-- The number with these digits. -/
def digitsValue (base : Nat) (digits : List Nat) : Nat := digits.foldl (fun v d => v * base + d) 0

/-- The sign of a number, and what follows it. -/
def readSign : List Char → Bool × List Char
  | '-' :: rest => (true, rest)
  | '+' :: rest => (false, rest)
  | s => (false, s)

/-- The base that base 0 stands for, and the digits. -/
def readBase : List Char → Nat × List Char
  | '0' :: x :: c :: rest =>
      if (x = 'x' ∨ x = 'X') ∧ (digit? 16 c).isSome then (16, c :: rest)
      else (8, '0' :: x :: c :: rest)
  | '0' :: rest => (8, '0' :: rest)
  | s => (10, s)

/-- `std::stoi(s)`. -/
def stoi (s : List Char) : Except StdError Int :=
  let (negative, s) := readSign (s.dropWhile isSpace)
  let digits := readDigits 10 s
  let v : Int := if negative then -digitsValue 10 digits else digitsValue 10 digits
  if digits = [] then .error .invalidArgument
  else if v < -2 ^ 31 ∨ 2 ^ 31 ≤ v then .error .outOfRange
  else .ok v

/-- `std::stoull(s, nullptr, 0)`. -/
def stoull (s : List Char) : Except StdError (BitVec 64) :=
  let (negative, s) := readSign (s.dropWhile isSpace)
  let (base, s) := readBase s
  let digits := readDigits base s
  let v := digitsValue base digits
  if digits = [] then .error .invalidArgument
  else if 2 ^ 64 ≤ v then .error .outOfRange
  else .ok (if negative then -BitVec.ofNat 64 v else BitVec.ofNat 64 v)

/-- The text is a decimal number, or a hexadecimal one after `0x`.  A decimal number does not start
with a zero: base 0 has octal numbers for that. -/
inductive Numeral : List Char → Nat → Prop
  | zero : Numeral ['0'] 0
  | decimal {c : Char} {rest : List Char} {digits : List Nat} (nonzero : c ≠ '0')
      (read : (c :: rest).mapM (digit? 10) = some digits) :
      Numeral (c :: rest) (digitsValue 10 digits)
  | hex {x c : Char} {rest : List Char} {digits : List Nat} (prefixed : x = 'x' ∨ x = 'X')
      (read : (c :: rest).mapM (digit? 16) = some digits) :
      Numeral ('0' :: x :: c :: rest) (digitsValue 16 digits)

/-- A digit of a base is a digit below the base. -/
theorem digit?_eq_some_iff {base d : Nat} {c : Char} :
    digit? base c = some d ↔ digitOf c = some d ∧ d < base := by
  rw [digit?, Option.filter_eq_some_iff, decide_eq_true_iff]

/-- What is no digit at all is no digit of any base. -/
theorem digit?_of_none {base : Nat} {c : Char} (none : digitOf c = none) :
    digit? base c = Option.none := by
  rw [digit?, none]
  rfl

/-- A digit is no space. -/
theorem isSpace_of_digit? {base d : Nat} {c : Char} (read : digit? base c = some d) :
    isSpace c = false := by
  have read := (digit?_eq_some_iff.1 read).1
  by_contra blank
  rw [isSpace, Bool.not_eq_false, Bool.or_eq_true, Bool.and_eq_true, beq_iff_eq,
    decide_eq_true_iff, decide_eq_true_iff] at blank
  rw [digitOf, if_neg (by omega), if_neg (by omega), if_neg (by omega)] at read
  cases read

/-- All characters are digits, and nothing more of the number follows. -/
theorem readDigits_append {base : Nat} {s : List Char} {digits : List Nat}
    (read : s.mapM (digit? base) = some digits) {t : List Char}
    (stop : ∀ c ∈ t.head?, digit? base c = none) : readDigits base (s ++ t) = digits := by
  induction s generalizing digits with
  | nil =>
      obtain rfl : digits = [] := by simpa using read.symm
      cases t with
      | nil => rfl
      | cons c t => rw [List.nil_append, readDigits, stop c rfl]
  | cons c s ih =>
      rw [List.mapM_cons] at read
      cases first : digit? base c with
      | none => simp [first] at read
      | some d =>
          cases others : s.mapM (digit? base) with
          | none => simp [first, others] at read
          | some ds =>
              obtain rfl : digits = d :: ds := by simpa [first, others] using read.symm
              rw [List.cons_append, readDigits, first]
              exact congrArg (List.cons d) (ih others)

/-- A text of digits is read to its end. -/
theorem readDigits_of_mapM {base : Nat} {s : List Char} {digits : List Nat}
    (read : s.mapM (digit? base) = some digits) : readDigits base s = digits := by
  have all := readDigits_append read (t := []) (fun c member => by cases member)
  rwa [List.append_nil] at all

/-- Each character of such a text is a digit. -/
theorem digit?_of_mem {base : Nat} {s : List Char} {digits : List Nat}
    (read : s.mapM (digit? base) = some digits) :
    ∀ c ∈ s, ∃ d, digit? base c = some d := by
  induction s generalizing digits with
  | nil => exact fun c member => absurd member List.not_mem_nil
  | cons c s ih =>
      intro c' member
      rw [List.mapM_cons] at read
      cases first : digit? base c with
      | none => simp [first] at read
      | some d =>
          cases others : s.mapM (digit? base) with
          | none => simp [first, others] at read
          | some ds =>
              rcases List.mem_cons.1 member with rfl | member
              · exact ⟨d, first⟩
              · exact ih others c' member

/-- What is no digit is not in a number. -/
theorem not_mem_of_mapM {base : Nat} {c : Char} (none : digitOf c = none) {s : List Char}
    {digits : List Nat} (read : s.mapM (digit? base) = some digits) : c ∉ s := by
  intro member
  obtain ⟨d, digit⟩ := digit?_of_mem read c member
  rw [digit?_of_none none] at digit
  cases digit

/-- A text with a character has a digit. -/
theorem ne_nil_of_mapM {base : Nat} {c : Char} {s : List Char} {digits : List Nat}
    (read : (c :: s).mapM (digit? base) = some digits) : digits ≠ [] := by
  rintro rfl
  obtain ⟨d, digit⟩ := digit?_of_mem read c List.mem_cons_self
  have none := readDigits_of_mapM read
  rw [readDigits, digit] at none
  cases none

/-- A digit is no sign and no blank, so the number starts with it. -/
theorem readSign_digit {base d : Nat} {c : Char} (read : digit? base c = some d) (s : List Char) :
    readSign ((c :: s).dropWhile isSpace) = (false, c :: s) := by
  rw [List.dropWhile_cons_of_neg (by rw [isSpace_of_digit? read]; decide)]
  unfold readSign
  split
  · rename_i same
    cases same
    rw [digit?_of_none rfl] at read
    cases read
  · rename_i same
    cases same
    rw [digit?_of_none rfl] at read
    cases read
  · rfl

/-- A blank is no digit. -/
theorem digit?_of_isSpace {base : Nat} {c : Char} (blank : isSpace c = true) :
    digit? base c = none := by
  cases read : digit? base c with
  | none => rfl
  | some d =>
      rw [isSpace_of_digit? read] at blank
      cases blank

namespace Numeral

/-- A numeral has no space in it. -/
theorem solid {s : List Char} {v : Nat} (numeral : Numeral s v) : Solid s := by
  cases numeral with
  | zero => exact Solid.of_all (List.cons_ne_nil _ _) rfl
  | decimal nonzero read =>
      refine Solid.of_forall (List.cons_ne_nil _ _) fun c member => ?_
      obtain ⟨d, digit⟩ := digit?_of_mem read c member
      exact isSpace_of_digit? digit
  | hex prefixed read =>
      refine Solid.of_forall (List.cons_ne_nil _ _) fun c member => ?_
      rcases List.mem_cons.1 member with rfl | member
      · rfl
      · rcases List.mem_cons.1 member with rfl | member
        · rcases prefixed with rfl | rfl <;> rfl
        · obtain ⟨d, digit⟩ := digit?_of_mem read c member
          exact isSpace_of_digit? digit

/-- `std::stoull` takes the number that is written. -/
theorem stoull {s : List Char} {v : Nat} (numeral : Numeral s v) (low : v < 2 ^ 64) :
    stoull s = .ok (BitVec.ofNat 64 v) := by
  cases numeral with
  | zero => rfl
  | @decimal c rest digits nonzero read =>
      obtain ⟨d, digit⟩ := digit?_of_mem read c List.mem_cons_self
      have base : readBase (c :: rest) = (10, c :: rest) := by
        unfold readBase
        split
        · rename_i same
          exact absurd (List.cons.inj same).1 nonzero
        · rename_i same
          exact absurd (List.cons.inj same).1 nonzero
        · rfl
      rw [CPUDelaySim.stoull, readSign_digit digit]
      dsimp only
      rw [base]
      dsimp only
      rw [readDigits_of_mapM read, if_neg (ne_nil_of_mapM read), if_neg (Nat.not_le.2 low)]
      rfl
  | @hex x c rest digits prefixed read =>
      obtain ⟨d, digit⟩ := digit?_of_mem read c List.mem_cons_self
      have zero : digit? 10 '0' = some 0 := by decide
      have base : readBase ('0' :: x :: c :: rest) = (16, c :: rest) := by
        rw [readBase]
        exact if_pos ⟨prefixed, by rw [digit]; rfl⟩
      rw [CPUDelaySim.stoull, readSign_digit zero]
      dsimp only
      rw [base]
      dsimp only
      rw [readDigits_of_mapM read, if_neg (ne_nil_of_mapM read), if_neg (Nat.not_le.2 low)]
      rfl

end Numeral

/-- `std::stoi` takes the number between two blanks. -/
theorem stoi_of_digits {b b' : List Char} {c : Char} {rest : List Char} {digits : List Nat}
    (blank : Blank b) (blank' : Blank b') (read : (c :: rest).mapM (digit? 10) = some digits)
    (low : digitsValue 10 digits < 2 ^ 31) :
    stoi (b ++ (c :: rest) ++ b') = .ok (digitsValue 10 digits) := by
  obtain ⟨d, digit⟩ := digit?_of_mem read c List.mem_cons_self
  have front : (b ++ (c :: rest) ++ b').dropWhile isSpace =
      (c :: (rest ++ b')).dropWhile isSpace := by
    rw [List.append_assoc, List.dropWhile_append_of_pos blank]
    rfl
  have taken : readDigits 10 (c :: (rest ++ b')) = digits :=
    readDigits_append read fun x member =>
      digit?_of_isSpace (blank' x (List.mem_of_mem_head? member))
  rw [stoi, front, readSign_digit digit]
  dsimp only
  rw [taken, if_neg (ne_nil_of_mapM read), if_neg (by simp; omega)]
  rfl

end CPUDelaySim
