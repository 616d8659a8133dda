import CPUDelaySim.Common.Text
import CPUDelaySim.Riscv.RiscvArch

/-!
# The configuration file

`Arch::initConfig` of `arch/arch.h` reads `name = value` and `name[i] = value` into records, and
`RiscvArch::initConfig` stores the records whose name is in `name_offset_map`.  The name of an
indexed line is recorded with its brackets, which no name of the map has, so the line has no effect
(`initConfigFile_eq`).

`ConfigLine` lists the lines there are, with arbitrary blanks, and each form has the effect the
parser gives it (`ConfigLine.effect`, `ConfigLine.throws`).  So a file is a list of `ConfigEntry`,
and the theorem compares two lists of writes: what the lines store and what they ask for.
`lastOf` makes the comparison word by word, as only the last write of a word counts.
-/

namespace CPUDelaySim.Riscv

/-! ### The two functions -/

/-- `Arch::ArchConfig`. -/
structure ArchConfig where
  offset : BitVec 32
  name : List Char
  value : Word
  deriving DecidableEq

/-- `name` and `offset_index`, of the part of a line before `=`. -/
def parseLeft (left : List Char) : Except StdError (List Char × Int) :=
  match left.idxOf? '[', left.idxOf? ']' with
  | some start, some stop =>
      if start < stop then do
        let index ← stoi ((left.drop (start + 1)).take (stop - start - 1))
        return (left.take start, index)
      else .ok (left, 0)
  | _, _ => .ok (left, 0)

/-- The record of a line.  Its name is all that is before `=`, not the name that was parsed. -/
def parseLine (line : List Char) : Except StdError (Option ArchConfig) :=
  let line := trim line
  match line.idxOf? '=' with
  | none => .ok none
  | some eqPos => do
      let left := trim (line.take eqPos)
      let right := trim (line.drop (eqPos + 1))
      let (_, offsetIndex) ← parseLeft left
      let actualOffset := BitVec.ofInt 64 offsetIndex * 8
      let value ← stoull right
      return some ⟨actualOffset.setWidth 32, left, value⟩

/-- `Arch::initConfig`. -/
def archConfigs : List (List Char) → Except StdError (List ArchConfig)
  | [] => .ok []
  | line :: lines => do
      let config ← parseLine line
      let configs ← archConfigs lines
      return config.toList ++ configs

/-- The names of `name_offset_map`. -/
inductive ConfigName
  | misa | priv | mstatus | pmpcfg | pmpaddr | mideleg | medeleg
  deriving DecidableEq, Repr

namespace ConfigName

/-- The name as it is written in a file. -/
def text : ConfigName → List Char
  | misa => "misa".toList
  | priv => "priv".toList
  | mstatus => "mstatus".toList
  | pmpcfg => "pmpcfg".toList
  | pmpaddr => "pmpaddr".toList
  | mideleg => "mideleg".toList
  | medeleg => "medeleg".toList

/-- The word at the offset of the name. -/
def word : ConfigName → StateWord
  | misa => .misa
  | priv => .priv
  | mstatus => .mstatus
  | pmpcfg => .pmpcfg 0
  | pmpaddr => .pmpaddr 0
  | mideleg => .mideleg
  | medeleg => .medeleg

/-- How many words the register array has. -/
def size : ConfigName → Nat
  | pmpcfg => 2
  | pmpaddr => 16
  | _ => 1

def all : List ConfigName := [misa, priv, mstatus, pmpcfg, pmpaddr, mideleg, medeleg]

/-- The words of the array follow each other. -/
theorem exists_fieldAt {n : ConfigName} {i : Nat} (low : i < n.size) :
    ∃ w, fieldAt (n.word.offset + 8 * i) = some (w, 0) := by
  obtain ⟨w, place⟩ : ∃ w : StateWord, w.offset = n.word.offset + 8 * i := by
    by_cases first : i = 0
    · rw [first]
      exact ⟨n.word, rfl⟩
    · cases n with
      | pmpcfg =>
          change i < 2 at low
          refine ⟨.pmpcfg (BitVec.ofNat 1 i), ?_⟩
          simp [word, StateWord.offset]
          omega
      | pmpaddr =>
          change i < 16 at low
          refine ⟨.pmpaddr (BitVec.ofNat 4 i), ?_⟩
          simp [word, StateWord.offset]
          omega
      | misa | priv | mstatus | mideleg | medeleg => exact absurd (Nat.lt_one_iff.1 low) first
  rw [← place]
  exact ⟨w, fieldAt_offset w⟩

end ConfigName

/-- `name_offset_map`. -/
def nameOffsetMap (name : List Char) : Option Nat :=
  (ConfigName.all.find? fun n => n.text == name).map fun n => n.word.offset

/-- A record stored; outside the words of the state that is a write of other memory. -/
def storeConfig (s : ArchState) (config : ArchConfig) : Except Abort ArchState :=
  match nameOffsetMap config.name with
  | none => .ok s
  | some base =>
      match fieldAt (BitVec.ofNat 32 base + config.offset).toNat with
      | some (w, 0) => .ok (s.set w config.value)
      | _ => .error .badOffset

/-- What ends the simulator. -/
inductive ConfigFault
  | throws (e : StdError) | aborts (a : Abort)
  deriving DecidableEq, Repr

/-- `RiscvArch::initConfig`. -/
def initConfigFile (file : List Char) (s : ArchState) : Except ConfigFault ArchState := do
  let configs ← (archConfigs (getLines file)).mapError .throws
  (configs.foldlM storeConfig s).mapError .aborts

/-! ### The lines of a file -/

/-- What a line asks for and what it does. -/
inductive ConfigEntry
  /-- It asks for a value, and stores it. -/
  | plain (w : StateWord) (v : Word)
  /-- It asks for a value, and stores nothing. -/
  | indexed (w : StateWord) (v : Word)
  /-- It asks for nothing, and stores a value. -/
  | misread (w : StateWord) (v : Word)
  | ignored
  /-- It asks for nothing, and the simulator throws. -/
  | unread
  deriving DecidableEq

/-- `name[i]`, with any blanks. -/
def Indexes (n : ConfigName) (i : Nat) (left : List Char) : Prop :=
  ∃ b₁ b₂ b₃ c index digits, Blank b₁ ∧ Blank b₂ ∧ Blank b₃ ∧
    (c :: index).mapM (digit? 10) = some digits ∧ digitsValue 10 digits = i ∧
    left = (n.text ++ b₁) ++ '[' :: (b₂ ++ (c :: index) ++ b₃ ++ [']'])

/-- The two sides of a line with `=`.  The value is to be a decimal number, or a hexadecimal one
after `0x`, that fits 64 bits; `std::stoull` takes others too (`010`, `12abc`, `-1`), and throws at
the rest. -/
inductive Assigns (left right : List Char) : ConfigEntry → Prop
  | plain (n : ConfigName) {v : Nat} (name : left = n.text) (reads : Numeral right v)
      (low : v < 2 ^ 64) : Assigns left right (.plain n.word (BitVec.ofNat 64 v))
  | indexed (n : ConfigName) {i v : Nat} {w : StateWord} (name : Indexes n i left)
      (inside : i < n.size) (addressed : fieldAt (n.word.offset + 8 * i) = some (w, 0))
      (reads : Numeral right v) (low : v < 2 ^ 64) :
      Assigns left right (.indexed w (BitVec.ofNat 64 v))
  | misread (n : ConfigName) {v : Word} (name : left = n.text)
      (odd : ∀ u, Numeral right u → 2 ^ 64 ≤ u) (taken : stoull right = .ok v) :
      Assigns left right (.misread n.word v)
  | other {v : Word} {p : List Char × Int} (unnamed : ∀ n : ConfigName, n.text ≠ left)
      (asksNot : ∀ (n : ConfigName) i u, Indexes n i left → i < n.size → Numeral right u →
        2 ^ 64 ≤ u)
      (parsed : parseLeft left = .ok p) (taken : stoull right = .ok v) :
      Assigns left right .ignored
  | unread (fails : (∃ e, parseLeft left = .error e) ∨ ∃ e, stoull right = .error e) :
      Assigns left right .unread

/-- The lines of a configuration file, with arbitrary blanks. -/
inductive ConfigLine : List Char → ConfigEntry → Prop
  | text {line : List Char} (absent : '=' ∉ line) : ConfigLine line .ignored
  | assign {b₀ b₁ b₂ b₃ left right : List Char} {entry : ConfigEntry} (blank₀ : Blank b₀)
      (blank₁ : Blank b₁) (blank₂ : Blank b₂) (blank₃ : Blank b₃) (trimmed : Trimmed left)
      (trimmed' : Trimmed right) (absent : '=' ∉ left) (assigns : Assigns left right entry) :
      ConfigLine (b₀ ++ left ++ b₁ ++ '=' :: (b₂ ++ right ++ b₃)) entry

/-- Every line is one of these. -/
theorem exists_assigns (left right : List Char) : ∃ entry, Assigns left right entry := by
  cases parsed : parseLeft left with
  | error e => exact ⟨_, .unread (.inl ⟨e, parsed⟩)⟩
  | ok p =>
      cases taken : stoull right with
      | error e => exact ⟨_, .unread (.inr ⟨e, taken⟩)⟩
      | ok v =>
          by_cases named : ∃ n : ConfigName, n.text = left
          · obtain ⟨n, name⟩ := named
            by_cases number : ∃ u, Numeral right u ∧ u < 2 ^ 64
            · obtain ⟨u, reads, low⟩ := number
              exact ⟨_, .plain n name.symm reads low⟩
            · refine ⟨_, .misread n name.symm (fun u reads => ?_) taken⟩
              exact Nat.le_of_not_lt fun low => number ⟨u, reads, low⟩
          · by_cases asks : ∃ (n : ConfigName) (i u : Nat),
                Indexes n i left ∧ i < n.size ∧ Numeral right u ∧ u < 2 ^ 64
            · obtain ⟨n, i, u, name, inside, reads, low⟩ := asks
              obtain ⟨w, addressed⟩ := ConfigName.exists_fieldAt inside
              exact ⟨_, .indexed n name inside addressed reads low⟩
            · refine ⟨_, .other (fun n name => named ⟨n, name⟩) ?_ parsed taken⟩
              intro n i u name inside reads
              exact Nat.le_of_not_lt fun low => asks ⟨n, i, u, name, inside, reads, low⟩

/-- Every line of a file is one of these. -/
theorem exists_configLine (line : List Char) : ∃ entry, ConfigLine line entry := by
  by_cases absent : '=' ∈ line
  · obtain ⟨l, r, rfl, first⟩ := List.eq_append_cons_of_mem absent
    obtain ⟨b₀, left, b₁, blank₀, trimmed, blank₁, rfl⟩ := exists_trimmed l
    obtain ⟨b₂, right, b₃, blank₂, trimmed', blank₃, rfl⟩ := exists_trimmed r
    obtain ⟨entry, assigns⟩ := exists_assigns left right
    refine ⟨entry, .assign blank₀ blank₁ blank₂ blank₃ trimmed trimmed' ?_ assigns⟩
    intro member
    exact first (List.mem_append_left _ (List.mem_append_right _ member))
  · exact ⟨_, .text absent⟩

/-- Every file has such lines. -/
theorem exists_configLines (lines : List (List Char)) :
    ∃ entries, List.Forall₂ ConfigLine lines entries := by
  induction lines with
  | nil => exact ⟨[], .nil⟩
  | cons line lines ih =>
      obtain ⟨entry, form⟩ := exists_configLine line
      obtain ⟨entries, forms⟩ := ih
      exact ⟨entry :: entries, .cons form forms⟩

/-! ### What is read of a line -/

namespace ConfigName

/-- No name has a blank in it. -/
theorem solid (n : ConfigName) : Solid n.text := by
  cases n <;> exact Solid.of_all (by decide) rfl

/-- No name has a `=` in it. -/
theorem eq_not_mem (n : ConfigName) : '=' ∉ n.text := by cases n <;> decide

/-- No name has a bracket in it. -/
theorem open_not_mem (n : ConfigName) : '[' ∉ n.text := by cases n <;> decide

/-- Nor has it the other bracket. -/
theorem close_not_mem (n : ConfigName) : ']' ∉ n.text := by cases n <;> decide

/-- The name of a word is found in the table. -/
theorem nameOffsetMap_text (n : ConfigName) : nameOffsetMap n.text = some n.word.offset := by
  cases n <;> rfl

end ConfigName

/-- A name that is none of the map's. -/
theorem nameOffsetMap_eq_none {name : List Char} (unnamed : ∀ n : ConfigName, n.text ≠ name) :
    nameOffsetMap name = none := by
  rw [nameOffsetMap, List.find?_eq_none.2 fun n _ => by simpa using unnamed n]
  rfl

/-- Trimming a line leaves its `=`, between texts that trim to the two sides. -/
theorem trim_assign {b₀ b₁ b₂ b₃ left right : List Char} (blank₀ : Blank b₀) (blank₁ : Blank b₁)
    (blank₂ : Blank b₂) (blank₃ : Blank b₃) (trimmed : Trimmed left) (trimmed' : Trimmed right)
    (absent : '=' ∉ left) :
    ∃ first rest, trim (b₀ ++ left ++ b₁ ++ '=' :: (b₂ ++ right ++ b₃)) = first ++ '=' :: rest ∧
      '=' ∉ first ∧ trim first = left ∧ trim rest = right := by
  have sign : Solid ['='] := .of_all (List.cons_ne_nil _ _) rfl
  have front : '=' ∉ left ++ b₁ := by
    rw [List.mem_append, not_or]
    exact ⟨absent, blank₁.not_mem rfl⟩
  have before : trim (left ++ b₁) = left := by simpa using trimmed.trim blank_nil blank₁
  have behind : trim (b₂ ++ right) = right := by simpa using trimmed'.trim blank₂ blank_nil
  rcases trimmed with rfl | solid
  · rcases trimmed' with rfl | solid'
    · refine ⟨[], [], ?_, List.not_mem_nil, rfl, rfl⟩
      have inner := sign.trim (blank₀.append blank₁) (blank₂.append blank₃)
      simpa [List.append_assoc] using inner
    · refine ⟨[], b₂ ++ right, ?_, List.not_mem_nil, rfl, behind⟩
      have inner := (sign.append solid' b₂).trim (blank₀.append blank₁) blank₃
      simpa [List.append_assoc] using inner
  · rcases trimmed' with rfl | solid'
    · refine ⟨left ++ b₁, [], ?_, front, before, rfl⟩
      have inner := (solid.append sign b₁).trim blank₀ (blank₂.append blank₃)
      simpa [List.append_assoc] using inner
    · refine ⟨left ++ b₁, b₂ ++ right, ?_, front, before, behind⟩
      have inner := (solid.append solid' (b₁ ++ '=' :: b₂)).trim blank₀ blank₃
      simpa [List.append_assoc] using inner

/-- The two sides of a line, without the blanks around them. -/
theorem parseLine_eq {b₀ b₁ b₂ b₃ left right : List Char} (blank₀ : Blank b₀) (blank₁ : Blank b₁)
    (blank₂ : Blank b₂) (blank₃ : Blank b₃) (trimmed : Trimmed left) (trimmed' : Trimmed right)
    (absent : '=' ∉ left) :
    parseLine (b₀ ++ left ++ b₁ ++ '=' :: (b₂ ++ right ++ b₃)) = do
      let (_, offsetIndex) ← parseLeft left
      let value ← stoull right
      return some ⟨(BitVec.ofInt 64 offsetIndex * 8).setWidth 32, left, value⟩ := by
  obtain ⟨first, rest, line, front, before, behind⟩ :=
    trim_assign blank₀ blank₁ blank₂ blank₃ trimmed trimmed' absent
  have tail : (first ++ '=' :: rest).drop (first.length + 1) = rest := by
    rw [← List.drop_drop, List.drop_left]
    rfl
  rw [parseLine, line, idxOf?_append_cons front]
  dsimp only
  rw [List.take_left, tail, before, behind]

/-- Without a bracket the part is the name. -/
theorem parseLeft_of_bare {left : List Char} (bare : '[' ∉ left) :
    parseLeft left = .ok (left, 0) := by
  rw [parseLeft, List.idxOf?_eq_none_iff.2 bare]

/-- With brackets, what is between them is the index. -/
theorem parseLeft_indexed {name b b' index : List Char} {c : Char} {digits : List Nat}
    (bare : '[' ∉ name ∧ ']' ∉ name) (blank : Blank b) (blank' : Blank b')
    (counts : (c :: index).mapM (digit? 10) = some digits) (low : digitsValue 10 digits < 2 ^ 31) :
    parseLeft (name ++ '[' :: (b ++ (c :: index) ++ b' ++ [']'])) =
      .ok (name, digitsValue 10 digits) := by
  have inner : ']' ∉ b ++ (c :: index) ++ b' := by
    rw [List.mem_append, List.mem_append, not_or, not_or]
    exact ⟨⟨blank.not_mem rfl, not_mem_of_mapM rfl counts⟩, blank'.not_mem rfl⟩
  have before : ']' ∉ name ++ '[' :: (b ++ (c :: index) ++ b') := by
    rw [List.mem_append, List.mem_cons, not_or, not_or]
    exact ⟨bare.2, by decide, inner⟩
  have stop : (name ++ '[' :: (b ++ (c :: index) ++ b' ++ [']'])).idxOf? ']' =
      some (name.length + (1 + (b ++ (c :: index) ++ b').length)) := by
    have found := idxOf?_append_cons before []
    rw [List.append_assoc, List.cons_append] at found
    rw [found, List.length_append, List.length_cons, Nat.add_comm 1]
  have rest : (name ++ '[' :: (b ++ (c :: index) ++ b' ++ [']'])).drop (name.length + 1) =
      b ++ (c :: index) ++ b' ++ [']'] := by
    rw [← List.drop_drop, List.drop_left]
    rfl
  have between : name.length + (1 + (b ++ (c :: index) ++ b').length) - name.length - 1 =
      (b ++ (c :: index) ++ b').length := by omega
  rw [parseLeft, idxOf?_append_cons bare.1, stop]
  dsimp only
  rw [if_pos (by omega), rest, between, List.take_left, stoi_of_digits blank blank' counts low,
    List.take_left]
  rfl

/-! ### What a line does -/

namespace ConfigEntry

/-- The word that a line is about. -/
def word : ConfigEntry → Option StateWord
  | plain w _ | indexed w _ | misread w _ => some w
  | ignored | unread => none

/-- What the lines store. -/
def stores (entries : List ConfigEntry) : List (StateWord × Word) :=
  entries.filterMap fun
    | plain w v | misread w v => some (w, v)
    | _ => none

/-- What the lines ask for. -/
def asks (entries : List ConfigEntry) : List (StateWord × Word) :=
  entries.filterMap fun
    | plain w v | indexed w v => some (w, v)
    | _ => none

/-- No line is about the word. -/
def Untouched (w : StateWord) (entries : List ConfigEntry) : Prop :=
  ∀ entry ∈ entries, entry.word ≠ some w

end ConfigEntry

/-- The words with a name are those that a file can set. -/
theorem ConfigName.word_mem (n : ConfigName) : n.word ∈ RiscvArch.configWords := by
  cases n <;> decide

/-- A record whose name is not in the map is not stored. -/
theorem storeConfig_unnamed (s : ArchState) {config : ArchConfig}
    (unnamed : nameOffsetMap config.name = none) : storeConfig s config = .ok s := by
  rw [storeConfig, unnamed]

/-- A line without an index stores its value into the word that it names. -/
theorem storeConfig_plain (s : ArchState) (n : ConfigName) (v : Word) :
    storeConfig s ⟨0, n.text, v⟩ = .ok (s.set n.word v) := by
  have offset : (BitVec.ofNat 32 n.word.offset + 0).toNat = n.word.offset := by
    have low := n.word.offset_lt
    have same :
      BitVec.ofNat 32 n.word.offset + 0 = BitVec.ofNat 32 n.word.offset := BitVec.add_zero _
    rw [same, BitVec.toNat_ofNat, Nat.mod_eq_of_lt (by omega)]
  rw [storeConfig, n.nameOffsetMap_text]
  dsimp only
  rw [offset, fieldAt_offset]
  rfl

/-- An indexed name parses, to a record that no name of the map has. -/
theorem Indexes.parse {n : ConfigName} {i : Nat} {left : List Char} (name : Indexes n i left)
    (inside : i < n.size) :
    (∃ p, parseLeft left = .ok p) ∧ nameOffsetMap left = none := by
  obtain ⟨b₁, b₂, b₃, c, index, digits, blank₁, blank₂, blank₃, counts, rfl, rfl⟩ := name
  have bare : '[' ∉ n.text ++ b₁ ∧ ']' ∉ n.text ++ b₁ := by
    rw [List.mem_append, List.mem_append, not_or, not_or]
    exact ⟨⟨n.open_not_mem, blank₁.not_mem rfl⟩, ⟨n.close_not_mem, blank₁.not_mem rfl⟩⟩
  have small : digitsValue 10 digits < 2 ^ 31 := inside.trans (by cases n <;> decide)
  refine ⟨⟨_, parseLeft_indexed bare blank₂ blank₃ counts small⟩, ?_⟩
  refine nameOffsetMap_eq_none fun m same => m.open_not_mem ?_
  rw [same]
  exact List.mem_append_right _ List.mem_cons_self

/-- A line that can be read stores what its kind says. -/
theorem ConfigLine.effect {line : List Char} {entry : ConfigEntry} (form : ConfigLine line entry)
    (read : entry ≠ .unread) :
    ∃ config, parseLine line = .ok config ∧ ∀ s : ArchState,
      config.toList.foldlM storeConfig s =
        .ok (RiscvArch.initConfig s (ConfigEntry.stores [entry])) := by
  cases form with
  | text absent =>
      refine ⟨none, ?_, fun s => rfl⟩
      have trimmed : '=' ∉ trim line := mt mem_of_mem_trim absent
      rw [parseLine, List.idxOf?_eq_none_iff.2 trimmed]
  | @assign b₀ b₁ b₂ b₃ left right entry blank₀ blank₁ blank₂ blank₃ trimmed trimmed' absent
      assigns =>
      rw [parseLine_eq blank₀ blank₁ blank₂ blank₃ trimmed trimmed' absent]
      -- The record that is stored, and the one that is not.
      have named (n : ConfigName) (name : left = n.text) {v : Word} (taken : stoull right = .ok v) :
          ∃ config, (do
            let (_, offsetIndex) ← parseLeft left
            let value ← stoull right
            return some ⟨(BitVec.ofInt 64 offsetIndex * 8).setWidth 32, left, value⟩) =
              Except.ok config ∧ ∀ s : ArchState, config.toList.foldlM storeConfig s =
                .ok (RiscvArch.initConfig s [(n.word, v)]) := by
        refine ⟨some ⟨0, n.text, v⟩, ?_, fun s => ?_⟩
        · rw [name, parseLeft_of_bare n.open_not_mem, taken]
          rfl
        · have stored : RiscvArch.initConfig s [(n.word, v)] = s.set n.word v := if_pos n.word_mem
          rw [stored]
          change (storeConfig s _ >>= pure) = _
          rw [storeConfig_plain]
          rfl
      have unnamed (none : nameOffsetMap left = none) {p : List Char × Int}
          (parsed : parseLeft left = .ok p) {v : Word} (taken : stoull right = .ok v) :
          ∃ config, (do
            let (_, offsetIndex) ← parseLeft left
            let value ← stoull right
            return some ⟨(BitVec.ofInt 64 offsetIndex * 8).setWidth 32, left, value⟩) =
              Except.ok config ∧ ∀ s : ArchState, config.toList.foldlM storeConfig s =
                .ok (RiscvArch.initConfig s []) := by
        refine ⟨some ⟨(BitVec.ofInt 64 p.2 * 8).setWidth 32, left, v⟩, ?_, fun s => ?_⟩
        · rw [parsed, taken]
          rfl
        · change (storeConfig s _ >>= pure) = _
          rw [storeConfig_unnamed s none]
          rfl
      cases assigns with
      | plain n name reads low => exact named n name (reads.stoull low)
      | misread n name odd taken => exact named n name taken
      | indexed n name inside addressed reads low =>
          obtain ⟨⟨p, parsed⟩, none⟩ := name.parse inside
          exact unnamed none parsed (reads.stoull low)
      | other none asksNot parsed taken => exact unnamed (nameOffsetMap_eq_none none) parsed taken
      | unread => exact absurd rfl read

/-- Any other line throws. -/
theorem ConfigLine.throws {line : List Char} (form : ConfigLine line .unread) :
    ∃ e, parseLine line = .error e := by
  cases form with
  | assign blank₀ blank₁ blank₂ blank₃ trimmed trimmed' absent assigns =>
      rw [parseLine_eq blank₀ blank₁ blank₂ blank₃ trimmed trimmed' absent]
      cases assigns with
      | unread fails =>
          rcases fails with ⟨e, fails⟩ | ⟨e, fails⟩
          · rw [fails]
            exact ⟨e, rfl⟩
          · rw [fails]
            cases parseLeft _ with
            | error e' => exact ⟨e', rfl⟩
            | ok p => exact ⟨e, rfl⟩

/-! ### What a file does -/

/-- The stores of two files are made in their order. -/
theorem ConfigEntry.stores_append (first last : List ConfigEntry) :
    stores (first ++ last) = stores first ++ stores last := List.filterMap_append

/-- So are the settings that two files ask for. -/
theorem ConfigEntry.asks_append (first last : List ConfigEntry) :
    asks (first ++ last) = asks first ++ asks last := List.filterMap_append

/-- Two lists of stores, one after the other. -/
theorem initConfig_append (s : ArchState) (first last : List (StateWord × Word)) :
    RiscvArch.initConfig s (first ++ last) =
      RiscvArch.initConfig (RiscvArch.initConfig s first) last := List.foldl_append

/-- The records of lines that can be read. -/
theorem archConfigs_eq {lines : List (List Char)} {entries : List ConfigEntry}
    (forms : List.Forall₂ ConfigLine lines entries) (read : .unread ∉ entries) :
    ∃ configs, archConfigs lines = .ok configs ∧ ∀ s : ArchState,
      configs.foldlM storeConfig s = .ok (RiscvArch.initConfig s (ConfigEntry.stores entries)) := by
  induction forms with
  | nil => exact ⟨[], rfl, fun s => rfl⟩
  | @cons line entry lines entries form _ ih =>
      obtain ⟨config, parsed, stored⟩ :=
        form.effect fun same => read (same ▸ List.mem_cons_self)
      obtain ⟨configs, parsed', stored'⟩ := ih fun member => read (List.mem_cons_of_mem _ member)
      refine ⟨config.toList ++ configs, ?_, fun s => ?_⟩
      · rw [archConfigs, parsed, parsed']
        rfl
      · rw [List.foldlM_append, stored s]
        change configs.foldlM storeConfig _ = _
        have parts := ConfigEntry.stores_append [entry] entries
        rw [List.singleton_append] at parts
        rw [stored', parts, initConfig_append]

/-- One line that cannot be read ends the simulator. -/
theorem archConfigs_throws {lines : List (List Char)} {entries : List ConfigEntry}
    (forms : List.Forall₂ ConfigLine lines entries) (unread : .unread ∈ entries) :
    ∃ e, archConfigs lines = .error e := by
  induction forms with
  | nil => cases unread
  | @cons line entry lines entries form _ ih =>
      rw [archConfigs]
      cases parsed : parseLine line with
      | error e => exact ⟨e, rfl⟩
      | ok config =>
          rcases List.mem_cons.1 unread with rfl | below
          · obtain ⟨e, throws⟩ := form.throws
            cases throws.symm.trans parsed
          · obtain ⟨e, fails⟩ := ih below
            rw [fails]
            exact ⟨e, rfl⟩

/-- The file configures the machine with what its lines store. -/
theorem initConfigFile_eq {file : List Char} {entries : List ConfigEntry}
    (forms : List.Forall₂ ConfigLine (getLines file) entries) (read : .unread ∉ entries)
    (s : ArchState) :
    initConfigFile file s = .ok (RiscvArch.initConfig s (ConfigEntry.stores entries)) := by
  obtain ⟨configs, parsed, stored⟩ := archConfigs_eq forms read
  rw [initConfigFile, parsed]
  change (configs.foldlM storeConfig s).mapError _ = _
  rw [stored]
  rfl

/-- A file stores into words that have a name, whatever it asks for. -/
theorem stores_mem_configWords {lines : List (List Char)} {entries : List ConfigEntry}
    (forms : List.Forall₂ ConfigLine lines entries) :
    ∀ write ∈ ConfigEntry.stores entries, write.1 ∈ RiscvArch.configWords := by
  induction forms with
  | nil => exact fun _ member => absurd member List.not_mem_nil
  | @cons line entry lines entries form _ ih =>
      intro write member
      rw [← List.singleton_append, ConfigEntry.stores_append, List.mem_append] at member
      rcases member with member | member
      · cases form with
        | text => exact absurd member List.not_mem_nil
        | assign _ _ _ _ _ _ _ assigns =>
            cases assigns with
            | plain n | misread n =>
                rw [List.mem_singleton.1 member]
                exact n.word_mem
            | indexed | other | unread => exact absurd member List.not_mem_nil
      · exact ih write member

/-! ### The last line for a word -/

/-- The value that the last write of a word leaves in it. -/
def lastOf (w : StateWord) (writes : List (StateWord × Word)) : Option Word :=
  (writes.reverse.find? fun write => decide (write.1 = w)).map Prod.snd

/-- The last store to a word in two lists is in the second, if there is one. -/
theorem lastOf_append (w : StateWord) (first last : List (StateWord × Word)) :
    lastOf w (first ++ last) = (lastOf w last).or (lastOf w first) := by
  rw [lastOf, List.reverse_append, List.find?_append, Option.map_or]
  rfl

/-- The only store is the last one to its own word. -/
theorem lastOf_singleton (w u : StateWord) (v : Word) :
    lastOf w [(u, v)] = if u = w then some v else none := by
  by_cases same : u = w
  · simp [lastOf, same]
  · simp [lastOf, same]

/-- After a list of stores a word holds what was last stored there. -/
theorem initConfig_get_eq {writes : List (StateWord × Word)}
    (named : ∀ write ∈ writes, write.1 ∈ RiscvArch.configWords) (s : ArchState) (w : StateWord) :
    (RiscvArch.initConfig s writes).get w = (lastOf w writes).getD (s.get w) := by
  induction writes generalizing s with
  | nil => rfl
  | cons write writes ih =>
      obtain ⟨u, v⟩ := write
      have stored : RiscvArch.initConfig s ((u, v) :: writes) =
          RiscvArch.initConfig (s.set u v) writes := by
        rw [RiscvArch.initConfig, List.foldl_cons, if_pos (named _ List.mem_cons_self)]
        rfl
      rw [stored, ih fun write member => named write (List.mem_cons_of_mem _ member),
        ← List.singleton_append, lastOf_append, lastOf_singleton]
      cases lastOf w writes with
      | some last => rfl
      | none =>
          by_cases same : u = w
          · subst same
            rw [if_pos rfl]
            exact s.get_set_self u v
          · rw [if_neg same]
            exact s.get_set_of_ne v (Ne.symm same)

/-- A line about another word neither asks for this one nor stores to it. -/
theorem lastOf_of_word {w : StateWord} {entry : ConfigEntry} (other : entry.word ≠ some w) :
    lastOf w (ConfigEntry.stores [entry]) = none ∧ lastOf w (ConfigEntry.asks [entry]) = none := by
  have apart {u : StateWord} {v : Word} (differs : some u ≠ some w) :
      lastOf w [(u, v)] = none := by
    rw [lastOf_singleton, if_neg fun same => differs (congrArg some same)]
  cases entry with
  | plain u v => exact ⟨apart other, apart other⟩
  | indexed u v => exact ⟨rfl, apart other⟩
  | misread u v => exact ⟨apart other, rfl⟩
  | ignored | unread => exact ⟨rfl, rfl⟩

/-- Lines for other words neither store to a word nor ask for it. -/
theorem lastOf_of_untouched {w : StateWord} {entries : List ConfigEntry}
    (untouched : ConfigEntry.Untouched w entries) :
    lastOf w (ConfigEntry.stores entries) = none ∧ lastOf w (ConfigEntry.asks entries) = none := by
  induction entries with
  | nil => exact ⟨rfl, rfl⟩
  | cons entry entries ih =>
      obtain ⟨stored, asked⟩ := ih fun e member => untouched e (List.mem_cons_of_mem _ member)
      obtain ⟨stored', asked'⟩ := lastOf_of_word (untouched entry List.mem_cons_self)
      rw [← List.singleton_append, ConfigEntry.stores_append, ConfigEntry.asks_append,
        lastOf_append, lastOf_append, stored, asked, stored', asked']
      exact ⟨rfl, rfl⟩

/-- The file can be read, and every word has the value of the last line that addresses it, or its
old one. -/
def TakesEffect (file : List Char) (entries : List ConfigEntry) (s : ArchState) : Prop :=
  ∃ s', initConfigFile file s = .ok s' ∧
    ∀ w, s'.get w = (lastOf w (ConfigEntry.asks entries)).getD (s.get w)

/-- No line throws, and where the last line about a word is an odd one it makes no difference: an
indexed line asks for the value that is there before it, and a line whose value is no number of the
format is taken for the value that was asked for before it. -/
structure Harmless (entries : List ConfigEntry) (s : ArchState) : Prop where
  read : .unread ∉ entries
  indexed : ∀ w before after v, entries = before ++ .indexed w v :: after →
    ConfigEntry.Untouched w after →
    (lastOf w (ConfigEntry.stores before)).getD (s.get w) = v
  misread : ∀ w before after v, entries = before ++ .misread w v :: after →
    ConfigEntry.Untouched w after →
    (lastOf w (ConfigEntry.asks before)).getD (s.get w) = v

section LastLine

variable {w : StateWord} {s : ArchState}

/-- Lines about other words take no part. -/
theorem lastOf_append_untouched (first : List ConfigEntry) {last : List ConfigEntry}
    (untouched : ConfigEntry.Untouched w last) :
    lastOf w (ConfigEntry.stores (first ++ last)) = lastOf w (ConfigEntry.stores first) ∧
      lastOf w (ConfigEntry.asks (first ++ last)) = lastOf w (ConfigEntry.asks first) := by
  obtain ⟨stored, asked⟩ := lastOf_of_untouched untouched
  rw [ConfigEntry.stores_append, ConfigEntry.asks_append, lastOf_append, lastOf_append, stored,
    asked]
  exact ⟨rfl, rfl⟩

/-- A line that stores, or asks, settles what the lines up to it have stored, or asked. -/
theorem lastOf_stores_concat {entry : ConfigEntry} {v : Word}
    (own : ConfigEntry.stores [entry] = [(w, v)]) (first : List ConfigEntry) :
    lastOf w (ConfigEntry.stores (first ++ [entry])) = some v := by
  rw [ConfigEntry.stores_append, own, lastOf_append, lastOf_singleton, if_pos rfl]
  rfl

/-- The last line that asks for a word decides. -/
theorem lastOf_asks_concat {entry : ConfigEntry} {v : Word}
    (own : ConfigEntry.asks [entry] = [(w, v)]) (first : List ConfigEntry) :
    lastOf w (ConfigEntry.asks (first ++ [entry])) = some v := by
  rw [ConfigEntry.asks_append, own, lastOf_append, lastOf_singleton, if_pos rfl]
  rfl

/-- What is stored and what is asked for agree, if the odd lines are harmless. -/
theorem lastOf_eq_of_harmless {entries : List ConfigEntry}
    (indexed : ∀ before after v, entries = before ++ .indexed w v :: after →
      ConfigEntry.Untouched w after →
      (lastOf w (ConfigEntry.stores before)).getD (s.get w) = v)
    (misread : ∀ before after v, entries = before ++ .misread w v :: after →
      ConfigEntry.Untouched w after →
      (lastOf w (ConfigEntry.asks before)).getD (s.get w) = v) :
    (lastOf w (ConfigEntry.stores entries)).getD (s.get w) =
      (lastOf w (ConfigEntry.asks entries)).getD (s.get w) := by
  induction entries using List.reverseRecOn with
  | nil => rfl
  | append_singleton entries entry ih =>
      by_cases about : entry.word = some w
      · cases entry with
        | plain u v =>
            cases about
            rw [lastOf_stores_concat rfl, lastOf_asks_concat rfl]
        | indexed u v =>
            cases about
            have last := indexed entries [] v rfl (by rintro e ⟨⟩)
            rw [lastOf_asks_concat rfl, ConfigEntry.stores_append]
            exact (congrArg (fun l => (lastOf w l).getD (s.get w)) (List.append_nil _)).trans last
        | misread u v =>
            cases about
            have last := misread entries [] v rfl (by rintro e ⟨⟩)
            rw [lastOf_stores_concat rfl, ConfigEntry.asks_append]
            exact last.symm.trans
              (congrArg (fun l => (lastOf w l).getD (s.get w)) (List.append_nil _).symm)
        | ignored | unread => cases about
      · -- A line for another word takes no part, so the file without it is as harmless.
        have alone : ConfigEntry.Untouched w [entry] := by
          intro e member
          rw [List.mem_singleton.1 member]
          exact about
        have wider {after : List ConfigEntry} (untouched : ConfigEntry.Untouched w after) :
            ConfigEntry.Untouched w (after ++ [entry]) :=
          List.forall_mem_append.2 ⟨untouched, alone⟩
        obtain ⟨stored, asked⟩ := lastOf_append_untouched entries alone
        rw [stored, asked]
        refine ih (fun before after v split untouched => ?_)
          fun before after v split untouched => ?_
        · refine indexed before (after ++ [entry]) v ?_ (wider untouched)
          rw [split, List.append_assoc]
          rfl
        · refine misread before (after ++ [entry]) v ?_ (wider untouched)
          rw [split, List.append_assoc]
          rfl

/-- A line after which no line is about a word, taken out of the file. -/
theorem lastOf_split {entries before after : List ConfigEntry} {entry : ConfigEntry}
    (split : entries = before ++ entry :: after) (untouched : ConfigEntry.Untouched w after) :
    lastOf w (ConfigEntry.stores entries) = lastOf w (ConfigEntry.stores (before ++ [entry])) ∧
      lastOf w (ConfigEntry.asks entries) = lastOf w (ConfigEntry.asks (before ++ [entry])) := by
  rw [split, ← List.singleton_append, ← List.append_assoc]
  exact lastOf_append_untouched (before ++ [entry]) untouched

end LastLine

/-- A file takes effect if and only if its odd lines are harmless. A line with an index is
recorded under its text with the brackets, which no name has, so it stores nothing; it does no
harm where its word has the value already, or a later line stores it. Every line is of one of
the kinds (`exists_configLine`). -/
theorem takesEffect_iff {file : List Char} {entries : List ConfigEntry}
    (forms : List.Forall₂ ConfigLine (getLines file) entries) (s : ArchState) :
    TakesEffect file entries s ↔ Harmless entries s := by
  have value := initConfig_get_eq (stores_mem_configWords forms) s
  constructor
  · rintro ⟨s', ran, effect⟩
    have read : .unread ∉ entries := by
      intro unread
      obtain ⟨e, throws⟩ := archConfigs_throws forms unread
      rw [initConfigFile, throws] at ran
      cases ran
    obtain rfl := Except.ok.inj ((initConfigFile_eq forms read s).symm.trans ran)
    refine ⟨read, ?_, ?_⟩
    · intro w before after v split untouched
      have here := effect w
      obtain ⟨stored, asked⟩ := lastOf_split split untouched
      rw [value, stored, asked, lastOf_asks_concat rfl, ConfigEntry.stores_append] at here
      exact (congrArg (fun l => (lastOf w l).getD (s.get w)) (List.append_nil _)).symm.trans here
    · intro w before after v split untouched
      have here := effect w
      obtain ⟨stored, asked⟩ := lastOf_split split untouched
      rw [value, stored, asked, lastOf_stores_concat rfl, ConfigEntry.asks_append] at here
      exact (congrArg (fun l => (lastOf w l).getD (s.get w)) (List.append_nil _)).symm.trans
        here.symm
  · intro harmless
    refine ⟨_, initConfigFile_eq forms harmless.read s, fun w => ?_⟩
    rw [value]
    exact lastOf_eq_of_harmless (harmless.indexed w) (harmless.misread w)

/-- The file `pmpaddr[3] = 0x20`. -/
def indexedFile : List Char := "pmpaddr[3] = 0x20".toList

/-- A line `pmpaddr[i]` with one digit. -/
theorem assigns_pmpaddr {c : Char} {i v : Nat} {k : BitVec 4} {right : List Char}
    (counts : [c].mapM (digit? 10) = some [i]) (inside : i < 16) (place : k.toNat = i)
    (reads : Numeral right v) (low : v < 2 ^ 64) :
    Assigns ("pmpaddr".toList ++ ['[', c, ']']) right
      (.indexed (.pmpaddr k) (BitVec.ofNat 64 v)) := by
  have name : Indexes .pmpaddr i ("pmpaddr".toList ++ ['[', c, ']']) := by
    refine ⟨[], [], [], c, [], [i], blank_nil, blank_nil, blank_nil, counts, ?_, rfl⟩
    exact Nat.zero_add i
  have addressed : fieldAt (ConfigName.pmpaddr.word.offset + 8 * i) = some (.pmpaddr k, 0) := by
    have here : ConfigName.pmpaddr.word.offset + 8 * i = (StateWord.pmpaddr k).offset := by
      simp [ConfigName.word, StateWord.offset, place]
      omega
    rw [here]
    exact fieldAt_offset (.pmpaddr k)
  exact .indexed .pmpaddr name inside addressed reads low

/-- One space is blank. -/
theorem blank_one : Blank [' '] := List.forall_mem_singleton.2 rfl

/-- The line of `indexedFile`, as it is read. -/
theorem indexedFile_form :
    List.Forall₂ ConfigLine (getLines indexedFile) [.indexed (.pmpaddr 3) 0x20] := by
  have reads : Numeral "0x20".toList 0x20 :=
    Numeral.hex (.inl rfl) (by decide : ['2', '0'].mapM (digit? 16) = some [2, 0])
  have left : Trimmed "pmpaddr[3]".toList := .inr (.of_all (List.cons_ne_nil _ _) rfl)
  have assigns : Assigns "pmpaddr[3]".toList "0x20".toList (.indexed (.pmpaddr 3) 0x20) :=
    assigns_pmpaddr (c := '3') (i := 3) (by decide) (by decide) rfl reads (by decide)
  have absent : '=' ∉ "pmpaddr[3]".toList := by decide
  exact .cons (.assign blank_nil blank_one blank_one blank_nil left (.inr reads.solid) absent
    assigns) .nil

/-- The indexed line of a file has no effect. -/
theorem not_takesEffect_indexedFile :
    ¬ ∀ file entries, List.Forall₂ ConfigLine (getLines file) entries →
      TakesEffect file entries ArchState.zero := by
  intro effect
  obtain ⟨s', read, value⟩ := effect indexedFile _ indexedFile_form
  have stored := initConfigFile_eq indexedFile_form (by decide) ArchState.zero
  obtain rfl := Except.ok.inj (stored.symm.trans read)
  exact absurd (value (.pmpaddr 3)) (by decide +kernel)

/-- A comment, an indexed line that asks for what the line before it has stored, and a line for no
register. -/
def harmlessFile : List Char := "# pmp\npmpaddr = 16\npmpaddr[0] = 0x10\nhart = 0\npriv=3".toList

/-- What its lines are. -/
def harmlessEntries : List ConfigEntry :=
  [.ignored, .plain (.pmpaddr 0) 16, .indexed (.pmpaddr 0) 0x10, .ignored, .plain .priv 3]

/-- The lines of `harmlessFile`, as they are read. -/
theorem harmlessFile_form : List.Forall₂ ConfigLine (getLines harmlessFile) harmlessEntries := by
  have decimal {s : List Char} {d : Nat} {ds : List Nat} {c : Char} {rest : List Char}
      (text : s = c :: rest) (nonzero : c ≠ '0')
      (read : (c :: rest).mapM (digit? 10) = some (d :: ds)) :
      Numeral s (digitsValue 10 (d :: ds)) := text ▸ Numeral.decimal nonzero read
  have sixteen : Numeral "16".toList 16 := decimal rfl (by decide) (by decide : _ = some [1, 6])
  have three : Numeral "3".toList 3 := decimal rfl (by decide) (by decide : _ = some [3])
  have hex : Numeral "0x10".toList 0x10 :=
    Numeral.hex (.inl rfl) (by decide : ['1', '0'].mapM (digit? 16) = some [1, 0])
  have none : Numeral "0".toList 0 := .zero
  have bracket : '[' ∉ "hart".toList := by decide
  have hart : Assigns "hart".toList "0".toList .ignored := by
    refine .other (fun n => by cases n <;> decide) ?_ (parseLeft_of_bare bracket)
      (none.stoull (by decide))
    rintro n i u ⟨b₁, b₂, b₃, c, index, digits, -, -, -, -, -, shape⟩
    refine absurd (shape ▸ ?_) bracket
    exact List.mem_append_right _ List.mem_cons_self
  have indexed : Assigns "pmpaddr[0]".toList "0x10".toList (.indexed (.pmpaddr 0) 0x10) :=
    assigns_pmpaddr (c := '0') (i := 0) (by decide) (by decide) rfl hex (by decide)
  have comment : '=' ∉ "# pmp".toList := by decide
  have absent : '=' ∉ "pmpaddr[0]".toList := by decide
  have absent' : '=' ∉ "hart".toList := by decide
  refine .cons (.text comment) (.cons ?_ (.cons ?_ (.cons ?_ (.cons ?_ .nil))))
  · exact .assign blank_nil blank_one blank_one blank_nil (.inr (ConfigName.solid .pmpaddr))
      (.inr sixteen.solid) (ConfigName.eq_not_mem .pmpaddr)
        (.plain .pmpaddr rfl sixteen (by decide))
  · exact .assign blank_nil blank_one blank_one blank_nil
      (.inr (.of_all (List.cons_ne_nil _ _) rfl)) (.inr hex.solid) absent indexed
  · exact .assign blank_nil blank_one blank_one blank_nil
      (.inr (.of_all (List.cons_ne_nil _ _) rfl))
      (.inr none.solid) absent' hart
  · exact .assign blank_nil blank_nil blank_nil blank_nil (.inr (ConfigName.solid .priv))
      (.inr three.solid) (ConfigName.eq_not_mem .priv) (.plain .priv rfl three (by decide))

/-- The file takes effect. -/
theorem takesEffect_iff_harmlessFile :
    TakesEffect harmlessFile harmlessEntries ArchState.zero := by
  refine (takesEffect_iff harmlessFile_form ArchState.zero).2 ⟨by decide, ?_, ?_⟩
  · intro w before after v split _
    have known : before = [.ignored, .plain (.pmpaddr 0) 16] ∧ w = .pmpaddr 0 ∧ v = 0x10 := by
      rcases before with _ | ⟨e₁, _ | ⟨e₂, _ | ⟨e₃, rest⟩⟩⟩
      · cases split
      · cases split
      · cases split
        exact ⟨rfl, rfl, rfl⟩
      · obtain ⟨-, -, -, tail⟩ : ConfigEntry.ignored = e₁ ∧ _ = e₂ ∧ _ = e₃ ∧
            [ConfigEntry.ignored, .plain .priv 3] = rest ++ .indexed w v :: after := by
          simpa [harmlessEntries] using split
        have member : ConfigEntry.indexed w v ∈ [ConfigEntry.ignored, .plain .priv 3] := by
          rw [tail]
          exact List.mem_append_right _ List.mem_cons_self
        simp at member
    obtain ⟨rfl, rfl, rfl⟩ := known
    decide +kernel
  · intro w before after v split _
    have member : ConfigEntry.misread w v ∈ harmlessEntries := by
      rw [split]
      exact List.mem_append_right _ List.mem_cons_self
    simp [harmlessEntries] at member

end CPUDelaySim.Riscv
