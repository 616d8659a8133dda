import CPUDelaySim.Common.DecodeInfo

/-!
# Physical memory

`Memory::paddrRead` and `Memory::paddrWrite` of `cache/memory.cpp`.  An access is
offered to the devices in order; the first whose `inRange` accepts the *first*
byte's address performs it, and otherwise it is a `memcpy` at
`ram + paddr - 0x80000000`.  The `memcpy` has no bounds check.  The model keeps
the array's `size`, and an access that leaves the array is the abort
`ramOverrun`: nothing else in the model depends on what lies around it.

Devices are parameters.  A device reads and writes a state `δ` shared by all of
them; a read may store fewer bytes than it was asked for (`Uart::read` stores
one, an out-of-range `BasicIrqHandler::read` none), so the bytes it leaves are
those the caller's buffer held.  A read may also store more (`Clint::read` stores
eight, whatever its `size`): these go past the buffer, over something else of the
caller's, and are kept apart as `stray`.  Either access may publish a new interrupt
vector through `setIrqState`.
-/

namespace CPUDelaySim

/-- Byte `i` of a little-endian word. -/
def byteAt (v : Word) (i : Nat) : Byte := v.extractLsb' (8 * i) 8

/-- The little-endian value of a byte buffer. -/
def joinBytes : List Byte → Word
  | [] => 0#64
  | b :: bs => b.setWidth 64 ||| (joinBytes bs <<< 8)

/-- The first byte is the lowest. -/
theorem joinBytes_cons (b : Byte) (bs : List Byte) :
    joinBytes (b :: bs) = b.setWidth 64 ||| (joinBytes bs <<< 8) := rfl

/-- Bit `k` of a buffer's value is bit `k % 8` of its byte `k / 8`. -/
theorem joinBytes_getLsbD (bs : List Byte) {k : Nat} (bound : k < 64) :
    (joinBytes bs).getLsbD k = (bs.getD (k / 8) 0).getLsbD (k % 8) := by
  induction bs generalizing k with
  | nil => simp [joinBytes]
  | cons b bs ih =>
      rw [joinBytes_cons, BitVec.getLsbD_or, BitVec.getLsbD_setWidth, BitVec.getLsbD_shiftLeft]
      by_cases first : k < 8
      · rw [Nat.div_eq_of_lt first, Nat.mod_eq_of_lt first]
        simp [first, bound]
      · have rest : k / 8 = (k - 8) / 8 + 1 := by omega
        have bit : b.getLsbD k = false := BitVec.getLsbD_of_ge _ _ (by omega)
        rw [ih (by omega), rest, show (k - 8) % 8 = k % 8 by omega]
        simp [first, bound, bit]

/-- What a device read leaves behind: the bytes it stored to the buffer, its new
state, and the interrupt vector it published, if any. -/
structure DeviceRead (δ : Type) where
  bytes : List Byte
  dev : δ
  irq : Option Word

/-- `class Device`, as `Memory` sees it. -/
structure Device (δ : Type) where
  inRange : Word → Bool
  read : δ → Word → Nat → DeviceRead δ
  write : δ → Word → Nat → Word → δ × Option Word

/-- The part of `Memory` fixed at construction. -/
structure MemoryMap (δ : Type) where
  /-- Bytes in the `ram` array. -/
  size : Nat
  devices : List (Device δ)

/-- The contents of `ram` and the state of the devices. -/
@[ext] structure Memory (δ : Type) where
  ram : Nat → Byte
  dev : δ

namespace Memory

variable {δ : Type}

/-- `0x80000000 <= paddr` and `paddr + n <= 0x80000000 + size`: the bytes of the
access are bytes of the `ram` array.  A `memcpy` of no bytes touches none. -/
def InRam (map : MemoryMap δ) (paddr : Word) (n : Nat) : Prop :=
  n = 0 ∨ 0x80000000 ≤ paddr.toNat ∧ paddr.toNat + n ≤ 0x80000000 + map.size

instance (map : MemoryMap δ) (paddr : Word) (n : Nat) : Decidable (InRam map paddr n) := by
  unfold InRam; infer_instance

/-- The first device that claims the address. -/
def deviceAt (map : MemoryMap δ) (paddr : Word) : Option (Device δ) :=
  map.devices.find? fun d => d.inRange paddr

/-- `ram + paddr - 0x80000000`, as an index. -/
def ramIndex (paddr : Word) : Nat := paddr.toNat - 0x80000000

/-- The `n` bytes at `index`, as a little-endian value. -/
def load (ram : Nat → Byte) (index n : Nat) : Word :=
  joinBytes ((List.range n).map fun i => ram (index + i))

/-- The low `n` bytes of `data`, stored at `index`. -/
def store (ram : Nat → Byte) (index n : Nat) (data : Word) : Nat → Byte :=
  fun a => if index ≤ a ∧ a < index + n then byteAt data (a - index) else ram a

/-- The `n`-byte buffer that held `buf`, after `bytes` were stored at its start. -/
def overlay (n : Nat) (buf : Word) (bytes : List Byte) : Word :=
  joinBytes ((List.range n).map fun i => bytes.getD i (byteAt buf i))

/-- The bits of a buffer into which some bytes have been put. -/
theorem overlay_getLsbD (n : Nat) (buf : Word) (bytes : List Byte) {k : Nat} (bound : k < 64)
    (inside : k / 8 < n) :
    (overlay n buf bytes).getLsbD k =
      (bytes.getD (k / 8) (byteAt buf (k / 8))).getLsbD (k % 8) := by
  rw [overlay, joinBytes_getLsbD _ bound]
  simp [List.getD, inside]

/-- Stored again into a buffer that holds a bit of the first result, the same bytes
leave that bit as it is. -/
theorem overlay_again {n : Nat} {buf buf' : Word} {bytes : List Byte} {k : Nat}
    (bound : k < 64) (inside : k / 8 < n)
    (held : buf'.getLsbD k = (overlay n buf bytes).getLsbD k) :
    (overlay n buf' bytes).getLsbD k = (overlay n buf bytes).getLsbD k := by
  rw [overlay_getLsbD n buf' bytes bound inside]
  cases stored : bytes[k / 8]? with
  | some b =>
      rw [overlay_getLsbD n buf bytes bound inside, List.getD, List.getD, stored]
      rfl
  | none =>
      rw [← held, List.getD, stored, Option.getD_none, byteAt, BitVec.getLsbD_extractLsb',
        show 8 * (k / 8) + k % 8 = k by omega]
      simp [Nat.mod_lt]

/-- The result of `paddrRead`: the buffer, the `mmio` flag, the memory, the
interrupt vector a device published and the bytes it stored past the buffer. -/
structure ReadResult (δ : Type) where
  value : Word
  mmio : Bool
  memory : Memory δ
  irq : Option Word
  stray : List Byte

/-- `Memory::paddrRead` of `n` bytes into a buffer that holds `buf`. -/
def paddrRead (map : MemoryMap δ) (m : Memory δ) (paddr : Word) (n : Nat) (buf : Word) :
    Except Abort (ReadResult δ) :=
  match deviceAt map paddr with
  | some d =>
      let r := d.read m.dev paddr n
      .ok ⟨overlay n buf r.bytes, true, { m with dev := r.dev }, r.irq, r.bytes.drop n⟩
  | none =>
      if InRam map paddr n then .ok ⟨load m.ram (ramIndex paddr) n, false, m, none, []⟩
      else .error .ramOverrun

/-- `Memory::paddrWrite` of the low `n` bytes of `data`. -/
def paddrWrite (map : MemoryMap δ) (m : Memory δ) (paddr : Word) (n : Nat) (data : Word) :
    Except Abort (Memory δ × Option Word) :=
  match deviceAt map paddr with
  | some d =>
      let r := d.write m.dev paddr n data
      .ok ({ m with dev := r.1 }, r.2)
  | none =>
      if InRam map paddr n then
        .ok ({ m with ram := store m.ram (ramIndex paddr) n data }, none)
      else .error .ramOverrun

/-- The access does not leave the `ram` array: a device claims its first byte, which is
all that the code looks at, or it lies wholly in RAM. -/
def Mapped (map : MemoryMap δ) (paddr : Word) (n : Nat) : Prop :=
  (deviceAt map paddr).isSome ∨ InRam map paddr n

instance (map : MemoryMap δ) (paddr : Word) (n : Nat) : Decidable (Mapped map paddr n) := by
  unfold Mapped; infer_instance

/-- The access lies in the memory map with all of its bytes: in the range of the device
that claims it, or in RAM. -/
def Within (map : MemoryMap δ) (paddr : Word) (n : Nat) : Prop :=
  (∃ d ∈ deviceAt map paddr, ∀ i < n, d.inRange (paddr + BitVec.ofNat 64 i) = true) ∨
    InRam map paddr n

instance (map : MemoryMap δ) (paddr : Word) (n : Nat) : Decidable (Within map paddr n) := by
  unfold Within; infer_instance

/-- An access with all of its bytes in the map does not leave the array. -/
theorem Within.mapped {map : MemoryMap δ} {paddr : Word} {n : Nat}
    (within : Within map paddr n) : Mapped map paddr n := by
  rcases within with ⟨d, claims, -⟩ | inside
  · exact .inl (Option.isSome_of_mem claims)
  · exact .inr inside

/-- A read inside the RAM returns its bytes. -/
theorem paddrRead_ram {map : MemoryMap δ} {paddr : Word} {n : Nat}
    (plain : deviceAt map paddr = none) (inside : InRam map paddr n) (m : Memory δ)
    (buf : Word) :
    paddrRead map m paddr n buf = .ok ⟨load m.ram (ramIndex paddr) n, false, m, none, []⟩ := by
  simp only [paddrRead, plain, if_pos inside]

/-- A read overruns the array exactly when the access is not mapped, and stops for
no other reason. -/
theorem paddrRead_cases (map : MemoryMap δ) (m : Memory δ) (paddr : Word) (n : Nat)
    (buf : Word) :
    (Mapped map paddr n ∧ ∃ r, paddrRead map m paddr n buf = .ok r) ∨
      (¬ Mapped map paddr n ∧ paddrRead map m paddr n buf = .error .ramOverrun) := by
  unfold paddrRead Mapped
  cases claimed : deviceAt map paddr with
  | some d => exact .inl ⟨.inl rfl, _, rfl⟩
  | none =>
      by_cases inside : InRam map paddr n
      · exact .inl ⟨.inr inside, _, if_pos inside⟩
      · exact .inr ⟨by simp [inside], if_neg inside⟩

/-- A read leaves RAM alone. -/
theorem paddrRead_ram_eq {map : MemoryMap δ} {m : Memory δ} {paddr : Word} {n : Nat}
    {buf : Word} {r : ReadResult δ} (h : paddrRead map m paddr n buf = .ok r) :
    r.memory.ram = m.ram := by
  unfold paddrRead at h
  split at h
  · cases h; rfl
  · split at h
    · cases h; rfl
    · cases h

/-- A write inside the RAM changes its bytes. -/
theorem paddrWrite_ram {map : MemoryMap δ} {paddr : Word} {n : Nat}
    (plain : deviceAt map paddr = none) (inside : InRam map paddr n) (m : Memory δ)
    (data : Word) :
    paddrWrite map m paddr n data =
      .ok ({ m with ram := store m.ram (ramIndex paddr) n data }, none) := by
  simp only [paddrWrite, plain, if_pos inside]

/-- A write to a device is the device's. -/
theorem paddrWrite_device {map : MemoryMap δ} {paddr : Word} {d : Device δ}
    (claimed : deviceAt map paddr = some d) (m : Memory δ) (n : Nat) (data : Word) :
    paddrWrite map m paddr n data =
      .ok ({ m with dev := (d.write m.dev paddr n data).1 }, (d.write m.dev paddr n data).2) := by
  simp only [paddrWrite, claimed]

/-- A write elsewhere runs over the end of the RAM. -/
theorem paddrWrite_overrun {map : MemoryMap δ} {paddr : Word} {n : Nat}
    (plain : deviceAt map paddr = none) (outside : ¬ InRam map paddr n) (m : Memory δ)
    (data : Word) : paddrWrite map m paddr n data = .error .ramOverrun := by
  simp only [paddrWrite, plain, if_neg outside]

/-- A write that no device claims leaves the devices, and publishes nothing. -/
theorem paddrWrite_dev {map : MemoryMap δ} {paddr : Word} {n : Nat} {data : Word}
    {m : Memory δ} {r : Memory δ × Option Word} (plain : deviceAt map paddr = none)
    (h : paddrWrite map m paddr n data = .ok r) : r.1.dev = m.dev ∧ r.2 = none := by
  have stored (ram : Nat → Byte) (same : ({ m with ram := ram }, none) = r) :
      r.1.dev = m.dev ∧ r.2 = none := by
    subst same
    exact ⟨rfl, rfl⟩
  by_cases inside : InRam map paddr n
  · rw [paddrWrite_ram plain inside] at h
    exact stored _ (Except.ok.inj h)
  · rw [paddrWrite_overrun plain inside] at h
    cases h

/-- A write overruns the array exactly when the access is not mapped, and stops for
no other reason. -/
theorem paddrWrite_cases (map : MemoryMap δ) (m : Memory δ) (paddr : Word) (n : Nat)
    (data : Word) :
    (Mapped map paddr n ∧ ∃ r, paddrWrite map m paddr n data = .ok r) ∨
      (¬ Mapped map paddr n ∧ paddrWrite map m paddr n data = .error .ramOverrun) := by
  cases claimed : deviceAt map paddr with
  | some d => exact .inl ⟨.inl (by simp [claimed]), _, paddrWrite_device claimed m n data⟩
  | none =>
      by_cases inside : InRam map paddr n
      · exact .inl ⟨.inr inside, _, paddrWrite_ram claimed inside m data⟩
      · refine .inr ⟨?_, paddrWrite_overrun claimed inside m data⟩
        simp [Mapped, claimed, inside]

end Memory

end CPUDelaySim
