import Mathlib.Tactic
import EverythingNet.Lib.Block
import EverythingNet.Host.Swap

/-!
The machine a node runs on: the build of the program (`Target`), the C library's allocator
(`Malloc`) and the typed memory accesses of the code through pointers of the machine.

Pointers are unsigned words of `w` bits and their arithmetic wraps; `load16` to `load64` and
`store16` to `store64` are dereferences in the host's byte order.
-/

namespace EverythingNet

open CMem

/-- What a build of the program fixes: the byte order (`EVRNET_CPU_IS_LE` or `_BE`), the width of
`uintptr_t` and `size_t`, and the configuration options `CONFIG_PLAT_SUPPORTS_MULTICAST` and
`CONFIG_NET_MAX_PKT_KB`. -/
structure Target where
  endian : Endian
  bits : ℕ
  multicast : Bool
  netMaxPktKB : ℕ
  bits_eq : bits = 32 ∨ bits = 64
  netMaxPktKB_pos : 0 < netMaxPktKB
  netMaxPktKB_lt : netMaxPktKB * 1024 < 2 ^ 31

namespace Target

/-- The size of the message buffer. -/
def bufSize (t : Target) : ℕ := t.netMaxPktKB * 1024

lemma bufSize_ge (t : Target) : 1024 ≤ t.bufSize := by
  have := t.netMaxPktKB_pos
  rw [bufSize]
  omega

lemma pow_bits_ge (t : Target) : 2 ^ 32 ≤ 2 ^ t.bits := by
  rcases t.bits_eq with h | h
  · rw [h]
  · rw [h]
    norm_num

lemma bufSize_lt (t : Target) : t.bufSize < 2 ^ 31 := t.netMaxPktKB_lt

/-- A 64-bit little-endian build with multicast and the default packet size. -/
def linux64 : Target where
  endian := .le
  bits := 64
  multicast := true
  netMaxPktKB := 64
  bits_eq := Or.inr rfl
  netMaxPktKB_pos := by norm_num
  netMaxPktKB_lt := by norm_num

/-- A 32-bit big-endian build without multicast. -/
def powerpc32 : Target where
  endian := .be
  bits := 32
  multicast := false
  netMaxPktKB := 64
  bits_eq := Or.inl rfl
  netMaxPktKB_pos := by norm_num
  netMaxPktKB_lt := by norm_num

end Target

/-- The allocator of the C library. It serves every request of at most `limit` bytes with an
8-aligned block that leaves the null pointer and the end of the address space free; beyond
`limit` it returns `NULL`. `place k n` is the address it gives to the `k`-th request, of `n`
bytes, and `junk k` the old content of that block. -/
structure Malloc (w : ℕ) where
  limit : ℕ
  place : ℕ → ℕ → ℕ
  junk : ℕ → ℕ → Byte
  place_pos : ∀ k n, 0 < place k n
  place_dvd : ∀ k n, 8 ∣ place k n
  place_lt : ∀ k n, n ≤ limit → place k n + n < 2 ^ w

namespace Malloc

variable {w : ℕ}

/-- `malloc`: a block of `n` bytes of old content. -/
def malloc (m : Malloc w) (k n : ℕ) : Option Block :=
  if n ≤ m.limit then some ⟨m.place k n, (List.range n).map (m.junk k)⟩ else none

/-- `realloc`: the block moves and keeps its leading bytes, what it grows by is old content. -/
def realloc (m : Malloc w) (k : ℕ) (b : Block) (n : ℕ) : Option Block :=
  if n ≤ m.limit then
    some ⟨m.place k n, b.bytes.take n ++ (List.range (n - b.size)).map (m.junk k)⟩
  else none

/-- An allocator that spreads its blocks over the address space. -/
def spread : Malloc 64 where
  limit := 2 ^ 33 - 8192
  place k _ := 4096 + 2 ^ 33 * (k % 1024)
  junk _ _ := 0
  place_pos k _ := by omega
  place_dvd k _ := by omega
  place_lt k n h := by omega

end Malloc

/-! ### Typed accesses -/

section

variable {w : ℕ} (E : Endian) (b : Block) (p : BitVec w)

def load16 : Except Halt U16 := do
  return BitVec.ofNat 16 (E.decode (← b.loadN p.toNat 2))

def load32 : Except Halt U32 := do
  return BitVec.ofNat 32 (E.decode (← b.loadN p.toNat 4))

def load64 : Except Halt U64 := do
  return BitVec.ofNat 64 (E.decode (← b.loadN p.toNat 8))

def store16 (v : U16) : Except Halt Block := b.store p.toNat (E.encode 2 v.toNat)

def store32 (v : U32) : Except Halt Block := b.store p.toNat (E.encode 4 v.toNat)

def store64 (v : U64) : Except Halt Block := b.store p.toNat (E.encode 8 v.toNat)

/-- `strlen`. -/
def strlen : Except Halt (BitVec w) := do
  return BitVec.ofNat w (← b.strlen p.toNat)

/-- `strcpy` of a string from outside the block. -/
def strcpy (s : CStr) : Except Halt Block := b.store p.toNat (s.1 ++ [0])

end

section

variable {w : ℕ} {E : Endian} {b : Block} {p : BitVec w} {l s : List Byte}

lemma load16_has (h : b.Has p.toNat l) (hl : l.length = 2) :
    load16 E b p = .ok (BitVec.ofNat 16 (E.decode l)) := by
  rw [load16, ← hl, h.loadN, ok_bind, pure_eq_ok]

lemma load32_has (h : b.Has p.toNat l) (hl : l.length = 4) :
    load32 E b p = .ok (BitVec.ofNat 32 (E.decode l)) := by
  rw [load32, ← hl, h.loadN, ok_bind, pure_eq_ok]

lemma load64_has (h : b.Has p.toNat l) (hl : l.length = 8) :
    load64 E b p = .ok (BitVec.ofNat 64 (E.decode l)) := by
  rw [load64, ← hl, h.loadN, ok_bind, pure_eq_ok]

lemma strlen_has (h : b.Has p.toNat (s ++ [0])) (hs : (0 : Byte) ∉ s) :
    strlen b p = .ok (BitVec.ofNat w s.length) := by
  rw [strlen, h.strlen hs, ok_bind, pure_eq_ok]

lemma toNat_ofNat_of_lt {n : ℕ} (h : n < 2 ^ w) : (BitVec.ofNat w n).toNat = n := by
  rw [BitVec.toNat_ofNat, Nat.mod_eq_of_lt h]

lemma toNat_add_of_lt {q : BitVec w} (h : p.toNat + q.toNat < 2 ^ w) :
    (p + q).toNat = p.toNat + q.toNat := by
  rw [BitVec.toNat_add, Nat.mod_eq_of_lt h]

lemma toNat_add_ofNat {k : ℕ} (h : p.toNat + k < 2 ^ w) :
    (p + BitVec.ofNat w k).toNat = p.toNat + k := by
  rw [BitVec.toNat_add, BitVec.toNat_ofNat, Nat.add_mod_mod, Nat.mod_eq_of_lt h]

lemma add_ofNat_ofNat (p : BitVec w) (k j : ℕ) :
    p + BitVec.ofNat w k + BitVec.ofNat w j = p + BitVec.ofNat w (k + j) := by
  rw [BitVec.add_assoc, ← BitVec.ofNat_add]

lemma toNat_add_one (h : p.toNat + 1 < 2 ^ w) : (p + 1).toNat = p.toNat + 1 := toNat_add_ofNat h

lemma one_umod (hw : w = 32 ∨ w = 64) : (1 : BitVec w) % 4 = 1 := by
  rcases hw with rfl | rfl <;> rfl

/-- `ALIGN4` and `ALIGN8` in wrapping arithmetic, whatever their `%` was applied to, as long as that has
the right residue. -/
lemma toNat_align_mod (hw : w = 32 ∨ w = 64) {k : ℕ} (hk : k = 4 ∨ k = 8) {x y : BitVec w} {n : ℕ}
    (hx : x.toNat = n % 2 ^ w) (hy : y.toNat % k = n % k) :
    (x + (BitVec.ofNat w k - y) % BitVec.ofNat w k).toNat = (n + pad k n) % 2 ^ w := by
  rw [pad]
  have hlt := y.isLt
  rcases hw with rfl | rfl <;> rcases hk with rfl | rfl
  all_goals
    simp only [BitVec.toNat_add, BitVec.toNat_umod, BitVec.toNat_sub, BitVec.toNat_ofNat,
      Nat.reducePow, Nat.reduceMod, hx] at *
    omega

/-- Without a wrap they add the padding. -/
lemma toNat_align (hw : w = 32 ∨ w = 64) {k : ℕ} (hk : k = 4 ∨ k = 8) {x y : BitVec w} {n : ℕ}
    (hx : x.toNat = n) (hy : y.toNat % k = n % k) (hn : n + pad k n < 2 ^ w) :
    (x + (BitVec.ofNat w k - y) % BitVec.ofNat w k).toNat = n + pad k n := by
  have hx' : x.toNat = n % 2 ^ w := by rw [hx, Nat.mod_eq_of_lt (by omega)]
  rw [toNat_align_mod hw hk hx' hy, Nat.mod_eq_of_lt hn]

lemma toNat_align4 (hw : w = 32 ∨ w = 64) {x y : BitVec w} {n : ℕ} (hx : x.toNat = n)
    (hy : y.toNat % 4 = n % 4) (hn : n + pad 4 n < 2 ^ w) :
    (x + (4 - y) % 4).toNat = n + pad 4 n := toNat_align hw (.inl rfl) hx hy hn

lemma toNat_align8 (hw : w = 32 ∨ w = 64) {x y : BitVec w} {n : ℕ} (hx : x.toNat = n)
    (hy : y.toNat % 8 = n % 8) (hn : n + pad 8 n < 2 ^ w) :
    (x + (8 - y) % 8).toNat = n + pad 8 n := toNat_align hw (.inr rfl) hx hy hn

end

/-- `sizeof(evrnet_bcast_msg_t)`. -/
def sizeofBcastMsg : ℕ := 32

end EverythingNet
