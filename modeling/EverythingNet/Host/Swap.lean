import Mathlib.Tactic
import EverythingNet.Lib.Bytes

/-!
`include/evrnet/endian.h`: the byte swaps and the conversions between host order and big endian.

`swap16_encode`, `swap32_encode` and `swap64_encode` say that swapping a word reverses its bytes;
from them `beToHost32_decode` and `beToHost64_decode` read a big-endian field on either host.
-/

namespace EverythingNet

open CMem

abbrev U16 := BitVec 16
abbrev U32 := BitVec 32
abbrev U64 := BitVec 64

/-- `__evrnet_swap16`. -/
def evrnetSwap16 (x : U16) : U16 := (x <<< 8) ||| (x >>> 8)

/-- `__evrnet_swap32`. -/
def evrnetSwap32 (x : U32) : U32 :=
  (x <<< 24) ||| ((x <<< 8) &&& 0x00FF0000#32) ||| ((x >>> 8) &&& 0x0000FF00#32) ||| (x >>> 24)

/-- `__evrnet_swap64`. -/
def evrnetSwap64 (x : U64) : U64 :=
  let lo : U32 := (x &&& 0xFFFFFFFF#64).setWidth 32
  let x := x >>> 32
  let hi : U32 := (x &&& 0xFFFFFFFF#64).setWidth 32
  let x : U64 := (evrnetSwap32 lo).setWidth 64
  let x := x <<< 32
  x ||| (evrnetSwap32 hi).setWidth 64

/-- `E_BEToHost_16` and `E_HostToBE_16`. -/
def beToHost16 : Endian → U16 → U16
  | .le, x => evrnetSwap16 x
  | .be, x => x

/-- `E_BEToHost_32` and `E_HostToBE_32`. -/
def beToHost32 : Endian → U32 → U32
  | .le, x => evrnetSwap32 x
  | .be, x => x

/-- `E_BEToHost_64` and `E_HostToBE_64`. -/
def beToHost64 : Endian → U64 → U64
  | .le, x => evrnetSwap64 x
  | .be, x => x

/-! ### Swapping reverses the bytes -/

lemma swap16_byteAt (x : U16) {i : ℕ} (hi : i < 2) :
    byteAt (evrnetSwap16 x) i = byteAt x (1 - i) := by
  ext j hj
  simp only [byteAt, evrnetSwap16]
  interval_cases i <;> interval_cases j <;> simp

lemma swap32_byteAt (x : U32) {i : ℕ} (hi : i < 4) :
    byteAt (evrnetSwap32 x) i = byteAt x (3 - i) := by
  ext j hj
  simp only [byteAt, evrnetSwap32]
  interval_cases i <;> interval_cases j <;> simp

/-- The bytes of a word put together from two halves. -/
lemma byteAt_join (a b : U32) (i : ℕ) :
    byteAt (a.setWidth 64 <<< 32 ||| b.setWidth 64) i
      = if i < 4 then byteAt b i else if i < 8 then byteAt a (i - 4) else 0 := by
  ext j hj
  simp only [byteAt, BitVec.getElem_extractLsb', BitVec.getLsbD_or, BitVec.getLsbD_shiftLeft,
    BitVec.getLsbD_setWidth]
  split_ifs with h h'
  · have h1 : 8 * i + j < 32 := by omega
    have h2 : 8 * i + j < 64 := by omega
    simp [h1, h2]
  · have h1 : ¬ 8 * i + j < 32 := by omega
    have h2 : 8 * i + j < 64 := by omega
    have h3 : 8 * i + j - 32 = 8 * (i - 4) + j := by omega
    have h4 : 8 * (i - 4) + j < 64 := by omega
    have h5 : b.getLsbD (8 * i + j) = false := BitVec.getLsbD_of_ge b _ (by omega)
    simp [h1, h2, h3, h4, h5]
  · have h1 : ¬ 8 * i + j < 64 := by omega
    simp [h1]

/-- The bytes of the two halves of a word. -/
lemma byteAt_half (x : U64) (k : ℕ) {i : ℕ} (hi : i < 4) :
    byteAt (((x >>> (8 * k)) &&& 0xFFFFFFFF#64).setWidth 32) i = byteAt x (i + k) := by
  ext j hj
  have h1 : 8 * i + j < 32 := by omega
  have h2 : 8 * i + j < 64 := by omega
  have h3 : 8 * k + (8 * i + j) = 8 * (i + k) + j := by ring
  have h4 : (0xFFFFFFFF#64).getLsbD (8 * i + j) = true := by
    interval_cases i <;> interval_cases j <;> rfl
  simp only [byteAt, BitVec.getElem_extractLsb', BitVec.getLsbD_setWidth, BitVec.getLsbD_and,
    BitVec.getLsbD_ushiftRight, h1, h3, h4, decide_true, Bool.true_and, Bool.and_true]

lemma swap64_byteAt (x : U64) {i : ℕ} (hi : i < 8) :
    byteAt (evrnetSwap64 x) i = byteAt x (7 - i) := by
  have hlo : ∀ j < 4, byteAt ((x &&& 0xFFFFFFFF#64).setWidth 32) j = byteAt x j := by
    intro j hj
    simpa using byteAt_half x 0 hj
  have hhi : ∀ j < 4, byteAt ((x >>> 32 &&& 0xFFFFFFFF#64).setWidth 32) j = byteAt x (j + 4) :=
    fun j hj => byteAt_half x 4 hj
  simp only [evrnetSwap64]
  rw [byteAt_join]
  split_ifs with h
  · rw [swap32_byteAt _ h, hhi _ (by omega)]
    congr 1
    omega
  · rw [swap32_byteAt _ (by omega), hlo _ (by omega)]
    congr 1
    omega

lemma swap16_encode (E : Endian) (x : U16) :
    E.encode 2 (evrnetSwap16 x).toNat = E.flip.encode 2 x.toNat := by
  have h : leBytes 2 (evrnetSwap16 x).toNat = (leBytes 2 x.toNat).reverse := by
    simp only [leBytes_eq_map_byteAt, List.range_succ_eq_map, List.range_zero, List.map_cons,
      List.map_nil]
    simp [swap16_byteAt]
  cases E <;> simp [Endian.encode, h]

lemma swap32_encode (E : Endian) (x : U32) :
    E.encode 4 (evrnetSwap32 x).toNat = E.flip.encode 4 x.toNat := by
  have h : leBytes 4 (evrnetSwap32 x).toNat = (leBytes 4 x.toNat).reverse := by
    simp only [leBytes_eq_map_byteAt, List.range_succ_eq_map, List.range_zero, List.map_cons,
      List.map_nil]
    simp [swap32_byteAt]
  cases E <;> simp [Endian.encode, h]

lemma swap64_encode (E : Endian) (x : U64) :
    E.encode 8 (evrnetSwap64 x).toNat = E.flip.encode 8 x.toNat := by
  have h : leBytes 8 (evrnetSwap64 x).toNat = (leBytes 8 x.toNat).reverse := by
    simp only [leBytes_eq_map_byteAt, List.range_succ_eq_map, List.range_zero, List.map_cons,
      List.map_nil]
    simp [swap64_byteAt]
  cases E <;> simp [Endian.encode, h]

/-! ### Conversion of a field -/

/-- A word stored after its conversion to big endian: the bytes on the wire do not depend on the
host. -/
lemma hostToBE16_encode (E : Endian) (x : U16) :
    E.encode 2 (beToHost16 E x).toNat = Endian.be.encode 2 x.toNat := by
  cases E with
  | le => exact swap16_encode .le x
  | be => rfl

lemma hostToBE32_encode (E : Endian) (x : U32) :
    E.encode 4 (beToHost32 E x).toNat = Endian.be.encode 4 x.toNat := by
  cases E with
  | le => exact swap32_encode .le x
  | be => rfl

lemma hostToBE64_encode (E : Endian) (x : U64) :
    E.encode 8 (beToHost64 E x).toNat = Endian.be.encode 8 x.toNat := by
  cases E with
  | le => exact swap64_encode .le x
  | be => rfl

/-- A conversion to big endian, read backwards: converting a loaded word gives the number its
bytes hold in big endian. -/
lemma toNat_of_hostToBE {n : ℕ} {f : Endian → BitVec (8 * n) → BitVec (8 * n)}
    (hf : ∀ (E : Endian) x, E.encode n (f E x).toNat = Endian.be.encode n x.toNat) (E : Endian)
    {l : List Byte} (hl : l.length = n) :
    (f E (BitVec.ofNat (8 * n) (E.decode l))).toNat = Endian.be.decode l := by
  have h256 : (256 : ℕ) ^ n = 2 ^ (8 * n) := by rw [pow_mul]; norm_num
  have hlt : ∀ F : Endian, F.decode l < 256 ^ n := fun F => hl ▸ F.decode_lt l
  have hfx : (f E (BitVec.ofNat (8 * n) (E.decode l))).toNat < 256 ^ n := by
    rw [h256]
    exact BitVec.isLt _
  apply E.encode_injective hfx (hlt .be)
  rw [hf, BitVec.toNat_ofNat, Nat.mod_eq_of_lt (h256 ▸ hlt E), ← hl]
  cases E with
  | le => exact (Endian.le.encode_flip_decode l).trans (Endian.be.encode_flip_decode l).symm
  | be => rfl

lemma beToHost32_decode (E : Endian) {l : List Byte} (hl : l.length = 4) :
    (beToHost32 E (BitVec.ofNat 32 (E.decode l))).toNat = Endian.be.decode l :=
  toNat_of_hostToBE hostToBE32_encode E hl

lemma beToHost64_decode (E : Endian) {l : List Byte} (hl : l.length = 8) :
    (beToHost64 E (BitVec.ofNat 64 (E.decode l))).toNat = Endian.be.decode l :=
  toNat_of_hostToBE hostToBE64_encode E hl

end EverythingNet
